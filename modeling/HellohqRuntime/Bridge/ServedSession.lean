import HellohqRuntime.Bridge.HostCalls
import HellohqRuntime.Foundation.Programs

/-!
# A guest served over a session

The guest on the worker thread is a program: it makes a host call, waits, and goes on
with the response.  The app is a server: it polls, reads the request of a PENDING
poll, and resolves it with its answer.  The two threads interleave as they like, and
the caller may also resolve when nothing is pending.  The main result is that the two
then hold the conversation that the program and the server hold by themselves, to its
end, and that nothing but those stray resolves is left to the order of the steps.
-/

namespace HellohqRuntime.Bridge.ServedSession

open HellohqRuntime.Foundation.Channels
open HellohqRuntime.Foundation.Programs
open HellohqRuntime.Foundation.Runs
open HellohqRuntime.Foundation.Strings
open HellohqRuntime.Bridge.Reporting
open HellohqRuntime.Bridge.Session
open HellohqRuntime.Bridge.Waiting
open HellohqRuntime.Bridge.HostCalls

/-- A guest makes host calls, each of which is answered or fails, and returns a result. -/
abbrev Guest := Program Bytes (Option Bytes) (Except Text Bytes)

variable {σ : Type}

/-- The session with what is left of its guest, and the app that services it. -/
structure ServedRun (σ : Type) where
  run : P3Run
  guest : Guest
  app : σ

inductive Turn where
  | worker
  | poll
  /-- The app answers the pending request. -/
  | answer
  /-- A resolve with nothing pending. -/
  | stray (response : Bytes)

namespace ServedRun

def start (drive : Drive) (guest : Guest) (app : σ) : ServedRun σ :=
  { run := P3Run.start drive, guest, app }

/-- The worker makes its next host call, is woken by the answer of the last one, or
reports its result. -/
def worker (state : ServedRun σ) : Option (ServedRun σ) :=
  match state.guest, state.run.waiting with
  | .done result, _ => (state.run.finish result).map fun run => { state with run }
  -- A call that could not be sent has failed already.
  | .ask request next, [] => (state.run.issue request).map fun run =>
      { state with run, guest := if run.waiting = [] then next none else .ask request next }
  | .ask _ next, call :: _ => (state.run.wake call).map fun run =>
      { state with run, guest := next (run.received.getLast?.bind Prod.snd) }

def poll (state : ServedRun σ) : Option (ServedRun σ) :=
  state.run.poll.map fun run => { state with run }

def answer (serve : Server σ Bytes Bytes) (state : ServedRun σ) : Option (ServedRun σ) :=
  if state.run.session.pendingRespond = none then none
  else
    let served := serve state.app state.run.session.pendingRequest
    some { state with run := state.run.resolve served.1, app := served.2 }

def stray (state : ServedRun σ) (response : Bytes) : Option (ServedRun σ) :=
  if state.run.session.pendingRespond = none then
    some { state with run := state.run.resolve response }
  else none

def step (serve : Server σ Bytes Bytes) (state : ServedRun σ) : Turn → Option (ServedRun σ)
  | .worker => state.worker
  | .poll => state.poll
  | .answer => state.answer serve
  | .stray response => state.stray response

end ServedRun

/-- The app as the guest knows it: every call is answered. -/
def answering (serve : Server σ Bytes Bytes) : Server σ Bytes (Option Bytes) :=
  fun app request => (some (serve app request).1, (serve app request).2)

/-! ## Stages -/

/-- How far a session has come with the current host call, or with the end. -/
inductive Stage where
  | thinking | queued | surfaced | answered | reported | told

/-- How many turns a stage is away from the one where the guest thinks again, or from
the end. -/
def Stage.ahead : Stage → Nat
  | .thinking => 2
  | .queued => 1
  | .surfaced => 0
  | .answered => 3
  | .reported => 1
  | .told => 0

/-- The polls that told the end. -/
def endings : List CallerEvent → List (Polled P3Status) :=
  List.filterMap fun event =>
    match event with
    | .polled polled _ => if polled.status = .pending then none else some polled
    | .resolved _ => none

def endStatus : Except Text Bytes → P3Status
  | .ok _ => .done
  | .error _ => .error

/-- What the first poll that tells the end has to tell. -/
def ended (result : Except Text Bytes) : Polled P3Status :=
  { status := endStatus result, result := resultOf (.done result), report := .done result }

/-- The worker runs, and nobody has hung up. -/
structure Open (run : P3Run) : Prop where
  report : run.report = .running
  sending : run.session.rx.sending = true
  receiving : run.session.rx.receiving = true
  finished : run.session.finished = false
  untold : endings run.transcript = []

/-- No responder is in hand, and the exchanges are these. -/
structure Idle (run : P3Run) (said : List (Bytes × Option Bytes)) : Prop where
  pendingRespond : run.session.pendingRespond = none
  awaits : awaitsResolve run.transcript = false
  exchanges : exchanges run.transcript = said

/-- The session is at a stage: what was said, and what is left of the guest when the
answers on their way have reached it. -/
inductive At (state : ServedRun σ) : Stage → List (Bytes × Option Bytes) → Guest → Prop
  | thinking {said : List (Bytes × Option Bytes)} (hopen : Open state.run)
      (hwaiting : state.run.waiting = []) (hqueue : state.run.session.rx.queue = [])
      (hidle : Idle state.run said) : At state .thinking said state.guest
  | queued {said : List (Bytes × Option Bytes)} {request : Bytes} {next : Option Bytes → Guest}
      {k : Nat} {call : Call} (hopen : Open state.run) (hguest : state.guest = .ask request next)
      (hwaiting : state.run.waiting = [k])
      (hqueue : state.run.session.rx.queue = [.hostCall request k])
      (hcall : state.run.calls[k]? = some call) (hpending : call.respond = .pending)
      (hidle : Idle state.run said) : At state .queued said (.ask request next)
  | surfaced {said : List (Bytes × Option Bytes)} {request : Bytes} {next : Option Bytes → Guest}
      {k : Nat} {call : Call} (hopen : Open state.run) (hguest : state.guest = .ask request next)
      (hwaiting : state.run.waiting = [k]) (hqueue : state.run.session.rx.queue = [])
      (hcall : state.run.calls[k]? = some call) (hpending : call.respond = .pending)
      (hrespond : state.run.session.pendingRespond = some k)
      (hrequest : state.run.session.pendingRequest = request)
      (hawaits : awaitsResolve state.run.transcript = true)
      (hexchanges : exchanges state.run.transcript = said ++ [(request, none)]) :
      At state .surfaced said (.ask request next)
  | answered {said : List (Bytes × Option Bytes)} {request response : Bytes}
      {next : Option Bytes → Guest} {k : Nat} {call : Call} (hopen : Open state.run)
      (hguest : state.guest = .ask request next) (hwaiting : state.run.waiting = [k])
      (hqueue : state.run.session.rx.queue = []) (hcall : state.run.calls[k]? = some call)
      (hanswered : call.respond = .answered response) (hidle : Idle state.run said) :
      At state .answered said (next (some response))
  | reported {said : List (Bytes × Option Bytes)} {result : Except Text Bytes}
      (hguest : state.guest = .done result) (hreport : state.run.report = .done result)
      (hqueue : state.run.session.rx.queue = [.done result])
      (hfinished : state.run.session.finished = false) (huntold : endings state.run.transcript = [])
      (hidle : Idle state.run said) : At state .reported said (.done result)
  | told {said : List (Bytes × Option Bytes)} {result : Except Text Bytes}
      (hguest : state.guest = .done result) (hreport : state.run.report = .done result)
      (hfinished : state.run.session.finished = true)
      (hresult : state.run.session.result = resultOf (.done result))
      (htold : (endings state.run.transcript).head? = some (ended result))
      (hidle : Idle state.run said) : At state .told said (.done result)

/-! ## Turns that are not enabled -/

variable {serve : Server σ Bytes Bytes} {state next final : ServedRun σ} {stage : Stage}
variable {said : List (Bytes × Option Bytes)} {rest : Guest} {turn : Turn}
variable {p3 : P3Run} {transcript : List CallerEvent}

/-- A turn that takes the conversation on. -/
def Turn.advances : Turn → Bool
  | .stray _ => false
  | _ => true

/-- The one turn that takes the conversation on from a stage. -/
def Stage.due : Stage → Turn
  | .thinking => .worker
  | .queued => .poll
  | .surfaced => .answer
  | .answered => .worker
  | .reported => .poll
  | .told => .poll

theorem poll_blocked (hopen : Open p3) (hqueue : p3.session.rx.queue = []) : p3.poll = none := by
  have hreceive : p3.session.rx.receive = .pending :=
    Channel.receive_eq_pending.mpr ⟨hqueue, hopen.sending⟩
  rw [P3Run.poll, HwrP3Session.poll, if_neg (by simp [hopen.finished]), hreceive]
  rfl

theorem wake_blocked {k : Nat} {call : Call} (hcall : p3.calls[k]? = some call)
    (hpending : call.respond = .pending) : p3.wake k = none := by
  rw [Option.eq_none_iff_forall_ne_some]
  intro after hwake
  obtain ⟨-, woken, outcome, hwoken, houtcome, -⟩ := wake_eq_some.mp hwake
  obtain rfl := Option.some.inj (hcall.symm.trans hwoken)
  simp [hpending, Oneshot.outcome] at houtcome

theorem worker_blocked {k : Nat} {call : Call} {request : Bytes} {more : Option Bytes → Guest}
    (hguest : state.guest = .ask request more) (hwaiting : state.run.waiting = [k])
    (hcall : state.run.calls[k]? = some call) (hpending : call.respond = .pending) :
    state.worker = none := by
  simp only [ServedRun.worker, hguest, hwaiting, wake_blocked hcall hpending, Option.map_none]

theorem worker_over {result : Except Text Bytes} (hguest : state.guest = .done result)
    (hreport : state.run.report ≠ .running) : state.worker = none := by
  have hfinish : state.run.finish result = none := by
    rw [Option.eq_none_iff_forall_ne_some]
    intro after hafter
    exact hreport (whileRunning_eq_some.mp hafter).1
  simp only [ServedRun.worker, hguest, hfinish, Option.map_none]

theorem answer_refused (hrespond : state.run.session.pendingRespond = none) :
    state.answer serve = none :=
  if_pos hrespond

/-- No other turn takes the conversation on. -/
theorem turn_eq (hat : At state stage said rest) (hadvances : turn.advances = true)
    (hstep : state.step serve turn = some next) : turn = stage.due := by
  have hworker : state.worker = none → turn ≠ .worker := by
    rintro hnone rfl
    simp [ServedRun.step, hnone] at hstep
  have hpoll : state.run.poll = none → turn ≠ .poll := by
    rintro hnone rfl
    simp [ServedRun.step, ServedRun.poll, hnone] at hstep
  have hanswer : state.run.session.pendingRespond = none → turn ≠ .answer := by
    rintro hnone rfl
    simp [ServedRun.step, answer_refused hnone] at hstep
  have honly : ∀ only, (only ≠ .worker → turn ≠ .worker) → (only ≠ .poll → turn ≠ .poll) →
      (only ≠ .answer → turn ≠ .answer) → only.advances = true → turn = only := by
    intro only hworker hpoll hanswer honly
    cases turn <;> cases only <;> simp_all [Turn.advances]
  cases hat with
  | thinking hopen hwaiting hqueue hidle =>
      exact honly .worker (fun hself => (hself rfl).elim) (fun _ => hpoll (poll_blocked hopen hqueue))
        (fun _ => hanswer hidle.pendingRespond) rfl
  | queued hopen hguest hwaiting hqueue hcall hpending hidle =>
      exact honly .poll (fun _ => hworker (worker_blocked hguest hwaiting hcall hpending))
        (fun hself => (hself rfl).elim) (fun _ => hanswer hidle.pendingRespond) rfl
  | surfaced hopen hguest hwaiting hqueue hcall hpending hrespond hrequest hawaits hexchanges =>
      exact honly .answer (fun _ => hworker (worker_blocked hguest hwaiting hcall hpending))
        (fun _ => hpoll (poll_blocked hopen hqueue)) (fun hself => (hself rfl).elim) rfl
  | answered hopen hguest hwaiting hqueue hcall hanswered hidle =>
      exact honly .worker (fun hself => (hself rfl).elim) (fun _ => hpoll (poll_blocked hopen hqueue))
        (fun _ => hanswer hidle.pendingRespond) rfl
  | reported hguest hreport hqueue hfinished huntold hidle =>
      exact honly .poll (fun _ => hworker (worker_over hguest (by simp [hreport])))
        (fun hself => (hself rfl).elim) (fun _ => hanswer hidle.pendingRespond) rfl
  | told hguest hreport hfinished hresult htold hidle =>
      exact honly .poll (fun _ => hworker (worker_over hguest (by simp [hreport])))
        (fun hself => (hself rfl).elim) (fun _ => hanswer hidle.pendingRespond) rfl

/-! ## One turn -/

@[simp] theorem endings_append_resolved {response : Bytes} :
    endings (transcript ++ [.resolved response]) = endings transcript := by
  simp [endings]

theorem endings_append_pending {polled : Polled P3Status} {request : Bytes}
    (hstatus : polled.status = .pending) :
    endings (transcript ++ [.polled polled request]) = endings transcript := by
  simp [endings, hstatus]

theorem endings_append_ended {polled : Polled P3Status} {request : Bytes}
    (hstatus : polled.status ≠ .pending) :
    endings (transcript ++ [.polled polled request]) = endings transcript ++ [polled] := by
  simp [endings, hstatus]

theorem awaitsResolve_append_polled {polled : Polled P3Status} {request : Bytes} :
    awaitsResolve (transcript ++ [.polled polled request]) = decide (polled.status = .pending) := by
  by_cases hstatus : polled.status = .pending <;> simp [awaitsResolve, HostCalls.surfaced, hstatus]

theorem touch_nil {change : Oneshot Bytes → Oneshot Bytes} {calls : List Call} :
    touch [] change calls = calls :=
  touch_eq_self nofun

theorem calls_resolve {response : Bytes} (hrespond : p3.session.pendingRespond = none) :
    (p3.resolve response).calls = p3.calls := by
  simp [P3Run.resolve, HwrP3Session.resolve, hrespond, touch_nil]

theorem Idle.resolve {response : Bytes} (hidle : Idle p3 said) :
    Idle (p3.resolve response) said where
  pendingRespond := rfl
  awaits := awaitsResolve_append_resolved
  exchanges := (exchanges_append_resolved hidle.awaits).trans hidle.exchanges

theorem Open.resolve {response : Bytes} (hopen : Open p3) : Open (p3.resolve response) where
  report := hopen.report
  sending := hopen.sending
  receiving := hopen.receiving
  finished := hopen.finished
  untold := endings_append_resolved.trans hopen.untold

/-- A resolve with nothing pending changes nothing of the conversation. -/
theorem at_stray {response : Bytes} (hat : At state stage said rest)
    (hstep : state.stray response = some next) : At next stage said rest ∧ next.app = state.app := by
  obtain ⟨hnone, rfl⟩ := by simpa only [ServedRun.stray, Option.ite_none_right_eq_some,
    Option.some.injEq] using hstep
  refine ⟨?_, rfl⟩
  have hcalls := @calls_resolve state.run response hnone
  cases hat with
  | thinking hopen hwaiting hqueue hidle => exact .thinking hopen.resolve hwaiting hqueue hidle.resolve
  | queued hopen hguest hwaiting hqueue hcall hpending hidle =>
      exact .queued hopen.resolve hguest hwaiting hqueue (hcalls ▸ hcall) hpending hidle.resolve
  | surfaced hopen hguest hwaiting hqueue hcall hpending hrespond =>
      rw [hnone] at hrespond
      cases hrespond
  | answered hopen hguest hwaiting hqueue hcall hanswered hidle =>
      exact .answered hopen.resolve hguest hwaiting hqueue (hcalls ▸ hcall) hanswered hidle.resolve
  | reported hguest hreport hqueue hfinished huntold hidle =>
      exact .reported hguest hreport hqueue hfinished (endings_append_resolved.trans huntold)
        hidle.resolve
  | told hguest hreport hfinished hresult htold hidle =>
      exact .told hguest hreport hfinished hresult
        ((congrArg List.head? endings_append_resolved).trans htold) hidle.resolve

theorem worker_of_done {result : Except Text Bytes} (hguest : state.guest = .done result) :
    state.worker = (state.run.finish result).map fun run => { state with run } := by
  simp only [ServedRun.worker, hguest]

theorem worker_of_ask {request : Bytes} {more : Option Bytes → Guest}
    (hguest : state.guest = .ask request more) (hwaiting : state.run.waiting = []) :
    state.worker = (state.run.issue request).map fun run =>
      { state with run, guest := if run.waiting = [] then more none else .ask request more } := by
  simp only [ServedRun.worker, hguest, hwaiting]

theorem worker_of_wait {request : Bytes} {more : Option Bytes → Guest} {k : Nat} {others : List Nat}
    (hguest : state.guest = .ask request more) (hwaiting : state.run.waiting = k :: others) :
    state.worker = (state.run.wake k).map fun run =>
      { state with run, guest := more (run.received.getLast?.bind Prod.snd) } := by
  simp only [ServedRun.worker, hguest, hwaiting]

/-- A guest that is done reports its result. -/
theorem at_report {result : Except Text Bytes} (hguest : state.guest = .done result)
    (hopen : Open state.run) (hqueue : state.run.session.rx.queue = []) (hidle : Idle state.run said) :
    ∃ next, state.worker = some next ∧ next.app = state.app ∧
      At next .reported said (.done result) := by
  have hsend := @Channel.send_eq_some _ state.run.session.rx _ (.done result) |>.mpr
    ⟨hopen.receiving, rfl⟩
  have hfinish : state.run.finish result = some (state.run.ended
      { state.run.session.rx with queue := [.done result] } (.done result)) := by
    refine whileRunning_eq_some.mpr ⟨hopen.report, ?_⟩
    rw [hsend, hqueue]
    rfl
  have hworker : state.worker = some { state with
      run := state.run.ended { state.run.session.rx with queue := [.done result] } (.done result) } := by
    rw [worker_of_done hguest, hfinish]
    rfl
  refine ⟨_, hworker, rfl, ?_⟩
  exact .reported hguest rfl rfl hopen.finished hopen.untold
    ⟨hidle.pendingRespond, hidle.awaits, hidle.exchanges⟩

/-- A guest that asks has its request queued, and waits. -/
theorem at_ask {request : Bytes} {more : Option Bytes → Guest}
    (hguest : state.guest = .ask request more) (hopen : Open state.run)
    (hwaiting : state.run.waiting = []) (hqueue : state.run.session.rx.queue = [])
    (hidle : Idle state.run said) :
    ∃ next, state.worker = some next ∧ next.app = state.app ∧
      At next .queued said (.ask request more) := by
  have hsend := @Channel.send_eq_some _ state.run.session.rx _
    (.hostCall request state.run.calls.length) |>.mpr ⟨hopen.receiving, rfl⟩
  let queued : P3Run := { state.run with
    session := { state.run.session with rx := { state.run.session.rx with
      queue := [.hostCall request state.run.calls.length] } }
    calls := state.run.calls ++ [{ request }]
    waiting := [state.run.calls.length] }
  have hissue : state.run.issue request = some queued := by
    refine whileRunning_eq_some.mpr ⟨hopen.report, ?_⟩
    rw [hsend, hqueue, hwaiting]
    rfl
  have hworker : state.worker = some { state with run := queued, guest := .ask request more } := by
    rw [worker_of_ask hguest hwaiting, hissue]
    rfl
  refine ⟨_, hworker, rfl, ?_⟩
  exact .queued ⟨hopen.report, hopen.sending, hopen.receiving, hopen.finished, hopen.untold⟩ rfl rfl
    rfl List.getElem?_concat_length rfl ⟨hidle.pendingRespond, hidle.awaits, hidle.exchanges⟩

/-- A guest that was answered goes on with the response. -/
theorem at_wake {request response : Bytes} {more : Option Bytes → Guest} {k : Nat} {call : Call}
    (hguest : state.guest = .ask request more) (hopen : Open state.run)
    (hwaiting : state.run.waiting = [k]) (hqueue : state.run.session.rx.queue = [])
    (hcall : state.run.calls[k]? = some call) (hanswered : call.respond = .answered response)
    (hidle : Idle state.run said) :
    ∃ next, state.worker = some next ∧ next.app = state.app ∧
      At next .thinking said (more (some response)) := by
  let woken : P3Run := { state.run with
    waiting := state.run.waiting.erase k
    received := state.run.received ++ [(k, some response)] }
  have hwake : state.run.wake k = some woken :=
    wake_eq_some.mpr ⟨by simp [hwaiting], call, some response, hcall, by rw [hanswered]; rfl, rfl⟩
  have hworker : state.worker = some { state with run := woken, guest := more (some response) } := by
    rw [worker_of_wait hguest hwaiting, hwake]
    simp [woken]
  refine ⟨_, hworker, rfl, .thinking ?_ ?_ hqueue ?_⟩
  · exact ⟨hopen.report, hopen.sending, hopen.receiving, hopen.finished, hopen.untold⟩
  · simp [woken, hwaiting]
  · exact ⟨hidle.pendingRespond, hidle.awaits, hidle.exchanges⟩

/-- The run behind a poll that returned. -/
def behind (run : P3Run) (status : P3Status) (session : HwrP3Session) : P3Run :=
  { run with
    session
    calls :=
      if status = .pending then touch run.session.pendingRespond.toList Oneshot.dropSender run.calls
      else run.calls
    transcript := run.transcript ++ [.polled
      { status, result := session.result, report := run.report } session.pendingRequest] }

theorem poll_of_session {status : P3Status} {session : HwrP3Session}
    (hpoll : state.run.session.poll = some (status, session)) :
    state.poll = some { state with run := behind state.run status session } := by
  rw [ServedRun.poll, P3Run.poll, hpoll]
  rfl

/-- A poll surfaces the queued request. -/
theorem at_surface {request : Bytes} {more : Option Bytes → Guest} {k : Nat} {call : Call}
    (hguest : state.guest = .ask request more) (hopen : Open state.run)
    (hwaiting : state.run.waiting = [k])
    (hqueue : state.run.session.rx.queue = [.hostCall request k])
    (hcall : state.run.calls[k]? = some call) (hpending : call.respond = .pending)
    (hidle : Idle state.run said) :
    ∃ next, state.poll = some next ∧ next.app = state.app ∧
      At next .surfaced said (.ask request more) := by
  have hreceive := Channel.receive_eq_value.mpr ⟨[], hqueue, rfl⟩
  have hpoll : state.run.session.poll = some (.pending, { state.run.session with
      rx := { state.run.session.rx with queue := [] }
      pendingRequest := request
      pendingRespond := some k }) := by
    rw [HwrP3Session.poll, if_neg (by simp [hopen.finished]), hreceive]
  have hcalls : touch state.run.session.pendingRespond.toList Oneshot.dropSender state.run.calls =
      state.run.calls := by
    rw [hidle.pendingRespond]
    exact touch_nil
  have hafter : (behind state.run .pending { state.run.session with
      rx := { state.run.session.rx with queue := [] }
      pendingRequest := request
      pendingRespond := some k }).calls = state.run.calls := hcalls
  refine ⟨_, poll_of_session hpoll, rfl, ?_⟩
  refine .surfaced ⟨hopen.report, hopen.sending, hopen.receiving, hopen.finished, ?_⟩ hguest hwaiting
    rfl (hafter ▸ hcall) hpending rfl rfl ?_ ?_
  · exact (endings_append_pending rfl).trans hopen.untold
  · exact awaitsResolve_append_polled
  · exact exchanges_append_pending.trans (by rw [hidle.exchanges])

/-- The app's answer is that of the server, and is on its way to the guest. -/
theorem at_answer {request : Bytes} {more : Option Bytes → Guest} {k : Nat} {call : Call}
    (hguest : state.guest = .ask request more) (hopen : Open state.run)
    (hwaiting : state.run.waiting = [k]) (hqueue : state.run.session.rx.queue = [])
    (hcall : state.run.calls[k]? = some call) (hpending : call.respond = .pending)
    (hrespond : state.run.session.pendingRespond = some k)
    (hrequest : state.run.session.pendingRequest = request)
    (hawaits : awaitsResolve state.run.transcript = true)
    (hexchanges : exchanges state.run.transcript = said ++ [(request, none)]) :
    ∃ next, state.answer serve = some next ∧ next.app = (serve state.app request).2 ∧
      At next .answered (said ++ [(request, some (serve state.app request).1)])
        (more (some (serve state.app request).1)) := by
  subst hrequest
  refine ⟨_, if_neg (by simp [hrespond]), rfl, ?_⟩
  obtain ⟨before, shown, hbefore, hafter⟩ := exists_of_awaitsResolve hawaits
  obtain ⟨rfl, hshown⟩ := List.append_inj' (hbefore.symm.trans hexchanges) rfl
  obtain ⟨rfl, -⟩ := Prod.mk.inj (List.singleton_inj.mp hshown)
  refine .answered hopen.resolve hguest hwaiting hqueue
    (touch_eq_some.mpr ⟨call, hcall, rfl⟩) ?_ ⟨rfl, awaitsResolve_append_resolved, hafter _⟩
  simp [hrespond, hpending, Oneshot.send]

/-- A poll tells the end as the guest reported it. -/
theorem at_tell {result : Except Text Bytes} (hguest : state.guest = .done result)
    (hreport : state.run.report = .done result)
    (hqueue : state.run.session.rx.queue = [.done result])
    (hfinished : state.run.session.finished = false) (huntold : endings state.run.transcript = [])
    (hidle : Idle state.run said) :
    ∃ next, state.poll = some next ∧ next.app = state.app ∧ At next .told said (.done result) := by
  have hreceive := Channel.receive_eq_value.mpr ⟨[], hqueue, rfl⟩
  have hpoll : state.run.session.poll = some (endStatus result, { state.run.session with
      rx := { state.run.session.rx with queue := [] }
      result := resultOf (.done result)
      finished := true }) := by
    rw [HwrP3Session.poll, if_neg (by simp [hfinished]), hreceive]
    cases result <;> rfl
  have hstatus : endStatus result ≠ .pending := by
    cases result <;> nofun
  refine ⟨_, poll_of_session hpoll, rfl, ?_⟩
  refine .told hguest hreport rfl rfl ?_ ⟨hidle.pendingRespond, ?_, ?_⟩
  · refine (congrArg List.head? (endings_append_ended hstatus)).trans ?_
    simp [huntold, ended, hreport]
  · exact awaitsResolve_append_polled.trans (decide_eq_false hstatus)
  · exact (exchanges_append_ended hstatus).trans hidle.exchanges

/-- Once the end is told, a poll changes nothing of it. -/
theorem at_told_again {result : Except Text Bytes} (hguest : state.guest = .done result)
    (hreport : state.run.report = .done result) (hfinished : state.run.session.finished = true)
    (hresult : state.run.session.result = resultOf (.done result))
    (htold : (endings state.run.transcript).head? = some (ended result))
    (hidle : Idle state.run said) :
    ∃ next, state.poll = some next ∧ next.app = state.app ∧ At next .told said (.done result) := by
  have hpoll : state.run.session.poll = some (.done, state.run.session) := if_pos hfinished
  have hstatus : P3Status.done ≠ .pending := nofun
  refine ⟨_, poll_of_session hpoll, rfl, ?_⟩
  refine .told hguest hreport hfinished hresult ?_ ⟨hidle.pendingRespond, ?_, ?_⟩
  · refine (congrArg List.head? (endings_append_ended hstatus)).trans ?_
    rw [List.head?_append, htold]
    rfl
  · exact awaitsResolve_append_polled.trans (decide_eq_false hstatus)
  · exact (exchanges_append_ended hstatus).trans hidle.exchanges

/-! ## The conversation -/

/-- How many turns take the conversation to its end. -/
def left (serve : Server σ Bytes Bytes) (app : σ) (stage : Stage) (rest : Guest) : Nat :=
  4 * (rest.converse (answering serve) app).exchanges.length + stage.ahead

abbrev Talk (σ : Type) := Conversation σ Bytes (Option Bytes) (Except Text Bytes)

variable {talk : Talk σ} {n : Nat}

/-- The session is in the conversation, this many turns from its end. -/
def InTalk (serve : Server σ Bytes Bytes) (talk : Talk σ) (n : Nat) (state : ServedRun σ) : Prop :=
  ∃ stage said rest, At state stage said rest ∧
    (rest.converse (answering serve) state.app).after said = talk ∧
      left serve state.app stage rest = n

theorem inTalk_start (drive : Drive) (guest : Guest) (app : σ) :
    InTalk serve (guest.converse (answering serve) app)
      (4 * (guest.converse (answering serve) app).exchanges.length + 2)
      (ServedRun.start drive guest app) :=
  ⟨.thinking, [], guest, .thinking ⟨rfl, rfl, rfl, rfl, rfl⟩ rfl rfl ⟨rfl, rfl, rfl⟩, rfl, rfl⟩

/-- The turn that is due can be taken, and takes the conversation on. -/
theorem due_step (serve : Server σ Bytes Bytes) (hat : At state stage said rest) :
    ∃ next, state.step serve stage.due = some next ∧
      InTalk serve ((rest.converse (answering serve) state.app).after said)
        (left serve state.app stage rest - 1) next := by
  cases hat with
  | thinking hopen hwaiting hqueue hidle =>
      cases hguest : state.guest with
      | done result =>
          obtain ⟨next, hnext, happ, hat⟩ := at_report hguest hopen hqueue hidle
          exact ⟨next, hnext, .reported, said, _, hat, by rw [happ], by rw [happ]; rfl⟩
      | ask request more =>
          obtain ⟨next, hnext, happ, hat⟩ := at_ask hguest hopen hwaiting hqueue hidle
          exact ⟨next, hnext, .queued, said, _, hat, by rw [happ], by rw [happ]; rfl⟩
  | queued hopen hguest hwaiting hqueue hcall hpending hidle =>
      obtain ⟨next, hnext, happ, hat⟩ :=
        at_surface hguest hopen hwaiting hqueue hcall hpending hidle
      exact ⟨next, hnext, .surfaced, said, _, hat, by rw [happ], by rw [happ]; rfl⟩
  | surfaced hopen hguest hwaiting hqueue hcall hpending hrespond hrequest hawaits hexchanges =>
      obtain ⟨next, hnext, happ, hat⟩ := at_answer hguest hopen hwaiting hqueue hcall hpending
        hrespond hrequest hawaits hexchanges
      refine ⟨next, hnext, .answered, _, _, hat, ?_, ?_⟩
      · rw [happ, Program.converse, Conversation.after_after]
        rfl
      · rw [happ, left, left, Program.converse]
        simp only [answering, Conversation.after_exchanges, List.length_append,
          List.length_singleton, Stage.ahead]
        omega
  | answered hopen hguest hwaiting hqueue hcall hanswered hidle =>
      obtain ⟨next, hnext, happ, hat⟩ := at_wake hguest hopen hwaiting hqueue hcall hanswered hidle
      exact ⟨next, hnext, .thinking, said, _, hat, by rw [happ], by rw [happ]; rfl⟩
  | reported hguest hreport hqueue hfinished huntold hidle =>
      obtain ⟨next, hnext, happ, hat⟩ := at_tell hguest hreport hqueue hfinished huntold hidle
      exact ⟨next, hnext, .told, said, _, hat, by rw [happ], by rw [happ]; rfl⟩
  | told hguest hreport hfinished hresult htold hidle =>
      obtain ⟨next, hnext, happ, hat⟩ := at_told_again hguest hreport hfinished hresult htold hidle
      exact ⟨next, hnext, .told, said, _, hat, by rw [happ], by rw [happ]; rfl⟩

theorem inTalk_step (htalk : InTalk serve talk n state) (hstep : state.step serve turn = some next) :
    InTalk serve talk (n - turn.advances.toNat) next := by
  obtain ⟨stage, said, rest, hat, rfl, rfl⟩ := htalk
  cases hadvances : turn.advances with
  | true =>
      obtain rfl := turn_eq hat hadvances hstep
      obtain ⟨other, hother, htalk⟩ := due_step serve hat
      obtain rfl := Option.some.inj (hstep.symm.trans hother)
      exact htalk
  | false =>
      cases turn with
      | stray response =>
          obtain ⟨hat, happ⟩ := at_stray hat hstep
          exact ⟨stage, said, rest, hat, by rw [happ], by rw [happ]; rfl⟩
      | worker => cases hadvances
      | poll => cases hadvances
      | answer => cases hadvances

/-- After its turns a session is as far on in the conversation. -/
theorem inTalk_run {drive : Drive} {guest : Guest} {app : σ} {turns : List Turn}
    (hrun : run (ServedRun.step serve) (ServedRun.start drive guest app) turns = some final) :
    InTalk serve (guest.converse (answering serve) app)
      (4 * (guest.converse (answering serve) app).exchanges.length + 2 -
        turns.countP Turn.advances) final := by
  have hhistory := @run_history _ _ (ServedRun.step serve)
    (fun past state => InTalk serve (guest.converse (answering serve) app)
      (4 * (guest.converse (answering serve) app).exchanges.length + 2 -
        past.countP Turn.advances) state) ?_ [] turns _ _ (inTalk_start drive guest app) hrun
  · simpa using hhistory
  · intro past state turn next htalk hstep
    have hafter := inTalk_step htalk hstep
    rw [Nat.sub_sub] at hafter
    rw [List.countP_append, List.countP_singleton]
    cases turn <;> simpa [Turn.advances] using hafter

/-! ## Whole sessions -/

/-- What a session has of a conversation. -/
structure Holds (serve : Server σ Bytes Bytes) (talk : Talk σ) (state : ServedRun σ) : Prop where
  /-- What was said so far is how the conversation begins, and what is left of it
  is what is left of the guest and the app; one request may be out. -/
  underway : ∃ (said : List (Bytes × Option Bytes)) (rest : Guest),
    (rest.converse (answering serve) state.app).after said = talk ∧
    (exchanges state.run.transcript = said ∨ ∃ request next, rest = .ask request next ∧
      exchanges state.run.transcript = said ++ [(request, none)])
  /-- When the end is known all was said, and the first poll to tell it told the result. -/
  told : state.run.session.finished = true →
    exchanges state.run.transcript = talk.exchanges ∧ state.app = talk.state ∧
      state.run.session.result = resultOf (.done talk.result) ∧
      (endings state.run.transcript).head? = some (ended talk.result)

theorem InTalk.holds (htalk : InTalk serve talk n state) : Holds serve talk state := by
  obtain ⟨stage, said, rest, hat, rfl, -⟩ := htalk
  have hopened : Open state.run → state.run.session.finished = true → False := by
    intro hopen hover
    simp [hopen.finished] at hover
  cases hat with
  | thinking hopen hwaiting hqueue hidle =>
      exact ⟨⟨said, _, rfl, .inl hidle.exchanges⟩, fun hover => (hopened hopen hover).elim⟩
  | queued hopen hguest hwaiting hqueue hcall hpending hidle =>
      exact ⟨⟨said, _, rfl, .inl hidle.exchanges⟩, fun hover => (hopened hopen hover).elim⟩
  | surfaced hopen hguest hwaiting hqueue hcall hpending hrespond hrequest hawaits hexchanges =>
      exact ⟨⟨said, _, rfl, .inr ⟨_, _, rfl, hexchanges⟩⟩, fun hover => (hopened hopen hover).elim⟩
  | answered hopen hguest hwaiting hqueue hcall hanswered hidle =>
      exact ⟨⟨said, _, rfl, .inl hidle.exchanges⟩, fun hover => (hopened hopen hover).elim⟩
  | reported hguest hreport hqueue hfinished huntold hidle =>
      refine ⟨⟨said, _, rfl, .inl hidle.exchanges⟩, fun hover => ?_⟩
      simp [hfinished] at hover
  | told hguest hreport hfinished hresult htold hidle =>
      refine ⟨⟨said, _, rfl, .inl hidle.exchanges⟩, fun _ => ⟨?_, rfl, hresult, htold⟩⟩
      rw [hidle.exchanges, Conversation.after_exchanges, Program.converse, List.append_nil]

/-- The end is known exactly when no turn is left. -/
theorem InTalk.finished_iff (htalk : InTalk serve talk n state) :
    state.run.session.finished = true ↔ n = 0 := by
  obtain ⟨stage, said, rest, hat, -, rfl⟩ := htalk
  cases hat with
  | thinking hopen => simp [hopen.finished, left, Stage.ahead]
  | queued hopen => simp [hopen.finished, left, Stage.ahead]
  | surfaced hopen =>
      simp [hopen.finished, left, Stage.ahead, Program.converse]
  | answered hopen => simp [hopen.finished, left, Stage.ahead]
  | reported hguest hreport hqueue hfinished => simp [hfinished, left, Stage.ahead]
  | told hguest hreport hfinished => simp [hfinished, left, Stage.ahead, Program.converse]

/-- From anywhere in a conversation its end can be reached. -/
theorem InTalk.exists_finished (htalk : InTalk serve talk n state) :
    ∃ turns final, run (ServedRun.step serve) state turns = some final ∧
      final.run.session.finished = true := by
  induction n generalizing state with
  | zero => exact ⟨[], state, rfl, htalk.finished_iff.mpr rfl⟩
  | succ n ih =>
      obtain ⟨stage, said, rest, hat, rfl, hleft⟩ := htalk
      obtain ⟨next, hnext, hafter⟩ := due_step serve hat
      rw [hleft] at hafter
      obtain ⟨turns, final, hrun, hfinished⟩ := ih hafter
      exact ⟨stage.due :: turns, final, run_cons_eq_some.mpr ⟨next, hnext, hrun⟩, hfinished⟩

/-- A guest whose second request is the first response. -/
def relay : Guest :=
  .ask [0x61] fun first => .ask (first.getD []) fun second => .done (.ok (second.getD []))

/-- An app that numbers the requests. -/
def numbering : Server Nat Bytes Bytes := fun app request => (request ++ [UInt8.ofNat app], app + 1)

/-- Six turns and four more, with resolves that come too early and too late. -/
def relayTurns : List Turn :=
  [.stray [0x30], .worker, .poll, .answer, .stray [0x31], .worker, .worker, .stray [0x32], .poll,
    .answer, .worker, .worker, .poll, .stray [0x33]]

/-- Whatever the order of the turns, the guest and the app hold the conversation that
they hold by themselves. -/
theorem holds_of_run (serve : Server σ Bytes Bytes) (drive : Drive) (guest : Guest) (app : σ)
    (turns : List Turn) (final : ServedRun σ)
    (hrun : run (ServedRun.step serve) (ServedRun.start drive guest app) turns = some final) :
    Holds serve (guest.converse (answering serve) app) final :=
  (inTalk_run hrun).holds

theorem holds_of_run_example :
    ∃ final, run (ServedRun.step numbering) (ServedRun.start .sync relay 7) relayTurns = some final ∧
      final.run.session.result = [0x61, 7, 8] ∧
      Holds numbering (relay.converse (answering numbering) 7) final :=
  ⟨_, rfl, by decide, holds_of_run numbering .sync relay 7 relayTurns _ rfl⟩

/-- The end is known after four turns for each exchange and two more, and before
that exactly one turn is not a stray resolve: the session never stalls and never spins. -/
theorem turns_of_run (serve : Server σ Bytes Bytes) (drive : Drive) (guest : Guest) (app : σ)
    (turns : List Turn) (final : ServedRun σ)
    (hrun : run (ServedRun.step serve) (ServedRun.start drive guest app) turns = some final) :
    (final.run.session.finished = true ↔
        4 * (guest.converse (answering serve) app).exchanges.length + 2 ≤
          turns.countP Turn.advances) ∧
      (final.run.session.finished = false →
        ∃! turn, turn.advances = true ∧ (final.step serve turn).isSome = true) := by
  have htalk := inTalk_run hrun
  refine ⟨by rw [htalk.finished_iff]; omega, fun _ => ?_⟩
  obtain ⟨stage, said, rest, hat, -, -⟩ := htalk
  obtain ⟨next, hnext, -⟩ := due_step serve hat
  refine ⟨stage.due, ⟨by cases stage <;> rfl, by rw [hnext]; rfl⟩, ?_⟩
  rintro turn ⟨hadvances, henabled⟩
  obtain ⟨other, hother⟩ := Option.isSome_iff_exists.mp henabled
  exact turn_eq hat hadvances hother

theorem turns_of_run_example :
    ∃ final, run (ServedRun.step numbering) (ServedRun.start .async relay 7)
        (relayTurns.take 9) = some final ∧
      (final.step numbering .answer).isSome = true ∧
      (final.run.session.finished = false →
        ∃! turn, turn.advances = true ∧ (final.step numbering turn).isSome = true) :=
  ⟨_, rfl, by decide, (turns_of_run numbering .async relay 7 (relayTurns.take 9) _ rfl).2⟩

end HellohqRuntime.Bridge.ServedSession

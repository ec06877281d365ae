import HellohqRuntime.Bridge.Reporting

/-!
# The session of host calls

The guest runs on a worker thread.  Each host call of it is an event with the
request and a responder, and the worker waits for the other end of the responder.
The caller polls for events and resolves the pending call.

A run is any interleaving of the worker's steps with the caller's.  Nothing is
assumed of the worker but that its report is its last event: it may have several
calls open, and may end with calls open.  The guest's calls are numbered as they
are issued, and a responder is the number of its call.
-/

namespace HellohqRuntime.Bridge.Session

open HellohqRuntime.Foundation.Channels
open HellohqRuntime.Foundation.Runs
open HellohqRuntime.Foundation.Strings
open HellohqRuntime.Foundation.Utf8
open HellohqRuntime.Bridge.Reporting

/-- `HWR_P3_PENDING`, `HWR_P3_DONE` and `HWR_P3_ERROR`. -/
inductive P3Status where
  | pending | done | error
  deriving DecidableEq, Repr

inductive P3Event where
  | hostCall (request : Bytes) (respond : Nat)
  | done (result : Except Text Bytes)

structure HwrP3Session where
  rx : Channel P3Event := {}
  pendingRequest : Bytes := []
  pendingRespond : Option Nat := none
  result : Bytes := []
  finished : Bool := false

namespace HwrP3Session

/-- Block until the next event; not enabled while there is none. -/
def poll (session : HwrP3Session) : Option (P3Status × HwrP3Session) :=
  if session.finished then some (.done, session)
  else
    match session.rx.receive with
    | .value (.hostCall request respond) rx =>
        some (.pending,
          { session with rx, pendingRequest := request, pendingRespond := some respond })
    | .value (.done (.ok out)) rx =>
        some (.done, { session with rx, result := out, finished := true })
    | .value (.done (.error msg)) rx =>
        some (.error, { session with rx, result := asBytes msg, finished := true })
    | .disconnected => some (.error, { session with finished := true })
    | .pending => none

/-- The responder that takes the response, and the session without it. -/
def resolve (session : HwrP3Session) : Option Nat × HwrP3Session :=
  (session.pendingRespond, { session with pendingRespond := none, pendingRequest := [] })

end HwrP3Session

/-! ## The worker and the caller -/

/-- How the guest's host call waits for its response. -/
inductive Drive where
  /-- `p3_drive`: the call waits, whether or not its request could be sent. -/
  | async
  /-- `TransportWorkspaceHost::call` and `TransportPluginHost::forward`: a request
  that cannot be sent fails the call. -/
  | sync
  deriving DecidableEq, Repr

structure Call where
  request : Bytes
  respond : Oneshot Bytes := .pending

/-- Let some responders act on their calls. -/
def touch (responders : List Nat) (change : Oneshot Bytes → Oneshot Bytes) (calls : List Call) :
    List Call :=
  calls.mapIdx fun k call =>
    if k ∈ responders then { call with respond := change call.respond } else call

/-- What the caller did: a poll that returned, with the request bytes it left readable,
or a resolve. -/
inductive CallerEvent where
  | polled (polled : Polled P3Status) (request : Bytes)
  | resolved (response : Bytes)

structure P3Run where
  session : HwrP3Session := {}
  drive : Drive
  report : Report := .running
  calls : List Call := []
  /-- The calls the worker waits on. -/
  waiting : List Nat := []
  /-- The response each call returned with, or that it failed. -/
  received : List (Nat × Option Bytes) := []
  transcript : List CallerEvent := []

inductive Label where
  | issue (request : Bytes)
  | wake (call : Nat)
  | finish (result : Except Text Bytes)
  | vanish
  | poll
  | resolve (response : Bytes)

def Label.isWorker : Label → Bool
  | .poll => false
  | .resolve _ => false
  | _ => true

namespace P3Run

def start (drive : Drive) : P3Run := { drive }

/-- The guest makes a host call. -/
def issue (run : P3Run) (request : Bytes) : Option P3Run :=
  let respond := run.calls.length
  whileRunning run.report <|
    match run.session.rx.send (.hostCall request respond), run.drive with
    | some rx, _ => { run with
        session := { run.session with rx }
        calls := run.calls ++ [{ request }]
        waiting := run.waiting ++ [respond] }
    -- The event is dropped, and its responder with it.
    | none, .async => { run with
        calls := run.calls ++ [{ request, respond := .cancelled }]
        waiting := run.waiting ++ [respond] }
    | none, .sync => { run with
        calls := run.calls ++ [{ request, respond := .cancelled }]
        received := run.received ++ [(respond, none)] }

/-- The worker is woken with the outcome of a call it waits on. -/
def wake (run : P3Run) (call : Nat) : Option P3Run :=
  if call ∈ run.waiting then
    (run.calls[call]?.bind fun call => call.respond.outcome).map fun outcome => { run with
      waiting := run.waiting.erase call
      received := run.received ++ [(call, outcome)] }
  else none

/-- The worker is over, and waits on nothing. -/
def ended (run : P3Run) (rx : Channel P3Event) (report : Report) : P3Run :=
  { run with
    session := { run.session with rx := rx.dropSender }
    report
    calls := touch run.waiting Oneshot.dropReceiver run.calls
    waiting := [] }

def finish (run : P3Run) (result : Except Text Bytes) : Option P3Run :=
  whileRunning run.report <|
    run.ended ((run.session.rx.send (.done result)).getD run.session.rx) (.done result)

/-- The thread panics. -/
def vanish (run : P3Run) : Option P3Run :=
  whileRunning run.report <| run.ended run.session.rx .vanished

def poll (run : P3Run) : Option P3Run :=
  run.session.poll.map fun (status, session) => { run with
    session
    -- A responder that another one replaces is dropped.
    calls :=
      if status = .pending then
        touch run.session.pendingRespond.toList Oneshot.dropSender run.calls
      else run.calls
    transcript := run.transcript ++ [.polled
      { status, result := session.result, report := run.report } session.pendingRequest] }

def resolve (run : P3Run) (response : Bytes) : P3Run :=
  let (respond, session) := run.session.resolve
  { run with
    session
    calls := touch respond.toList (Oneshot.send response) run.calls
    transcript := run.transcript ++ [.resolved response] }

def step (run : P3Run) : Label → Option P3Run
  | .issue request => run.issue request
  | .wake call => run.wake call
  | .finish result => run.finish result
  | .vanish => run.vanish
  | .poll => run.poll
  | .resolve response => some (run.resolve response)

end P3Run

/-! ## What the worker reports and the polls tell -/

def P3Status.kind : P3Status → Status
  | .pending => .message
  | .done => .done
  | .error => .error

def P3Event.kind : P3Event → Event
  | .hostCall _ _ => .message
  | .done result => .done result

def CallerEvent.polled? : CallerEvent → Option (Polled Status)
  | .polled told _ => some (told.map P3Status.kind)
  | .resolved _ => none

variable {drive : Drive} {state next final : P3Run} {label : Label}

namespace P3Run

/-- What the polls told, with host calls as messages. -/
def polls (run : P3Run) : List (Polled Status) := run.transcript.filterMap CallerEvent.polled?

/-- The run with its host calls out of sight. -/
def reporting (run : P3Run) : ReportingRun :=
  { rx := run.session.rx.map P3Event.kind
    result := run.session.result
    finished := run.session.finished
    report := run.report
    polls := run.polls }

end P3Run

def Label.action : Label → Option Action
  | .issue _ => some .send
  | .wake _ => none
  | .finish result => some (.finish result)
  | .vanish => some .vanish
  | .poll => some .poll
  | .resolve _ => none

theorem reporting_issue {request : Bytes} (hstep : state.issue request = some next) :
    state.reporting.send = some next.reporting := by
  obtain ⟨hreport, rfl⟩ := whileRunning_eq_some.mp hstep
  have hmap := @Channel.map_getD_send _ _ state.session.rx
    (.hostCall request state.calls.length) P3Event.kind
  refine whileRunning_eq_some.mpr ⟨hreport, ?_⟩
  cases hsend : state.session.rx.send (.hostCall request state.calls.length) with
  | some rx =>
      rw [hsend, Option.getD_some] at hmap
      exact congrArg (fun rx => { state.reporting with rx }) hmap
  | none =>
      rw [hsend, Option.getD_none] at hmap
      cases state.drive with
      | async => exact congrArg (fun rx => { state.reporting with rx }) hmap
      | sync => exact congrArg (fun rx => { state.reporting with rx }) hmap

theorem reporting_finish {result : Except Text Bytes} (hstep : state.finish result = some next) :
    state.reporting.finish result = some next.reporting := by
  obtain ⟨hreport, rfl⟩ := whileRunning_eq_some.mp hstep
  refine whileRunning_eq_some.mpr ⟨hreport, ?_⟩
  simp only [P3Run.reporting, P3Run.ended, Channel.map_dropSender, Channel.map_getD_send]
  rfl

theorem reporting_vanish (hstep : state.vanish = some next) :
    state.reporting.vanish = some next.reporting := by
  obtain ⟨hreport, rfl⟩ := whileRunning_eq_some.mp hstep
  exact whileRunning_eq_some.mpr ⟨hreport, rfl⟩

/-- The two polls see the same event. -/
theorem next_reporting (state : P3Run) :
    state.reporting.next =
      state.session.poll.map fun (status, session) =>
        (status.kind, ({ state with session } : P3Run).reporting) := by
  have hmap : state.reporting.rx.receive = state.session.rx.receive.map P3Event.kind :=
    Channel.map_receive _
  unfold ReportingRun.next HwrP3Session.poll
  have hsame : state.reporting.finished = state.session.finished := rfl
  rw [hsame, hmap]
  by_cases hfinished : state.session.finished = true
  · rw [if_pos hfinished, if_pos hfinished]
    rfl
  · rw [if_neg hfinished, if_neg hfinished]
    cases state.session.rx.receive with
    | pending => rfl
    | disconnected => rfl
    | value event rx =>
        cases event with
        | hostCall request respond => rfl
        | done result => cases result <;> rfl

theorem reporting_poll (hstep : state.poll = some next) :
    state.reporting.poll = some next.reporting := by
  rw [P3Run.poll, Option.map_eq_some_iff] at hstep
  obtain ⟨⟨status, session⟩, hpoll, rfl⟩ := hstep
  refine poll_eq_some.mpr ⟨status.kind, ({ state with session } : P3Run).reporting, ?_, ?_⟩
  · rw [next_reporting, hpoll]
    rfl
  · simp [P3Run.reporting, P3Run.polls, CallerEvent.polled?, Polled.map]

/-- Once the end is known, a poll is made only where the worker returned a result. -/
def PollsSuccess (run : P3Run) : Label → Prop
  | .poll => run.session.finished = true → run.report.succeeded = true
  | _ => True

instance (run : P3Run) : ∀ label, Decidable (PollsSuccess run label)
  | .poll => inferInstanceAs (Decidable (run.session.finished = true → run.report.succeeded = true))
  | .issue _ => inferInstanceAs (Decidable True)
  | .wake _ => inferInstanceAs (Decidable True)
  | .finish _ => inferInstanceAs (Decidable True)
  | .vanish => inferInstanceAs (Decidable True)
  | .resolve _ => inferInstanceAs (Decidable True)

theorem reporting_hidden (haction : label.action = none) (hstep : state.step label = some next) :
    next.reporting = state.reporting := by
  cases label with
  | wake call =>
      simp only [P3Run.step, P3Run.wake, Option.ite_none_right_eq_some, Option.map_eq_some_iff]
        at hstep
      obtain ⟨-, outcome, -, rfl⟩ := hstep
      rfl
  | resolve response =>
      obtain rfl := Option.some.inj hstep
      simp [P3Run.reporting, P3Run.resolve, HwrP3Session.resolve, P3Run.polls, CallerEvent.polled?]
  | issue request => cases haction
  | finish result => cases haction
  | vanish => cases haction
  | poll => cases haction

theorem reporting_shown {action : Action} (haction : label.action = some action)
    (hstep : state.step label = some next) :
    state.reporting.step action = some next.reporting := by
  cases label with
  | issue request =>
      obtain rfl := Option.some.inj haction
      exact reporting_issue hstep
  | finish result =>
      obtain rfl := Option.some.inj haction
      exact reporting_finish hstep
  | vanish =>
      obtain rfl := Option.some.inj haction
      exact reporting_vanish hstep
  | poll =>
      obtain rfl := Option.some.inj haction
      exact reporting_poll hstep
  | wake call => cases haction
  | resolve response => cases haction

theorem pollsSuccess_iff (state : P3Run) (label : Label) :
    PollsSuccess state label ↔
      ∀ action ∈ label.action, Reporting.PollsSuccess state.reporting action := by
  cases label with
  | poll => simp [PollsSuccess, Label.action, Reporting.PollsSuccess, P3Run.reporting]
  | issue request => simp [PollsSuccess, Label.action, Reporting.PollsSuccess]
  | finish result => simp [PollsSuccess, Label.action, Reporting.PollsSuccess]
  | vanish => simp [PollsSuccess, Label.action, Reporting.PollsSuccess]
  | wake call => simp [PollsSuccess, Label.action]
  | resolve response => simp [PollsSuccess, Label.action]

/-- What the polls of a session tell is truthful and stable exactly where no poll is
made after the end is known of a run that did not return. -/
theorem polls_truthful_iff {labels : List Label}
    (hrun : run P3Run.step (P3Run.start drive) labels = some final) :
    Truthful final.polls ↔ EachStep P3Run.step PollsSuccess (P3Run.start drive) labels := by
  obtain ⟨hreporting, hconditions⟩ := run_project P3Run.reporting Label.action
    (fun _ _ _ => reporting_hidden) (fun _ _ _ _ => reporting_shown) pollsSuccess_iff hrun
  rw [hconditions]
  exact truthful_iff hreporting

end HellohqRuntime.Bridge.Session

import HellohqRuntime.Bridge.Stream
import HellohqRuntime.Bridge.Waiting

/-!
# Freeing a session

`Drop` gives up what the caller holds, disconnects the receiver of events and joins
the worker.  Between these steps the worker goes on; the caller makes no call any
more.  A responder that is alive is in the queue of events or in the hand of the
caller, so that behind the second step of `Drop` none is.
-/

namespace HellohqRuntime.Bridge.Freeing

open HellohqRuntime.Foundation.Channels
open HellohqRuntime.Foundation.Runs
open HellohqRuntime.Foundation.Strings
open HellohqRuntime.Bridge.Reporting
open HellohqRuntime.Bridge.Session
open HellohqRuntime.Bridge.Stream (P3sRun)
open HellohqRuntime.Bridge.Waiting

/-- How far `Drop` has come. -/
inductive Phase where
  | live
  /-- `pending_respond`, or `in_tx`, is taken. -/
  | released
  | disconnected
  | joined
  deriving DecidableEq, Repr

/-- The receiver of events is gone. -/
def Phase.isDisconnected : Phase → Bool
  | .disconnected => true
  | .joined => true
  | _ => false

/-- The worker thread has returned, so that a join does. -/
def isOver : Report → Bool
  | .running => false
  | _ => true

/-! ## The session of host calls -/

structure FreedSession where
  run : P3Run
  phase : Phase := .live

inductive SessionLabel where
  | run (label : Label)
  | takeRespond
  | disconnect
  | join

def queuedResponder : P3Event → Option Nat
  | .hostCall _ respond => some respond
  | .done _ => none

/-- The responders in the queue of events. -/
def queuedResponders (session : HwrP3Session) : List Nat :=
  session.rx.queue.filterMap queuedResponder

namespace FreedSession

def start (drive : Drive) : FreedSession := { run := .start drive }

/-- The caller makes calls while the session is live, the worker goes on in every phase. -/
def advance (state : FreedSession) (label : Label) : Option FreedSession :=
  if state.phase = .live ∨ label.isWorker = true then
    (state.run.step label).map fun run => { state with run }
  else none

/-- `self.pending_respond.take()` -/
def takeRespond (state : FreedSession) : Option FreedSession :=
  if state.phase = .live then
    some {
      run := { state.run with
        session := { state.run.session with pendingRespond := none }
        calls := touch state.run.session.pendingRespond.toList Oneshot.dropSender state.run.calls }
      phase := .released }
  else none

/-- The receiver is replaced, and drops the queued events with their responders. -/
def disconnect (state : FreedSession) : Option FreedSession :=
  if state.phase = .released then
    some {
      run := { state.run with
        session := { state.run.session with rx := state.run.session.rx.dropReceiver }
        calls := touch (queuedResponders state.run.session) Oneshot.dropSender state.run.calls }
      phase := .disconnected }
  else none

def join (state : FreedSession) : Option FreedSession :=
  if state.phase = .disconnected ∧ isOver state.run.report = true then
    some { state with phase := .joined }
  else none

def step (state : FreedSession) : SessionLabel → Option FreedSession
  | .run label => state.advance label
  | .takeRespond => state.takeRespond
  | .disconnect => state.disconnect
  | .join => state.join

end FreedSession

/-- No call of the worker waits for an answer that cannot come. -/
structure NotStranded (state : FreedSession) : Prop where
  /-- The responders of the calls it waits on have answered or are dropped. -/
  settled : ∀ k ∈ state.run.waiting, ∃ call, state.run.calls[k]? = some call ∧
    call.respond ≠ .pending
  /-- It can be woken from each. -/
  wakes : ∀ k ∈ state.run.waiting, ∃ next, state.step (.run (.wake k)) = some next
  /-- A further call fails, at once or with a wake that is enabled at once. -/
  fails : ∀ request next, state.step (.run (.issue request)) = some next →
    ∃ after, (after = next ∨ next.step (.run (.wake state.run.calls.length)) = some after) ∧
      after.run.received = state.run.received ++ [(state.run.calls.length, none)] ∧
      after.run.waiting = state.run.waiting

/-! ### Where a responder is -/

variable {drive : Drive} {state next final : FreedSession} {label : Label}
variable {move : SessionLabel} {now after : P3Run}

/-- A responder that is alive is queued or in the hand of the caller. -/
def Placed (run : P3Run) : Prop :=
  ∀ k call, run.calls[k]? = some call → call.respond = .pending →
    k ∈ queuedResponders run.session ∨ run.session.pendingRespond = some k

theorem placed_start : Placed (P3Run.start drive) := fun _ _ hcall => by cases hcall

/-- Where responders act and none of the others is lost, the others keep their place. -/
theorem placed_touch {responders : List Nat} {change : Oneshot Bytes → Oneshot Bytes}
    (hplaced : Placed now) (hchange : ∀ oneshot, change oneshot ≠ .pending)
    (hcalls : after.calls = touch responders change now.calls)
    (hkept : ∀ k, k ∈ queuedResponders now.session ∨ now.session.pendingRespond = some k →
      k ∉ responders →
      k ∈ queuedResponders after.session ∨ after.session.pendingRespond = some k) :
    Placed after := by
  intro k call hcall hpending
  rw [hcalls] at hcall
  obtain ⟨before, hbefore, rfl⟩ := touch_eq_some.mp hcall
  by_cases hmem : k ∈ responders
  · exact (hchange _ (by simpa [hmem] using hpending)).elim
  · exact hkept k (hplaced k before hbefore (by simpa [hmem] using hpending)) hmem

theorem send_ne_pending {response : Bytes} (oneshot : Oneshot Bytes) :
    oneshot.send response ≠ .pending := by
  cases oneshot <;> nofun

theorem placed_issue {request : Bytes} (hplaced : Placed now)
    (hstep : now.issue request = some after) : Placed after := by
  obtain ⟨-, ⟨-, rfl⟩ | ⟨-, -, rfl⟩ | ⟨-, -, rfl⟩⟩ := issue_cases hstep
  · intro k call hcall hpending
    simp only [queuedResponders, List.filterMap_append, List.mem_append]
    rcases getElem?_concat_eq_some hcall with hold | ⟨rfl, -⟩
    · rcases hplaced k call hold hpending with hqueued | hheld
      · exact .inl (.inl hqueued)
      · exact .inr hheld
    · exact .inl (.inr (by simp [queuedResponder]))
  · intro k call hcall hpending
    rcases getElem?_concat_eq_some hcall with hold | ⟨-, rfl⟩
    · exact hplaced k call hold hpending
    · cases hpending
  · intro k call hcall hpending
    rcases getElem?_concat_eq_some hcall with hold | ⟨-, rfl⟩
    · exact hplaced k call hold hpending
    · cases hpending

theorem placed_poll (hplaced : Placed now) (hstep : now.poll = some after) : Placed after := by
  obtain ⟨⟨status, session⟩, hpoll, rfl⟩ := Option.map_eq_some_iff.mp hstep
  obtain ⟨rfl, -, request, respond, rest, hqueue, rfl⟩ | ⟨hstatus, -, hrespond, hcases⟩ :=
    session_poll_cases hpoll
  · refine @placed_touch now _ now.session.pendingRespond.toList Oneshot.dropSender hplaced
      (fun _ => Oneshot.dropSender_ne_pending) rfl fun k hk hout => ?_
    rcases hk with hqueued | hheld
    · simp only [queuedResponders, hqueue, List.filterMap_cons, queuedResponder,
        List.mem_cons] at hqueued
      rcases hqueued with rfl | hrest
      · exact .inr rfl
      · exact .inl hrest
    · exact (hout (Option.mem_toList.mpr hheld)).elim
  · have hqueued : queuedResponders session = queuedResponders now.session := by
      rcases hcases with ⟨-, rfl⟩ | ⟨-, ⟨result, rest, hqueue, hrx⟩ | ⟨-, -, hrx⟩⟩
      · rfl
      · rw [queuedResponders, queuedResponders, hrx, hqueue, List.filterMap_cons_none rfl]
      · rw [queuedResponders, hrx]
        rfl
    intro k call hcall hpending
    simp only [hstatus, if_false] at hcall
    simp only [hqueued, hrespond]
    exact hplaced k call hcall hpending

theorem placed_ended {rx : Channel P3Event} {report : Report} (hplaced : Placed now)
    (hqueue : ∀ event ∈ now.session.rx.queue, event ∈ rx.queue) : Placed (now.ended rx report) := by
  refine @placed_touch now _ now.waiting Oneshot.dropReceiver hplaced
    (fun _ => Oneshot.dropReceiver_ne_pending) rfl fun k hk _ => ?_
  rcases hk with hqueued | hheld
  · obtain ⟨event, hmem, hevent⟩ := List.mem_filterMap.mp hqueued
    exact .inl (List.mem_filterMap.mpr ⟨event, hqueue event hmem, hevent⟩)
  · exact .inr hheld

theorem placed_step (hplaced : Placed now) (hstep : now.step label = some after) :
    Placed after := by
  cases label with
  | issue request => exact placed_issue hplaced hstep
  | wake k =>
      obtain ⟨-, call, outcome, -, -, rfl⟩ := wake_eq_some.mp hstep
      exact hplaced
  | finish result =>
      obtain ⟨-, rfl⟩ := whileRunning_eq_some.mp hstep
      refine placed_ended hplaced fun event hevent => ?_
      cases hsend : now.session.rx.send (.done result) with
      | none => exact hevent
      | some rx =>
          obtain ⟨-, rfl⟩ := Channel.send_eq_some.mp hsend
          exact List.mem_append_left _ hevent
  | vanish =>
      obtain ⟨-, rfl⟩ := whileRunning_eq_some.mp hstep
      exact placed_ended hplaced fun _ hevent => hevent
  | poll => exact placed_poll hplaced hstep
  | resolve response =>
      obtain rfl := Option.some.inj hstep
      refine @placed_touch now _ now.session.pendingRespond.toList (Oneshot.send response) hplaced
        send_ne_pending rfl fun k hk hout => ?_
      rcases hk with hqueued | hheld
      · exact .inl hqueued
      · exact (hout (Option.mem_toList.mpr hheld)).elim

/-- What the worker leaves as it is. -/
theorem worker_frame (hworker : label.isWorker = true) (hstep : now.step label = some after) :
    after.session.pendingRespond = now.session.pendingRespond ∧
      (now.session.rx.receiving = false → after.session.rx.receiving = false ∧
        after.session.rx.queue = now.session.rx.queue) := by
  cases label with
  | poll => cases hworker
  | resolve response => cases hworker
  | issue request =>
      obtain ⟨-, ⟨hopen, rfl⟩ | ⟨-, -, rfl⟩ | ⟨-, -, rfl⟩⟩ := issue_cases hstep
      · exact ⟨rfl, fun hclosed => by simp [hopen] at hclosed⟩
      · exact ⟨rfl, fun hclosed => ⟨hclosed, rfl⟩⟩
      · exact ⟨rfl, fun hclosed => ⟨hclosed, rfl⟩⟩
  | wake k =>
      obtain ⟨-, call, outcome, -, -, rfl⟩ := wake_eq_some.mp hstep
      exact ⟨rfl, fun hclosed => ⟨hclosed, rfl⟩⟩
  | finish result =>
      obtain ⟨-, rfl⟩ := whileRunning_eq_some.mp hstep
      refine ⟨rfl, fun hclosed => ?_⟩
      rw [Channel.send_eq_none.mpr hclosed]
      exact ⟨hclosed, rfl⟩
  | vanish =>
      obtain ⟨-, rfl⟩ := whileRunning_eq_some.mp hstep
      exact ⟨rfl, fun hclosed => ⟨hclosed, rfl⟩⟩

/-! ### The steps of `Drop` -/

theorem advance_eq_some :
    state.step (.run label) = some next ↔ (state.phase = .live ∨ label.isWorker = true) ∧
      ∃ run, state.run.step label = some run ∧ next = { state with run } := by
  rw [FreedSession.step, FreedSession.advance, Option.ite_none_right_eq_some,
    Option.map_eq_some_iff]
  simp only [@eq_comm _ next]

/-- What holds of a session at every point of its run and its `Drop`. -/
structure Settled (state : FreedSession) : Prop where
  accounted : Accounted state.run
  placed : Placed state.run
  released : state.phase ≠ .live → state.run.session.pendingRespond = none
  disconnected : state.phase.isDisconnected = true →
    state.run.session.rx.receiving = false ∧ state.run.session.rx.queue = []

theorem settled_start : Settled (FreedSession.start drive) :=
  ⟨accounted_start, placed_start, fun hfreed => (hfreed rfl).elim, nofun⟩

theorem settled_advance (hsettled : Settled state) (hstep : state.step (.run label) = some next) :
    Settled next := by
  obtain ⟨hwho, run, hrun, rfl⟩ := advance_eq_some.mp hstep
  refine ⟨accounted_step hsettled.accounted hrun, placed_step hsettled.placed hrun,
    fun hfreed => ?_, fun hgone => ?_⟩
  · obtain ⟨hrespond, -⟩ := worker_frame (hwho.resolve_left hfreed) hrun
    exact hrespond.trans (hsettled.released hfreed)
  · have hfreed : state.phase ≠ .live := fun hlive => by simp [hlive, Phase.isDisconnected] at hgone
    obtain ⟨hclosed, hqueue⟩ := hsettled.disconnected hgone
    obtain ⟨-, hrx⟩ := worker_frame (hwho.resolve_left hfreed) hrun
    exact ⟨(hrx hclosed).1, (hrx hclosed).2.trans hqueue⟩

theorem settled_takeRespond (hsettled : Settled state) (hstep : state.takeRespond = some next) :
    Settled next := by
  obtain ⟨hlive, hnext⟩ := Option.ite_none_right_eq_some.mp hstep
  obtain rfl := Option.some.inj hnext
  refine ⟨accounted_touch hsettled.accounted (fun _ => Oneshot.dropSender_of_settled) nofun _ _,
    ?_, fun _ => rfl, nofun⟩
  refine @placed_touch state.run _ _ Oneshot.dropSender hsettled.placed
    (fun _ => Oneshot.dropSender_ne_pending) rfl fun k hk hout => ?_
  rcases hk with hqueued | hheld
  · exact .inl hqueued
  · exact (hout (Option.mem_toList.mpr hheld)).elim

theorem settled_disconnect (hsettled : Settled state) (hstep : state.disconnect = some next) :
    Settled next := by
  obtain ⟨hreleased, hnext⟩ := Option.ite_none_right_eq_some.mp hstep
  obtain rfl := Option.some.inj hnext
  have hfreed : state.phase ≠ .live := by simp [hreleased]
  refine ⟨accounted_touch hsettled.accounted (fun _ => Oneshot.dropSender_of_settled) nofun _ _,
    ?_, fun _ => hsettled.released hfreed, fun _ => ⟨rfl, rfl⟩⟩
  refine @placed_touch state.run _ _ Oneshot.dropSender hsettled.placed
    (fun _ => Oneshot.dropSender_ne_pending) rfl fun k hk hout => ?_
  rcases hk with hqueued | hheld
  · exact (hout hqueued).elim
  · simp [hsettled.released hfreed] at hheld

theorem settled_step (hsettled : Settled state) (hstep : state.step move = some next) :
    Settled next := by
  cases move with
  | run label => exact settled_advance hsettled hstep
  | takeRespond => exact settled_takeRespond hsettled hstep
  | disconnect => exact settled_disconnect hsettled hstep
  | join =>
      obtain ⟨⟨hgone, -⟩, hnext⟩ := Option.ite_none_right_eq_some.mp hstep
      obtain rfl := Option.some.inj hnext
      have hall := hsettled.disconnected (by rw [hgone]; rfl)
      exact ⟨hsettled.accounted, hsettled.placed,
        fun _ => hsettled.released (by simp [hgone]), fun _ => hall⟩

/-! ### The worker goes on -/

/-- Behind the disconnect no responder is alive. -/
theorem Settled.not_pending (hsettled : Settled state)
    (hgone : state.phase.isDisconnected = true) {k : Nat} {call : Call}
    (hcall : state.run.calls[k]? = some call) : call.respond ≠ .pending := by
  intro hpending
  have hfreed : state.phase ≠ .live := fun hlive => by simp [hlive, Phase.isDisconnected] at hgone
  rcases hsettled.placed k call hcall hpending with hqueued | hheld
  · simp [queuedResponders, (hsettled.disconnected hgone).2] at hqueued
  · simp [hsettled.released hfreed] at hheld

/-- A call that waits on a dropped responder can be woken at once. -/
theorem wake_cancelled {request : Bytes} (hfresh : now.calls.length ∉ now.waiting) :
    ({ now with
        calls := now.calls ++ [{ request, respond := .cancelled }]
        waiting := now.waiting ++ [now.calls.length] } : P3Run).wake now.calls.length =
      some { now with
        calls := now.calls ++ [{ request, respond := .cancelled }]
        received := now.received ++ [(now.calls.length, none)] } := by
  refine wake_eq_some.mpr ⟨List.mem_append_right _ (List.mem_singleton_self _),
    { request, respond := .cancelled }, none, List.getElem?_concat_length, rfl, ?_⟩
  simp [List.erase_append_right, hfresh]

theorem notStranded (hsettled : Settled state) (hgone : state.phase.isDisconnected = true) :
    NotStranded state where
  settled k hk := by
    obtain ⟨call, hcall, -⟩ := hsettled.accounted.waits k hk
    exact ⟨call, hcall, hsettled.not_pending hgone hcall⟩
  wakes k hk := by
    obtain ⟨call, hcall, hlive⟩ := hsettled.accounted.waits k hk
    obtain ⟨outcome, houtcome⟩ : ∃ outcome, call.respond.outcome = some outcome := by
      have hsettledCall := hsettled.not_pending hgone hcall
      cases hrespond : call.respond with
      | pending => exact (hsettledCall hrespond).elim
      | answered response => exact ⟨_, rfl⟩
      | cancelled => exact ⟨_, rfl⟩
      | abandoned => exact (hlive hrespond).elim
    exact ⟨_, advance_eq_some.mpr
      ⟨.inr rfl, _, wake_eq_some.mpr ⟨hk, call, outcome, hcall, houtcome, rfl⟩, rfl⟩⟩
  fails request next hstep := by
    obtain ⟨-, run, hrun, rfl⟩ := advance_eq_some.mp hstep
    have hclosed := (hsettled.disconnected hgone).1
    have hfresh := hsettled.accounted.fresh
    obtain ⟨-, ⟨hopen, -⟩ | ⟨-, -, rfl⟩ | ⟨-, -, rfl⟩⟩ := issue_cases hrun
    · simp [hclosed] at hopen
    · have hwake := @wake_cancelled state.run request
        fun hold => hfresh (List.mem_append_left _ hold)
      exact ⟨_, .inr (advance_eq_some.mpr ⟨.inr rfl, _, hwake, rfl⟩), rfl, rfl⟩
    · exact ⟨_, .inl rfl, rfl, rfl⟩

/-- No call from the `n`-th on holds an answer. -/
def NoneAnswered (n : Nat) (calls : List Call) : Prop :=
  ∀ k call, n ≤ k → calls[k]? = some call → ∀ response, call.respond ≠ .answered response

variable {n : Nat} {calls : List Call}

theorem NoneAnswered.concat {last : Call} (hnone : NoneAnswered n calls)
    (hlast : ∀ response, last.respond ≠ .answered response) : NoneAnswered n (calls ++ [last]) := by
  intro k call hk hcall
  rcases getElem?_concat_eq_some hcall with hold | ⟨-, rfl⟩
  · exact hnone k call hk hold
  · exact hlast

/-- Responders that are dropped, or lose their waiter, answer nothing. -/
theorem NoneAnswered.touch {responders : List Nat} {change : Oneshot Bytes → Oneshot Bytes}
    (hnone : NoneAnswered n calls)
    (hchange : ∀ oneshot response, change oneshot = .answered response →
      oneshot = .answered response) :
    NoneAnswered n (touch responders change calls) := by
  intro k call hk hcall response hanswered
  obtain ⟨before, hbefore, rfl⟩ := touch_eq_some.mp hcall
  refine hnone k before hk hbefore response ?_
  by_cases hmem : k ∈ responders
  · exact hchange _ _ (by simpa [hmem] using hanswered)
  · simpa [hmem] using hanswered

theorem dropSender_answered (oneshot : Oneshot Bytes) (response : Bytes)
    (hanswered : oneshot.dropSender = .answered response) : oneshot = .answered response := by
  cases oneshot <;> first | exact hanswered | cases hanswered

theorem dropReceiver_answered (oneshot : Oneshot Bytes) (response : Bytes)
    (hanswered : oneshot.dropReceiver = .answered response) : oneshot = .answered response := by
  cases oneshot <;> first | exact hanswered | cases hanswered

/-- The worker's steps answer no call. -/
theorem noneAnswered_worker (hworker : label.isWorker = true) (hnone : NoneAnswered n now.calls)
    (hstep : now.step label = some after) : NoneAnswered n after.calls := by
  cases label with
  | poll => cases hworker
  | resolve response => cases hworker
  | issue request =>
      obtain ⟨-, ⟨-, rfl⟩ | ⟨-, -, rfl⟩ | ⟨-, -, rfl⟩⟩ := issue_cases hstep
      · exact hnone.concat nofun
      · exact hnone.concat nofun
      · exact hnone.concat nofun
  | wake k =>
      obtain ⟨-, call, outcome, -, -, rfl⟩ := wake_eq_some.mp hstep
      exact hnone
  | finish result =>
      obtain ⟨-, rfl⟩ := whileRunning_eq_some.mp hstep
      exact hnone.touch dropReceiver_answered
  | vanish =>
      obtain ⟨-, rfl⟩ := whileRunning_eq_some.mp hstep
      exact hnone.touch dropReceiver_answered

/-- What holds from the moment on when the free began, with `n` calls made before. -/
structure FreeBegun (n : Nat) (state : FreedSession) : Prop where
  settled : Settled state
  freed : state.phase ≠ .live
  noneAnswered : NoneAnswered n state.run.calls

theorem freeBegun_self (hsettled : Settled state) (hfreed : state.phase ≠ .live) :
    FreeBegun state.run.calls.length state := by
  refine ⟨hsettled, hfreed, fun k call hk hcall => ?_⟩
  simp [List.getElem?_eq_none hk] at hcall

theorem freeBegun_step (hbegun : FreeBegun n state) (hstep : state.step move = some next) :
    FreeBegun n next := by
  have hsettled := settled_step hbegun.settled hstep
  obtain ⟨-, hfreed, hnone⟩ := hbegun
  cases move with
  | run label =>
      obtain ⟨hwho, run, hrun, rfl⟩ := advance_eq_some.mp hstep
      exact ⟨hsettled, hfreed, noneAnswered_worker (hwho.resolve_left hfreed) hnone hrun⟩
  | takeRespond => exact (hfreed (Option.ite_none_right_eq_some.mp hstep).1).elim
  | disconnect =>
      obtain rfl := Option.some.inj (Option.ite_none_right_eq_some.mp hstep).2
      exact ⟨hsettled, nofun, hnone.touch dropSender_answered⟩
  | join =>
      obtain rfl := Option.some.inj (Option.ite_none_right_eq_some.mp hstep).2
      exact ⟨hsettled, nofun, hnone⟩

/-- A call made after the free began comes back with no response. -/
theorem FreeBegun.not_received (hbegun : FreeBegun n state) {k : Nat} (hk : n ≤ k)
    (response : Bytes) : (k, some response) ∉ state.run.received := by
  intro hmem
  obtain ⟨call, hcall, houtcome⟩ := hbegun.settled.accounted.received k _ hmem
  exact hbegun.noneAnswered k call hk hcall response (Oneshot.outcome_eq_answer.mp houtcome)

/-! ## The stream -/

structure FreedStream where
  run : P3sRun := {}
  phase : Phase := .live

inductive StreamLabel where
  | run (label : Stream.Label)
  | closeInbound
  | disconnect
  | join

namespace FreedStream

/-- The caller makes calls while the session is live, the driver goes on in every phase. -/
def advance (state : FreedStream) (label : Stream.Label) : Option FreedStream :=
  if state.phase = .live ∨ label.isWorker = true then
    (state.run.step label).map fun run => { state with run }
  else none

/-- `self.in_tx.take()` -/
def closeInbound (state : FreedStream) : Option FreedStream :=
  if state.phase = .live then
    some { run := { state.run with stream := state.run.stream.pushEnd }, phase := .released }
  else none

def disconnect (state : FreedStream) : Option FreedStream :=
  if state.phase = .released then
    some {
      run := { state.run with
        stream := { state.run.stream with rx := state.run.stream.rx.dropReceiver } }
      phase := .disconnected }
  else none

def join (state : FreedStream) : Option FreedStream :=
  if state.phase = .disconnected ∧ isOver state.run.report = true then
    some { state with phase := .joined }
  else none

def step (state : FreedStream) : StreamLabel → Option FreedStream
  | .run label => state.advance label
  | .closeInbound => state.closeInbound
  | .disconnect => state.disconnect
  | .join => state.join

end FreedStream

section Stream

variable {state next final : FreedStream} {label : Stream.Label} {now after : P3sRun}
variable {move : StreamLabel}

/-- The driver's steps leave the sending side of the inbound channel alone. -/
theorem driver_frame (hworker : label.isWorker = true) (hstep : now.step label = some after) :
    after.stream.inTx.sending = now.stream.inTx.sending := by
  cases label with
  | chunk bytes =>
      obtain ⟨-, rfl⟩ := whileRunning_eq_some.mp hstep
      rfl
  | endOut =>
      obtain ⟨-, rfl⟩ := whileRunning_eq_some.mp hstep
      rfl
  | await =>
      obtain ⟨-, hawait⟩ := Option.ite_none_right_eq_some.mp hstep
      obtain ⟨-, rfl⟩ := whileRunning_eq_some.mp hawait
      rfl
  | wake =>
      obtain ⟨-, -, rfl⟩ := Stream.wake_eq_some.mp hstep
      rfl
  | dropInbound =>
      obtain ⟨-, hdrop⟩ := Option.ite_none_left_eq_some.mp hstep
      obtain ⟨-, rfl⟩ := whileRunning_eq_some.mp hdrop
      rfl
  | finish result =>
      obtain ⟨-, rfl⟩ := whileRunning_eq_some.mp hstep
      rfl
  | vanish =>
      obtain ⟨-, rfl⟩ := whileRunning_eq_some.mp hstep
      rfl
  | poll => cases hworker
  | push chunk => cases hworker
  | pushEnd => cases hworker

/-- Once the free has begun the inbound stream is closed. -/
def InboundClosed (state : FreedStream) : Prop :=
  state.phase ≠ .live → state.run.stream.inTx.sending = false

theorem stream_advance_eq_some :
    state.step (.run label) = some next ↔ (state.phase = .live ∨ label.isWorker = true) ∧
      ∃ run, state.run.step label = some run ∧ next = { state with run } := by
  rw [FreedStream.step, FreedStream.advance, Option.ite_none_right_eq_some,
    Option.map_eq_some_iff]
  simp only [@eq_comm _ next]

theorem inboundClosed_step (hclosed : InboundClosed state) (hstep : state.step move = some next) :
    InboundClosed next := by
  cases move with
  | run label =>
      obtain ⟨hwho, run, hrun, rfl⟩ := stream_advance_eq_some.mp hstep
      exact fun hfreed => (driver_frame (hwho.resolve_left hfreed) hrun).trans (hclosed hfreed)
  | closeInbound =>
      obtain rfl := Option.some.inj (Option.ite_none_right_eq_some.mp hstep).2
      exact fun _ => rfl
  | disconnect =>
      obtain ⟨hreleased, hnext⟩ := Option.ite_none_right_eq_some.mp hstep
      obtain rfl := Option.some.inj hnext
      exact fun _ => hclosed (by simp [hreleased])
  | join =>
      obtain ⟨⟨hgone, -⟩, hnext⟩ := Option.ite_none_right_eq_some.mp hstep
      obtain rfl := Option.some.inj hnext
      exact fun _ => hclosed (by simp [hgone])

/-- A driver that awaits an inbound chunk of a closed stream can be woken. -/
theorem exists_wake (hclosed : InboundClosed state) (hfreed : state.phase ≠ .live)
    (hwaiting : state.run.waiting = true) :
    ∃ next, state.step (.run .wake) = some next ∧ next.run.waiting = false :=
  ⟨_, stream_advance_eq_some.mpr ⟨.inr rfl, _,
    Stream.wake_eq_some.mpr ⟨hwaiting, fun _ => hclosed hfreed, rfl⟩, rfl⟩, rfl⟩

end Stream

/-! ## No worker is stranded -/

/-- Whatever the order of the steps of `Drop` and of the worker, behind the disconnect
the worker can go on from every wait, its further calls fail at once, and a call made
after the free began gets no response. -/
theorem free_never_strands :
    (∀ drive moves state, run FreedSession.step (FreedSession.start drive) moves = some state →
      (state.phase.isDisconnected = true → NotStranded state) ∧
      (state.phase ≠ .live → ∀ more final, run FreedSession.step state more = some final →
        ∀ k response, state.run.calls.length ≤ k → (k, some response) ∉ final.run.received)) ∧
    ∀ moves state, run FreedStream.step {} moves = some state →
      state.phase.isDisconnected = true → state.run.waiting = true →
        ∃ next, state.step (.run .wake) = some next ∧ next.run.waiting = false := by
  refine ⟨fun drive moves state hrun => ?_, fun moves state hrun hgone hwaiting => ?_⟩
  · have hsettled : Settled state := run_preserves (fun _ _ _ => settled_step) settled_start hrun
    refine ⟨notStranded hsettled, fun hfreed more final hmore k response hk => ?_⟩
    have hbegun : FreeBegun state.run.calls.length final :=
      run_preserves (fun _ _ _ => freeBegun_step) (freeBegun_self hsettled hfreed) hmore
    exact hbegun.not_received hk response
  · have hclosed : InboundClosed state :=
      run_preserves (fun _ _ _ => inboundClosed_step) (fun hfreed => (hfreed rfl).elim) hrun
    exact exists_wake hclosed (fun hlive => by simp [hlive, Phase.isDisconnected] at hgone) hwaiting

/-- A call that was never polled and one that races with the free; an awaited chunk. -/
theorem free_never_strands_example :
    (∃ begun state final, run FreedSession.step (FreedSession.start .async)
          [.run (.issue [0x61]), .takeRespond] = some begun ∧
        run FreedSession.step begun [.run (.issue [0x62]), .disconnect] = some state ∧
        state.run.waiting = [0, 1] ∧ NotStranded state ∧
        run FreedSession.step begun
          [.run (.issue [0x62]), .disconnect, .run (.wake 1)] = some final ∧
        ∀ response, (1, some response) ∉ final.run.received) ∧
    ∃ state next, run FreedStream.step {} [.run .await, .closeInbound, .disconnect] = some state ∧
      state.step (.run .wake) = some next ∧ next.run.waiting = false := by
  obtain ⟨hsession, hstream⟩ := free_never_strands
  have hstate := hsession .async
    [.run (.issue [0x61]), .takeRespond, .run (.issue [0x62]), .disconnect] _ rfl
  have hbegun := hsession .async [.run (.issue [0x61]), .takeRespond] _ rfl
  have hlate := hbegun.2 nofun [.run (.issue [0x62]), .disconnect, .run (.wake 1)] _ rfl
  refine ⟨⟨_, _, _, rfl, rfl, rfl, hstate.1 rfl, rfl, fun response => hlate 1 response le_rfl⟩, ?_⟩
  obtain ⟨next, hnext, hwoken⟩ :=
    hstream [.run .await, .closeInbound, .disconnect] _ rfl rfl rfl
  exact ⟨_, next, rfl, hnext, hwoken⟩

end HellohqRuntime.Bridge.Freeing

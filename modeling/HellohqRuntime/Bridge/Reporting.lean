import HellohqRuntime.Foundation.Channels
import HellohqRuntime.Foundation.Runs
import HellohqRuntime.Foundation.Utf8

/-!
# How a run reports its end

Both bridges run a guest on a worker thread.  The worker sends messages, reports
its result as the last event and hangs up, or vanishes without a report.  The
caller polls for the next event.  This is what the two have in common: messages
are opaque here, and a poll that would block is not enabled.
-/

namespace HellohqRuntime.Bridge.Reporting

open HellohqRuntime.Foundation.Channels
open HellohqRuntime.Foundation.Runs
open HellohqRuntime.Foundation.Strings
open HellohqRuntime.Foundation.Utf8

/-- What has become of the worker. -/
inductive Report where
  | running
  | done (result : Except Text Bytes)
  | vanished

/-- A step that only a running worker takes. -/
def whileRunning {α : Type} (report : Report) (after : α) : Option α :=
  match report with
  | .running => some after
  | _ => none

@[simp] theorem whileRunning_eq_some {α : Type} {report : Report} {after result : α} :
    whileRunning report after = some result ↔ report = .running ∧ result = after := by
  cases report <;> simp [whileRunning, eq_comm]

def Report.succeeded : Report → Bool
  | .done (.ok _) => true
  | _ => false

inductive Event where
  | message
  | done (result : Except Text Bytes)

inductive Status where
  | message | done | error
  deriving DecidableEq, Repr

/-- A poll that returned: the result bytes it left readable, and how the worker
stood at that time. -/
structure Polled (σ : Type) where
  status : σ
  result : Bytes
  report : Report

def Polled.map {σ τ : Type} (f : σ → τ) (polled : Polled σ) : Polled τ :=
  { polled with status := f polled.status }

structure ReportingRun where
  rx : Channel Event := {}
  result : Bytes := []
  finished : Bool := false
  report : Report := .running
  polls : List (Polled Status) := []

inductive Action where
  | send
  | finish (result : Except Text Bytes)
  | vanish
  | poll

namespace ReportingRun

def send (state : ReportingRun) : Option ReportingRun :=
  whileRunning state.report { state with rx := (state.rx.send .message).getD state.rx }

def finish (state : ReportingRun) (result : Except Text Bytes) : Option ReportingRun :=
  whileRunning state.report { state with
    rx := ((state.rx.send (.done result)).getD state.rx).dropSender
    report := .done result }

def vanish (state : ReportingRun) : Option ReportingRun :=
  whileRunning state.report { state with rx := state.rx.dropSender, report := .vanished }

/-- The status of the next event, and what the poll changes. -/
def next (state : ReportingRun) : Option (Status × ReportingRun) :=
  if state.finished then some (.done, state)
  else
    match state.rx.receive with
    | .value .message rx => some (.message, { state with rx })
    | .value (.done (.ok out)) rx => some (.done, { state with rx, result := out, finished := true })
    | .value (.done (.error msg)) rx =>
        some (.error, { state with rx, result := asBytes msg, finished := true })
    | .disconnected => some (.error, { state with finished := true })
    | .pending => none

def poll (state : ReportingRun) : Option ReportingRun :=
  state.next.map fun (status, state) =>
    { state with polls := state.polls ++ [{ status, result := state.result, report := state.report }] }

def step (state : ReportingRun) : Action → Option ReportingRun
  | .send => state.send
  | .finish result => state.finish result
  | .vanish => state.vanish
  | .poll => state.poll

end ReportingRun

/-- DONE is told only of a run that returned, ERROR only of one that failed or
vanished, and what is told once is told ever after. -/
structure Truthful (polls : List (Polled Status)) : Prop where
  done : ∀ polled ∈ polls, polled.status = .done → ∃ out, polled.report = .done (.ok out)
  error : ∀ polled ∈ polls, polled.status = .error →
    (∃ msg, polled.report = .done (.error msg)) ∨ polled.report = .vanished
  stable : polls.Pairwise fun earlier later => earlier.status ≠ .message →
    later.status = earlier.status ∧ later.result = earlier.result

/-- Once the end is known, a poll is made only where the worker returned a result. -/
def PollsSuccess (state : ReportingRun) : Action → Prop
  | .poll => state.finished = true → state.report.succeeded = true
  | _ => True

/-! ## What a poll tells -/

variable {state final after : ReportingRun} {action : Action}

theorem succeeded_iff {report : Report} :
    report.succeeded = true ↔ ∃ out, report = .done (.ok out) := by
  cases report with
  | running => simp [Report.succeeded]
  | vanished => simp [Report.succeeded]
  | done result => cases result <;> simp [Report.succeeded]

/-- What the worker leaves in the channel as its last event. -/
def lastEvent : Report → List Event
  | .done result => [.done result]
  | _ => []

def statusOf : Report → Status
  | .done (.ok _) => .done
  | _ => .error

def resultOf : Report → Bytes
  | .done (.ok out) => out
  | .done (.error msg) => asBytes msg
  | _ => []

/-- The channel carries messages and the report, and the caller's fields agree with it. -/
structure Consistent (state : ReportingRun) : Prop where
  receiving : state.rx.receiving = true
  sending : state.rx.sending = true ↔ state.report = .running
  ahead : state.finished = false →
    (∃ n, state.rx.queue = List.replicate n .message ++ lastEvent state.report) ∧ state.result = []
  ended : state.finished = true → state.report ≠ .running ∧ state.result = resultOf state.report

/-- What every poll tells of the end. -/
def ending (report : Report) : Polled Status :=
  { status := statusOf report, result := resultOf report, report }

/-- Every poll so far told a message, or after all messages the end as it is. -/
def Honest (state : ReportingRun) : Prop :=
  ∃ messages n, state.polls = messages ++ List.replicate n (ending state.report) ∧
    (∀ polled ∈ messages, polled.status = .message) ∧ (n ≠ 0 → state.finished = true)

theorem consistent_start : Consistent {} where
  receiving := rfl
  sending := ⟨fun _ => rfl, fun _ => rfl⟩
  ahead _ := ⟨⟨0, rfl⟩, rfl⟩
  ended hover := by cases hover

theorem honest_start : Honest {} := ⟨[], 0, rfl, nofun, nofun⟩

/-- A worker that still runs has sent messages only. -/
theorem Consistent.running (hrun : Consistent state) (hreport : state.report = .running) :
    state.finished = false ∧ ∃ n, state.rx.queue = List.replicate n .message := by
  have hfinished : state.finished = false := by
    by_contra hover
    exact (hrun.ended (by simpa using hover)).1 hreport
  obtain ⟨⟨n, hqueue⟩, -⟩ := hrun.ahead hfinished
  exact ⟨hfinished, n, by simpa [hreport, lastEvent] using hqueue⟩

theorem consistent_send (hrun : Consistent state) (hstep : state.send = some after) :
    Consistent after := by
  obtain ⟨hreport, rfl⟩ := whileRunning_eq_some.mp hstep
  obtain ⟨hfinished, n, hqueue⟩ := hrun.running hreport
  rw [Channel.send_eq_some.mpr ⟨hrun.receiving, rfl⟩, Option.getD_some]
  refine ⟨hrun.receiving, hrun.sending, fun hlive => ⟨⟨n + 1, ?_⟩, (hrun.ahead hlive).2⟩, hrun.ended⟩
  simp [hqueue, hreport, lastEvent, List.replicate_succ']

theorem consistent_finish {result : Except Text Bytes} (hrun : Consistent state)
    (hstep : state.finish result = some after) : Consistent after := by
  obtain ⟨hreport, rfl⟩ := whileRunning_eq_some.mp hstep
  obtain ⟨hfinished, n, hqueue⟩ := hrun.running hreport
  rw [Channel.send_eq_some.mpr ⟨hrun.receiving, rfl⟩, Option.getD_some]
  refine ⟨hrun.receiving, by simp, fun hlive => ⟨⟨n, ?_⟩, (hrun.ahead hlive).2⟩,
    fun hover => by simp [hfinished] at hover⟩
  simp [hqueue, lastEvent]

theorem consistent_vanish (hrun : Consistent state) (hstep : state.vanish = some after) :
    Consistent after := by
  obtain ⟨hreport, rfl⟩ := whileRunning_eq_some.mp hstep
  obtain ⟨hfinished, n, hqueue⟩ := hrun.running hreport
  refine ⟨hrun.receiving, by simp, fun hlive => ⟨⟨n, ?_⟩, (hrun.ahead hlive).2⟩,
    fun hover => by simp [hfinished] at hover⟩
  simp [hqueue, lastEvent]

/-- What a receiver finds in a channel with `n` messages before the last event. -/
def found (rx : Channel Event) : Nat → Report → Received Event
  | n + 1, report =>
      .value .message { rx with queue := List.replicate n .message ++ lastEvent report }
  | 0, .running => .pending
  | 0, .vanished => .disconnected
  | 0, .done result => .value (.done result) { rx with queue := [] }

theorem receive_eq_found (hrun : Consistent state) {n : Nat}
    (hqueue : state.rx.queue = List.replicate n .message ++ lastEvent state.report) :
    state.rx.receive = found state.rx n state.report := by
  have hsending := hrun.sending
  cases n with
  | succ n => exact Channel.receive_eq_value.mpr ⟨_, hqueue, rfl⟩
  | zero =>
      cases hreport : state.report with
      | running =>
          rw [hreport] at hqueue
          exact Channel.receive_eq_pending.mpr ⟨hqueue, hsending.mpr hreport⟩
      | vanished =>
          rw [hreport] at hqueue hsending
          exact Channel.receive_eq_disconnected.mpr ⟨hqueue, by simpa using hsending⟩
      | done result =>
          rw [hreport] at hqueue
          exact Channel.receive_eq_value.mpr ⟨[], hqueue, rfl⟩

/-- A poll before the end is known takes a message, or the end as it was reported. -/
theorem next_cases (hrun : Consistent state) (hfinished : state.finished = false) {status : Status}
    (hnext : state.next = some (status, after)) :
    Consistent after ∧ after.report = state.report ∧ after.polls = state.polls ∧
      (status = .message ∨ after.finished = true ∧ status = statusOf state.report) := by
  obtain ⟨⟨n, hqueue⟩, hresult⟩ := hrun.ahead hfinished
  have hreceive := receive_eq_found hrun hqueue
  rw [ReportingRun.next, if_neg (by simp [hfinished])] at hnext
  cases n with
  | succ n =>
      rw [hreceive] at hnext
      obtain ⟨rfl, rfl⟩ := Prod.mk.inj (Option.some.inj hnext)
      exact ⟨⟨hrun.receiving, hrun.sending, fun hlive => ⟨⟨n, rfl⟩, hresult⟩, hrun.ended⟩,
        rfl, rfl, .inl rfl⟩
  | zero =>
      cases hreport : state.report with
      | running =>
          rw [hreport] at hreceive
          rw [hreceive] at hnext
          cases hnext
      | vanished =>
          rw [hreport] at hreceive
          rw [hreceive] at hnext
          obtain ⟨rfl, rfl⟩ := Prod.mk.inj (Option.some.inj hnext)
          refine ⟨⟨hrun.receiving, hrun.sending, nofun, fun _ => ?_⟩, hreport, rfl, .inr ⟨rfl, rfl⟩⟩
          simp [hreport, resultOf, hresult]
      | done result =>
          rw [hreport] at hreceive
          rw [hreceive] at hnext
          cases result with
          | ok out =>
              obtain ⟨rfl, rfl⟩ := Prod.mk.inj (Option.some.inj hnext)
              refine ⟨⟨hrun.receiving, hrun.sending, nofun, fun _ => ?_⟩, hreport, rfl,
                .inr ⟨rfl, rfl⟩⟩
              simp [hreport, resultOf]
          | error msg =>
              obtain ⟨rfl, rfl⟩ := Prod.mk.inj (Option.some.inj hnext)
              refine ⟨⟨hrun.receiving, hrun.sending, nofun, fun _ => ?_⟩, hreport, rfl,
                .inr ⟨rfl, rfl⟩⟩
              simp [hreport, resultOf]

/-- A poll once the end is known tells success, whatever the end was. -/
theorem next_of_finished (hfinished : state.finished = true) : state.next = some (.done, state) :=
  if_pos hfinished

/-- The entry that a poll adds. -/
theorem poll_eq_some :
    state.poll = some after ↔ ∃ status told, state.next = some (status, told) ∧
      after = { told with
        polls := told.polls ++ [{ status, result := told.result, report := told.report }] } := by
  rw [ReportingRun.poll, Option.map_eq_some_iff]
  simp only [Prod.exists, @eq_comm _ after]

theorem consistent_poll (hrun : Consistent state) (hstep : state.poll = some after) :
    Consistent after := by
  obtain ⟨status, told, hnext, rfl⟩ := poll_eq_some.mp hstep
  have htold : Consistent told := by
    cases hfinished : state.finished with
    | false => exact (next_cases hrun hfinished hnext).1
    | true =>
        rw [next_of_finished hfinished] at hnext
        obtain ⟨-, rfl⟩ := Prod.mk.inj (Option.some.inj hnext)
        exact hrun
  exact ⟨htold.receiving, htold.sending, htold.ahead, htold.ended⟩

theorem consistent_step (hrun : Consistent state) (hstep : state.step action = some after) :
    Consistent after := by
  cases action with
  | send => exact consistent_send hrun hstep
  | finish result => exact consistent_finish hrun hstep
  | vanish => exact consistent_vanish hrun hstep
  | poll => exact consistent_poll hrun hstep

/-- While the end is not known nothing but messages has been told. -/
theorem Honest.messages (hhonest : Honest state) (hfinished : state.finished = false) :
    ∀ polled ∈ state.polls, polled.status = .message := by
  obtain ⟨messages, n, hpolls, hmessages, hover⟩ := hhonest
  have hnone : n = 0 := by
    by_contra hsome
    simp [hfinished] at hover
    exact hsome hover
  simpa [hpolls, hnone] using hmessages

/-- The worker's steps are taken while it runs, and tell the caller nothing. -/
theorem running_of_step (hworker : action ≠ .poll) (hstep : state.step action = some after) :
    state.report = .running ∧ after.polls = state.polls := by
  cases action with
  | poll => exact (hworker rfl).elim
  | send =>
      obtain ⟨hreport, rfl⟩ := whileRunning_eq_some.mp hstep
      exact ⟨hreport, rfl⟩
  | finish result =>
      obtain ⟨hreport, rfl⟩ := whileRunning_eq_some.mp hstep
      exact ⟨hreport, rfl⟩
  | vanish =>
      obtain ⟨hreport, rfl⟩ := whileRunning_eq_some.mp hstep
      exact ⟨hreport, rfl⟩

theorem honest_poll (hrun : Consistent state) (hhonest : Honest state)
    (hok : PollsSuccess state .poll) (hstep : state.poll = some after) : Honest after := by
  obtain ⟨status, told, hnext, rfl⟩ := poll_eq_some.mp hstep
  cases hfinished : state.finished with
  | false =>
      obtain ⟨htold, hreport, hpolls, hstatus⟩ := next_cases hrun hfinished hnext
      have hmessages := hhonest.messages hfinished
      rw [← hpolls] at hmessages
      rcases hstatus with rfl | ⟨hover, rfl⟩
      · refine ⟨_, 0, by simp; rfl, fun polled hpolled => ?_, nofun⟩
        rcases List.mem_append.mp hpolled with hold | hnew
        · exact hmessages polled hold
        · rw [List.mem_singleton.mp hnew]
      · refine ⟨told.polls, 1, ?_, hmessages, fun _ => hover⟩
        simp [ending, hreport, (htold.ended hover).2]
  | true =>
      rw [next_of_finished hfinished] at hnext
      obtain ⟨rfl, rfl⟩ := Prod.mk.inj (Option.some.inj hnext)
      obtain ⟨out, hreport⟩ := succeeded_iff.mp (hok hfinished)
      obtain ⟨messages, n, hpolls, hmessages, -⟩ := hhonest
      refine ⟨messages, n + 1, ?_, hmessages, fun _ => hfinished⟩
      simp [hpolls, ending, (hrun.ended hfinished).2, hreport, statusOf, List.replicate_succ']

theorem honest_step (hrun : Consistent state) (hhonest : Honest state) (hok : PollsSuccess state action)
    (hstep : state.step action = some after) : Honest after := by
  by_cases hpoll : action = .poll
  · subst hpoll
    exact honest_poll hrun hhonest hok hstep
  · obtain ⟨hreport, hpolls⟩ := running_of_step hpoll hstep
    have hmessages := hhonest.messages (hrun.running hreport).1
    exact ⟨after.polls, 0, by simp, hpolls ▸ hmessages, nofun⟩

theorem statusOf_eq_done {report : Report} :
    statusOf report = .done ↔ ∃ out, report = .done (.ok out) := by
  cases report with
  | running => simp [statusOf]
  | vanished => simp [statusOf]
  | done result => cases result <;> simp [statusOf]

theorem statusOf_eq_error {report : Report} (hover : report ≠ .running) :
    statusOf report = .error ↔ (∃ msg, report = .done (.error msg)) ∨ report = .vanished := by
  cases report with
  | running => exact (hover rfl).elim
  | vanished => simp [statusOf]
  | done result => cases result <;> simp [statusOf]

/-- Polls that tell the end as it is are truthful and stable. -/
theorem Honest.truthful (hhonest : Honest state) (hrun : Consistent state) : Truthful state.polls := by
  obtain ⟨messages, n, hpolls, hmessages, hover⟩ := hhonest
  have hend : ∀ polled ∈ state.polls, polled.status ≠ .message →
      state.report ≠ .running ∧ polled = ending state.report := by
    intro polled hpolled hstatus
    rw [hpolls, List.mem_append, List.mem_replicate] at hpolled
    obtain ⟨hsome, hending⟩ := hpolled.resolve_left fun hold => hstatus (hmessages polled hold)
    exact ⟨(hrun.ended (hover hsome)).1, hending⟩
  refine ⟨fun polled hpolled hdone => ?_, fun polled hpolled herror => ?_, ?_⟩
  · obtain ⟨-, rfl⟩ := hend polled hpolled (by simp [hdone])
    exact statusOf_eq_done.mp hdone
  · obtain ⟨hreport, rfl⟩ := hend polled hpolled (by simp [herror])
    exact (statusOf_eq_error hreport).mp herror
  · rw [hpolls, List.pairwise_append]
    refine ⟨?_, List.pairwise_replicate.mpr (.inr fun _ => ⟨rfl, rfl⟩), fun earlier hearlier _ _ hstatus => ?_⟩
    · exact List.pairwise_of_forall_mem_list fun earlier hearlier _ _ hstatus =>
        (hstatus (hmessages earlier hearlier)).elim
    · exact (hstatus (hmessages earlier hearlier)).elim

theorem Truthful.of_append {polls more : List (Polled Status)} (hall : Truthful (polls ++ more)) :
    Truthful polls where
  done polled hpolled := hall.done polled (List.mem_append_left _ hpolled)
  error polled hpolled := hall.error polled (List.mem_append_left _ hpolled)
  stable := (List.pairwise_append.mp hall.stable).1

/-- The polls only grow. -/
theorem polls_append (hrun : Consistent state) (hstep : state.step action = some after) :
    ∃ more, after.polls = state.polls ++ more := by
  by_cases hpoll : action = .poll
  · subst hpoll
    obtain ⟨status, told, hnext, rfl⟩ := poll_eq_some.mp hstep
    have htold : told.polls = state.polls := by
      cases hfinished : state.finished with
      | false => exact (next_cases hrun hfinished hnext).2.2.1
      | true =>
          rw [next_of_finished hfinished] at hnext
          obtain ⟨-, rfl⟩ := Prod.mk.inj (Option.some.inj hnext)
          rfl
    exact ⟨_, congrArg (· ++ _) htold⟩
  · exact ⟨[], by simp [(running_of_step hpoll hstep).2]⟩

/-- A poll that tells success of a failed run is not truthful. -/
theorem not_truthful_of_poll (hbad : ¬PollsSuccess state action)
    (hstep : state.step action = some after) : ¬Truthful after.polls := by
  cases action with
  | send => exact (hbad trivial).elim
  | finish result => exact (hbad trivial).elim
  | vanish => exact (hbad trivial).elim
  | poll =>
      obtain ⟨hfinished, hreport⟩ := Classical.not_imp.mp hbad
      obtain ⟨status, told, hnext, rfl⟩ := poll_eq_some.mp hstep
      rw [next_of_finished hfinished] at hnext
      obtain ⟨rfl, rfl⟩ := Prod.mk.inj (Option.some.inj hnext)
      exact fun htruthful => hreport (succeeded_iff.mpr
        (htruthful.done _ (List.mem_append_right _ (List.mem_singleton_self _)) rfl))

/-- What the polls of a run tell is truthful and stable exactly where no poll is made
after the end is known of a run that did not return. -/
theorem truthful_iff {actions : List Action}
    (hrun : run ReportingRun.step {} actions = some final) :
    Truthful final.polls ↔ EachStep ReportingRun.step PollsSuccess {} actions := by
  constructor
  · intro htruthful
    have hkeep : ∀ state action after, Consistent state → ¬Truthful state.polls →
        state.step action = some after → ¬Truthful after.polls := by
      intro state action after hstate hbad hstep hafter
      obtain ⟨more, hpolls⟩ := polls_append hstate hstep
      rw [hpolls] at hafter
      exact hbad hafter.of_append
    exact eachStep_of_unmarked (fun _ _ _ => consistent_step)
      (fun _ _ _ _ => not_truthful_of_poll) hkeep consistent_start hrun (not_not.mpr htruthful)
  · intro hok
    have hboth := run_preserves_of_eachStep
      (fun _ _ _ hinv hgood hstep => And.intro (consistent_step hinv.1 hstep)
        (honest_step hinv.1 hinv.2 hgood hstep))
      ⟨consistent_start, honest_start⟩ hok hrun
    exact hboth.2.truthful hboth.1

end HellohqRuntime.Bridge.Reporting

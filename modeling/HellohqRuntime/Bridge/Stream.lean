import HellohqRuntime.Bridge.Reporting

/-!
# The session of streamed frames

The driver on the worker thread emits outbound chunks and awaits inbound ones; the
caller polls for the outbound and pushes the inbound.  A run is any interleaving of
the driver's steps with the caller's.  The driver may emit at any time, also while
it awaits an inbound chunk.
-/

namespace HellohqRuntime.Bridge.Stream

open HellohqRuntime.Foundation.Channels
open HellohqRuntime.Foundation.Runs
open HellohqRuntime.Foundation.Strings
open HellohqRuntime.Foundation.Utf8
open HellohqRuntime.Bridge.Reporting

/-- `HWR_P3S_OUT`, `HWR_P3S_OUT_END`, `HWR_P3S_DONE` and `HWR_P3S_ERROR`. -/
inductive P3sStatus where
  | out | outEnd | done | error
  deriving DecidableEq, Repr

inductive P3sEvent where
  | out (chunk : Bytes)
  | outEnd
  | done (result : Except Text Bytes)

structure HwrP3Stream where
  rx : Channel P3sEvent := {}
  /-- `in_tx` and the channel behind it: the sending side is alive while `in_tx` is there. -/
  inTx : Channel Bytes := {}
  currentOut : Bytes := []
  result : Bytes := []
  finished : Bool := false

namespace HwrP3Stream

/-- Block until the next event; not enabled while there is none. -/
def poll (stream : HwrP3Stream) : Option (P3sStatus × HwrP3Stream) :=
  if stream.finished then some (.done, stream)
  else
    match stream.rx.receive with
    | .value (.out chunk) rx => some (.out, { stream with rx, currentOut := chunk })
    | .value .outEnd rx => some (.outEnd, { stream with rx })
    | .value (.done (.ok out)) rx =>
        some (.done, { stream with rx, result := out, finished := true })
    | .value (.done (.error msg)) rx =>
        some (.error, { stream with rx, result := asBytes msg, finished := true })
    | .disconnected => some (.error, { stream with finished := true })
    | .pending => none

def push (stream : HwrP3Stream) (chunk : Bytes) : HwrP3Stream :=
  if stream.inTx.sending then
    { stream with inTx := (stream.inTx.send chunk).getD stream.inTx }
  else stream

def pushEnd (stream : HwrP3Stream) : HwrP3Stream := { stream with inTx := stream.inTx.dropSender }

end HwrP3Stream

/-! ## The driver and the caller -/

structure P3sRun where
  stream : HwrP3Stream := {}
  report : Report := .running
  /-- The driver awaits an inbound chunk. -/
  waiting : Bool := false
  /-- What it was woken with: a chunk, or that the inbound stream is over. -/
  received : List (Option Bytes) := []
  polls : List (Polled P3sStatus) := []

inductive Label where
  | chunk (bytes : Bytes)
  | endOut
  | await
  | wake
  /-- The driver drops its inbound receiver. -/
  | dropInbound
  | finish (result : Except Text Bytes)
  | vanish
  | poll
  | push (chunk : Bytes)
  | pushEnd

def Label.isWorker : Label → Bool
  | .poll => false
  | .push _ => false
  | .pushEnd => false
  | _ => true

namespace P3sRun

/-- `P3sOut::chunk` and `P3sOut::end`: an event that cannot be sent is dropped. -/
def emit (run : P3sRun) (event : P3sEvent) : Option P3sRun :=
  whileRunning run.report { run with
    stream := { run.stream with rx := (run.stream.rx.send event).getD run.stream.rx } }

def await (run : P3sRun) : Option P3sRun :=
  if run.stream.inTx.receiving then whileRunning run.report { run with waiting := true } else none

def wake (run : P3sRun) : Option P3sRun :=
  if run.waiting then
    match run.stream.inTx.receive with
    | .value chunk inTx => some { run with
        stream := { run.stream with inTx }
        waiting := false
        received := run.received ++ [some chunk] }
    | .disconnected => some { run with waiting := false, received := run.received ++ [none] }
    | .pending => none
  else none

def dropInbound (run : P3sRun) : Option P3sRun :=
  if run.waiting then none
  else
    whileRunning run.report { run with
      stream := { run.stream with inTx := run.stream.inTx.dropReceiver } }

/-- The worker is over, and its ends of both channels are dropped. -/
def ended (run : P3sRun) (rx : Channel P3sEvent) (report : Report) : P3sRun :=
  { run with
    stream := { run.stream with rx := rx.dropSender, inTx := run.stream.inTx.dropReceiver }
    report
    waiting := false }

def finish (run : P3sRun) (result : Except Text Bytes) : Option P3sRun :=
  whileRunning run.report <|
    run.ended ((run.stream.rx.send (.done result)).getD run.stream.rx) (.done result)

/-- The thread panics. -/
def vanish (run : P3sRun) : Option P3sRun :=
  whileRunning run.report <| run.ended run.stream.rx .vanished

def poll (run : P3sRun) : Option P3sRun :=
  run.stream.poll.map fun (status, stream) => { run with
    stream
    polls := run.polls ++ [{ status, result := stream.result, report := run.report }] }

def step (run : P3sRun) : Label → Option P3sRun
  | .chunk bytes => run.emit (.out bytes)
  | .endOut => run.emit .outEnd
  | .await => run.await
  | .wake => run.wake
  | .dropInbound => run.dropInbound
  | .finish result => run.finish result
  | .vanish => run.vanish
  | .poll => run.poll
  | .push chunk => some { run with stream := run.stream.push chunk }
  | .pushEnd => some { run with stream := run.stream.pushEnd }

end P3sRun

/-! ## What the worker reports and the polls tell -/

def P3sStatus.kind : P3sStatus → Status
  | .out => .message
  | .outEnd => .message
  | .done => .done
  | .error => .error

def P3sEvent.kind : P3sEvent → Event
  | .out _ => .message
  | .outEnd => .message
  | .done result => .done result

/-- The run with its frames out of sight. -/
def P3sRun.reporting (run : P3sRun) : ReportingRun :=
  { rx := run.stream.rx.map P3sEvent.kind
    result := run.stream.result
    finished := run.stream.finished
    report := run.report
    polls := run.polls.map (Polled.map P3sStatus.kind) }

def Label.action : Label → Option Action
  | .chunk _ => some .send
  | .endOut => some .send
  | .finish result => some (.finish result)
  | .vanish => some .vanish
  | .poll => some .poll
  | _ => none

/-- Once the end is known, a poll is made only where the worker returned a result. -/
def PollsSuccess (run : P3sRun) : Label → Prop
  | .poll => run.stream.finished = true → run.report.succeeded = true
  | _ => True

instance (run : P3sRun) : ∀ label, Decidable (PollsSuccess run label)
  | .poll => inferInstanceAs (Decidable (run.stream.finished = true → run.report.succeeded = true))
  | .chunk _ => inferInstanceAs (Decidable True)
  | .endOut => inferInstanceAs (Decidable True)
  | .await => inferInstanceAs (Decidable True)
  | .wake => inferInstanceAs (Decidable True)
  | .dropInbound => inferInstanceAs (Decidable True)
  | .finish _ => inferInstanceAs (Decidable True)
  | .vanish => inferInstanceAs (Decidable True)
  | .push _ => inferInstanceAs (Decidable True)
  | .pushEnd => inferInstanceAs (Decidable True)

variable {state next final : P3sRun} {label : Label}

theorem reporting_emit {event : P3sEvent} (hevent : event.kind = .message)
    (hstep : state.emit event = some next) : state.reporting.send = some next.reporting := by
  obtain ⟨hreport, rfl⟩ := whileRunning_eq_some.mp hstep
  refine whileRunning_eq_some.mpr ⟨hreport, ?_⟩
  have hmap := @Channel.map_getD_send _ _ state.stream.rx event P3sEvent.kind
  rw [hevent] at hmap
  exact congrArg (fun rx => { state.reporting with rx }) hmap

theorem reporting_finish {result : Except Text Bytes} (hstep : state.finish result = some next) :
    state.reporting.finish result = some next.reporting := by
  obtain ⟨hreport, rfl⟩ := whileRunning_eq_some.mp hstep
  refine whileRunning_eq_some.mpr ⟨hreport, ?_⟩
  simp only [P3sRun.reporting, P3sRun.ended, Channel.map_dropSender, Channel.map_getD_send]
  rfl

theorem reporting_vanish (hstep : state.vanish = some next) :
    state.reporting.vanish = some next.reporting := by
  obtain ⟨hreport, rfl⟩ := whileRunning_eq_some.mp hstep
  exact whileRunning_eq_some.mpr ⟨hreport, rfl⟩

/-- The two polls see the same event. -/
theorem next_reporting (state : P3sRun) :
    state.reporting.next =
      state.stream.poll.map fun (status, stream) =>
        (status.kind, ({ state with stream } : P3sRun).reporting) := by
  have hmap : state.reporting.rx.receive = state.stream.rx.receive.map P3sEvent.kind :=
    Channel.map_receive _
  unfold ReportingRun.next HwrP3Stream.poll
  have hsame : state.reporting.finished = state.stream.finished := rfl
  rw [hsame, hmap]
  by_cases hfinished : state.stream.finished = true
  · rw [if_pos hfinished, if_pos hfinished]
    rfl
  · rw [if_neg hfinished, if_neg hfinished]
    cases state.stream.rx.receive with
    | pending => rfl
    | disconnected => rfl
    | value event rx =>
        cases event with
        | out chunk => rfl
        | outEnd => rfl
        | done result => cases result <;> rfl

theorem reporting_poll (hstep : state.poll = some next) :
    state.reporting.poll = some next.reporting := by
  rw [P3sRun.poll, Option.map_eq_some_iff] at hstep
  obtain ⟨⟨status, stream⟩, hpoll, rfl⟩ := hstep
  refine poll_eq_some.mpr ⟨status.kind, ({ state with stream } : P3sRun).reporting, ?_, ?_⟩
  · rw [next_reporting, hpoll]
    rfl
  · simp [P3sRun.reporting, Polled.map]

/-- A driver is woken with the next chunk, or with the end of the inbound stream. -/
theorem wake_eq_some :
    state.wake = some next ↔ state.waiting = true ∧
      (state.stream.inTx.queue = [] → state.stream.inTx.sending = false) ∧
      next = { state with
        stream := { state.stream with
          inTx := { state.stream.inTx with queue := state.stream.inTx.queue.tail } }
        waiting := false
        received := state.received ++ [state.stream.inTx.queue.head?] } := by
  obtain ⟨⟨rx, ⟨queue, sending, receiving⟩, currentOut, result, finished⟩, report, waiting,
    received, polls⟩ := state
  cases waiting with
  | false => simp [P3sRun.wake]
  | true =>
      cases queue with
      | cons chunk rest => simp [P3sRun.wake, Channel.receive, eq_comm]
      | nil => cases sending <;> simp [P3sRun.wake, Channel.receive, eq_comm]

theorem reporting_hidden (haction : label.action = none) (hstep : state.step label = some next) :
    next.reporting = state.reporting := by
  cases label with
  | await =>
      simp only [P3sRun.step, P3sRun.await, Option.ite_none_right_eq_some, whileRunning_eq_some]
        at hstep
      obtain ⟨-, -, rfl⟩ := hstep
      rfl
  | wake =>
      obtain ⟨-, -, rfl⟩ := wake_eq_some.mp hstep
      rfl
  | dropInbound =>
      simp only [P3sRun.step, P3sRun.dropInbound, Option.ite_none_left_eq_some,
        whileRunning_eq_some] at hstep
      obtain ⟨-, -, rfl⟩ := hstep
      rfl
  | push chunk =>
      obtain rfl := Option.some.inj hstep
      unfold HwrP3Stream.push
      split <;> rfl
  | pushEnd =>
      obtain rfl := Option.some.inj hstep
      rfl
  | chunk bytes => cases haction
  | endOut => cases haction
  | finish result => cases haction
  | vanish => cases haction
  | poll => cases haction

theorem reporting_shown {action : Action} (haction : label.action = some action)
    (hstep : state.step label = some next) :
    state.reporting.step action = some next.reporting := by
  cases label with
  | chunk bytes =>
      obtain rfl := Option.some.inj haction
      exact reporting_emit rfl hstep
  | endOut =>
      obtain rfl := Option.some.inj haction
      exact reporting_emit rfl hstep
  | finish result =>
      obtain rfl := Option.some.inj haction
      exact reporting_finish hstep
  | vanish =>
      obtain rfl := Option.some.inj haction
      exact reporting_vanish hstep
  | poll =>
      obtain rfl := Option.some.inj haction
      exact reporting_poll hstep
  | await => cases haction
  | wake => cases haction
  | dropInbound => cases haction
  | push chunk => cases haction
  | pushEnd => cases haction

theorem pollsSuccess_iff (state : P3sRun) (label : Label) :
    PollsSuccess state label ↔
      ∀ action ∈ label.action, Reporting.PollsSuccess state.reporting action := by
  cases label <;> simp [PollsSuccess, Label.action, Reporting.PollsSuccess, P3sRun.reporting]

/-- What the polls of a stream tell is truthful and stable exactly where no poll is
made after the end is known of a run that did not return. -/
theorem polls_truthful_iff {labels : List Label}
    (hrun : run P3sRun.step {} labels = some final) :
    Truthful (final.polls.map (Polled.map P3sStatus.kind)) ↔
      EachStep P3sRun.step PollsSuccess {} labels := by
  obtain ⟨hreporting, hconditions⟩ := run_project P3sRun.reporting Label.action
    (fun _ _ _ => reporting_hidden) (fun _ _ _ _ => reporting_shown) pollsSuccess_iff hrun
  rw [hconditions]
  exact truthful_iff hreporting

end HellohqRuntime.Bridge.Stream

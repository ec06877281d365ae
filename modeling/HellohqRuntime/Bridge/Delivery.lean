import HellohqRuntime.Bridge.Stream

/-!
# What goes through a stream

The driver emits chunks and ends, and the caller's polls surface them.  The caller
pushes chunks, and the driver is woken with them.  In both directions everything
comes out once and in order, whatever the interleaving, and the end of a direction
is seen only behind all that was put in before it.
-/

namespace HellohqRuntime.Bridge.Delivery

open HellohqRuntime.Foundation.Channels
open HellohqRuntime.Foundation.Runs
open HellohqRuntime.Foundation.Strings
open HellohqRuntime.Bridge.Reporting
open HellohqRuntime.Bridge.Stream

/-! ## The two histories -/

/-- An outbound event of the driver, `none` for the end of the outbound stream. -/
def Label.emitted : Label → Option (Option Bytes)
  | .chunk bytes => some (some bytes)
  | .endOut => some none
  | _ => none

/-- What the driver emitted. -/
def emitted (labels : List Label) : List (Option Bytes) := labels.filterMap Label.emitted

/-- The chunk that a poll left readable, `none` for OUT_END. -/
def surfaced (next : P3sRun) : Option (Option Bytes) :=
  match next.polls.getLast? with
  | some { status := .out, .. } => some (some next.stream.currentOut)
  | some { status := .outEnd, .. } => some none
  | _ => none

/-- What the polls of a run surface, in order. -/
def surfacedBy : P3sRun → List Label → List (Option Bytes)
  | _, [] => []
  | state, label :: rest =>
      match state.step label with
      | none => []
      | some next =>
          match label with
          | .poll => (surfaced next).toList ++ surfacedBy next rest
          | _ => surfacedBy next rest

def Label.pushed : Label → Option Bytes
  | .push chunk => some chunk
  | _ => none

def Label.isOpen : Label → Bool
  | .pushEnd => false
  | _ => true

/-- What the caller pushed before it ended the inbound stream. -/
def pushed (labels : List Label) : List Bytes := (labels.takeWhile Label.isOpen).filterMap Label.pushed

/-- What a stream did for both of its directions. -/
structure Delivered (labels : List Label) (final : P3sRun) : Prop where
  /-- The polls surface what was emitted, from its beginning. -/
  outbound : surfacedBy {} labels <+: emitted labels
  /-- When the end of the run is known they have surfaced all of it. -/
  complete : final.stream.finished = true → surfacedBy {} labels = emitted labels
  /-- The driver is woken with what was pushed, from its beginning, and then with the end:
  only when the caller has ended the inbound stream, and behind all that was pushed. -/
  inbound : ∃ chunks n, final.received = chunks.map some ++ List.replicate n none ∧
    chunks <+: pushed labels ∧ (n ≠ 0 → .pushEnd ∈ labels ∧ chunks = pushed labels)

variable {state next final : P3sRun} {label : Label} {labels past : List Label}

/-! ## Outbound -/

def eventOut : P3sEvent → Option (Option Bytes)
  | .out chunk => some (some chunk)
  | .outEnd => some none
  | .done _ => none

/-- What was emitted and has not surfaced. -/
def queuedOut (state : P3sRun) : List (Option Bytes) := state.stream.rx.queue.filterMap eventOut

/-- What one step surfaces. -/
def seen : Label → P3sRun → List (Option Bytes)
  | .poll, next => (surfaced next).toList
  | _, _ => []

theorem surfacedBy_cons {rest : List Label} (hstep : state.step label = some next) :
    surfacedBy state (label :: rest) = seen label next ++ surfacedBy next rest := by
  cases label <;> simp [surfacedBy, hstep, seen]

/-- What a run surfaces, part by part. -/
theorem surfacedBy_append {left right : List Label} (hrun : run P3sRun.step state left = some next) :
    surfacedBy state (left ++ right) = surfacedBy state left ++ surfacedBy next right := by
  induction left generalizing state with
  | nil =>
      obtain rfl : state = next := by simpa using hrun
      rfl
  | cons label rest ih =>
      obtain ⟨middle, hmiddle, hrest⟩ := run_cons_eq_some.mp hrun
      rw [List.cons_append, surfacedBy_cons hmiddle, surfacedBy_cons hmiddle, ih hrest,
        List.append_assoc]

/-- Only polls surface something. -/
theorem surfacedBy_of_unpolled (hunpolled : ∀ label ∈ labels, label ≠ .poll) :
    surfacedBy state labels = [] := by
  induction labels generalizing state with
  | nil => rfl
  | cons label rest ih =>
      rw [List.forall_mem_cons] at hunpolled
      cases hstep : state.step label with
      | none => rw [surfacedBy, hstep]
      | some next =>
          rw [surfacedBy_cons hstep, ih hunpolled.2, List.append_nil]
          cases label <;> first | rfl | exact absurd rfl hunpolled.1

/-- Nothing is left in the queue once the end is known. -/
structure Flowing (state : P3sRun) : Prop where
  consistent : Consistent state.reporting
  drained : state.stream.finished = true → state.stream.rx.queue = []

theorem consistent_reporting_step (hconsistent : Consistent state.reporting)
    (hstep : state.step label = some next) : Consistent next.reporting := by
  cases haction : label.action with
  | none => exact reporting_hidden haction hstep ▸ hconsistent
  | some action => exact consistent_step hconsistent (reporting_shown haction hstep)

/-- A driver that still runs can send, and its end is not known. -/
theorem Flowing.running (hflowing : Flowing state) (hreport : state.report = .running) :
    state.stream.rx.receiving = true ∧ state.stream.finished = false :=
  ⟨hflowing.consistent.receiving, (hflowing.consistent.running hreport).1⟩

/-- Behind the report of a worker there is nothing. -/
theorem Flowing.last (hflowing : Flowing state) (hfinished : state.stream.finished = false)
    {result : Except Text Bytes} {rest : List P3sEvent}
    (hqueue : state.stream.rx.queue = .done result :: rest) : rest = [] := by
  obtain ⟨⟨n, hkinds⟩, -⟩ := hflowing.consistent.ahead hfinished
  have hmap : (P3sEvent.done result :: rest).map P3sEvent.kind =
      List.replicate n .message ++ lastEvent state.report := by
    rw [← hqueue]
    exact hkinds
  cases n with
  | succ n => cases hmap
  | zero =>
      cases hreport : state.report with
      | running =>
          rw [hreport] at hmap
          cases hmap
      | vanished =>
          rw [hreport] at hmap
          cases hmap
      | done reported =>
          rw [hreport] at hmap
          simpa using (List.cons.inj hmap).2

/-- What a poll takes: a chunk, the end of the outbound stream, or the end of the run. -/
theorem poll_cases (hstep : state.poll = some next) :
    (∃ event out, state.stream.rx.queue = event :: next.stream.rx.queue ∧
        eventOut event = some out ∧ surfaced next = some out ∧
        next.stream.finished = state.stream.finished) ∨
      surfaced next = none ∧ next.stream.finished = true ∧
        (state.stream.finished = true ∧ next.stream.rx.queue = state.stream.rx.queue ∨
          state.stream.finished = false ∧
            (state.stream.rx.queue = [] ∧ next.stream.rx.queue = [] ∨
              ∃ result, state.stream.rx.queue = .done result :: next.stream.rx.queue)) := by
  obtain ⟨⟨status, stream⟩, hpoll, rfl⟩ := Option.map_eq_some_iff.mp hstep
  unfold HwrP3Stream.poll at hpoll
  by_cases hfinished : state.stream.finished = true
  · rw [if_pos hfinished] at hpoll
    obtain ⟨rfl, rfl⟩ := Prod.mk.inj (Option.some.inj hpoll)
    exact .inr ⟨by simp [surfaced], hfinished, .inl ⟨hfinished, rfl⟩⟩
  · rw [if_neg hfinished] at hpoll
    rw [Bool.not_eq_true] at hfinished
    cases hreceive : state.stream.rx.receive with
    | pending => simp [hreceive] at hpoll
    | disconnected =>
        rw [hreceive] at hpoll
        obtain ⟨rfl, rfl⟩ := Prod.mk.inj (Option.some.inj hpoll)
        have hqueue := (Channel.receive_eq_disconnected.mp hreceive).1
        exact .inr ⟨by simp [surfaced], rfl, .inr ⟨hfinished, .inl ⟨hqueue, hqueue⟩⟩⟩
    | value event rx =>
        rw [hreceive] at hpoll
        obtain ⟨rest, hqueue, rfl⟩ := Channel.receive_eq_value.mp hreceive
        cases event with
        | out chunk =>
            obtain ⟨rfl, rfl⟩ := Prod.mk.inj (Option.some.inj hpoll)
            exact .inl ⟨_, some chunk, hqueue, rfl, by simp [surfaced], rfl⟩
        | outEnd =>
            obtain ⟨rfl, rfl⟩ := Prod.mk.inj (Option.some.inj hpoll)
            exact .inl ⟨_, none, hqueue, rfl, by simp [surfaced], rfl⟩
        | done result =>
            cases result with
            | ok out =>
                obtain ⟨rfl, rfl⟩ := Prod.mk.inj (Option.some.inj hpoll)
                exact .inr ⟨by simp [surfaced], rfl, .inr ⟨hfinished, .inr ⟨_, hqueue⟩⟩⟩
            | error msg =>
                obtain ⟨rfl, rfl⟩ := Prod.mk.inj (Option.some.inj hpoll)
                exact .inr ⟨by simp [surfaced], rfl, .inr ⟨hfinished, .inr ⟨_, hqueue⟩⟩⟩

/-- A poll surfaces what is at the front of the queue. -/
theorem flowing_poll (hflowing : Flowing state) (hstep : state.poll = some next) :
    queuedOut state = (surfaced next).toList ++ queuedOut next ∧
      (next.stream.finished = true → next.stream.rx.queue = []) := by
  obtain ⟨event, out, hqueue, hout, hsurfaced, hfinished⟩ | ⟨hsurfaced, -, hcases⟩ := poll_cases hstep
  · refine ⟨?_, fun hover => ?_⟩
    · rw [queuedOut, hqueue, List.filterMap_cons_some hout, hsurfaced]
      rfl
    · have hnil := hflowing.drained (hfinished ▸ hover)
      simp [hqueue] at hnil
  · obtain ⟨hover, hsame⟩ | ⟨hlive, ⟨hqueue, hnext⟩ | ⟨result, hqueue⟩⟩ := hcases
    · refine ⟨by rw [hsurfaced, queuedOut, ← hsame]; rfl, fun _ => ?_⟩
      rw [hsame]
      exact hflowing.drained hover
    · exact ⟨by rw [hsurfaced, queuedOut, hqueue, queuedOut, hnext]; rfl, fun _ => hnext⟩
    · have hnil := hflowing.last hlive hqueue
      refine ⟨?_, fun _ => hnil⟩
      rw [hsurfaced, queuedOut, hqueue, queuedOut, hnil]
      rfl

/-- An event of a running driver goes to the end of the queue. -/
theorem flowing_emit {event : P3sEvent} (hflowing : Flowing state)
    (hstep : state.emit event = some next) :
    queuedOut state ++ (eventOut event).toList = queuedOut next ∧
      next.stream.finished = false := by
  obtain ⟨hreport, rfl⟩ := whileRunning_eq_some.mp hstep
  obtain ⟨hreceiving, hfinished⟩ := hflowing.running hreport
  have hsend := @Channel.send_eq_some _ state.stream.rx _ event |>.mpr ⟨hreceiving, rfl⟩
  refine ⟨?_, hfinished⟩
  rw [hsend, Option.getD_some, queuedOut, queuedOut, List.filterMap_append]
  cases heventOut : eventOut event <;> simp [heventOut]

/-- Each step surfaces from the front of the queue and emits to its end. -/
theorem flowing_step (hflowing : Flowing state) (hstep : state.step label = some next) :
    Flowing next ∧
      queuedOut state ++ (Label.emitted label).toList = seen label next ++ queuedOut next := by
  have hconsistent := consistent_reporting_step hflowing.consistent hstep
  cases label with
  | chunk bytes =>
      obtain ⟨hqueue, hfinished⟩ := flowing_emit hflowing hstep
      exact ⟨⟨hconsistent, fun hover => by simp [hfinished] at hover⟩, hqueue⟩
  | endOut =>
      obtain ⟨hqueue, hfinished⟩ := flowing_emit hflowing hstep
      exact ⟨⟨hconsistent, fun hover => by simp [hfinished] at hover⟩, hqueue⟩
  | finish result =>
      obtain ⟨hreport, rfl⟩ := whileRunning_eq_some.mp hstep
      obtain ⟨hreceiving, hfinished⟩ := hflowing.running hreport
      have hsend := @Channel.send_eq_some _ state.stream.rx _ (.done result) |>.mpr ⟨hreceiving, rfl⟩
      refine ⟨⟨hconsistent, fun hover => by simp [P3sRun.ended, hfinished] at hover⟩, ?_⟩
      simp [queuedOut, P3sRun.ended, hsend, Label.emitted, seen, eventOut]
  | vanish =>
      obtain ⟨hreport, rfl⟩ := whileRunning_eq_some.mp hstep
      have hfinished := (hflowing.running hreport).2
      refine ⟨⟨hconsistent, fun hover => by simp [P3sRun.ended, hfinished] at hover⟩, ?_⟩
      simp [queuedOut, P3sRun.ended, Label.emitted, seen]
  | poll =>
      obtain ⟨hqueue, hdrained⟩ := flowing_poll hflowing hstep
      exact ⟨⟨hconsistent, hdrained⟩, by simpa [Label.emitted, seen] using hqueue⟩
  | await =>
      simp only [P3sRun.step, P3sRun.await, Option.ite_none_right_eq_some, whileRunning_eq_some]
        at hstep
      obtain ⟨-, -, rfl⟩ := hstep
      exact ⟨⟨hconsistent, hflowing.drained⟩, by simp [Label.emitted, seen, queuedOut]⟩
  | wake =>
      obtain ⟨-, -, rfl⟩ := wake_eq_some.mp hstep
      exact ⟨⟨hconsistent, hflowing.drained⟩, by simp [Label.emitted, seen, queuedOut]⟩
  | dropInbound =>
      simp only [P3sRun.step, P3sRun.dropInbound, Option.ite_none_left_eq_some,
        whileRunning_eq_some] at hstep
      obtain ⟨-, -, rfl⟩ := hstep
      exact ⟨⟨hconsistent, hflowing.drained⟩, by simp [Label.emitted, seen, queuedOut]⟩
  | push chunk =>
      obtain rfl := Option.some.inj hstep
      have hrx : (state.stream.push chunk).rx = state.stream.rx ∧
          (state.stream.push chunk).finished = state.stream.finished := by
        unfold HwrP3Stream.push
        split <;> exact ⟨rfl, rfl⟩
      refine ⟨⟨hconsistent, fun hover => ?_⟩, by simp [Label.emitted, seen, queuedOut, hrx.1]⟩
      rw [hrx.1]
      exact hflowing.drained (hrx.2 ▸ hover)
  | pushEnd =>
      obtain rfl := Option.some.inj hstep
      exact ⟨⟨hconsistent, hflowing.drained⟩,
        by simp [Label.emitted, seen, queuedOut, HwrP3Stream.pushEnd]⟩

theorem flowing_start : Flowing {} where
  consistent := consistent_start
  drained := fun _ => rfl

/-- What a run surfaces and leaves in the queue is what was there and what it emits. -/
theorem surfacedBy_append_queuedOut (hflowing : Flowing state)
    (hrun : run P3sRun.step state labels = some final) :
    Flowing final ∧ surfacedBy state labels ++ queuedOut final = queuedOut state ++ emitted labels := by
  induction labels generalizing state with
  | nil =>
      obtain rfl : state = final := by simpa using hrun
      exact ⟨hflowing, by simp [surfacedBy, emitted]⟩
  | cons label rest ih =>
      obtain ⟨next, hnext, hrest⟩ := run_cons_eq_some.mp hrun
      obtain ⟨hafter, hflow⟩ := flowing_step hflowing hnext
      obtain ⟨hfinal, hqueue⟩ := ih hafter hrest
      refine ⟨hfinal, ?_⟩
      have hemitted : emitted (label :: rest) = (Label.emitted label).toList ++ emitted rest := by
        cases hlabel : Label.emitted label <;> simp [emitted, hlabel]
      calc surfacedBy state (label :: rest) ++ queuedOut final
          = seen label next ++ (surfacedBy next rest ++ queuedOut final) := by
            rw [surfacedBy_cons hnext, List.append_assoc]
        _ = seen label next ++ queuedOut next ++ emitted rest := by
            rw [hqueue, List.append_assoc]
        _ = queuedOut state ++ emitted (label :: rest) := by
            rw [← hflow, hemitted, List.append_assoc]

/-! ## Inbound -/

theorem pushed_concat_of_open (hopen : past.all Label.isOpen = true) :
    pushed (past ++ [label]) = pushed past ++ (Label.pushed label).toList := by
  have htake : past.takeWhile Label.isOpen = past :=
    List.takeWhile_eq_self_iff.mpr (List.all_eq_true.mp hopen)
  rw [pushed, List.takeWhile_append_of_pos (List.all_eq_true.mp hopen), List.filterMap_append, pushed,
    htake]
  cases label <;> rfl

theorem pushed_concat_of_closed (hclosed : past.all Label.isOpen = false) :
    pushed (past ++ [label]) = pushed past := by
  have htake : (past.takeWhile Label.isOpen).length ≠ past.length := by
    intro hlength
    have hself : past.takeWhile Label.isOpen = past :=
      (List.takeWhile_prefix Label.isOpen).eq_of_length hlength
    have hall := List.all_eq_true.mpr (List.takeWhile_eq_self_iff.mp hself)
    simp [hclosed] at hall
  rw [pushed, List.takeWhile_append, if_neg htake, pushed]

/-- A push or the end of the pushes. -/
def Label.isCaller : Label → Bool
  | .push _ => true
  | .pushEnd => true
  | _ => false

/-- What is pushed is up to the caller. -/
theorem pushed_filter (labels : List Label) : pushed (labels.filter Label.isCaller) = pushed labels := by
  induction labels with
  | nil => rfl
  | cons label rest ih =>
      cases label with
      | push chunk => exact congrArg (chunk :: ·) ih
      | pushEnd => rfl
      | _ => exact ih

/-- What the driver has had of what was pushed. -/
structure Arriving (past : List Label) (state : P3sRun) : Prop where
  received : ∃ chunks n, state.received = chunks.map some ++ List.replicate n none ∧
    chunks <+: pushed past ∧
    (state.stream.inTx.receiving = true → chunks ++ state.stream.inTx.queue = pushed past) ∧
    (n ≠ 0 → state.stream.inTx.sending = false ∧ chunks = pushed past)
  sending : state.stream.inTx.sending = past.all Label.isOpen
  awaits : state.waiting = true → state.stream.inTx.receiving = true

theorem arriving_start : Arriving [] {} where
  received := ⟨[], 0, rfl, List.prefix_refl _, fun _ => rfl, fun hnone => (hnone rfl).elim⟩
  sending := rfl
  awaits := nofun

/-- A step that neither pushes nor wakes the driver. -/
theorem Arriving.keep (harriving : Arriving past state) (hpush : Label.pushed label = none)
    (hopen : Label.isOpen label = true) (hreceived : next.received = state.received)
    (hinTx : next.stream.inTx = state.stream.inTx ∨
      next.stream.inTx = state.stream.inTx.dropReceiver)
    (hawaits : next.waiting = true → next.stream.inTx.receiving = true) :
    Arriving (past ++ [label]) next := by
  obtain ⟨chunks, n, hchunks, hfront, hqueue, hend⟩ := harriving.received
  have hpushed : pushed (past ++ [label]) = pushed past := by
    cases hall : past.all Label.isOpen with
    | true => simp [pushed_concat_of_open hall, hpush]
    | false => exact pushed_concat_of_closed hall
  have hsending : next.stream.inTx.sending = state.stream.inTx.sending := by
    obtain hsame | hdropped := hinTx
    · rw [hsame]
    · rw [hdropped, Channel.dropReceiver_sending]
  refine ⟨⟨chunks, n, by rw [hreceived, hchunks], by rw [hpushed]; exact hfront, ?_, ?_⟩, ?_, hawaits⟩
  · intro hreceiving
    obtain hsame | hdropped := hinTx
    · rw [hpushed, hsame]
      exact hqueue (hsame ▸ hreceiving)
    · rw [hdropped] at hreceiving
      cases hreceiving
  · intro hnone
    rw [hsending, hpushed]
    exact hend hnone
  · rw [hsending, harriving.sending, List.all_append]
    simp [hopen]

theorem arriving_wake (harriving : Arriving past state) (hstep : state.wake = some next) :
    Arriving (past ++ [.wake]) next := by
  obtain ⟨hwaiting, hover, rfl⟩ := wake_eq_some.mp hstep
  have hreceiving := harriving.awaits hwaiting
  obtain ⟨chunks, n, hchunks, hfront, hqueue, hend⟩ := harriving.received
  have hpushed : pushed (past ++ [.wake]) = pushed past := by
    cases hall : past.all Label.isOpen with
    | true => simp [pushed_concat_of_open hall, Label.pushed]
    | false => exact pushed_concat_of_closed hall
  have hall := hqueue hreceiving
  have hsending : state.stream.inTx.sending = (past ++ [Label.wake]).all Label.isOpen := by
    rw [harriving.sending, List.all_append]
    simp [Label.isOpen]
  cases hinTx : state.stream.inTx.queue with
  | nil =>
      rw [hinTx, List.append_nil] at hall
      refine ⟨⟨chunks, n + 1, ?_, by rw [hpushed]; exact hfront, fun _ => ?_, fun _ => ?_⟩, hsending,
        nofun⟩
      · rw [hchunks, List.replicate_succ', ← List.append_assoc]
        rfl
      · rw [hpushed, ← hall]
        exact List.append_nil chunks
      · exact ⟨hover hinTx, by rw [hpushed, hall]⟩
  | cons chunk rest =>
      have hnone : n = 0 := by
        by_contra hnone
        rw [← (hend hnone).2, hinTx] at hall
        simp at hall
      subst hnone
      refine ⟨⟨chunks ++ [chunk], 0, ?_, ?_, fun _ => ?_, fun hnone => (hnone rfl).elim⟩, hsending,
        nofun⟩
      · rw [hchunks]
        simp
      · rw [hpushed, ← hall, hinTx]
        exact ⟨rest, by simp⟩
      · rw [hpushed, ← hall, hinTx]
        simp

theorem arriving_push {chunk : Bytes} (harriving : Arriving past state) :
    Arriving (past ++ [.push chunk]) { state with stream := state.stream.push chunk } := by
  obtain ⟨chunks, n, hchunks, hfront, hqueue, hend⟩ := harriving.received
  have hall : (past ++ [Label.push chunk]).all Label.isOpen = past.all Label.isOpen := by
    rw [List.all_append]
    simp [Label.isOpen]
  cases hsending : state.stream.inTx.sending with
  | false =>
      have hclosed := harriving.sending.symm.trans hsending
      have hpush : state.stream.push chunk = state.stream := by
        rw [HwrP3Stream.push, if_neg (by simp [hsending])]
      rw [hpush]
      refine ⟨⟨chunks, n, hchunks, ?_, ?_, ?_⟩, by rw [hall]; exact harriving.sending, harriving.awaits⟩
      · rw [pushed_concat_of_closed hclosed]
        exact hfront
      · rw [pushed_concat_of_closed hclosed]
        exact hqueue
      · rw [pushed_concat_of_closed hclosed]
        exact hend
  | true =>
      have hopen := harriving.sending.symm.trans hsending
      have hpushed : pushed (past ++ [Label.push chunk]) = pushed past ++ [chunk] :=
        pushed_concat_of_open hopen
      have hnone : n = 0 := by
        by_contra hnone
        simp [(hend hnone).1] at hsending
      subst hnone
      cases hreceiving : state.stream.inTx.receiving with
      | false =>
          have hpush : state.stream.push chunk = state.stream := by
            rw [HwrP3Stream.push, if_pos hsending, Channel.send_eq_none.mpr hreceiving]
            rfl
          rw [hpush]
          refine ⟨⟨chunks, 0, hchunks, ?_, fun hlive => ?_, fun hnone => (hnone rfl).elim⟩,
            by rw [hall]; exact harriving.sending, harriving.awaits⟩
          · rw [hpushed]
            exact hfront.trans (List.prefix_append _ _)
          · simp [hreceiving] at hlive
      | true =>
          have hpush : state.stream.push chunk = { state.stream with
              inTx := { state.stream.inTx with queue := state.stream.inTx.queue ++ [chunk] } } := by
            rw [HwrP3Stream.push, if_pos hsending, Channel.send_eq_some.mpr ⟨hreceiving, rfl⟩]
            rfl
          rw [hpush]
          refine ⟨⟨chunks, 0, hchunks, ?_, fun _ => ?_, fun hnone => (hnone rfl).elim⟩,
            by rw [hall]; exact harriving.sending, fun _ => hreceiving⟩
          · rw [hpushed]
            exact hfront.trans (List.prefix_append _ _)
          · rw [hpushed, ← List.append_assoc, hqueue hreceiving]

theorem arriving_pushEnd (harriving : Arriving past state) :
    Arriving (past ++ [.pushEnd]) { state with stream := state.stream.pushEnd } := by
  obtain ⟨chunks, n, hchunks, hfront, hqueue, hend⟩ := harriving.received
  have hpushed : pushed (past ++ [.pushEnd]) = pushed past := by
    cases hall : past.all Label.isOpen with
    | true => simp [pushed_concat_of_open hall, Label.pushed]
    | false => exact pushed_concat_of_closed hall
  refine ⟨⟨chunks, n, hchunks, by rw [hpushed]; exact hfront, by rw [hpushed]; exact hqueue,
    fun hnone => ⟨rfl, by rw [hpushed]; exact (hend hnone).2⟩⟩, ?_, harriving.awaits⟩
  rw [List.all_append]
  simp [HwrP3Stream.pushEnd, Label.isOpen]

/-- A poll leaves the inbound stream as it is. -/
theorem inTx_poll (hstep : state.poll = some next) : next.stream.inTx = state.stream.inTx := by
  obtain ⟨⟨status, stream⟩, hpoll, rfl⟩ := Option.map_eq_some_iff.mp hstep
  unfold HwrP3Stream.poll at hpoll
  split at hpoll
  · obtain ⟨-, rfl⟩ := Prod.mk.inj (Option.some.inj hpoll)
    rfl
  · split at hpoll <;> first
      | (obtain ⟨-, rfl⟩ := Prod.mk.inj (Option.some.inj hpoll); rfl)
      | cases hpoll

theorem arriving_step (harriving : Arriving past state) (hstep : state.step label = some next) :
    Arriving (past ++ [label]) next := by
  cases label with
  | chunk bytes =>
      obtain ⟨-, rfl⟩ := whileRunning_eq_some.mp hstep
      exact harriving.keep rfl rfl rfl (.inl rfl) harriving.awaits
  | endOut =>
      obtain ⟨-, rfl⟩ := whileRunning_eq_some.mp hstep
      exact harriving.keep rfl rfl rfl (.inl rfl) harriving.awaits
  | await =>
      simp only [P3sRun.step, P3sRun.await, Option.ite_none_right_eq_some, whileRunning_eq_some]
        at hstep
      obtain ⟨hreceiving, -, rfl⟩ := hstep
      exact harriving.keep rfl rfl rfl (.inl rfl) fun _ => hreceiving
  | wake => exact arriving_wake harriving hstep
  | dropInbound =>
      simp only [P3sRun.step, P3sRun.dropInbound, Option.ite_none_left_eq_some,
        whileRunning_eq_some] at hstep
      obtain ⟨hidle, -, rfl⟩ := hstep
      exact harriving.keep rfl rfl rfl (.inr rfl) fun hwaiting => (hidle hwaiting).elim
  | finish result =>
      obtain ⟨-, rfl⟩ := whileRunning_eq_some.mp hstep
      exact harriving.keep rfl rfl rfl (.inr rfl) fun hwaiting => by cases hwaiting
  | vanish =>
      obtain ⟨-, rfl⟩ := whileRunning_eq_some.mp hstep
      exact harriving.keep rfl rfl rfl (.inr rfl) fun hwaiting => by cases hwaiting
  | poll =>
      have hinTx : next.stream.inTx = state.stream.inTx := inTx_poll hstep
      obtain ⟨polled, -, rfl⟩ := Option.map_eq_some_iff.mp hstep
      exact harriving.keep rfl rfl rfl (.inl hinTx) fun hwaiting => hinTx ▸ harriving.awaits hwaiting
  | push chunk =>
      obtain rfl := Option.some.inj hstep
      exact arriving_push harriving
  | pushEnd =>
      obtain rfl := Option.some.inj hstep
      exact arriving_pushEnd harriving

theorem arriving_run (hrun : run P3sRun.step {} labels = some final) : Arriving labels final :=
  run_history (fun _ _ _ _ => arriving_step) arriving_start hrun

/-- Whatever the interleaving, both directions of a stream deliver what was put in, once
and in order, and end only behind it. -/
theorem delivered_of_run (labels : List Label) (final : P3sRun)
    (hrun : run P3sRun.step {} labels = some final) : Delivered labels final := by
  obtain ⟨hflowing, houtbound⟩ := surfacedBy_append_queuedOut flowing_start hrun
  have hempty : queuedOut {} = [] := rfl
  rw [hempty, List.nil_append] at houtbound
  have harriving := arriving_run hrun
  refine ⟨⟨queuedOut final, houtbound⟩, fun hover => ?_, ?_⟩
  · rw [queuedOut, hflowing.drained hover] at houtbound
    rwa [List.filterMap_nil, List.append_nil] at houtbound
  · obtain ⟨chunks, n, hchunks, hfront, -, hend⟩ := harriving.received
    refine ⟨chunks, n, hchunks, hfront, fun hnone => ?_⟩
    obtain ⟨hsending, hall⟩ := hend hnone
    rw [harriving.sending, List.all_eq_false] at hsending
    obtain ⟨label, hmem, hclosed⟩ := hsending
    refine ⟨?_, hall⟩
    cases label with
    | pushEnd => exact hmem
    | _ => exact (hclosed rfl).elim

/-- Two chunks each way, with the inbound stream ended before the driver reads the second. -/
theorem delivered_of_run_example :
    let labels : List Label := [.chunk [0x61], .push [0x31], .await, .chunk [], .poll, .wake,
      .push [0x32], .pushEnd, .push [0x33], .endOut, .await, .wake, .await, .poll, .wake, .poll,
      .finish (.ok []), .poll]
    ∃ final, run P3sRun.step {} labels = some final ∧
      final.received = [some [0x31], some [0x32], none] ∧
      surfacedBy {} labels = [some [0x61], some [], none] ∧ Delivered labels final :=
  ⟨_, rfl, rfl, rfl, delivered_of_run _ _ rfl⟩

end HellohqRuntime.Bridge.Delivery

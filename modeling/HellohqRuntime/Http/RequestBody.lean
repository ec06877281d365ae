import HellohqRuntime.Foundation.Channels
import HellohqRuntime.Http.OutLog

/-!
# The request body on its way out

The runtime hands each write of the guest to a consumer, which forwards it through
a channel to the drain loop of the call.  The two run concurrently: a run is any
interleaving of the consumer's polls with the turns of the loop.
-/

namespace HellohqRuntime.Http.RequestBody

open HellohqRuntime.Foundation.Channels
open HellohqRuntime.Foundation.Runs
open HellohqRuntime.Foundation.Strings
open HellohqRuntime.Http.Frames
open HellohqRuntime.Http.Handle
open HellohqRuntime.Http.OutLog
open HellohqRuntime.Http.Resources

inductive StreamResult where
  | completed | dropped | cancelled
  deriving DecidableEq, Repr

/-- One poll of the `RequestBodyConsumer`, whose channel is `tx`. -/
def pollConsume (tx : Channel Bytes) (available : Bytes) (finish : Bool) :
    StreamResult × Channel Bytes :=
  if finish then (.cancelled, tx)
  else if available.isEmpty then (.dropped, tx)
  else (.completed, (tx.send available).getD tx)

structure BodyPipe where
  /-- Writes of the guest that the consumer has not been polled for. -/
  writes : List Bytes
  /-- From the consumer, which is its only sender, to the drain loop. -/
  body : Channel Bytes := {}
  host : WasiHttpHost
  /-- The drain loop is over. -/
  drained : Bool := false

inductive Label where
  /-- The runtime polls the consumer for the next write. -/
  | consume
  /-- All writes are through and the guest closes the stream. -/
  | close
  /-- One turn of the drain loop. -/
  | receive
  deriving DecidableEq, Repr

namespace BodyPipe

def start (host : WasiHttpHost) (writes : List Bytes) : BodyPipe := { writes, host }

def consume (pipe : BodyPipe) : Option BodyPipe :=
  match pipe.body.sending, pipe.writes with
  | true, available :: rest =>
      match pollConsume pipe.body available false with
      | (.completed, body) => some { pipe with writes := rest, body }
      -- The runtime drops the consumer, and no later write reaches it.
      | (_, body) => some { pipe with writes := rest, body := body.dropSender }
  | _, _ => none

def close (pipe : BodyPipe) : Option BodyPipe :=
  match pipe.body.sending, pipe.writes with
  | true, [] => some { pipe with body := pipe.body.dropSender }
  | _, _ => none

def receive (pipe : BodyPipe) : Option BodyPipe :=
  if pipe.drained then none
  else
    match pipe.body.receive with
    | .value chunk body => some { pipe with body, host := emitBody pipe.host chunk }
    | .pending => none
    | .disconnected => some { pipe with drained := true }

def step (pipe : BodyPipe) : Label → Option BodyPipe
  | .consume => pipe.consume
  | .close => pipe.close
  | .receive => pipe.receive

end BodyPipe

/-- The payloads of the BODY frames among some events. -/
def bodyPayloads (events : List OutEvent) : List Bytes :=
  events.filterMap fun
    | .out frame =>
        match decode frame with
        | some (.body, payload) => some payload
        | _ => none
    | .outEnd => none

/-- The payloads of the BODY frames sent between two states of a host. -/
def emitted (before after : WasiHttpHost) : List Bytes :=
  bodyPayloads ((sentBy after).drop (sentBy before).length)

/-- Every byte comes through in order, and no frame is empty. -/
def Lossless (writes payloads : List Bytes) : Prop :=
  payloads.flatten = writes.flatten ∧ ∀ payload ∈ payloads, payload ≠ []

def isWritten (write : Bytes) : Bool := !write.isEmpty

/-- Behind an empty write there are only empty ones. -/
def EmptyWritesLast (writes : List Bytes) : Prop := ∀ write ∈ writes.dropWhile isWritten, write = []

instance (writes : List Bytes) : Decidable (EmptyWritesLast writes) :=
  inferInstanceAs (Decidable (∀ write ∈ writes.dropWhile isWritten, write = []))

/-! ## What the pipe carries -/

variable {writes : List Bytes} {transport : HttpTransport} {host : WasiHttpHost}
variable {pipe next final : BodyPipe} {label : Label}

/-- What the consumer will still send. -/
def awaited (pipe : BodyPipe) : List Bytes :=
  if pipe.body.sending then pipe.writes.takeWhile isWritten else []

/-- The writes up to the first empty one are sent, queued or awaited. -/
structure Carries (transport : HttpTransport) (writes : List Bytes) (pipe : BodyPipe) : Prop where
  flow : ∃ payloads, payloads ++ pipe.body.queue ++ awaited pipe = writes.takeWhile isWritten ∧
    pipe.host.transport = some { transport with
      out := transport.out ++ payloads.map fun payload => .out (encode .body payload) }
  receiving : pipe.body.receiving = true
  drained : pipe.drained = true → pipe.body.queue = [] ∧ pipe.body.sending = false

theorem carries_start (htransport : host.transport = some transport) :
    Carries transport writes (BodyPipe.start host writes) where
  flow := ⟨[], rfl, by simp [BodyPipe.start, htransport]⟩
  receiving := rfl
  drained hdrained := by cases hdrained

/-- A poll forwards a write, or ends the stream at an empty one. -/
theorem consume_eq {available : Bytes} {rest : List Bytes} (hsending : pipe.body.sending = true)
    (hwrites : pipe.writes = available :: rest) :
    pipe.consume = some { pipe with
      writes := rest
      body := if available.isEmpty then pipe.body.dropSender
        else (pipe.body.send available).getD pipe.body } := by
  simp only [BodyPipe.consume, hsending, hwrites, pollConsume]
  cases available.isEmpty <;> rfl

theorem carries_consume (hcarries : Carries transport writes pipe)
    (hstep : pipe.consume = some next) : Carries transport writes next := by
  obtain ⟨⟨payloads, hflow, hhost⟩, hreceiving, hdrained⟩ := hcarries
  cases hsending : pipe.body.sending with
  | false => simp [BodyPipe.consume, hsending] at hstep
  | true =>
      cases hwrites : pipe.writes with
      | nil => simp [BodyPipe.consume, hsending, hwrites] at hstep
      | cons available rest =>
          have hlive : ¬pipe.drained = true := fun hover => by
            simp [(hdrained hover).2] at hsending
          rw [consume_eq hsending hwrites] at hstep
          obtain rfl := Option.some.inj hstep
          simp only [awaited, hsending, hwrites, if_true] at hflow
          refine ⟨⟨payloads, ?_, hhost⟩, ?_, fun hover => absurd hover hlive⟩
          · cases hempty : available.isEmpty with
            | true => simpa [awaited, isWritten, hempty] using hflow
            | false => simpa [awaited, isWritten, hempty, hsending, Channel.send, hreceiving] using hflow
          · cases hempty : available.isEmpty with
            | true => simpa [hempty] using hreceiving
            | false => simp [Channel.send, hreceiving]

theorem carries_close (hcarries : Carries transport writes pipe)
    (hstep : pipe.close = some next) : Carries transport writes next := by
  obtain ⟨⟨payloads, hflow, hhost⟩, hreceiving, hdrained⟩ := hcarries
  unfold BodyPipe.close at hstep
  split at hstep
  · next hsending hwrites =>
      obtain rfl := Option.some.inj hstep
      refine ⟨⟨payloads, ?_, hhost⟩, hreceiving, fun hover => ⟨(hdrained hover).1, rfl⟩⟩
      simpa [awaited, hsending, hwrites] using hflow
  · cases hstep

theorem carries_receive (hcarries : Carries transport writes pipe)
    (hstep : pipe.receive = some next) : Carries transport writes next := by
  obtain ⟨⟨payloads, hflow, hhost⟩, hreceiving, hdrained⟩ := hcarries
  simp only [BodyPipe.receive, Option.ite_none_left_eq_some] at hstep
  obtain ⟨hlive, hstep⟩ := hstep
  cases hreceive : pipe.body.receive with
  | pending => simp [hreceive] at hstep
  | disconnected =>
      simp only [hreceive, Option.some.injEq] at hstep
      obtain rfl := hstep
      exact ⟨⟨payloads, hflow, hhost⟩, hreceiving,
        fun _ => Channel.receive_eq_disconnected.mp hreceive⟩
  | value chunk body =>
      simp only [hreceive, Option.some.injEq] at hstep
      obtain rfl := hstep
      obtain ⟨rest, hqueue, rfl⟩ := Channel.receive_eq_value.mp hreceive
      have hmem : chunk ∈ writes.takeWhile isWritten := by
        rw [← hflow, hqueue]
        simp
      have hwritten : chunk.isEmpty = false := by
        simpa [isWritten] using List.mem_takeWhile_imp hmem
      refine ⟨⟨payloads ++ [chunk], ?_, ?_⟩, hreceiving, fun hover => (hlive hover).elim⟩
      · simpa [hqueue, awaited] using hflow
      · rw [emitBody_transport hhost, hwritten]
        simp [sendEvent]

theorem carries_step (hcarries : Carries transport writes pipe)
    (hstep : pipe.step label = some next) : Carries transport writes next := by
  cases label with
  | consume => exact carries_consume hcarries hstep
  | close => exact carries_close hcarries hstep
  | receive => exact carries_receive hcarries hstep

theorem bodyPayloads_bodies (payloads : List Bytes) :
    bodyPayloads (payloads.map fun payload => .out (encode .body payload)) = payloads := by
  induction payloads with
  | nil => rfl
  | cons payload rest ih =>
      rw [List.map_cons, bodyPayloads, List.filterMap_cons_some]
      · exact congrArg _ ih
      · simp

/-- A drain loop that is over has sent the writes up to the first empty one. -/
theorem emitted_of_drained (htransport : host.transport = some transport)
    (hcarries : Carries transport writes pipe) (hover : pipe.drained = true) :
    emitted host pipe.host = writes.takeWhile isWritten := by
  obtain ⟨⟨payloads, hflow, hhost⟩, -, hdrained⟩ := hcarries
  obtain ⟨hqueue, hsending⟩ := hdrained hover
  have hall : payloads = writes.takeWhile isWritten := by
    simpa [hqueue, awaited, hsending] using hflow
  rw [emitted, sentBy_eq htransport, sentBy_eq hhost, List.drop_left, bodyPayloads_bodies, hall]

/-- The writes up to the first empty one are all of the body exactly where the
others are empty. -/
theorem lossless_takeWhile_iff :
    Lossless writes (writes.takeWhile isWritten) ↔ EmptyWritesLast writes := by
  have hsplit : writes.flatten =
      (writes.takeWhile isWritten).flatten ++ (writes.dropWhile isWritten).flatten := by
    rw [← List.flatten_append, List.takeWhile_append_dropWhile]
  rw [Lossless, hsplit, List.self_eq_append_right, List.flatten_eq_nil_iff, EmptyWritesLast]
  refine and_iff_left fun payload hpayload => ?_
  simpa [isWritten] using List.mem_takeWhile_imp hpayload

/-! ## The drain loop ends -/

/-- An upper bound on the steps ahead. -/
def stepsAhead (pipe : BodyPipe) : Nat :=
  (if pipe.body.sending then 2 * pipe.writes.length + 1 else 0) + pipe.body.queue.length +
    if pipe.drained then 0 else 1

/-- Until the loop is over some step is enabled, and it brings the end nearer. -/
theorem progress (hlive : ¬pipe.drained = true) :
    ∃ label next, pipe.step label = some next ∧ stepsAhead next < stepsAhead pipe := by
  simp only [Bool.not_eq_true] at hlive
  cases hqueue : pipe.body.queue with
  | cons chunk rest =>
      refine ⟨.receive, { pipe with
        body := { pipe.body with queue := rest }, host := emitBody pipe.host chunk }, ?_, ?_⟩
      · simp [BodyPipe.step, BodyPipe.receive, hlive, Channel.receive, hqueue]
      · simp [stepsAhead, hqueue]
  | nil =>
      cases hsending : pipe.body.sending with
      | false =>
          refine ⟨.receive, { pipe with drained := true }, ?_, ?_⟩
          · simp [BodyPipe.step, BodyPipe.receive, hlive, Channel.receive, hqueue, hsending]
          · simp [stepsAhead, hsending, hlive]
      | true =>
          cases hwrites : pipe.writes with
          | nil =>
              refine ⟨.close, { pipe with body := pipe.body.dropSender }, ?_, ?_⟩
              · simp [BodyPipe.step, BodyPipe.close, hsending, hwrites]
              · simp [stepsAhead, hsending]
          | cons available rest =>
              refine ⟨.consume, _, consume_eq hsending hwrites, ?_⟩
              cases available.isEmpty with
              | true => simp [stepsAhead, hsending]
              | false =>
                  have hqueued : (((pipe.body.send available).getD pipe.body).queue.length ≤
                      pipe.body.queue.length + 1) := by
                    unfold Channel.send
                    split <;> simp
                  have hstill : ((pipe.body.send available).getD pipe.body).sending = true := by
                    unfold Channel.send
                    split <;> exact hsending
                  simp only [stepsAhead, hstill, hsending, hwrites, List.length_cons, if_true,
                    Bool.false_eq_true, if_false]
                  omega

/-- Whatever the interleaving, the drain loop can come to its end, and where it
does the body came through exactly if empty writes stand last. -/
theorem lossless_iff_emptyWritesLast (htransport : host.transport = some transport)
    (writes : List Bytes) :
    (∃ labels final, run BodyPipe.step (BodyPipe.start host writes) labels = some final ∧
      final.drained = true) ∧
    ∀ labels final, run BodyPipe.step (BodyPipe.start host writes) labels = some final →
      final.drained = true →
        (Lossless writes (emitted host final.host) ↔ EmptyWritesLast writes) := by
  refine ⟨exists_run_of_measure stepsAhead (fun _ => progress) _, fun labels final hrun hover => ?_⟩
  have hcarries : Carries transport writes final :=
    run_preserves (fun _ _ _ => carries_step) (carries_start htransport) hrun
  rw [emitted_of_drained htransport hcarries hover, lossless_takeWhile_iff]

/-- Two writes and a last empty one come through. -/
theorem lossless_iff_emptyWritesLast_example :
    ∃ labels final,
      run BodyPipe.step (BodyPipe.start .withTransport [[0x61, 0x62], [0x63], []]) labels =
        some final ∧
      Lossless [[0x61, 0x62], [0x63], []] (emitted .withTransport final.host) := by
  obtain ⟨⟨labels, final, hrun, hover⟩, hall⟩ := @lossless_iff_emptyWritesLast {} .withTransport rfl
    [[0x61, 0x62], [0x63], []]
  exact ⟨labels, final, hrun, (hall labels final hrun hover).mpr (by decide)⟩

/-- An empty write in the middle ends the body: the write behind it is lost. -/
theorem not_lossless_after_empty_write :
    ∃ final,
      run BodyPipe.step (BodyPipe.start .withTransport [[0x61], [], [0x62]])
        [.consume, .receive, .consume, .receive] = some final ∧
      final.drained = true ∧ emitted .withTransport final.host = [[0x61]] ∧
      ¬Lossless [[0x61], [], [0x62]] (emitted .withTransport final.host) := by
  have hemitted : (run BodyPipe.step (BodyPipe.start .withTransport [[0x61], [], [0x62]])
      [.consume, .receive, .consume, .receive]).map
        (fun final => (final.drained, emitted .withTransport final.host)) =
      some (true, [[0x61]]) := by
    decide
  obtain ⟨final, hfinal, hresult⟩ := Option.map_eq_some_iff.mp hemitted
  obtain ⟨hover, hone⟩ := Prod.mk.inj hresult
  refine ⟨final, hfinal, hover, hone, fun hlossless => ?_⟩
  rw [hone] at hlossless
  exact absurd hlossless.1 (by decide)

end HellohqRuntime.Http.RequestBody

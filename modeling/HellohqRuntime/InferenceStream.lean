import HellohqRuntime.Bridge.Delivery
import HellohqRuntime.InferenceFraming

/-!
# Inference over the streaming bridge

The worker runs a guest that calls `complete` and reads its token stream; the caller
polls for the head and pushes token deltas.  Each step of the guest is what the host
makes of it on the bridge.  The main result is what the two ends see of each other.
-/

namespace HellohqRuntime.InferenceStream

open HellohqRuntime.Foundation.Channels
open HellohqRuntime.Foundation.Runs
open HellohqRuntime.Foundation.Strings
open HellohqRuntime.Foundation.Utf8
open HellohqRuntime.Http.Resources
open HellohqRuntime.Bridge.Reporting
open HellohqRuntime.Bridge.Delivery
open HellohqRuntime.Bridge.Stream (P3sRun)
open HellohqRuntime.Inference
open HellohqRuntime.InferenceFraming

variable {Temperature : Type} [ToString Temperature]

/-! ## The session -/

/-- The host and the stream of the guest on one side of the bridge.  The last four
fields are records: the tokens read, whether their end was, the streams that were
minted, and what the polls surfaced. -/
structure StreamedSession where
  host : InferenceHost := .withTransport
  producer : Option TokenProducer := none
  bridge : P3sRun := {}
  tokens : List Text := []
  closed : Bool := false
  minted : Nat := 0
  seen : List (Option Bytes) := []

inductive Label (Temperature : Type) where
  | complete (messages : List ChatMessage) (opts : InferenceOpts Temperature) (fault : Option Text)
  /-- The runtime polls the producer, and a frame or the end of them is there. -/
  | pollProduce
  /-- The guest drops its token stream. -/
  | dropStream
  | finish (result : Except Text Bytes)
  | vanish
  | poll
  | push (frame : Bytes)
  | pushEnd

namespace StreamedSession

/-- The call drops the receiver it has taken: the stream could not be minted. -/
def dropsReceiver (session : StreamedSession) (fault : Option Text) : Bool :=
  match session.host.transport with
  | some { inbound := some _, .. } => fault.isSome
  | _ => false

/-- What a step of the session does on the bridge. -/
def onBridge (session : StreamedSession) : Label Temperature → List Bridge.Stream.Label
  | .complete messages opts fault =>
      match session.host.transport with
      | none => []
      | some _ => [.chunk (headFrame messages opts), .endOut] ++
          (if session.dropsReceiver fault then [.dropInbound] else [])
  | .pollProduce => [.await, .wake] ++
      (if session.bridge.stream.inTx.queue.isEmpty then [.dropInbound] else [])
  | .dropStream => [.dropInbound]
  | .finish result => [.finish result]
  | .vanish => [.vanish]
  | .poll => [.poll]
  | .push frame => [.push frame]
  | .pushEnd => [.pushEnd]

/-- The session when the bridge has done its part. -/
def after (session : StreamedSession) (bridge : P3sRun) : Label Temperature → StreamedSession
  | .complete messages opts fault =>
      let completed := Inference.complete session.host messages opts fault
      match completed.1 with
      | .ok producer => { session with
          bridge
          host := completed.2
          producer := some producer
          minted := session.minted + 1 }
      | .error _ => { session with bridge, host := completed.2 }
  | .pollProduce =>
      match bridge.received.getLast?.bind id with
      | some frame => { session with bridge, tokens := session.tokens ++ [fromUtf8Lossy frame] }
      | none => { session with bridge, producer := none, closed := true }
  | .dropStream => { session with bridge, producer := none }
  | .poll => { session with bridge, seen := session.seen ++ (surfaced bridge).toList }
  | _ => { session with bridge }

/-- The guest has the stream that the label needs. -/
def enabled (session : StreamedSession) : Label Temperature → Bool
  | .pollProduce => session.producer.isSome
  | .dropStream => session.producer.isSome
  | _ => true

def step (session : StreamedSession) (label : Label Temperature) : Option StreamedSession :=
  if session.enabled label then
    (run P3sRun.step session.bridge (session.onBridge label)).map fun bridge =>
      session.after bridge label
  else none

end StreamedSession

/-! ## What the two ends have to see -/

/-- The head frame of a call. -/
def headOf : Label Temperature → Option Bytes
  | .complete messages opts _ => some (headFrame messages opts)
  | _ => none

/-- What the caller is to be shown of a run: the head of each call, and its end. -/
def shown (labels : List (Label Temperature)) : List (Option Bytes) :=
  (labels.filterMap headOf).flatMap fun head => [some head, none]

def Label.byCaller : Label Temperature → Option Bridge.Stream.Label
  | .push frame => some (.push frame)
  | .pushEnd => some .pushEnd
  | _ => none

/-- The frames pushed before the end of the inbound stream. -/
def pushedFrames (labels : List (Label Temperature)) : List Bytes :=
  pushed (labels.filterMap Label.byCaller)

/-- What a run shows of each end to the other. -/
structure Relayed (labels : List (Label Temperature)) (final : StreamedSession) : Prop where
  /-- The polls show the heads in order, and all of them once the end is known. -/
  heads : final.seen <+: shown labels
  complete : final.bridge.stream.finished = true → final.seen = shown labels
  /-- The tokens are the frames pushed, from the first one on. -/
  tokens : ∃ frames, final.tokens = frames.map fromUtf8Lossy ∧ frames <+: pushedFrames labels
  /-- The guest reads the end behind all of them, and only after the caller's. -/
  closed : final.closed = true →
    .pushEnd ∈ labels ∧ final.tokens = (pushedFrames labels).map fromUtf8Lossy
  minted : final.minted ≤ 1

/-! ## Steps of the bridge -/

variable {bridge next : P3sRun} {labels : List Bridge.Stream.Label}

/-- The driver is woken by `wake` alone. -/
theorem received_step {label : Bridge.Stream.Label} (hlabel : label ≠ .wake)
    (hstep : bridge.step label = some next) : next.received = bridge.received := by
  cases label with
  | chunk bytes =>
      obtain ⟨-, rfl⟩ := whileRunning_eq_some.mp hstep
      rfl
  | endOut =>
      obtain ⟨-, rfl⟩ := whileRunning_eq_some.mp hstep
      rfl
  | await =>
      simp only [P3sRun.step, P3sRun.await, Option.ite_none_right_eq_some, whileRunning_eq_some]
        at hstep
      obtain ⟨-, -, rfl⟩ := hstep
      rfl
  | wake => exact absurd rfl hlabel
  | dropInbound =>
      simp only [P3sRun.step, P3sRun.dropInbound, Option.ite_none_left_eq_some,
        whileRunning_eq_some] at hstep
      obtain ⟨-, -, rfl⟩ := hstep
      rfl
  | finish result =>
      obtain ⟨-, rfl⟩ := whileRunning_eq_some.mp hstep
      rfl
  | vanish =>
      obtain ⟨-, rfl⟩ := whileRunning_eq_some.mp hstep
      rfl
  | poll =>
      obtain ⟨-, -, rfl⟩ := Option.map_eq_some_iff.mp hstep
      rfl
  | push chunk => exact Option.some.inj hstep ▸ rfl
  | pushEnd => exact Option.some.inj hstep ▸ rfl

theorem received_run (hlabels : ∀ label ∈ labels, label ≠ .wake)
    (hrun : run P3sRun.step bridge labels = some next) : next.received = bridge.received := by
  induction labels generalizing bridge with
  | nil =>
      obtain rfl : bridge = next := by simpa using hrun
      rfl
  | cons label rest ih =>
      rw [List.forall_mem_cons] at hlabels
      obtain ⟨middle, hmiddle, hrest⟩ := run_cons_eq_some.mp hrun
      exact (ih hlabels.2 hrest).trans (received_step hlabels.1 hmiddle)

/-- An await that is answered gives the driver the front of the queue. -/
theorem received_pollProduce (hlabels : ∀ label ∈ labels, label ≠ .wake)
    (hrun : run P3sRun.step bridge ([.await, .wake] ++ labels) = some next) :
    next.received = bridge.received ++ [bridge.stream.inTx.queue.head?] := by
  obtain ⟨middle, hmiddle, hrest⟩ := run_append_eq_some.mp hrun
  obtain ⟨awaiting, hawait, hwake⟩ := run_cons_eq_some.mp hmiddle
  obtain ⟨-, -, rfl⟩ := Bridge.Stream.wake_eq_some.mp (run_singleton_eq_some.mp hwake)
  simp only [P3sRun.step, P3sRun.await, Option.ite_none_right_eq_some, whileRunning_eq_some]
    at hawait
  obtain ⟨-, -, rfl⟩ := hawait
  exact received_run hlabels hrest

/-! ## Steps of the session -/

variable {session after final : StreamedSession} {label : Label Temperature}
variable {past : List (Label Temperature)}

/-- The session and the bridge tell the same of what happened. -/
structure Bridged (past : List (Label Temperature)) (session : StreamedSession) : Prop where
  bridge : ∃ labels, run P3sRun.step {} labels = some session.bridge ∧
    surfacedBy {} labels = session.seen ∧ emitted labels = shown past ∧
    labels.filter Label.isCaller = past.filterMap Label.byCaller
  tokens : session.tokens = (session.bridge.received.filterMap id).map fromUtf8Lossy
  closed : session.closed = true → none ∈ session.bridge.received
  minted : ∃ transport, session.host.transport = some transport ∧ session.minted ≤ 1 ∧
    (transport.inbound.isSome = true → session.minted = 0)

theorem bridged_start : Bridged ([] : List (Label Temperature)) {} where
  bridge := ⟨[], rfl, rfl, rfl, rfl⟩
  tokens := rfl
  closed := nofun
  minted := ⟨{}, rfl, Nat.zero_le _, fun _ => rfl⟩

/-- What a label that is no poll does on the bridge, added to what was done. -/
theorem Bridged.extend (hbridged : Bridged past session)
    (hrun : run P3sRun.step session.bridge (session.onBridge label) = some next)
    (hpoll : ∀ action ∈ session.onBridge label, action ≠ .poll)
    (hemitted : emitted (session.onBridge label) = shown [label])
    (hcaller : (session.onBridge label).filter Label.isCaller = [label].filterMap Label.byCaller) :
    ∃ labels, run P3sRun.step {} labels = some next ∧ surfacedBy {} labels = session.seen ∧
      emitted labels = shown (past ++ [label]) ∧
      labels.filter Label.isCaller = (past ++ [label]).filterMap Label.byCaller := by
  obtain ⟨labels, hlabels, hseen, hshown, hfilter⟩ := hbridged.bridge
  refine ⟨labels ++ session.onBridge label, run_append_eq_some.mpr ⟨_, hlabels, hrun⟩, ?_, ?_, ?_⟩
  · rw [surfacedBy_append hlabels, hseen, surfacedBy_of_unpolled hpoll, List.append_nil]
  · rw [emitted, List.filterMap_append, ← emitted, ← emitted, hshown, hemitted]
    simp [shown]
  · rw [List.filter_append, hfilter, hcaller, List.filterMap_append]

/-- A label that neither polls nor wakes leaves the tokens as they are. -/
theorem Bridged.carry {producer : Option TokenProducer} (hbridged : Bridged past session)
    (hrun : run P3sRun.step session.bridge (session.onBridge label) = some next)
    (hquiet : ∀ action ∈ session.onBridge label, action ≠ .poll ∧ action ≠ .wake)
    (hemitted : emitted (session.onBridge label) = shown [label])
    (hcaller : (session.onBridge label).filter Label.isCaller = [label].filterMap Label.byCaller) :
    Bridged (past ++ [label]) { session with bridge := next, producer } := by
  have hkept := received_run (fun action haction => (hquiet action haction).2) hrun
  exact ⟨hbridged.extend hrun (fun action haction => (hquiet action haction).1) hemitted hcaller,
    hkept ▸ hbridged.tokens, hkept ▸ hbridged.closed, hbridged.minted⟩

/-- A stream is minted of the receiver that was there. -/
theorem inbound_of_complete {host : InferenceHost} {transport : InferenceTransport}
    {messages : List ChatMessage} {opts : InferenceOpts Temperature} {fault : Option Text}
    {producer : TokenProducer} (htransport : host.transport = some transport)
    (hcomplete : (Inference.complete host messages opts fault).1 = .ok producer) :
    transport.inbound.isSome = true := by
  simp only [Inference.complete, htransport] at hcomplete
  cases hinbound : transport.inbound with
  | none => simp [hinbound] at hcomplete
  | some inbound => rfl

theorem bridged_complete {messages : List ChatMessage} {opts : InferenceOpts Temperature}
    {fault : Option Text} (hbridged : Bridged past session)
    (hrun : run P3sRun.step session.bridge (session.onBridge (.complete messages opts fault)) =
      some next) :
    Bridged (past ++ [.complete messages opts fault])
      (session.after next (.complete messages opts fault)) := by
  obtain ⟨transport, htransport, hone, hfresh⟩ := hbridged.minted
  have honBridge : session.onBridge (.complete messages opts fault) =
      [.chunk (headFrame messages opts), .endOut] ++
        (if session.dropsReceiver fault then [.dropInbound] else []) := by
    simp only [StreamedSession.onBridge, htransport]
  have hquiet : ∀ action ∈ session.onBridge (.complete messages opts fault),
      action ≠ .poll ∧ action ≠ .wake := by
    rw [honBridge]
    cases session.dropsReceiver fault <;> simp
  have hbridge := hbridged.extend hrun (fun action haction => (hquiet action haction).1)
    (by rw [honBridge]; cases session.dropsReceiver fault <;> rfl)
    (by rw [honBridge]; cases session.dropsReceiver fault <;> rfl)
  have hreceived := received_run (fun action haction => (hquiet action haction).2) hrun
  have hgone := Session.complete_transport htransport messages opts fault
  cases hcomplete : (Inference.complete session.host messages opts fault).1 with
  | ok producer =>
      have hafter : session.after next (.complete messages opts fault) = { session with
          bridge := next
          host := (Inference.complete session.host messages opts fault).2
          producer := some producer
          minted := session.minted + 1 } := by
        simp only [StreamedSession.after, hcomplete]
      have hzero := hfresh (inbound_of_complete htransport hcomplete)
      rw [hafter]
      exact ⟨hbridge, hreceived ▸ hbridged.tokens, hreceived ▸ hbridged.closed,
        ⟨_, hgone, by simp [hzero], nofun⟩⟩
  | error e =>
      have hafter : session.after next (.complete messages opts fault) = { session with
          bridge := next
          host := (Inference.complete session.host messages opts fault).2 } := by
        simp only [StreamedSession.after, hcomplete]
      rw [hafter]
      exact ⟨hbridge, hreceived ▸ hbridged.tokens, hreceived ▸ hbridged.closed, ⟨_, hgone, hone, nofun⟩⟩

/-- A poll of the producer reads the front of the queue, or the end behind it. -/
theorem bridged_pollProduce (hbridged : Bridged past session)
    (hrun : run P3sRun.step session.bridge
      (session.onBridge (.pollProduce : Label Temperature)) = some next) :
    Bridged (past ++ [.pollProduce]) (session.after next (.pollProduce : Label Temperature)) := by
  have hbridge := hbridged.extend hrun
    (by simp only [StreamedSession.onBridge]; split <;> simp)
    (by simp only [StreamedSession.onBridge]; split <;> rfl)
    (by simp only [StreamedSession.onBridge]; split <;> rfl)
  have hreceived := received_pollProduce (by split <;> simp) hrun
  have hlast : next.received.getLast?.bind id = session.bridge.stream.inTx.queue.head? := by
    rw [hreceived, List.getLast?_concat]
    rfl
  cases hfront : session.bridge.stream.inTx.queue.head? with
  | some frame =>
      have hafter : session.after next (.pollProduce : Label Temperature) = { session with
          bridge := next
          tokens := session.tokens ++ [fromUtf8Lossy frame] } := by
        simp only [StreamedSession.after, hlast, hfront]
      rw [hafter]
      refine ⟨hbridge, ?_, fun hover => ?_, hbridged.minted⟩
      · rw [hreceived, hfront, List.filterMap_append, List.map_append, hbridged.tokens]
        rfl
      · rw [hreceived]
        exact List.mem_append_left _ (hbridged.closed hover)
  | none =>
      have hafter : session.after next (.pollProduce : Label Temperature) = { session with
          bridge := next
          producer := none
          closed := true } := by
        simp only [StreamedSession.after, hlast, hfront]
      rw [hafter]
      refine ⟨hbridge, ?_, fun _ => ?_, hbridged.minted⟩
      · rw [hreceived, hfront, List.filterMap_append, hbridged.tokens]
        simp
      · rw [hreceived, hfront]
        exact List.mem_append_right _ (List.mem_singleton_self _)

theorem bridged_step (hbridged : Bridged past session) (hstep : session.step label = some after) :
    Bridged (past ++ [label]) after := by
  obtain ⟨-, hafter⟩ := by
    simpa only [StreamedSession.step, Option.ite_none_right_eq_some] using hstep
  obtain ⟨bridge, hrun, rfl⟩ := Option.map_eq_some_iff.mp hafter
  cases label with
  | complete messages opts fault => exact bridged_complete hbridged hrun
  | pollProduce => exact bridged_pollProduce hbridged hrun
  | poll =>
      have hpoll : run P3sRun.step session.bridge [.poll] = some bridge := hrun
      obtain ⟨labels, hlabels, hseen, hshown, hfilter⟩ := hbridged.bridge
      have hkept := received_run (by simp) hpoll
      refine ⟨⟨labels ++ [.poll], run_append_eq_some.mpr ⟨_, hlabels, hpoll⟩, ?_, ?_, ?_⟩,
        hkept ▸ hbridged.tokens, hkept ▸ hbridged.closed, hbridged.minted⟩
      · rw [surfacedBy_append hlabels, hseen, surfacedBy_cons (run_singleton_eq_some.mp hpoll)]
        exact congrArg (session.seen ++ ·) (List.append_nil _)
      · rw [emitted, List.filterMap_append, ← emitted, hshown, shown, shown, List.filterMap_append,
          List.flatMap_append]
        rfl
      · rw [List.filter_append, hfilter, List.filterMap_append]
        rfl
  | dropStream => exact hbridged.carry hrun (by simp [StreamedSession.onBridge]) rfl rfl
  | finish result => exact hbridged.carry hrun (by simp [StreamedSession.onBridge]) rfl rfl
  | vanish => exact hbridged.carry hrun (by simp [StreamedSession.onBridge]) rfl rfl
  | push frame => exact hbridged.carry hrun (by simp [StreamedSession.onBridge]) rfl rfl
  | pushEnd => exact hbridged.carry hrun (by simp [StreamedSession.onBridge]) rfl rfl

/-! ## Whole sessions -/

omit [ToString Temperature] in
/-- Only the end of the pushes closes the inbound stream. -/
theorem pushEnd_mem (hclosed : labels.all Label.isOpen = false)
    (hcaller : labels.filter Label.isCaller = past.filterMap Label.byCaller) :
    .pushEnd ∈ past := by
  rw [List.all_eq_false] at hclosed
  obtain ⟨action, hmem, hover⟩ := hclosed
  have hend : action = .pushEnd := by
    cases action with
    | pushEnd => rfl
    | _ => exact absurd rfl hover
  subst hend
  have hfilter : Bridge.Stream.Label.pushEnd ∈ past.filterMap Label.byCaller :=
    hcaller ▸ List.mem_filter.mpr ⟨hmem, rfl⟩
  obtain ⟨label, hlabel, hby⟩ := List.mem_filterMap.mp hfilter
  cases label with
  | pushEnd => exact hlabel
  | push frame => cases Option.some.inj hby
  | _ => cases hby

/-- In every run of an inference session the app is shown the head of each call in order,
the guest reads the pushed frames as tokens in order, and its end only behind all of
them; and at most one call ever gets a token stream. -/
theorem relayed_of_run (labels : List (Label Temperature)) (final : StreamedSession)
    (hrun : run StreamedSession.step {} labels = some final) : Relayed labels final := by
  have hbridged : Bridged labels final :=
    run_history (fun _ _ _ _ => bridged_step) bridged_start hrun
  obtain ⟨actions, hactions, hseen, hshown, hcaller⟩ := hbridged.bridge
  obtain ⟨hflowing, hflow⟩ := surfacedBy_append_queuedOut flowing_start hactions
  have hempty : queuedOut {} = [] := rfl
  rw [hempty, List.nil_append, hseen, hshown] at hflow
  have harriving := arriving_run hactions
  obtain ⟨chunks, n, hreceived, hfront, -, hend⟩ := harriving.received
  have hpushed : pushed actions = pushedFrames labels := by
    rw [← pushed_filter, hcaller, pushedFrames]
  have htokens : final.tokens = chunks.map fromUtf8Lossy := by
    rw [hbridged.tokens, hreceived, List.filterMap_append, List.filterMap_map]
    simp
  refine ⟨⟨_, hflow⟩, fun hfinished => ?_, ⟨chunks, htokens, hpushed ▸ hfront⟩, fun hover => ?_, ?_⟩
  · rw [queuedOut, hflowing.drained hfinished, List.filterMap_nil, List.append_nil] at hflow
    exact hflow
  · have hnone : n ≠ 0 := by
      rintro rfl
      have hmem := hbridged.closed hover
      rw [hreceived] at hmem
      simp at hmem
    obtain ⟨hclosed, hall⟩ := hend hnone
    rw [harriving.sending] at hclosed
    exact ⟨pushEnd_mem hclosed hcaller, by rw [htokens, hall, hpushed]⟩
  · obtain ⟨-, -, hone, -⟩ := hbridged.minted
    exact hone

/-- A call, two deltas, one of them not UTF-8, the end, and a second call that fails. -/
theorem relayed_of_run_example :
    let messages : List ChatMessage := [⟨"user".toList, "hi".toList⟩]
    let labels : List (Label Nat) := [.complete messages exampleOpts none, .push [0x61], .poll,
      .pollProduce, .push [0xFF], .pushEnd, .push [0x62], .poll, .pollProduce,
      .complete messages exampleOpts none, .pollProduce, .poll]
    ∃ final, run StreamedSession.step {} labels = some final ∧
      final.tokens = [['a'], [replacement]] ∧ final.closed = true ∧ Relayed labels final :=
  ⟨_, rfl, rfl, rfl, relayed_of_run _ _ rfl⟩

end HellohqRuntime.InferenceStream

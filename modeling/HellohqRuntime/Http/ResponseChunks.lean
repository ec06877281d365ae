import HellohqRuntime.Http.RequestBody

/-!
# The chunks of a response body

A producer that reports `Completed` must have handed something over.  The caller's
pushes come through the C interface, which makes an empty frame of a null pointer,
and the producer hands over whatever frame it takes: the contract is kept by the
polls that do not find an empty frame in front.
-/

namespace HellohqRuntime.Http.ResponseChunks

open HellohqRuntime.Foundation.Channels
open HellohqRuntime.Foundation.Runs
open HellohqRuntime.Foundation.Strings
open HellohqRuntime.Http.RequestBody (StreamResult)

inductive Poll (α : Type*) where
  | ready (value : α)
  | pending
  deriving DecidableEq, Repr

/-- Where a producer puts what it delivers. -/
structure Destination where
  buffer : Bytes := []
  deriving DecidableEq, Repr

def Destination.setBuffer (destination : Destination) (items : Bytes) : Destination :=
  { destination with buffer := items }

/-- `poll_produce` of the `ResponseBodyProducer` that owns the receiver of `inbound`. -/
def pollProduce (inbound : Channel Bytes) (destination : Destination) :
    Poll StreamResult × Destination × Channel Bytes :=
  match inbound.receive with
  | .value chunk rest => (.ready .completed, destination.setBuffer chunk, rest)
  | .disconnected => (.ready .dropped, destination, inbound)
  | .pending => (.pending, destination, inbound)

/-- `HwrP3Stream::push`: the sender is gone once the stream was closed, and a
receiver that is gone is ignored. -/
def push (inbound : Channel Bytes) (chunk : Bytes) : Channel Bytes :=
  if inbound.sending then (inbound.send chunk).getD inbound else inbound

/-- The pointer is null, or points to the bytes. -/
def hwrP3sPush (inbound : Channel Bytes) (chunk : Option Bytes) : Channel Bytes :=
  match chunk with
  | none => push inbound []
  | some bytes => push inbound bytes

def hwrP3sPushEnd (inbound : Channel Bytes) : Channel Bytes := inbound.dropSender

structure Body where
  inbound : Channel Bytes
  /-- What each poll reported, with the destination as it left it, oldest first. -/
  polls : List (Poll StreamResult × Destination) := []

inductive Label where
  | push (chunk : Option Bytes)
  | pushEnd
  | pollProduce
  deriving DecidableEq, Repr

namespace Body

/-- A producer that has just got the receiver, with the frames that the caller
pushed behind the head so far. -/
def start (queue : List Bytes) (sending : Bool) : Body where
  inbound := { queue, sending }

/-- Every read of the guest brings a destination of its own. -/
def poll (body : Body) : Body :=
  let produced := pollProduce body.inbound {}
  { inbound := produced.2.2, polls := body.polls ++ [(produced.1, produced.2.1)] }

def step (body : Body) : Label → Option Body
  | .push chunk => some { body with inbound := hwrP3sPush body.inbound chunk }
  | .pushEnd => some { body with inbound := hwrP3sPushEnd body.inbound }
  | .pollProduce => some body.poll

end Body

/-- A poll that reports `Completed` has handed over at least one byte. -/
def Delivers (report : Poll StreamResult × Destination) : Prop :=
  report.1 = .ready .completed → report.2.buffer ≠ []

/-- Every poll so far kept the contract of a producer. -/
def KeepsContract (body : Body) : Prop := ∀ report ∈ body.polls, Delivers report

/-- A poll finds no empty frame in front. -/
def FrontCarries (body : Body) (label : Label) : Prop :=
  label = .pollProduce → body.inbound.queue.head? ≠ some []

instance (body : Body) (label : Label) : Decidable (FrontCarries body label) :=
  inferInstanceAs (Decidable (label = .pollProduce → body.inbound.queue.head? ≠ some []))

/-! ## One poll -/

variable {body next final : Body} {label : Label} {labels : List Label}

/-- A poll delivers exactly if the frame in front has a byte. -/
theorem delivers_pollProduce (inbound : Channel Bytes) (destination : Destination) :
    Delivers ((pollProduce inbound destination).1, (pollProduce inbound destination).2.1) ↔
      inbound.queue.head? ≠ some [] := by
  unfold pollProduce
  cases hreceive : inbound.receive with
  | value chunk rest =>
      obtain ⟨queue, hqueue, _⟩ := Channel.receive_eq_value.mp hreceive
      simp [Delivers, Destination.setBuffer, hqueue]
  | disconnected =>
      have hempty := (Channel.receive_eq_disconnected.mp hreceive).1
      simp [Delivers, hempty]
  | pending =>
      have hempty := (Channel.receive_eq_pending.mp hreceive).1
      simp [Delivers, hempty]

/-- The reports of earlier polls stay. -/
theorem polls_step (hstep : body.step label = some next) :
    next.polls = body.polls ∧ label ≠ .pollProduce ∨
      label = .pollProduce ∧ next.polls = body.polls ++
        [((pollProduce body.inbound {}).1, (pollProduce body.inbound {}).2.1)] := by
  cases label with
  | push chunk =>
      obtain rfl := Option.some.inj hstep
      exact .inl ⟨rfl, by simp⟩
  | pushEnd =>
      obtain rfl := Option.some.inj hstep
      exact .inl ⟨rfl, by simp⟩
  | pollProduce =>
      obtain rfl := Option.some.inj hstep
      exact .inr ⟨rfl, rfl⟩

/-- A step breaks the contract exactly if it polls for an empty frame. -/
theorem keepsContract_step (hkeeps : KeepsContract body) (hstep : body.step label = some next) :
    KeepsContract next ↔ FrontCarries body label := by
  obtain ⟨hpolls, hlabel⟩ | ⟨rfl, hpolls⟩ := polls_step hstep
  · refine iff_of_true ?_ (fun hpoll => absurd hpoll hlabel)
    rwa [KeepsContract, hpolls]
  · rw [KeepsContract, hpolls, List.forall_mem_append, List.forall_mem_singleton,
      delivers_pollProduce, and_iff_right (show ∀ report ∈ body.polls, Delivers report from hkeeps)]
    simp [FrontCarries]

/-- A broken contract stays broken. -/
theorem not_keepsContract_step (hbroken : ¬KeepsContract body)
    (hstep : body.step label = some next) : ¬KeepsContract next := by
  intro hkeeps
  apply hbroken
  intro report hreport
  apply hkeeps
  obtain ⟨hpolls, _⟩ | ⟨_, hpolls⟩ := polls_step hstep
  · rwa [hpolls]
  · rw [hpolls]
    exact List.mem_append_left _ hreport

/-! ## Runs -/

theorem exists_run (body : Body) (labels : List Label) :
    ∃ final, run Body.step body labels = some final := by
  induction labels generalizing body with
  | nil => exact ⟨body, rfl⟩
  | cons label rest ih =>
      have hstep : ∃ next, body.step label = some next := by cases label <;> exact ⟨_, rfl⟩
      obtain ⟨next, hstep⟩ := hstep
      obtain ⟨final, hrest⟩ := ih next
      exact ⟨final, run_cons_eq_some.mpr ⟨next, hstep, hrest⟩⟩

/-- A run keeps the contract exactly if no poll of it finds an empty frame. -/
theorem keepsContract_run (hkeeps : KeepsContract body)
    (hrun : run Body.step body labels = some final) :
    KeepsContract final ↔ EachStep Body.step FrontCarries body labels := by
  constructor
  · intro hfinal
    have hmark : ∀ state label next, True → ¬FrontCarries state label →
        Body.step state label = some next → ¬KeepsContract next := by
      intro state label next _ hfront hstep
      by_cases hbefore : KeepsContract state
      · rwa [keepsContract_step hbefore hstep]
      · exact not_keepsContract_step hbefore hstep
    have hkeep : ∀ state label next, True → ¬KeepsContract state →
        Body.step state label = some next → ¬KeepsContract next :=
      fun _ _ _ _ => not_keepsContract_step
    exact eachStep_of_unmarked (fun _ _ _ _ _ => trivial) hmark hkeep trivial hrun
      (not_not_intro hfinal)
  · intro heach
    exact run_preserves_of_eachStep
      (fun _ _ _ hkeeps hcarries hstep => (keepsContract_step hkeeps hstep).mpr hcarries)
      hkeeps heach hrun

/-- In every interleaving, the producer keeps its contract exactly while no poll
finds an empty frame in front. -/
theorem keepsContract_iff_frontCarries (queue : List Bytes) (sending : Bool)
    (labels : List Label) :
    ∃ final, run Body.step (.start queue sending) labels = some final ∧
      (KeepsContract final ↔ EachStep Body.step FrontCarries (.start queue sending) labels) := by
  obtain ⟨final, hrun⟩ := exists_run (.start queue sending) labels
  refine ⟨final, hrun, keepsContract_run ?_ hrun⟩
  intro report hreport
  cases hreport

/-- A null pointer is pushed, and the guest reads. -/
theorem keepsContract_null_push :
    ∃ final, run Body.step (.start [] true) [.push none, .pollProduce] = some final ∧
      ¬KeepsContract final := by
  refine ⟨_, rfl, ?_⟩
  intro hkeeps
  exact hkeeps (.ready .completed, {}) (List.mem_singleton.mpr rfl) rfl rfl

/-! ## Where empty frames come from -/

/-- No frame that waits for the producer is empty. -/
def QueueCarries (body : Body) : Prop := ∀ frame ∈ body.inbound.queue, frame ≠ []

/-- The pointer and the length of a push name at least one byte. -/
def Pushes : Label → Prop
  | .push chunk => chunk.getD [] ≠ []
  | _ => True

theorem hwrP3sPush_eq (inbound : Channel Bytes) (chunk : Option Bytes) :
    hwrP3sPush inbound chunk = push inbound (chunk.getD []) := by
  cases chunk <;> rfl

/-- What a push leaves in the queue is what was there and the frame. -/
theorem mem_queue_push {inbound : Channel Bytes} {chunk frame : Bytes}
    (hframe : frame ∈ (push inbound chunk).queue) : frame ∈ inbound.queue ∨ frame = chunk := by
  unfold push at hframe
  split at hframe
  · cases hsend : inbound.send chunk with
    | none =>
        rw [hsend] at hframe
        exact .inl hframe
    | some after =>
        obtain ⟨_, rfl⟩ := Channel.send_eq_some.mp hsend
        rw [hsend] at hframe
        simpa using hframe
  · exact .inl hframe

theorem mem_queue_pollProduce {inbound : Channel Bytes} {destination : Destination} {frame : Bytes}
    (hframe : frame ∈ (pollProduce inbound destination).2.2.queue) : frame ∈ inbound.queue := by
  unfold pollProduce at hframe
  cases hreceive : inbound.receive with
  | value chunk rest =>
      obtain ⟨queue, hqueue, rfl⟩ := Channel.receive_eq_value.mp hreceive
      rw [hreceive] at hframe
      rw [hqueue]
      exact List.mem_cons_of_mem chunk hframe
  | disconnected => simpa [hreceive] using hframe
  | pending => simpa [hreceive] using hframe

theorem queueCarries_step (hcarries : QueueCarries body) (hpushes : Pushes label)
    (hstep : body.step label = some next) : QueueCarries next := by
  intro frame hframe
  cases label with
  | push chunk =>
      obtain rfl := Option.some.inj hstep
      rw [hwrP3sPush_eq] at hframe
      obtain hqueued | rfl := mem_queue_push hframe
      · exact hcarries frame hqueued
      · exact hpushes
  | pushEnd =>
      obtain rfl := Option.some.inj hstep
      exact hcarries frame hframe
  | pollProduce =>
      obtain rfl := Option.some.inj hstep
      exact hcarries frame (mem_queue_pollProduce hframe)

/-- The chunks that a run pushes, in order. -/
def pushedBy : List Label → List (Option Bytes) :=
  List.filterMap fun label =>
    match label with
    | .push chunk => some chunk
    | _ => none

theorem pushes_of_mem {chunks : List (Option Bytes)} (hpushed : pushedBy labels = chunks)
    (hchunks : [] ∉ chunks.map (·.getD [])) : ∀ label ∈ labels, Pushes label := by
  intro label hlabel
  cases label with
  | push chunk =>
      have hchunk : chunk ∈ chunks := by
        rw [← hpushed]
        exact List.mem_filterMap.mpr ⟨.push chunk, hlabel, rfl⟩
      intro hempty
      exact hchunks (List.mem_map.mpr ⟨chunk, hchunk, hempty⟩)
  | pushEnd => exact trivial
  | pollProduce => exact trivial

/-- A caller that pushes no empty chunk never fails a read. -/
theorem keepsContract_of_pushes {queue : List Bytes} {sending : Bool} (hqueue : [] ∉ queue)
    (hpushes : ∀ label ∈ labels, Pushes label)
    (hrun : run Body.step (.start queue sending) labels = some final) : KeepsContract final := by
  have hstart : KeepsContract (.start queue sending) ∧ QueueCarries (.start queue sending) := by
    refine ⟨?_, ?_⟩
    · intro report hreport
      cases hreport
    · rintro frame hframe rfl
      exact hqueue hframe
  have hstep : ∀ state label after, KeepsContract state ∧ QueueCarries state → Pushes label →
      Body.step state label = some after → KeepsContract after ∧ QueueCarries after := by
    rintro state label after ⟨hkeeps, hcarries⟩ hpush hstep
    refine ⟨(keepsContract_step hkeeps hstep).mpr ?_, queueCarries_step hcarries hpush hstep⟩
    intro _ hfront
    exact hcarries [] (List.mem_of_head? hfront) rfl
  exact (run_preserves_of_eachStep hstep hstart (eachStep_of_forall hpushes) hrun).1

/-- An empty frame that waits fails a read as soon as the guest has read up to it. -/
theorem exists_polls_not_keepsContract (hempty : [] ∈ body.inbound.queue) :
    ∃ count final, run Body.step body (List.replicate count .pollProduce) = some final ∧
      ¬KeepsContract final := by
  obtain ⟨before, after, hqueue⟩ := List.append_of_mem hempty
  induction before generalizing body with
  | nil =>
      refine ⟨1, body.poll, rfl, ?_⟩
      intro hkeeps
      have hdelivers := hkeeps _ (List.mem_append_right body.polls (List.mem_singleton.mpr rfl))
      rw [delivers_pollProduce, hqueue] at hdelivers
      exact hdelivers rfl
  | cons frame before ih =>
      have hrest : body.poll.inbound.queue = before ++ [] :: after := by
        have hreceive : body.inbound.receive =
            .value frame { body.inbound with queue := before ++ [] :: after } :=
          Channel.receive_eq_value.mpr ⟨_, hqueue, rfl⟩
        simp [Body.poll, pollProduce, hreceive]
      obtain ⟨count, final, hrun, hbroken⟩ := ih (by simp [hrest]) hrest
      exact ⟨count + 1, final, run_cons_eq_some.mpr ⟨body.poll, rfl, hrun⟩, hbroken⟩

/-- Pushes that nobody reads between wait in order. -/
theorem run_pushes (chunks : List (Option Bytes)) (queue : List Bytes) :
    run Body.step (.start queue true) (chunks.map .push) =
      some (.start (queue ++ chunks.map (·.getD [])) true) := by
  induction chunks generalizing queue with
  | nil => rw [List.map_nil, List.map_nil, List.append_nil, run_nil]
  | cons chunk rest ih =>
      have hstep : Body.step (.start queue true) (.push chunk) =
          some (.start (queue ++ [chunk.getD []]) true) := by
        cases chunk <;> rfl
      rw [List.map_cons, run_cons_eq_some.mpr ⟨_, hstep, ih _⟩, List.append_assoc]
      rfl

theorem pushedBy_pushes (chunks : List (Option Bytes)) (count : Nat) :
    pushedBy (chunks.map .push ++ List.replicate count .pollProduce) = chunks := by
  rw [pushedBy, List.filterMap_append, List.filterMap_map]
  simp

/-- The reads of a guest cannot fail, in whatever order they meet the pushes, exactly if
the caller pushes no null pointer and no empty chunk, and none was there before. -/
theorem keepsContract_forall_iff (queue : List Bytes) (chunks : List (Option Bytes)) :
    (∀ labels final, pushedBy labels = chunks →
        run Body.step (.start queue true) labels = some final → KeepsContract final) ↔
      [] ∉ queue ++ chunks.map (·.getD []) := by
  constructor
  · intro hkeeps hempty
    have hpushes := run_pushes chunks queue
    obtain ⟨count, final, hpolls, hbroken⟩ := @exists_polls_not_keepsContract
      (.start (queue ++ chunks.map (·.getD [])) true) hempty
    exact hbroken (hkeeps _ final (pushedBy_pushes chunks count)
      (run_append_eq_some.mpr ⟨_, hpushes, hpolls⟩))
  · intro hfull labels final hpushed hrun
    rw [List.mem_append, not_or] at hfull
    exact keepsContract_of_pushes hfull.1 (pushes_of_mem hpushed hfull.2) hrun

end HellohqRuntime.Http.ResponseChunks

import HellohqRuntime.Foundation.Channels
import HellohqRuntime.Http.ResponseHead

/-!
# A response and its streamed body

A call that has sent its request waits for the head frame.  The receiver goes on
to the producer of the response's body, which hands each later frame to the guest.
The caller pushes and closes, and the receiver's owner is polled, in any order.
The main result is that the guest gets the caller's response and its body frames
in order, and sees the end of the body only behind all of them.
-/

namespace HellohqRuntime.Http.ResponseStream

open HellohqRuntime.Foundation.Channels
open HellohqRuntime.Foundation.Runs
open HellohqRuntime.Foundation.Strings
open HellohqRuntime.Http.Handle
open HellohqRuntime.Http.ResponseHead
open HellohqRuntime.Http.Resources
open HellohqRuntime.Http.Tables
open HellohqRuntime.Http.Types

/-! ## Polls and pushes -/

/-- What a call returned, with the host as it left it. -/
abbrev Returned := Except ErrorCode Rep × WasiHttpHost

structure Exchange where
  host : WasiHttpHost
  call : Call
  inbound : Channel Bytes := {}
  /-- Nothing while the call waits for the head. -/
  returned : Option Returned := none
  /-- The frames the producer has handed to the guest. -/
  handed : List Bytes := []
  /-- The producer has reported the end of the body. -/
  dropped : Bool := false

/-- A call that waits for its head on a fresh inbound channel. -/
def Exchange.start (host : WasiHttpHost) (call : Call) : Exchange := { host, call }

inductive Label where
  | push (chunk : Bytes)
  | pushEnd
  /-- The owner of the receiver is polled. -/
  | poll (shown : Text)
  /-- Other functions of the host leave it in another state. -/
  | elsewhere (host : WasiHttpHost)

/-- What a call that is over returned. -/
def returnedBy (result : Call × WasiHttpHost) : Option Returned :=
  match result.1.await with
  | .done built => some (built, result.2)
  | _ => none

namespace Exchange

/-- The sender is gone once the inbound stream was closed. -/
def push (exchange : Exchange) (chunk : Bytes) : Exchange :=
  if exchange.inbound.sending then
    { exchange with inbound := (exchange.inbound.send chunk).getD exchange.inbound }
  else exchange

def pushEnd (exchange : Exchange) : Exchange :=
  { exchange with inbound := exchange.inbound.dropSender }

/-- The call takes what its wait for the first frame gave. -/
def takeHead (exchange : Exchange) (shown : Text) (frame : Option Bytes)
    (inbound : Channel Bytes) : Exchange :=
  let result := receiveHead exchange.host exchange.call shown frame none none
  { exchange with host := result.2, call := result.1, inbound, returned := returnedBy result }

def pollHead (exchange : Exchange) (shown : Text) : Exchange :=
  match exchange.inbound.receive with
  | .value frame inbound => exchange.takeHead shown (some frame) inbound
  | .disconnected => exchange.takeHead shown none exchange.inbound
  | .pending => exchange

/-- `poll_produce` of the response body. -/
def pollProduce (exchange : Exchange) : Exchange :=
  match exchange.inbound.receive with
  | .value chunk inbound => { exchange with inbound, handed := exchange.handed ++ [chunk] }
  | .disconnected => { exchange with dropped := true }
  | .pending => exchange

/-- The receiver is the call's until it returns, then the producer's; a call that
fails drops it. -/
def poll (exchange : Exchange) (shown : Text) : Exchange :=
  match exchange.returned with
  | none => exchange.pollHead shown
  | some (.ok _, _) => exchange.pollProduce
  | some (.error _, _) => exchange

def step (exchange : Exchange) : Label → Option Exchange
  | .push chunk => some (exchange.push chunk)
  | .pushEnd => some exchange.pushEnd
  | .poll shown => some (exchange.poll shown)
  | .elsewhere host => some { exchange with host }

end Exchange

/-! ## What the guest should get -/

/-- The trailers future is resolved with the fields, or with none. -/
def YieldsTrailers (host : WasiHttpHost) (future : Option TrailersFuture) :
    Option (List (FieldName × FieldValue)) → Prop
  | none => future = some (.ready (.ok none))
  | some entries => ∃ rep, future = some (.ready (.ok (some rep))) ∧
      host.fields.get rep = some { entries, immutable := true }

/-- The call returned a response with exactly what the caller sent. -/
structure ReturnsResponse (response : CallerResponse) (returned : Returned) (rep : Rep)
    (data : ResponseData) : Prop where
  ok : returned.1 = .ok rep
  entry : returned.2.responses.get rep = some data
  statusCode : data.statusCode = response.statusCode
  headers : returned.2.fields.get data.headers = some { entries := response.entries }
  body : data.body = some (.responseBody .receiver)
  trailers : YieldsTrailers returned.2 data.trailers response.trailerEntries

/-- The call builds the response that the head frame stands for. -/
theorem returnsResponse_receiveHead (host : WasiHttpHost) (call : Call) (shown : Text)
    (response : CallerResponse) :
    ∃ returned rep data,
      returnedBy (receiveHead host call shown (some (encodeResponseHead response)) none none) =
        some returned ∧
      ReturnsResponse response returned rep data := by
  simp only [receiveHead, parseResponseHead_encodeResponseHead, returnedBy, buildResponse]
  cases htrailers : response.trailerEntries with
  | none =>
      refine ⟨_, _, _, rfl, rfl, Table.get_insert_self _ _, rfl, Table.get_insert_self _ _, rfl, ?_⟩
      rw [htrailers]
      exact (rfl : (some (TrailersFuture.ready (.ok none))) = some (.ready (.ok none)))
  | some entries =>
      refine ⟨_, _, _, rfl, rfl, Table.get_insert_self _ _, rfl, ?_, rfl, ?_⟩
      · exact (Table.get_insert_ne (ne_succ _)).trans (Table.get_insert_self _ _)
      · rw [htrailers]
        exact ⟨_, rfl, Table.get_insert_self _ _⟩

/-! ## The invariant -/

/-- Where the pushed frames are: in the queue, with the head taken off once the call
has returned, or handed to the guest. -/
structure Aligned (response : CallerResponse) (pushes : List Bytes) (exchange : Exchange) :
    Prop where
  receiving : exchange.inbound.receiving = true
  waiting : exchange.returned = none → exchange.handed = [] ∧ exchange.inbound.queue = pushes
  streaming : ∀ returned, exchange.returned = some returned →
    (∃ rep data, ReturnsResponse response returned rep data) ∧
      pushes = encodeResponseHead response :: (exchange.handed ++ exchange.inbound.queue)
  dropped : exchange.dropped = true → exchange.returned ≠ none ∧
    exchange.inbound.queue = [] ∧ exchange.inbound.sending = false

variable {response : CallerResponse} {frames pushes : List Bytes} {exchange next final : Exchange}
  {labels : List Label}

theorem aligned_start (host : WasiHttpHost) (call : Call) :
    Aligned response [] (.start host call) where
  receiving := rfl
  waiting _ := ⟨rfl, rfl⟩
  streaming _ hreturned := by cases hreturned
  dropped hdropped := by cases hdropped

theorem aligned_push (haligned : Aligned response pushes exchange)
    (hopen : exchange.inbound.sending = true) (chunk : Bytes) :
    Aligned response (pushes ++ [chunk]) (exchange.push chunk) := by
  have hpush : exchange.push chunk = { exchange with
      inbound := { exchange.inbound with queue := exchange.inbound.queue ++ [chunk] } } := by
    simp [Exchange.push, Channel.send, hopen, haligned.receiving]
  rw [hpush]
  constructor
  · exact haligned.receiving
  · intro hwaiting
    obtain ⟨hhanded, hqueue⟩ := haligned.waiting hwaiting
    exact ⟨hhanded, congrArg (· ++ [chunk]) hqueue⟩
  · intro returned hreturned
    obtain ⟨hresponse, hpushes⟩ := haligned.streaming returned hreturned
    refine ⟨hresponse, ?_⟩
    rw [hpushes]
    simp
  · intro hdropped
    rw [(haligned.dropped hdropped).2.2] at hopen
    cases hopen

theorem aligned_pushEnd (haligned : Aligned response pushes exchange) :
    Aligned response pushes exchange.pushEnd where
  receiving := haligned.receiving
  waiting := haligned.waiting
  streaming := haligned.streaming
  dropped hdropped :=
    ⟨(haligned.dropped hdropped).1, (haligned.dropped hdropped).2.1, rfl⟩

/-- The first frame that a waiting call takes is the head. -/
theorem aligned_takeHead (haligned : Aligned response pushes exchange)
    (hwaiting : exchange.returned = none) {frame : Bytes} {rest : List Bytes}
    (hqueue : exchange.inbound.queue = frame :: rest) (hhead : frame = encodeResponseHead response)
    (shown : Text) :
    Aligned response pushes
        (exchange.takeHead shown (some frame) { exchange.inbound with queue := rest }) ∧
      (exchange.takeHead shown (some frame) { exchange.inbound with queue := rest }).returned ≠
        none := by
  obtain ⟨returned, rep, data, hreturned, hresponse⟩ :=
    returnsResponse_receiveHead exchange.host exchange.call shown response
  obtain ⟨hhanded, hpushes⟩ := haligned.waiting hwaiting
  subst hhead
  have hafter : (exchange.takeHead shown (some (encodeResponseHead response))
      { exchange.inbound with queue := rest }).returned = some returned := hreturned
  refine ⟨⟨haligned.receiving, ?_, ?_, ?_⟩, ?_⟩
  · intro hnone
    rw [hafter] at hnone
    cases hnone
  · intro other hother
    obtain rfl := Option.some.inj (hafter.symm.trans hother)
    refine ⟨⟨rep, data, hresponse⟩, ?_⟩
    rw [← hpushes, hqueue]
    simp [Exchange.takeHead, hhanded]
  · intro hdropped
    exact absurd hwaiting (haligned.dropped hdropped).1
  · rw [hafter]
    exact Option.some_ne_none returned

/-- The producer hands over the oldest frame. -/
theorem aligned_handOver (haligned : Aligned response pushes exchange)
    (hreturned : exchange.returned ≠ none) {chunk : Bytes} {rest : List Bytes}
    (hqueue : exchange.inbound.queue = chunk :: rest) :
    Aligned response pushes { exchange with
      inbound := { exchange.inbound with queue := rest }
      handed := exchange.handed ++ [chunk] } := by
  refine ⟨haligned.receiving, fun hnone => absurd hnone hreturned, ?_, ?_⟩
  · intro returned hsome
    obtain ⟨hresponse, hpushes⟩ := haligned.streaming returned hsome
    refine ⟨hresponse, ?_⟩
    rw [hpushes, hqueue]
    simp
  · intro hdropped
    rw [(haligned.dropped hdropped).2.1] at hqueue
    cases hqueue

/-- What one poll does in a state where the frames are where they belong. -/
theorem poll_cases (haligned : Aligned response pushes exchange) (shown : Text) :
    (exchange.inbound.queue = [] ∧ exchange.inbound.sending = true ∧
        exchange.poll shown = exchange) ∨
      (exchange.inbound.queue = [] ∧ exchange.inbound.sending = false ∧
        (exchange.returned = none ∧
            exchange.poll shown = exchange.takeHead shown none exchange.inbound ∨
          exchange.returned ≠ none ∧ exchange.poll shown = { exchange with dropped := true })) ∨
      ∃ frame rest, exchange.inbound.queue = frame :: rest ∧
        (exchange.returned = none ∧ exchange.poll shown =
            exchange.takeHead shown (some frame) { exchange.inbound with queue := rest } ∨
          exchange.returned ≠ none ∧ exchange.poll shown = { exchange with
            inbound := { exchange.inbound with queue := rest }
            handed := exchange.handed ++ [frame] }) := by
  have hpoll : exchange.poll shown =
      if exchange.returned = none then exchange.pollHead shown else exchange.pollProduce := by
    unfold Exchange.poll
    cases hreturned : exchange.returned with
    | none => rfl
    | some returned =>
        obtain ⟨⟨rep, data, hresponse⟩, -⟩ := haligned.streaming returned hreturned
        obtain ⟨result, host⟩ := returned
        obtain rfl : result = .ok rep := hresponse.ok
        rfl
  rw [hpoll]
  cases hqueue : exchange.inbound.queue with
  | nil =>
      cases hsending : exchange.inbound.sending with
      | true =>
          have hreceive := Channel.receive_eq_pending.mpr ⟨hqueue, hsending⟩
          refine .inl ⟨rfl, rfl, ?_⟩
          split <;> simp only [Exchange.pollHead, Exchange.pollProduce, hreceive]
      | false =>
          have hreceive := Channel.receive_eq_disconnected.mpr ⟨hqueue, hsending⟩
          refine .inr (.inl ⟨rfl, rfl, ?_⟩)
          by_cases hreturned : exchange.returned = none
          · exact .inl ⟨hreturned, by simp only [if_pos hreturned, Exchange.pollHead, hreceive]⟩
          · exact .inr ⟨hreturned, by simp only [if_neg hreturned, Exchange.pollProduce, hreceive]⟩
  | cons frame rest =>
      have hreceive := Channel.receive_eq_value.mpr ⟨rest, hqueue, rfl⟩
      refine .inr (.inr ⟨frame, rest, rfl, ?_⟩)
      by_cases hreturned : exchange.returned = none
      · exact .inl ⟨hreturned, by simp only [if_pos hreturned, Exchange.pollHead, hreceive]⟩
      · exact .inr ⟨hreturned, by simp only [if_neg hreturned, Exchange.pollProduce, hreceive]⟩

/-- The frames of the caller: the head and the body. -/
def callerFrames (response : CallerResponse) (frames : List Bytes) : List Bytes :=
  encodeResponseHead response :: frames

/-- A poll keeps the frames where they belong, and moves the exchange on where there
is something to read. -/
theorem aligned_poll (haligned : Aligned response pushes exchange)
    (hpushes : pushes <+: callerFrames response frames)
    (hclosed : exchange.inbound.sending = false → pushes ≠ []) (shown : Text) :
    Aligned response pushes (exchange.poll shown) ∧
      (exchange.poll shown).inbound.sending = exchange.inbound.sending ∧
      (exchange.inbound.queue = [] → exchange.inbound.sending = false →
        (exchange.poll shown).dropped = true) ∧
      (exchange.poll shown).inbound.queue = exchange.inbound.queue.tail := by
  rcases poll_cases haligned shown with
    ⟨hqueue, hsending, hpoll⟩ | ⟨hqueue, hsending, ⟨hnone, hpoll⟩ | ⟨hsome, hpoll⟩⟩ |
      ⟨frame, rest, hqueue, ⟨hnone, hpoll⟩ | ⟨hsome, hpoll⟩⟩
  · rw [hpoll]
    refine ⟨haligned, rfl, fun _ hgone => ?_, by rw [hqueue]; rfl⟩
    rw [hsending] at hgone
    cases hgone
  · have hempty := (haligned.waiting hnone).2.symm.trans hqueue
    exact absurd hempty (hclosed hsending)
  · rw [hpoll]
    refine ⟨⟨haligned.receiving, haligned.waiting, haligned.streaming, ?_⟩, rfl, fun _ _ => rfl, ?_⟩
    · intro _
      exact ⟨hsome, hqueue, hsending⟩
    · rw [hqueue, List.tail_nil]
  · have hfirst : frame = encodeResponseHead response := by
      rw [← (haligned.waiting hnone).2, hqueue] at hpushes
      exact (List.cons_prefix_cons.mp hpushes).1
    rw [hpoll]
    refine ⟨(aligned_takeHead haligned hnone hqueue hfirst shown).1, rfl, ?_, by rw [hqueue]; rfl⟩
    intro hempty
    rw [hqueue] at hempty
    cases hempty
  · rw [hpoll]
    refine ⟨aligned_handOver haligned hsome hqueue, rfl, ?_, by rw [hqueue]; rfl⟩
    intro hempty
    rw [hqueue] at hempty
    cases hempty

/-! ## Runs -/

/-- The steps of the caller. -/
def isCaller : Label → Bool
  | .push _ | .pushEnd => true
  | .poll _ | .elsewhere _ => false

/-- The caller sends the head and the body, then closes. -/
def callerLabels (response : CallerResponse) (frames : List Bytes) : List Label :=
  (callerFrames response frames).map .push ++ [.pushEnd]

/-- How far the caller is: between its pushes, or behind its close. -/
structure CallerAt (response : CallerResponse) (frames : List Bytes) (past : List Label)
    (pushes : List Bytes) (exchange : Exchange) : Prop where
  aligned : Aligned response pushes exchange
  pushed : pushes <+: callerFrames response frames
  running : exchange.inbound.sending = true → past.filter isCaller = pushes.map .push
  closed : exchange.inbound.sending = false →
    past.filter isCaller = callerLabels response frames ∧ pushes = callerFrames response frames

/-- A push of the caller comes in front of its close. -/
theorem prefix_of_push {past : List Label} {chunk : Bytes}
    (hcaller : past ++ [.push chunk] <+: callerLabels response frames) :
    past ++ [.push chunk] <+: (callerFrames response frames).map .push := by
  rcases List.prefix_concat_iff.mp hcaller with hall | hfront
  · cases (List.append_inj' hall rfl).2
  · exact hfront

/-- The close comes behind all pushes. -/
theorem eq_of_pushEnd {past : List Label}
    (hcaller : past ++ [.pushEnd] <+: callerLabels response frames) :
    past = (callerFrames response frames).map .push := by
  rcases List.prefix_concat_iff.mp hcaller with hall | hfront
  · exact (List.append_inj' hall rfl).1
  · have hmem := hfront.subset (List.mem_append_right past (List.mem_singleton_self _))
    obtain ⟨frame, -, hframe⟩ := List.mem_map.mp hmem
    cases hframe

/-- While the caller has a step to take, the stream is open. -/
theorem sending_of_callerLabels {past : List Label} {label : Label}
    (hat : CallerAt response frames past pushes exchange)
    (hcaller : past.filter isCaller ++ [label] <+: callerLabels response frames) :
    exchange.inbound.sending = true := by
  cases hsending : exchange.inbound.sending with
  | true => rfl
  | false =>
      have hlength := hcaller.length_le
      rw [(hat.closed hsending).1, List.length_append, List.length_singleton] at hlength
      omega

theorem callerAt_push {past : List Label} (hat : CallerAt response frames past pushes exchange)
    {chunk : Bytes} (hcaller : past.filter isCaller ++ [.push chunk] <+: callerLabels response frames) :
    CallerAt response frames (past ++ [.push chunk]) (pushes ++ [chunk]) (exchange.push chunk) := by
  have hsending := sending_of_callerLabels hat hcaller
  have hstill : (exchange.push chunk).inbound.sending = true := by
    simp [Exchange.push, Channel.send, hsending, hat.aligned.receiving]
  refine ⟨aligned_push hat.aligned hsending chunk, ?_, ?_, ?_⟩
  · have hfront := prefix_of_push hcaller
    rw [hat.running hsending] at hfront
    obtain ⟨front, hsub, hmap⟩ := List.prefix_map_iff.mp hfront
    have hsame : (pushes ++ [chunk]).map Label.push = front.map Label.push := by simpa using hmap
    rwa [List.map_injective_iff.mpr (fun _ _ => Label.push.inj) hsame]
  · intro _
    rw [List.filter_append, hat.running hsending]
    simp [isCaller]
  · intro hgone
    rw [hstill] at hgone
    cases hgone

theorem callerAt_pushEnd {past : List Label} (hat : CallerAt response frames past pushes exchange)
    (hcaller : past.filter isCaller ++ [.pushEnd] <+: callerLabels response frames) :
    CallerAt response frames (past ++ [.pushEnd]) pushes exchange.pushEnd := by
  have hall := eq_of_pushEnd hcaller
  have hpushes : pushes = callerFrames response frames := by
    rw [hat.running (sending_of_callerLabels hat hcaller)] at hall
    exact List.map_injective_iff.mpr (fun _ _ => Label.push.inj) hall
  refine ⟨aligned_pushEnd hat.aligned, hat.pushed, ?_, ?_⟩
  · intro hopen
    cases hopen
  · intro _
    refine ⟨?_, hpushes⟩
    rw [List.filter_append, hall]
    rfl

/-- Steps of others leave the caller where it is. -/
theorem CallerAt.mono {past : List Label} {label : Label}
    (hat : CallerAt response frames past pushes exchange) (hother : isCaller label = false)
    (haligned : Aligned response pushes next)
    (hsending : next.inbound.sending = exchange.inbound.sending) :
    CallerAt response frames (past ++ [label]) pushes next := by
  have hfilter : (past ++ [label]).filter isCaller = past.filter isCaller := by
    simp [List.filter_append, hother]
  refine ⟨haligned, hat.pushed, ?_, ?_⟩
  · rw [hsending, hfilter]
    exact hat.running
  · rw [hsending, hfilter]
    exact hat.closed

theorem callerAt_poll {past : List Label} (hat : CallerAt response frames past pushes exchange)
    (shown : Text) :
    CallerAt response frames (past ++ [.poll shown]) pushes (exchange.poll shown) := by
  have hclosed : exchange.inbound.sending = false → pushes ≠ [] := by
    intro hgone
    rw [(hat.closed hgone).2]
    exact List.cons_ne_nil _ _
  obtain ⟨haligned, hsending, -⟩ := aligned_poll hat.aligned hat.pushed hclosed shown
  exact hat.mono rfl haligned hsending

/-- Whatever the order of the steps, the frames are where they belong. -/
theorem callerAt_run {host : WasiHttpHost} {call : Call}
    (hrun : run Exchange.step (.start host call) labels = some final)
    (hcaller : labels.filter isCaller <+: callerLabels response frames) :
    ∃ pushes, CallerAt response frames labels pushes final := by
  have hhistory := @run_history _ _ Exchange.step
    (fun past exchange => past.filter isCaller <+: callerLabels response frames →
      ∃ pushes, CallerAt response frames past pushes exchange) ?_ [] labels _ _ ?_ hrun
  · exact hhistory hcaller
  · intro past exchange label next hbefore hstep hfront
    rw [List.filter_append] at hfront
    obtain ⟨pushes, hat⟩ := hbefore ((List.prefix_append _ _).trans hfront)
    cases label with
    | push chunk =>
        obtain rfl := Option.some.inj hstep
        exact ⟨_, callerAt_push hat hfront⟩
    | pushEnd =>
        obtain rfl := Option.some.inj hstep
        exact ⟨_, callerAt_pushEnd hat hfront⟩
    | poll shown =>
        obtain rfl := Option.some.inj hstep
        exact ⟨_, callerAt_poll hat shown⟩
    | elsewhere host =>
        obtain rfl := Option.some.inj hstep
        have haligned := hat.aligned
        exact ⟨_, hat.mono rfl ⟨haligned.receiving, haligned.waiting, haligned.streaming,
          haligned.dropped⟩ rfl⟩
  · intro _
    refine ⟨[], aligned_start host call, List.nil_prefix, fun _ => rfl, ?_⟩
    intro hgone
    cases hgone

/-- Once the caller has closed, one poll for each frame in the queue and one more
bring the end of the body. -/
theorem callerAt_polls {past : List Label} (hat : CallerAt response frames past pushes exchange)
    (hclosed : exchange.inbound.sending = false) {polls : List Text}
    (hmany : exchange.dropped = true ∨ exchange.inbound.queue.length < polls.length) :
    ∃ last, run Exchange.step exchange (polls.map .poll) = some last ∧
      CallerAt response frames (past ++ polls.map .poll) pushes last ∧ last.dropped = true := by
  induction polls generalizing past exchange with
  | nil =>
      rcases hmany with hdropped | hmany
      · exact ⟨exchange, rfl, by simpa using hat, hdropped⟩
      · exact absurd hmany (Nat.not_lt_zero _)
  | cons shown rest ih =>
      have hsome : exchange.inbound.sending = false → pushes ≠ [] := by
        intro _
        rw [(hat.closed hclosed).2]
        exact List.cons_ne_nil _ _
      obtain ⟨-, hsending, hend, hqueue⟩ := aligned_poll hat.aligned hat.pushed hsome shown
      have hnext : (exchange.poll shown).dropped = true ∨
          (exchange.poll shown).inbound.queue.length < rest.length := by
        cases hframes : exchange.inbound.queue with
        | nil => exact .inl (hend hframes hclosed)
        | cons frame more =>
            refine .inr ?_
            rcases hmany with hdropped | hmany
            · rw [(hat.aligned.dropped hdropped).2.1] at hframes
              cases hframes
            · rw [hframes, List.length_cons, List.length_cons] at hmany
              rw [hqueue, hframes, List.tail_cons]
              omega
      obtain ⟨last, hrun, hlast, hdropped⟩ :=
        ih (callerAt_poll hat shown) (hsending.trans hclosed) hnext
      refine ⟨last, run_cons_eq_some.mpr ⟨_, rfl, hrun⟩, ?_, hdropped⟩
      simpa using hlast

/-! ## The main result -/

/-- What has reached the guest of the caller's response. -/
structure Delivered (response : CallerResponse) (frames : List Bytes) (labels : List Label)
    (exchange : Exchange) : Prop where
  returned : ∀ returned, exchange.returned = some returned →
    ∃ rep data, ReturnsResponse response returned rep data
  handed : exchange.handed <+: frames
  /-- The end of the body is reported behind every frame and behind the close. -/
  dropped : exchange.dropped = true → exchange.returned ≠ none ∧
    exchange.handed = frames ∧ labels.filter isCaller = callerLabels response frames

theorem delivered_of_callerAt (hat : CallerAt response frames labels pushes exchange) :
    Delivered response frames labels exchange := by
  have hhanded : ∀ returned, exchange.returned = some returned →
      exchange.handed ++ exchange.inbound.queue <+: frames := by
    intro returned hreturned
    have hpushed := hat.pushed
    rw [(hat.aligned.streaming returned hreturned).2] at hpushed
    exact (List.cons_prefix_cons.mp hpushed).2
  refine ⟨fun returned hreturned => (hat.aligned.streaming returned hreturned).1, ?_, ?_⟩
  · cases hreturned : exchange.returned with
    | none =>
        rw [(hat.aligned.waiting hreturned).1]
        exact List.nil_prefix
    | some returned => exact (List.prefix_append _ _).trans (hhanded returned hreturned)
  · intro hdropped
    obtain ⟨hsome, hqueue, hsending⟩ := hat.aligned.dropped hdropped
    obtain ⟨hcaller, hpushes⟩ := hat.closed hsending
    obtain ⟨returned, hreturned⟩ := Option.ne_none_iff_exists'.mp hsome
    refine ⟨hsome, ?_, hcaller⟩
    have hall := (hat.aligned.streaming returned hreturned).2
    rw [hpushes, hqueue, List.append_nil] at hall
    exact (List.cons.inj hall).2.symm

/-- In every order of pushes and polls the guest gets the caller's response and its
frames in order; behind the close the polls bring all of them and then the end. -/
theorem delivered_run {host : WasiHttpHost} {call : Call}
    (hrun : run Exchange.step (.start host call) labels = some final)
    (hcaller : labels.filter isCaller <+: callerLabels response frames) :
    Delivered response frames labels final ∧
      (labels.filter isCaller = callerLabels response frames →
        ∀ polls : List Text, frames.length + 2 ≤ polls.length →
          ∃ last, run Exchange.step final (polls.map .poll) = some last ∧
            Delivered response frames (labels ++ polls.map .poll) last ∧ last.dropped = true) := by
  obtain ⟨pushes, hat⟩ := callerAt_run hrun hcaller
  refine ⟨delivered_of_callerAt hat, ?_⟩
  intro hall polls hmany
  have hclosed : final.inbound.sending = false := by
    cases hsending : final.inbound.sending with
    | false => rfl
    | true =>
        have hrunning := (hat.running hsending).symm.trans hall
        have hend : Label.pushEnd ∈ pushes.map Label.push := by
          rw [hrunning]
          exact List.mem_append_right _ (List.mem_singleton_self _)
        obtain ⟨frame, -, hframe⟩ := List.mem_map.mp hend
        cases hframe
  have hqueue : final.inbound.queue.length < polls.length := by
    have hlength := congrArg List.length (hat.closed hclosed).2
    rw [callerFrames, List.length_cons] at hlength
    cases hreturned : final.returned with
    | none =>
        rw [(hat.aligned.waiting hreturned).2]
        omega
    | some returned =>
        rw [(hat.aligned.streaming returned hreturned).2, List.length_cons,
          List.length_append] at hlength
        omega
  obtain ⟨last, hlast, hatLast, hdropped⟩ := callerAt_polls hat hclosed (.inr hqueue)
  exact ⟨last, hlast, delivered_of_callerAt hatLast, hdropped⟩

/-- A response with a header, and with a trailer field that is no text. -/
def exampleResponse : CallerResponse where
  statusCode := 200
  headers := [("content-type".toList, "text/plain".toList)]
  trailers := some (1, [("x-sum".toList, [0xFF])])
  inRange := by decide
  carried := by
    intro header hheader
    obtain rfl := List.mem_singleton.mp hheader
    refine ⟨by decide, by decide, by decide, ?_⟩
    intro c hc
    obtain rfl := Option.some.inj hc
    rfl
  tokens := by
    intro position entries hentries entry hentry
    obtain rfl := (Prod.mk.inj (Option.some.inj hentries)).2
    obtain rfl := List.mem_singleton.mp hentry
    decide

/-- The call is polled too early, and the second frame comes behind the first read. -/
def exampleLabels : List Label :=
  [.poll [], .push (encodeResponseHead exampleResponse), .push [0x61], .poll [], .poll [],
    .push [0x62], .pushEnd]

theorem delivered_run_example :
    ∃ final, run Exchange.step (.start {} { await := .head }) exampleLabels = some final ∧
      final.handed = [[0x61]] ∧ Delivered exampleResponse [[0x61], [0x62]] exampleLabels final := by
  refine ⟨_, rfl, by decide, ?_⟩
  exact (@delivered_run exampleResponse [[0x61], [0x62]] _ exampleLabels {} { await := .head } rfl
    (List.prefix_refl _)).1

/-! ## In a session -/

/-- A call of a session that waits for its head. -/
def exchangeOf (world : System.World) (call : Call) : Exchange where
  host := world.host
  call := call
  inbound := { queue := world.inbound, sending := world.inboundOpen }

/-- The step of a session that brings a call its head is the poll of the call. -/
theorem poll_of_responseHead {world after : System.World} {index : Nat} {call : Call} {shown : Text}
    (hcall : world.calls[index]? = some call)
    (hstep : world.step (.responseHead index shown none none) = some after) :
    after.host = ((exchangeOf world call).poll shown).host ∧
      after.calls = world.calls.set index ((exchangeOf world call).poll shown).call ∧
      after.inbound = ((exchangeOf world call).poll shown).inbound.queue := by
  obtain ⟨other, hother, -, hreceive⟩ := System.World.responseHead_step hstep
  obtain rfl := Option.some.inj (hcall.symm.trans hother)
  have hpoll : (exchangeOf world call).poll shown = (exchangeOf world call).pollHead shown := rfl
  rw [hpoll]
  unfold System.World.receiveHeadAt at hreceive
  cases hinbound : world.inbound with
  | nil =>
      cases hopen : world.inboundOpen with
      | true => simp [hinbound, hopen] at hreceive
      | false =>
          simp only [hinbound, hopen, Option.some.injEq] at hreceive
          rw [← hreceive]
          simp [Exchange.pollHead, exchangeOf, hinbound, hopen, Channel.receive, Exchange.takeHead,
            System.World.progress]
  | cons frame rest =>
      have hresult : (exchangeOf world call).pollHead shown = (exchangeOf world call).takeHead shown
          (some frame) { queue := rest, sending := world.inboundOpen } := by
        simp [Exchange.pollHead, exchangeOf, hinbound, Channel.receive]
      rw [hresult]
      simp only [hinbound] at hreceive
      split at hreceive
      · obtain rfl := Option.some.inj hreceive
        exact ⟨System.World.deliver_host _, System.World.deliver_calls _,
          System.World.deliver_inbound _⟩
      · obtain rfl := Option.some.inj hreceive
        exact ⟨rfl, rfl, rfl⟩

end HellohqRuntime.Http.ResponseStream

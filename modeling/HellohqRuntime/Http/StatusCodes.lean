import HellohqRuntime.Http.Effects

/-!
# Status codes of responses

The setter of a response refuses a status outside 100 to 599, and the responses
that the host makes up itself have status 200.  A response that is built from the
caller's head frame takes its status as it is written there.  The main result is
that such a frame is the only way to a response with another status.
-/

namespace HellohqRuntime.Http.StatusCodes

open HellohqRuntime.Foundation.Runs
open HellohqRuntime.Foundation.Strings
open HellohqRuntime.Foundation.Utf8
open HellohqRuntime.Http.Effects
open HellohqRuntime.Http.Handle
open HellohqRuntime.Http.Resources
open HellohqRuntime.Http.System
open HellohqRuntime.Http.Tables
open HellohqRuntime.Http.Types

def IsStatusCode (statusCode : UInt16) : Prop := 100 ≤ statusCode ∧ statusCode ≤ 599

instance (statusCode : UInt16) : Decidable (IsStatusCode statusCode) :=
  inferInstanceAs (Decidable (100 ≤ statusCode ∧ statusCode ≤ 599))

/-- The status of the responses that the host makes up itself. -/
theorem isStatusCode_ok : IsStatusCode 200 := by decide

/-- Every response in the table has a status code of HTTP. -/
def ValidStatuses (host : WasiHttpHost) : Prop :=
  ∀ rep data, host.responses.get rep = some data → IsStatusCode data.statusCode

/-- The number in the first line of a head frame. -/
def writtenStatus (frame : Bytes) : Option UInt16 :=
  parseU16 (trim (((fromUtf8Lossy frame).splitOn '\n').headD []))

/-- The head frame that a step builds a response from. -/
def headRead (world : World) : Label → Option Bytes
  | .responseHead _ _ none none => world.inbound.head?
  | _ => none

/-- A head frame that a response is built from has a status code of HTTP. -/
def HeadInRange (world : World) (label : Label) : Prop :=
  ∀ frame ∈ headRead world label, ∀ statusCode ∈ writtenStatus frame, IsStatusCode statusCode

instance (world : World) (label : Label) : Decidable (HeadInRange world label) :=
  @Option.decidableForallMem _ _ (fun frame => Option.decidableForallMem (writtenStatus frame))
    (headRead world label)

/-! ## What a step does to the statuses -/

variable {world next : World} {label : Label}

theorem validStatuses_of_eq {host after : WasiHttpHost} (hsame : after.responses = host.responses)
    (hvalid : ValidStatuses host) : ValidStatuses after := by
  intro rep data hget
  rw [hsame] at hget
  exact hvalid rep data hget

/-- Inserting a response: the table stays valid exactly if the new one is. -/
theorem validStatuses_insert_iff {host after : WasiHttpHost} {data : ResponseData}
    (hafter : after.responses = (host.responses.insert data).2) (hvalid : ValidStatuses host) :
    ValidStatuses after ↔ IsStatusCode data.statusCode := by
  constructor
  · intro hnew
    exact hnew host.responses.next data (by rw [hafter, Table.get_insert_self])
  · intro hdata rep found hget
    rw [hafter] at hget
    obtain ⟨-, rfl⟩ | hbefore := Table.eq_or_get_of_get_insert hget
    · exact hdata
    · exact hvalid rep found hbefore

/-- Changing a response in place, to a valid status or without touching it. -/
theorem validStatuses_modify {host after : WasiHttpHost} {rep : Rep}
    {change : ResponseData → ResponseData}
    (hafter : after.responses = host.responses.modify rep change)
    (hchange : ∀ data, IsStatusCode data.statusCode → IsStatusCode (change data).statusCode)
    (hvalid : ValidStatuses host) : ValidStatuses after := by
  intro other found hget
  rw [hafter] at hget
  obtain ⟨before, hbefore, rfl | rfl⟩ := Table.exists_get_of_get_modify hget
  · exact hvalid other found hbefore
  · exact hchange before (hvalid other before hbefore)

theorem validStatuses_remove {host after : WasiHttpHost} {rep : Rep}
    (hafter : after.responses = host.responses.remove rep) (hvalid : ValidStatuses host) :
    ValidStatuses after := by
  intro other found hget
  rw [hafter] at hget
  exact hvalid other found (Table.get_of_get_remove hget)

/-- A status that is refused leaves the state as it is; another one is in range. -/
theorem setStatusCode_cases (host : WasiHttpHost) (rep : Rep) (statusCode : UInt16) :
    (HostResponse.setStatusCode host rep statusCode = (.error (), host)) ∨
      IsStatusCode statusCode ∧
        HostResponse.setStatusCode host rep statusCode =
          (.ok (), { host with
            responses := host.responses.modify rep fun data => { data with statusCode } }) := by
  unfold HostResponse.setStatusCode
  by_cases hrange : 100 ≤ statusCode ∧ statusCode ≤ 599
  · rw [if_neg (not_not_intro hrange)]
    cases host.responses.get rep with
    | none => exact .inl rfl
    | some data => exact .inr ⟨hrange, rfl⟩
  · rw [if_pos hrange]
    exact .inl rfl

/-- A response is built with the status of the head, unless a mint fails. -/
theorem buildResponse_responses (host : WasiHttpHost) (head : ResponseHead) (inbound : P3sIn)
    (bodyFault trailersFault : Option Text) :
    ((bodyFault.isSome = true ∨ trailersFault.isSome = true) ∧
        (buildResponse host head inbound bodyFault trailersFault).2.responses = host.responses) ∨
      bodyFault = none ∧ trailersFault = none ∧ ∃ data,
        data.statusCode = head.statusCode ∧
        (buildResponse host head inbound bodyFault trailersFault).2.responses =
          (host.responses.insert data).2 := by
  unfold buildResponse
  cases bodyFault with
  | some message => cases head.trailers <;> exact .inl ⟨.inl rfl, rfl⟩
  | none =>
      cases trailersFault with
      | some message => cases head.trailers <;> exact .inl ⟨.inr rfl, rfl⟩
      | none => cases head.trailers <;> exact .inr ⟨rfl, rfl, _, rfl, rfl⟩

theorem parseResponseLine_statusCode (head : ResponseHead) (line : Text) :
    (parseResponseLine head line).statusCode = head.statusCode := by
  unfold parseResponseLine
  split
  · rfl
  · split
    · rfl
    · dsimp only
      split <;> rfl

theorem foldl_parseResponseLine_statusCode (lines : List Text) (head : ResponseHead) :
    (lines.foldl parseResponseLine head).statusCode = head.statusCode := by
  induction lines generalizing head with
  | nil => rfl
  | cons line rest ih => rw [List.foldl_cons, ih, parseResponseLine_statusCode]

/-- A head frame is accepted with the number in its first line, and refused where
there is none. -/
theorem parseResponseHead_statusCode (shown : Text) (frame : Bytes) :
    (∃ error, parseResponseHead shown frame = .error error ∧ writtenStatus frame = none) ∨
      ∃ head, parseResponseHead shown frame = .ok head ∧
        writtenStatus frame = some head.statusCode := by
  simp only [parseResponseHead, writtenStatus]
  cases parseU16 (trim (((fromUtf8Lossy frame).splitOn '\n').headD [])) with
  | none => exact .inl ⟨_, rfl, rfl⟩
  | some statusCode =>
      refine .inr ⟨_, rfl, ?_⟩
      rw [foldl_parseResponseLine_statusCode]

theorem headRead_subset {index : Nat} {shown : Text} {bodyFault trailersFault : Option Text}
    {frame : Bytes}
    (hframe : frame ∈ headRead world (.responseHead index shown bodyFault trailersFault)) :
    frame ∈ world.inbound.head? := by
  cases bodyFault with
  | some message => cases hframe
  | none =>
      cases trailersFault with
      | some message => cases hframe
      | none => exact hframe

theorem headRead_fault {index : Nat} {shown : Text} {bodyFault trailersFault : Option Text}
    (hfault : bodyFault.isSome = true ∨ trailersFault.isSome = true) :
    headRead world (.responseHead index shown bodyFault trailersFault) = none := by
  cases bodyFault with
  | some message => rfl
  | none =>
      cases trailersFault with
      | some message => rfl
      | none => simp at hfault

/-- The statuses through the label that may build a response from a head frame. -/
theorem validStatuses_responseHead_iff {index : Nat} {shown : Text}
    {bodyFault trailersFault : Option Text} (hvalid : ValidStatuses world.host)
    (hstep : world.step (.responseHead index shown bodyFault trailersFault) = some next) :
    ValidStatuses next.host ↔
      HeadInRange world (.responseHead index shown bodyFault trailersFault) := by
  obtain ⟨call, -, -, hreceive⟩ := World.responseHead_step hstep
  rcases World.receiveHeadAt_cases hreceive with
    ⟨hrefused, error, inbound, rfl⟩ | ⟨frame, rest, head, built, hinbound, hparse, rfl, rfl⟩
  · refine iff_of_true hvalid ?_
    intro frame hframe statusCode hstatus
    obtain ⟨refusal, hrefusal⟩ := hrefused frame (headRead_subset hframe)
    rcases parseResponseHead_statusCode shown frame with ⟨-, -, hnone⟩ | ⟨head, hok, -⟩
    · rw [hnone] at hstatus
      cases hstatus
    · rw [hrefusal] at hok
      cases hok
  · have hwritten : writtenStatus frame = some head.statusCode := by
      rcases parseResponseHead_statusCode shown frame with ⟨error, herror, -⟩ | ⟨other, hok, hwritten⟩
      · rw [hparse] at herror
        cases herror
      · obtain rfl := Except.ok.inj (hparse.symm.trans hok)
        exact hwritten
    rw [World.deliver_host]
    rcases buildResponse_responses world.host head .receiver bodyFault trailersFault with
      ⟨hfault, hsame⟩ | ⟨rfl, rfl, data, hdata, hinserted⟩
    · refine iff_of_true (validStatuses_of_eq hsame hvalid) ?_
      intro frame hframe
      rw [headRead_fault hfault] at hframe
      cases hframe
    · rw [World.progress, validStatuses_insert_iff hinserted hvalid, hdata]
      simp [HeadInRange, headRead, hinbound, hwritten]

/-- The statuses through a call: it is sent over the transport, or answered with a
response of status 200. -/
theorem validStatuses_handle {request : Rep} {fault trailersFault : Option Text}
    (hvalid : ValidStatuses world.host)
    (hstep : world.step (.handle request fault trailersFault) = some next) :
    ValidStatuses next.host := by
  simp only [World.step, World.whenOwned_eq_some] at hstep
  obtain ⟨-, rfl⟩ := hstep
  unfold World.startHandle
  simp only [World.loseRequest]
  cases htransport : world.host.transport with
  | some transport =>
      rcases startCall_tables world.host request fault with hsame | hsame
      · exact validStatuses_of_eq hsame.responses hvalid
      · exact validStatuses_of_eq hsame.responses hvalid
  | none =>
      rw [World.deliver_host]
      unfold handleSynthetic
      cases world.host.requests.get request with
      | none => exact hvalid
      | some req =>
          cases fault with
          | some message => exact hvalid
          | none =>
              cases trailersFault with
              | some message => exact hvalid
              | none => exact (validStatuses_insert_iff rfl hvalid).mpr isStatusCode_ok

/-- One step keeps the statuses valid exactly if no head frame breaks them. -/
theorem validStatuses_step_iff (hvalid : ValidStatuses world.host)
    (hstep : world.step label = some next) : ValidStatuses next.host ↔ HeadInRange world label := by
  cases label
  case responseHead index shown bodyFault trailersFault =>
      exact validStatuses_responseHead_iff hvalid hstep
  all_goals refine iff_of_true ?_ nofun
  case handle request fault trailersFault => exact validStatuses_handle hvalid hstep
  case bodyBatch index chunk =>
      obtain ⟨call, trailers, -, -, rfl⟩ := World.bodyBatch_step hstep
      exact validStatuses_of_eq (sameTables_receiveBatch world.host call chunk).responses hvalid
  case bodyEnd index fault =>
      obtain ⟨call, trailers, -, -, rfl⟩ := World.bodyEnd_step hstep
      exact validStatuses_of_eq (sameTables_enterTrailers world.host call trailers fault).responses
        hvalid
  case trailersResolved index resolved =>
      obtain ⟨call, taken, -, -, htaken, rfl⟩ := World.trailersResolved_step hstep
      exact validStatuses_of_eq (sameTables_receiveTrailers world.host call resolved).responses
        hvalid
  all_goals simp only [World.step, World.whenOwned_eq_some, Option.some.injEq] at hstep
  case responseSetStatusCode rep statusCode =>
      obtain ⟨-, rfl⟩ := hstep
      rcases setStatusCode_cases world.host rep statusCode with hrefused | ⟨hrange, hset⟩
      · exact validStatuses_of_eq (by rw [World.withHost, hrefused]) hvalid
      · rw [World.withHost, hset]
        exact validStatuses_modify rfl (fun _ _ => hrange) hvalid
  case responseNew headers contents trailers =>
      obtain ⟨-, rfl⟩ := hstep
      exact (validStatuses_insert_iff rfl hvalid).mpr isStatusCode_ok
  case responseConsumeBody rep =>
      obtain ⟨-, rfl⟩ := hstep
      exact validStatuses_modify rfl (fun _ hdata => hdata) hvalid
  case responseDrop rep =>
      obtain ⟨-, rfl⟩ := hstep
      exact validStatuses_remove rfl hvalid
  case fieldsNew => exact validStatuses_of_eq (by rw [← hstep]; rfl) hvalid
  case fieldsFromList entries => exact validStatuses_of_eq (by rw [← hstep]; rfl) hvalid
  case optionsNew => exact validStatuses_of_eq (by rw [← hstep]; rfl) hvalid
  case push chunk => exact validStatuses_of_eq (by rw [← hstep]) hvalid
  case pushEnd => exact validStatuses_of_eq (by rw [← hstep]) hvalid
  all_goals
    obtain ⟨howned, rfl⟩ := hstep
    refine validStatuses_of_eq ?_ hvalid
  case fieldsChange rep change => rw [World.withHost, change.apply_only]
  case requestChange rep change => rw [World.withHost, change.apply_only]
  case optionsChange rep change => rw [World.withHost, change.apply_only]
  case requestGetOptions rep =>
      simp only [HostRequest.getOptions]
      cases (world.host.requests.get rep).bind RequestData.options <;> rfl
  all_goals rfl

/-! ## Runs -/

/-- The responses have valid statuses, and a status change that is refused leaves
everything as it is. -/
structure KeepsStatuses (world : World) : Prop where
  valid : ValidStatuses world.host
  refused : ∀ rep statusCode next,
    (HostResponse.setStatusCode world.host rep statusCode).1 = .error () →
      world.step (.responseSetStatusCode rep statusCode) = some next → next = world

theorem refused_setStatusCode {rep : Rep} {statusCode : UInt16}
    (hrefused : (HostResponse.setStatusCode world.host rep statusCode).1 = .error ())
    (hstep : world.step (.responseSetStatusCode rep statusCode) = some next) : next = world := by
  simp only [World.step, World.whenOwned_eq_some] at hstep
  obtain ⟨-, rfl⟩ := hstep
  rcases setStatusCode_cases world.host rep statusCode with hsame | ⟨-, hset⟩
  · rw [World.withHost, hsame]
  · rw [hset] at hrefused
    cases hrefused

theorem keepsStatuses_iff (world : World) : KeepsStatuses world ↔ ValidStatuses world.host := by
  constructor
  · intro hkeeps
    exact hkeeps.valid
  · intro hvalid
    exact ⟨hvalid, fun _ _ _ => refused_setStatusCode⟩

/-- In a session every state has valid statuses exactly if every head frame that a
response is built from has one. -/
theorem keepsStatuses_iff_headInRange {transport : Option HttpTransport} {labels : List Label}
    {final : World} (hrun : run World.step (World.start { transport }) labels = some final) :
    (∀ past middle, past <+: labels →
        run World.step (World.start { transport }) past = some middle → KeepsStatuses middle) ↔
      EachStep World.step HeadInRange (World.start { transport }) labels := by
  simp only [keepsStatuses_iff]
  refine @forall_prefix_iff_eachStep _ _ _ (fun world => ValidStatuses world.host) HeadInRange
    (fun _ _ _ => validStatuses_step_iff) _ final labels ?_ hrun
  intro rep data hget
  cases hget

/-- A call without a body, up to its response head. -/
def exampleCall (head : Bytes) : List Label :=
  [.fieldsNew, .requestNew 1 none (.guest 0) none, .handle 1 none none,
    .trailersResolved 0 none, .push head, .responseHead 0 [] none none]

/-- A response with status 204. -/
theorem keepsStatuses_iff_headInRange_example :
    ∃ final, run World.step (World.start .withTransport) (exampleCall (asBytes "204".toList)) =
        some final ∧ KeepsStatuses final := by
  refine ⟨_, rfl, ?_⟩
  exact (@keepsStatuses_iff_headInRange (some {}) (exampleCall (asBytes "204".toList)) _ rfl).mpr
    (by decide) _ _ (List.prefix_refl _) rfl

/-- The guest holds a response with status 999. -/
theorem not_validStatuses_of_head :
    ∃ final, run World.step (World.start .withTransport) (exampleCall (asBytes "999".toList)) =
        some final ∧ final.guest.responses = [1] ∧
      HostResponse.getStatusCode final.host 1 = 999 ∧ ¬KeepsStatuses final := by
  refine ⟨_, rfl, rfl, rfl, ?_⟩
  intro hkeeps
  exact absurd (hkeeps.valid 1 _ rfl) (by decide)

end HellohqRuntime.Http.StatusCodes

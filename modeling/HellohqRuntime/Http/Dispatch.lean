import HellohqRuntime.Bridge.Delivery
import HellohqRuntime.Http.Reassembly

/-!
# A request on its way to the app

A call of `handle` emits its request on the streaming bridge, the app drains it with
polls and reassembles it with the reference parser.  What the app reads of the request
is its method and URI, the headers that may be sent and the timeouts; of the body and
the trailers it reads what the call received while it drained the one and waited for
the other.
-/

namespace HellohqRuntime.Http.Dispatch

open HellohqRuntime.Foundation.Runs
open HellohqRuntime.Foundation.Strings
open HellohqRuntime.Foundation.Utf8
open HellohqRuntime.Bridge.Delivery
open HellohqRuntime.Bridge.Stream
open HellohqRuntime.Http.Frames
open HellohqRuntime.Http.Handle
open HellohqRuntime.Http.Head
open HellohqRuntime.Http.OutLog
open HellohqRuntime.Http.Reassembly
open HellohqRuntime.Http.Resources
open HellohqRuntime.Http.System
open HellohqRuntime.Http.Trailers
open HellohqRuntime.Http.Types

/-! ## The head of a request -/

/-- The timeouts of a request, under the keys of the options line. -/
def timeouts (parts : RequestParts) : List (Text × Duration) := setTimeouts (parts.options.getD {})

/-- A head that reads back as the parts of a request. -/
def ReadsBack (parts : RequestParts) (head : Bytes) : Prop :=
  ∃ optionFields,
    readHead head = some
      { method := parts.method
        uri := requestUri parts.scheme parts.authority parts.path
        fields := (parts.headers.filter (IsSentHeader ·)).map
          (fun header => (header.1, fromUtf8Lossy header.2)) ++ optionFields } ∧
    if timeouts parts = [] then optionFields = []
    else ∃ value, optionFields = [(REQUEST_OPTIONS_HEAD_KEY, value)] ∧
      readTimeouts value =
        some ((timeouts parts).map fun timeout => (timeout.1, timeout.2.toNat))

/-- A head is encoded only of a token and of parts that fit a request line. -/
theorem safe_of_encoded {method scheme authority path : Text}
    {headers : List (FieldName × FieldValue)} {optionsLine : Option Text} {head : Bytes}
    (hhead : encodeRequestHead method scheme authority path headers optionsLine = .ok head) :
    isHttpToken method = true ∧ isRequestLineSafe scheme = true ∧
      isRequestLineSafe authority = true ∧ isRequestLineSafe path = true := by
  rw [encodeRequestHead] at hhead
  split at hhead
  · cases hhead
  · split at hhead
    · cases hhead
    · rename_i hmethod hparts
      simp only [Bool.or_eq_true, Bool.not_eq_true', not_or, Bool.not_eq_false] at hmethod hparts
      exact ⟨hmethod, hparts.1.1, hparts.1.2, hparts.2⟩

/-- No options are read as options without timeouts. -/
theorem optionsLine_eq (options : Option RequestOptionsData) :
    options.bind formatRequestOptionsLine = formatRequestOptionsLine (options.getD {}) := by
  cases options with
  | none => rfl
  | some opts => rfl

theorem readsBack_of_requestHead {host : WasiHttpHost} {request : Rep} {parts : RequestParts}
    {head : Bytes} (hparts : requestParts host request = some parts)
    (hhead : requestHead host request = .ok head) : ReadsBack parts head := by
  rw [requestHead, hparts] at hhead
  obtain ⟨hmethod, hscheme, hauthority, hpath⟩ := safe_of_encoded hhead
  obtain ⟨optionFields, hoptions, hvalue⟩ := mapM_optionsLine (parts.options.getD {})
  simp only [optionsLine_eq] at hhead
  rw [encodeRequestHead_ok (isHttpToken_iff.mp hmethod) hscheme hauthority hpath] at hhead
  obtain rfl := Except.ok.inj hhead
  refine ⟨optionFields, ?_, hvalue⟩
  refine readHead_lines (not_mem_of_isHttpToken hmethod (by decide))
    (not_mem_of_isHttpToken hmethod (by decide)) (not_mem_requestUri hscheme hauthority hpath)
    (fun line => not_mem_headLines) ?_
  rw [List.mapM_append, mapM_headerLines, hoptions]
  rfl

/-! ## The frames the app has seen -/

/-- An OUT event as the polls surface it. -/
def surfacing : OutEvent → Option Bytes
  | .out frame => some frame
  | .outEnd => none

/-- The frames drained before OUT_END. -/
def drained : List (Option Bytes) → List Bytes
  | some frame :: rest => frame :: drained rest
  | _ => []

/-- Once OUT_END has surfaced, the frames before it are all there. -/
theorem drained_eq_framesBeforeEnd {seen : List (Option Bytes)} {events : List OutEvent}
    (hseen : seen <+: events.map surfacing) (hended : none ∈ seen) :
    drained seen = framesBeforeEnd events := by
  induction events generalizing seen with
  | nil =>
      rw [List.map_nil, List.prefix_nil] at hseen
      simp [hseen] at hended
  | cons event rest ih =>
      cases seen with
      | nil => cases hended
      | cons first more =>
          obtain ⟨rfl, hmore⟩ := List.cons_prefix_cons.mp hseen
          cases event with
          | outEnd => rfl
          | out frame =>
              have hlater : none ∈ more := by simpa [surfacing] using hended
              rw [surfacing, drained, framesBeforeEnd, ih hmore hlater]

/-! ## A lone call -/

variable {before started final : World} {head : Bytes} {past rest : List System.Label}
variable {request : Rep} {fault trailersFault : Option Text}

/-- What the app has of a request once OUT_END was told: the parts of the head, the batches
that were drained and the trailers that the wait gave. -/
def Dispatched (parts : RequestParts) (body : List Bytes)
    (entries : Option (List (FieldName × FieldValue))) (frames : List Bytes) : Prop :=
  ∃ head trailers, parseRequestFrames frames = .ok { head, body := body.flatten, trailers } ∧
    ReadsBack parts head ∧ CarriesTrailers entries trailers

/-- Over a bridge that carries what the host sends, the app reads the head of a lone call
as the guest made it, and of body and trailers what the call received, whatever the order
of polls, pushes and emissions. -/
theorem dispatched_of_run {parts : RequestParts} {labels : List Bridge.Stream.Label} {bridge : P3sRun}
    (hpast : run World.step (World.start .withTransport) past = some before)
    (hparts : requestParts before.host request = some parts)
    (hhead : requestHead before.host request = .ok head)
    (hhandle : before.step (.handle request fault trailersFault) = some started)
    (hrest : run World.step started rest = some final)
    (halone : ∀ label ∈ past ++ rest, isHandle label = false)
    (hstream : run P3sRun.step {} labels = some bridge)
    (hcarried : emitted labels = (sent final).map surfacing)
    (hended : none ∈ surfacedBy {} labels) :
    Dispatched parts (rest.filterMap batchOf) (trailersAlong none started rest)
      (drained (surfacedBy {} labels)) := by
  obtain ⟨-, hflow⟩ := surfacedBy_append_queuedOut flowing_start hstream
  obtain ⟨call, hlogged, hbatches, htrailers⟩ := exists_logged hpast hhead hhandle hrest halone
  have hseen : surfacedBy {} labels <+: (sent final).map surfacing :=
    hcarried ▸ ⟨queuedOut bridge, hflow⟩
  refine ⟨head, _, ?_, readsBack_of_requestHead hparts hhead, carriesTrailers_format _⟩
  rw [drained_eq_framesBeforeEnd hseen hended, framesBeforeEnd_logged hlogged,
    parseRequestFrames_callFrames, hbatches, htrailers]

def examplePast : List System.Label :=
  [.fieldsFromList [("x-a".toList, [0x31]), ("x a".toList, [0x32])], .optionsNew,
    .optionsChange 1 (.connectTimeout (some 5)), .requestNew 1 (some (.guest 0)) (.guest 1) (some 1),
    .requestChange 1 (.method .post)]

def exampleRest : List System.Label :=
  [.bodyBatch 0 [0x61], .bodyEnd 0 none, .trailersResolved 0 (some (.ok (.ok none)))]

/-- The head, a body frame and the end, polled while the worker still emits. -/
def exampleLabels (head : Bytes) : List Bridge.Stream.Label :=
  [.chunk (encode .head head), .poll, .push [0x30], .chunk (encode .body [0x61]), .endOut, .poll, .poll]

def exampleHead : Bytes :=
  asBytes "POST https:///\nx-a: 1\nx-hellohq-request-options: connect=5".toList

theorem dispatched_of_run_example :
    ∃ before parts started final bridge,
      run World.step (World.start .withTransport) examplePast = some before ∧
      requestParts before.host 1 = some parts ∧
      before.step (.handle 1 none none) = some started ∧
      run World.step started exampleRest = some final ∧
      run P3sRun.step {} (exampleLabels exampleHead) = some bridge ∧
      Dispatched parts (exampleRest.filterMap batchOf) (trailersAlong none started exampleRest)
        (drained (surfacedBy {} (exampleLabels exampleHead))) := by
  refine ⟨_, _, _, _, _, rfl, rfl, rfl, rfl, rfl, ?_⟩
  exact @dispatched_of_run _ _ _ exampleHead examplePast exampleRest 1 none none _ _ _ rfl rfl
    (by decide) rfl rfl (by decide) rfl (by decide) (by decide)

end HellohqRuntime.Http.Dispatch

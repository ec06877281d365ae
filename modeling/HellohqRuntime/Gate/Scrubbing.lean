import HellohqRuntime.Gate.GatedHooks

/-!
# The text in a guest's errors

An error of the sender reaches the guest as the result of the send, as a frame of
the response body, or as the outcome of the connection.  All three go through one
scrubber.  It names three of the kinds that carry a text; the errors about the
size of a field and about a coding pass it as they are.
-/

namespace HellohqRuntime.Gate.Scrubbing

open HellohqRuntime.Foundation.Strings
open HellohqRuntime.Http.Types
open HellohqRuntime.Gate.GatedHooks

/-! ## What an error says -/

/-- The texts in the payload of an error code. -/
def codeTexts : ErrorCode → List Text
  | .dnsError payload => payload.rcode.toList
  | .tlsAlertReceived payload => payload.alertMessage.toList
  | .httpRequestHeaderSize field => (field.bind FieldSizePayload.fieldName).toList
  | .httpRequestTrailerSize field | .httpResponseHeaderSize field
  | .httpResponseTrailerSize field => field.fieldName.toList
  | .httpResponseTransferCoding coding | .httpResponseContentCoding coding => coding.toList
  | .internalError message => message.toList
  | _ => []

/-- An error code with its kind and its numbers only. -/
def withoutTexts : ErrorCode → ErrorCode
  | .dnsError payload => .dnsError { payload with rcode := none }
  | .tlsAlertReceived payload => .tlsAlertReceived { payload with alertMessage := none }
  | .httpRequestHeaderSize field =>
      .httpRequestHeaderSize (field.map fun size => { size with fieldName := none })
  | .httpRequestTrailerSize field => .httpRequestTrailerSize { field with fieldName := none }
  | .httpResponseHeaderSize field => .httpResponseHeaderSize { field with fieldName := none }
  | .httpResponseTrailerSize field => .httpResponseTrailerSize { field with fieldName := none }
  | .httpResponseTransferCoding _ => .httpResponseTransferCoding none
  | .httpResponseContentCoding _ => .httpResponseContentCoding none
  | .internalError _ => .internalError none
  | code => code

/-- The texts of an error that a guest can read.  The text of a failed connect is
never shown. -/
def texts : HttpError → List Text
  | .code code => codeTexts code
  | .connect _ => []

/-- The kind of an error with its numbers.  A connect that failed to find the
address is a DNS error that says nothing more. -/
def kindOf : HttpError → HttpError
  | .code code => .code (withoutTexts code)
  | .connect e =>
      if isDnsLikeConnectError e then .code (.dnsError { rcode := none, infoCode := none })
      else .connect e

/-- Nothing but the texts is taken off a code, and all of them are. -/
theorem withoutTexts_eq_self_iff {code : ErrorCode} :
    withoutTexts code = code ↔ codeTexts code = [] := by
  cases code with
  | dnsError payload =>
      obtain ⟨rcode, infoCode⟩ := payload
      cases rcode <;> simp [withoutTexts, codeTexts]
  | tlsAlertReceived payload =>
      obtain ⟨alertId, alertMessage⟩ := payload
      cases alertMessage <;> simp [withoutTexts, codeTexts]
  | httpRequestHeaderSize field =>
      rcases field with _ | ⟨fieldName, fieldSize⟩
      · simp [withoutTexts, codeTexts]
      · cases fieldName <;> simp [withoutTexts, codeTexts]
  | httpRequestTrailerSize field | httpResponseHeaderSize field | httpResponseTrailerSize field =>
      obtain ⟨fieldName, fieldSize⟩ := field
      cases fieldName <;> simp [withoutTexts, codeTexts]
  | httpResponseTransferCoding coding | httpResponseContentCoding coding =>
      cases coding <;> simp [withoutTexts, codeTexts]
  | internalError message => cases message <;> simp [withoutTexts, codeTexts]
  | _ => simp [withoutTexts, codeTexts]

/-- The error is about the size of a field and names the field, or about a coding
and names the coding. -/
def namesFieldOrCoding : HttpError → Bool
  | .code (.httpRequestHeaderSize field) => (field.bind FieldSizePayload.fieldName).isSome
  | .code (.httpRequestTrailerSize field) | .code (.httpResponseHeaderSize field)
  | .code (.httpResponseTrailerSize field) => field.fieldName.isSome
  | .code (.httpResponseTransferCoding coding) | .code (.httpResponseContentCoding coding) =>
      coding.isSome
  | _ => false

/-! ## One error -/

/-- The returned error is the produced one with its kind, its numbers and no text. -/
structure Scrubbed (produced returned : HttpError) : Prop where
  textless : texts returned = []
  kind : kindOf returned = kindOf produced

/-- The scrubber keeps the kind and the numbers of every error. -/
theorem kindOf_scrubError (err : HttpError) : kindOf (scrubError err) = kindOf err := by
  cases err with
  | connect e =>
      by_cases hdns : isDnsLikeConnectError e = true
      · simp [scrubError, kindOf, withoutTexts, hdns]
      · simp [scrubError, kindOf, hdns]
  | code code => cases code <;> rfl

/-- It leaves a text in the errors that name a field or a coding. -/
theorem texts_scrubError_iff (err : HttpError) :
    texts (scrubError err) = [] ↔ namesFieldOrCoding err = false := by
  cases err with
  | connect e =>
      by_cases hdns : isDnsLikeConnectError e = true
      · simp [scrubError, texts, codeTexts, namesFieldOrCoding, hdns]
      · simp [scrubError, texts, namesFieldOrCoding, hdns]
  | code code => cases code <;> simp [scrubError, texts, codeTexts, namesFieldOrCoding]

theorem scrubbed_scrubError_iff (err : HttpError) :
    Scrubbed err (scrubError err) ↔ namesFieldOrCoding err = false := by
  constructor
  · intro hscrubbed
    exact (texts_scrubError_iff err).mp hscrubbed.textless
  · intro hnames
    exact ⟨(texts_scrubError_iff err).mpr hnames, kindOf_scrubError err⟩

/-! ## The three channels -/

variable {α ResponseParts Frame : Type}

/-- A value is handed on; an error loses its text. -/
inductive ScrubbedOutcome : Except HttpError α → Except HttpError α → Prop where
  | ok (value : α) : ScrubbedOutcome (.ok value) (.ok value)
  | error {err scrubbed : HttpError} (hscrubbed : Scrubbed err scrubbed) :
      ScrubbedOutcome (.error err) (.error scrubbed)

/-- Every error of a send loses its text: the result, each frame of the body at its
place, and the outcome of the connection. -/
inductive ScrubbedSend : SendResult ResponseParts Frame → SendResult ResponseParts Frame → Prop where
  | error {err scrubbed : HttpError} (hscrubbed : Scrubbed err scrubbed) :
      ScrubbedSend (.error err) (.error scrubbed)
  | ok {response cut : Response ResponseParts Frame} {io cutIo : Except HttpError Unit}
      (hbody : List.Forall₂ ScrubbedOutcome response.body cut.body)
      (hio : ScrubbedOutcome io cutIo) :
      ScrubbedSend (.ok (response, io)) (.ok (cut, cutIo))

/-- The error of an outcome. -/
def errorOf : Except HttpError α → Option HttpError
  | .ok _ => none
  | .error err => some err

/-- The errors of a send, on all three channels. -/
def errorsOf : SendResult ResponseParts Frame → List HttpError
  | .error err => [err]
  | .ok (response, io) => response.body.filterMap errorOf ++ (errorOf io).toList

theorem scrubbedOutcome_mapError_iff (outcome : Except HttpError α) :
    ScrubbedOutcome outcome (outcome.mapError scrubError) ↔
      ∀ err ∈ errorOf outcome, namesFieldOrCoding err = false := by
  cases outcome with
  | ok value =>
      constructor
      · intro _ err herr
        cases herr
      · intro _
        exact .ok value
  | error err =>
      constructor
      · intro hscrubbed found hfound
        cases hscrubbed with
        | error hscrubbed =>
            obtain rfl := Option.some.inj hfound
            exact (scrubbed_scrubError_iff err).mp hscrubbed
      · intro hnames
        exact .error ((scrubbed_scrubError_iff err).mpr (hnames err rfl))

theorem forall₂_mapError_iff (body : List (Except HttpError Frame)) :
    List.Forall₂ ScrubbedOutcome body (body.map fun frame => frame.mapError scrubError) ↔
      ∀ err ∈ body.filterMap errorOf, namesFieldOrCoding err = false := by
  induction body with
  | nil => simp
  | cons frame rest ih =>
      rw [List.map_cons, List.forall₂_cons, scrubbedOutcome_mapError_iff, ih]
      cases frame with
      | ok value => simp [errorOf]
      | error err => simp [errorOf]

/-- A guest reads no text of the sender's exactly where no error of the sender, on
any channel, names a field or a coding. -/
theorem scrubbedSend_sanitizeSend_iff (produced : SendResult ResponseParts Frame) :
    ScrubbedSend produced (sanitizeSend produced) ↔
      ∀ err ∈ errorsOf produced, namesFieldOrCoding err = false := by
  cases produced with
  | error err =>
      rw [errorsOf, List.forall_mem_singleton, ← scrubbed_scrubError_iff]
      constructor
      · intro hsend
        cases hsend with
        | error hscrubbed => exact hscrubbed
      · intro hscrubbed
        exact .error hscrubbed
  | ok result =>
      obtain ⟨response, io⟩ := result
      have hchannels : (∀ err ∈ errorsOf (.ok (response, io)), namesFieldOrCoding err = false) ↔
          List.Forall₂ ScrubbedOutcome response.body
              (response.body.map fun frame => frame.mapError scrubError) ∧
            ScrubbedOutcome io (io.mapError scrubError) := by
        rw [errorsOf, List.forall_mem_append, forall₂_mapError_iff, scrubbedOutcome_mapError_iff]
        simp
      rw [hchannels]
      constructor
      · intro hsend
        cases hsend with
        | ok hbody hio => exact ⟨hbody, hio⟩
      · rintro ⟨hbody, hio⟩
        exact .ok hbody hio

def leakyError : HttpError :=
  .code (.httpResponseContentCoding (some "https://a.example/?token=t".toList))

/-- A send that ends in an error with a coding in it. -/
def leakySend : SendResult Unit Bytes := .error leakyError

/-- The text of an error about the response's coding reaches the guest. -/
theorem not_scrubbedSend_of_coding :
    ¬ScrubbedSend leakySend (sanitizeSend leakySend) ∧
      texts (scrubError leakyError) = ["https://a.example/?token=t".toList] := by
  refine ⟨?_, rfl⟩
  intro hsend
  cases hsend with
  | error hscrubbed => cases hscrubbed.textless

end HellohqRuntime.Gate.Scrubbing

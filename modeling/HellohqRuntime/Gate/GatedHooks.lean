import Mathlib
import HellohqRuntime.Gate.FetchGate
import HellohqRuntime.Gate.RequestPolicy

/-!
# The gated `wasi:http@0.2` hooks

Every outbound request of a guest passes the gate, loses the headers a plugin may
not set, goes to the injected sender, and its response comes back without cookies
and without free text in its errors.  The sender is any function with a state of
its own.
-/

namespace HellohqRuntime.Gate.GatedHooks

open HellohqRuntime.Foundation.Buckets
open HellohqRuntime.Foundation.Strings
open HellohqRuntime.Gate.Address
open HellohqRuntime.Gate.FetchGate
open HellohqRuntime.Gate.RequestPolicy
open HellohqRuntime.Http.Types

/-! ## Requests, responses and errors -/

/-- An outbound request: the URI's scheme and host, the headers, and the parts the
hooks only pass on. -/
structure Request (Parts : Type) where
  scheme : Option Text
  host : Option Text
  headers : HeaderMap
  parts : Parts

inductive IoErrorKind where
  | addrNotAvailable | other
  deriving DecidableEq, Repr

structure IoError where
  kind : IoErrorKind
  message : Text
  deriving DecidableEq, Repr

/-- The embedder's error: one of the guest's error codes, or a failed connect. -/
inductive HttpError where
  | code (code : ErrorCode)
  | connect (error : IoError)
  deriving DecidableEq, Repr

/-- A response: its headers, the frames of its body, and the parts the hooks only
pass on. -/
structure Response (Parts Frame : Type) where
  headers : HeaderMap
  body : List (Except HttpError Frame)
  parts : Parts

/-- The outcome of a send: a response with the outcome of its connection. -/
abbrev SendResult (Parts Frame : Type) :=
  Except HttpError (Response Parts Frame × Except HttpError Unit)

variable {σ RequestParts Options ResponseParts Frame : Type}

/-- The injected sender, with its state. -/
abbrev SendFn (σ RequestParts Options ResponseParts Frame : Type) :=
  σ → Request RequestParts → Option Options → SendResult ResponseParts Frame × σ

structure GatedHttpHooks (σ : Type) where
  allowlist : List Text
  /-- The state of the sender. -/
  send : σ
  /-- A `usize`; that it wraps at 2^64 is left out. -/
  droppedRequestHeaders : Nat := 0
  deriving DecidableEq

def GatedHttpHooks.withSender (allowlist : List Text) (send : σ) : GatedHttpHooks σ :=
  { allowlist, send }

/-! ## The steps of a send -/

/-- All denials look the same to the guest. -/
def denialToError (_denial : FetchDenial) : HttpError := .code .httpRequestDenied

def gate (hooks : GatedHttpHooks σ) (request : Request RequestParts) : Except HttpError Unit :=
  let scheme := request.scheme.getD []
  let host := request.host.getD []
  match checkRequest scheme host hooks.allowlist with
  | .error denial => .error (denialToError denial)
  | .ok () =>
      if request.headers.keys.any fun name => isReservedCredentialHeader name.text then
        .error (denialToError .credentialUnsupportedTransport)
      else .ok ()

/-- Drop the headers a plugin may not set, and count the values. -/
def retainAllowedRequestHeaders (headers : HeaderMap) : Nat × HeaderMap :=
  headers.removeAll (headers.keys.filter fun name => !isAllowedRequestHeader name.text)

/-- Remove the values of the name with a text. -/
def removeText (headers : HeaderMap) (text : Text) : HeaderMap :=
  match headers.keys.find? fun name => name.text = text with
  | none => headers
  | some name => headers.remove name

def stripResponseHeaders (headers : HeaderMap) : HeaderMap :=
  STRIPPED_RESPONSE_HEADERS.foldl removeText headers

def isDnsLikeConnectError (e : IoError) : Bool :=
  e.kind = .addrNotAvailable || "failed to lookup address information".toList.isPrefixOf e.message

/-- Blank the free text of an error; its kind stays. -/
def scrubError : HttpError → HttpError
  | .code (.internalError _) => .code (.internalError none)
  | .code (.dnsError payload) => .code (.dnsError { rcode := none, infoCode := payload.infoCode })
  | .code (.tlsAlertReceived payload) =>
      .code (.tlsAlertReceived { alertId := payload.alertId, alertMessage := none })
  | .connect e =>
      if isDnsLikeConnectError e then .code (.dnsError { rcode := none, infoCode := none })
      else .connect e
  | other => other

def sanitizeSend : SendResult ResponseParts Frame → SendResult ResponseParts Frame
  | .ok (response, io) =>
      .ok ({ response with
        headers := stripResponseHeaders response.headers
        body := response.body.map fun frame => frame.mapError scrubError }, io.mapError scrubError)
  | .error err => .error (scrubError err)

/-- One invocation of the sender: what it was handed and what it produced. -/
structure Sent (RequestParts Options ResponseParts Frame : Type) where
  request : Request RequestParts
  options : Option Options
  produced : SendResult ResponseParts Frame

/-- One call of `send_request`, with the hooks before and after it. -/
structure Exchange (σ RequestParts Options ResponseParts Frame : Type) where
  before : GatedHttpHooks σ
  request : Request RequestParts
  options : Option Options
  sent : Option (Sent RequestParts Options ResponseParts Frame)
  returned : SendResult ResponseParts Frame
  after : GatedHttpHooks σ

def sendSanitized (sender : SendFn σ RequestParts Options ResponseParts Frame)
    (hooks : GatedHttpHooks σ) (request : Request RequestParts) (options : Option Options) :
    Sent RequestParts Options ResponseParts Frame × GatedHttpHooks σ :=
  let retained := retainAllowedRequestHeaders request.headers
  let handed := { request with headers := retained.2 }
  let sent := sender hooks.send handed options
  ({ request := handed, options, produced := sent.1 },
    { hooks with
      send := sent.2
      droppedRequestHeaders := hooks.droppedRequestHeaders + retained.1 })

def sendRequest (sender : SendFn σ RequestParts Options ResponseParts Frame)
    (hooks : GatedHttpHooks σ) (request : Request RequestParts) (options : Option Options) :
    Exchange σ RequestParts Options ResponseParts Frame :=
  match gate hooks request with
  | .error denied =>
      { before := hooks, request, options, sent := none, returned := .error denied, after := hooks }
  | .ok () =>
      let sent := sendSanitized sender hooks request options
      { before := hooks, request, options, sent := some sent.1
        returned := sanitizeSend sent.1.produced, after := sent.2 }

/-- A sequence of calls on one value of the hooks. -/
def sendRequests (sender : SendFn σ RequestParts Options ResponseParts Frame)
    (hooks : GatedHttpHooks σ) :
    List (Request RequestParts × Option Options) →
      List (Exchange σ RequestParts Options ResponseParts Frame) × GatedHttpHooks σ
  | [] => ([], hooks)
  | (request, options) :: rest =>
      let exchange := sendRequest sender hooks request options
      let later := sendRequests sender exchange.after rest
      (exchange :: later.1, later.2)

/-! ## What each step does -/

/-- The request passes the gate: its URI is let through and no header name is the
reserved one. -/
def Passes (allowlist : List Text) (request : Request RequestParts) : Prop :=
  checkRequest (request.scheme.getD []) (request.host.getD []) allowlist = .ok () ∧
    ∀ name ∈ request.headers.keys, isReservedCredentialHeader name.text = false

theorem gate_cases (hooks : GatedHttpHooks σ) (request : Request RequestParts) :
    (gate hooks request = .ok () ∧ Passes hooks.allowlist request) ∨
      (gate hooks request = .error (.code .httpRequestDenied) ∧
        ¬Passes hooks.allowlist request) := by
  simp only [gate, Passes]
  cases hcheck : checkRequest (request.scheme.getD []) (request.host.getD []) hooks.allowlist with
  | error denial => exact Or.inr ⟨rfl, fun hpasses => by cases hpasses.1⟩
  | ok done =>
      by_cases hreserved :
          (request.headers.keys.any fun name => isReservedCredentialHeader name.text) = true
      · refine Or.inr ⟨by simp only [hreserved, if_true]; rfl, fun hpasses => ?_⟩
        obtain ⟨name, hname, hyes⟩ := List.any_eq_true.mp hreserved
        rw [hpasses.2 name hname] at hyes
        cases hyes
      · refine Or.inl ⟨by simp only [hreserved]; rfl, rfl, fun name hname => ?_⟩
        simp only [List.any_eq_true, not_exists, not_and, Bool.not_eq_true] at hreserved
        exact hreserved name hname

/-- The kept names are the allowed ones, with their values as they were. -/
theorem getAll_retainAllowedRequestHeaders (headers : HeaderMap) (name : HeaderName) :
    (retainAllowedRequestHeaders headers).2.getAll name =
      if isAllowedRequestHeader name.text then headers.getAll name else [] := by
  rw [retainAllowedRequestHeaders, Multimap.getAll_removeAll]
  by_cases hmem : name ∈ headers.keys
  · cases hallowed : isAllowedRequestHeader name.text <;> simp [hmem, hallowed]
  · simp [hmem, Multimap.getAll_eq_nil hmem]

theorem mem_keys_retainAllowedRequestHeaders (headers : HeaderMap) (name : HeaderName) :
    name ∈ (retainAllowedRequestHeaders headers).2.keys ↔
      name ∈ headers.keys ∧ isAllowedRequestHeader name.text = true := by
  rw [retainAllowedRequestHeaders, Multimap.mem_keys_removeAll]
  refine and_congr_right fun hmem => ?_
  simp [hmem]

theorem count_retainAllowedRequestHeaders (headers : HeaderMap) :
    (retainAllowedRequestHeaders headers).1 + (retainAllowedRequestHeaders headers).2.count =
      headers.count := Multimap.count_removeAll _ _

theorem mem_keys_removeText (headers : HeaderMap) (text : Text) (name : HeaderName) :
    name ∈ (removeText headers text).keys ↔ name ∈ headers.keys ∧ name.text ≠ text := by
  unfold removeText
  cases hfind : headers.keys.find? fun name => name.text = text with
  | none =>
      refine (and_iff_left_of_imp fun hmem => ?_).symm
      simpa using List.find?_eq_none.mp hfind name hmem
  | some found =>
      have htext : found.text = text := by simpa using List.find?_some hfind
      rw [Multimap.mem_keys_remove, ne_eq, HeaderName.ext_iff, htext]

theorem getAll_removeText (headers : HeaderMap) (text : Text) (name : HeaderName) :
    (removeText headers text).getAll name =
      if name.text = text then [] else headers.getAll name := by
  by_cases htext : name.text = text
  · rw [if_pos htext]
    exact Multimap.getAll_eq_nil fun hmem =>
      ((mem_keys_removeText headers text name).mp hmem).2 htext
  · rw [if_neg htext, removeText]
    cases hfind : headers.keys.find? fun name => name.text = text with
    | none => rfl
    | some found =>
        have hfound : found.text = text := by simpa using List.find?_some hfind
        have hne : name ≠ found := by
          rintro rfl
          exact htext hfound
        exact (Multimap.getAll_remove headers found name).trans (if_neg hne)

theorem removeTexts_spec (texts : List Text) (headers : HeaderMap) (name : HeaderName) :
    (name ∈ (texts.foldl removeText headers).keys ↔ name ∈ headers.keys ∧ name.text ∉ texts) ∧
      (texts.foldl removeText headers).getAll name =
        if name.text ∈ texts then [] else headers.getAll name := by
  induction texts generalizing headers with
  | nil => simp
  | cons text rest ih =>
      obtain ⟨hkeys, hvalues⟩ := ih (removeText headers text)
      refine ⟨?_, ?_⟩
      · rw [List.foldl_cons, hkeys, mem_keys_removeText, List.mem_cons, not_or, and_assoc]
      · rw [List.foldl_cons, hvalues, getAll_removeText]
        by_cases hrest : name.text ∈ rest
        · simp [hrest]
        · simp [hrest]

/-- The response keeps every header but the stripped ones. -/
theorem getAll_stripResponseHeaders (headers : HeaderMap) (name : HeaderName) :
    (stripResponseHeaders headers).getAll name =
      if isStrippedResponseHeader name.text then [] else headers.getAll name := by
  rw [stripResponseHeaders, (removeTexts_spec _ headers name).2]
  simp only [isStrippedResponseHeader_iff]

theorem mem_keys_stripResponseHeaders (headers : HeaderMap) (name : HeaderName) :
    name ∈ (stripResponseHeaders headers).keys ↔
      name ∈ headers.keys ∧ isStrippedResponseHeader name.text = false := by
  rw [stripResponseHeaders, (removeTexts_spec _ headers name).1, ← isStrippedResponseHeader_iff,
    Bool.not_eq_true]

/-! ## The law of an exchange -/

/-- The headers of a request as a plugin may set them.  The values of a name are as they
were and in their order; the names themselves may change places, since the removal of
one moves the last into its place. -/
structure KeepsAllowed (headers kept : HeaderMap) : Prop where
  names : ∀ name, name ∈ kept.keys ↔
    name ∈ headers.keys ∧ isAllowedRequestHeader name.text = true
  values : ∀ name, kept.getAll name =
    if isAllowedRequestHeader name.text then headers.getAll name else []

/-- The headers of a response as a plugin may see them, each name with its values in
order. -/
structure LosesCookies (headers kept : HeaderMap) : Prop where
  names : ∀ name, name ∈ kept.keys ↔
    name ∈ headers.keys ∧ isStrippedResponseHeader name.text = false
  values : ∀ name, kept.getAll name =
    if isStrippedResponseHeader name.text then [] else headers.getAll name

theorem keepsAllowed_retain (headers : HeaderMap) :
    KeepsAllowed headers (retainAllowedRequestHeaders headers).2 :=
  ⟨mem_keys_retainAllowedRequestHeaders headers, getAll_retainAllowedRequestHeaders headers⟩

theorem losesCookies_strip (headers : HeaderMap) :
    LosesCookies headers (stripResponseHeaders headers) :=
  ⟨mem_keys_stripResponseHeaders headers, getAll_stripResponseHeaders headers⟩

/-- Every response handed back has the headers of the sender's response but for
the stripped ones. -/
def CutsResponse (produced returned : SendResult ResponseParts Frame) : Prop :=
  match produced, returned with
  | .ok (response, _), .ok (cut, _) =>
      LosesCookies response.headers cut.headers ∧ cut.parts = response.parts
  | .error _, .error _ => True
  | _, _ => False

theorem cutsResponse_sanitizeSend (produced : SendResult ResponseParts Frame) :
    CutsResponse produced (sanitizeSend produced) := by
  cases produced with
  | error err => exact trivial
  | ok result => exact ⟨losesCookies_strip result.1.headers, rfl⟩

/-- The number of header values that an exchange took off its request. -/
def removedValues (exchange : Exchange σ RequestParts Options ResponseParts Frame) : Nat :=
  match exchange.sent with
  | none => 0
  | some sent => exchange.request.headers.count - sent.request.headers.count

/-- What holds of every call of `send_request`. -/
structure Policed (sender : SendFn σ RequestParts Options ResponseParts Frame)
    (allowlist : List Text) (exchange : Exchange σ RequestParts Options ResponseParts Frame) :
    Prop where
  /-- The sender is invoked exactly for the requests that pass. -/
  invoked : exchange.sent.isSome = true ↔ Passes allowlist exchange.request
  /-- It gets the request with the allowed headers, and nothing else changed. -/
  handed : ∀ sent ∈ exchange.sent,
    sent.request = { exchange.request with headers := sent.request.headers } ∧
      sent.options = exchange.options ∧
      KeepsAllowed exchange.request.headers sent.request.headers ∧
      (sent.produced, exchange.after.send) =
        sender exchange.before.send sent.request sent.options
  /-- A refusal is `HttpRequestDenied` and leaves the hooks as they were. -/
  refused : exchange.sent = none →
    exchange.returned = .error (.code .httpRequestDenied) ∧ exchange.after = exchange.before
  /-- What comes back is the response without cookies. -/
  response : ∀ sent ∈ exchange.sent, CutsResponse sent.produced exchange.returned
  /-- The counter grows by the number of values that were removed. -/
  counted : exchange.after.droppedRequestHeaders =
    exchange.before.droppedRequestHeaders + removedValues exchange

theorem policed_sendRequest (sender : SendFn σ RequestParts Options ResponseParts Frame)
    (hooks : GatedHttpHooks σ) (request : Request RequestParts) (options : Option Options) :
    Policed sender hooks.allowlist (sendRequest sender hooks request options) := by
  rcases gate_cases hooks request with ⟨hgate, hpasses⟩ | ⟨hgate, hdenied⟩
  · rw [sendRequest, hgate]
    refine ⟨iff_of_true rfl hpasses, ?_, nofun, ?_, ?_⟩
    · rintro sent hsent
      obtain rfl := Option.some.inj hsent
      exact ⟨rfl, rfl, keepsAllowed_retain _, rfl⟩
    · rintro sent hsent
      obtain rfl := Option.some.inj hsent
      exact cutsResponse_sanitizeSend _
    · have hcount := count_retainAllowedRequestHeaders request.headers
      simp only [sendSanitized, removedValues]
      omega
  · rw [sendRequest, hgate]
    refine ⟨iff_of_false Bool.false_ne_true hdenied, ?_, fun _ => ⟨rfl, rfl⟩, ?_, rfl⟩
    · intro sent hsent
      cases hsent
    · intro sent hsent
      cases hsent

/-- A call leaves the allowlist as it was. -/
theorem allowlist_sendRequest (sender : SendFn σ RequestParts Options ResponseParts Frame)
    (hooks : GatedHttpHooks σ) (request : Request RequestParts) (options : Option Options) :
    (sendRequest sender hooks request options).after.allowlist = hooks.allowlist := by
  unfold sendRequest
  cases gate hooks request <;> rfl

theorem sendRequest_fields (sender : SendFn σ RequestParts Options ResponseParts Frame)
    (hooks : GatedHttpHooks σ) (request : Request RequestParts) (options : Option Options) :
    (sendRequest sender hooks request options).request = request ∧
      (sendRequest sender hooks request options).options = options ∧
      (sendRequest sender hooks request options).before = hooks := by
  unfold sendRequest
  cases gate hooks request <;> exact ⟨rfl, rfl, rfl⟩

/-- Through any sequence of calls every exchange is policed, and the counter is
what it was and the values removed since. -/
theorem policed_sendRequests_from (sender : SendFn σ RequestParts Options ResponseParts Frame)
    (hooks : GatedHttpHooks σ) (requests : List (Request RequestParts × Option Options)) :
    (∀ exchange ∈ (sendRequests sender hooks requests).1,
        Policed sender hooks.allowlist exchange) ∧
      (sendRequests sender hooks requests).1.map (fun exchange =>
        (exchange.request, exchange.options)) = requests ∧
      (sendRequests sender hooks requests).2.droppedRequestHeaders =
        hooks.droppedRequestHeaders +
          ((sendRequests sender hooks requests).1.map removedValues).sum := by
  induction requests generalizing hooks with
  | nil => exact ⟨by simp [sendRequests], rfl, rfl⟩
  | cons first rest ih =>
      obtain ⟨request, options⟩ := first
      have hpoliced := policed_sendRequest sender hooks request options
      obtain ⟨hrequest, hoptions, hbefore⟩ := sendRequest_fields sender hooks request options
      obtain ⟨hlater, hrequests, hcounter⟩ := ih (sendRequest sender hooks request options).after
      rw [allowlist_sendRequest] at hlater
      have hcounted := hpoliced.counted
      rw [hbefore] at hcounted
      refine ⟨?_, ?_, ?_⟩
      · intro exchange hexchange
        rcases List.mem_cons.mp hexchange with rfl | hmem
        · exact hpoliced
        · exact hlater exchange hmem
      · simp only [sendRequests, List.map_cons, hrequests, hrequest, hoptions]
      · simp only [sendRequests, List.map_cons, List.sum_cons, hcounter, hcounted]
        omega

/-- The policy of the hooks over every sequence of calls from the start. -/
theorem policed_sendRequests (sender : SendFn σ RequestParts Options ResponseParts Frame)
    (allowlist : List Text) (send : σ) (requests : List (Request RequestParts × Option Options)) :
    (∀ exchange ∈ (sendRequests sender (.withSender allowlist send) requests).1,
        Policed sender allowlist exchange) ∧
      (sendRequests sender (.withSender allowlist send) requests).1.map (fun exchange =>
        (exchange.request, exchange.options)) = requests ∧
      (sendRequests sender (.withSender allowlist send) requests).2.droppedRequestHeaders =
        ((sendRequests sender (.withSender allowlist send) requests).1.map removedValues).sum := by
  obtain ⟨hpoliced, hrequests, hcounter⟩ :=
    policed_sendRequests_from sender (.withSender allowlist send) requests
  exact ⟨hpoliced, hrequests, hcounter.trans (Nat.zero_add _)⟩

/-! ## Hosts that must not be reached -/

/-- The gate denies the request, and the sender is not invoked. -/
def Denied (sender : SendFn σ RequestParts Options ResponseParts Frame)
    (hooks : GatedHttpHooks σ) (request : Request RequestParts) (options : Option Options) : Prop :=
  gate hooks request = .error (.code .httpRequestDenied) ∧
    (sendRequest sender hooks request options).sent = none

theorem denied_iff_not_passes {sender : SendFn σ RequestParts Options ResponseParts Frame}
    {hooks : GatedHttpHooks σ} {request : Request RequestParts} {options : Option Options} :
    Denied sender hooks request options ↔ ¬Passes hooks.allowlist request := by
  rcases gate_cases hooks request with ⟨hgate, hpasses⟩ | ⟨hgate, hdenied⟩
  · refine iff_of_false (fun hdenied => ?_) (not_not_intro hpasses)
    rw [hdenied.1] at hgate
    cases hgate
  · refine iff_of_true ⟨hgate, ?_⟩ hdenied
    rw [sendRequest, hgate]

/-- A request to a host that must not be reached is denied, unless the host is an
IPv6 literal in its brackets and nothing else speaks against the request. -/
theorem denied_iff_of_blockedHost (sender : SendFn σ RequestParts Options ResponseParts Frame)
    (hooks : GatedHttpHooks σ) (request : Request RequestParts) (options : Option Options)
    {host : Text} (hhost : request.host = some host) (hblocked : BlockedHost host) :
    Denied sender hooks request options ↔
      ¬(isBracketed host = true ∧
        eqIgnoreAsciiCase (request.scheme.getD []) "https".toList = true ∧
        originAllowed host hooks.allowlist = true ∧
        ∀ name ∈ request.headers.keys, isReservedCredentialHeader name.text = false) := by
  rw [denied_iff_not_passes, Passes, hhost, Option.getD_some, checkRequest_blockedHost hblocked]
  refine not_congr ⟨?_, ?_⟩
  · rintro ⟨⟨hscheme, horigin, hbracketed⟩, hreserved⟩
    exact ⟨hbracketed, hscheme, horigin, hreserved⟩
  · rintro ⟨hbracketed, hscheme, horigin, hreserved⟩
    exact ⟨⟨hscheme, horigin, hbracketed⟩, hreserved⟩

/-- A plain https request, and hooks with one allowed origin. -/
def requestTo (host : Text) : Request Unit where
  scheme := some "https".toList
  host := some host
  headers := ⟨[], List.nodup_nil⟩
  parts := ()

def refusingSender : SendFn Unit Unit Unit Unit Unit :=
  fun _ _ _ => (.error (.code .connectionRefused), ())

/-- The metadata address is denied in dotted decimal, whoever allows it. -/
theorem denied_iff_of_blockedHost_example :
    Denied refusingSender (.withSender [dottedDecimal ⟨169, 254, 169, 254⟩] ())
      (requestTo (dottedDecimal ⟨169, 254, 169, 254⟩)) none :=
  (denied_iff_of_blockedHost refusingSender _ _ none rfl
    (.dotted ⟨169, 254, 169, 254⟩ (by decide))).mpr (by decide)

/-- The loopback address in brackets is let through to the sender. -/
theorem not_denied_bracketed_loopback :
    BlockedHost "[::1]".toList ∧
      ¬Denied refusingSender (.withSender ["[::1]".toList] ()) (requestTo "[::1]".toList) none ∧
      (sendRequest refusingSender (.withSender ["[::1]".toList] ()) (requestTo "[::1]".toList)
        none).sent.isSome = true := by
  have hblocked : BlockedHost "[::1]".toList :=
    @BlockedHost.bracketed "::1".toList (ofGroups [] [1]) (by decide) (by decide)
  have hsent : (sendRequest refusingSender (.withSender ["[::1]".toList] ())
      (requestTo "[::1]".toList) none).sent.isSome = true := by decide
  refine ⟨hblocked, fun hdenied => ?_, hsent⟩
  rw [hdenied.2] at hsent
  cases hsent

end HellohqRuntime.Gate.GatedHooks

import HellohqRuntime.Http.Frames
import HellohqRuntime.Http.Resources
import HellohqRuntime.Http.Trailers

/-!
# `handler.handle`

A call over the transport is an async function.  Between two awaits it runs
without interruption, so it is here as the sections between its awaits: start,
one batch of the body, end of the body, outcome of the trailers wait, and the
response head.  A pipe or a mint can fail; its message is the `fault`.
-/

namespace HellohqRuntime.Http.Handle

open HellohqRuntime.Foundation.Strings
open HellohqRuntime.Foundation.Utf8
open HellohqRuntime.Http.Frames
open HellohqRuntime.Http.Head
open HellohqRuntime.Http.Resources
open HellohqRuntime.Http.Tables
open HellohqRuntime.Http.Trailers
open HellohqRuntime.Http.Types

def internalError (message : Text) : ErrorCode := .internalError (some message)

/-! ## The request head -/

def schemeStr : Option Scheme → Text
  | some .http => "http".toList
  | some .https => "https".toList
  | some (.other s) => s
  | none => "https".toList

/-- What a call reads of its request before it encodes the head. -/
structure RequestParts where
  method : Text
  scheme : Text
  authority : Text
  path : Text
  headers : List (FieldName × FieldValue)
  options : Option RequestOptionsData
  deriving DecidableEq, Repr

def requestParts (host : WasiHttpHost) (request : Rep) : Option RequestParts :=
  (host.requests.get request).map fun req =>
    { method := methodStr req.method
      scheme := schemeStr req.scheme
      authority := req.authority.getD []
      path := req.pathWithQuery.getD "/".toList
      headers := HostFields.copyAll host req.headers
      options := req.options.bind host.options.get }

def unknownRequest : ErrorCode := internalError "wasi:http handler: unknown request resource".toList

def requestHead (host : WasiHttpHost) (request : Rep) : Except ErrorCode Bytes :=
  match requestParts host request with
  | none => .error unknownRequest
  | some parts =>
      encodeRequestHead parts.method parts.scheme parts.authority parts.path parts.headers
        (parts.options.bind formatRequestOptionsLine)

/-! ## The response head -/

/-- `str::parse::<u16>`: an optional plus sign and decimal digits, in range. -/
def parseU16 (text : Text) : Option UInt16 :=
  let digits := if text.head? = some '+' then text.tail else text
  if digits.isEmpty || digits.any (fun c => !c.isDigit) then none
  else
    let value := Nat.ofDigitChars 10 digits 0
    if value < 65536 then some (UInt16.ofNat value) else none

structure ResponseHead where
  statusCode : UInt16
  headers : List (FieldName × FieldValue) := []
  /-- The trailer fields of the reserved line, if there is one. -/
  trailers : Option (List (FieldName × FieldValue)) := none
  deriving DecidableEq, Repr

/-- The line loop on one line behind the status line. -/
def parseResponseLine (head : ResponseHead) (line : Text) : ResponseHead :=
  if line.isEmpty then head
  else
    match splitOnce ":".toList line with
    | none => head
    | some (name, value) =>
        let name := trim name
        let value := trimStart value
        if eqIgnoreAsciiCase name TRAILERS_HEAD_KEY then
          { head with trailers := some (parseTrailersLine value) }
        else { head with headers := head.headers ++ [(name, asBytes value)] }

/-- Parse the caller's head frame; `shown` is the `Debug` form of its status line. -/
def parseResponseHead (shown : Text) (frame : Bytes) : Except ErrorCode ResponseHead :=
  let lines := (fromUtf8Lossy frame).splitOn '\n'
  match parseU16 (trim (lines.headD [])) with
  | none =>
      .error (internalError ("wasi:http handler: malformed response status line ".toList ++ shown))
  | some statusCode => .ok (lines.tail.foldl parseResponseLine { statusCode })

/-- Back the response with fresh fields and a table entry. -/
def buildResponse (host : WasiHttpHost) (head : ResponseHead) (inbound : P3sIn)
    (bodyFault trailersFault : Option Text) : Except ErrorCode Rep × WasiHttpHost :=
  let headers := host.fields.insert { entries := head.headers, immutable := false }
  let host := { host with fields := headers.2 }
  let (trailersRep, host) : Option Rep × WasiHttpHost :=
    match head.trailers with
    | none => (none, host)
    | some entries =>
        let trailers := host.fields.insert { entries, immutable := true }
        (some trailers.1, { host with fields := trailers.2 })
  match bodyFault, trailersFault with
  | some message, _ => (.error (internalError message), host)
  | none, some message => (.error (internalError message), host)
  | none, none =>
      let response := host.responses.insert
        { statusCode := head.statusCode
          headers := headers.1
          body := some (.responseBody inbound)
          trailers := some (.ready (.ok trailersRep)) }
      (.ok response.1, { host with responses := response.2 })

/-! ## The synthetic path -/

/-- Without a transport the response echoes the request line. -/
def handleSynthetic (host : WasiHttpHost) (request : Rep) (bodyFault trailersFault : Option Text) :
    Except ErrorCode Rep × WasiHttpHost :=
  match host.requests.get request with
  | none => (.error unknownRequest, host)
  | some req =>
      let summary := methodStr req.method ++ " ".toList ++ req.authority.getD [] ++
        req.pathWithQuery.getD "/".toList
      let headers := host.fields.insert
        { entries := [("x-hellohq".toList, asBytes "ok".toList)], immutable := false }
      let host := { host with fields := headers.2 }
      match bodyFault, trailersFault with
      | some message, _ => (.error (internalError message), host)
      | none, some message => (.error (internalError message), host)
      | none, none =>
          let response := host.responses.insert
            { statusCode := 200
              headers := headers.1
              body := some (.buffered (asBytes summary))
              trailers := some (.ready (.ok none)) }
          (.ok response.1, { host with responses := response.2 })

/-! ## The sections of a call over the transport -/

/-- Where a call waits, or how it ended. -/
inductive Await where
  /-- For the next batch of the body; the trailers future comes after it. -/
  | body (trailers : Option TrailersFuture)
  | trailers
  /-- For the caller's response head. -/
  | head
  | done (result : Except ErrorCode Rep)

/-- A call in flight.  `head`, `batches` and `trailers` record what it has
encoded and received so far. -/
structure Call where
  head : Option Bytes := none
  batches : List Bytes := []
  /-- The entries of the fields the trailers wait gave, if it gave some. -/
  trailers : Option (List (FieldName × FieldValue)) := none
  inbound : Option P3sIn := none
  await : Await

/-- What `await_trailers_bounded` gives: nothing when the budget expires, a
cancelled channel, or what the guest wrote. -/
abbrev TrailersOutcome := Option (Except Unit (Except ErrorCode (Option Rep)))

/-- Send one event, where there is a transport. -/
def sendOut (host : WasiHttpHost) (event : OutEvent) : WasiHttpHost :=
  { host with transport := host.transport.map fun transport =>
      { transport with out := transport.out ++ [event] } }

def Call.fail (call : Call) (error : ErrorCode) : Call := { call with await := .done (.error error) }

def inboundConsumed : ErrorCode :=
  internalError "wasi:http handler: inbound stream already consumed".toList

/-- End the outbound stream and wait for the response. -/
def endOut (host : WasiHttpHost) (call : Call) : Call × WasiHttpHost :=
  match call.inbound with
  | none => (call.fail inboundConsumed, sendOut host .outEnd)
  | some _ => ({ call with await := .head }, sendOut host .outEnd)

/-- Behind the body: wait for the trailers, if there is a future for them. -/
def enterTrailers (host : WasiHttpHost) (call : Call) (trailers : Option TrailersFuture)
    (fault : Option Text) : Call × WasiHttpHost :=
  match trailers, fault with
  | none, _ => endOut host call
  | some _, some message => (call.fail (internalError message), host)
  | some _, none => ({ call with await := .trailers }, host)

/-- Behind the head: drain the body, if there is one. -/
def enterBody (host : WasiHttpHost) (call : Call) (body : Option BodyReader)
    (trailers : Option TrailersFuture) (fault : Option Text) : Call × WasiHttpHost :=
  match body, fault with
  | none, _ => enterTrailers host call trailers fault
  | some _, some message => (call.fail (internalError message), host)
  | some _, none => ({ call with await := .body trailers }, host)

def transportMissing : ErrorCode :=
  internalError "wasi:http handler: transport missing".toList

/-- From the start of the call to its first await. -/
def startCall (host : WasiHttpHost) (request : Rep) (fault : Option Text) : Call × WasiHttpHost :=
  match requestHead host request with
  | .error error => ({ await := .done (.error error) }, host)
  | .ok head =>
      let ((body, trailers), host) := HostRequest.takeStreams host request
      match host.transport with
      | none => ({ await := .done (.error transportMissing) }, host)
      | some transport =>
          let sent : HttpTransport :=
            { out := transport.out ++ [.out (encode .head head)], inbound := none }
          enterBody { host with transport := some sent }
            { head := some head, inbound := transport.inbound, await := .body trailers }
            body trailers fault

/-- One turn of the drain loop; an empty chunk is skipped. -/
def emitBody (host : WasiHttpHost) (chunk : Bytes) : WasiHttpHost :=
  if chunk.isEmpty then host else sendOut host (.out (encode .body chunk))

/-- The payload of the TRAILERS frame, if the wait gave fields with a token name. -/
def trailersPayload (host : WasiHttpHost) : TrailersOutcome → Option Text
  | some (.ok (.ok (some fieldsRep))) =>
      (host.fields.get fieldsRep).bind fun data => formatRequestTrailersValue data.entries
  | _ => none

def emitTrailers (host : WasiHttpHost) (resolved : TrailersOutcome) : WasiHttpHost :=
  match trailersPayload host resolved with
  | none => host
  | some value => sendOut host (.out (encode .trailers (asBytes value)))

/-- The entries of the fields the wait gave. -/
def trailersEntries (host : WasiHttpHost) :
    TrailersOutcome → Option (List (FieldName × FieldValue))
  | some (.ok (.ok (some fieldsRep))) => some (HostFields.copyAll host fieldsRep)
  | _ => none

/-- A batch arrives from the body channel. -/
def receiveBatch (host : WasiHttpHost) (call : Call) (chunk : Bytes) : Call × WasiHttpHost :=
  ({ call with batches := call.batches ++ [chunk] }, emitBody host chunk)

/-- The trailers wait is over. -/
def receiveTrailers (host : WasiHttpHost) (call : Call) (resolved : TrailersOutcome) :
    Call × WasiHttpHost :=
  endOut (emitTrailers host resolved) { call with trailers := trailersEntries host resolved }

def inboundClosed : ErrorCode :=
  internalError "wasi:http handler: caller closed inbound before sending a head".toList

/-- The caller's first frame arrives, or the inbound stream is closed before it. -/
def receiveHead (host : WasiHttpHost) (call : Call) (shown : Text) (frame : Option Bytes)
    (bodyFault trailersFault : Option Text) : Call × WasiHttpHost :=
  match frame with
  | none => (call.fail inboundClosed, host)
  | some frame =>
      match parseResponseHead shown frame with
      | .error error => (call.fail error, host)
      | .ok head =>
          let built := buildResponse host head .receiver bodyFault trailersFault
          ({ call with await := .done built.1 }, built.2)

/-! ## What the sections leave alone -/

/-- Only the transport may differ. -/
structure SameTables (before after : WasiHttpHost) : Prop where
  fields : after.fields = before.fields
  requests : after.requests = before.requests
  responses : after.responses = before.responses
  options : after.options = before.options

theorem SameTables.refl (host : WasiHttpHost) : SameTables host host := ⟨rfl, rfl, rfl, rfl⟩

theorem sameTables_sendOut (host : WasiHttpHost) (event : OutEvent) :
    SameTables host (sendOut host event) := ⟨rfl, rfl, rfl, rfl⟩

theorem sameTables_endOut (host : WasiHttpHost) (call : Call) :
    SameTables host (endOut host call).2 := by
  unfold endOut
  cases call.inbound with
  | none => exact sameTables_sendOut host .outEnd
  | some inbound => exact sameTables_sendOut host .outEnd

theorem sameTables_enterTrailers (host : WasiHttpHost) (call : Call)
    (trailers : Option TrailersFuture) (fault : Option Text) :
    SameTables host (enterTrailers host call trailers fault).2 := by
  cases trailers with
  | none => exact sameTables_endOut host call
  | some future => cases fault <;> exact SameTables.refl host

theorem sameTables_enterBody (host : WasiHttpHost) (call : Call) (body : Option BodyReader)
    (trailers : Option TrailersFuture) (fault : Option Text) :
    SameTables host (enterBody host call body trailers fault).2 := by
  cases body with
  | none => exact sameTables_enterTrailers host call trailers fault
  | some reader => cases fault <;> exact SameTables.refl host

theorem sameTables_receiveBatch (host : WasiHttpHost) (call : Call) (chunk : Bytes) :
    SameTables host (receiveBatch host call chunk).2 := by
  cases hchunk : chunk.isEmpty with
  | true => simpa [receiveBatch, emitBody, hchunk] using SameTables.refl host
  | false => simpa [receiveBatch, emitBody, hchunk] using sameTables_sendOut host _

theorem sameTables_receiveTrailers (host : WasiHttpHost) (call : Call)
    (resolved : TrailersOutcome) : SameTables host (receiveTrailers host call resolved).2 := by
  rw [receiveTrailers, emitTrailers]
  cases trailersPayload host resolved with
  | none => exact sameTables_endOut host _
  | some value =>
      obtain ⟨hfields, hrequests, hresponses, hoptions⟩ := sameTables_endOut (sendOut host
        (.out (encode .trailers (asBytes value))))
        { call with trailers := trailersEntries host resolved }
      exact ⟨hfields, hrequests, hresponses, hoptions⟩

/-- A call takes the streams of its request and leaves everything else in the
tables. -/
theorem startCall_tables (host : WasiHttpHost) (request : Rep) (fault : Option Text) :
    SameTables host (startCall host request fault).2 ∨
      SameTables (HostRequest.takeStreams host request).2 (startCall host request fault).2 := by
  unfold startCall
  cases requestHead host request with
  | error error => exact Or.inl (SameTables.refl host)
  | ok head =>
      refine Or.inr ?_
      simp only [HostRequest.takeStreams]
      cases host.transport with
      | none => exact SameTables.refl _
      | some transport =>
          obtain ⟨hfields, hrequests, hresponses, hoptions⟩ := sameTables_enterBody _ _ _ _ _
          exact ⟨hfields, hrequests, hresponses, hoptions⟩

/-! ## Building a response -/

/-- A response is backed by fresh fields, at most one more fresh entry for its
trailers, and an entry of its own unless a mint failed. -/
structure Built (host : WasiHttpHost) (entries : List (FieldName × FieldValue))
    (built : Except ErrorCode Rep × WasiHttpHost) : Prop where
  requests : built.2.requests = host.requests
  options : built.2.options = host.options
  transport : built.2.transport = host.transport
  headers : built.2.fields.get host.fields.next = some { entries }
  others : ∀ rep, rep ≠ host.fields.next → rep ≠ host.fields.next + 1 →
    built.2.fields.get rep = host.fields.get rep
  responses :
    (∃ error, built.1 = .error error ∧ built.2.responses = host.responses) ∨
      ∃ data trailersRep, built.1 = .ok host.responses.next ∧
        built.2.responses = (host.responses.insert data).2 ∧
        data.headers = host.fields.next ∧ data.trailers = some (.ready (.ok trailersRep)) ∧
        ∀ rep ∈ trailersRep, rep = host.fields.next + 1

theorem ne_succ (rep : Rep) : rep ≠ rep + 1 := by
  intro heq
  simp at heq

theorem built_buildResponse (host : WasiHttpHost) (head : ResponseHead) (inbound : P3sIn)
    (bodyFault trailersFault : Option Text) :
    Built host head.headers (buildResponse host head inbound bodyFault trailersFault) := by
  unfold buildResponse
  cases htrailers : head.trailers with
  | none =>
      have hget := host.fields.get_insert_self { entries := head.headers }
      have hother : ∀ rep, rep ≠ host.fields.next → rep ≠ host.fields.next + 1 →
          (host.fields.insert { entries := head.headers }).2.get rep = host.fields.get rep :=
        fun rep hne _ => Table.get_insert_ne hne
      cases bodyFault with
      | some message => exact ⟨rfl, rfl, rfl, hget, hother, Or.inl ⟨_, rfl, rfl⟩⟩
      | none =>
          cases trailersFault with
          | some message => exact ⟨rfl, rfl, rfl, hget, hother, Or.inl ⟨_, rfl, rfl⟩⟩
          | none =>
              exact ⟨rfl, rfl, rfl, hget, hother,
                Or.inr ⟨_, none, rfl, rfl, rfl, rfl, by simp⟩⟩
  | some entries =>
      have hget : ((host.fields.insert { entries := head.headers }).2.insert
          { entries, immutable := true }).2.get host.fields.next =
            some { entries := head.headers } := by
        rw [Table.get_insert_ne (ne_succ _), Table.get_insert_self]
      have hother : ∀ rep, rep ≠ host.fields.next → rep ≠ host.fields.next + 1 →
          ((host.fields.insert { entries := head.headers }).2.insert
            { entries, immutable := true }).2.get rep = host.fields.get rep :=
        fun rep hne hsucc => by rw [Table.get_insert_ne hsucc, Table.get_insert_ne hne]
      cases bodyFault with
      | some message => exact ⟨rfl, rfl, rfl, hget, hother, Or.inl ⟨_, rfl, rfl⟩⟩
      | none =>
          cases trailersFault with
          | some message => exact ⟨rfl, rfl, rfl, hget, hother, Or.inl ⟨_, rfl, rfl⟩⟩
          | none =>
              exact ⟨rfl, rfl, rfl, hget, hother,
                Or.inr ⟨_, some _, rfl, rfl, rfl, rfl, by simp⟩⟩

/-- The entries of the synthetic response. -/
def syntheticEntries : List (FieldName × FieldValue) :=
  [("x-hellohq".toList, asBytes "ok".toList)]

theorem built_handleSynthetic {host : WasiHttpHost} {request : Rep}
    {bodyFault trailersFault : Option Text} {req : RequestData}
    (hreq : host.requests.get request = some req) :
    Built host syntheticEntries (handleSynthetic host request bodyFault trailersFault) := by
  have hget := host.fields.get_insert_self { entries := syntheticEntries }
  have hother : ∀ rep, rep ≠ host.fields.next → rep ≠ host.fields.next + 1 →
      (host.fields.insert { entries := syntheticEntries }).2.get rep = host.fields.get rep :=
    fun rep hne _ => Table.get_insert_ne hne
  unfold handleSynthetic
  rw [hreq]
  cases bodyFault with
  | some message => exact ⟨rfl, rfl, rfl, hget, hother, Or.inl ⟨_, rfl, rfl⟩⟩
  | none =>
      cases trailersFault with
      | some message => exact ⟨rfl, rfl, rfl, hget, hother, Or.inl ⟨_, rfl, rfl⟩⟩
      | none =>
          exact ⟨rfl, rfl, rfl, hget, hother, Or.inr ⟨_, none, rfl, rfl, rfl, rfl, by simp⟩⟩

end HellohqRuntime.Http.Handle

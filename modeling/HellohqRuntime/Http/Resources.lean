import HellohqRuntime.Http.Tables

/-!
# The `wasi:http` resource host

The host keeps one table for each kind of resource; the guest names an entry by
a handle that carries its rep.  Every host function of `types` is here as a
function of the host state.  A function that the source leaves without effect
returns the state it was given.
-/

namespace HellohqRuntime.Http.Resources

open HellohqRuntime.Foundation.Strings
open HellohqRuntime.Http.Tables
open HellohqRuntime.Http.Types

/-! ## Header fields -/

/-- Backing state of a `fields` resource: an ordered list of pairs. -/
structure FieldsData where
  entries : List (FieldName × FieldValue) := []
  /-- `true` once it was handed out as immutable. -/
  immutable : Bool := false
  deriving DecidableEq, Repr

namespace FieldsData

/-- Header names are compared case-insensitively (`matches`). -/
def nameMatches (name candidate : FieldName) : Bool := eqIgnoreAsciiCase name candidate

def get (data : FieldsData) (name : FieldName) : List FieldValue :=
  (data.entries.filter fun entry => nameMatches name entry.1).map Prod.snd

def has (data : FieldsData) (name : FieldName) : Bool :=
  data.entries.any fun entry => nameMatches name entry.1

def delete (data : FieldsData) (name : FieldName) : FieldsData :=
  { data with entries := data.entries.filter fun entry => !nameMatches name entry.1 }

/-- Clear the values of a name and insert the new ones at the end. -/
def set (data : FieldsData) (name : FieldName) (values : List FieldValue) : FieldsData :=
  { data with
    entries := (data.entries.filter fun entry => !nameMatches name entry.1) ++
      values.map fun value => (name, value) }

def getAndDelete (data : FieldsData) (name : FieldName) : List FieldValue × FieldsData :=
  (data.get name, data.delete name)

def append (data : FieldsData) (name : FieldName) (value : FieldValue) : FieldsData :=
  { data with entries := data.entries ++ [(name, value)] }

end FieldsData

/-! ## Requests and responses -/

/-- The reading end of the inbound channel; there is one for each session. -/
inductive P3sIn where
  | receiver
  deriving DecidableEq, Repr

/-- A `stream<u8>` the host holds: the guest's own, a buffered one, or the
producer that forwards inbound frames. -/
inductive BodyReader where
  | guest (id : Nat)
  | buffered (bytes : Bytes)
  | responseBody (inbound : P3sIn)
  deriving DecidableEq, Repr

/-- A trailers future the host holds: the guest's own, or one that is resolved. -/
inductive TrailersFuture where
  | guest (id : Nat)
  | ready (outcome : Except ErrorCode (Option Rep))

structure RequestData where
  method : Method := .get
  pathWithQuery : Option Text := none
  scheme : Option Scheme := none
  authority : Option Text := none
  /-- Rep of the backing `fields` of the headers. -/
  headers : Rep
  /-- Rep of the backing `request-options`, if any. -/
  options : Option Rep
  body : Option BodyReader
  trailers : Option TrailersFuture

structure ResponseData where
  statusCode : UInt16
  headers : Rep
  body : Option BodyReader
  trailers : Option TrailersFuture

/-! ## The host -/

/-- What the worker sends to the caller on the OUT side. -/
inductive OutEvent where
  | out (bytes : Bytes)
  | outEnd
  deriving DecidableEq, Repr

/-- The P3 channel pair: the events sent so far, and the inbound receiver until
a call takes it. -/
structure HttpTransport where
  out : List OutEvent := []
  inbound : Option P3sIn := some .receiver

structure WasiHttpHost where
  fields : Table FieldsData := {}
  requests : Table RequestData := {}
  responses : Table ResponseData := {}
  options : Table RequestOptionsData := {}
  /-- `none` on the synthetic in-process path. -/
  transport : Option HttpTransport := none

/-- A host wired to the caller (`with_transport`). -/
def WasiHttpHost.withTransport : WasiHttpHost := { transport := some {} }

/-! ## `HostFields` -/

namespace HostFields

def new (host : WasiHttpHost) : Rep × WasiHttpHost :=
  ((host.fields.insert {}).1, { host with fields := (host.fields.insert {}).2 })

def fromList (host : WasiHttpHost) (entries : List (FieldName × FieldValue)) : Rep × WasiHttpHost :=
  ((host.fields.insert { entries }).1, { host with fields := (host.fields.insert { entries }).2 })

def get (host : WasiHttpHost) (rep : Rep) (name : FieldName) : List FieldValue :=
  ((host.fields.get rep).map fun data => data.get name).getD []

def has (host : WasiHttpHost) (rep : Rep) (name : FieldName) : Bool :=
  ((host.fields.get rep).map fun data => data.has name).getD false

/-- The mutators share their guard: a missing or immutable entry is refused. -/
def mutate {α : Type} (host : WasiHttpHost) (rep : Rep) (change : FieldsData → α × FieldsData) :
    Except HeaderError α × WasiHttpHost :=
  match host.fields.get rep with
  | none => (.error .immutable, host)
  | some data =>
      if data.immutable then (.error .immutable, host)
      else (.ok (change data).1,
        { host with fields := host.fields.modify rep fun data => (change data).2 })

def set (host : WasiHttpHost) (rep : Rep) (name : FieldName) (value : List FieldValue) :
    Except HeaderError Unit × WasiHttpHost :=
  mutate host rep fun data => ((), data.set name value)

def delete (host : WasiHttpHost) (rep : Rep) (name : FieldName) :
    Except HeaderError Unit × WasiHttpHost :=
  mutate host rep fun data => ((), data.delete name)

def getAndDelete (host : WasiHttpHost) (rep : Rep) (name : FieldName) :
    Except HeaderError (List FieldValue) × WasiHttpHost :=
  mutate host rep fun data => data.getAndDelete name

def append (host : WasiHttpHost) (rep : Rep) (name : FieldName) (value : FieldValue) :
    Except HeaderError Unit × WasiHttpHost :=
  mutate host rep fun data => ((), data.append name value)

def copyAll (host : WasiHttpHost) (rep : Rep) : List (FieldName × FieldValue) :=
  ((host.fields.get rep).map FieldsData.entries).getD []

/-- A deep copy, mutable whatever the source is. -/
def clone (host : WasiHttpHost) (rep : Rep) : Rep × WasiHttpHost :=
  fromList host (copyAll host rep)

def drop (host : WasiHttpHost) (rep : Rep) : WasiHttpHost :=
  { host with fields := host.fields.remove rep }

/-- Flag the entry as immutable, if there is one. -/
def freeze (host : WasiHttpHost) (rep : Rep) : WasiHttpHost :=
  { host with fields := host.fields.modify rep fun data => { data with immutable := true } }

end HostFields

/-! ## `HostRequest` -/

namespace HostRequest

/-- A getter of a request, with the value for a rep that names none. -/
def read {α : Type} (host : WasiHttpHost) (rep : Rep) (default : α) (field : RequestData → α) : α :=
  ((host.requests.get rep).map field).getD default

def getMethod (host : WasiHttpHost) (rep : Rep) : Method := read host rep .get RequestData.method

def getPathWithQuery (host : WasiHttpHost) (rep : Rep) : Option Text :=
  read host rep none RequestData.pathWithQuery

def getScheme (host : WasiHttpHost) (rep : Rep) : Option Scheme :=
  read host rep none RequestData.scheme

def getAuthority (host : WasiHttpHost) (rep : Rep) : Option Text :=
  read host rep none RequestData.authority

/-- A setter of a request; it fails only where the rep names none. -/
def write (host : WasiHttpHost) (rep : Rep) (change : RequestData → RequestData) :
    Except Unit Unit × WasiHttpHost :=
  match host.requests.get rep with
  | none => (.error (), host)
  | some _ => (.ok (), { host with requests := host.requests.modify rep change })

def setMethod (host : WasiHttpHost) (rep : Rep) (method : Method) :
    Except Unit Unit × WasiHttpHost :=
  write host rep fun data => { data with method }

def setPathWithQuery (host : WasiHttpHost) (rep : Rep) (pathWithQuery : Option Text) :
    Except Unit Unit × WasiHttpHost :=
  write host rep fun data => { data with pathWithQuery }

def setScheme (host : WasiHttpHost) (rep : Rep) (scheme : Option Scheme) :
    Except Unit Unit × WasiHttpHost :=
  write host rep fun data => { data with scheme }

def setAuthority (host : WasiHttpHost) (rep : Rep) (authority : Option Text) :
    Except Unit Unit × WasiHttpHost :=
  write host rep fun data => { data with authority }

/-- `[static]request.new`: the handles are taken, their reps kept. -/
def new (host : WasiHttpHost) (headers : Rep) (contents : Option BodyReader)
    (trailers : TrailersFuture) (options : Option Rep) : Rep × WasiHttpHost :=
  let data : RequestData :=
    { headers, options, body := contents, trailers := some trailers }
  ((host.requests.insert data).1, { host with requests := (host.requests.insert data).2 })

/-- A new handle to the options, which are flagged immutable. -/
def getOptions (host : WasiHttpHost) (rep : Rep) : Option Rep × WasiHttpHost :=
  match (host.requests.get rep).bind RequestData.options with
  | none => (none, host)
  | some optRep =>
      (some optRep, { host with
        options := host.options.modify optRep fun data => { data with immutable := true } })

/-- A new handle to the headers, which are flagged immutable. -/
def getHeaders (host : WasiHttpHost) (rep : Rep) : Rep × WasiHttpHost :=
  let hdrRep := read host rep 0 RequestData.headers
  (hdrRep, HostFields.freeze host hdrRep)

/-- Take the stashed body stream and trailers future out of the entry. -/
def takeStreams (host : WasiHttpHost) (rep : Rep) :
    (Option BodyReader × Option TrailersFuture) × WasiHttpHost :=
  ((read host rep none RequestData.body, read host rep none RequestData.trailers),
    { host with
      requests := host.requests.modify rep fun data => { data with body := none, trailers := none } })

/-- The stashed body and trailers; an empty body and no trailers where there are none. -/
def consumeBody (host : WasiHttpHost) (rep : Rep) :
    (BodyReader × TrailersFuture) × WasiHttpHost :=
  let ((body, trailers), host) := takeStreams host rep
  ((body.getD (.buffered []), trailers.getD (.ready (.ok none))), host)

def drop (host : WasiHttpHost) (rep : Rep) : WasiHttpHost :=
  { host with requests := host.requests.remove rep }

end HostRequest

/-! ## `HostResponse` -/

namespace HostResponse

def read {α : Type} (host : WasiHttpHost) (rep : Rep) (default : α) (field : ResponseData → α) :
    α :=
  ((host.responses.get rep).map field).getD default

def getStatusCode (host : WasiHttpHost) (rep : Rep) : UInt16 :=
  read host rep 200 ResponseData.statusCode

/-- Codes outside 100 to 599 are refused. -/
def setStatusCode (host : WasiHttpHost) (rep : Rep) (statusCode : UInt16) :
    Except Unit Unit × WasiHttpHost :=
  if ¬(100 ≤ statusCode ∧ statusCode ≤ 599) then (.error (), host)
  else
    match host.responses.get rep with
    | none => (.error (), host)
    | some _ =>
        (.ok (), { host with
          responses := host.responses.modify rep fun data => { data with statusCode } })

def new (host : WasiHttpHost) (headers : Rep) (contents : Option BodyReader)
    (trailers : TrailersFuture) : Rep × WasiHttpHost :=
  let data : ResponseData :=
    { statusCode := 200, headers, body := contents, trailers := some trailers }
  ((host.responses.insert data).1, { host with responses := (host.responses.insert data).2 })

def getHeaders (host : WasiHttpHost) (rep : Rep) : Rep × WasiHttpHost :=
  let hdrRep := read host rep 0 ResponseData.headers
  (hdrRep, HostFields.freeze host hdrRep)

def consumeBody (host : WasiHttpHost) (rep : Rep) :
    (BodyReader × TrailersFuture) × WasiHttpHost :=
  (((read host rep none ResponseData.body).getD (.buffered []),
      (read host rep none ResponseData.trailers).getD (.ready (.ok none))),
    { host with
      responses :=
        host.responses.modify rep fun data => { data with body := none, trailers := none } })

def drop (host : WasiHttpHost) (rep : Rep) : WasiHttpHost :=
  { host with responses := host.responses.remove rep }

end HostResponse

/-! ## `HostRequestOptions` -/

namespace HostRequestOptions

def new (host : WasiHttpHost) : Rep × WasiHttpHost :=
  ((host.options.insert {}).1, { host with options := (host.options.insert {}).2 })

def read (host : WasiHttpHost) (rep : Rep) (field : RequestOptionsData → Option Duration) :
    Option Duration :=
  (host.options.get rep).bind field

def getConnectTimeout (host : WasiHttpHost) (rep : Rep) : Option Duration :=
  read host rep RequestOptionsData.connectTimeout

def getFirstByteTimeout (host : WasiHttpHost) (rep : Rep) : Option Duration :=
  read host rep RequestOptionsData.firstByteTimeout

def getBetweenBytesTimeout (host : WasiHttpHost) (rep : Rep) : Option Duration :=
  read host rep RequestOptionsData.betweenBytesTimeout

/-- The setters share the guard of the field mutators. -/
def write (host : WasiHttpHost) (rep : Rep) (change : RequestOptionsData → RequestOptionsData) :
    Except RequestOptionsError Unit × WasiHttpHost :=
  match host.options.get rep with
  | none => (.error .immutable, host)
  | some data =>
      if data.immutable then (.error .immutable, host)
      else (.ok (), { host with options := host.options.modify rep change })

def setConnectTimeout (host : WasiHttpHost) (rep : Rep) (duration : Option Duration) :
    Except RequestOptionsError Unit × WasiHttpHost :=
  write host rep fun data => { data with connectTimeout := duration }

def setFirstByteTimeout (host : WasiHttpHost) (rep : Rep) (duration : Option Duration) :
    Except RequestOptionsError Unit × WasiHttpHost :=
  write host rep fun data => { data with firstByteTimeout := duration }

def setBetweenBytesTimeout (host : WasiHttpHost) (rep : Rep) (duration : Option Duration) :
    Except RequestOptionsError Unit × WasiHttpHost :=
  write host rep fun data => { data with betweenBytesTimeout := duration }

/-- A deep copy, mutable whatever the source is. -/
def clone (host : WasiHttpHost) (rep : Rep) : Rep × WasiHttpHost :=
  let data := { (host.options.get rep).getD {} with immutable := false }
  ((host.options.insert data).1, { host with options := (host.options.insert data).2 })

def drop (host : WasiHttpHost) (rep : Rep) : WasiHttpHost :=
  { host with options := host.options.remove rep }

end HostRequestOptions

/-! ## What a guarded write can do -/

/-- A field mutator changes the one entry it names, or nothing. -/
theorem HostFields.mutate_cases {α : Type} (host : WasiHttpHost) (rep : Rep)
    (change : FieldsData → α × FieldsData) :
    (HostFields.mutate host rep change).2 = host ∨
      ∃ data, host.fields.get rep = some data ∧ data.immutable = false ∧
        (HostFields.mutate host rep change).2 =
          { host with fields := host.fields.modify rep fun data => (change data).2 } := by
  unfold HostFields.mutate
  cases hget : host.fields.get rep with
  | none => exact Or.inl rfl
  | some data =>
      cases himmutable : data.immutable with
      | true => exact Or.inl (by simp [himmutable])
      | false => exact Or.inr ⟨data, rfl, himmutable, by simp [himmutable]⟩

/-- A setter of the options changes the one entry it names, or nothing. -/
theorem HostRequestOptions.write_cases (host : WasiHttpHost) (rep : Rep)
    (change : RequestOptionsData → RequestOptionsData) :
    (HostRequestOptions.write host rep change).2 = host ∨
      ∃ data, host.options.get rep = some data ∧ data.immutable = false ∧
        (HostRequestOptions.write host rep change).2 =
          { host with options := host.options.modify rep change } := by
  unfold HostRequestOptions.write
  cases hget : host.options.get rep with
  | none => exact Or.inl rfl
  | some data =>
      cases himmutable : data.immutable with
      | true => exact Or.inl (by simp [himmutable])
      | false => exact Or.inr ⟨data, rfl, himmutable, by simp [himmutable]⟩

theorem HostRequest.write_cases (host : WasiHttpHost) (rep : Rep)
    (change : RequestData → RequestData) :
    (HostRequest.write host rep change).2 = host ∨
      (HostRequest.write host rep change).2 =
        { host with requests := host.requests.modify rep change } := by
  unfold HostRequest.write
  cases host.requests.get rep with
  | none => exact Or.inl rfl
  | some data => exact Or.inr rfl

theorem HostResponse.setStatusCode_cases (host : WasiHttpHost) (rep : Rep) (statusCode : UInt16) :
    (HostResponse.setStatusCode host rep statusCode).2 = host ∨
      (HostResponse.setStatusCode host rep statusCode).2 =
        { host with
          responses := host.responses.modify rep fun data => { data with statusCode } } := by
  unfold HostResponse.setStatusCode
  split
  · exact Or.inl rfl
  · cases host.responses.get rep with
    | none => exact Or.inl rfl
    | some data => exact Or.inr rfl

end HellohqRuntime.Http.Resources

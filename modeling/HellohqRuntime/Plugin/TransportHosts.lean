import HellohqRuntime.Foundation.Json
import HellohqRuntime.Plugin.Base64
import HellohqRuntime.Plugin.Types

/-!
# Transport-backed capability hosts

A typed call of the guest goes to the app as one JSON request and comes back as an
envelope with `ok`, `data` and `error`.  Two hosts serve one interface each, and the
unified host serves all of them with a bridge of its own.  The JSON library is a
parameter.  The main result is that the unified host agrees with the focused ones,
and that all three fail closed.
-/

namespace HellohqRuntime.Plugin.TransportHosts

open HellohqRuntime.Foundation.Strings
open HellohqRuntime.Foundation.Utf8
open HellohqRuntime.Foundation.Json
open HellohqRuntime.Plugin.Base64
open HellohqRuntime.Plugin.Types

/-- The JSON library: `to_vec` and `from_slice`, with the texts of their errors. -/
structure Serde where
  toVec : Value → Except Text Bytes
  fromSlice : Bytes → Except Text Value

/-- What becomes of a request that is put on the channel to the app. -/
inductive Outcome where
  | closedBeforeSend
  | closedBeforeReply
  | replied (resp : Bytes)
  deriving DecidableEq, Repr

/-- A typed call: the request it puts on the channel, if any, and its result. -/
structure Called (α : Type) where
  sent : Option Bytes
  result : Except ApiError α

/-- Go on with the value of a call (`?`). -/
def Called.andThen {α β : Type} (called : Called α) (next : α → Except ApiError β) : Called β where
  sent := called.sent
  result := called.result.bind next

def apiErr (code message : Text) : ApiError where
  code := code
  message := message

/-! ## The host for `storage` and `events` -/

/-- How a `storage_get` reads the `data` of its reply: a string is base64, anything else
is no value. -/
def storageValue (data : Value) : Except ApiError (Option Bytes) :=
  match data.asStr with
  | some b64 =>
      match b64Decode b64 with
      | some bytes => .ok (some bytes)
      | none => .error (apiErr "bad-response".toList "storage value was not valid base64".toList)
  | none => .ok none

@[simp] theorem storageValue_b64Encode (bytes : Bytes) :
    storageValue (.string (b64Encode bytes)) = .ok (some bytes) := by
  simp only [storageValue, Value.asStr, b64Decode_b64Encode]

namespace TransportStorageEventsHost

variable (json : Serde) (roundTrip : Bytes → Outcome)

/-- Forward a host call and unwrap the `data` of the reply. -/
def call (request : Value) : Called Value :=
  match json.toVec request with
  | .error e => { sent := none, result := .error (apiErr "bad-request".toList e) }
  | .ok bytes =>
      { sent := some bytes
        result :=
          match roundTrip bytes with
          | .closedBeforeSend => .error (apiErr "not-found".toList "host transport closed".toList)
          | .closedBeforeReply => .error (apiErr "not-found".toList "host transport closed".toList)
          | .replied resp =>
              match json.fromSlice resp with
              | .error e => .error (apiErr "bad-response".toList e)
              | .ok v =>
                  if ((v.get "ok".toList).bind Value.asBool).getD false then
                    .ok ((v.get "data".toList).getD .null)
                  else
                    .error (apiErr "permission-denied".toList
                      (((v.get "error".toList).bind Value.asStr).getD "denied".toList)) }

/-- Null, or anything that is not a string, reads as an absent key. -/
def get (key : Text) : Called (Option Bytes) :=
  (call json roundTrip
      (jsonObject [("method".toList, .string "storage_get".toList),
        ("key".toList, .string key)])).andThen storageValue

def set (key : Text) (value : Bytes) : Called Unit :=
  (call json roundTrip
      (jsonObject [("method".toList, .string "storage_set".toList), ("key".toList, .string key),
        ("value".toList, .string (b64Encode value))])).andThen fun _ => .ok ()

def delete (key : Text) : Called Unit :=
  (call json roundTrip
      (jsonObject [("method".toList, .string "storage_delete".toList),
        ("key".toList, .string key)])).andThen fun _ => .ok ()

def clear : Called Unit :=
  (call json roundTrip
      (jsonObject [("method".toList, .string "storage_clear".toList)])).andThen fun _ => .ok ()

def listKeys : Called (List Text) :=
  (call json roundTrip
      (jsonObject [("method".toList, .string "storage_list_keys".toList)])).andThen fun data =>
    .ok ((data.asArray.map fun arr => arr.filterMap Value.asStr).getD [])

def emit (event : PluginEvent) : Called Unit :=
  (call json roundTrip
      (jsonObject [("method".toList, .string "emit_event".toList),
        ("name".toList, .string event.kind),
        ("payload".toList, .string (b64Encode event.payload))])).andThen fun _ => .ok ()

end TransportStorageEventsHost

/-! ## The host for `workspace` -/

namespace TransportWorkspaceHost

variable (json : Serde) (roundTrip : Bytes → Outcome)

def transportGone : ApiError where
  code := "not-found".toList
  message := "host transport closed before the call was serviced".toList

/-- Forward opaque request bytes. -/
def call (request : Bytes) : Except ApiError Bytes :=
  match roundTrip request with
  | .closedBeforeSend => .error transportGone
  | .closedBeforeReply => .error transportGone
  | .replied resp => .ok resp

/-- Encode a typed read, forward it and unwrap the `data` of the reply. -/
def forward (method : Text) (portfolioId : Option Text) : Called Value :=
  let req := jsonObject (("method".toList, .string method) ::
    (portfolioId.map fun pid => ("portfolio_id".toList, Value.string pid)).toList)
  match json.toVec req with
  | .error e => { sent := none, result := .error { code := "bad-request".toList, message := e } }
  | .ok request =>
      { sent := some request
        result :=
          match call roundTrip request with
          | .error err => .error err
          | .ok resp =>
              match json.fromSlice resp with
              | .error e => .error { code := "bad-response".toList, message := e }
              | .ok v =>
                  if ((v.get "ok".toList).bind Value.asBool).getD false then
                    .ok ((v.get "data".toList).getD .null)
                  else
                    .error {
                      code := "permission-denied".toList
                      message := ((v.get "error".toList).bind Value.asStr).getD "denied".toList } }

/-- The text of a member, empty where it is missing or not a string. -/
def s (v : Value) (k : Text) : Text := ((v.get k).bind Value.asStr).getD []

def decodePortfolioNames (data : Value) : List PortfolioName :=
  (data.asArray.map fun arr =>
    arr.map fun i => { id := s i "id".toList, name := s i "name".toList }).getD []

def readPortfolioNames : Called (List PortfolioName) :=
  (forward json roundTrip "read:portfolio_names".toList none).andThen fun d =>
    .ok (decodePortfolioNames d)

end TransportWorkspaceHost

/-! ## The unified host -/

inductive Level where
  | trace | debug | info | warn | error
  deriving DecidableEq, Repr

namespace TransportPluginHost

variable (json : Serde) (roundTrip : Bytes → Outcome)

def notWired (method : Text) : ApiError :=
  apiErr "not-found".toList (method ++
    ": not wired in the C1 keystone (follows the proven per-capability bridge)".toList)

/-- Forward a host call and unwrap the `data` of the reply. -/
def forward (request : Value) : Called Value :=
  match json.toVec request with
  | .error e => { sent := none, result := .error (apiErr "bad-request".toList e) }
  | .ok bytes =>
      { sent := some bytes
        result :=
          match roundTrip bytes with
          | .closedBeforeSend => .error (apiErr "not-found".toList "host transport closed".toList)
          | .closedBeforeReply => .error (apiErr "not-found".toList "host transport closed".toList)
          | .replied resp =>
              match json.fromSlice resp with
              | .error e => .error (apiErr "bad-response".toList e)
              | .ok v =>
                  if ((v.get "ok".toList).bind Value.asBool).getD false then
                    .ok ((v.get "data".toList).getD .null)
                  else
                    .error (apiErr "permission-denied".toList
                      (((v.get "error".toList).bind Value.asStr).getD "denied".toList)) }

def readPortfolioNames : Called (List PortfolioName) :=
  (forward json roundTrip
      (jsonObject [("method".toList, .string "read:portfolio_names".toList)])).andThen fun data =>
    .ok ((data.asArray.map fun arr =>
      arr.map fun i =>
        { id := ((i.get "id".toList).bind Value.asStr).getD []
          name := ((i.get "name".toList).bind Value.asStr).getD [] }).getD [])

/-- The calls that the host refuses without asking the app. -/
def refused {α : Type} (method : Text) : Called α where
  sent := none
  result := .error (notWired method)

def get (key : Text) : Called (Option Bytes) :=
  (forward json roundTrip
      (jsonObject [("method".toList, .string "storage_get".toList),
        ("key".toList, .string key)])).andThen storageValue

def set (key : Text) (value : Bytes) : Called Unit :=
  (forward json roundTrip
      (jsonObject [("method".toList, .string "storage_set".toList), ("key".toList, .string key),
        ("value".toList, .string (b64Encode value))])).andThen fun _ => .ok ()

def delete (_key : Text) : Called Unit := refused "storage.delete".toList

def clear : Called Unit := refused "storage.clear".toList

def listKeys : Called (List Text) := refused "storage.list-keys".toList

def emit (event : PluginEvent) : Called Unit :=
  (forward json roundTrip
      (jsonObject [("method".toList, .string "emit_event".toList),
        ("name".toList, .string event.kind),
        ("payload".toList, .string (b64Encode event.payload))])).andThen fun _ => .ok ()

def levelText : Level → Text
  | .trace => "trace".toList
  | .debug => "debug".toList
  | .info => "info".toList
  | .warn => "warn".toList
  | .error => "error".toList

/-- Best effort: the reply is ignored. -/
def write (level : Level) (message : Text) : Option Bytes :=
  (forward json roundTrip
      (jsonObject [("method".toList, .string "log".toList),
        ("level".toList, .string (levelText level)), ("message".toList, .string message)])).sent

end TransportPluginHost

variable {α β : Type} {json : Serde} {roundTrip : Bytes → Outcome}

def Outcome.closed : Outcome → Bool
  | .closedBeforeSend => true
  | .closedBeforeReply => true
  | .replied _ => false

/-! ## The bridge, outcome by outcome -/

/-- The test of the envelope is that `ok` is the boolean `true`. -/
theorem ok_getD_iff (v : Value) :
    ((v.get "ok".toList).bind Value.asBool).getD false = true ↔
      v.get "ok".toList = some (.bool true) := by
  cases v.get "ok".toList with
  | none => simp
  | some member => cases member <;> simp [Value.asBool]

section Forward

variable {request : Value} {bytes resp : Bytes} (hbytes : json.toVec request = .ok bytes)
include hbytes

theorem forward_of_closed (hclosed : (roundTrip bytes).closed = true) :
    TransportPluginHost.forward json roundTrip request =
      { sent := some bytes
        result := .error (apiErr "not-found".toList "host transport closed".toList) } := by
  rw [TransportPluginHost.forward, hbytes]
  cases houtcome : roundTrip bytes with
  | closedBeforeSend => simp only [houtcome]
  | closedBeforeReply => simp only [houtcome]
  | replied resp =>
      rw [houtcome] at hclosed
      cases hclosed

variable (hreply : roundTrip bytes = .replied resp)
include hreply

theorem forward_of_malformed {e : Text} (hparse : json.fromSlice resp = .error e) :
    TransportPluginHost.forward json roundTrip request =
      { sent := some bytes, result := .error (apiErr "bad-response".toList e) } := by
  rw [TransportPluginHost.forward, hbytes]
  simp only [hreply, hparse]

theorem forward_of_ok {v : Value} (hparse : json.fromSlice resp = .ok v)
    (hok : v.get "ok".toList = some (.bool true)) :
    TransportPluginHost.forward json roundTrip request =
      { sent := some bytes, result := .ok ((v.get "data".toList).getD .null) } := by
  rw [TransportPluginHost.forward, hbytes]
  simp only [hreply, hparse, if_pos ((ok_getD_iff v).mpr hok)]

theorem forward_of_denied {v : Value} (hparse : json.fromSlice resp = .ok v)
    (hok : v.get "ok".toList ≠ some (.bool true)) :
    TransportPluginHost.forward json roundTrip request =
      { sent := some bytes
        result := .error (apiErr "permission-denied".toList
          (((v.get "error".toList).bind Value.asStr).getD "denied".toList)) } := by
  rw [TransportPluginHost.forward, hbytes]
  simp only [hreply, hparse, if_neg (mt (ok_getD_iff v).mp hok)]

end Forward

/-! ## Agreement -/

def HasCode (result : Except ApiError α) (code : Text) : Prop :=
  ∃ err, result = .error err ∧ err.code = code

/-- The same request, and the same result but for the text of a closed transport. -/
structure Agree (roundTrip : Bytes → Outcome) (left right : Called α) : Prop where
  sent : left.sent = right.sent
  result : left.result = right.result ∨
    ∃ request, left.sent = some request ∧ (roundTrip request).closed = true ∧
      HasCode left.result "not-found".toList ∧ HasCode right.result "not-found".toList

theorem HasCode.bind {result : Except ApiError α} {code : Text} (hcode : HasCode result code)
    (next : α → Except ApiError β) : HasCode (result.bind next) code := by
  obtain ⟨err, rfl, herr⟩ := hcode
  exact ⟨err, rfl, herr⟩

theorem Agree.andThen {left right : Called α} (hagree : Agree roundTrip left right)
    (next : α → Except ApiError β) : Agree roundTrip (left.andThen next) (right.andThen next) where
  sent := hagree.sent
  result := by
    rcases hagree.result with hsame | ⟨request, hsent, hclosed, hleft, hright⟩
    · left
      simp only [Called.andThen, hsame]
    · right
      exact ⟨request, hsent, hclosed, hleft.bind next, hright.bind next⟩

/-- The bridge of the workspace host is that of the unified host. -/
theorem forward_agree (json : Serde) (roundTrip : Bytes → Outcome) (method : Text)
    (portfolioId : Option Text) :
    Agree roundTrip
      (TransportPluginHost.forward json roundTrip
        (jsonObject (("method".toList, .string method) ::
          (portfolioId.map fun pid => ("portfolio_id".toList, Value.string pid)).toList)))
      (TransportWorkspaceHost.forward json roundTrip method portfolioId) := by
  simp only [TransportPluginHost.forward, TransportWorkspaceHost.forward]
  cases json.toVec (jsonObject (("method".toList, .string method) ::
    (portfolioId.map fun pid => ("portfolio_id".toList, Value.string pid)).toList)) with
  | error e => exact ⟨rfl, Or.inl rfl⟩
  | ok request =>
      refine ⟨rfl, ?_⟩
      simp only [TransportWorkspaceHost.call]
      cases houtcome : roundTrip request with
      | closedBeforeSend =>
          right
          exact ⟨request, rfl, by rw [houtcome]; rfl, ⟨_, rfl, rfl⟩, ⟨_, rfl, rfl⟩⟩
      | closedBeforeReply =>
          right
          exact ⟨request, rfl, by rw [houtcome]; rfl, ⟨_, rfl, rfl⟩, ⟨_, rfl, rfl⟩⟩
      | replied resp => exact Or.inl rfl

/-! ## Failing closed -/

/-- Success needs a reply that says so, and each other end has its code. -/
structure FailsClosed (json : Serde) (outcome : Outcome) (result : Except ApiError α) : Prop where
  ok : ∀ value, result = .ok value → ∃ resp v, outcome = .replied resp ∧
    json.fromSlice resp = .ok v ∧ v.get "ok".toList = some (.bool true)
  denied : ∀ resp v, outcome = .replied resp → json.fromSlice resp = .ok v →
    v.get "ok".toList ≠ some (.bool true) → HasCode result "permission-denied".toList
  badResponse : ∀ resp e, outcome = .replied resp → json.fromSlice resp = .error e →
    HasCode result "bad-response".toList
  closed : outcome.closed = true → HasCode result "not-found".toList

/-- The request is put on the channel and the result fails closed. -/
def CallFailsClosed (json : Serde) (roundTrip : Bytes → Outcome) (called : Called α) : Prop :=
  ∃ request, called.sent = some request ∧ FailsClosed json (roundTrip request) called.result

theorem FailsClosed.bind {outcome : Outcome} {result : Except ApiError α}
    (hfails : FailsClosed json outcome result) (next : α → Except ApiError β) :
    FailsClosed json outcome (result.bind next) where
  ok := by
    intro value hvalue
    cases hresult : result with
    | error err =>
        rw [hresult] at hvalue
        cases hvalue
    | ok data => exact hfails.ok data hresult
  denied := fun resp v houtcome hparse hok => (hfails.denied resp v houtcome hparse hok).bind next
  badResponse := fun resp e houtcome hparse => (hfails.badResponse resp e houtcome hparse).bind next
  closed := fun hclosed => (hfails.closed hclosed).bind next

theorem CallFailsClosed.andThen {called : Called α} (hfails : CallFailsClosed json roundTrip called)
    (next : α → Except ApiError β) : CallFailsClosed json roundTrip (called.andThen next) := by
  obtain ⟨request, hsent, hresult⟩ := hfails
  exact ⟨request, hsent, hresult.bind next⟩

theorem failsClosed_of_closed {outcome : Outcome} {err : ApiError} (hclosed : outcome.closed = true)
    (hcode : err.code = "not-found".toList) :
    FailsClosed json outcome (.error err : Except ApiError α) where
  ok := nofun
  denied := by
    rintro resp v rfl
    cases hclosed
  badResponse := by
    rintro resp e rfl
    cases hclosed
  closed := fun _ => ⟨err, rfl, hcode⟩

theorem failsClosed_of_malformed {resp : Bytes} {e : Text} {err : ApiError}
    (hparse : json.fromSlice resp = .error e) (hcode : err.code = "bad-response".toList) :
    FailsClosed json (.replied resp) (.error err : Except ApiError α) where
  ok := nofun
  denied := by
    intro other v hother hv
    obtain rfl := Outcome.replied.inj hother
    rw [hparse] at hv
    cases hv
  badResponse := fun _ _ _ _ => ⟨err, rfl, hcode⟩
  closed := nofun

theorem failsClosed_of_denied {resp : Bytes} {v : Value} {err : ApiError}
    (hparse : json.fromSlice resp = .ok v) (hcode : err.code = "permission-denied".toList) :
    FailsClosed json (.replied resp) (.error err : Except ApiError α) where
  ok := nofun
  denied := fun _ _ _ _ _ => ⟨err, rfl, hcode⟩
  badResponse := by
    intro other e hother he
    obtain rfl := Outcome.replied.inj hother
    rw [hparse] at he
    cases he
  closed := nofun

theorem failsClosed_of_ok {resp : Bytes} {v : Value} {value : α}
    (hparse : json.fromSlice resp = .ok v) (hok : v.get "ok".toList = some (.bool true)) :
    FailsClosed json (.replied resp) (.ok value : Except ApiError α) where
  ok := fun _ _ => ⟨resp, v, rfl, hparse, hok⟩
  denied := by
    intro other parsed hother hparsed hnot
    obtain rfl := Outcome.replied.inj hother
    obtain rfl := Except.ok.inj (hparse.symm.trans hparsed)
    exact absurd hok hnot
  badResponse := by
    intro other e hother he
    obtain rfl := Outcome.replied.inj hother
    rw [hparse] at he
    cases he
  closed := nofun

theorem failsClosed_forward {request : Value} {bytes : Bytes}
    (hbytes : json.toVec request = .ok bytes) :
    CallFailsClosed json roundTrip (TransportPluginHost.forward json roundTrip request) := by
  cases houtcome : roundTrip bytes with
  | closedBeforeSend =>
      have hclosed : (roundTrip bytes).closed = true := by rw [houtcome]; rfl
      rw [forward_of_closed hbytes hclosed]
      exact ⟨bytes, rfl, failsClosed_of_closed hclosed rfl⟩
  | closedBeforeReply =>
      have hclosed : (roundTrip bytes).closed = true := by rw [houtcome]; rfl
      rw [forward_of_closed hbytes hclosed]
      exact ⟨bytes, rfl, failsClosed_of_closed hclosed rfl⟩
  | replied resp =>
      cases hparse : json.fromSlice resp with
      | error e =>
          rw [forward_of_malformed hbytes houtcome hparse]
          refine ⟨bytes, rfl, ?_⟩
          rw [houtcome]
          exact failsClosed_of_malformed hparse rfl
      | ok v =>
          by_cases hok : v.get "ok".toList = some (.bool true)
          · rw [forward_of_ok hbytes houtcome hparse hok]
            refine ⟨bytes, rfl, ?_⟩
            rw [houtcome]
            exact failsClosed_of_ok hparse hok
          · rw [forward_of_denied hbytes houtcome hparse hok]
            refine ⟨bytes, rfl, ?_⟩
            rw [houtcome]
            exact failsClosed_of_denied hparse rfl

/-- A call that agrees with one that fails closed does so too. -/
theorem CallFailsClosed.of_agree {left right : Called α} (hagree : Agree roundTrip left right)
    (hfails : CallFailsClosed json roundTrip left) : CallFailsClosed json roundTrip right := by
  obtain ⟨request, hsent, hresult⟩ := hfails
  refine ⟨request, hagree.sent ▸ hsent, ?_⟩
  rcases hagree.result with hsame | ⟨other, hother, hclosed, hleft, err, herr, hcode⟩
  · rw [← hsame]
    exact hresult
  · obtain rfl := Option.some.inj (hsent.symm.trans hother)
    rw [herr]
    exact failsClosed_of_closed hclosed hcode

/-- The library encodes every object whose members are strings. -/
def Serde.EncodesStrings (json : Serde) : Prop :=
  ∀ members : List (Text × Text), ∃ bytes,
    json.toVec (jsonObject (members.map fun member => (member.1, .string member.2))) = .ok bytes

/-- The unified host sends what the focused hosts send and answers what they answer,
and every call fails closed. -/
theorem unified_agrees (hencodes : json.EncodesStrings) (roundTrip : Bytes → Outcome) (key : Text)
    (value : Bytes) (event : PluginEvent) :
    (Agree roundTrip (TransportPluginHost.readPortfolioNames json roundTrip)
        (TransportWorkspaceHost.readPortfolioNames json roundTrip) ∧
      TransportPluginHost.get json roundTrip key =
        TransportStorageEventsHost.get json roundTrip key ∧
      TransportPluginHost.set json roundTrip key value =
        TransportStorageEventsHost.set json roundTrip key value ∧
      TransportPluginHost.emit json roundTrip event =
        TransportStorageEventsHost.emit json roundTrip event) ∧
    (CallFailsClosed json roundTrip (TransportPluginHost.readPortfolioNames json roundTrip) ∧
      CallFailsClosed json roundTrip (TransportPluginHost.get json roundTrip key) ∧
      CallFailsClosed json roundTrip (TransportPluginHost.set json roundTrip key value) ∧
      CallFailsClosed json roundTrip (TransportPluginHost.emit json roundTrip event)) ∧
    CallFailsClosed json roundTrip (TransportWorkspaceHost.readPortfolioNames json roundTrip) ∧
    CallFailsClosed json roundTrip (TransportStorageEventsHost.get json roundTrip key) ∧
    CallFailsClosed json roundTrip (TransportStorageEventsHost.set json roundTrip key value) ∧
    CallFailsClosed json roundTrip (TransportStorageEventsHost.emit json roundTrip event) := by
  have hforward : ∀ members : List (Text × Text), CallFailsClosed json roundTrip
      (TransportPluginHost.forward json roundTrip
        (jsonObject (members.map fun member => (member.1, .string member.2)))) := by
    intro members
    obtain ⟨bytes, hbytes⟩ := hencodes members
    exact failsClosed_forward hbytes
  have hnames := (forward_agree json roundTrip "read:portfolio_names".toList none).andThen
    fun d => .ok (TransportWorkspaceHost.decodePortfolioNames d)
  have hreads : CallFailsClosed json roundTrip
      (TransportPluginHost.readPortfolioNames json roundTrip) :=
    (hforward [("method".toList, "read:portfolio_names".toList)]).andThen _
  have hget : CallFailsClosed json roundTrip (TransportPluginHost.get json roundTrip key) :=
    (hforward [("method".toList, "storage_get".toList), ("key".toList, key)]).andThen _
  have hset : CallFailsClosed json roundTrip (TransportPluginHost.set json roundTrip key value) :=
    (hforward [("method".toList, "storage_set".toList), ("key".toList, key),
      ("value".toList, b64Encode value)]).andThen _
  have hemit : CallFailsClosed json roundTrip (TransportPluginHost.emit json roundTrip event) :=
    (hforward [("method".toList, "emit_event".toList), ("name".toList, event.kind),
      ("payload".toList, b64Encode event.payload)]).andThen _
  refine ⟨⟨hnames, rfl, rfl, rfl⟩, ⟨hreads, hget, hset, hemit⟩, ?_, hget, hset, hemit⟩
  exact CallFailsClosed.of_agree hnames hreads

/-! ## A library for small documents -/

/-- A text without quotes, backslashes and control characters as a JSON string. -/
def quote (text : Text) : Text := '"' :: text ++ ['"']

mutual

/-- Print a document without white space; numbers are left out. -/
def print : Value → Text
  | .null => "null".toList
  | .bool true => "true".toList
  | .bool false => "false".toList
  | .number _ => []
  | .string text => quote text
  | .array items => "[".toList ++ printItems items ++ "]".toList
  | .object members => "\x7b".toList ++ printMembers members ++ "\x7d".toList
termination_by structural value => value

def printItems : List Value → Text
  | [] => []
  | item :: rest => print item ++ (if rest.isEmpty then [] else ",".toList) ++ printItems rest
termination_by structural items => items

def printMembers : List (Text × Value) → Text
  | [] => []
  | (name, value) :: rest =>
      quote name ++ ":".toList ++ print value ++ (if rest.isEmpty then [] else ",".toList) ++
        printMembers rest
termination_by structural members => members

end

/-- The library prints every document and parses what the known ones print as. -/
def sampleSerde (known : List Value) : Serde where
  toVec := fun value => .ok (asBytes (print value))
  fromSlice := fun bytes =>
    match known.find? fun value => asBytes (print value) == bytes with
    | some value => .ok value
    | none => .error "expected value".toList

theorem sampleSerde_encodesStrings (known : List Value) :
    (sampleSerde known).EncodesStrings := fun _ => ⟨_, rfl⟩

/-- Both hosts read the stored value, and would not have done so without `ok`. -/
theorem unified_agrees_example :
    let reply := jsonObject [("ok".toList, .bool true), ("data".toList, .string "aGk=".toList)]
    let json := sampleSerde [reply]
    let roundTrip := fun _ => Outcome.replied (asBytes (print reply))
    (TransportPluginHost.get json roundTrip ['k']).result = .ok (some [0x68, 0x69]) ∧
      TransportPluginHost.get json roundTrip ['k'] =
        TransportStorageEventsHost.get json roundTrip ['k'] ∧
      CallFailsClosed json roundTrip (TransportPluginHost.get json roundTrip ['k']) := by
  intro reply json roundTrip
  obtain ⟨⟨-, hget, -⟩, ⟨-, hfails, -⟩, -⟩ :=
    unified_agrees (sampleSerde_encodesStrings [reply]) roundTrip ['k'] []
      { kind := ['e'], payload := [] }
  exact ⟨by decide, hget, hfails⟩

end HellohqRuntime.Plugin.TransportHosts

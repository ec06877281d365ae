import Mathlib
import HellohqRuntime.Foundation.KeyValue
import HellohqRuntime.Foundation.Runs
import HellohqRuntime.Plugin.TransportHosts

/-!
# Byte storage over a string store

The app keeps strings under keys.  The typed host asks it for every call and carries
the bytes as base64 strings.  Over such an app the typed calls are those of a plain
map from keys to bytes.  Each document that is exchanged has to survive the JSON
library.
-/

namespace HellohqRuntime.Plugin.ByteStorage

open HellohqRuntime.Foundation.Strings
open HellohqRuntime.Foundation.Json
open HellohqRuntime.Foundation.KeyValue
open HellohqRuntime.Foundation.Runs
open HellohqRuntime.Plugin.Base64
open HellohqRuntime.Plugin.Types
open HellohqRuntime.Plugin.TransportHosts

/-! ## The app -/

/-- The strings the app keeps. -/
abbrev App := Entries Text Text

/-- The order in which an app lists its keys. -/
structure Listing where
  list : App → List Text
  perm : ∀ app, (list app).Perm app.keys

def member (request : Value) (name : Text) : Text := ((request.get name).bind Value.asStr).getD []

/-- The reply to a request, and the strings after it. -/
def App.service (listing : Listing) (app : App) (request : Value) : Value × App :=
  let method := member request "method".toList
  let key := member request "key".toList
  if method = "storage_set".toList then
    (jsonObject [("ok".toList, .bool true)], app.insert key (member request "value".toList))
  else if method = "storage_get".toList then
    (jsonObject [("ok".toList, .bool true),
      ("data".toList, match app.lookup key with | some b64 => .string b64 | none => .null)], app)
  else if method = "storage_delete".toList then
    (jsonObject [("ok".toList, .bool true)], app.erase key)
  else if method = "storage_clear".toList then (jsonObject [("ok".toList, .bool true)], ∅)
  else if method = "storage_list_keys".toList then
    (jsonObject [("ok".toList, .bool true),
      ("data".toList, .array ((listing.list app).map Value.string))], app)
  else
    (jsonObject [("ok".toList, .bool false), ("error".toList, .string "denied".toList)], app)

/-- Read a request, service it and write the reply. -/
def App.handle (json : Serde) (listing : Listing) (app : App) (bytes : Bytes) :
    Option (Bytes × App) :=
  match json.fromSlice bytes with
  | .error _ => none
  | .ok request =>
      match json.toVec (app.service listing request).1 with
      | .error _ => none
      | .ok resp => some (resp, (app.service listing request).2)

/-- An app that cannot read or write a document lets go of the call. -/
def App.roundTrip (json : Serde) (listing : Listing) (app : App) (bytes : Bytes) : Outcome :=
  match app.handle json listing bytes with
  | some (resp, _) => .replied resp
  | none => .closedBeforeReply

/-! ## Typed calls -/

/-- A typed call on the host, over whatever answers it. -/
def ask (json : Serde) (roundTrip : Bytes → Outcome) :
    Call Text Bytes → Called (Reply Text Bytes)
  | .get key =>
      (TransportStorageEventsHost.get json roundTrip key).andThen fun found => .ok (.value found)
  | .set key value =>
      (TransportStorageEventsHost.set json roundTrip key value).andThen fun _ => .ok .done
  | .delete key =>
      (TransportStorageEventsHost.delete json roundTrip key).andThen fun _ => .ok .done
  | .clear => (TransportStorageEventsHost.clear json roundTrip).andThen fun _ => .ok .done
  | .listKeys =>
      (TransportStorageEventsHost.listKeys json roundTrip).andThen fun keys => .ok (.keys keys)

/-- A typed call serviced by the app: its result, and the strings after it. -/
def App.answer (json : Serde) (listing : Listing) (app : App) (call : Call Text Bytes) :
    Except ApiError (Reply Text Bytes) × App :=
  let called := ask json (app.roundTrip json listing) call
  (called.result, ((called.sent.bind (app.handle json listing)).map Prod.snd).getD app)

/-- The results of a sequence of typed calls, and the strings after them. -/
def App.answers (json : Serde) (listing : Listing) :
    App → List (Call Text Bytes) → List (Except ApiError (Reply Text Bytes)) × App
  | app, [] => ([], app)
  | app, call :: rest =>
      let answered := app.answer json listing call
      let more := App.answers json listing answered.2 rest
      (answered.1 :: more.1, more.2)

/-! ## Requests and replies -/

/-- The document that a typed call sends. -/
def requestOf : Call Text Bytes → Value
  | .get key => jsonObject [("method".toList, .string "storage_get".toList),
      ("key".toList, .string key)]
  | .set key value => jsonObject [("method".toList, .string "storage_set".toList),
      ("key".toList, .string key), ("value".toList, .string (b64Encode value))]
  | .delete key => jsonObject [("method".toList, .string "storage_delete".toList),
      ("key".toList, .string key)]
  | .clear => jsonObject [("method".toList, .string "storage_clear".toList)]
  | .listKeys => jsonObject [("method".toList, .string "storage_list_keys".toList)]

/-- The documents exchanged in a sequence of calls. -/
def exchanged (listing : Listing) : App → List (Call Text Bytes) → List Value
  | _, [] => []
  | app, call :: rest =>
      requestOf call :: (app.service listing (requestOf call)).1 ::
        exchanged listing (app.service listing (requestOf call)).2 rest

/-- The library reads a document back from what it writes for it. -/
def Survives (json : Serde) (value : Value) : Prop :=
  ∃ bytes, json.toVec value = .ok bytes ∧ json.fromSlice bytes = .ok value

/-- How a typed call reads the `data` of a reply. -/
def decodeData : Call Text Bytes → Value → Except ApiError (Reply Text Bytes)
  | .get _, data => (storageValue data).map .value
  | .listKeys, data =>
      .ok (.keys ((data.asArray.map fun arr => arr.filterMap Value.asStr).getD []))
  | .set _ _, _ => .ok .done
  | .delete _, _ => .ok .done
  | .clear, _ => .ok .done

theorem andThen_andThen {α β γ : Type} (called : Called α) (first : α → Except ApiError β)
    (second : β → Except ApiError γ) :
    (called.andThen first).andThen second = called.andThen fun value => (first value).bind second := by
  obtain ⟨sent, result⟩ := called
  cases result with
  | error err => rfl
  | ok value => rfl

/-- Every typed call is one round trip and a reading of its `data`. -/
theorem ask_eq (json : Serde) (roundTrip : Bytes → Outcome) (call : Call Text Bytes) :
    ask json roundTrip call =
      (TransportPluginHost.forward json roundTrip (requestOf call)).andThen (decodeData call) := by
  cases call with
  | get key =>
      rw [ask, TransportStorageEventsHost.get, andThen_andThen]
      apply congrArg
      funext data
      rw [decodeData]
      cases storageValue data with
      | error err => rfl
      | ok value => rfl
  | set key value => exact andThen_andThen _ _ _
  | delete key => exact andThen_andThen _ _ _
  | clear => exact andThen_andThen _ _ _
  | listKeys => exact andThen_andThen _ _ _

variable {json : Serde} {listing : Listing} {app : App} {call : Call Text Bytes}

/-- A request that survives reaches the app, and a reply that survives comes back. -/
theorem answer_of_survives (hrequest : Survives json (requestOf call))
    (hreply : Survives json (app.service listing (requestOf call)).1)
    (hok : (app.service listing (requestOf call)).1.get "ok".toList = some (.bool true)) :
    app.answer json listing call =
      (decodeData call (((app.service listing (requestOf call)).1.get "data".toList).getD .null),
        (app.service listing (requestOf call)).2) := by
  obtain ⟨bytes, hwritten, hread⟩ := hrequest
  obtain ⟨resp, hrespWritten, hrespRead⟩ := hreply
  have hhandle : app.handle json listing bytes =
      some (resp, (app.service listing (requestOf call)).2) := by
    rw [App.handle, hread]
    simp only [hrespWritten]
  have hroundTrip : app.roundTrip json listing bytes = .replied resp := by
    rw [App.roundTrip, hhandle]
  simp only [App.answer, ask_eq, forward_of_ok hwritten hroundTrip hrespRead hok, Called.andThen,
    Option.bind_some, hhandle, Option.map_some, Option.getD_some]
  rfl

/-! ## Simulation -/

/-- The app holds the base64 of each value of the store. -/
def Encodes (app : App) (store : Store Text Bytes) : Prop :=
  ∀ key, app.lookup key = (store.lookup key).map b64Encode

theorem Encodes.mem_iff {store : Store Text Bytes} (hencodes : Encodes app store) (key : Text) :
    key ∈ app.keys ↔ key ∈ store := by
  rw [← AList.mem_keys, ← AList.lookup_isSome, ← Finmap.lookup_isSome, hencodes key,
    Option.isSome_map]

theorem Encodes.insert {store : Store Text Bytes} (hencodes : Encodes app store) (key : Text)
    (value : Bytes) : Encodes (app.insert key (b64Encode value)) (store.insert key value) := by
  intro other
  by_cases hother : other = key
  · rw [hother, AList.lookup_insert, Finmap.lookup_insert]
    rfl
  · rw [AList.lookup_insert_ne hother, Finmap.lookup_insert_of_ne _ hother]
    exact hencodes other

theorem Encodes.erase {store : Store Text Bytes} (hencodes : Encodes app store) (key : Text) :
    Encodes (app.erase key) (store.erase key) := by
  intro other
  by_cases hother : other = key
  · rw [hother, AList.lookup_erase, Finmap.lookup_erase]
    rfl
  · rw [AList.lookup_erase_ne hother, Finmap.lookup_erase_ne hother]
    exact hencodes other

theorem encodes_empty : Encodes ∅ ∅ := fun _ => rfl

theorem filterMap_asStr_map_string (keys : List Text) :
    (keys.map Value.string).filterMap Value.asStr = keys := by
  rw [List.filterMap_map]
  exact List.filterMap_some

theorem member_jsonObject (members : List (Text × Value)) (name : Text) :
    member (jsonObject members) name =
      ((members.reverse.lookup name).bind Value.asStr).getD [] := by
  rw [member, get_jsonObject]

/-- What the app does with the request of each typed call. -/
theorem service_requestOf (listing : Listing) (app : App) (call : Call Text Bytes) :
    app.service listing (requestOf call) =
      match call with
      | .get key =>
          (jsonObject [("ok".toList, .bool true),
            ("data".toList, match app.lookup key with | some b64 => .string b64 | none => .null)],
            app)
      | .set key value =>
          (jsonObject [("ok".toList, .bool true)], app.insert key (b64Encode value))
      | .delete key => (jsonObject [("ok".toList, .bool true)], app.erase key)
      | .clear => (jsonObject [("ok".toList, .bool true)], ∅)
      | .listKeys =>
          (jsonObject [("ok".toList, .bool true),
            ("data".toList, .array ((listing.list app).map Value.string))], app) := by
  cases call with
  | get key =>
      simp only [App.service, requestOf, member_jsonObject]
      rfl
  | set key value =>
      simp only [App.service, requestOf, member_jsonObject]
      rfl
  | delete key =>
      simp only [App.service, requestOf, member_jsonObject]
      rfl
  | clear =>
      simp only [App.service, requestOf, member_jsonObject]
      rfl
  | listKeys =>
      simp only [App.service, requestOf, member_jsonObject]
      rfl

/-- What the typed host reads from the reply is the answer of the plain map. -/
theorem service_simulates {store : Store Text Bytes} (listing : Listing)
    (hencodes : Encodes app store) (call : Call Text Bytes) :
    (app.service listing (requestOf call)).1.get "ok".toList = some (.bool true) ∧
      ∃ reply after,
        decodeData call
            (((app.service listing (requestOf call)).1.get "data".toList).getD .null) =
          .ok reply ∧
        Serves store call reply after ∧
          Encodes (app.service listing (requestOf call)).2 after := by
  rw [service_requestOf]
  cases call with
  | get key =>
      simp only [get_jsonObject]
      refine ⟨rfl, .value (store.lookup key), store, ?_, .get store key, hencodes⟩
      change decodeData (.get key)
        (match app.lookup key with | some b64 => .string b64 | none => .null) = _
      rw [hencodes key]
      cases store.lookup key with
      | none => rfl
      | some value =>
          change (storageValue (.string (b64Encode value))).map Reply.value = _
          rw [storageValue_b64Encode]
          rfl
  | set key value =>
      simp only [get_jsonObject]
      exact ⟨rfl, .done, store.insert key value, rfl, .set store key value,
        hencodes.insert key value⟩
  | delete key =>
      simp only [get_jsonObject]
      exact ⟨rfl, .done, store.erase key, rfl, .delete store key, hencodes.erase key⟩
  | clear =>
      simp only [get_jsonObject]
      exact ⟨rfl, .done, ∅, rfl, .clear store, encodes_empty⟩
  | listKeys =>
      simp only [get_jsonObject]
      refine ⟨rfl, .keys (listing.list app), store, ?_, ?_, hencodes⟩
      · change Except.ok (Reply.keys
          (((listing.list app).map Value.string).filterMap Value.asStr)) = _
        rw [filterMap_asStr_map_string]
      · apply Serves.listKeys
        · exact (listing.perm app).nodup_iff.mpr app.keys_nodup
        · intro key
          rw [(listing.perm app).mem_iff]
          exact hencodes.mem_iff key

/-! ## Sequences of calls -/

theorem answers_simulate {store : Store Text Bytes} (hencodes : Encodes app store)
    (calls : List (Call Text Bytes))
    (hlossless : ∀ value ∈ exchanged listing app calls, Survives json value) :
    ∃ replies after, (app.answers json listing calls).1 = replies.map .ok ∧
      replies.length = calls.length ∧ Trace Serves store (calls.zip replies) after := by
  induction calls generalizing app store with
  | nil => exact ⟨[], store, rfl, rfl, .nil⟩
  | cons call rest ih =>
      simp only [exchanged, List.forall_mem_cons] at hlossless
      obtain ⟨hrequest, hreply, hrest⟩ := hlossless
      obtain ⟨hok, reply, middle, hdecode, hserves, hmiddle⟩ :=
        service_simulates listing hencodes call
      obtain ⟨replies, after, hreplies, hlength, htrace⟩ := ih hmiddle hrest
      have hanswer := answer_of_survives hrequest hreply hok
      rw [hdecode] at hanswer
      refine ⟨reply :: replies, after, ?_, ?_, Trace.cons hserves htrace⟩
      · simp only [App.answers, hanswer, hreplies, List.map_cons]
      · rw [List.length_cons, List.length_cons, hlength]

/-- Every typed call over a string store succeeds, with the answer of a plain map from
keys to bytes under the same calls. -/
theorem answers_serve (listing : Listing) (calls : List (Call Text Bytes))
    (hlossless : ∀ value ∈ exchanged listing ∅ calls, Survives json value) :
    ∃ replies after, (App.answers json listing ∅ calls).1 = replies.map .ok ∧
      replies.length = calls.length ∧ Trace Serves ∅ (calls.zip replies) after :=
  answers_simulate encodes_empty calls hlossless

/-- An app that lists its keys as they stand. -/
def plainListing : Listing where
  list := AList.keys
  perm := fun _ => List.Perm.refl _

/-- A byte that is no text and an empty value go through, and an absent key is absent. -/
theorem answers_serve_example :
    let calls : List (Call Text Bytes) :=
      [.set ['k'] [0xFF], .set ['e'] [], .get ['k'], .get ['e'], .get ['x']]
    let json := sampleSerde (exchanged plainListing ∅ calls)
    (App.answers json plainListing ∅ calls).1 =
        [.ok .done, .ok .done, .ok (.value (some [0xFF])), .ok (.value (some [])),
          .ok (.value none)] ∧
      ∃ replies after, (App.answers json plainListing ∅ calls).1 = replies.map .ok ∧
        replies.length = calls.length ∧ Trace Serves ∅ (calls.zip replies) after := by
  intro calls json
  have hlossless : ∀ value ∈ exchanged plainListing ∅ calls, Survives json value := by
    simp only [calls, exchanged, List.forall_mem_cons]
    refine ⟨⟨_, rfl, rfl⟩, ⟨_, rfl, rfl⟩, ⟨_, rfl, rfl⟩, ⟨_, rfl, rfl⟩, ⟨_, rfl, rfl⟩,
      ⟨_, rfl, rfl⟩, ⟨_, rfl, rfl⟩, ⟨_, rfl, rfl⟩, ⟨_, rfl, rfl⟩, ⟨_, rfl, rfl⟩, by simp⟩
  exact ⟨by decide, answers_serve plainListing calls hlossless⟩

end HellohqRuntime.Plugin.ByteStorage

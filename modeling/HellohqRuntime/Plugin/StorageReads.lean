import HellohqRuntime.Plugin.TransportHosts

/-!
# What a read of the storage makes of a reply

A read should give the value of a reply that carries one, no value for a reply that
says there is none, and an error otherwise.  Both hosts do so except for one kind
of reply: `data` that is neither null nor a string reads as no value.
-/

namespace HellohqRuntime.Plugin.StorageReads

open HellohqRuntime.Foundation.Strings
open HellohqRuntime.Foundation.Utf8
open HellohqRuntime.Foundation.Json
open HellohqRuntime.Plugin.Base64
open HellohqRuntime.Plugin.TransportHosts
open HellohqRuntime.Plugin.Types

/-! ## Replies -/

/-- The reply is JSON in which `ok` is true. -/
def Succeeds (json : Serde) (resp : Bytes) (doc : Value) : Prop :=
  json.fromSlice resp = .ok doc ∧ doc.get "ok".toList = some (.bool true)

/-- The reply carries the value, as base64. -/
def Carries (json : Serde) (resp value : Bytes) : Prop :=
  ∃ doc text, Succeeds json resp doc ∧ doc.get "data".toList = some (.string text) ∧
    b64Decode text = some value

/-- The reply says that there is no value. -/
def SaysAbsent (json : Serde) (resp : Bytes) : Prop :=
  ∃ doc, Succeeds json resp doc ∧
    (doc.get "data".toList = some .null ∨ doc.get "data".toList = none)

/-- The reply succeeds with `data` that is a bool, a number, an array or an object. -/
def Mistyped (json : Serde) (resp : Bytes) : Prop :=
  ∃ doc data, Succeeds json resp doc ∧ doc.get "data".toList = some data ∧
    data ≠ .null ∧ data.asStr = none

/-- The result of a read says of the reply what the reply says. -/
structure ReadsReply (json : Serde) (resp : Bytes) (result : Except ApiError (Option Bytes)) :
    Prop where
  value : ∀ value, result = .ok (some value) ↔ Carries json resp value
  absent : result = .ok none ↔ SaysAbsent json resp
  error : (∃ err, result = .error err) ↔ (∀ value, ¬Carries json resp value) ∧ ¬SaysAbsent json resp

/-! ## One read -/

variable {json : Serde} {roundTrip : Bytes → Outcome} {resp : Bytes} {doc : Value}

/-- What a read makes of a reply. -/
def ofReply (json : Serde) (resp : Bytes) : Except ApiError (Option Bytes) :=
  match json.fromSlice resp with
  | .error e => .error (apiErr "bad-response".toList e)
  | .ok v =>
      if ((v.get "ok".toList).bind Value.asBool).getD false then
        storageValue ((v.get "data".toList).getD .null)
      else
        .error (apiErr "permission-denied".toList
          (((v.get "error".toList).bind Value.asStr).getD "denied".toList))

theorem get_of_replied {key : Text} {request : Bytes}
    (hsent : (TransportStorageEventsHost.get json roundTrip key).sent = some request)
    (hreply : roundTrip request = .replied resp) :
    (TransportStorageEventsHost.get json roundTrip key).result = ofReply json resp := by
  unfold TransportStorageEventsHost.get TransportStorageEventsHost.call Called.andThen at hsent ⊢
  cases hbytes : json.toVec (jsonObject
      [("method".toList, .string "storage_get".toList), ("key".toList, .string key)]) with
  | error e =>
      rw [hbytes] at hsent
      cases hsent
  | ok bytes =>
      rw [hbytes] at hsent
      obtain rfl := Option.some.inj hsent
      simp only [hreply, ofReply]
      cases json.fromSlice resp with
      | error e => rfl
      | ok v =>
          simp only
          split <;> rfl

/-! ## What a reply says -/

theorem Succeeds.unique {other : Value} (hdoc : Succeeds json resp doc)
    (hother : Succeeds json resp other) : other = doc :=
  Except.ok.inj (hother.1.symm.trans hdoc.1)

/-- What a successful reply says is in its `data`. -/
theorem carries_iff (hdoc : Succeeds json resp doc) {value : Bytes} :
    Carries json resp value ↔
      ∃ text, doc.get "data".toList = some (.string text) ∧ b64Decode text = some value := by
  constructor
  · rintro ⟨other, text, hother, hdata, hdecode⟩
    obtain rfl := hdoc.unique hother
    exact ⟨text, hdata, hdecode⟩
  · rintro ⟨text, hdata, hdecode⟩
    exact ⟨doc, text, hdoc, hdata, hdecode⟩

theorem saysAbsent_iff (hdoc : Succeeds json resp doc) :
    SaysAbsent json resp ↔
      doc.get "data".toList = some .null ∨ doc.get "data".toList = none := by
  constructor
  · rintro ⟨other, hother, hdata⟩
    obtain rfl := hdoc.unique hother
    exact hdata
  · intro hdata
    exact ⟨doc, hdoc, hdata⟩

theorem mistyped_iff (hdoc : Succeeds json resp doc) :
    Mistyped json resp ↔
      ∃ data, doc.get "data".toList = some data ∧ data ≠ .null ∧ data.asStr = none := by
  constructor
  · rintro ⟨other, data, hother, hdata⟩
    obtain rfl := hdoc.unique hother
    exact ⟨data, hdata⟩
  · rintro ⟨data, hdata⟩
    exact ⟨doc, data, hdoc, hdata⟩

theorem ofReply_of_succeeds (hdoc : Succeeds json resp doc) :
    ofReply json resp = storageValue ((doc.get "data".toList).getD .null) := by
  simp only [ofReply, hdoc.1, if_pos ((ok_getD_iff doc).mpr hdoc.2)]

/-- A reply that does not succeed is an error. -/
theorem ofReply_of_not_succeeds (hnone : ∀ doc, ¬Succeeds json resp doc) :
    ∃ err, ofReply json resp = .error err := by
  unfold ofReply
  cases hparse : json.fromSlice resp with
  | error e => exact ⟨_, rfl⟩
  | ok doc =>
      have hok : ¬doc.get "ok".toList = some (.bool true) := fun hok => hnone doc ⟨hparse, hok⟩
      simp only [if_neg (mt (ok_getD_iff doc).mp hok)]
      exact ⟨_, rfl⟩

/-! ## When a read is right -/

theorem readsReply_of_error {err : ApiError} (hvalue : ∀ value, ¬Carries json resp value)
    (habsent : ¬SaysAbsent json resp) : ReadsReply json resp (.error err) where
  value value := iff_of_false (by simp) (hvalue value)
  absent := iff_of_false (by simp) habsent
  error := iff_of_true ⟨err, rfl⟩ ⟨hvalue, habsent⟩

theorem readsReply_of_absent (hvalue : ∀ value, ¬Carries json resp value)
    (habsent : SaysAbsent json resp) : ReadsReply json resp (.ok none) where
  value value := iff_of_false (by simp) (hvalue value)
  absent := iff_of_true rfl habsent
  error := iff_of_false (by simp) fun hneither => hneither.2 habsent

theorem readsReply_of_value {value : Bytes}
    (hvalue : ∀ other, Carries json resp other ↔ value = other) (habsent : ¬SaysAbsent json resp) :
    ReadsReply json resp (.ok (some value)) where
  value other := by rw [hvalue]; simp
  absent := iff_of_false (by simp) habsent
  error := iff_of_false (by simp) fun hneither => hneither.1 value ((hvalue value).mpr rfl)

/-- A string is read as the bytes it encodes, or as an error. -/
theorem readsReply_of_string {text : Text} (hdoc : Succeeds json resp doc)
    (hdata : doc.get "data".toList = some (.string text)) :
    ReadsReply json resp (storageValue (.string text)) := by
  have hcarries : ∀ value, Carries json resp value ↔ b64Decode text = some value := by
    intro value
    rw [carries_iff hdoc, hdata]
    simp
  have habsent : ¬SaysAbsent json resp := by
    rw [saysAbsent_iff hdoc, hdata]
    simp
  simp only [storageValue, Value.asStr]
  cases hdecode : b64Decode text with
  | none =>
      apply readsReply_of_error _ habsent
      intro value
      simp [hcarries, hdecode]
  | some bytes =>
      apply readsReply_of_value _ habsent
      intro other
      simp [hcarries, hdecode]

/-- Null and nothing are read as an absent key. -/
theorem readsReply_of_nothing (hdoc : Succeeds json resp doc)
    (hdata : doc.get "data".toList = some .null ∨ doc.get "data".toList = none) :
    ReadsReply json resp (.ok none) := by
  apply readsReply_of_absent _ ((saysAbsent_iff hdoc).mpr hdata)
  intro value hcarries
  obtain ⟨text, htext, -⟩ := (carries_iff hdoc).mp hcarries
  obtain hnull | hnone := hdata
  · rw [hnull] at htext
    cases htext
  · rw [hnone] at htext
    cases htext

/-- So is everything else, which does not say that the key is absent. -/
theorem not_readsReply_of_other {data : Value} (hdoc : Succeeds json resp doc)
    (hdata : doc.get "data".toList = some data) (hnull : data ≠ .null) :
    ¬ReadsReply json resp (.ok none) := by
  intro hreads
  have hsays := (saysAbsent_iff hdoc).mp (hreads.absent.mp rfl)
  rw [hdata] at hsays
  simp [hnull] at hsays

theorem readsReply_of_succeeds (hdoc : Succeeds json resp doc) :
    ReadsReply json resp (storageValue ((doc.get "data".toList).getD .null)) ↔
      ¬∃ data, doc.get "data".toList = some data ∧ data ≠ .null ∧ data.asStr = none := by
  cases hdata : doc.get "data".toList with
  | none => exact iff_of_true (readsReply_of_nothing hdoc (Or.inr hdata)) (by simp)
  | some data =>
      cases data with
      | string text => exact iff_of_true (readsReply_of_string hdoc hdata) (by simp [Value.asStr])
      | null => exact iff_of_true (readsReply_of_nothing hdoc (Or.inl hdata)) (by simp)
      | bool _ | number _ | array _ | object _ =>
          refine iff_of_false (not_readsReply_of_other hdoc hdata (by simp)) ?_
          simp [Value.asStr]

/-- A reply that does not succeed says nothing, and is read as an error. -/
theorem readsReply_of_not_succeeds (hnone : ∀ doc, ¬Succeeds json resp doc) :
    ReadsReply json resp (ofReply json resp) := by
  obtain ⟨err, herr⟩ := ofReply_of_not_succeeds hnone
  rw [herr]
  apply readsReply_of_error
  · rintro value ⟨doc, text, hdoc, -⟩
    exact hnone doc hdoc
  · rintro ⟨doc, hdoc, -⟩
    exact hnone doc hdoc

/-- A read is right exactly about the replies that are not mistyped. -/
theorem readsReply_ofReply (json : Serde) (resp : Bytes) :
    ReadsReply json resp (ofReply json resp) ↔ ¬Mistyped json resp := by
  by_cases hsucceeds : ∃ doc, Succeeds json resp doc
  · obtain ⟨doc, hdoc⟩ := hsucceeds
    rw [ofReply_of_succeeds hdoc, mistyped_iff hdoc]
    exact readsReply_of_succeeds hdoc
  · have hnone : ∀ doc, ¬Succeeds json resp doc := not_exists.mp hsucceeds
    refine iff_of_true (readsReply_of_not_succeeds hnone) ?_
    rintro ⟨doc, data, hdoc, -⟩
    exact hnone doc hdoc

/-- On both hosts a read is right exactly about the replies that are not mistyped. -/
theorem storage_get_readsReply_iff {key : Text} {request : Bytes}
    (hsent : (TransportStorageEventsHost.get json roundTrip key).sent = some request)
    (hreply : roundTrip request = .replied resp) :
    (ReadsReply json resp (TransportStorageEventsHost.get json roundTrip key).result ↔
      ¬Mistyped json resp) ∧
    (ReadsReply json resp (TransportPluginHost.get json roundTrip key).result ↔
      ¬Mistyped json resp) := by
  have hsame : TransportPluginHost.get json roundTrip key =
      TransportStorageEventsHost.get json roundTrip key := rfl
  rw [hsame, get_of_replied hsent hreply]
  exact ⟨readsReply_ofReply json resp, readsReply_ofReply json resp⟩

/-- A reply whose `data` is an array of bytes, of which there are none. -/
def emptyArrayReply : Value := jsonObject [("ok".toList, .bool true), ("data".toList, .array [])]

/-- The app sends the reply on every request. -/
def emptyArrayRoundTrip : Bytes → Outcome := fun _ => .replied (asBytes (print emptyArrayReply))

/-- A reply with a value. -/
def valueReply : Value :=
  jsonObject [("ok".toList, .bool true), ("data".toList, .string (b64Encode [104, 105]))]

def valueRoundTrip : Bytes → Outcome := fun _ => .replied (asBytes (print valueReply))

theorem storage_get_readsReply_iff_example :
    ReadsReply (sampleSerde [valueReply]) (asBytes (print valueReply))
      (TransportStorageEventsHost.get (sampleSerde [valueReply]) valueRoundTrip ['k']).result ∧
    ¬ReadsReply (sampleSerde [emptyArrayReply]) (asBytes (print emptyArrayReply))
      (TransportPluginHost.get (sampleSerde [emptyArrayReply]) emptyArrayRoundTrip ['k']).result := by
  have htyped : ¬Mistyped (sampleSerde [valueReply]) (asBytes (print valueReply)) := by
    rw [@mistyped_iff (sampleSerde [valueReply]) (asBytes (print valueReply)) valueReply
      ⟨by rfl, rfl⟩]
    rintro ⟨data, hdata, -, hstring⟩
    obtain rfl := Option.some.inj hdata
    cases hstring
  have hsentValue : (TransportStorageEventsHost.get (sampleSerde [valueReply]) valueRoundTrip
      ['k']).sent = some (asBytes (print (jsonObject
        [("method".toList, .string "storage_get".toList), ("key".toList, .string ['k'])]))) := rfl
  have hmistyped : Mistyped (sampleSerde [emptyArrayReply]) (asBytes (print emptyArrayReply)) :=
    ⟨emptyArrayReply, .array [], ⟨by rfl, rfl⟩, rfl, by simp, rfl⟩
  have hsent : (TransportStorageEventsHost.get (sampleSerde [emptyArrayReply]) emptyArrayRoundTrip
      ['k']).sent = some (asBytes (print (jsonObject
        [("method".toList, .string "storage_get".toList), ("key".toList, .string ['k'])]))) := rfl
  exact ⟨(storage_get_readsReply_iff hsentValue rfl).1.mpr htyped,
    fun hreads => (storage_get_readsReply_iff hsent rfl).2.mp hreads hmistyped⟩

/-- An empty array reads as an absent key. -/
theorem storage_get_empty_array :
    (TransportStorageEventsHost.get (sampleSerde [emptyArrayReply]) emptyArrayRoundTrip
        ['k']).result = .ok none ∧
      ¬ReadsReply (sampleSerde [emptyArrayReply]) (asBytes (print emptyArrayReply))
        (TransportStorageEventsHost.get (sampleSerde [emptyArrayReply]) emptyArrayRoundTrip
          ['k']).result := by
  have hresult : (TransportStorageEventsHost.get (sampleSerde [emptyArrayReply])
      emptyArrayRoundTrip ['k']).result = .ok none := by decide
  refine ⟨hresult, ?_⟩
  intro hreads
  obtain ⟨doc, hdoc, hdata⟩ := hreads.absent.mp hresult
  have hreply : Succeeds (sampleSerde [emptyArrayReply]) (asBytes (print emptyArrayReply))
      emptyArrayReply := ⟨by rfl, rfl⟩
  obtain rfl := hreply.unique hdoc
  obtain hnull | hnone := hdata
  · cases hnull
  · cases hnone

end HellohqRuntime.Plugin.StorageReads

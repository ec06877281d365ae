import Mathlib
import HellohqRuntime.Foundation.KeyValue
import HellohqRuntime.Foundation.Runs
import HellohqRuntime.Plugin.Types

/-!
# Storage and events in memory

The host keeps the values of a plugin and the events it emits, behind a permission
for the storage and under caps on both.  The abstract host is a plain map with a
list of events: it takes a value exactly where the updated map fits, and an event
exactly where the sink has room for it.  Every run of the host is a run of that one.
-/

namespace HellohqRuntime.Plugin.StorageEvents

open HellohqRuntime.Foundation.Strings
open HellohqRuntime.Foundation.KeyValue
open HellohqRuntime.Foundation.Runs
open HellohqRuntime.Plugin.Types

/-- Per-plugin storage quota: at most this many keys. -/
def STORAGE_MAX_KEYS : Nat := 128

/-- Per-plugin storage quota: at most this many value bytes across all keys. -/
def STORAGE_MAX_TOTAL_BYTES : Nat := 256 * 1024

/-- Per-plugin events cap: at most this many events in the sink. -/
def EVENTS_MAX_COUNT : Nat := 256

/-- Per-plugin events cap: at most this many bytes in one payload. -/
def EVENT_MAX_PAYLOAD_BYTES : Nat := 64 * 1024

def denied : ApiError where
  code := "permission-denied".toList
  message := "storage: capability not granted".toList

def quotaExceeded (what : Text) : ApiError where
  code := "quota-exceeded".toList
  message := "storage: ".toList ++ what ++ " quota exceeded".toList

def payloadTooLarge : ApiError where
  code := "quota-exceeded".toList
  message := "events: payload too large".toList

def emitRateCap : ApiError where
  code := "rate-limited".toList
  message := "events: emit rate cap reached".toList

/-! ## The host -/

structure StorageEventsHost where
  granted : Bool
  kv : Entries Text Bytes
  events : List PluginEvent

/-- Subtraction of `usize`, which panics below zero. -/
def usizeSub (left right : Nat) : Option Nat :=
  if right ≤ left then some (left - right) else none

namespace StorageEventsHost

def new (granted : Bool) : StorageEventsHost where
  granted := granted
  kv := ∅
  events := []

def totalBytes (host : StorageEventsHost) : Nat :=
  (host.kv.entries.map fun entry => entry.2.length).sum

def get (host : StorageEventsHost) (key : Text) :
    Except ApiError (Option Bytes) × StorageEventsHost :=
  if !host.granted then (.error denied, host)
  else (.ok (host.kv.lookup key), host)

/-- `none` stands for a panic of the subtraction. -/
def set (host : StorageEventsHost) (key : Text) (value : Bytes) :
    Option (Except ApiError Unit × StorageEventsHost) :=
  if !host.granted then some (.error denied, host)
  else
    let isNewKey := !(host.kv.lookup key).isSome
    if isNewKey && decide (STORAGE_MAX_KEYS ≤ host.kv.keys.length) then
      some (.error (quotaExceeded "key count".toList), host)
    else
      let oldLen := ((host.kv.lookup key).map List.length).getD 0
      match usizeSub host.totalBytes oldLen with
      | none => none
      | some kept =>
          let projected := kept + value.length
          if STORAGE_MAX_TOTAL_BYTES < projected then
            some (.error (quotaExceeded "total bytes".toList), host)
          else some (.ok (), { host with kv := host.kv.insert key value })

def delete (host : StorageEventsHost) (key : Text) : Except ApiError Unit × StorageEventsHost :=
  if !host.granted then (.error denied, host)
  else (.ok (), { host with kv := host.kv.erase key })

def clear (host : StorageEventsHost) : Except ApiError Unit × StorageEventsHost :=
  if !host.granted then (.error denied, host)
  else (.ok (), { host with kv := ∅ })

/-- The keys come in the order of the entries, where the source has no order. -/
def listKeys (host : StorageEventsHost) : Except ApiError (List Text) × StorageEventsHost :=
  if !host.granted then (.error denied, host)
  else (.ok host.kv.keys, host)

/-- Events are not behind the storage permission. -/
def emit (host : StorageEventsHost) (event : PluginEvent) :
    Except ApiError Unit × StorageEventsHost :=
  if EVENT_MAX_PAYLOAD_BYTES < event.payload.length then (.error payloadTooLarge, host)
  else if EVENTS_MAX_COUNT ≤ host.events.length then (.error emitRateCap, host)
  else (.ok (), { host with events := host.events ++ [event] })

end StorageEventsHost

/-! ## Runs -/

inductive Op where
  | storage (call : Call Text Bytes)
  | emit (event : PluginEvent)
  deriving DecidableEq, Repr

abbrev Answer := Except ApiError (Reply Text Bytes)

def StorageEventsHost.perform (host : StorageEventsHost) :
    Op → Option (Answer × StorageEventsHost)
  | .storage (.get key) => some ((host.get key).map (Except.map .value) id)
  | .storage (.set key value) => (host.set key value).map (Prod.map (Except.map fun _ => .done) id)
  | .storage (.delete key) => some ((host.delete key).map (Except.map fun _ => .done) id)
  | .storage .clear => some (host.clear.map (Except.map fun _ => .done) id)
  | .storage .listKeys => some (host.listKeys.map (Except.map .keys) id)
  | .emit event => some ((host.emit event).map (Except.map fun _ => .done) id)

/-- A host with the calls it has answered, oldest first. -/
structure Served where
  host : StorageEventsHost
  calls : List (Op × Answer)

def Served.start (host : StorageEventsHost) : Served where
  host := host
  calls := []

def Served.step (served : Served) (op : Op) : Option Served :=
  (served.host.perform op).map fun result =>
    { host := result.2, calls := served.calls ++ [(op, result.1)] }

/-! ## The abstract host -/

structure Plain where
  store : Store Text Bytes := ∅
  events : List PluginEvent := []

/-- Both storage caps. -/
structure Fits (store : Store Text Bytes) : Prop where
  keys : store.keys.card ≤ STORAGE_MAX_KEYS
  bytes : weight List.length store ≤ STORAGE_MAX_TOTAL_BYTES

/-- Both caps of the sink. -/
structure EventsFit (events : List PluginEvent) : Prop where
  count : events.length ≤ EVENTS_MAX_COUNT
  payloads : ∀ event ∈ events, event.payload.length ≤ EVENT_MAX_PAYLOAD_BYTES

/-- A call is served as by a plain map, unless what it would leave does not fit: then
it fails and nothing changes. -/
inductive Conforms : Plain → Op → Answer → Plain → Prop
  | served {plain : Plain} {call : Call Text Bytes} {reply : Reply Text Bytes}
      {store : Store Text Bytes} (hserves : Serves plain.store call reply store)
      (hfits : ∀ key value, call = .set key value → Fits (plain.store.insert key value)) :
      Conforms plain (.storage call) (.ok reply) { plain with store := store }
  | refused {plain : Plain} {key : Text} {value : Bytes} {err : ApiError}
      (hover : ¬Fits (plain.store.insert key value)) (hcode : err.code = "quota-exceeded".toList) :
      Conforms plain (.storage (.set key value)) (.error err) plain
  | emitted {plain : Plain} {event : PluginEvent} (hfits : EventsFit (plain.events ++ [event])) :
      Conforms plain (.emit event) (.ok .done) { plain with events := plain.events ++ [event] }
  | dropped {plain : Plain} {event : PluginEvent} {err : ApiError}
      (hover : ¬EventsFit (plain.events ++ [event])) : Conforms plain (.emit event) (.error err) plain

/-! ## What fits -/

theorem Fits.insert_iff {store : Store Text Bytes} {key : Text} {value : Bytes}
    (hfits : Fits store) :
    Fits (store.insert key value) ↔
      (key ∈ store ∨ store.keys.card < STORAGE_MAX_KEYS) ∧
        weight List.length store - weightAt List.length store key + value.length ≤
          STORAGE_MAX_TOTAL_BYTES := by
  rw [← weight_insert]
  by_cases hmem : key ∈ store
  · have hcard : (store.insert key value).keys.card = store.keys.card :=
      card_keys_insert_of_mem hmem
    constructor
    · intro hafter
      exact ⟨Or.inl hmem, hafter.bytes⟩
    · intro hafter
      exact ⟨hcard ▸ hfits.keys, hafter.2⟩
  · have hcard : (store.insert key value).keys.card = store.keys.card + 1 :=
      card_keys_insert_of_notMem hmem
    constructor
    · intro hafter
      have hkeys := hafter.keys
      rw [hcard] at hkeys
      exact ⟨Or.inr hkeys, hafter.bytes⟩
    · intro hafter
      refine ⟨?_, hafter.2⟩
      rw [hcard]
      exact hafter.1.resolve_left hmem

theorem Fits.erase {store : Store Text Bytes} (hfits : Fits store) (key : Text) :
    Fits (store.erase key) where
  keys := Nat.le_trans (card_keys_erase_le store key) hfits.keys
  bytes := Nat.le_trans (weight_erase_le store key) hfits.bytes

theorem fits_empty : Fits ∅ where
  keys := Nat.zero_le _
  bytes := Nat.zero_le _

theorem eventsFit_nil : EventsFit [] where
  count := Nat.zero_le _
  payloads := by simp

theorem EventsFit.append_iff {events : List PluginEvent} {event : PluginEvent}
    (hfits : EventsFit events) :
    EventsFit (events ++ [event]) ↔
      event.payload.length ≤ EVENT_MAX_PAYLOAD_BYTES ∧ events.length < EVENTS_MAX_COUNT := by
  constructor
  · intro hafter
    have hcount := hafter.count
    rw [List.length_append] at hcount
    exact ⟨hafter.payloads event (by simp), hcount⟩
  · rintro ⟨hpayload, hcount⟩
    refine ⟨?_, ?_⟩
    · rw [List.length_append]
      exact hcount
    · intro other hother
      rcases List.mem_append.mp hother with hbefore | hlast
      · exact hfits.payloads other hbefore
      · obtain rfl := List.mem_singleton.mp hlast
        exact hpayload

/-- The caps on the storage and on the sink. -/
structure Within (plain : Plain) : Prop where
  store : Fits plain.store
  events : EventsFit plain.events

theorem within_start : Within {} where
  store := fits_empty
  events := eventsFit_nil

/-- A call that conforms keeps the caps. -/
theorem Conforms.within {plain next : Plain} {op : Op} {answer : Answer}
    (hconforms : Conforms plain op answer next) (hwithin : Within plain) : Within next := by
  cases hconforms with
  | served hserves hfits =>
      refine ⟨?_, hwithin.events⟩
      cases hserves with
      | get key => exact hwithin.store
      | set key value => exact hfits key value rfl
      | delete key => exact hwithin.store.erase key
      | clear => exact fits_empty
      | listKeys => exact hwithin.store
  | refused => exact hwithin
  | emitted hfits => exact ⟨hwithin.store, hfits⟩
  | dropped => exact hwithin

/-! ## The host refines the abstract one -/

namespace StorageEventsHost

def plain (host : StorageEventsHost) : Plain where
  store := host.kv.toFinmap
  events := host.events

theorem totalBytes_eq (host : StorageEventsHost) :
    host.totalBytes = weight List.length host.plain.store :=
  (weight_toFinmap host.kv).symm

theorem oldLen_eq (host : StorageEventsHost) (key : Text) :
    ((host.kv.lookup key).map List.length).getD 0 = weightAt List.length host.plain.store key := rfl

/-- The old value is part of the sum, so the projected size does not underflow. -/
theorem usizeSub_totalBytes (host : StorageEventsHost) (key : Text) :
    usizeSub host.totalBytes (((host.kv.lookup key).map List.length).getD 0) =
      some (weight List.length host.plain.store - weightAt List.length host.plain.store key) := by
  rw [oldLen_eq, totalBytes_eq, usizeSub, if_pos (weightAt_le_weight _ _)]

theorem lookup_isSome_iff (host : StorageEventsHost) (key : Text) :
    (host.kv.lookup key).isSome = true ↔ key ∈ host.plain.store :=
  AList.lookup_isSome.trans Finmap.mem_toFinmap.symm

theorem set_of_keysFull {host : StorageEventsHost} {key : Text} {value : Bytes}
    (hgranted : host.granted = true) (hnew : key ∉ host.plain.store)
    (hfull : STORAGE_MAX_KEYS ≤ host.plain.store.keys.card) :
    host.set key value = some (.error (quotaExceeded "key count".toList), host) := by
  have habsent : (host.kv.lookup key).isSome = false := by
    rw [← Bool.not_eq_true, lookup_isSome_iff]
    exact hnew
  rw [set, hgranted, if_neg (by decide), habsent, if_pos]
  rw [Bool.not_false, Bool.true_and]
  exact decide_eq_true hfull

theorem set_of_keysFit {host : StorageEventsHost} {key : Text} {value : Bytes}
    (hgranted : host.granted = true)
    (hkeys : key ∈ host.plain.store ∨ host.plain.store.keys.card < STORAGE_MAX_KEYS) :
    host.set key value =
      if STORAGE_MAX_TOTAL_BYTES < weight List.length host.plain.store -
          weightAt List.length host.plain.store key + value.length then
        some (.error (quotaExceeded "total bytes".toList), host)
      else some (.ok (), { host with kv := host.kv.insert key value }) := by
  rw [set, hgranted, if_neg (by decide), if_neg]
  · simp only [usizeSub_totalBytes]
  · rw [Bool.and_eq_true, decide_eq_true_iff, Bool.not_eq_true', ← Bool.not_eq_true,
      lookup_isSome_iff]
    rintro ⟨hnew, hfull⟩
    exact Nat.not_lt.mpr hfull (hkeys.resolve_left hnew)

/-- A value is taken exactly where the updated map fits. -/
theorem set_cases {host : StorageEventsHost} (hgranted : host.granted = true)
    (hfits : Fits host.plain.store) (key : Text) (value : Bytes) :
    (Fits (host.plain.store.insert key value) ∧
        host.set key value = some (.ok (), { host with kv := host.kv.insert key value })) ∨
      ¬Fits (host.plain.store.insert key value) ∧
        ∃ what, host.set key value = some (.error (quotaExceeded what), host) := by
  rw [hfits.insert_iff]
  by_cases hkeys : key ∈ host.plain.store ∨ host.plain.store.keys.card < STORAGE_MAX_KEYS
  · by_cases hbytes : weight List.length host.plain.store -
        weightAt List.length host.plain.store key + value.length ≤ STORAGE_MAX_TOTAL_BYTES
    · left
      refine ⟨⟨hkeys, hbytes⟩, ?_⟩
      rw [set_of_keysFit hgranted hkeys, if_neg (Nat.not_lt.mpr hbytes)]
    · right
      refine ⟨fun hboth => hbytes hboth.2, "total bytes".toList, ?_⟩
      rw [set_of_keysFit hgranted hkeys, if_pos (Nat.lt_of_not_le hbytes)]
  · right
    refine ⟨fun hboth => hkeys hboth.1, "key count".toList, ?_⟩
    rw [not_or] at hkeys
    exact set_of_keysFull hgranted hkeys.1 (Nat.not_lt.mp hkeys.2)

/-- An event is taken exactly where the sink has room. -/
theorem emit_cases {host : StorageEventsHost} (hfits : EventsFit host.events)
    (event : PluginEvent) :
    (EventsFit (host.events ++ [event]) ∧
        host.emit event = (.ok (), { host with events := host.events ++ [event] })) ∨
      ¬EventsFit (host.events ++ [event]) ∧ ∃ err, host.emit event = (.error err, host) := by
  rw [hfits.append_iff]
  by_cases hpayload : event.payload.length ≤ EVENT_MAX_PAYLOAD_BYTES
  · by_cases hcount : host.events.length < EVENTS_MAX_COUNT
    · left
      refine ⟨⟨hpayload, hcount⟩, ?_⟩
      rw [emit, if_neg (Nat.not_lt.mpr hpayload), if_neg (Nat.not_le.mpr hcount)]
    · right
      refine ⟨fun hboth => hcount hboth.2, emitRateCap, ?_⟩
      rw [emit, if_neg (Nat.not_lt.mpr hpayload), if_pos (Nat.not_lt.mp hcount)]
  · right
    refine ⟨fun hboth => hpayload hboth.1, payloadTooLarge, ?_⟩
    rw [emit, if_pos (Nat.lt_of_not_le hpayload)]

/-- An emit does not touch the storage. -/
theorem emit_frame (host : StorageEventsHost) (event : PluginEvent) :
    (host.emit event).2.granted = host.granted ∧ (host.emit event).2.kv = host.kv := by
  rw [emit]
  split_ifs
  all_goals exact ⟨rfl, rfl⟩

theorem perform_conforms {host : StorageEventsHost} (hgranted : host.granted = true)
    (hwithin : Within host.plain) (op : Op) :
    ∃ answer next, host.perform op = some (answer, next) ∧ next.granted = true ∧
      Conforms host.plain op answer next.plain := by
  have hserved : ∀ call, (∀ key value, call ≠ .set key value) →
      Conforms host.plain (.storage call) (.ok (serve host.kv call).1)
        { host.plain with store := (serve host.kv call).2.toFinmap } :=
    fun call hcall => .served (serves_serve host.kv call)
      fun key value hset => absurd hset (hcall key value)
  cases op with
  | storage call =>
      cases call with
      | get key =>
          refine ⟨.ok (.value (host.kv.lookup key)), host, ?_, hgranted, hserved _ (by simp)⟩
          simp [perform, get, hgranted, Except.map]
      | set key value =>
          rcases set_cases hgranted hwithin.store key value with ⟨hfits, hset⟩ | ⟨hover, what, hset⟩
          · refine ⟨.ok .done, { host with kv := host.kv.insert key value }, ?_, hgranted, ?_⟩
            · rw [perform, hset]
              rfl
            · apply Conforms.served (serves_serve host.kv (.set key value))
              intro other otherValue heq
              cases heq
              exact hfits
          · refine ⟨.error (quotaExceeded what), host, ?_, hgranted, .refused hover rfl⟩
            rw [perform, hset]
            rfl
      | delete key =>
          refine ⟨.ok .done, { host with kv := host.kv.erase key }, ?_, hgranted,
            hserved _ (by simp)⟩
          simp [perform, delete, hgranted, Except.map]
      | clear =>
          refine ⟨.ok .done, { host with kv := ∅ }, ?_, hgranted, hserved _ (by simp)⟩
          simp [perform, clear, hgranted, Except.map]
      | listKeys =>
          refine ⟨.ok (.keys host.kv.keys), host, ?_, hgranted, hserved _ (by simp)⟩
          simp [perform, listKeys, hgranted, Except.map]
  | emit event =>
      rcases emit_cases hwithin.events event with ⟨hfits, hemit⟩ | ⟨hover, err, hemit⟩
      · refine ⟨.ok .done, { host with events := host.events ++ [event] }, ?_, hgranted,
          .emitted hfits⟩
        rw [perform, hemit]
        rfl
      · refine ⟨.error err, host, ?_, hgranted, .dropped hover⟩
        rw [perform, hemit]
        rfl

/-- Without the permission the storage is out of reach. -/
theorem perform_denied {host : StorageEventsHost} (hdenied : host.granted = false) (op : Op) :
    ∃ answer next, host.perform op = some (answer, next) ∧ next.granted = false ∧
      next.kv = host.kv ∧ ∀ call, op = .storage call → answer = .error denied := by
  cases op with
  | storage call =>
      refine ⟨.error denied, host, ?_, hdenied, rfl, fun _ _ => rfl⟩
      cases call with
      | get key => simp [perform, get, hdenied, Except.map]
      | set key value => simp [perform, set, hdenied, Except.map]
      | delete key => simp [perform, delete, hdenied, Except.map]
      | clear => simp [perform, clear, hdenied, Except.map]
      | listKeys => simp [perform, listKeys, hdenied, Except.map]
  | emit event =>
      obtain ⟨hgranted, hkv⟩ := emit_frame host event
      exact ⟨_, _, rfl, hgranted.trans hdenied, hkv, by simp⟩

end StorageEventsHost

/-! ## Whole runs -/

/-- The events that were taken, in the order of the calls. -/
def taken (calls : List (Op × Answer)) : List PluginEvent :=
  calls.filterMap fun call =>
    match call with
    | (.emit event, .ok _) => some event
    | _ => none

theorem events_eq_taken {calls : List (Op × Answer)} {plain : Plain}
    (htrace : Trace Conforms {} calls plain) : plain.events = taken calls := by
  induction htrace with
  | nil => rfl
  | snoc htrace hconforms ih =>
      rw [taken, List.filterMap_append, ← taken, ← ih]
      cases hconforms with
      | served => simp
      | refused => simp
      | emitted => rfl
      | dropped => simp

theorem Served.step_of_perform {served : Served} {op : Op} {answer : Answer}
    {next : StorageEventsHost} (hperform : served.host.perform op = some (answer, next)) :
    served.step op = some { host := next, calls := served.calls ++ [(op, answer)] } := by
  rw [step, hperform]
  rfl

theorem run_granted (ops : List Op) :
    ∃ final, run Served.step (.start (.new true)) ops = some final ∧
      final.calls.map Prod.fst = ops ∧ final.host.granted = true ∧
      Trace Conforms {} final.calls final.host.plain ∧ Within final.host.plain := by
  induction ops using List.reverseRecOn with
  | nil => exact ⟨_, rfl, rfl, rfl, .nil, within_start⟩
  | append_singleton ops op ih =>
      obtain ⟨middle, hrun, hops, hgranted, htrace, hwithin⟩ := ih
      obtain ⟨answer, next, hperform, hnext, hconforms⟩ :=
        StorageEventsHost.perform_conforms hgranted hwithin op
      refine ⟨_, run_snoc_eq_some.mpr ⟨middle, hrun, Served.step_of_perform hperform⟩, ?_, hnext,
        htrace.snoc hconforms, hconforms.within hwithin⟩
      simp [hops]

theorem run_ungranted (host : StorageEventsHost) (ops : List Op) :
    ∃ final, run Served.step (.start { host with granted := false }) ops = some final ∧
      final.calls.map Prod.fst = ops ∧ final.host.granted = false ∧ final.host.kv = host.kv ∧
      ∀ call answer, (Op.storage call, answer) ∈ final.calls → answer = .error denied := by
  induction ops using List.reverseRecOn with
  | nil => exact ⟨_, rfl, rfl, rfl, rfl, by simp [Served.start]⟩
  | append_singleton ops op ih =>
      obtain ⟨middle, hrun, hops, hdenied, hkv, hanswers⟩ := ih
      obtain ⟨answer, next, hperform, hnext, hkept, hanswer⟩ :=
        StorageEventsHost.perform_denied hdenied op
      refine ⟨_, run_snoc_eq_some.mpr ⟨middle, hrun, Served.step_of_perform hperform⟩, ?_, hnext,
        hkept.trans hkv, ?_⟩
      · simp [hops]
      · intro call other hmem
        rcases List.mem_append.mp hmem with hbefore | hlast
        · exact hanswers call other hbefore
        · obtain ⟨hop, rfl⟩ := Prod.mk.inj (List.mem_singleton.mp hlast)
          exact hanswer call hop.symm

/-- The caps in the terms of the host. -/
structure Capped (host : StorageEventsHost) : Prop where
  keys : host.kv.keys.length ≤ STORAGE_MAX_KEYS
  bytes : host.totalBytes ≤ STORAGE_MAX_TOTAL_BYTES
  count : host.events.length ≤ EVENTS_MAX_COUNT
  payloads : ∀ event ∈ host.events, event.payload.length ≤ EVENT_MAX_PAYLOAD_BYTES

theorem Within.capped {host : StorageEventsHost} (hwithin : Within host.plain) : Capped host where
  keys := hwithin.store.keys
  bytes := host.totalBytes_eq ▸ hwithin.store.bytes
  count := hwithin.events.count
  payloads := hwithin.events.payloads

/-- Every run of a granted host goes through, within the caps and with the answers of
the abstract host; without the permission every storage call is denied. -/
theorem answers_run (ops : List Op) :
    (∃ final, run Served.step (.start (.new true)) ops = some final ∧
      final.calls.map Prod.fst = ops ∧ Capped final.host ∧
      Trace Conforms {} final.calls final.host.plain ∧ final.host.events = taken final.calls) ∧
    ∀ host : StorageEventsHost,
      ∃ final, run Served.step (.start { host with granted := false }) ops = some final ∧
        final.calls.map Prod.fst = ops ∧ final.host.kv = host.kv ∧
        ∀ call answer, (Op.storage call, answer) ∈ final.calls → answer = .error denied := by
  constructor
  · obtain ⟨final, hrun, hops, -, htrace, hwithin⟩ := run_granted ops
    exact ⟨final, hrun, hops, hwithin.capped, htrace, events_eq_taken htrace⟩
  · intro host
    obtain ⟨final, hrun, hops, -, hkv, hanswers⟩ := run_ungranted host ops
    exact ⟨final, hrun, hops, hkv, hanswers⟩

end HellohqRuntime.Plugin.StorageEvents

import HellohqRuntime.Foundation.Programs
import HellohqRuntime.Plugin.PluginGuest
import HellohqRuntime.Plugin.StorageEvents

/-!
# The capstone harness

One host answers every capability of a plugin in process: canned portfolio names and
the in-memory storage behind one permission, the event sink, and the log lines.  What
a call may do is said over a desk: a plain store, the events taken, the lines written.
-/

namespace HellohqRuntime.Plugin.Capstone

open HellohqRuntime.Foundation.Strings
open HellohqRuntime.Foundation.KeyValue
open HellohqRuntime.Foundation.Runs
open HellohqRuntime.Plugin.Types
open HellohqRuntime.Plugin.TransportHosts
open HellohqRuntime.Plugin.PluginGuest
open HellohqRuntime.Plugin.StorageEvents (Answer Capped Conforms Fits Op Plain StorageEventsHost
  Within)

/-! ## The harness -/

structure LogLine where
  level : Level
  message : Text
  deriving DecidableEq, Repr

structure CapstoneHarness where
  granted : Bool
  store : StorageEventsHost
  logs : List LogLine

def cannedPortfolios : List PortfolioName :=
  [{ id := "p1".toList, name := "Growth".toList }, { id := "p2".toList, name := "Income".toList }]

/-- The errors of the two worlds are the same record. -/
def mapErr (e : ApiError) : ApiError where
  code := e.code
  message := e.message

def denied (what : Text) : ApiError where
  code := "permission-denied".toList
  message := what ++ ": capability not granted".toList

def notFound (what : Text) : ApiError where
  code := "not-found".toList
  message := "workspace: ".toList ++ what ++ " not provided by the capstone harness".toList

namespace CapstoneHarness

/-- The permission goes to the workspace reads and to the storage alike. -/
def new (granted : Bool) : CapstoneHarness where
  granted := granted
  store := .new granted
  logs := []

def capturedEvents (harness : CapstoneHarness) : List (Text × Bytes) :=
  harness.store.events.map fun e => (e.kind, e.payload)

def storedValue (harness : CapstoneHarness) (key : Text) : Option Bytes :=
  harness.store.kv.lookup key

def capturedLogs (harness : CapstoneHarness) : List LogLine := harness.logs

def readPortfolioNames (harness : CapstoneHarness) : Except ApiError (List PortfolioName) :=
  if !harness.granted then .error (denied "workspace".toList) else .ok cannedPortfolios

def readSheetStructure (_portfolioId : Text) : Except ApiError SheetSummary :=
  .error (notFound "read-sheet-structure".toList)

def readAssetCount (_portfolioId : Text) : Except ApiError AssetCount :=
  .error (notFound "read-asset-count".toList)

def readCurrencyRates : Except ApiError (List CurrencyRate) :=
  .error (notFound "read-currency-rates".toList)

def readAggregatedValues (_portfolioId : Text) : Except ApiError AggregatedSummary :=
  .error (notFound "read-aggregated-values".toList)

def writeExternalFile (_filename : Text) (_content : Bytes) : Except ApiError Unit :=
  .error (notFound "write-external-file".toList)

/-- Forward a call to the embedded host, and keep what it leaves. -/
def delegated {α : Type} (harness : CapstoneHarness)
    (served : Except ApiError α × StorageEventsHost) : Except ApiError α × CapstoneHarness :=
  (served.1.mapError mapErr, { harness with store := served.2 })

def get (harness : CapstoneHarness) (key : Text) :
    Except ApiError (Option Bytes) × CapstoneHarness :=
  harness.delegated (harness.store.get key)

/-- `none` stands for a panic of the embedded host. -/
def set (harness : CapstoneHarness) (key : Text) (value : Bytes) :
    Option (Except ApiError Unit × CapstoneHarness) :=
  (harness.store.set key value).map harness.delegated

def delete (harness : CapstoneHarness) (key : Text) : Except ApiError Unit × CapstoneHarness :=
  harness.delegated (harness.store.delete key)

def clear (harness : CapstoneHarness) : Except ApiError Unit × CapstoneHarness :=
  harness.delegated harness.store.clear

def listKeys (harness : CapstoneHarness) : Except ApiError (List Text) × CapstoneHarness :=
  harness.delegated harness.store.listKeys

def emit (harness : CapstoneHarness) (event : PluginEvent) :
    Except ApiError Unit × CapstoneHarness :=
  harness.delegated (harness.store.emit event)

def write (harness : CapstoneHarness) (level : Level) (message : Text) : CapstoneHarness :=
  { harness with logs := harness.logs ++ [{ level, message }] }

/-- A call of the plugin, under the generated bindings. -/
def perform (harness : CapstoneHarness) :
    PluginCall → Option (Except ApiError PluginReply × CapstoneHarness)
  | .readPortfolioNames => some (harness.readPortfolioNames.map .portfolioNames, harness)
  | .readSheetStructure portfolioId =>
      some ((readSheetStructure portfolioId).map .sheetStructure, harness)
  | .readAssetCount portfolioId => some ((readAssetCount portfolioId).map .assetCount, harness)
  | .readCurrencyRates => some (readCurrencyRates.map .currencyRates, harness)
  | .readAggregatedValues portfolioId =>
      some ((readAggregatedValues portfolioId).map .aggregatedValues, harness)
  | .writeExternalFile filename content =>
      some ((writeExternalFile filename content).map fun _ => .done, harness)
  | .storage (.get key) =>
      some ((harness.get key).map (Except.map fun found => .storage (.value found)) id)
  | .storage (.set key value) =>
      (harness.set key value).map (Prod.map (Except.map fun _ => .storage .done) id)
  | .storage (.delete key) =>
      some ((harness.delete key).map (Except.map fun _ => .storage .done) id)
  | .storage .clear => some (harness.clear.map (Except.map fun _ => .storage .done) id)
  | .storage .listKeys =>
      some (harness.listKeys.map (Except.map fun found => .storage (.keys found)) id)
  | .emit event => some ((harness.emit event).map (Except.map fun _ => .done) id)
  | .write level message => some (.ok .done, harness.write level message)

end CapstoneHarness

/-! ## What a call may do -/

/-- The calls that are behind the permission. -/
inductive Gated : PluginCall → Prop
  | readPortfolioNames : Gated .readPortfolioNames
  | storage (call : Call Text Bytes) : Gated (.storage call)

/-- The calls of the workspace that the harness has no data for. -/
inductive Unprovided : PluginCall → Prop
  | readSheetStructure (portfolioId : Text) : Unprovided (.readSheetStructure portfolioId)
  | readAssetCount (portfolioId : Text) : Unprovided (.readAssetCount portfolioId)
  | readCurrencyRates : Unprovided .readCurrencyRates
  | readAggregatedValues (portfolioId : Text) : Unprovided (.readAggregatedValues portfolioId)
  | writeExternalFile (filename : Text) (content : Bytes) :
      Unprovided (.writeExternalFile filename content)

/-- What the harness keeps of the calls of a plugin. -/
structure Desk where
  plain : Plain := {}
  logs : List LogLine := []

/-- A call under the permission goes to the canned names or to the plain store, or is
denied; events and log lines are taken without one. -/
inductive Performs (granted : Bool) :
    Desk → PluginCall → Except ApiError PluginReply → Desk → Prop
  | names {desk : Desk} (hgranted : granted = true) :
      Performs granted desk .readPortfolioNames (.ok (.portfolioNames cannedPortfolios)) desk
  | stored {desk : Desk} {call : Call Text Bytes} {answer : Answer} {plain : Plain}
      (hgranted : granted = true) (hconforms : Conforms desk.plain (.storage call) answer plain) :
      Performs granted desk (.storage call) (answer.map .storage) { desk with plain }
  | emitted {desk : Desk} {event : PluginEvent} {answer : Answer} {plain : Plain}
      (hconforms : Conforms desk.plain (.emit event) answer plain) :
      Performs granted desk (.emit event) (answer.map fun _ => .done) { desk with plain }
  | written {desk : Desk} {level : Level} {message : Text} :
      Performs granted desk (.write level message) (.ok .done)
        { desk with logs := desk.logs ++ [{ level, message }] }
  | denied {desk : Desk} {call : PluginCall} {err : ApiError} (hdenied : granted = false)
      (hgated : Gated call) (hcode : err.code = "permission-denied".toList) :
      Performs granted desk call (.error err) desk
  | notFound {desk : Desk} {call : PluginCall} {err : ApiError} (hunprovided : Unprovided call)
      (hcode : err.code = "not-found".toList) : Performs granted desk call (.error err) desk

/-! ## The harness performs its calls -/

namespace CapstoneHarness

def desk (harness : CapstoneHarness) : Desk where
  plain := harness.store.plain
  logs := harness.logs

theorem mapError_mapErr {α : Type} (answer : Except ApiError α) : answer.mapError mapErr = answer := by
  cases answer with
  | error err => rfl
  | ok value => rfl

/-- A storage call is one of the embedded host. -/
theorem perform_storage (harness : CapstoneHarness) (call : Call Text Bytes) :
    harness.perform (.storage call) = (harness.store.perform (.storage call)).map fun served =>
      (served.1.map .storage, { harness with store := served.2 }) := by
  have hmap : ∀ {α : Type} (answer : Except ApiError α) (read : α → Reply Text Bytes),
      (answer.mapError mapErr).map (fun value => PluginReply.storage (read value)) =
        (answer.map read).map .storage := by
    intro α answer read
    cases answer with
    | error err => rfl
    | ok value => rfl
  cases call with
  | set key value =>
      simp only [perform, set, StorageEventsHost.perform, Option.map_map]
      congr 1
      funext served
      simp only [Function.comp, delegated, Prod.map, id, hmap served.1 fun _ => .done]
  | get key => exact congrArg some (Prod.ext (hmap _ _) rfl)
  | delete key => exact congrArg some (Prod.ext (hmap _ fun _ => .done) rfl)
  | clear => exact congrArg some (Prod.ext (hmap _ fun _ => .done) rfl)
  | listKeys => exact congrArg some (Prod.ext (hmap _ _) rfl)

theorem perform_emit (harness : CapstoneHarness) (event : PluginEvent) :
    harness.perform (.emit event) = (harness.store.perform (.emit event)).map fun served =>
      (served.1.map fun _ => .done, { harness with store := served.2 }) := by
  simp only [perform, emit, delegated, StorageEventsHost.perform, Prod.map, id, mapError_mapErr,
    Option.map_some]
  cases (harness.store.emit event).1 with
  | error err => rfl
  | ok done => rfl

/-- What every call keeps: one permission, the caps, and an empty store without the
permission. -/
structure Sound (granted : Bool) (harness : CapstoneHarness) : Prop where
  workspace : harness.granted = granted
  storage : harness.store.granted = granted
  within : Within harness.store.plain
  empty : granted = false → harness.store.kv = ∅

theorem sound_new (granted : Bool) : Sound granted (new granted) where
  workspace := rfl
  storage := rfl
  within := StorageEvents.within_start
  empty := fun _ => rfl

variable {granted : Bool} {harness : CapstoneHarness}

/-- Without the permission a storage call is denied and leaves the host as it was. -/
theorem store_denied {store : StorageEventsHost} (hdenied : store.granted = false)
    (call : Call Text Bytes) :
    store.perform (.storage call) = some (.error StorageEvents.denied, store) := by
  cases call with
  | get key => simp [StorageEventsHost.perform, StorageEventsHost.get, hdenied, Except.map]
  | set key value => simp [StorageEventsHost.perform, StorageEventsHost.set, hdenied, Except.map]
  | delete key => simp [StorageEventsHost.perform, StorageEventsHost.delete, hdenied, Except.map]
  | clear => simp [StorageEventsHost.perform, StorageEventsHost.clear, hdenied, Except.map]
  | listKeys => simp [StorageEventsHost.perform, StorageEventsHost.listKeys, hdenied, Except.map]

theorem perform_storage_sound (hsound : Sound granted harness) (call : Call Text Bytes) :
    ∃ answer next, harness.perform (.storage call) = some (answer, next) ∧ Sound granted next ∧
      Performs granted harness.desk (.storage call) answer next.desk := by
  cases granted with
  | true =>
      obtain ⟨answer, store, hstore, hnext, hconforms⟩ :=
        StorageEventsHost.perform_conforms hsound.storage hsound.within (.storage call)
      refine ⟨answer.map .storage, { harness with store }, ?_, ?_, .stored rfl hconforms⟩
      · rw [perform_storage, hstore]
        rfl
      · exact ⟨hsound.workspace, hnext, hconforms.within hsound.within, by simp⟩
  | false =>
      refine ⟨.error StorageEvents.denied, harness, ?_, hsound, .denied rfl (.storage call) rfl⟩
      rw [perform_storage, store_denied hsound.storage]
      rfl

/-- Events are taken with the permission or without. -/
theorem perform_emit_sound (hsound : Sound granted harness) (event : PluginEvent) :
    ∃ answer next, harness.perform (.emit event) = some (answer, next) ∧ Sound granted next ∧
      Performs granted harness.desk (.emit event) answer next.desk := by
  have hemit : ∃ (answer : Answer) (store : StorageEventsHost),
      harness.store.perform (.emit event) = some (answer, store) ∧
        Conforms harness.store.plain (.emit event) answer store.plain := by
    rcases StorageEventsHost.emit_cases hsound.within.events event with
      ⟨hfits, htaken⟩ | ⟨hover, err, hdropped⟩
    · refine ⟨.ok .done, { harness.store with events := harness.store.events ++ [event] }, ?_,
        .emitted hfits⟩
      rw [StorageEventsHost.perform, htaken]
      rfl
    · refine ⟨.error err, harness.store, ?_, .dropped hover⟩
      rw [StorageEventsHost.perform, hdropped]
      rfl
  obtain ⟨answer, store, hstore, hconforms⟩ := hemit
  obtain ⟨hgranted, hkv⟩ : store.granted = harness.store.granted ∧ store.kv = harness.store.kv := by
    rw [StorageEventsHost.perform, Option.some_inj] at hstore
    obtain ⟨-, rfl⟩ := Prod.mk.inj hstore
    exact harness.store.emit_frame event
  refine ⟨answer.map fun _ => .done, { harness with store }, ?_, ?_, .emitted hconforms⟩
  · rw [perform_emit, hstore]
    rfl
  · exact ⟨hsound.workspace, hgranted.trans hsound.storage, hconforms.within hsound.within,
      fun hdenied => hkv.trans (hsound.empty hdenied)⟩

/-- Every call is performed, and keeps the harness sound. -/
theorem perform_sound (hsound : Sound granted harness) (call : PluginCall) :
    ∃ answer next, harness.perform call = some (answer, next) ∧ Sound granted next ∧
      Performs granted harness.desk call answer next.desk := by
  cases call with
  | readPortfolioNames =>
      refine ⟨_, harness, rfl, hsound, ?_⟩
      rw [readPortfolioNames, hsound.workspace]
      cases granted with
      | true => exact .names rfl
      | false => exact .denied rfl .readPortfolioNames rfl
  | readSheetStructure portfolioId => exact ⟨_, _, rfl, hsound, .notFound (.readSheetStructure _) rfl⟩
  | readAssetCount portfolioId => exact ⟨_, _, rfl, hsound, .notFound (.readAssetCount _) rfl⟩
  | readCurrencyRates => exact ⟨_, _, rfl, hsound, .notFound .readCurrencyRates rfl⟩
  | readAggregatedValues portfolioId =>
      exact ⟨_, _, rfl, hsound, .notFound (.readAggregatedValues _) rfl⟩
  | writeExternalFile filename content =>
      exact ⟨_, _, rfl, hsound, .notFound (.writeExternalFile _ _) rfl⟩
  | storage call => exact perform_storage_sound hsound call
  | emit event => exact perform_emit_sound hsound event
  | write level message =>
      exact ⟨_, _, rfl, ⟨hsound.workspace, hsound.storage, hsound.within, hsound.empty⟩, .written⟩

end CapstoneHarness

/-! ## What the desk holds of a conversation -/

/-- The log line that a call writes. -/
def lineOf : PluginCall × Except ApiError PluginReply → Option LogLine
  | (.write level message, _) => some { level, message }
  | _ => none

/-- The event that a call hands in, if it is taken. -/
def eventOf : PluginCall × Except ApiError PluginReply → Option PluginEvent
  | (.emit event, .ok _) => some event
  | _ => none

variable {granted : Bool} {calls : List (PluginCall × Except ApiError PluginReply)} {desk : Desk}

theorem Performs.logs {next : Desk} {call : PluginCall} {answer : Except ApiError PluginReply}
    (hperforms : Performs granted desk call answer next) :
    next.logs = desk.logs ++ (lineOf (call, answer)).toList := by
  cases hperforms with
  | written => rfl
  | denied hdenied hgated => cases hgated <;> exact (List.append_nil _).symm
  | notFound hunprovided => cases hunprovided <;> exact (List.append_nil _).symm
  | _ => exact (List.append_nil _).symm

theorem Performs.events {next : Desk} {call : PluginCall} {answer : Except ApiError PluginReply}
    (hperforms : Performs granted desk call answer next) :
    next.plain.events = desk.plain.events ++ (eventOf (call, answer)).toList := by
  cases hperforms with
  | stored hgranted hconforms =>
      cases hconforms <;> exact (List.append_nil _).symm
  | emitted hconforms =>
      cases hconforms with
      | emitted => rfl
      | dropped => exact (List.append_nil _).symm
  | denied hdenied hgated => cases hgated <;> exact (List.append_nil _).symm
  | notFound hunprovided => cases hunprovided <;> exact (List.append_nil _).symm
  | _ => exact (List.append_nil _).symm

/-- The lines written and the events taken are on the desk, in the order of the calls. -/
theorem desk_of_trace (htrace : Trace (Performs granted) {} calls desk) :
    desk.logs = calls.filterMap lineOf ∧ desk.plain.events = calls.filterMap eventOf := by
  induction htrace with
  | nil => exact ⟨rfl, rfl⟩
  | @snoc calls state next ask answer htrace hperforms ih =>
      have hlast : ∀ {α : Type} (shown : PluginCall × Except ApiError PluginReply → Option α),
          [(ask, answer)].filterMap shown = (shown (ask, answer)).toList := by
        intro α shown
        cases hshown : shown (ask, answer) with
        | none => simp [hshown]
        | some found => simp [hshown]
      rw [List.filterMap_append, List.filterMap_append, hlast, hlast, hperforms.logs,
        hperforms.events, ih.1, ih.2]
      exact ⟨rfl, rfl⟩

/-- Without the permission a gated call is denied. -/
theorem denied_of_trace (htrace : Trace (Performs false) {} calls desk) :
    ∀ call answer, (call, answer) ∈ calls → Gated call →
      ∃ err, answer = .error err ∧ err.code = "permission-denied".toList := by
  induction htrace with
  | nil => simp
  | @snoc calls state next ask reply htrace hperforms ih =>
      intro call answer hmem hgated
      rcases List.mem_append.mp hmem with hbefore | hlast
      · exact ih call answer hbefore hgated
      · obtain ⟨rfl, rfl⟩ := Prod.mk.inj (List.mem_singleton.mp hlast)
        cases hperforms with
        | denied hdenied hagain hcode => exact ⟨_, rfl, hcode⟩
        | names hgranted => cases hgranted
        | stored hgranted => cases hgranted
        | notFound hunprovided => cases hunprovided <;> cases hgated
        | emitted => cases hgated
        | written => cases hgated

end HellohqRuntime.Plugin.Capstone

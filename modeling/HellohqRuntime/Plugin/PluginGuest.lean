import HellohqRuntime.Plugin.StorageGuest

/-!
# A plugin over the session

A plugin makes calls on every interface of its world, each decided by the results of
those before.  The unified host turns a call into one host call on the session, or
refuses it without one.  The app is any server of requests.  The main result is what
the app has seen of a session when its end is known, and what the plugin was told.
-/

namespace HellohqRuntime.Plugin.PluginGuest

open HellohqRuntime.Foundation.Strings
open HellohqRuntime.Foundation.Json
open HellohqRuntime.Foundation.KeyValue
open HellohqRuntime.Foundation.Programs
open HellohqRuntime.Foundation.Runs
open HellohqRuntime.Foundation.Utf8
open HellohqRuntime.Bridge.Reporting
open HellohqRuntime.Bridge.Session
open HellohqRuntime.Bridge.HostCalls (exchanges)
open HellohqRuntime.Bridge.ServedSession
open HellohqRuntime.Plugin.Base64
open HellohqRuntime.Plugin.Types
open HellohqRuntime.Plugin.TransportHosts
open HellohqRuntime.Plugin.TransportHosts.TransportPluginHost
open HellohqRuntime.Plugin.StorageGuest

/-! ## The calls of a plugin -/

inductive PluginCall where
  | readPortfolioNames
  | readSheetStructure (portfolioId : Text)
  | readAssetCount (portfolioId : Text)
  | readCurrencyRates
  | readAggregatedValues (portfolioId : Text)
  | writeExternalFile (filename : Text) (content : Bytes)
  | storage (call : Call Text Bytes)
  | emit (event : PluginEvent)
  | write (level : Level) (message : Text)

inductive PluginReply where
  | portfolioNames (names : List PortfolioName)
  | sheetStructure (summary : SheetSummary)
  | assetCount (counts : AssetCount)
  | currencyRates (rates : List CurrencyRate)
  | aggregatedValues (summary : AggregatedSummary)
  | storage (reply : Reply Text Bytes)
  | done

/-! ## The reads that are not wired -/

def readSheetStructure (_portfolioId : Text) : Called SheetSummary :=
  refused "read-sheet-structure".toList

def readAssetCount (_portfolioId : Text) : Called AssetCount := refused "read-asset-count".toList

def readCurrencyRates : Called (List CurrencyRate) := refused "read-currency-rates".toList

def readAggregatedValues (_portfolioId : Text) : Called AggregatedSummary :=
  refused "read-aggregated-values".toList

def writeExternalFile (_filename : Text) (_content : Bytes) : Called Unit :=
  refused "write-external-file".toList

/-! ## A call on the unified host -/

/-- A call of the plugin, over whatever answers the host. -/
def ask (json : Serde) (roundTrip : Bytes → Outcome) : PluginCall → Called PluginReply
  | .readPortfolioNames =>
      (readPortfolioNames json roundTrip).andThen fun names => .ok (.portfolioNames names)
  | .readSheetStructure portfolioId =>
      (readSheetStructure portfolioId).andThen fun summary => .ok (.sheetStructure summary)
  | .readAssetCount portfolioId =>
      (readAssetCount portfolioId).andThen fun counts => .ok (.assetCount counts)
  | .readCurrencyRates => readCurrencyRates.andThen fun rates => .ok (.currencyRates rates)
  | .readAggregatedValues portfolioId =>
      (readAggregatedValues portfolioId).andThen fun summary => .ok (.aggregatedValues summary)
  | .writeExternalFile filename content =>
      (writeExternalFile filename content).andThen fun _ => .ok .done
  | .storage (.get key) =>
      (TransportPluginHost.get json roundTrip key).andThen fun found => .ok (.storage (.value found))
  | .storage (.set key value) =>
      (TransportPluginHost.set json roundTrip key value).andThen fun _ => .ok (.storage .done)
  | .storage (.delete key) =>
      (TransportPluginHost.delete key).andThen fun _ => .ok (.storage .done)
  | .storage .clear => TransportPluginHost.clear.andThen fun _ => .ok (.storage .done)
  | .storage .listKeys =>
      TransportPluginHost.listKeys.andThen fun keys => .ok (.storage (.keys keys))
  | .emit event => (TransportPluginHost.emit json roundTrip event).andThen fun _ => .ok .done
  | .write level message =>
      { sent := TransportPluginHost.write json roundTrip level message, result := .ok .done }

/-- A call of the plugin, as the worker makes it. -/
def hosted (json : Serde) (call : PluginCall) :
    Program Bytes (Option Bytes) (Except ApiError PluginReply) :=
  blocking fun roundTrip => ask json roundTrip call

/-- A plugin that exports `guest.run`. -/
abbrev TypedPlugin := Program PluginCall (Except ApiError PluginReply) (Except Text Bytes)

/-! ## How each call is wired -/

/-- A document whose members are strings. -/
def document (members : List (Text × Text)) : Value :=
  jsonObject (members.map fun member => (member.1, .string member.2))

inductive Wiring where
  /-- The host answers that the method is not wired. -/
  | refused (method : Text)
  /-- The request goes out and the reply is ignored. -/
  | logged (members : List (Text × Text))
  /-- The request goes out and the reply is read. -/
  | asked (members : List (Text × Text))

def wiring : PluginCall → Wiring
  | .readPortfolioNames => .asked [("method".toList, "read:portfolio_names".toList)]
  | .readSheetStructure _ => .refused "read-sheet-structure".toList
  | .readAssetCount _ => .refused "read-asset-count".toList
  | .readCurrencyRates => .refused "read-currency-rates".toList
  | .readAggregatedValues _ => .refused "read-aggregated-values".toList
  | .writeExternalFile _ _ => .refused "write-external-file".toList
  | .storage (.get key) =>
      .asked [("method".toList, "storage_get".toList), ("key".toList, key)]
  | .storage (.set key value) =>
      .asked [("method".toList, "storage_set".toList), ("key".toList, key),
        ("value".toList, b64Encode value)]
  | .storage (.delete _) => .refused "storage.delete".toList
  | .storage .clear => .refused "storage.clear".toList
  | .storage .listKeys => .refused "storage.list-keys".toList
  | .emit event =>
      .asked [("method".toList, "emit_event".toList), ("name".toList, event.kind),
        ("payload".toList, b64Encode event.payload)]
  | .write level message =>
      .logged [("method".toList, "log".toList), ("level".toList, levelText level),
        ("message".toList, message)]

/-- What a wired call makes of the `data` of a reply. -/
def decode : PluginCall → Value → Except ApiError PluginReply
  | .readPortfolioNames, data =>
      .ok (.portfolioNames (TransportWorkspaceHost.decodePortfolioNames data))
  | .storage call, data => (ByteStorage.decodeData call data).map .storage
  | _, _ => .ok .done

variable {json : Serde} {roundTrip : Bytes → Outcome} {call : PluginCall}
variable {members : List (Text × Text)} {method : Text}

theorem ask_of_refused (hwiring : wiring call = .refused method) :
    ask json roundTrip call = refused method := by
  cases call with
  | storage stored => cases stored <;> first | cases hwiring; rfl | cases hwiring
  | _ => first | cases hwiring; rfl | cases hwiring

theorem ask_of_logged (hwiring : wiring call = .logged members) :
    ask json roundTrip call =
      { sent := (forward json roundTrip (document members)).sent, result := .ok .done } := by
  cases call with
  | write level message => cases hwiring; rfl
  | storage stored => cases stored <;> cases hwiring
  | _ => cases hwiring

/-- Every call that is asked is one round trip and a reading of its `data`. -/
theorem ask_of_asked (hwiring : wiring call = .asked members) :
    ask json roundTrip call = (forward json roundTrip (document members)).andThen (decode call) := by
  cases call with
  | readPortfolioNames => cases hwiring; exact ByteStorage.andThen_andThen _ _ _
  | emit event => cases hwiring; exact ByteStorage.andThen_andThen _ _ _
  | storage stored =>
      cases stored with
      | get key =>
          cases hwiring
          refine (ByteStorage.andThen_andThen _ _ _).trans (congrArg _ ?_)
          funext data
          rw [decode, ByteStorage.decodeData]
          cases storageValue data with
          | error err => rfl
          | ok value => rfl
      | set key value => cases hwiring; exact ByteStorage.andThen_andThen _ _ _
      | _ => cases hwiring
  | _ => cases hwiring

/-! ## One call of the plugin on the session -/

/-- What becomes of a call: its answer, and the exchanges it makes with the app. -/
inductive Forwarded (json : Serde) :
    PluginCall → Except ApiError PluginReply → List (Bytes × Option Bytes) → Prop
  | refused {call : PluginCall} {method : Text} (hwiring : wiring call = .refused method) :
      Forwarded json call (.error (notWired method)) []
  | logged {call : PluginCall} {members : List (Text × Text)} {request resp : Bytes}
      (hwiring : wiring call = .logged members) (hrequest : json.toVec (document members) = .ok request) :
      Forwarded json call (.ok .done) [(request, some resp)]
  | asked {call : PluginCall} {members : List (Text × Text)} {request resp : Bytes}
      {answer : Except ApiError PluginReply} (hwiring : wiring call = .asked members)
      (hrequest : json.toVec (document members) = .ok request)
      (hfails : FailsClosed json (.replied resp) answer)
      (hdecodes : ∀ v, json.fromSlice resp = .ok v → v.get "ok".toList = some (.bool true) →
        answer = decode call ((v.get "data".toList).getD .null)) :
      Forwarded json call answer [(request, some resp)]

/-- A call without a request is over at once. -/
theorem hosted_of_silent (hsent : (ask json (fun _ => .closedBeforeSend) call).sent = none) :
    hosted json call = .done (ask json (fun _ => .closedBeforeSend) call).result :=
  blocking_of_silent hsent

theorem hosted_of_sent {request : Bytes}
    (hsent : (ask json (fun _ => .closedBeforeSend) call).sent = some request) :
    hosted json call = .ask request fun response =>
      .done (ask json (fun _ => outcomeOf response) call).result :=
  blocking_of_sent hsent

theorem forward_sent {request : Value} {bytes : Bytes} (hbytes : json.toVec request = .ok bytes) :
    (forward json roundTrip request).sent = some bytes := by
  rw [forward, hbytes]

/-- A reply that says so is read as the call's `data`. -/
theorem decodes_asked {request resp : Bytes} (hwiring : wiring call = .asked members)
    (hrequest : json.toVec (document members) = .ok request) {v : Value}
    (hparse : json.fromSlice resp = .ok v) (hok : v.get "ok".toList = some (.bool true)) :
    (ask json (fun _ => .replied resp) call).result =
      decode call ((v.get "data".toList).getD .null) := by
  have hforward : forward json (fun _ => .replied resp) (document members) = _ :=
    @forward_of_ok json _ _ request resp hrequest rfl _ hparse hok
  rw [ask_of_asked hwiring, hforward]
  rfl

variable {σ : Type} {serve other : Server σ Bytes Bytes}

/-- Every call of the plugin is forwarded, whatever the app answers. -/
theorem putAs_forwarded (hencodes : json.EncodesStrings) (serve : Server σ Bytes Bytes) :
    Program.PutAs (answering serve) (hosted json) (Forwarded json) := by
  intro call app
  cases hwiring : wiring call with
  | refused method =>
      have hask : ask json (fun _ => .closedBeforeSend) call = refused method :=
        ask_of_refused hwiring
      rw [hosted_of_silent (by rw [hask]; rfl), hask]
      exact .refused hwiring
  | logged members =>
      obtain ⟨request, hrequest⟩ := hencodes members
      rw [hosted_of_sent (by rw [ask_of_logged hwiring]; exact forward_sent hrequest)]
      simp only [ask_of_logged hwiring]
      exact .logged hwiring hrequest
  | asked members =>
      obtain ⟨request, hrequest⟩ := hencodes members
      rw [hosted_of_sent (by rw [ask_of_asked hwiring]; exact forward_sent hrequest)]
      refine .asked hwiring hrequest ?_ fun v hparse hok => decodes_asked hwiring hrequest hparse hok
      obtain ⟨sent, hsent, hfails⟩ := (@failsClosed_forward json
        (fun _ => outcomeOf (some (serve app request).1)) _ _ hrequest).andThen (decode call)
      simp only [ask_of_asked hwiring]
      exact hfails

/-! ## The whole session -/

/-- A plugin that logs, reads the names and asks for a call that is not wired. -/
def quickstart : TypedPlugin :=
  .ask (.write .info ['h', 'i']) fun _ => .ask .readPortfolioNames fun names =>
    .ask (.storage (.delete ['k'])) fun _ => .done
      (match names with
        | .ok (.portfolioNames [name]) => .ok (asBytes name.name)
        | _ => .error [])

def exampleReply : Value :=
  jsonObject [("ok".toList, .bool true),
    ("data".toList, .array [jsonObject [("id".toList, .string ['p']), ("name".toList, .string ['G'])]])]

/-- An app that counts what it answers. -/
def counting : Server Nat Bytes Bytes := fun app _ => (asBytes (print exampleReply), app + 1)

/-- When the end of a plugin session is known, the app has had one request of each wired
call, in order, and of no other; each call was answered by the reply to its own request,
and succeeded only where that reply says so; and what was told is what the plugin
returned. -/
theorem plugin_session (hencodes : json.EncodesStrings) (serve : Server σ Bytes Bytes)
    (plugin : TypedPlugin) (drive : Drive) (app : σ) (turns : List Turn) (final : ServedRun σ)
    (hrun : run (ServedRun.step serve) (ServedRun.start drive (plugin.via (hosted json)) app) turns =
      some final)
    (hfinished : final.run.session.finished = true) :
    ∃ (calls : List ((PluginCall × Except ApiError PluginReply) × List (Bytes × Option Bytes)))
      (result : Except Text Bytes),
      Program.Makes plugin (calls.map Prod.fst) result ∧
      exchanges final.run.transcript = calls.flatMap Prod.snd ∧
      (∀ call ∈ calls, Forwarded json call.1.1 call.1.2 call.2) ∧
      final.run.session.result = resultOf (.done result) ∧
      (endings final.run.transcript).head? = some (ended result) := by
  obtain ⟨hsaid, -, hresult, htold⟩ := (inTalk_run hrun).holds.told hfinished
  obtain ⟨calls, hmakes, hexchanges, hforwarded⟩ :=
    Program.exists_exchanges_via (putAs_forwarded hencodes serve) plugin app
  exact ⟨calls, _, hmakes, hsaid.trans hexchanges, hforwarded, hresult, htold⟩

theorem plugin_session_example :
    let json := sampleSerde [exampleReply]
    ∃ turns final, run (ServedRun.step counting)
        (ServedRun.start .sync (quickstart.via (hosted json)) 0) turns = some final ∧
      ∃ (calls : List ((PluginCall × Except ApiError PluginReply) × List (Bytes × Option Bytes)))
          (result : Except Text Bytes),
        Program.Makes quickstart (calls.map Prod.fst) result ∧
        exchanges final.run.transcript = calls.flatMap Prod.snd ∧
        (∀ call ∈ calls, Forwarded json call.1.1 call.1.2 call.2) ∧
        final.run.session.result = resultOf (.done result) ∧
        (endings final.run.transcript).head? = some (ended result) := by
  intro json
  obtain ⟨turns, final, hrun, hfinished⟩ := (inTalk_start .sync (quickstart.via (hosted json)) 0 :
    InTalk counting _ _ _).exists_finished
  exact ⟨turns, final, hrun, plugin_session (sampleSerde_encodesStrings _) counting quickstart .sync 0
    turns final hrun hfinished⟩

/-! ## Log lines -/

/-- Two apps that differ only in what they answer to log lines. -/
structure SameButLogs (json : Serde) (serve other : Server σ Bytes Bytes) : Prop where
  state : ∀ app request, (serve app request).2 = (other app request).2
  answer : ∀ app call members request, wiring call = .asked members →
    json.toVec (document members) = .ok request → (serve app request).1 = (other app request).1

/-- The plugin cannot tell the two apart by one call. -/
theorem serveVia_eq (hencodes : json.EncodesStrings) (hsame : SameButLogs json serve other) :
    Program.serveVia (answering serve) (hosted json) =
      Program.serveVia (answering other) (hosted json) := by
  funext app call
  cases hwiring : wiring call with
  | refused method =>
      have hask : ask json (fun _ => .closedBeforeSend) call = refused method :=
        ask_of_refused hwiring
      rw [Program.serveVia, Program.serveVia, hosted_of_silent (by rw [hask]; rfl)]
      rfl
  | logged members =>
      obtain ⟨request, hrequest⟩ := hencodes members
      rw [Program.serveVia, Program.serveVia,
        hosted_of_sent (by rw [ask_of_logged hwiring]; exact forward_sent hrequest)]
      simp only [ask_of_logged hwiring, Program.converse, answering, hsame.state,
        Conversation.after_result, Conversation.after_state]
  | asked members =>
      obtain ⟨request, hrequest⟩ := hencodes members
      rw [Program.serveVia, Program.serveVia,
        hosted_of_sent (by rw [ask_of_asked hwiring]; exact forward_sent hrequest)]
      simp only [Program.converse, answering, hsame.state,
        hsame.answer app call members request hwiring hrequest]

/-- One that has no answer to a request whose first member is the level. -/
def countingQuietly : Server Nat Bytes Bytes := fun app request =>
  (if request[2]? = some 0x6C then [] else asBytes (print exampleReply), app + 1)

theorem sameButLogs_counting : SameButLogs (sampleSerde [exampleReply]) counting countingQuietly where
  state := fun _ _ => rfl
  answer := by
    intro app call members request hwiring hrequest
    have hthird : request[2]? ≠ some 0x6C := by
      obtain rfl := Except.ok.inj hrequest
      cases call with
      | readPortfolioNames => cases hwiring; decide
      | emit event => cases hwiring; exact fun heq => absurd (Option.some.inj heq) (by decide)
      | storage stored =>
          cases stored with
          | get key => cases hwiring; exact fun heq => absurd (Option.some.inj heq) (by decide)
          | set key value => cases hwiring; exact fun heq => absurd (Option.some.inj heq) (by decide)
          | _ => cases hwiring
      | _ => cases hwiring
    exact (if_neg hthird).symm

/-- What an app answers to log lines has no effect on a plugin: under two such apps a
session ends with the same result and leaves the same state, in whatever order each runs. -/
theorem logs_unanswered (hencodes : json.EncodesStrings) (hsame : SameButLogs json serve other)
    (plugin : TypedPlugin) (drive otherDrive : Drive) (app : σ) (turns otherTurns : List Turn)
    (final otherFinal : ServedRun σ)
    (hrun : run (ServedRun.step serve) (ServedRun.start drive (plugin.via (hosted json)) app) turns =
      some final)
    (hother : run (ServedRun.step other) (ServedRun.start otherDrive (plugin.via (hosted json)) app)
      otherTurns = some otherFinal)
    (hfinished : final.run.session.finished = true)
    (hotherFinished : otherFinal.run.session.finished = true) :
    final.run.session.result = otherFinal.run.session.result ∧ final.app = otherFinal.app ∧
      (endings final.run.transcript).head? = (endings otherFinal.run.transcript).head? := by
  obtain ⟨-, happ, hresult, htold⟩ := (inTalk_run hrun).holds.told hfinished
  obtain ⟨-, hotherApp, hotherResult, hotherTold⟩ := (inTalk_run hother).holds.told hotherFinished
  obtain ⟨hleft, hleftState⟩ :=
    Program.converse_via (answering serve) (hosted json) plugin app
  obtain ⟨hright, hrightState⟩ :=
    Program.converse_via (answering other) (hosted json) plugin app
  rw [serveVia_eq hencodes hsame] at hleft hleftState
  refine ⟨?_, ?_, ?_⟩
  · rw [hresult, hotherResult, hleft, hright]
  · rw [happ, hotherApp, hleftState, hrightState]
  · rw [htold, hotherTold, hleft, hright]

theorem logs_unanswered_example :
    let json := sampleSerde [exampleReply]
    ∃ turns otherTurns final otherFinal,
      run (ServedRun.step counting) (ServedRun.start .sync (quickstart.via (hosted json)) 0) turns =
          some final ∧
      run (ServedRun.step countingQuietly) (ServedRun.start .sync (quickstart.via (hosted json)) 0)
          otherTurns = some otherFinal ∧
      final.run.session.result = otherFinal.run.session.result ∧ final.app = otherFinal.app ∧
        (endings final.run.transcript).head? = (endings otherFinal.run.transcript).head? := by
  intro json
  obtain ⟨turns, final, hrun, hfinished⟩ := (inTalk_start .sync (quickstart.via (hosted json)) 0 :
    InTalk counting _ _ _).exists_finished
  obtain ⟨otherTurns, otherFinal, hother, hotherFinished⟩ :=
    (inTalk_start .sync (quickstart.via (hosted json)) 0 :
      InTalk countingQuietly _ _ _).exists_finished
  exact ⟨turns, otherTurns, final, otherFinal, hrun, hother,
    logs_unanswered (sampleSerde_encodesStrings _) sameButLogs_counting quickstart .sync .sync 0 turns
      otherTurns final otherFinal hrun hother hfinished hotherFinished⟩

end HellohqRuntime.Plugin.PluginGuest

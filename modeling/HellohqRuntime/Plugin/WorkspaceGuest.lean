import HellohqRuntime.Plugin.StorageGuest
import HellohqRuntime.Plugin.WorkspaceReads

/-!
# A workspace guest over the session

A typed guest reads the workspace, each read decided by the results of those before.
The host asks the app for every read by a host call on the session, and refuses the one
write without asking.  The app is any server of requests.  The main result is what the
app has seen of a session when its end is known, and which records the guest was given.
-/

namespace HellohqRuntime.Plugin.WorkspaceGuest

open HellohqRuntime.Foundation.Strings
open HellohqRuntime.Foundation.Json
open HellohqRuntime.Foundation.Programs
open HellohqRuntime.Foundation.Runs
open HellohqRuntime.Foundation.Utf8
open HellohqRuntime.Bridge.Reporting
open HellohqRuntime.Bridge.Session
open HellohqRuntime.Bridge.HostCalls (exchanges)
open HellohqRuntime.Bridge.ServedSession
open HellohqRuntime.Plugin.Types
open HellohqRuntime.Plugin.TransportHosts
open HellohqRuntime.Plugin.TransportHosts.TransportWorkspaceHost
open HellohqRuntime.Plugin.StorageGuest
open HellohqRuntime.Plugin.WorkspaceReads

/-! ## The calls of a guest -/

inductive WorkspaceCall where
  | readPortfolioNames
  | readSheetStructure (portfolioId : Text)
  | readAssetCount (portfolioId : Text)
  | readCurrencyRates
  | readAggregatedValues (portfolioId : Text)
  | writeExternalFile (filename : Text) (content : Bytes)
  deriving DecidableEq, Repr

inductive WorkspaceReply where
  | portfolioNames (names : List PortfolioName)
  | sheetStructure (summary : SheetSummary)
  | assetCount (counts : AssetCount)
  | currencyRates (rates : List CurrencyRate)
  | aggregatedValues (summary : AggregatedSummary)
  | done

/-- A call on the host. -/
def ask (json : Serde) (roundTrip : Bytes → Outcome) : WorkspaceCall → Called WorkspaceReply
  | .readPortfolioNames =>
      (readPortfolioNames json roundTrip).andThen fun names => .ok (.portfolioNames names)
  | .readSheetStructure portfolioId =>
      (readSheetStructure json roundTrip portfolioId).andThen fun summary =>
        .ok (.sheetStructure summary)
  | .readAssetCount portfolioId =>
      (readAssetCount json roundTrip portfolioId).andThen fun counts => .ok (.assetCount counts)
  | .readCurrencyRates =>
      (readCurrencyRates json roundTrip).andThen fun rates => .ok (.currencyRates rates)
  | .readAggregatedValues portfolioId =>
      (readAggregatedValues json roundTrip portfolioId).andThen fun summary =>
        .ok (.aggregatedValues summary)
  | .writeExternalFile filename content =>
      (writeExternalFile filename content).andThen fun _ => .ok .done

/-- The method of a read, and the portfolio it names. -/
def requestOf : WorkspaceCall → Option (Text × Option Text)
  | .readPortfolioNames => some ("read:portfolio_names".toList, none)
  | .readSheetStructure portfolioId => some ("read:sheet_structure".toList, some portfolioId)
  | .readAssetCount portfolioId => some ("read:asset_count".toList, some portfolioId)
  | .readCurrencyRates => some ("read:currency_rates".toList, none)
  | .readAggregatedValues portfolioId => some ("read:aggregated_values".toList, some portfolioId)
  | .writeExternalFile _ _ => none

/-- What a read makes of the `data` of a reply. -/
def decode : WorkspaceCall → Value → WorkspaceReply
  | .readPortfolioNames, data => .portfolioNames (decodePortfolioNames data)
  | .readSheetStructure _, data => .sheetStructure (decodeSheetSummary data)
  | .readAssetCount _, data => .assetCount (decodeAssetCount data)
  | .readCurrencyRates, data => .currencyRates (decodeCurrencyRates data)
  | .readAggregatedValues _, data => .aggregatedValues (decodeAggregatedSummary data)
  | .writeExternalFile _ _, _ => .done

/-- The documented data of a record. -/
def documented : WorkspaceReply → Value
  | .portfolioNames names => encodePortfolioNames names
  | .sheetStructure summary => encodeSheetSummary summary
  | .assetCount counts => encodeAssetCount counts
  | .currencyRates rates => encodeCurrencyRates rates
  | .aggregatedValues summary => encodeAggregatedSummary summary
  | .done => .null

/-- The record is of the kind that the read returns, and its doubles are finite. -/
def Fits : WorkspaceCall → WorkspaceReply → Prop
  | .readPortfolioNames, .portfolioNames _ => True
  | .readSheetStructure _, .sheetStructure _ => True
  | .readAssetCount _, .assetCount _ => True
  | .readCurrencyRates, .currencyRates rates =>
      ∀ currency ∈ rates, currency.rate.isFinite = true
  | .readAggregatedValues _, .aggregatedValues summary =>
      ∀ entry ∈ summary.totals, entry.total.isFinite = true
  | _, _ => False

variable {json : Serde} {roundTrip : Bytes → Outcome} {call : WorkspaceCall}
variable {method : Text} {portfolioId : Option Text}

theorem decode_documented {record : WorkspaceReply} (hfits : Fits call record) :
    decode call (documented record) = record := by
  cases call with
  | readPortfolioNames =>
      cases record with
      | portfolioNames names => exact congrArg _ (decodePortfolioNames_encode names)
      | _ => exact hfits.elim
  | readSheetStructure portfolioId =>
      cases record with
      | sheetStructure summary => exact congrArg _ (decodeSheetSummary_encode summary)
      | _ => exact hfits.elim
  | readAssetCount portfolioId =>
      cases record with
      | assetCount counts => exact congrArg _ (decodeAssetCount_encode counts)
      | _ => exact hfits.elim
  | readCurrencyRates =>
      cases record with
      | currencyRates rates => exact congrArg _ (decodeCurrencyRates_encode hfits)
      | _ => exact hfits.elim
  | readAggregatedValues portfolioId =>
      cases record with
      | aggregatedValues summary => exact congrArg _ (decodeAggregatedSummary_encode hfits)
      | _ => exact hfits.elim
  | writeExternalFile filename content => cases record <;> exact hfits.elim

/-- Every read is one round trip and a reading of its `data`. -/
theorem ask_of_read (hread : requestOf call = some (method, portfolioId)) :
    ask json roundTrip call = read json roundTrip method portfolioId (decode call) := by
  cases call with
  | writeExternalFile filename content => cases hread
  | _ => cases hread; exact ByteStorage.andThen_andThen _ _ _

/-- Any other call is the write, which is over at once. -/
theorem eq_write_of_not_read (hread : requestOf call = none) :
    ∃ filename content, call = .writeExternalFile filename content := by
  cases call with
  | writeExternalFile filename content => exact ⟨filename, content, rfl⟩
  | _ => cases hread

/-! ## One call on the session -/

/-- A guest of the typed workspace interface. -/
abbrev TypedReader :=
  Program WorkspaceCall (Except ApiError WorkspaceReply) (Except Text Bytes)

/-- A call of the guest, as the worker makes it. -/
def hosted (json : Serde) (call : WorkspaceCall) :
    Program Bytes (Option Bytes) (Except ApiError WorkspaceReply) :=
  blocking fun roundTrip => ask json roundTrip call

/-- What becomes of a call: its answer, and the exchanges it makes with the app. -/
inductive Answered (json : Serde) :
    WorkspaceCall → Except ApiError WorkspaceReply → List (Bytes × Option Bytes) → Prop
  | reserved (filename : Text) (content : Bytes) :
      Answered json (.writeExternalFile filename content) (.error notWired) []
  | read {call : WorkspaceCall} {method : Text} {portfolioId : Option Text} {request resp : Bytes}
      {answer : Except ApiError WorkspaceReply} (hread : requestOf call = some (method, portfolioId))
      (hrequest : json.toVec (readRequest method portfolioId) = .ok request)
      (hfails : FailsClosed json (.replied resp) answer)
      (hrecord : ∀ v record, json.fromSlice resp = .ok v → v.get "ok".toList = some (.bool true) →
        v.get "data".toList = some (documented record) → Fits call record → answer = .ok record) :
      Answered json call answer [(request, some resp)]

variable {σ : Type}

/-- Every call of the guest is answered so, whatever the app replies. -/
theorem putAs_answered (hencodes : json.EncodesStrings) (serve : Server σ Bytes Bytes) :
    Program.PutAs (answering serve) (hosted json) (Answered json) := by
  intro call app
  cases hread : requestOf call with
  | none =>
      obtain ⟨filename, content, rfl⟩ := eq_write_of_not_read hread
      exact .reserved filename content
  | some asked =>
      obtain ⟨method, portfolioId⟩ := asked
      obtain ⟨request, hrequest⟩ := exists_readRequest hencodes method portfolioId
      have hsent : (ask json (fun _ => .closedBeforeSend) call).sent = some request := by
        rw [ask_of_read hread]
        exact (callFailsClosed_read hrequest).1
      have hprogram : hosted json call = .ask request fun response =>
          .done (ask json (fun _ => outcomeOf response) call).result := blocking_of_sent hsent
      let replying : Bytes → Outcome := fun _ => .replied (serve app request).1
      have hreplies : replying request = .replied (serve app request).1 := rfl
      let answer := (WorkspaceReads.read json replying method portfolioId (decode call)).result
      have hanswer : ((hosted json call).converse (answering serve) app).result = answer ∧
          ((hosted json call).converse (answering serve) app).exchanges =
            [(request, some (serve app request).1)] := by
        rw [hprogram]
        simp only [ask_of_read hread]
        exact ⟨rfl, rfl⟩
      have hfails : FailsClosed json (replying request) answer := (callFailsClosed_read hrequest).2
      rw [hanswer.1, hanswer.2]
      refine .read hread hrequest (hreplies ▸ hfails) ?_
      intro v record hparse hok hdata hfits
      have hresult : answer = .ok (decode call ((v.get "data".toList).getD .null)) :=
        congrArg Called.result (read_of_ok hrequest hreplies hparse hok)
      rw [hresult, hdata, Option.getD_some, decode_documented hfits]

/-! ## The whole session -/

/-- When the end of a workspace session is known, the app has had one request of each read,
in order, and of no other call; each read was answered by the reply to its own request,
with the record that the reply documents or with an error; and what was told is what the
guest returned. -/
theorem workspace_session (hencodes : json.EncodesStrings) (serve : Server σ Bytes Bytes)
    (guest : TypedReader) (drive : Drive) (app : σ) (turns : List Turn) (final : ServedRun σ)
    (hrun : run (ServedRun.step serve) (ServedRun.start drive (guest.via (hosted json)) app) turns =
      some final)
    (hfinished : final.run.session.finished = true) :
    ∃ (calls : List ((WorkspaceCall × Except ApiError WorkspaceReply) × List (Bytes × Option Bytes)))
      (result : Except Text Bytes),
      Program.Makes guest (calls.map Prod.fst) result ∧
      exchanges final.run.transcript = calls.flatMap Prod.snd ∧
      (∀ call ∈ calls, Answered json call.1.1 call.1.2 call.2) ∧
      final.run.session.result = resultOf (.done result) ∧
      (endings final.run.transcript).head? = some (ended result) := by
  obtain ⟨hsaid, -, hresult, htold⟩ := (inTalk_run hrun).holds.told hfinished
  obtain ⟨calls, hmakes, hexchanges, hanswered⟩ :=
    Program.exists_exchanges_via (putAs_answered hencodes serve) guest app
  exact ⟨calls, _, hmakes, hsaid.trans hexchanges, hanswered, hresult, htold⟩

/-- A guest that reads the sheets of the first portfolio and tries to write them out. -/
def browser : TypedReader :=
  .ask .readPortfolioNames fun names =>
    match names with
    | .ok (.portfolioNames (first :: _)) =>
        .ask (.readSheetStructure first.id) fun _ =>
          .ask (.writeExternalFile "sheets".toList []) fun _ => .done (.ok (asBytes first.name))
    | _ => .done (.error [])

def namesReply : Value :=
  jsonObject [("ok".toList, .bool true),
    ("data".toList, encodePortfolioNames [{ id := ['p'], name := ['G'] }])]

/-- An app that knows the names, and nothing of sheets. -/
def namesOnly : Server Unit Bytes Bytes := fun app _ => (asBytes (print namesReply), app)

theorem workspace_session_example :
    let json := sampleSerde [namesReply]
    ∃ turns final, run (ServedRun.step namesOnly)
        (ServedRun.start .sync (browser.via (hosted json)) ()) turns = some final ∧
      ∃ (calls : List ((WorkspaceCall × Except ApiError WorkspaceReply) ×
          List (Bytes × Option Bytes))) (result : Except Text Bytes),
        Program.Makes browser (calls.map Prod.fst) result ∧
        exchanges final.run.transcript = calls.flatMap Prod.snd ∧
        (∀ call ∈ calls, Answered json call.1.1 call.1.2 call.2) ∧
        final.run.session.result = resultOf (.done result) ∧
        (endings final.run.transcript).head? = some (ended result) := by
  intro json
  obtain ⟨turns, final, hrun, hfinished⟩ := (inTalk_start .sync (browser.via (hosted json)) () :
    InTalk namesOnly _ _ _).exists_finished
  exact ⟨turns, final, hrun, workspace_session (sampleSerde_encodesStrings _) namesOnly browser .sync
    () turns final hrun hfinished⟩

end HellohqRuntime.Plugin.WorkspaceGuest

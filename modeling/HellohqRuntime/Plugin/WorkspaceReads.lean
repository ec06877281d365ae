import HellohqRuntime.Plugin.TransportHosts
import Mathlib

/-!
# The reads of the workspace

The host for `workspace` maps the `data` of a reply onto the record of each read.  The
lookups are permissive: a member that is missing or of another kind reads as empty or
zero.  The main result is that every record comes back from its documented data, so
no key is misspelt, no element is lost and no two fields are exchanged.
-/

namespace HellohqRuntime.Plugin.WorkspaceReads

open HellohqRuntime.Foundation.Strings
open HellohqRuntime.Foundation.Json
open HellohqRuntime.Plugin.Types
open HellohqRuntime.Plugin.TransportHosts
open HellohqRuntime.Plugin.TransportHosts.TransportWorkspaceHost

variable {α β : Type}

/-! ## The decoders -/

/-- The decoded elements of an array, none where there is no array. -/
def decodeItems (item : Value → α) (list : Option Value) : List α :=
  ((list.bind Value.asArray).map fun arr => arr.map item).getD []

/-- The sections of a sheet, without the elements that are not strings. -/
def decodeSections (sheet : Value) : List Text :=
  (((sheet.get "sections".toList).bind Value.asArray).map fun secs =>
    secs.filterMap Value.asStr).getD []

def decodeSheetInfo (sheet : Value) : SheetInfo where
  name := s sheet "name".toList
  sections := decodeSections sheet

def decodeSheetSummary (data : Value) : SheetSummary where
  portfolioId := s data "portfolio_id".toList
  sheets := decodeItems decodeSheetInfo (data.get "sheets".toList)

/-- The count is narrowed from 64 bits to 32. -/
def decodeCategoryCount (c : Value) : CategoryCount where
  category := s c "category".toList
  count := (((c.get "count".toList).bind Value.asU64).getD 0).toUInt32

def decodeAssetCount (data : Value) : AssetCount where
  portfolioId := s data "portfolio_id".toList
  countByCategory := decodeItems decodeCategoryCount (data.get "count_by_category".toList)

def decodeCurrencyRate (r : Value) : CurrencyRate where
  id := s r "id".toList
  name := s r "name".toList
  symbol := s r "symbol".toList
  rate := ((r.get "rate".toList).bind Value.asF64).getD 0.0

def decodeCurrencyRates (data : Value) : List CurrencyRate :=
  decodeItems decodeCurrencyRate (some data)

def decodeCategoryTotal (t : Value) : CategoryTotal where
  category := s t "category".toList
  total := ((t.get "total".toList).bind Value.asF64).getD 0.0

def decodeAggregatedSummary (data : Value) : AggregatedSummary where
  portfolioId := s data "portfolio_id".toList
  totals := decodeItems decodeCategoryTotal (data.get "totals".toList)

/-! ## The documented data -/

def encodePortfolioName (portfolio : PortfolioName) : Value :=
  jsonObject [("id".toList, .string portfolio.id), ("name".toList, .string portfolio.name)]

def encodePortfolioNames (names : List PortfolioName) : Value :=
  .array (names.map encodePortfolioName)

def encodeSheetInfo (sheet : SheetInfo) : Value :=
  jsonObject [("name".toList, .string sheet.name),
    ("sections".toList, .array (sheet.sections.map Value.string))]

def encodeSheetSummary (summary : SheetSummary) : Value :=
  jsonObject [("portfolio_id".toList, .string summary.portfolioId),
    ("sheets".toList, .array (summary.sheets.map encodeSheetInfo))]

def encodeCategoryCount (entry : CategoryCount) : Value :=
  jsonObject [("category".toList, .string entry.category),
    ("count".toList, .number (.posInt entry.count.toUInt64))]

def encodeAssetCount (counts : AssetCount) : Value :=
  jsonObject [("portfolio_id".toList, .string counts.portfolioId),
    ("count_by_category".toList, .array (counts.countByCategory.map encodeCategoryCount))]

def encodeCurrencyRate (currency : CurrencyRate) : Value :=
  jsonObject [("id".toList, .string currency.id), ("name".toList, .string currency.name),
    ("symbol".toList, .string currency.symbol), ("rate".toList, .ofF64 currency.rate)]

def encodeCurrencyRates (rates : List CurrencyRate) : Value :=
  .array (rates.map encodeCurrencyRate)

def encodeCategoryTotal (entry : CategoryTotal) : Value :=
  jsonObject [("category".toList, .string entry.category), ("total".toList, .ofF64 entry.total)]

def encodeAggregatedSummary (summary : AggregatedSummary) : Value :=
  jsonObject [("portfolio_id".toList, .string summary.portfolioId),
    ("totals".toList, .array (summary.totals.map encodeCategoryTotal))]

/-! ## Elements -/

/-- A finite double comes back from its value. -/
theorem asF64_ofF64 {x : Float} (hfinite : x.isFinite = true) : (Value.ofF64 x).asF64 = some x := by
  rw [Value.ofF64, if_pos hfinite, Value.asF64, Float.ofBits_toBits]

/-- The text of a member that holds one. -/
theorem s_eq {value : Value} {key text : Text} (hget : value.get key = some (.string text)) :
    s value key = text := by
  rw [s, hget]
  rfl

theorem decodeItems_array (item : Value → α) (items : List Value) :
    decodeItems item (some (.array items)) = items.map item := rfl

/-- A list comes back where each of its elements does. -/
theorem decodeItems_map {item : Value → α} {encode : α → Value} {values : List α}
    (hitem : ∀ value ∈ values, item (encode value) = value) :
    decodeItems item (some (.array (values.map encode))) = values := by
  rw [decodeItems_array, List.map_map]
  exact (List.map_congr_left hitem).trans (List.map_id values)

theorem decodeSections_eq {sheet : Value} {sections : List Text}
    (hget : sheet.get "sections".toList = some (.array (sections.map Value.string))) :
    decodeSections sheet = sections := by
  rw [decodeSections, hget]
  change (sections.map Value.string).filterMap Value.asStr = sections
  rw [List.filterMap_map]
  exact List.filterMap_some

theorem decodePortfolioNames_eq (data : Value) :
    decodePortfolioNames data =
      decodeItems (fun i => { id := s i "id".toList, name := s i "name".toList }) (some data) := rfl

theorem decodeSheetInfo_encode (sheet : SheetInfo) :
    decodeSheetInfo (encodeSheetInfo sheet) = sheet := by
  have hname : s (encodeSheetInfo sheet) "name".toList = sheet.name := s_eq (get_jsonObject _ _)
  have hsections : decodeSections (encodeSheetInfo sheet) = sheet.sections :=
    decodeSections_eq (get_jsonObject _ _)
  rw [decodeSheetInfo, hname, hsections]

theorem decodeCategoryCount_encode (entry : CategoryCount) :
    decodeCategoryCount (encodeCategoryCount entry) = entry := by
  have hcategory : s (encodeCategoryCount entry) "category".toList = entry.category :=
    s_eq (get_jsonObject _ _)
  have hcount : (encodeCategoryCount entry).get "count".toList =
      some (.number (.posInt entry.count.toUInt64)) := get_jsonObject _ _
  rw [decodeCategoryCount, hcategory, hcount, Option.bind_some, Value.asU64, Option.getD_some,
    UInt32.toUInt32_toUInt64]

theorem decodeCurrencyRate_encode {currency : CurrencyRate}
    (hfinite : currency.rate.isFinite = true) :
    decodeCurrencyRate (encodeCurrencyRate currency) = currency := by
  have hid : s (encodeCurrencyRate currency) "id".toList = currency.id :=
    s_eq (get_jsonObject _ _)
  have hname : s (encodeCurrencyRate currency) "name".toList = currency.name :=
    s_eq (get_jsonObject _ _)
  have hsymbol : s (encodeCurrencyRate currency) "symbol".toList = currency.symbol :=
    s_eq (get_jsonObject _ _)
  have hrate : (encodeCurrencyRate currency).get "rate".toList = some (.ofF64 currency.rate) :=
    get_jsonObject _ _
  rw [decodeCurrencyRate, hid, hname, hsymbol, hrate, Option.bind_some, asF64_ofF64 hfinite,
    Option.getD_some]

theorem decodeCategoryTotal_encode {entry : CategoryTotal} (hfinite : entry.total.isFinite = true) :
    decodeCategoryTotal (encodeCategoryTotal entry) = entry := by
  have hcategory : s (encodeCategoryTotal entry) "category".toList = entry.category :=
    s_eq (get_jsonObject _ _)
  have htotal : (encodeCategoryTotal entry).get "total".toList = some (.ofF64 entry.total) :=
    get_jsonObject _ _
  rw [decodeCategoryTotal, hcategory, htotal, Option.bind_some, asF64_ofF64 hfinite,
    Option.getD_some]

/-! ## Records -/

theorem decodePortfolioNames_encode (names : List PortfolioName) :
    decodePortfolioNames (encodePortfolioNames names) = names := by
  rw [decodePortfolioNames_eq, encodePortfolioNames]
  apply decodeItems_map
  intro portfolio _
  have hid : s (encodePortfolioName portfolio) "id".toList = portfolio.id :=
    s_eq (get_jsonObject _ _)
  have hname : s (encodePortfolioName portfolio) "name".toList = portfolio.name :=
    s_eq (get_jsonObject _ _)
  rw [hid, hname]

theorem decodeSheetSummary_encode (summary : SheetSummary) :
    decodeSheetSummary (encodeSheetSummary summary) = summary := by
  have hportfolio : s (encodeSheetSummary summary) "portfolio_id".toList = summary.portfolioId :=
    s_eq (get_jsonObject _ _)
  have hsheets : (encodeSheetSummary summary).get "sheets".toList =
      some (.array (summary.sheets.map encodeSheetInfo)) := get_jsonObject _ _
  rw [decodeSheetSummary, hportfolio, hsheets, decodeItems_map fun sheet _ =>
    decodeSheetInfo_encode sheet]

theorem decodeAssetCount_encode (counts : AssetCount) :
    decodeAssetCount (encodeAssetCount counts) = counts := by
  have hportfolio : s (encodeAssetCount counts) "portfolio_id".toList = counts.portfolioId :=
    s_eq (get_jsonObject _ _)
  have hcounts : (encodeAssetCount counts).get "count_by_category".toList =
      some (.array (counts.countByCategory.map encodeCategoryCount)) := get_jsonObject _ _
  rw [decodeAssetCount, hportfolio, hcounts, decodeItems_map fun entry _ =>
    decodeCategoryCount_encode entry]

theorem decodeCurrencyRates_encode {rates : List CurrencyRate}
    (hfinite : ∀ currency ∈ rates, currency.rate.isFinite = true) :
    decodeCurrencyRates (encodeCurrencyRates rates) = rates := by
  rw [decodeCurrencyRates, encodeCurrencyRates]
  apply decodeItems_map
  intro currency hmem
  exact decodeCurrencyRate_encode (hfinite currency hmem)

theorem decodeAggregatedSummary_encode {summary : AggregatedSummary}
    (hfinite : ∀ entry ∈ summary.totals, entry.total.isFinite = true) :
    decodeAggregatedSummary (encodeAggregatedSummary summary) = summary := by
  have hportfolio :
      s (encodeAggregatedSummary summary) "portfolio_id".toList = summary.portfolioId :=
    s_eq (get_jsonObject _ _)
  have htotals : (encodeAggregatedSummary summary).get "totals".toList =
      some (.array (summary.totals.map encodeCategoryTotal)) := get_jsonObject _ _
  rw [decodeAggregatedSummary, hportfolio, htotals, decodeItems_map fun entry hmem =>
    decodeCategoryTotal_encode (hfinite entry hmem)]

/-- Every record of every read comes back from its documented data, and the two reads of
an array return one element for each of its own. -/
theorem decoders_faithful :
    (∀ names : List PortfolioName, decodePortfolioNames (encodePortfolioNames names) = names) ∧
    (∀ summary : SheetSummary, decodeSheetSummary (encodeSheetSummary summary) = summary) ∧
    (∀ counts : AssetCount, decodeAssetCount (encodeAssetCount counts) = counts) ∧
    (∀ rates : List CurrencyRate, (∀ currency ∈ rates, currency.rate.isFinite = true) →
      decodeCurrencyRates (encodeCurrencyRates rates) = rates) ∧
    (∀ summary : AggregatedSummary, (∀ entry ∈ summary.totals, entry.total.isFinite = true) →
      decodeAggregatedSummary (encodeAggregatedSummary summary) = summary) ∧
    ∀ items : List Value,
      (decodePortfolioNames (.array items)).length = items.length ∧
        (decodeCurrencyRates (.array items)).length = items.length := by
  refine ⟨decodePortfolioNames_encode, decodeSheetSummary_encode, decodeAssetCount_encode, ?_, ?_, ?_⟩
  · intro rates hfinite
    exact decodeCurrencyRates_encode hfinite
  · intro summary hfinite
    exact decodeAggregatedSummary_encode hfinite
  · intro items
    rw [decodePortfolioNames_eq, decodeCurrencyRates, decodeItems_array, decodeItems_array]
    exact ⟨List.length_map _, List.length_map _⟩

/-- A rate of 1.5. -/
theorem decoders_faithful_example :
    let rate : CurrencyRate :=
      { id := "USD".toList, name := "US Dollar".toList, symbol := "$".toList,
        rate := Float.ofBits 0x3FF8000000000000 }
    decodeCurrencyRates (encodeCurrencyRates [rate]) = [rate] := by
  intro rate
  obtain ⟨-, -, -, hrates, -⟩ := decoders_faithful
  apply hrates
  intro currency hmem
  obtain rfl := List.mem_singleton.mp hmem
  decide

/-! ## The reads -/

section Reads

variable (json : Serde) (roundTrip : Bytes → Outcome)

/-- The request of a read. -/
def readRequest (method : Text) (portfolioId : Option Text) : Value :=
  jsonObject (("method".toList, .string method) ::
    (portfolioId.map fun pid => ("portfolio_id".toList, Value.string pid)).toList)

/-- Forward a read and decode the `data` of the reply. -/
def read (method : Text) (portfolioId : Option Text) (decode : Value → α) : Called α :=
  (forward json roundTrip method portfolioId).andThen fun d => .ok (decode d)

def readSheetStructure (portfolioId : Text) : Called SheetSummary :=
  read json roundTrip "read:sheet_structure".toList (some portfolioId) decodeSheetSummary

def readAssetCount (portfolioId : Text) : Called AssetCount :=
  read json roundTrip "read:asset_count".toList (some portfolioId) decodeAssetCount

def readCurrencyRates : Called (List CurrencyRate) :=
  read json roundTrip "read:currency_rates".toList none decodeCurrencyRates

def readAggregatedValues (portfolioId : Text) : Called AggregatedSummary :=
  read json roundTrip "read:aggregated_values".toList (some portfolioId) decodeAggregatedSummary

/-- The error of the one write, which is reserved. -/
def notWired : ApiError where
  code := "not-found".toList
  message := "write-external-file: not wired (reserved capability)".toList

/-- It asks the app nothing. -/
def writeExternalFile (_filename : Text) (_content : Bytes) : Called Unit where
  sent := none
  result := .error notWired

variable {json roundTrip} {method : Text} {portfolioId : Option Text} {decode : Value → α}

/-- A read whose reply says so returns what it makes of the `data`. -/
theorem read_of_ok {bytes resp : Bytes} {v : Value}
    (hbytes : json.toVec (readRequest method portfolioId) = .ok bytes)
    (hreply : roundTrip bytes = .replied resp) (hparse : json.fromSlice resp = .ok v)
    (hok : v.get "ok".toList = some (.bool true)) :
    read json roundTrip method portfolioId decode =
      { sent := some bytes, result := .ok (decode ((v.get "data".toList).getD .null)) } := by
  have hforward : forward json roundTrip method portfolioId =
      { sent := some bytes, result := .ok ((v.get "data".toList).getD .null) } := by
    rw [readRequest] at hbytes
    rw [forward, hbytes]
    simp only [call, hreply, hparse, if_pos ((ok_getD_iff v).mpr hok)]
  rw [read, hforward]
  rfl

/-- A library that encodes strings encodes the request of a read. -/
theorem exists_readRequest (hencodes : json.EncodesStrings) (method : Text)
    (portfolioId : Option Text) : ∃ bytes, json.toVec (readRequest method portfolioId) = .ok bytes := by
  have hmembers : ("method".toList, Value.string method) ::
        (portfolioId.map fun pid => ("portfolio_id".toList, Value.string pid)).toList =
      (("method".toList, method) ::
        (portfolioId.map fun pid => ("portfolio_id".toList, pid)).toList).map
          fun member => (member.1, Value.string member.2) := by
    cases portfolioId with
    | none => rfl
    | some pid => rfl
  rw [readRequest, hmembers]
  exact hencodes _

/-- A read puts its request on the channel and fails closed. -/
theorem callFailsClosed_read {bytes : Bytes}
    (hbytes : json.toVec (readRequest method portfolioId) = .ok bytes) :
    (read json roundTrip method portfolioId decode).sent = some bytes ∧
      FailsClosed json (roundTrip bytes) (read json roundTrip method portfolioId decode).result := by
  have hagree := forward_agree json roundTrip method portfolioId
  have hclosed : CallFailsClosed json roundTrip (read json roundTrip method portfolioId decode) :=
    (CallFailsClosed.of_agree hagree (failsClosed_forward hbytes)).andThen _
  have hsent : (read json roundTrip method portfolioId decode).sent = some bytes := by
    rw [readRequest] at hbytes
    rw [read, forward, hbytes]
    rfl
  obtain ⟨request, hrequest, hfails⟩ := hclosed
  obtain rfl := Option.some.inj (hsent.symm.trans hrequest)
  exact ⟨hsent, hfails⟩

end Reads

end HellohqRuntime.Plugin.WorkspaceReads

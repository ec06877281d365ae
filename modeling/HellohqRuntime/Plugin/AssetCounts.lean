import HellohqRuntime.Plugin.WorkspaceReads
import Mathlib.Algebra.Group.Nat.Defs
import Mathlib.Data.List.Forall2

/-!
# The counts of a reply

The count of an element is read as an integer of 64 bits and cut down to 32.  A count
that is missing, negative or not an integer reads as zero.  One of 2^32 or more keeps
its low half, so it is zero only where that half is.
-/

namespace HellohqRuntime.Plugin.AssetCounts

open HellohqRuntime.Foundation.Strings
open HellohqRuntime.Foundation.Json
open HellohqRuntime.Plugin.Types
open HellohqRuntime.Plugin.WorkspaceReads

/-! ## What the app sent -/

/-- The elements of a reply that have a count. -/
def countElements (data : Value) : List Value :=
  ((data.get "count_by_category".toList).bind Value.asArray).getD []

/-- The count of an element, where it is an integer that is not negative. -/
def sentCount (element : Value) : Option Nat :=
  match element.get "count".toList with
  | some (.number (.posInt n)) => some n.toNat
  | _ => none

/-- A decoded count is the one that was sent, or zero where none of 32 bits was. -/
structure ExactOrDefault (element : Value) (count : UInt32) : Prop where
  sent : ∀ n, sentCount element = some n → n < 2 ^ 32 → count.toNat = n
  absent : (∀ n, sentCount element = some n → 2 ^ 32 ≤ n) → count = 0

/-- The entry of the record that an element of the reply is decoded to. -/
def DecodedTo (data element : Value) (entry : CategoryCount) : Prop :=
  ∃ index : Nat, (countElements data)[index]? = some element ∧
    (decodeAssetCount data).countByCategory[index]? = some entry

/-- Every count of the record is the exact one or the default, so different counts of
32 bits never decode to the same, and larger ones decode to zero. -/
structure CountsFaithful (data : Value) : Prop where
  counts : List.Forall₂ (fun element entry => ExactOrDefault element entry.count)
    (countElements data) (decodeAssetCount data).countByCategory
  apart : ∀ other left right leftEntry rightEntry n m,
    DecodedTo data left leftEntry → DecodedTo other right rightEntry →
    sentCount left = some n → n < 2 ^ 32 → sentCount right = some m → m < 2 ^ 32 → n ≠ m →
    leftEntry.count ≠ rightEntry.count
  outOfRange : ∀ element entry n, DecodedTo data element entry →
    sentCount element = some n → 2 ^ 32 ≤ n → entry.count = 0

/-- The count does not fit, and its low half is not zero. -/
def Wraps (element : Value) : Prop :=
  ∃ n, sentCount element = some n ∧ 2 ^ 32 ≤ n ∧ n % 2 ^ 32 ≠ 0

/-! ## What is decoded -/

/-- The decoded count is the low half of the one that was sent. -/
theorem toNat_count (element : Value) :
    (decodeCategoryCount element).count.toNat = (sentCount element).getD 0 % 2 ^ 32 := by
  rw [decodeCategoryCount, UInt64.toNat_toUInt32, sentCount]
  cases element.get "count".toList with
  | none => rfl
  | some member =>
      cases member with
      | number n => cases n <;> rfl
      | null => rfl
      | bool b => rfl
      | string text => rfl
      | array items => rfl
      | object members => rfl

theorem count_of_sentCount {element : Value} {n : Nat} (hsent : sentCount element = some n) :
    (decodeCategoryCount element).count.toNat = n % 2 ^ 32 := by
  rw [toNat_count, hsent, Option.getD_some]

/-- A count that does not fit is decoded to zero. -/
theorem ExactOrDefault.eq_zero {element : Value} {count : UInt32} {n : Nat}
    (hexact : ExactOrDefault element count) (hsent : sentCount element = some n)
    (hlarge : 2 ^ 32 ≤ n) : count = 0 := by
  apply hexact.absent
  intro m hm
  rwa [← Option.some.inj (hsent.symm.trans hm)]

theorem exactOrDefault_iff (element : Value) :
    ExactOrDefault element (decodeCategoryCount element).count ↔ ¬Wraps element := by
  constructor
  · rintro hexact ⟨n, hsent, hlarge, hlow⟩
    have hcount := count_of_sentCount hsent
    rw [hexact.eq_zero hsent hlarge] at hcount
    exact hlow hcount.symm
  · intro hwraps
    constructor
    · intro n hsent hless
      rw [count_of_sentCount hsent, Nat.mod_eq_of_lt hless]
    · intro hlarge
      apply UInt32.toNat_inj.mp
      rw [toNat_count]
      cases hsent : sentCount element with
      | none => rfl
      | some n =>
          by_contra hlow
          exact hwraps ⟨n, hsent, hlarge n hsent, hlow⟩

theorem countByCategory_eq (data : Value) :
    (decodeAssetCount data).countByCategory = (countElements data).map decodeCategoryCount := by
  rw [decodeAssetCount, decodeItems, countElements]
  cases (data.get "count_by_category".toList).bind Value.asArray <;> rfl

theorem DecodedTo.eq {data element : Value} {entry : CategoryCount}
    (hdecoded : DecodedTo data element entry) :
    element ∈ countElements data ∧ entry = decodeCategoryCount element := by
  obtain ⟨index, helement, hentry⟩ := hdecoded
  rw [countByCategory_eq, List.getElem?_map, helement, Option.map_some] at hentry
  exact ⟨List.mem_of_getElem? helement, (Option.some.inj hentry).symm⟩

/-- The counts of a reply are faithful if and only if none of them wraps. -/
theorem countsFaithful_iff (data : Value) :
    CountsFaithful data ↔ ∀ element ∈ countElements data, ¬Wraps element := by
  constructor
  · rintro ⟨hcounts, -, -⟩ element hmem
    rw [countByCategory_eq, List.forall₂_map_right_iff, List.forall₂_same] at hcounts
    exact (exactOrDefault_iff element).mp (hcounts element hmem)
  · intro hwraps
    constructor
    · rw [countByCategory_eq, List.forall₂_map_right_iff, List.forall₂_same]
      intro element hmem
      exact (exactOrDefault_iff element).mpr (hwraps element hmem)
    · intro other left right leftEntry rightEntry n m hleft hright hn hnless hm hmless hne heq
      obtain ⟨-, rfl⟩ := hleft.eq
      obtain ⟨-, rfl⟩ := hright.eq
      have hcounts := congrArg UInt32.toNat heq
      rw [count_of_sentCount hn, count_of_sentCount hm, Nat.mod_eq_of_lt hnless,
        Nat.mod_eq_of_lt hmless] at hcounts
      exact hne hcounts
    · intro element entry n hdecoded hsent hlarge
      obtain ⟨hmem, rfl⟩ := hdecoded.eq
      exact ((exactOrDefault_iff element).mpr (hwraps element hmem)).eq_zero hsent hlarge

/-- A count of 2^32 + 1 is decoded to 1. -/
theorem not_countsFaithful_of_wrapped :
    let reply := jsonObject [("portfolio_id".toList, .string "pf-1".toList),
      ("count_by_category".toList, .array [jsonObject [("category".toList, .string "equities".toList),
        ("count".toList, .number (.posInt 4294967297))]])]
    (decodeAssetCount reply).countByCategory = [{ category := "equities".toList, count := 1 }] ∧
      ¬CountsFaithful reply := by
  intro reply
  have hdecoded : (decodeAssetCount reply).countByCategory =
      [{ category := "equities".toList, count := 1 }] := by decide
  refine ⟨hdecoded, ?_⟩
  intro hfaithful
  have hzero := hfaithful.outOfRange _ _ 4294967297 ⟨0, rfl, by rw [hdecoded]; rfl⟩ rfl (by decide)
  exact absurd hzero (by decide)

end HellohqRuntime.Plugin.AssetCounts

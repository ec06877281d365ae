import Mathlib
import HellohqRuntime.Foundation.FlatMultimap

/-!
# Multimaps in buckets

A multimap keeps one bucket for each key, with the values of the key in order.
Removing a key moves the last bucket into the place of the removed one, so the
order of the keys is not kept; what a key holds does not depend on that order.
-/

namespace HellohqRuntime.Foundation.Buckets

variable {κ α : Type*}

/-- Take out the item at a place and move the last one there. -/
def swapRemove {β : Type*} (items : List β) (index : Nat) : List β :=
  match items.getLast? with
  | none => []
  | some last => (items.set index last).dropLast

/-- But for the order, the item at the place is all that goes. -/
theorem swapRemove_perm {β : Type*} {items : List β} {index : Nat} (hindex : index < items.length) :
    (swapRemove items index).Perm (items.eraseIdx index) := by
  have hsome : items ≠ [] := List.ne_nil_of_length_pos (Nat.zero_lt_of_lt hindex)
  have hlast : (items.set index (items.getLast hsome)).getLast? = some (items.getLast hsome) := by
    rw [List.getLast?_eq_getElem?, List.getLast_eq_getElem]
    simp only [List.length_set, List.getElem?_set]
    split
    · simp
    · rw [List.getElem?_eq_getElem]
  rw [swapRemove, List.getLast?_eq_some_getLast hsome]
  refine (List.perm_cons (items.getLast hsome)).mp ?_
  calc
    (items.getLast hsome :: (items.set index (items.getLast hsome)).dropLast).Perm
        ((items.set index (items.getLast hsome)).dropLast ++ [items.getLast hsome]) :=
      (List.perm_append_singleton _ _).symm
    _ = items.set index (items.getLast hsome) :=
      List.dropLast_append_getLast? _ hlast
    List.Perm _ (items.getLast hsome :: items.eraseIdx index) :=
      List.set_perm_cons_eraseIdx hindex _

theorem swapRemove_subset {β : Type*} (items : List β) (index : Nat) :
    swapRemove items index ⊆ items := by
  intro item hitem
  rw [swapRemove] at hitem
  cases hlast : items.getLast? with
  | none =>
      rw [hlast] at hitem
      cases hitem
  | some last =>
      rw [hlast] at hitem
      rcases List.mem_or_eq_of_mem_set (List.mem_of_mem_dropLast hitem) with hmem | rfl
      · exact hmem
      · exact List.mem_of_getLast? hlast

theorem swapRemove_map {β γ : Type*} (f : β → γ) (items : List β) (index : Nat) :
    swapRemove (items.map f) index = (swapRemove items index).map f := by
  rw [swapRemove, swapRemove, List.getLast?_map]
  cases items.getLast? with
  | none => rfl
  | some last => simp [List.map_dropLast, List.map_set]

/-- What is in front of the item and of the last one stays. -/
theorem swapRemove_append {β : Type*} (front : List β) {back : List β} {index : Nat}
    (hindex : index < back.length) :
    swapRemove (front ++ back) (front.length + index) = front ++ swapRemove back index := by
  have hsome : back ≠ [] := List.ne_nil_of_length_pos (Nat.zero_lt_of_lt hindex)
  rw [swapRemove, swapRemove, List.getLast?_append, List.getLast?_eq_some_getLast hsome]
  simp only [Option.some_or]
  rw [List.set_append_right _ _ (Nat.le_add_right _ _), Nat.add_sub_cancel_left,
    List.dropLast_append_of_ne_nil (by simpa using hsome)]

structure Multimap (κ α : Type*) where
  buckets : List (κ × List α)
  nodup : (buckets.map Prod.fst).Nodup

namespace Multimap

def keys (map : Multimap κ α) : List κ := map.buckets.map Prod.fst

/-- The values of a key, in order. -/
def getAll [DecidableEq κ] (map : Multimap κ α) (key : κ) : List α :=
  ((map.buckets.find? fun bucket => bucket.1 = key).map Prod.snd).getD []

/-- Every value with its key, bucket by bucket. -/
def pairs (map : Multimap κ α) : List (κ × α) :=
  map.buckets.flatMap fun bucket => bucket.2.map fun value => (bucket.1, value)

/-- The number of values under all keys. -/
def count (map : Multimap κ α) : Nat := (map.buckets.map fun bucket => bucket.2.length).sum

/-- Other values under the same keys, at the same places. -/
def mapValues (f : κ → List α → List α) (map : Multimap κ α) : Multimap κ α where
  buckets := map.buckets.map fun bucket => (bucket.1, f bucket.1 bucket.2)
  nodup := by
    rw [List.map_map]
    exact map.nodup

variable {map : Multimap κ α} {key : κ} {values : List α}

theorem mem_keys_iff : key ∈ map.keys ↔ ∃ values, (key, values) ∈ map.buckets := by
  simp [keys]

theorem eq_of_buckets {other : Multimap κ α} (hbuckets : map.buckets = other.buckets) :
    map = other := by
  obtain ⟨buckets, _⟩ := map
  cases hbuckets
  rfl

@[simp] theorem buckets_mapValues (f : κ → List α → List α) (map : Multimap κ α) :
    (map.mapValues f).buckets = map.buckets.map fun bucket => (bucket.1, f bucket.1 bucket.2) :=
  rfl

@[simp] theorem keys_mapValues (f : κ → List α → List α) (map : Multimap κ α) :
    (map.mapValues f).keys = map.keys := by
  rw [keys, mapValues, List.map_map]
  rfl

/-- Where nothing is changed. -/
theorem mapValues_eq_self {f : κ → List α → List α}
    (hsame : ∀ key ∈ map.keys, ∀ values, f key values = values) : map.mapValues f = map := by
  apply eq_of_buckets
  refine (List.map_congr_left ?_).trans (List.map_id _)
  rintro ⟨key, values⟩ hbucket
  rw [hsame key (mem_keys_iff.mpr ⟨values, hbucket⟩)]
  rfl

theorem length_pairs (map : Multimap κ α) : map.pairs.length = map.count := by
  simp [pairs, count, List.length_flatMap]

variable [DecidableEq κ]

theorem getAll_eq_of_mem (hmem : (key, values) ∈ map.buckets) : map.getAll key = values := by
  obtain ⟨buckets, hnodup⟩ := map
  induction buckets with
  | nil => cases hmem
  | cons bucket rest ih =>
      rw [List.map_cons, List.nodup_cons] at hnodup
      rcases List.mem_cons.mp hmem with rfl | hrest
      · simp [getAll]
      · have hne : ¬bucket.1 = key := fun heq =>
          hnodup.1 (heq ▸ List.mem_map_of_mem hrest)
        have hmore := ih hnodup.2 hrest
        simpa [getAll, hne] using hmore

theorem eq_of_mem_buckets {bucket : κ × List α} (hbucket : bucket ∈ map.buckets)
    (hkey : bucket.1 = key) : bucket = (key, map.getAll key) := by
  subst hkey
  rw [getAll_eq_of_mem hbucket]

theorem getAll_eq_nil (hnot : key ∉ map.keys) : map.getAll key = [] := by
  have hnone : (map.buckets.find? fun bucket => bucket.1 = key) = none := by
    rw [List.find?_eq_none]
    intro bucket hbucket heq
    exact hnot (List.mem_map.mpr ⟨bucket, hbucket, by simpa using heq⟩)
  rw [getAll, hnone]
  rfl

/-- The pairs of a key have its values, in order. -/
theorem valuesOf_pairs (map : Multimap κ α) (key : κ) :
    FlatMultimap.valuesOf id map.pairs key = map.getAll key := by
  obtain ⟨buckets, hnodup⟩ := map
  simp only [pairs, getAll]
  induction buckets with
  | nil => rfl
  | cons bucket rest ih =>
      rw [List.map_cons, List.nodup_cons] at hnodup
      rw [List.flatMap_cons, FlatMultimap.valuesOf_append, FlatMultimap.valuesOf_named,
        ih hnodup.2]
      by_cases hkey : key = bucket.1
      · have hrest : (rest.find? fun bucket => bucket.1 = key) = none := by
          rw [List.find?_eq_none]
          intro other hother heq
          have hsame : other.1 = bucket.1 := by simpa [hkey] using heq
          exact hnodup.1 (hsame ▸ List.mem_map_of_mem hother)
        rw [hrest]
        simp [hkey]
      · simp [hkey, Ne.symm hkey]

/-- The buckets without the one of a key. -/
def removed (map : Multimap κ α) (key : κ) : List (κ × List α) :=
  let index := map.buckets.findIdx fun bucket => bucket.1 = key
  if index < map.buckets.length then swapRemove map.buckets index else map.buckets

theorem removed_of_not_mem (hnot : key ∉ map.keys) : map.removed key = map.buckets := by
  rw [removed, if_neg]
  rw [List.findIdx_lt_length]
  rintro ⟨bucket, hbucket, heq⟩
  exact hnot (List.mem_map.mpr ⟨bucket, hbucket, by simpa using heq⟩)

/-- Only the bucket of the key goes. -/
theorem perm_removed (hmem : key ∈ map.keys) :
    map.buckets.Perm ((key, map.getAll key) :: map.removed key) := by
  obtain ⟨bucket, hbucket, hkey⟩ := List.mem_map.mp hmem
  have hindex : map.buckets.findIdx (fun bucket => bucket.1 = key) < map.buckets.length :=
    List.findIdx_lt_length.mpr ⟨bucket, hbucket, by simpa using hkey⟩
  have hfirst : (map.buckets[map.buckets.findIdx fun bucket => bucket.1 = key]).1 = key := by
    simpa using @List.findIdx_getElem _ (fun bucket => decide (bucket.1 = key)) map.buckets hindex
  have hhead := eq_of_mem_buckets (List.getElem_mem hindex) hfirst
  rw [removed, if_pos hindex, ← hhead]
  exact (List.getElem_cons_eraseIdx_perm hindex).symm.trans
    ((List.perm_cons _).mpr (swapRemove_perm hindex).symm)

/-- Remove a key with all its values. -/
def remove (map : Multimap κ α) (key : κ) : Multimap κ α where
  buckets := map.removed key
  nodup := by
    by_cases hmem : key ∈ map.keys
    · have hkeys := ((perm_removed hmem).map Prod.fst).nodup_iff.mp map.nodup
      rw [List.map_cons, List.nodup_cons] at hkeys
      exact hkeys.2
    · rw [removed_of_not_mem hmem]
      exact map.nodup

@[simp] theorem buckets_remove (map : Multimap κ α) (key : κ) :
    (map.remove key).buckets = map.removed key := rfl

theorem remove_mapValues (f : κ → List α → List α) (map : Multimap κ α) (key : κ) :
    (map.mapValues f).remove key = (map.remove key).mapValues f := by
  have hindex : ((map.mapValues f).buckets.findIdx fun bucket => bucket.1 = key) =
      map.buckets.findIdx fun bucket => bucket.1 = key := by
    rw [buckets_mapValues, List.findIdx_map]
    rfl
  apply eq_of_buckets
  rw [buckets_remove, removed, hindex, buckets_mapValues, buckets_mapValues, List.length_map,
    buckets_remove, removed]
  split
  · exact swapRemove_map _ _ _
  · rfl

/-- Buckets in front of the one that goes stay as they are. -/
theorem removed_of_append {front back : List (κ × List α)} (hbuckets : map.buckets = front ++ back)
    (hfront : ∀ bucket ∈ front, bucket.1 ≠ key) (hback : ∃ bucket ∈ back, bucket.1 = key) :
    map.removed key = front ++ swapRemove back (back.findIdx fun bucket => bucket.1 = key) := by
  have hwithin : (back.findIdx fun bucket => bucket.1 = key) < back.length := by
    rw [List.findIdx_lt_length]
    simpa using hback
  have hindex : (map.buckets.findIdx fun bucket => bucket.1 = key) =
      front.length + back.findIdx fun bucket => bucket.1 = key := by
    rw [hbuckets, List.findIdx_append, if_neg, Nat.add_comm]
    rw [List.findIdx_lt_length]
    rintro ⟨bucket, hbucket, heq⟩
    exact hfront bucket hbucket (by simpa using heq)
  rw [removed, if_pos, hindex, hbuckets, swapRemove_append front hwithin]
  rw [hindex, hbuckets, List.length_append]
  omega

theorem mem_buckets_remove {bucket : κ × List α} :
    bucket ∈ (map.remove key).buckets ↔ bucket ∈ map.buckets ∧ bucket.1 ≠ key := by
  by_cases hmem : key ∈ map.keys
  · have hperm := perm_removed hmem
    have hkeys := (hperm.map Prod.fst).nodup_iff.mp map.nodup
    rw [List.map_cons, List.nodup_cons] at hkeys
    rw [hperm.mem_iff, List.mem_cons]
    constructor
    · exact fun hbucket => ⟨Or.inr hbucket, fun heq =>
        hkeys.1 (List.mem_map.mpr ⟨bucket, hbucket, heq⟩)⟩
    · rintro ⟨rfl | hbucket, hne⟩
      · exact absurd rfl hne
      · exact hbucket
  · rw [buckets_remove, removed_of_not_mem hmem]
    refine (and_iff_left_of_imp fun hbucket heq => hmem ?_).symm
    exact heq ▸ List.mem_map_of_mem hbucket

theorem mem_keys_remove {other : κ} : other ∈ (map.remove key).keys ↔ other ∈ map.keys ∧ other ≠ key := by
  simp only [mem_keys_iff, mem_buckets_remove, exists_and_right]

/-- The other keys hold what they held. -/
theorem getAll_remove (map : Multimap κ α) (key other : κ) :
    (map.remove key).getAll other = if other = key then [] else map.getAll other := by
  by_cases hmem : other ∈ (map.remove key).keys
  · obtain ⟨values, hvalues⟩ := mem_keys_iff.mp hmem
    obtain ⟨hbefore, hne⟩ := mem_buckets_remove.mp hvalues
    rw [getAll_eq_of_mem hvalues, if_neg hne, getAll_eq_of_mem hbefore]
  · rw [getAll_eq_nil hmem]
    split
    · rfl
    · next hne => exact (getAll_eq_nil fun hbefore => hmem (mem_keys_remove.mpr ⟨hbefore, hne⟩)).symm

theorem count_remove (map : Multimap κ α) (key : κ) :
    (map.getAll key).length + (map.remove key).count = map.count := by
  by_cases hmem : key ∈ map.keys
  · have hcount := ((perm_removed hmem).map fun bucket => bucket.2.length).sum_eq
    simpa [count] using hcount.symm
  · rw [getAll_eq_nil hmem, count, count, buckets_remove, removed_of_not_mem hmem]
    simp

/-- Remove several keys, and count the values that go. -/
def removeAll : Multimap κ α → List κ → Nat × Multimap κ α
  | map, [] => (0, map)
  | map, key :: rest =>
      let removed := removeAll (map.remove key) rest
      ((map.getAll key).length + removed.1, removed.2)

theorem mem_keys_removeAll {keys : List κ} {other : κ} :
    other ∈ (map.removeAll keys).2.keys ↔ other ∈ map.keys ∧ other ∉ keys := by
  induction keys generalizing map with
  | nil => simp [removeAll]
  | cons key rest ih =>
      rw [removeAll, ih, mem_keys_remove, List.mem_cons, not_or, and_assoc]

theorem getAll_removeAll (keys : List κ) (map : Multimap κ α) (other : κ) :
    (map.removeAll keys).2.getAll other = if other ∈ keys then [] else map.getAll other := by
  induction keys generalizing map with
  | nil => simp [removeAll]
  | cons key rest ih =>
      rw [removeAll, ih, getAll_remove]
      by_cases hrest : other ∈ rest
      · simp [hrest]
      · simp [hrest]

theorem count_removeAll (keys : List κ) (map : Multimap κ α) :
    (map.removeAll keys).1 + (map.removeAll keys).2.count = map.count := by
  induction keys generalizing map with
  | nil => simp [removeAll]
  | cons key rest ih =>
      rw [removeAll, Nat.add_assoc, ih, count_remove]

end Multimap

end HellohqRuntime.Foundation.Buckets

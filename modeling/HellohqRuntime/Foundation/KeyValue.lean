import Mathlib

/-!
# Key-value stores

A plain store is a finite map from keys to values.  `Serves` says what a call
answers and what it leaves behind; a listing may come in any order.  A store kept
as a list of entries serves in this way.  The weight of a store is the sum of the
weights of its values, and an insertion changes it by what it puts in and what it
displaces.
-/

namespace HellohqRuntime.Foundation.KeyValue

variable {κ α : Type}

inductive Call (κ α : Type) where
  | get (key : κ)
  | set (key : κ) (value : α)
  | delete (key : κ)
  | clear
  | listKeys
  deriving DecidableEq, Repr

inductive Reply (κ α : Type) where
  | done
  | value (found : Option α)
  | keys (found : List κ)
  deriving DecidableEq, Repr

abbrev Store (κ α : Type) := Finmap fun _ : κ => α

abbrev Entries (κ α : Type) := AList fun _ : κ => α

/-- The sum of the weights of the values. -/
def weight (size : α → Nat) (store : Store κ α) : Nat :=
  (store.entries.map fun entry => size entry.2).sum

@[simp] theorem weight_empty {size : α → Nat} : weight size (∅ : Store κ α) = 0 := rfl

theorem weight_toFinmap {size : α → Nat} (entries : Entries κ α) :
    weight size entries.toFinmap = (entries.entries.map fun entry => size entry.2).sum := by
  rw [weight, AList.toFinmap_entries, Multiset.map_coe, Multiset.sum_coe]

variable [DecidableEq κ]

/-- What a call answers, and the store after it. -/
inductive Serves : Store κ α → Call κ α → Reply κ α → Store κ α → Prop
  | get (store : Store κ α) (key : κ) :
      Serves store (.get key) (.value (store.lookup key)) store
  | set (store : Store κ α) (key : κ) (value : α) :
      Serves store (.set key value) .done (store.insert key value)
  | delete (store : Store κ α) (key : κ) : Serves store (.delete key) .done (store.erase key)
  | clear (store : Store κ α) : Serves store .clear .done ∅
  | listKeys (store : Store κ α) {keys : List κ} (hnodup : keys.Nodup)
      (hkeys : ∀ key, key ∈ keys ↔ key ∈ store) : Serves store .listKeys (.keys keys) store

/-! ## Lists of entries -/

def serve (entries : Entries κ α) : Call κ α → Reply κ α × Entries κ α
  | .get key => (.value (entries.lookup key), entries)
  | .set key value => (.done, entries.insert key value)
  | .delete key => (.done, entries.erase key)
  | .clear => (.done, ∅)
  | .listKeys => (.keys entries.keys, entries)

theorem serves_listing {entries : Entries κ α} {keys : List κ} (hperm : keys.Perm entries.keys) :
    Serves entries.toFinmap .listKeys (.keys keys) entries.toFinmap := by
  apply Serves.listKeys
  · exact hperm.nodup_iff.mpr entries.keys_nodup
  · intro key
    rw [hperm.mem_iff, Finmap.mem_toFinmap, AList.mem_keys]

/-- A list of entries serves as the finite map it stands for. -/
theorem serves_serve (entries : Entries κ α) (call : Call κ α) :
    Serves entries.toFinmap call (serve entries call).1 (serve entries call).2.toFinmap := by
  cases call with
  | get key => exact Serves.get _ key
  | set key value =>
      have hset := Serves.set entries.toFinmap key value
      rwa [Finmap.insert_toFinmap] at hset
  | delete key =>
      have hdelete := Serves.delete entries.toFinmap key
      rwa [Finmap.erase_toFinmap] at hdelete
  | clear => exact Serves.clear _
  | listKeys => exact serves_listing (List.Perm.refl _)

/-! ## Weights -/

/-- The weight of what the key holds, zero where it holds nothing. -/
def weightAt (size : α → Nat) (store : Store κ α) (key : κ) : Nat :=
  ((store.lookup key).map size).getD 0

variable {size : α → Nat} {store : Store κ α} {key : κ} {value : α}

theorem weight_insert_of_notMem (hfresh : key ∉ store) :
    weight size (store.insert key value) = size value + weight size store := by
  rw [weight, Finmap.entries_insert_of_notMem hfresh, Multiset.map_cons, Multiset.sum_cons, weight]

theorem insert_erase (store : Store κ α) (key : κ) (value : α) :
    (store.erase key).insert key value = store.insert key value := by
  apply Finmap.ext_lookup
  intro other
  by_cases hother : other = key
  · subst hother
    rw [Finmap.lookup_insert, Finmap.lookup_insert]
  · rw [Finmap.lookup_insert_of_ne _ hother, Finmap.lookup_insert_of_ne _ hother,
      Finmap.lookup_erase_ne hother]

theorem insert_lookup (hvalue : store.lookup key = some value) :
    store.insert key value = store := by
  apply Finmap.ext_lookup
  intro other
  by_cases hother : other = key
  · subst hother
    rw [Finmap.lookup_insert, hvalue]
  · rw [Finmap.lookup_insert_of_ne _ hother]

/-- What the key holds is part of the weight. -/
theorem weight_erase_add (store : Store κ α) (key : κ) :
    weight size (store.erase key) + weightAt size store key = weight size store := by
  cases hvalue : store.lookup key with
  | none =>
      have herase : store.erase key = store := by
        apply Finmap.ext_lookup
        intro other
        by_cases hother : other = key
        · subst hother
          rw [Finmap.lookup_erase, hvalue]
        · rw [Finmap.lookup_erase_ne hother]
      rw [herase, weightAt, hvalue]
      rfl
  | some value =>
      have hfresh : key ∉ store.erase key := Finmap.notMem_erase_self
      have hinsert : weight size ((store.erase key).insert key value) =
          size value + weight size (store.erase key) := weight_insert_of_notMem hfresh
      rw [insert_erase, insert_lookup hvalue] at hinsert
      rw [hinsert, weightAt, hvalue, Nat.add_comm]
      rfl

theorem weightAt_le_weight (store : Store κ α) (key : κ) :
    weightAt size store key ≤ weight size store := by
  rw [← weight_erase_add store key]
  exact Nat.le_add_left _ _

/-- An insertion puts one value in the place of another. -/
theorem weight_insert (store : Store κ α) (key : κ) (value : α) :
    weight size (store.insert key value) =
      weight size store - weightAt size store key + size value := by
  have herase : weight size (store.erase key) + weightAt size store key = weight size store :=
    weight_erase_add store key
  rw [← insert_erase, weight_insert_of_notMem Finmap.notMem_erase_self]
  omega

theorem weight_erase_le (store : Store κ α) (key : κ) :
    weight size (store.erase key) ≤ weight size store := by
  rw [← weight_erase_add store key]
  exact Nat.le_add_right _ _

/-! ## Numbers of keys -/

theorem keys_insert (store : Store κ α) (key : κ) (value : α) :
    (store.insert key value).keys = insert key store.keys := by
  ext other
  rw [Finmap.mem_keys, Finmap.mem_insert, Finset.mem_insert, Finmap.mem_keys]

theorem card_keys_insert_of_mem (hmem : key ∈ store) :
    (store.insert key value).keys.card = store.keys.card := by
  rw [keys_insert, Finset.insert_eq_of_mem (Finmap.mem_keys.mpr hmem)]

theorem card_keys_insert_of_notMem (hfresh : key ∉ store) :
    (store.insert key value).keys.card = store.keys.card + 1 := by
  rw [keys_insert, Finset.card_insert_of_notMem fun hmem => hfresh (Finmap.mem_keys.mp hmem)]

theorem card_keys_erase_le (store : Store κ α) (key : κ) :
    (store.erase key).keys.card ≤ store.keys.card := by
  rw [Finmap.keys_erase]
  exact Finset.card_erase_le

end HellohqRuntime.Foundation.KeyValue

import Mathlib.Logic.Function.Basic
import Mathlib.Data.List.Basic

/-!
# Multimaps in flat lists

A multimap kept as one list of pairs, in which names that have the same key are the
same name.  What the list holds under each key is a function from keys to lists of
values; filtering a key out and adding pairs at the end are updates of it.
-/

namespace HellohqRuntime.Foundation.FlatMultimap

variable {ν κ β : Type*} [DecidableEq κ] (key : ν → κ)

/-- The values under a key, in the order of the list. -/
def valuesOf (entries : List (ν × β)) (wanted : κ) : List β :=
  (entries.filter fun entry => key entry.1 = wanted).map Prod.snd

/-- The pairs under every other key. -/
def without (entries : List (ν × β)) (gone : κ) : List (ν × β) :=
  entries.filter fun entry => key entry.1 ≠ gone

/-- The pairs whose key is none of some. -/
def outside (keys : List κ) (entries : List (ν × β)) : List (ν × β) :=
  entries.filter fun entry => key entry.1 ∉ keys

variable {key} {entries : List (ν × β)} {keys : List κ} {gone : κ} {name : ν}

theorem valuesOf_append (entries more : List (ν × β)) (wanted : κ) :
    valuesOf key (entries ++ more) wanted =
      valuesOf key entries wanted ++ valuesOf key more wanted := by
  simp [valuesOf]

/-- A key has values exactly if some pair has the key. -/
theorem valuesOf_ne_nil {wanted : κ} :
    valuesOf key entries wanted ≠ [] ↔ ∃ entry ∈ entries, key entry.1 = wanted := by
  rw [valuesOf, Ne, List.map_eq_nil_iff, List.filter_eq_nil_iff]
  simp

theorem valuesOf_without (entries : List (ν × β)) (gone : κ) :
    valuesOf key (without key entries gone) = Function.update (valuesOf key entries) gone [] := by
  funext wanted
  rw [valuesOf, without, List.filter_filter]
  by_cases hgone : wanted = gone
  · subst hgone
    rw [Function.update_self, List.map_eq_nil_iff, List.filter_eq_nil_iff]
    intro entry _
    simp
  · rw [Function.update_of_ne hgone, valuesOf]
    congr 1
    apply List.filter_congr
    intro entry _
    by_cases hkey : key entry.1 = wanted
    · simp [hkey, hgone]
    · simp [hkey]

/-- Pairs that all have one name. -/
theorem valuesOf_named (name : ν) (values : List β) (wanted : κ) :
    valuesOf key (values.map fun value => (name, value)) wanted =
      if wanted = key name then values else [] := by
  split
  · next hwanted =>
      subst hwanted
      rw [valuesOf, List.filter_eq_self.mpr (by simp), List.map_map]
      exact List.map_id values
  · next hwanted =>
      rw [valuesOf, List.map_eq_nil_iff, List.filter_eq_nil_iff]
      intro entry hentry
      obtain ⟨value, -, rfl⟩ := List.mem_map.mp hentry
      simpa using Ne.symm hwanted

/-- Values that replace those of a name. -/
theorem valuesOf_replace (entries : List (ν × β)) (name : ν) (values : List β) :
    valuesOf key (without key entries (key name) ++ values.map fun value => (name, value)) =
      Function.update (valuesOf key entries) (key name) values := by
  funext wanted
  rw [valuesOf_append, valuesOf_without, valuesOf_named]
  by_cases hwanted : wanted = key name
  · subst hwanted
    simp
  · simp [hwanted]

/-- A value at the end. -/
theorem valuesOf_push (entries : List (ν × β)) (name : ν) (value : β) :
    valuesOf key (entries ++ [(name, value)]) =
      Function.update (valuesOf key entries) (key name)
        (valuesOf key entries (key name) ++ [value]) := by
  funext wanted
  have hnamed : valuesOf key [(name, value)] wanted = if wanted = key name then [value] else [] :=
    valuesOf_named name [value] wanted
  rw [valuesOf_append, hnamed]
  by_cases hwanted : wanted = key name
  · subst hwanted
    simp
  · simp [hwanted]

/-- Pairs that are kept by their name. -/
theorem valuesOf_filter (keeps : ν → Bool) (entries : List (ν × β)) (wanted : ν) [DecidableEq ν] :
    valuesOf id (entries.filter fun entry => keeps entry.1) wanted =
      if keeps wanted then valuesOf id entries wanted else [] := by
  rw [valuesOf, List.filter_filter]
  split
  · next hkeeps =>
      rw [valuesOf]
      congr 1
      apply List.filter_congr
      intro entry _
      by_cases hname : entry.1 = wanted
      · simp [hname, hkeeps]
      · simp [hname]
  · next hkeeps =>
      rw [List.map_eq_nil_iff, List.filter_eq_nil_iff]
      intro entry _
      by_cases hname : entry.1 = wanted
      · simp [hname, hkeeps]
      · simp [hname]

/-- A pair occurs as often as its value does under its name. -/
theorem count_valuesOf [DecidableEq ν] [DecidableEq β] (entries : List (ν × β)) (pair : ν × β) :
    entries.count pair = (valuesOf id entries pair.1).count pair.2 := by
  induction entries with
  | nil => rfl
  | cons entry rest ih =>
      rw [List.count_cons, ih]
      by_cases hname : entry.1 = pair.1
      · have hvalues : valuesOf id (entry :: rest) pair.1 = entry.2 :: valuesOf id rest pair.1 := by
          simp [valuesOf, hname]
        rw [hvalues, List.count_cons]
        simp [Prod.ext_iff, hname]
      · have hvalues : valuesOf id (entry :: rest) pair.1 = valuesOf id rest pair.1 := by
          simp [valuesOf, hname]
        rw [hvalues]
        simp [Prod.ext_iff, hname]

/-- Two lists with the same values in the same order under each name are the same but
for the order of the names. -/
theorem perm_of_valuesOf [DecidableEq ν] {left right : List (ν × β)}
    (hvalues : ∀ name, valuesOf id left name = valuesOf id right name) : left.Perm right := by
  classical
  rw [List.perm_iff_count]
  intro pair
  rw [count_valuesOf, count_valuesOf, hvalues]

/-! ## What is not named -/

theorem outside_append (entries more : List (ν × β)) :
    outside key keys (entries ++ more) = outside key keys entries ++ outside key keys more := by
  simp [outside]

theorem outside_without (hgone : gone ∈ keys) :
    outside key keys (without key entries gone) = outside key keys entries := by
  rw [outside, without, List.filter_filter, outside]
  apply List.filter_congr
  intro entry _
  by_cases hkey : key entry.1 = gone
  · simp [hkey, hgone]
  · simp [hkey]

theorem outside_named (hname : key name ∈ keys) (values : List β) :
    outside key keys (values.map fun value => (name, value)) = [] := by
  rw [outside, List.filter_eq_nil_iff]
  intro entry hentry
  obtain ⟨value, -, rfl⟩ := List.mem_map.mp hentry
  simpa using hname

end HellohqRuntime.Foundation.FlatMultimap

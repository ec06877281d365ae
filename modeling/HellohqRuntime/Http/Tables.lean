import HellohqRuntime.Http.Types
import Mathlib.Data.List.AList

/-!
# Resource tables

A table maps the reps the host has handed out to the backing data, with an id
counter that only moves forward.  The counter is a `u32` and wraps.
-/

namespace HellohqRuntime.Http.Tables

open HellohqRuntime.Http.Types

structure Table (α : Type) where
  items : AList (fun _ : Rep => α) := ∅
  /-- The next rep; 0 is the sentinel of an unset rep. -/
  next : Rep := 1

namespace Table

variable {α : Type}

/-- Insert a value; the result is the freshly allocated rep. -/
def insert (table : Table α) (value : α) : Rep × Table α :=
  (table.next, { items := table.items.insert table.next value, next := table.next + 1 })

def get (table : Table α) (rep : Rep) : Option α := table.items.lookup rep

/-- Write through `get_mut`: nothing happens where the rep is absent. -/
def modify (table : Table α) (rep : Rep) (change : α → α) : Table α :=
  match table.get rep with
  | none => table
  | some value => { table with items := table.items.insert rep (change value) }

def remove (table : Table α) (rep : Rep) : Table α :=
  { table with items := table.items.erase rep }

@[simp] theorem get_empty (rep : Rep) : ({} : Table α).get rep = none := rfl

@[simp] theorem insert_fst (table : Table α) (value : α) : (table.insert value).1 = table.next := rfl

@[simp] theorem insert_next (table : Table α) (value : α) :
    (table.insert value).2.next = table.next + 1 := rfl

@[simp] theorem get_insert_self (table : Table α) (value : α) :
    (table.insert value).2.get table.next = some value :=
  AList.lookup_insert table.items

theorem get_insert_ne {table : Table α} {value : α} {rep : Rep} (hne : rep ≠ table.next) :
    (table.insert value).2.get rep = table.get rep :=
  AList.lookup_insert_ne hne

@[simp] theorem get_modify_self (table : Table α) (rep : Rep) (change : α → α) :
    (table.modify rep change).get rep = (table.get rep).map change := by
  rw [modify]
  cases hget : table.get rep with
  | none => simpa using hget
  | some value => exact AList.lookup_insert table.items

theorem get_modify_ne {table : Table α} {rep other : Rep} {change : α → α} (hne : other ≠ rep) :
    (table.modify rep change).get other = table.get other := by
  rw [modify]
  cases table.get rep with
  | none => rfl
  | some value => exact AList.lookup_insert_ne hne

@[simp] theorem modify_next (table : Table α) (rep : Rep) (change : α → α) :
    (table.modify rep change).next = table.next := by
  rw [modify]
  cases table.get rep <;> rfl

@[simp] theorem get_remove_self (table : Table α) (rep : Rep) : (table.remove rep).get rep = none :=
  AList.lookup_erase rep table.items

theorem get_remove_ne {table : Table α} {rep other : Rep} (hne : other ≠ rep) :
    (table.remove rep).get other = table.get other :=
  AList.lookup_erase_ne hne

@[simp] theorem remove_next (table : Table α) (rep : Rep) : (table.remove rep).next = table.next :=
  rfl

/-! ## What an entry was before -/

section Before

variable {table : Table α} {rep other : Rep} {value found : α} {change : α → α}

/-- An entry after an insert is the new one, or was there. -/
theorem eq_or_get_of_get_insert (hget : (table.insert value).2.get rep = some found) :
    rep = table.next ∧ found = value ∨ table.get rep = some found := by
  by_cases hne : rep = table.next
  · rw [hne, get_insert_self] at hget
    exact Or.inl ⟨hne, (Option.some.inj hget).symm⟩
  · rw [get_insert_ne hne] at hget
    exact Or.inr hget

/-- An entry after a change was there, and is as it was or changed. -/
theorem exists_get_of_get_modify (hget : (table.modify rep change).get other = some found) :
    ∃ before, table.get other = some before ∧ (found = before ∨ found = change before) := by
  by_cases hne : other = rep
  · rw [hne, get_modify_self, Option.map_eq_some_iff] at hget
    obtain ⟨before, hbefore, rfl⟩ := hget
    exact ⟨before, hne ▸ hbefore, Or.inr rfl⟩
  · rw [get_modify_ne hne] at hget
    exact ⟨found, hget, Or.inl rfl⟩

/-- An entry after a remove was there. -/
theorem get_of_get_remove (hget : (table.remove rep).get other = some found) :
    table.get other = some found := by
  by_cases hne : other = rep
  · rw [hne, get_remove_self] at hget
    cases hget
  · rwa [get_remove_ne hne] at hget

end Before

/-! ## Properties of some entry -/

/-- Some entry of the table has the property. -/
def Holds (table : Table α) (property : α → Prop) : Prop :=
  ∃ rep value, table.get rep = some value ∧ property value

instance (table : Table α) (property : α → Prop) [DecidablePred property] :
    Decidable (table.Holds property) :=
  decidable_of_iff (∃ entry ∈ table.items.entries, property entry.2) (by
    constructor
    · rintro ⟨⟨rep, value⟩, hmem, hproperty⟩
      exact ⟨rep, value, AList.mem_lookup_iff.mpr hmem, hproperty⟩
    · rintro ⟨rep, value, hget, hproperty⟩
      exact ⟨⟨rep, value⟩, AList.mem_lookup_iff.mp hget, hproperty⟩)

variable {table : Table α} {property : α → Prop}

theorem Holds.of_insert {value : α} (hholds : (table.insert value).2.Holds property) :
    table.Holds property ∨ property value := by
  obtain ⟨rep, found, hget, hproperty⟩ := hholds
  obtain ⟨-, rfl⟩ | hbefore := eq_or_get_of_get_insert hget
  · exact Or.inr hproperty
  · exact Or.inl ⟨rep, found, hbefore, hproperty⟩

/-- A change that gives no entry the property. -/
theorem Holds.of_modify {rep : Rep} {change : α → α}
    (hchange : ∀ value, property (change value) → property value)
    (hholds : (table.modify rep change).Holds property) : table.Holds property := by
  obtain ⟨other, found, hget, hproperty⟩ := hholds
  obtain ⟨before, hbefore, rfl | rfl⟩ := exists_get_of_get_modify hget
  · exact ⟨other, found, hbefore, hproperty⟩
  · exact ⟨other, before, hbefore, hchange before hproperty⟩

theorem Holds.of_remove {rep : Rep} (hholds : (table.remove rep).Holds property) :
    table.Holds property := by
  obtain ⟨other, found, hget, hproperty⟩ := hholds
  exact ⟨other, found, get_of_get_remove hget, hproperty⟩

/-! ## Steps of a table -/

/-- What one host function does to a table. -/
inductive Step (inserted : α → Prop) (keeps : α → α → Prop) (removed : Rep → Prop)
    (table : Table α) : Table α → Prop where
  | same {after : Table α} (hafter : after = table) : Step inserted keeps removed table after
  | insert (value : α) {after : Table α} (hinserted : inserted value)
      (hafter : after = (table.insert value).2) : Step inserted keeps removed table after
  | modify (rep : Rep) (change : α → α) {after : Table α}
      (hkeeps : ∀ value, keeps value (change value))
      (hafter : after = table.modify rep change) : Step inserted keeps removed table after
  | remove (rep : Rep) {after : Table α} (hremoved : removed rep)
      (hafter : after = table.remove rep) : Step inserted keeps removed table after

variable {inserted : α → Prop} {keeps : α → α → Prop} {removed : Rep → Prop} {after : Table α}

/-- A step that inserts nothing is a step for every rule about what is inserted. -/
theorem Step.of_quiet (hstep : Step (fun _ => False) keeps removed table after) :
    Step inserted keeps removed table after := by
  cases hstep with
  | same hafter => exact .same hafter
  | insert value himpossible hafter => exact himpossible.elim
  | modify rep change hchange hafter => exact .modify rep change hchange hafter
  | remove rep hremoved hafter => exact .remove rep hremoved hafter

/-- An entry has a property only if an inserted one has it, or it had it before. -/
theorem Holds.of_step (hstep : Step inserted keeps removed table after)
    (hkeeps : ∀ value changed, keeps value changed → property changed → property value)
    (hholds : after.Holds property) :
    table.Holds property ∨ ∃ value, inserted value ∧ property value := by
  cases hstep with
  | same hafter => exact Or.inl (hafter ▸ hholds)
  | insert value hinserted hafter =>
      subst hafter
      exact hholds.of_insert.imp_right fun hproperty => ⟨value, hinserted, hproperty⟩
  | modify rep change hchange hafter =>
      subst hafter
      exact Or.inl (hholds.of_modify fun value => hkeeps value _ (hchange value))
  | remove rep hremoved hafter =>
      subst hafter
      exact Or.inl hholds.of_remove

/-- A step that inserts nothing gives no entry a property that changes keep. -/
theorem Holds.of_quiet (hstep : Step (fun _ => False) keeps removed table after)
    (hkeeps : ∀ value changed, keeps value changed → property changed → property value)
    (hholds : after.Holds property) : table.Holds property :=
  (hholds.of_step hstep hkeeps).resolve_right fun ⟨_, himpossible, _⟩ => himpossible

/-- What a step keeps of an entry that is neither removed nor overwritten. -/
theorem Step.get_eq {β : Type} {field : α → β} (hstep : Step inserted keeps removed table after)
    (hkeeps : ∀ value changed, keeps value changed → field changed = field value)
    {rep : Rep} {value : α} (hget : table.get rep = some value)
    (hpresent : ¬removed rep)
    (hfresh : (∃ value, inserted value) → table.get table.next = none) :
    (after.get rep).map field = some (field value) := by
  cases hstep with
  | same hafter => rw [hafter, hget, Option.map_some]
  | insert added hinserted hafter =>
      have hne : rep ≠ table.next := by
        rintro rfl
        rw [hfresh ⟨added, hinserted⟩] at hget
        cases hget
      rw [hafter, get_insert_ne hne, hget, Option.map_some]
  | modify changed change hchange hafter =>
      subst hafter
      by_cases hne : rep = changed
      · subst hne
        rw [get_modify_self, hget, Option.map_some, Option.map_some, hkeeps _ _ (hchange value)]
      · rw [get_modify_ne hne, hget, Option.map_some]
  | remove gone hremoved hafter =>
      have hne : rep ≠ gone := by
        rintro rfl
        exact hpresent hremoved
      rw [hafter, get_remove_ne hne, hget, Option.map_some]

end Table

end HellohqRuntime.Http.Tables

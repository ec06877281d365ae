import HellohqRuntime.Foundation.Runs
import HellohqRuntime.Http.Tables
import Mathlib.Algebra.Group.Nat.Defs

/-!
# Tables whose entries can be frozen

A resource table in which no entry that is flagged is written.  While the id
counter has not wrapped, every rep is handed out once: a frozen entry is the same
until it is removed, a removed one does not come back, and an operation changes
no entry but the one it names.
-/

namespace HellohqRuntime.Http.Tables.Table

open HellohqRuntime.Foundation.Runs
open HellohqRuntime.Http.Types

variable {α : Type} {frozen : α → Bool} {table after : Table α} {target : Option Rep}
  {count inserted : Nat} {rep : Rep} {value : α}

/-- What an operation may do: it names the entry it writes or removes, and says how
many it inserts.  An entry that is frozen comes out of a write as it was. -/
inductive Guarded (frozen : α → Bool) (table : Table α) : Option Rep → Nat → Table α → Prop where
  | same (target : Option Rep) : Guarded frozen table target 0 table
  | insert (value : α) : Guarded frozen table none 1 (table.insert value).2
  | modify (rep : Rep) (change : α → α)
      (hguard : ∀ value, table.get rep = some value → frozen value = true → change value = value) :
      Guarded frozen table (some rep) 0 (table.modify rep change)
  | remove (rep : Rep) : Guarded frozen table (some rep) 0 (table.remove rep)

/-- The table has handed out the reps from 1 to the count, and nothing else is in it. -/
structure Allocated (table : Table α) (count : Nat) : Prop where
  next : table.next.toNat = count + 1
  present : ∀ rep value, table.get rep = some value → 0 < rep.toNat ∧ rep.toNat ≤ count

theorem allocated_empty : Allocated ({} : Table α) 0 where
  next := rfl
  present rep value hget := by simp at hget

/-- The rep that is handed out next names no entry. -/
theorem Allocated.fresh (hallocated : Allocated table count) : table.get table.next = none := by
  cases hget : table.get table.next with
  | none => rfl
  | some value =>
      have hpresent := (hallocated.present _ value hget).2
      rw [hallocated.next] at hpresent
      omega

theorem Allocated.ne_next (hallocated : Allocated table count) (hget : table.get rep = some value) :
    rep ≠ table.next := by
  rintro rfl
  rw [hallocated.fresh] at hget
  cases hget

/-- An entry stays where it is when another one is inserted. -/
theorem Allocated.get_insert (hallocated : Allocated table count)
    (hget : table.get rep = some value) (added : α) :
    (table.insert added).2.get rep = some value := by
  rw [get_insert_ne (hallocated.ne_next hget), hget]

/-- A rep that was handed out is not the next one. -/
theorem Allocated.ne_next_of_le (hallocated : Allocated table count) (hle : rep.toNat ≤ count) :
    rep ≠ table.next := by
  rintro rfl
  rw [hallocated.next] at hle
  omega

/-- An operation keeps the count of what was handed out, short of the wrap. -/
theorem Guarded.allocated (hguarded : Guarded frozen table target inserted after)
    (hallocated : Allocated table count) (hroom : count + inserted < 2 ^ 32 - 1) :
    Allocated after (count + inserted) := by
  cases hguarded with
  | same => exact hallocated
  | insert value =>
      constructor
      · rw [insert_next, UInt32.toNat_add, hallocated.next, UInt32.toNat_one]
        omega
      · intro rep found hget
        obtain ⟨rfl, -⟩ | hbefore := eq_or_get_of_get_insert hget
        · rw [hallocated.next]
          omega
        · have hpresent := hallocated.present rep found hbefore
          omega
  | modify rep change =>
      refine ⟨by rw [modify_next]; exact hallocated.next, ?_⟩
      intro other found hget
      obtain ⟨before, hbefore, -⟩ := exists_get_of_get_modify hget
      exact hallocated.present other before hbefore
  | remove rep =>
      refine ⟨hallocated.next, ?_⟩
      intro other found hget
      exact hallocated.present other found (get_of_get_remove hget)

/-- A rep that was handed out and names no entry goes on naming none. -/
theorem Guarded.get_none (hguarded : Guarded frozen table target inserted after)
    (hallocated : Allocated table count) (hle : rep.toNat ≤ count) (hget : table.get rep = none) :
    after.get rep = none := by
  cases hguarded with
  | same => exact hget
  | insert value => rwa [get_insert_ne (hallocated.ne_next_of_le hle)]
  | modify changed change =>
      by_cases hne : rep = changed
      · rw [← hne, get_modify_self, hget, Option.map_none]
      · rwa [get_modify_ne hne]
  | remove gone =>
      by_cases hne : rep = gone
      · rw [← hne, get_remove_self]
      · rwa [get_remove_ne hne]

/-- An entry the operation does not name stays as it is. -/
theorem Guarded.get_eq (hguarded : Guarded frozen table target inserted after)
    (hallocated : Allocated table count) (hget : table.get rep = some value)
    (hspared : target ≠ some rep) : after.get rep = some value := by
  cases hguarded with
  | same => exact hget
  | insert added => exact hallocated.get_insert hget added
  | modify changed change =>
      rwa [get_modify_ne]
      rintro rfl
      exact hspared rfl
  | remove gone =>
      rwa [get_remove_ne]
      rintro rfl
      exact hspared rfl

/-- A frozen entry stays as it is, or is removed. -/
theorem Guarded.get_frozen (hguarded : Guarded frozen table target inserted after)
    (hallocated : Allocated table count) (hget : table.get rep = some value)
    (hfrozen : frozen value = true) : after.get rep = some value ∨ after.get rep = none := by
  by_cases hspared : target = some rep
  · cases hguarded with
    | same => exact .inl hget
    | insert added => cases hspared
    | modify changed change hguard =>
        obtain rfl := Option.some.inj hspared
        left
        rw [get_modify_self, hget, Option.map_some, hguard value hget hfrozen]
    | remove gone =>
        obtain rfl := Option.some.inj hspared
        exact .inr (get_remove_self _ _)
  · exact .inl (hguarded.get_eq hallocated hget hspared)

/-! ## Runs of a system that holds such a table -/

section Runs

variable {State Op : Type} {step : State → Op → Option State} {view : State → Table α}
  {names : State → Op → Option Rep} {inserts : Op → Nat}

/-- Every operation of the system is guarded on the table it is viewed through. -/
def GuardedBy (frozen : α → Bool) (step : State → Op → Option State) (view : State → Table α)
    (names : State → Op → Option Rep) (inserts : Op → Nat) : Prop :=
  ∀ state op next, step state op = some next →
    Guarded frozen (view state) (names state op) (inserts op) (view next)

/-- How many entries the operations insert. -/
def insertsOf (inserts : Op → Nat) : List Op → Nat
  | [] => 0
  | op :: later => inserts op + insertsOf inserts later

@[simp] theorem insertsOf_nil : insertsOf inserts [] = 0 := rfl

@[simp] theorem insertsOf_append (past later : List Op) :
    insertsOf inserts (past ++ later) = insertsOf inserts past + insertsOf inserts later := by
  induction past with
  | nil => simp
  | cons op past ih => rw [List.cons_append, insertsOf, insertsOf, ih, Nat.add_assoc]

@[simp] theorem insertsOf_singleton (op : Op) : insertsOf inserts [op] = inserts op := by
  simp [insertsOf]

variable {state final : State} {past later : List Op}

/-- The count along a run. -/
theorem allocated_run (hguarded : GuardedBy frozen step view names inserts)
    (hallocated : Allocated (view state) (insertsOf inserts past))
    (hroom : insertsOf inserts (past ++ later) < 2 ^ 32 - 1)
    (hrun : run step state later = some final) :
    Allocated (view final) (insertsOf inserts (past ++ later)) := by
  have hstep : ∀ before state op next,
      (insertsOf inserts before < 2 ^ 32 - 1 →
        Allocated (view state) (insertsOf inserts before)) →
      step state op = some next → insertsOf inserts (before ++ [op]) < 2 ^ 32 - 1 →
      Allocated (view next) (insertsOf inserts (before ++ [op])) := by
    intro before state op next hbefore hnext hless
    rw [insertsOf_append, insertsOf_singleton] at hless ⊢
    exact (hguarded state op next hnext).allocated (hbefore (by omega)) hless
  exact run_history hstep (fun _ => hallocated) hrun hroom

/-- The entry of a rep is one value for good, or the rep names no entry for good. -/
def StaysOrGoes (rep : Rep) (value : α) (table : Table α) (count : Nat) : Prop :=
  Allocated table count ∧ rep.toNat ≤ count ∧
    (table.get rep = some value ∨ table.get rep = none)

/-- A frozen entry along a run. -/
theorem get_frozen_run (hguarded : GuardedBy frozen step view names inserts)
    (hallocated : Allocated (view state) (insertsOf inserts past))
    (hroom : insertsOf inserts (past ++ later) < 2 ^ 32 - 1)
    (hrun : run step state later = some final) (hget : (view state).get rep = some value)
    (hfrozen : frozen value = true) :
    (view final).get rep = some value ∨ (view final).get rep = none := by
  have hstep : ∀ before state op next,
      (insertsOf inserts before < 2 ^ 32 - 1 →
        StaysOrGoes rep value (view state) (insertsOf inserts before)) →
      step state op = some next → insertsOf inserts (before ++ [op]) < 2 ^ 32 - 1 →
      StaysOrGoes rep value (view next) (insertsOf inserts (before ++ [op])) := by
    intro before state op next hbefore hnext hless
    rw [insertsOf_append, insertsOf_singleton] at hless ⊢
    obtain ⟨hcount, hle, hvalue⟩ := hbefore (by omega)
    have hop := hguarded state op next hnext
    refine ⟨hop.allocated hcount hless, by omega, ?_⟩
    obtain hvalue | hnone := hvalue
    · exact hop.get_frozen hcount hvalue hfrozen
    · exact .inr (hop.get_none hcount hle hnone)
  have hstart : StaysOrGoes rep value (view state) (insertsOf inserts past) :=
    ⟨hallocated, (hallocated.present rep value hget).2, .inl hget⟩
  exact (run_history hstep (fun _ => hstart) hrun hroom).2.2

/-- An entry along a run none of whose operations names it. -/
theorem get_spared_run (hguarded : GuardedBy frozen step view names inserts)
    (hallocated : Allocated (view state) (insertsOf inserts past))
    (hroom : insertsOf inserts (past ++ later) < 2 ^ 32 - 1)
    (hrun : run step state later = some final) (hget : (view state).get rep = some value)
    (hspared : EachStep step (fun state op => names state op ≠ some rep) state later) :
    (view final).get rep = some value := by
  have hstep : ∀ before state op next,
      (insertsOf inserts before < 2 ^ 32 - 1 →
        Allocated (view state) (insertsOf inserts before) ∧ (view state).get rep = some value) →
      names state op ≠ some rep →
      step state op = some next → insertsOf inserts (before ++ [op]) < 2 ^ 32 - 1 →
      Allocated (view next) (insertsOf inserts (before ++ [op])) ∧
        (view next).get rep = some value := by
    intro before state op next hbefore hother hnext hless
    rw [insertsOf_append, insertsOf_singleton] at hless ⊢
    obtain ⟨hcount, hvalue⟩ := hbefore (by omega)
    have hop := hguarded state op next hnext
    exact ⟨hop.allocated hcount hless, hop.get_eq hcount hvalue hother⟩
  exact (run_history_of_eachStep hstep (fun _ => ⟨hallocated, hget⟩) hspared hrun hroom).2

end Runs

end HellohqRuntime.Http.Tables.Table

import HellohqRuntime.Http.GuardedTables

/-!
# The ids a table hands out

A run of inserts and removes on a resource table, from the empty one.  The counter of
the ids wraps at 2^32 and nothing checks that the next id is free, so an insert is sure
of an id of its own as long as fewer than 2^32 entries were inserted, and no longer.
-/

namespace HellohqRuntime.Http.TableIds

open HellohqRuntime.Foundation.Runs
open HellohqRuntime.Http.Types
open HellohqRuntime.Http.Tables
open HellohqRuntime.Http.Tables.Table

variable {α : Type} {table : Table α} {count : Nat}

inductive Op (α : Type) where
  | insert (value : α)
  | remove (rep : Rep)

/-- How many entries an operation inserts. -/
def Op.inserts : Op α → Nat
  | .insert _ => 1
  | .remove _ => 0

def step (table : Table α) : Op α → Option (Table α)
  | .insert value => some (table.insert value).2
  | .remove rep => some (table.remove rep)

/-- The rep of an insert is not the sentinel and names nothing yet, and every entry that
is in the table stays what it was. -/
structure Fresh (table : Table α) (value : α) : Prop where
  set : (table.insert value).1 ≠ 0
  unused : table.get (table.insert value).1 = none
  kept : ∀ rep old, table.get rep = some old → (table.insert value).2.get rep = some old

/-- An operation that inserts does so under a fresh rep. -/
def Allocates (table : Table α) : Op α → Prop
  | .insert value => Fresh table value
  | .remove _ => True

theorem fresh_iff (value : α) :
    Fresh table value ↔ table.next ≠ 0 ∧ table.get table.next = none := by
  constructor
  · intro hfresh
    exact ⟨hfresh.set, hfresh.unused⟩
  · rintro ⟨hset, hunused⟩
    refine ⟨hset, hunused, ?_⟩
    intro rep old hget
    rw [get_insert_ne, hget]
    rintro rfl
    rw [hunused] at hget
    cases hget

/-! ## The count of the inserts -/

/-- The counter after some inserts, which may be all that there are ids for, and
nothing above it in the table. -/
structure Counted (table : Table α) (count : Nat) : Prop where
  next : table.next.toNat = (count + 1) % 2 ^ 32
  present : ∀ rep value, table.get rep = some value → rep.toNat ≤ count

theorem counted_empty : Counted ({} : Table α) 0 where
  next := rfl
  present rep value hget := by simp at hget

theorem Counted.remove (hcounted : Counted table count) (rep : Rep) :
    Counted (table.remove rep) count := by
  refine ⟨hcounted.next, ?_⟩
  intro other value hget
  exact hcounted.present other value (get_of_get_remove hget)

theorem Counted.insert (hcounted : Counted table count) (hroom : count + 1 < 2 ^ 32) (value : α) :
    Counted (table.insert value).2 (count + 1) := by
  have hnext := hcounted.next
  rw [Nat.mod_eq_of_lt hroom] at hnext
  constructor
  · rw [insert_next, UInt32.toNat_add, hnext, UInt32.toNat_one]
  · intro rep found hget
    obtain ⟨rfl, -⟩ | hbefore := eq_or_get_of_get_insert hget
    · rw [hnext]
    · exact Nat.le_succ_of_le (hcounted.present rep found hbefore)

/-- An insert is fresh until the counter comes back to the sentinel. -/
theorem Counted.fresh_iff (hcounted : Counted table count) (hcount : count < 2 ^ 32) (value : α) :
    Fresh table value ↔ count + 1 < 2 ^ 32 := by
  rw [TableIds.fresh_iff]
  have hnext := hcounted.next
  constructor
  · rintro ⟨hset, -⟩
    by_contra hfull
    apply hset
    apply UInt32.toNat_inj.mp
    obtain rfl : count = 2 ^ 32 - 1 := by omega
    exact hnext
  · intro hroom
    rw [Nat.mod_eq_of_lt hroom] at hnext
    constructor
    · intro hzero
      rw [hzero] at hnext
      exact absurd hnext.symm (Nat.succ_ne_zero count)
    · cases hget : table.get table.next with
      | none => rfl
      | some found =>
          have hpresent := hcounted.present _ found hget
          omega

/-- The rest of a run from a table with its count. -/
theorem Counted.eachStep_iff (hcounted : Counted table count) (hcount : count < 2 ^ 32)
    (ops : List (Op α)) :
    EachStep step Allocates table ops ↔ count + insertsOf Op.inserts ops < 2 ^ 32 := by
  induction ops generalizing table count with
  | nil => exact iff_of_true trivial hcount
  | cons op ops ih =>
      cases op with
      | insert value =>
          have hnext : step table (.insert value) = some (table.insert value).2 := rfl
          rw [eachStep_cons hnext, Allocates, hcounted.fresh_iff hcount, insertsOf, Op.inserts,
            ← Nat.add_assoc]
          constructor
          · rintro ⟨hroom, hrest⟩
            exact (ih (hcounted.insert hroom value) hroom).mp hrest
          · intro hroom
            have hfirst : count + 1 < 2 ^ 32 := Nat.lt_of_le_of_lt (Nat.le_add_right _ _) hroom
            exact ⟨hfirst, (ih (hcounted.insert hfirst value) hfirst).mpr hroom⟩
      | remove rep =>
          have hnext : step table (.remove rep) = some (table.remove rep) := rfl
          rw [eachStep_cons hnext, Allocates, insertsOf, Op.inserts, Nat.zero_add, true_and]
          exact ih (hcounted.remove rep) hcount

/-- Every insert of a run is fresh if and only if the run inserts fewer than 2^32 entries. -/
theorem allocates_iff (ops : List (Op α)) :
    EachStep step Allocates ({} : Table α) ops ↔ insertsOf Op.inserts ops < 2 ^ 32 := by
  rw [counted_empty.eachStep_iff (by omega), Nat.zero_add]

/-! ## The wrap -/

/-- Insert an entry and remove it, again and again. -/
def churn (value : α) : Nat → Rep → List (Op α)
  | 0, _ => []
  | rounds + 1, rep => .insert value :: .remove rep :: churn value rounds (rep + 1)

/-- The counter goes round and an entry that is not in its way stays. -/
theorem run_churn (value : α) (rounds : Nat) {rep : Rep} {kept : α}
    (hget : table.get rep = some kept)
    (haway : ∀ round < rounds, table.next + UInt32.ofNat round ≠ rep) :
    ∃ after, run step table (churn value rounds table.next) = some after ∧
      after.next = table.next + UInt32.ofNat rounds ∧ after.get rep = some kept := by
  induction rounds generalizing table with
  | zero => exact ⟨table, rfl, (UInt32.add_zero _).symm, hget⟩
  | succ rounds ih =>
      have hne : rep ≠ table.next := by
        intro heq
        exact haway 0 (Nat.succ_pos rounds) (by rw [heq]; exact UInt32.add_zero _)
      have hround : ((table.insert value).2.remove table.next).get rep = some kept := by
        rw [get_remove_ne hne, get_insert_ne hne, hget]
      have hshift : ∀ round : Nat, table.next + 1 + UInt32.ofNat round =
          table.next + UInt32.ofNat (round + 1) := by
        intro round
        rw [UInt32.ofNat_add, UInt32.add_assoc, UInt32.add_comm 1]
        rfl
      obtain ⟨after, hrun, hnext, hafter⟩ := ih hround (by
        intro round hless
        rw [remove_next, insert_next, hshift]
        exact haway (round + 1) (Nat.succ_lt_succ hless))
      refine ⟨after, ?_, ?_, hafter⟩
      · exact run_cons_eq_some.mpr ⟨_, rfl, run_cons_eq_some.mpr ⟨_, rfl, hrun⟩⟩
      · rw [hnext, remove_next, insert_next, hshift]

/-- After a resource that stays and 2^32 - 1 that come and go, the next one takes the
place of the first. -/
theorem insert_overwrites_after_wrap :
    ∃ table, run step ({} : Table Char) (.insert 'a' :: churn 'b' 4294967295 2) = some table ∧
      table.get 1 = some 'a' ∧ (table.insert 'c').1 = 1 ∧ (table.insert 'c').2.get 1 = some 'c' ∧
      ¬EachStep step Allocates ({} : Table Char)
        (.insert 'a' :: churn 'b' 4294967295 2 ++ [.insert 'c']) := by
  have hfirst : (({} : Table Char).insert 'a').2.get 1 = some 'a' := rfl
  have haway : ∀ round < 4294967295,
      (({} : Table Char).insert 'a').2.next + UInt32.ofNat round ≠ 1 := by
    intro round hless heq
    have hnat := congrArg UInt32.toNat heq
    rw [insert_next, UInt32.toNat_add, UInt32.toNat_ofNat'] at hnat
    change (2 + round % 2 ^ 32) % 2 ^ 32 = 1 at hnat
    omega
  obtain ⟨table, hrun, hnext, hget⟩ := run_churn 'b' 4294967295 hfirst haway
  have hone : table.next = 1 := by
    rw [hnext]
    rfl
  have hwhole : run step ({} : Table Char) (.insert 'a' :: churn 'b' 4294967295 2) = some table :=
    run_cons_eq_some.mpr ⟨_, rfl, hrun⟩
  have hover : (table.insert 'c').2.get 1 = some 'c' := by
    rw [← hone]
    exact get_insert_self table 'c'
  refine ⟨table, hwhole, hget, hone, hover, ?_⟩
  rw [eachStep_append hwhole]
  rintro ⟨-, hlast⟩
  have hkept := hlast.1.kept 1 'a' hget
  rw [hover] at hkept
  exact absurd hkept (by decide)

end HellohqRuntime.Http.TableIds

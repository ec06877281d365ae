import Mathlib.Data.List.Count

/-!
# Handles that share a value

Values live in a store under keys.  An owner is a handle, which may write the
value it names; a holder is a value of another store that names the key and
expects what it names to stay.  Several handles may name one key.  A view is
guarded when every key with a second interest in it is frozen.  The steps below
keep a view guarded, and in a guarded view they leave alone what is held.
-/

namespace HellohqRuntime.Foundation.Ownership

variable {Key Value Content : Type}

/-- A store, the handles to it, and the keys that are held. -/
structure View (Key Value : Type) where
  lookup : Key → Option Value
  owned : List Key
  held : Key → Prop

/-- The value under the key, if any, refuses writes. -/
def Frozen (frozen : Value → Bool) (lookup : Key → Option Value) (key : Key) : Prop :=
  ∀ value, lookup key = some value → frozen value = true

theorem frozen_congr {frozen : Value → Bool} {lookup after : Key → Option Value} {key : Key}
    (hsame : after key = lookup key) (hfrozen : Frozen frozen lookup key) :
    Frozen frozen after key := by
  intro value hvalue
  exact hfrozen value (hsame ▸ hvalue)

variable [DecidableEq Key]

/-- A key that is owned twice, or owned and held, is frozen. -/
structure Guarded (frozen : Value → Bool) (view : View Key Value) : Prop where
  shared : ∀ key ∈ view.owned, view.held key → Frozen frozen view.lookup key
  twice : ∀ key, 2 ≤ view.owned.count key → Frozen frozen view.lookup key

/-- What can happen to a view.  `content` is what a reader sees of a value, and
`released` the keys whose value may go. -/
inductive Step (frozen : Value → Bool) (content : Option Value → Content)
    (released : Key → Prop) (view : View Key Value) : View Key Value → Prop where
  /-- Keys that nobody names get a value and at most one interest; handles and
  holders of the others may go. -/
  | mint (fresh : Key → Prop) {after : View Key Value}
      (hfresh : ∀ key, fresh key → key ∉ view.owned ∧ ¬view.held key)
      (hlookup : ∀ key, ¬fresh key → after.lookup key = view.lookup key)
      (howned : ∀ key, ¬fresh key → after.owned.count key ≤ view.owned.count key)
      (hsole : ∀ key, fresh key →
        after.owned.count key ≤ 1 ∧ (after.held key → key ∉ after.owned))
      (hheld : ∀ key, after.held key → view.held key ∨ fresh key) :
      Step frozen content released view after
  /-- One more handle to a key whose value is frozen for it. -/
  | share (key : Key) {after : View Key Value}
      (hfrozen : Frozen frozen after.lookup key)
      (hcontent : content (after.lookup key) = content (view.lookup key))
      (hother : ∀ other, other ≠ key → after.lookup other = view.lookup other)
      (hafter : ∀ other, after.owned.count other ≤ (key :: view.owned).count other)
      (hheld : ∀ other, after.held other → view.held other) :
      Step frozen content released view after
  /-- A write through a handle, to a value that takes writes. -/
  | write (key : Key) {value : Value} {after : View Key Value}
      (howned : key ∈ view.owned) (hvalue : view.lookup key = some value)
      (hthawed : frozen value = false)
      (hother : ∀ other, other ≠ key → after.lookup other = view.lookup other)
      (hafter : ∀ other, after.owned.count other ≤ view.owned.count other)
      (hheld : ∀ other, after.held other → view.held other) :
      Step frozen content released view after
  /-- A handle is given up, and the value with it. -/
  | release (key : Key) {after : View Key Value} (hreleased : released key)
      (hgone : after.lookup key = none)
      (hother : ∀ other, other ≠ key → after.lookup other = view.lookup other)
      (hafter : ∀ other, after.owned.count other ≤ view.owned.count other)
      (hheld : ∀ other, after.held other → view.held other) :
      Step frozen content released view after
  /-- A handle is turned into a holder. -/
  | give (key : Key) {after : View Key Value} (howned : key ∈ view.owned)
      (hlookup : after.lookup = view.lookup)
      (hafter : ∀ other, after.owned.count other ≤ (view.owned.erase key).count other)
      (hheld : ∀ other, after.held other → view.held other ∨ other = key) :
      Step frozen content released view after

variable {frozen : Value → Bool} {content : Option Value → Content} {released : Key → Prop}
variable {view after : View Key Value}

theorem guarded_nil {lookup : Key → Option Value} {held : Key → Prop} :
    Guarded frozen { lookup, owned := [], held } where
  shared := by simp
  twice := by simp

/-- A view in which at most handles and holders went. -/
theorem Step.narrow (hlookup : after.lookup = view.lookup)
    (howned : ∀ key, after.owned.count key ≤ view.owned.count key)
    (hheld : ∀ key, after.held key → view.held key) :
    Step frozen content released view after :=
  Step.mint (fun _ => False) (fun _ himpossible => himpossible.elim)
    (fun key _ => congrFun hlookup key) (fun key _ => howned key)
    (fun _ himpossible => himpossible.elim) fun key hafter => Or.inl (hheld key hafter)

/-- One new handle to a key that nobody names. -/
theorem Step.mintOne {key : Key} (howned : key ∉ view.owned) (hunheld : ¬view.held key)
    (hlookup : ∀ other, other ≠ key → after.lookup other = view.lookup other)
    (hafter : after.owned.Perm (key :: view.owned))
    (hheld : ∀ other, after.held other → view.held other) :
    Step frozen content released view after := by
  refine Step.mint (· = key) ?_ hlookup ?_ ?_ fun other hother => Or.inl (hheld other hother)
  · rintro other rfl
    exact ⟨howned, hunheld⟩
  · intro other hne
    have hsame : after.owned.count other = view.owned.count other := by
      rw [hafter.count_eq, List.count_cons_of_ne (Ne.symm hne)]
    exact Nat.le_of_eq hsame
  · rintro other rfl
    rw [hafter.count_eq, List.count_cons_self, List.count_eq_zero_of_not_mem howned]
    exact ⟨Nat.le_refl 1, fun hother => absurd (hheld other hother) hunheld⟩

omit [DecidableEq Key] in
theorem not_frozen {lookup : Key → Option Value} {key : Key} {value : Value}
    (hvalue : lookup key = some value) (hthawed : frozen value = false) :
    ¬Frozen frozen lookup key := fun hfrozen => by
  rw [hfrozen value hvalue] at hthawed
  cases hthawed

theorem mem_of_count_le {key : Key} {left right : List Key} (hmem : key ∈ left)
    (hcount : left.count key ≤ right.count key) : key ∈ right :=
  List.count_pos_iff.mp (Nat.lt_of_lt_of_le (List.count_pos_iff.mpr hmem) hcount)

theorem Guarded.of_step (hguarded : Guarded frozen view)
    (hstep : Step frozen content released view after) : Guarded frozen after := by
  cases hstep with
  | mint fresh hfresh hlookup howned hsole hheld =>
      constructor
      · intro key hkey hholds
        by_cases hnew : fresh key
        · exact absurd hkey ((hsole key hnew).2 hholds)
        · exact frozen_congr (hlookup key hnew) (hguarded.shared key
            (mem_of_count_le hkey (howned key hnew)) ((hheld key hholds).resolve_right hnew))
      · intro key htwo
        by_cases hnew : fresh key
        · have := (hsole key hnew).1
          omega
        · exact frozen_congr (hlookup key hnew)
            (hguarded.twice key (Nat.le_trans htwo (howned key hnew)))
  | share key hfrozen hcontent hother hafter hheld =>
      constructor
      · intro other howned hholds
        by_cases hne : other = key
        · exact hne ▸ hfrozen
        · have hmem := (List.mem_cons.mp (mem_of_count_le howned (hafter other))).resolve_left hne
          exact frozen_congr (hother other hne) (hguarded.shared other hmem (hheld other hholds))
      · intro other htwo
        by_cases hne : other = key
        · exact hne ▸ hfrozen
        · have hcount := Nat.le_trans htwo (hafter other)
          rw [List.count_cons_of_ne (Ne.symm hne)] at hcount
          exact frozen_congr (hother other hne) (hguarded.twice other hcount)
  | write key howned hvalue hthawed hother hafter hheld =>
      have hthaw := not_frozen hvalue hthawed
      constructor
      · intro other hmem hholds
        have hfrozen := hguarded.shared other (mem_of_count_le hmem (hafter other))
          (hheld other hholds)
        exact frozen_congr (hother other fun heq => hthaw (heq ▸ hfrozen)) hfrozen
      · intro other htwo
        have hfrozen := hguarded.twice other (Nat.le_trans htwo (hafter other))
        exact frozen_congr (hother other fun heq => hthaw (heq ▸ hfrozen)) hfrozen
  | release key hreleased hgone hother hafter hheld =>
      have hnone : Frozen frozen after.lookup key := by
        intro value hvalue
        rw [hgone] at hvalue
        cases hvalue
      constructor
      · intro other hmem hholds
        by_cases hne : other = key
        · exact hne ▸ hnone
        · exact frozen_congr (hother other hne) (hguarded.shared other
            (mem_of_count_le hmem (hafter other)) (hheld other hholds))
      · intro other htwo
        by_cases hne : other = key
        · exact hne ▸ hnone
        · exact frozen_congr (hother other hne)
            (hguarded.twice other (Nat.le_trans htwo (hafter other)))
  | give key howned hlookup hafter hheld =>
      have herase : ∀ other, (view.owned.erase key).count other ≤ view.owned.count other :=
        fun other => List.erase_sublist.count_le other
      constructor
      · intro other hmem hholds
        have hrest := mem_of_count_le hmem (hafter other)
        rcases hheld other hholds with hheld | rfl
        · exact frozen_congr (congrFun hlookup other)
            (hguarded.shared other (mem_of_count_le hrest (herase other)) hheld)
        · have hcount := List.count_pos_iff.mpr hrest
          rw [List.count_erase_self] at hcount
          exact frozen_congr (congrFun hlookup other) (hguarded.twice other (by omega))
      · intro other htwo
        exact frozen_congr (congrFun hlookup other) (hguarded.twice other
          (Nat.le_trans htwo (Nat.le_trans (hafter other) (herase other))))

/-- What a holder sees of its value stays, unless the value is released and seen
to go. -/
theorem Guarded.content_eq (hguarded : Guarded frozen view)
    (hstep : Step frozen content released view after) {key : Key} (hheld : view.held key)
    (hspared : released key → content (view.lookup key) = content none) :
    content (after.lookup key) = content (view.lookup key) := by
  cases hstep with
  | mint fresh hfresh hlookup howned hsole hholds =>
      rw [hlookup key fun hnew => (hfresh key hnew).2 hheld]
  | share shared hfrozen hcontent hother hafter hholds =>
      by_cases hne : key = shared
      · rw [hne]
        exact hcontent
      · rw [hother key hne]
  | write written howned hvalue hthawed hother hafter hholds =>
      have hne : key ≠ written := by
        rintro rfl
        exact not_frozen hvalue hthawed (hguarded.shared key howned hheld)
      rw [hother key hne]
  | release gone hreleased hgone hother hafter hholds =>
      by_cases hne : key = gone
      · subst hne
        rw [hgone, hspared hreleased]
      · rw [hother key hne]
  | give given howned hlookup hafter hholds => rw [hlookup]

end HellohqRuntime.Foundation.Ownership

import Mathlib.Data.List.Basic

/-!
# Custody of items

Items are made one after the other and lie at places, several at one place.  Custody
says that every item made so far lies at one place and is there once.  An item that
arrives is new, and a handover takes items from one place to another; both keep custody.
-/

namespace HellohqRuntime.Foundation.Custody

variable {Place Item : Type} {held after : Place → List Item} {made moved : List Item}
  {source target : Place} {item : Item}

/-- Every item made so far lies at exactly one place, and is there once. -/
structure InCustody (held : Place → List Item) (made : List Item) : Prop where
  nodup : ∀ place, (held place).Nodup
  sole : ∀ {item left right}, item ∈ held left → item ∈ held right → left = right
  holder : ∀ item ∈ made, ∃ place, item ∈ held place
  made : ∀ {place item}, item ∈ held place → item ∈ made

/-- A new item comes to a place. -/
structure Arrival (held after : Place → List Item) (target : Place) (item : Item) : Prop where
  taken : (after target).Perm (item :: held target)
  others : ∀ place, place ≠ target → after place = held place

/-- Items go from one place to another. -/
structure Handover (held after : Place → List Item) (source target : Place) (moved : List Item) :
    Prop where
  apart : source ≠ target
  given : (held source).Perm (moved ++ after source)
  taken : (after target).Perm (moved ++ held target)
  others : ∀ place, place ≠ source → place ≠ target → after place = held place

theorem inCustody_empty : InCustody (fun _ : Place => ([] : List Item)) [] where
  nodup := fun _ => List.nodup_nil
  sole := nofun
  holder := nofun
  made := nofun

/-! ## Arrivals -/

theorem Arrival.mem_iff (harrival : Arrival held after target item) {other : Item} {place : Place} :
    other ∈ after place ↔ other = item ∧ place = target ∨ other ∈ held place := by
  by_cases hplace : place = target
  · subst hplace
    rw [harrival.taken.mem_iff, List.mem_cons, and_iff_left rfl]
  · rw [harrival.others place hplace, or_iff_right fun hboth => hplace hboth.2]

theorem InCustody.arrival (hcustody : InCustody held made) (hnew : item ∉ made)
    (harrival : Arrival held after target item) : InCustody after (made ++ [item]) where
  nodup := by
    intro place
    by_cases hplace : place = target
    · subst hplace
      rw [harrival.taken.nodup_iff, List.nodup_cons]
      exact ⟨fun hheld => hnew (hcustody.made hheld), hcustody.nodup place⟩
    · rw [harrival.others place hplace]
      exact hcustody.nodup place
  sole := by
    intro other left right hleft hright
    rw [harrival.mem_iff] at hleft hright
    rcases hleft with ⟨rfl, rfl⟩ | hleft
    · rcases hright with ⟨-, rfl⟩ | hright
      · rfl
      · exact absurd (hcustody.made hright) hnew
    · rcases hright with ⟨rfl, rfl⟩ | hright
      · exact absurd (hcustody.made hleft) hnew
      · exact hcustody.sole hleft hright
  holder := by
    intro other hother
    rcases List.mem_append.mp hother with hbefore | hlast
    · obtain ⟨place, hplace⟩ := hcustody.holder other hbefore
      exact ⟨place, harrival.mem_iff.mpr (Or.inr hplace)⟩
    · exact ⟨target, harrival.mem_iff.mpr (Or.inl ⟨List.mem_singleton.mp hlast, rfl⟩)⟩
  made := by
    intro place other hother
    rcases harrival.mem_iff.mp hother with ⟨rfl, -⟩ | hbefore
    · exact List.mem_append_right _ (List.mem_singleton_self _)
    · exact List.mem_append_left _ (hcustody.made hbefore)

/-! ## Handovers -/

theorem Handover.mem_source (hhandover : Handover held after source target moved)
    (hmoved : item ∈ moved) : item ∈ held source :=
  hhandover.given.mem_iff.mpr (List.mem_append_left _ hmoved)

/-- What moved has arrived. -/
theorem Handover.arrived (hhandover : Handover held after source target moved)
    (hmoved : item ∈ moved) : item ∈ after target :=
  hhandover.taken.mem_iff.mpr (List.mem_append_left _ hmoved)

/-- What moved lies at the target, and the rest where it lay. -/
theorem Handover.mem_iff (hhandover : Handover held after source target moved)
    (hcustody : InCustody held made) {place : Place} :
    item ∈ after place ↔ item ∈ moved ∧ place = target ∨ item ∉ moved ∧ item ∈ held place := by
  by_cases hmoved : item ∈ moved
  · simp only [hmoved, true_and, not_true_eq_false, false_and, or_false]
    constructor
    · intro hafter
      by_contra hplace
      by_cases hsource : place = source
      · subst hsource
        have hnodup := hhandover.given.nodup_iff.mp (hcustody.nodup place)
        exact (List.nodup_append.mp hnodup).2.2 item hmoved item hafter rfl
      · rw [hhandover.others place hsource hplace] at hafter
        exact hsource (hcustody.sole hafter (hhandover.mem_source hmoved))
    · rintro rfl
      exact hhandover.arrived hmoved
  · simp only [hmoved, false_and, not_false_eq_true, true_and, false_or]
    by_cases hsource : place = source
    · rw [hsource, hhandover.given.mem_iff, List.mem_append, or_iff_right hmoved]
    · by_cases hplace : place = target
      · rw [hplace, hhandover.taken.mem_iff, List.mem_append, or_iff_right hmoved]
      · rw [hhandover.others place hsource hplace]

/-- What does not move stays where it lay. -/
theorem Handover.stays (hhandover : Handover held after source target moved)
    (hcustody : InCustody held made) {place : Place} (hstays : item ∉ moved)
    (hheld : item ∈ held place) : item ∈ after place :=
  (hhandover.mem_iff hcustody).mpr (Or.inr ⟨hstays, hheld⟩)

theorem InCustody.handover (hcustody : InCustody held made)
    (hhandover : Handover held after source target moved) : InCustody after made where
  nodup := by
    have hsource := hhandover.given.nodup_iff.mp (hcustody.nodup source)
    intro place
    by_cases hplace : place = source
    · rw [hplace]
      exact (List.nodup_append.mp hsource).2.1
    · by_cases htarget : place = target
      · rw [htarget, hhandover.taken.nodup_iff, List.nodup_append]
        refine ⟨(List.nodup_append.mp hsource).1, hcustody.nodup target, ?_⟩
        rintro item hmoved other hheld rfl
        exact hhandover.apart (hcustody.sole (hhandover.mem_source hmoved) hheld)
      · rw [hhandover.others place hplace htarget]
        exact hcustody.nodup place
  sole := by
    intro item left right hleft hright
    rw [hhandover.mem_iff hcustody] at hleft hright
    rcases hleft with ⟨hmoved, rfl⟩ | ⟨hstayed, hleft⟩
    · rcases hright with ⟨-, rfl⟩ | ⟨hstayed, -⟩
      · rfl
      · exact absurd hmoved hstayed
    · rcases hright with ⟨hmoved, -⟩ | ⟨-, hright⟩
      · exact absurd hmoved hstayed
      · exact hcustody.sole hleft hright
  holder := by
    intro item hitem
    by_cases hmoved : item ∈ moved
    · exact ⟨target, (hhandover.mem_iff hcustody).mpr (Or.inl ⟨hmoved, rfl⟩)⟩
    · obtain ⟨place, hplace⟩ := hcustody.holder item hitem
      exact ⟨place, (hhandover.mem_iff hcustody).mpr (Or.inr ⟨hmoved, hplace⟩)⟩
  made := by
    intro place item hitem
    rcases (hhandover.mem_iff hcustody).mp hitem with ⟨hmoved, -⟩ | ⟨-, hheld⟩
    · exact hcustody.made (hhandover.mem_source hmoved)
    · exact hcustody.made hheld

/-! ## Handovers made -/

/-- The order at a place does not matter. -/
theorem InCustody.of_perm (hcustody : InCustody held made)
    (hperm : ∀ place, (after place).Perm (held place)) : InCustody after made where
  nodup := fun place => (hperm place).nodup_iff.mpr (hcustody.nodup place)
  sole := fun hleft hright =>
    hcustody.sole ((hperm _).mem_iff.mp hleft) ((hperm _).mem_iff.mp hright)
  holder := by
    intro item hitem
    obtain ⟨place, hplace⟩ := hcustody.holder item hitem
    exact ⟨place, (hperm place).mem_iff.mpr hplace⟩
  made := fun hitem => hcustody.made ((hperm _).mem_iff.mp hitem)

variable [DecidableEq Place] {rest : List Item}

/-- The places once some items of one of them are at another. -/
def handedOver (held : Place → List Item) (source target : Place) (moved rest : List Item) :
    Place → List Item :=
  Function.update (Function.update held source rest) target (moved ++ held target)

theorem InCustody.handedOver (hcustody : InCustody held made) (source target : Place)
    (hapart : source ≠ target) (hgiven : (held source).Perm (moved ++ rest)) :
    InCustody (Custody.handedOver held source target moved rest) made := by
  have hhandover : Handover held (Custody.handedOver held source target moved rest) source target
      moved := by
    refine ⟨hapart, ?_, ?_, ?_⟩
    · rw [Custody.handedOver, Function.update_of_ne hapart, Function.update_self]
      exact hgiven
    · rw [Custody.handedOver, Function.update_self]
    · intro place hsource htarget
      rw [Custody.handedOver, Function.update_of_ne htarget, Function.update_of_ne hsource]
  exact hcustody.handover hhandover

end HellohqRuntime.Foundation.Custody

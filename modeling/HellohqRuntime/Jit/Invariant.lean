import HellohqRuntime.Jit.Memory

/-!
# What holds of the mappings

The invariant of the loads, the queue and the engines, what it says of one load, and
what a step that changes one load leaves alone.  The ranges of live mappings are apart,
so a search by address or by base finds the mapping of the load that searches.
-/

namespace HellohqRuntime.Jit.Invariant

open HellohqRuntime.Foundation.Buckets (swapRemove swapRemove_perm)
open HellohqRuntime.Foundation.Custody
open HellohqRuntime.Jit.Memory

/-! ## Searches -/

theorem takePending_eq_some {test : Region → Bool} {pending rest : List Region} {region : Region}
    (htake : takePending test pending = some (region, rest)) :
    test region = true ∧ pending.Perm (region :: rest) := by
  rw [takePending] at htake
  cases hfind : pending.findIdx? test with
  | none =>
      rw [hfind] at htake
      cases htake
  | some i =>
      obtain ⟨hlt, htest, -⟩ := List.findIdx?_eq_some_iff_getElem.mp hfind
      simp only [hfind, List.getElem?_eq_getElem hlt, Option.map_some, Option.some.injEq,
        Prod.mk.injEq] at htake
      obtain ⟨rfl, rfl⟩ := htake
      refine ⟨htest, ?_⟩
      exact (List.getElem_cons_eraseIdx_perm hlt).symm.trans
        ((List.perm_cons _).mpr (swapRemove_perm hlt).symm)

theorem takePending_eq_none {test : Region → Bool} {pending : List Region}
    (htake : takePending test pending = none) : ∀ region ∈ pending, test region = false := by
  rw [takePending] at htake
  cases hfind : pending.findIdx? test with
  | none => exact List.findIdx?_eq_none_iff.mp hfind
  | some i =>
      obtain ⟨hlt, -⟩ := List.findIdx?_eq_some_iff_getElem.mp hfind
      simp [hfind, List.getElem?_eq_getElem hlt] at htake

/-- A search that one mapping alone can pass takes that one, or it is not queued. -/
theorem takePending_own {test : Region → Bool} {pending : List Region} {own : Region}
    (hown : test own = true) (honly : ∀ region ∈ pending, test region = true → region = own) :
    (takePending test pending = none ∧ own ∉ pending) ∨
      ∃ rest, takePending test pending = some (own, rest) ∧ pending.Perm (own :: rest) := by
  cases htake : takePending test pending with
  | none =>
      refine Or.inl ⟨rfl, fun hpending => ?_⟩
      rw [takePending_eq_none htake _ hpending] at hown
      cases hown
  | some found =>
      obtain ⟨region, rest⟩ := found
      obtain ⟨htest, hperm⟩ := takePending_eq_some htake
      obtain rfl := honly region (hperm.mem_iff.mpr (List.mem_cons_self ..)) htest
      exact Or.inr ⟨rest, rfl, hperm⟩

theorem lt_of_disjoint {left right : Region} (hdisjoint : left.disjoint right = true) {addr : Nat}
    (hleft : left.base ≤ addr ∧ addr < left.base + left.len) :
    ¬(right.base ≤ addr ∧ addr < right.base + right.len) := by
  simp only [Region.disjoint, Bool.or_eq_true, decide_eq_true_iff] at hdisjoint
  omega

theorem disjoint_comm {left right : Region} (hdisjoint : left.disjoint right = true) :
    right.disjoint left = true := by
  rwa [Region.disjoint, Bool.or_comm]

theorem le_mappingLen (page : ℕ+) (bytesLen : Nat) : max bytesLen 1 ≤ mappingLen page bytesLen := by
  have hpage := page.pos
  have hdiv := Nat.div_add_mod (max bytesLen 1 + page - 1) page
  have hmod := Nat.mod_lt (max bytesLen 1 + page - 1) hpage
  rw [mappingLen, Nat.mul_comm]
  omega

/-! ## Places -/

variable {page : ℕ+} {state next : State} {id : Nat} {load : Load} {region : Region}

theorem held_load (hload : state.loads id = some load) :
    state.held (.load id) = load.stage.hands := by
  rw [State.held, hload]

theorem held_engine {engine : Nat} {hook : MapJitCodeMemory}
    (hhook : state.engines engine = some hook) : state.held (.engine engine) = hook.owned := by
  rw [State.held, hhook]

theorem held_load_ne {after : Option Load} (hloads : next.loads = Function.update state.loads id after)
    {other : Nat} (hother : other ≠ id) : next.held (.load other) = state.held (.load other) := by
  rw [State.held, State.held, hloads, Function.update_of_ne hother]

theorem held_engine_ne {engine : Nat} {after : Option MapJitCodeMemory}
    (hengines : next.engines = Function.update state.engines engine after) {other : Nat}
    (hother : other ≠ engine) : next.held (.engine other) = state.held (.engine other) := by
  rw [State.held, State.held, hengines, Function.update_of_ne hother]

theorem held_gone_append {cause : Cause} (hgone : next.gone = state.gone ++ [(region, cause)]) :
    next.held .gone = state.held .gone ++ [region] := by
  rw [State.held, State.held, hgone, List.map_append]
  rfl

/-! ## The invariant -/

/-- The hook of every engine is still there, and dropped only if it was. -/
def EnginesKept (state next : State) : Prop :=
  ∀ engine hook, state.engines engine = some hook →
    ∃ later, next.engines engine = some later ∧ later.dropped = hook.dropped

/-- What is known of a load under way. -/
structure LoadOk (state : State) (id : Nat) (load : Load) : Prop where
  made : state.made[id]? = some load.region
  fits : load.bytesLen ≤ load.region.len
  hook : ∃ hook, state.engines load.engine = some hook ∧ hook.dropped = false
  hands : ∀ region ∈ load.stage.hands, region = load.region
  place : ∃ place, load.region ∈ state.held place ∧
    (place = .load id ∨ place = .pending ∨ place = .engine load.engine)

/-- The record bears out why a mapping was unmapped. -/
def CauseOk (state : State) (region : Region) : Cause → Prop
  | .loadFailed => (region, false) ∈ state.returned ∧ ∀ engine, (region, engine) ∉ state.claims
  | .neverPublished => (region, true) ∈ state.returned ∧ ∀ engine, (region, engine) ∉ state.claims
  | .engineDropped engine => (region, engine) ∈ state.claims ∧
      ∃ hook, state.engines engine = some hook ∧ hook.dropped = true

structure Inv (state : State) : Prop where
  custody : InCustody state.held state.made
  ids : ∀ {id : Nat} {region : Region}, state.made[id]? = some region → region.id = id
  sized : ∀ region ∈ state.made, 0 < region.len ∧ region.base + region.len ≤ usizeMax
  apart : ∀ left ∈ state.made, ∀ right ∈ state.made, left ≠ right →
    left ∉ state.held .gone → right ∉ state.held .gone → left.disjoint right = true
  loads : ∀ {id load}, state.loads id = some load → LoadOk state id load
  pending : ∀ region ∈ state.pending, ∃ load,
    state.loads region.id = some load ∧ load.region = region ∧ load.stage = .raw
  owned : ∀ {engine region}, region ∈ state.held (.engine engine) →
    (region, engine) ∈ state.claims
  claims : ∀ {region engine}, (region, engine) ∈ state.claims →
    region ∈ state.held (.engine engine) ∨ (region, .engineDropped engine) ∈ state.gone
  returned : ∀ {region : Region} {ok : Bool}, (region, ok) ∈ state.returned →
    region ∈ state.made ∧ state.loads region.id = none
  gone : ∀ {region cause}, (region, cause) ∈ state.gone → CauseOk state region cause

theorem inv_start : Inv {} where
  custody := by
    have hnothing : State.held {} = fun _ => [] := by
      funext place
      cases place <;> rfl
    rw [hnothing]
    exact inCustody_empty
  ids := nofun
  sized := nofun
  apart := nofun
  loads := nofun
  pending := nofun
  owned := nofun
  claims := nofun
  returned := nofun
  gone := nofun

/-! ## What the invariant says of one load -/

theorem Inv.region_id (hinv : Inv state) (hload : state.loads id = some load) :
    load.region.id = id :=
  hinv.ids (hinv.loads hload).made

theorem Inv.region_made (hinv : Inv state) (hload : state.loads id = some load) :
    load.region ∈ state.made :=
  List.mem_of_getElem? (hinv.loads hload).made

theorem Inv.lt_made (hinv : Inv state) (hload : state.loads id = some load) :
    id < state.made.length :=
  (List.getElem?_eq_some_iff.mp (hinv.loads hload).made).1

/-- What the hands of a load hold is its mapping. -/
theorem Inv.hands_eq (hinv : Inv state) (hload : state.loads id = some load)
    (hhands : load.stage.hands = [region]) : region = load.region := by
  apply (hinv.loads hload).hands
  rw [hhands]
  exact List.mem_singleton_self _

theorem Inv.not_gone (hinv : Inv state) (hload : state.loads id = some load) :
    load.region ∉ state.held .gone := by
  intro hgone
  obtain ⟨place, hplace, hwhere⟩ := (hinv.loads hload).place
  obtain rfl := hinv.custody.sole hplace hgone
  rcases hwhere with hwhere | hwhere | hwhere <;> cases hwhere

/-- Two loads under way have made different mappings. -/
theorem Inv.region_ne (hinv : Inv state) {other : Nat} {otherLoad : Load}
    (hload : state.loads id = some load) (hother : state.loads other = some otherLoad)
    (hne : other ≠ id) : otherLoad.region ≠ load.region := by
  intro heq
  apply hne
  rw [← hinv.region_id hother, heq, hinv.region_id hload]

theorem Inv.pending_not_gone (hinv : Inv state) (hpending : region ∈ state.pending) :
    region ∉ state.held .gone := by
  intro hgone
  have hplace := hinv.custody.sole (show region ∈ state.held .pending from hpending) hgone
  cases hplace

theorem Inv.pending_made (hinv : Inv state) (hpending : region ∈ state.pending) :
    region ∈ state.made :=
  hinv.custody.made (show region ∈ state.held .pending from hpending)

/-- What a load has in its hands is not queued. -/
theorem Inv.not_pending (hinv : Inv state) (hload : state.loads id = some load)
    (hhands : load.stage.hands = [load.region]) : load.region ∉ state.pending := by
  intro hpending
  have hheld : load.region ∈ state.held (.load id) := by
    rw [held_load hload, hhands]
    exact List.mem_singleton_self _
  have hplace := hinv.custody.sole hheld (show load.region ∈ state.held .pending from hpending)
  cases hplace

/-- What is in the hands of a load or in the queue is claimed by no engine. -/
theorem Inv.not_claimed (hinv : Inv state) {place : Place} (hheld : region ∈ state.held place)
    (hplace : (∃ id, place = .load id) ∨ place = .pending) (engine : Nat) :
    (region, engine) ∉ state.claims := by
  intro hclaim
  rcases hinv.claims hclaim with howned | hgone
  · obtain rfl := hinv.custody.sole hheld howned
    rcases hplace with ⟨id, hid⟩ | hpending
    · cases hid
    · cases hpending
  · have hmem : region ∈ state.held .gone := List.mem_map_of_mem hgone
    obtain rfl := hinv.custody.sole hheld hmem
    rcases hplace with ⟨id, hid⟩ | hpending
    · cases hid
    · cases hpending

theorem Inv.engine_ne_of_idle (hinv : Inv state) {engine : Nat} (hidle : state.idle engine = true)
    (hload : state.loads id = some load) : load.engine ≠ engine := by
  have hat := List.all_eq_true.mp hidle id (List.mem_range.mpr (hinv.lt_made hload))
  rw [hload] at hat
  exact bne_iff_ne.mp hat

/-- What an engine owns is the mapping of no load on another engine. -/
theorem Inv.engine_eq_of_owned (hinv : Inv state) (hload : state.loads id = some load)
    {engine : Nat} (howned : load.region ∈ state.held (.engine engine)) : load.engine = engine := by
  obtain ⟨place, hplace, hwhere⟩ := (hinv.loads hload).place
  obtain rfl := hinv.custody.sole hplace howned
  rcases hwhere with hwhere | hwhere | hwhere
  · cases hwhere
  · cases hwhere
  · exact (Place.engine.inj hwhere).symm

/-- The engine of a load is not dropped, so a dropped one does not own its mapping. -/
theorem Inv.not_owned_of_dropped (hinv : Inv state) (hload : state.loads id = some load)
    {engine : Nat} {hook : MapJitCodeMemory} (hhook : state.engines engine = some hook)
    (hdropped : hook.dropped = true) : load.region ∉ state.held (.engine engine) := by
  intro howned
  have hengine := hinv.engine_eq_of_owned hload howned
  obtain ⟨before, hbefore, hbeforeDropped⟩ := (hinv.loads hload).hook
  rw [hengine, hhook] at hbefore
  obtain rfl := Option.some.inj hbefore
  rw [hdropped] at hbeforeDropped
  cases hbeforeDropped

/-- The mapping of a load that waits for the runtime is queued or with its engine. -/
theorem Inv.owned_of_raw (hinv : Inv state) (hload : state.loads id = some load)
    (hraw : load.stage = .raw) (hnot : load.region ∉ state.pending) :
    load.region ∈ state.held (.engine load.engine) := by
  obtain ⟨place, hplace, rfl | rfl | rfl⟩ := (hinv.loads hload).place
  · rw [held_load hload, hraw] at hplace
    cases hplace
  · exact absurd hplace hnot
  · exact hplace

/-- A returned load has nothing in its hands and nothing in the queue. -/
theorem Inv.place_of_returned (hinv : Inv state) {ok : Bool}
    (hreturned : (region, ok) ∈ state.returned) : region ∉ state.pending ∧
      (region ∈ state.held .gone ∨ ∃ engine, region ∈ state.held (.engine engine)) := by
  obtain ⟨hmade, hnone⟩ := hinv.returned hreturned
  have hnot : region ∉ state.pending := by
    intro hpending
    obtain ⟨load, hload, -⟩ := hinv.pending region hpending
    rw [hnone] at hload
    cases hload
  refine ⟨hnot, ?_⟩
  obtain ⟨place, hplace⟩ := hinv.custody.holder region hmade
  cases place with
  | load id =>
      cases hload : state.loads id with
      | none =>
          rw [State.held, hload] at hplace
          cases hplace
      | some load =>
          rw [held_load hload] at hplace
          have hown := (hinv.loads hload).hands region hplace
          rw [hown, hinv.region_id hload, hload] at hnone
          cases hnone
  | pending => exact absurd hplace hnot
  | engine engine => exact Or.inr ⟨engine, hplace⟩
  | gone => exact Or.inl hplace

/-! ## What a search finds -/

/-- A queued mapping that shares an address with the mapping of a load is that one. -/
theorem Inv.eq_of_common (hinv : Inv state) (hload : state.loads id = some load)
    (hpending : region ∈ state.pending) {addr : Nat}
    (hregion : region.base ≤ addr ∧ addr < region.base + region.len)
    (hown : load.region.base ≤ addr ∧ addr < load.region.base + load.region.len) :
    region = load.region := by
  by_contra hne
  have hdisjoint := hinv.apart region (hinv.pending_made hpending) load.region (hinv.region_made hload) hne
    (hinv.pending_not_gone hpending) (hinv.not_gone hload)
  exact lt_of_disjoint hdisjoint hregion hown

/-- The search of a publish finds no mapping but the one of its own load. -/
theorem Inv.eq_of_contains (hinv : Inv state) (hload : state.loads id = some load) {addr len : Nat}
    (hinside : load.textInside addr len = true) (hpending : region ∈ state.pending)
    (hcontains : region.contains addr len = true) : region = load.region := by
  simp only [Load.textInside, Bool.and_eq_true, decide_eq_true_iff] at hinside
  obtain ⟨⟨hpos, hbase⟩, hend⟩ := hinside
  have hfits := (hinv.loads hload).fits
  have hmax := (hinv.sized _ (hinv.region_made hload)).2
  -- the end of the text is an address, so the sum does not saturate
  have hsum : saturatingAdd addr len = addr + len := Nat.min_eq_left (by omega)
  simp only [Region.contains, hsum, Bool.and_eq_true, decide_eq_true_iff] at hcontains
  have hown : load.region.base ≤ addr ∧ addr < load.region.base + load.region.len := by omega
  exact hinv.eq_of_common hload hpending (by omega) hown

/-- The search by base finds no mapping but the one of its own load. -/
theorem Inv.eq_of_base (hinv : Inv state) (hload : state.loads id = some load)
    (hpending : region ∈ state.pending) (hbase : region.base = load.region.base) :
    region = load.region := by
  have hlen := (hinv.sized _ (hinv.pending_made hpending)).1
  have hownLen := (hinv.sized _ (hinv.region_made hload)).1
  have hfirst : region.base ≤ region.base ∧ region.base < region.base + region.len := by omega
  exact hinv.eq_of_common hload hpending hfirst (by omega)

/-- The mapping of a load contains every text that the runtime may publish. -/
theorem Inv.contains_own (hinv : Inv state) (hload : state.loads id = some load) {addr len : Nat}
    (hinside : load.textInside addr len = true) : load.region.contains addr len = true := by
  simp only [Load.textInside, Bool.and_eq_true, decide_eq_true_iff] at hinside
  obtain ⟨⟨-, hbase⟩, hend⟩ := hinside
  have hfits := (hinv.loads hload).fits
  have hsum : saturatingAdd addr len ≤ addr + len := Nat.min_le_left _ _
  simp only [Region.contains, Bool.and_eq_true, decide_eq_true_iff]
  omega

/-- A publish takes the mapping of its own load, or leaves the state alone. -/
theorem Inv.publishExecutable_eq (hinv : Inv state) (hload : state.loads id = some load)
    {addr len : Nat} (hinside : load.textInside addr len = true) :
    (publishExecutable state id addr len load = state ∧ load.region ∉ state.pending) ∨
      ∃ rest, state.pending.Perm (load.region :: rest) ∧
        publishExecutable state id addr len load =
          { state.setLoad id (some { load with stage := .publishing load.region }) with
            pending := rest } := by
  have hsearch := takePending_own (hinv.contains_own hload hinside)
    fun region => hinv.eq_of_contains hload hinside
  rcases hsearch with ⟨htake, hnot⟩ | ⟨rest, htake, hperm⟩
  · refine Or.inl ⟨?_, hnot⟩
    simp only [publishExecutable, htake]
  · refine Or.inr ⟨rest, hperm, ?_⟩
    simp only [publishExecutable, htake]

/-! ## The next mapping -/

theorem mem_live : region ∈ state.live ↔ region ∈ state.made ∧ region ∉ state.held .gone := by
  simp only [State.live, State.held, List.mem_filter, Bool.not_eq_true', List.any_eq_false,
    beq_iff_eq, List.mem_map, not_exists, not_and]

/-- The next mapping has a number that no mapping has. -/
theorem Inv.id_ne (hinv : Inv state) (hid : region.id = state.made.length) {other : Region}
    (hother : other ∈ state.made) : other.id ≠ region.id := by
  intro heq
  obtain ⟨i, hi⟩ := List.getElem?_of_mem hother
  have hlt := (List.getElem?_eq_some_iff.mp hi).1
  have hsame := hinv.ids hi
  omega

theorem Inv.not_made (hinv : Inv state) (hid : region.id = state.made.length) :
    region ∉ state.made :=
  fun hmem => hinv.id_ne hid hmem rfl

theorem Inv.loads_length (hinv : Inv state) : state.loads state.made.length = none := by
  cases hload : state.loads state.made.length with
  | none => rfl
  | some load => exact absurd (hinv.lt_made hload) (Nat.lt_irrefl _)

/-! ## What a step leaves alone -/

/-- A load whose mapping stays where it is goes on as it was. -/
theorem LoadOk.mono (hok : LoadOk state id load) (hmade : next.made = state.made)
    (hengines : EnginesKept state next)
    (hstays : ∀ place, load.region ∈ state.held place → load.region ∈ next.held place) :
    LoadOk next id load where
  made := hmade ▸ hok.made
  fits := hok.fits
  hook := by
    obtain ⟨hook, hhook, hdropped⟩ := hok.hook
    obtain ⟨later, hlater, hsame⟩ := hengines _ _ hhook
    exact ⟨later, hlater, hsame.trans hdropped⟩
  hands := hok.hands
  place := by
    obtain ⟨place, hplace, hwhere⟩ := hok.place
    exact ⟨place, hstays place hplace, hwhere⟩

theorem enginesKept_of_eq (hengines : next.engines = state.engines) : EnginesKept state next :=
  fun _ hook hhook => ⟨hook, hengines ▸ hhook, rfl⟩

/-- The list of one hook changes. -/
theorem enginesKept_update {engine : Nat} {hook later : MapJitCodeMemory}
    (hhook : state.engines engine = some hook)
    (hengines : next.engines = Function.update state.engines engine (some later))
    (hdropped : later.dropped = hook.dropped) : EnginesKept state next := by
  intro other before hbefore
  rw [hengines]
  by_cases hother : other = engine
  · subst hother
    rw [hhook] at hbefore
    obtain rfl := Option.some.inj hbefore
    exact ⟨later, Function.update_self _ _ _, hdropped⟩
  · exact ⟨before, (Function.update_of_ne hother _ _).trans hbefore, rfl⟩

theorem CauseOk.mono {cause : Cause} (hcause : CauseOk state region cause)
    (hengines : EnginesKept state next) (hreturned : ∀ entry ∈ state.returned, entry ∈ next.returned)
    (hclaims : ∀ engine, (region, engine) ∈ next.claims ↔ (region, engine) ∈ state.claims) :
    CauseOk next region cause := by
  cases cause with
  | loadFailed => exact ⟨hreturned _ hcause.1, fun engine => mt (hclaims engine).mp (hcause.2 engine)⟩
  | neverPublished =>
      exact ⟨hreturned _ hcause.1, fun engine => mt (hclaims engine).mp (hcause.2 engine)⟩
  | engineDropped engine =>
      obtain ⟨hclaim, hook, hhook, hdropped⟩ := hcause
      obtain ⟨later, hlater, hsame⟩ := hengines engine hook hhook
      exact ⟨(hclaims engine).mpr hclaim, later, hlater, hsame.trans hdropped⟩

theorem Inv.apart_next (hinv : Inv state) (hmade : next.made = state.made)
    (hgone : ∀ region ∈ state.held .gone, region ∈ next.held .gone) :
    ∀ left ∈ next.made, ∀ right ∈ next.made, left ≠ right →
      left ∉ next.held .gone → right ∉ next.held .gone → left.disjoint right = true := by
  intro left hleft right hright hne hleftGone hrightGone
  rw [hmade] at hleft hright
  exact hinv.apart left hleft right hright hne (mt (hgone left) hleftGone)
    (mt (hgone right) hrightGone)

/-! ## A load that changes -/

section LoadChanges

variable {after : Option Load} (hinv : Inv state) (hload : state.loads id = some load)
  (hloads : next.loads = Function.update state.loads id after)
include hinv hload hloads

theorem returned_next {ok : Bool} (hreturned : (region, ok) ∈ state.returned) :
    region ∈ state.made ∧ next.loads region.id = none := by
  obtain ⟨hmade, hnone⟩ := hinv.returned hreturned
  refine ⟨hmade, ?_⟩
  rw [hloads, Function.update_of_ne, hnone]
  intro heq
  rw [heq, hload] at hnone
  cases hnone

/-- Other loads go on as they were where no mapping but that of this load moves. -/
theorem loads_next (hmade : next.made = state.made) (hengines : EnginesKept state next)
    (hstays : ∀ region place, region ≠ load.region → region ∈ state.held place →
      region ∈ next.held place)
    (hafter : ∀ changed, after = some changed → LoadOk next id changed) {other : Nat}
    {otherLoad : Load} (hother : next.loads other = some otherLoad) :
    LoadOk next other otherLoad := by
  rw [hloads] at hother
  by_cases hne : other = id
  · subst hne
    rw [Function.update_self] at hother
    exact hafter otherLoad hother
  · rw [Function.update_of_ne hne] at hother
    exact (hinv.loads hother).mono hmade hengines
      fun place => hstays _ place (hinv.region_ne hload hother hne)

/-- What is queued belongs to a load that waits for the runtime. -/
theorem pending_next
    (hpending : ∀ region ∈ next.pending, (region ∈ state.pending ∧ region ≠ load.region) ∨
      ∃ changed, after = some changed ∧ region = load.region ∧ changed.region = load.region ∧
        changed.stage = .raw) :
    ∀ region ∈ next.pending, ∃ load,
      next.loads region.id = some load ∧ load.region = region ∧ load.stage = .raw := by
  intro region hregion
  rcases hpending region hregion with ⟨hbefore, hother⟩ | ⟨changed, rfl, rfl, hsame, hraw⟩
  · obtain ⟨owner, howner, hownerRegion, hraw⟩ := hinv.pending region hbefore
    refine ⟨owner, ?_, hownerRegion, hraw⟩
    rw [hloads, Function.update_of_ne, howner]
    intro heq
    rw [heq, hload] at howner
    obtain rfl := Option.some.inj howner
    exact hother hownerRegion.symm
  · refine ⟨changed, ?_, hsame, hraw⟩
    rw [hloads, hinv.region_id hload, Function.update_self]

/-- The load is gone, and its mapping is recorded. -/
theorem returned_append (hmade : next.made = state.made) {ok : Bool} (hgone : after = none)
    (hreturned : next.returned = state.returned ++ [(load.region, ok)]) {region : Region}
    {outcome : Bool} (hentry : (region, outcome) ∈ next.returned) :
    region ∈ next.made ∧ next.loads region.id = none := by
  rw [hmade]
  rw [hreturned] at hentry
  rcases List.mem_append.mp hentry with hbefore | hlast
  · exact returned_next hinv hload hloads hbefore
  · obtain ⟨rfl, -⟩ := Prod.mk.inj (List.mem_singleton.mp hlast)
    rw [hinv.region_id hload, hloads, Function.update_self]
    exact ⟨hinv.region_made hload, hgone⟩

end LoadChanges

end HellohqRuntime.Jit.Invariant

import HellohqRuntime.Jit.Ownership

/-!
# Published code

The runtime publishes the text of the code that it has loaded through the hook of the
engine, and takes that back when the code is dropped.  Code in a `MAP_JIT` mapping is
executable as it stands; for code in ordinary memory the hook changes the protection
of the pages, and changes it back.  Both calls have to find out which of the two they
are given from an address alone.
-/

namespace HellohqRuntime.Jit.Publishing

open HellohqRuntime.Foundation.Runs
open HellohqRuntime.Jit.Memory
open HellohqRuntime.Jit.Invariant
open HellohqRuntime.Jit.Ownership

/-! ## State -/

inductive Protection where
  | readExecute | readWrite
  deriving DecidableEq, Repr

/-- A call of `mprotect` that succeeded. -/
structure Change where
  addr : Nat
  len : Nat
  protection : Protection
  deriving DecidableEq, Repr

/-- A text that is published, by a load into its mapping or in ordinary memory. -/
structure Code where
  engine : Nat
  addr : Nat
  len : Nat
  load : Option Nat
  deriving DecidableEq, Repr

/-- The mappings with the code that is published.  A load publishes once, since the
runtime publishes each code once. -/
structure Published where
  memory : State := {}
  codes : List Code := []
  used : List Nat := []
  changes : List Change := []
  /-- `MAP_JIT_TOTAL` and `FALLBACK_TOTAL`; that they wrap at 2^64 is left out. -/
  mapJitTotal : Nat := 0
  fallbackTotal : Nat := 0

def rangesApart (left leftLen right rightLen : Nat) : Bool :=
  decide (left + leftLen ≤ right) || decide (right + rightLen ≤ left)

/-- Code in ordinary memory keeps clear of the range. -/
def Code.clearOf (code : Code) (addr len : Nat) : Bool :=
  code.load.isSome || rangesApart code.addr code.len addr len

def Change.covers (change : Change) (addr : Nat) : Bool :=
  decide (change.addr ≤ addr) && decide (addr < change.addr + change.len)

/-- What the last change made of an address. -/
def protection (changes : List Change) (addr : Nat) : Option Protection :=
  ((changes.filter (·.covers addr)).getLast?).map Change.protection

namespace Published

/-- The thread that loads the code is still in the hook. -/
def publishing (state : Published) (code : Code) : Bool :=
  match (code.load.bind state.memory.loads).map Load.stage with
  | some (.publishing _) => true
  | _ => false

/-- What stock code does for pages that it did not map. -/
def protect (state : Published) (addr len : Nat) (protection : Protection) : Published :=
  { state with changes := state.changes ++ [{ addr, len, protection }] }

def noteFallback (state : Published) : Published :=
  { state with fallbackTotal := state.fallbackTotal + 1 }

/-! ## Steps -/

/-- `publish_executable` for the text of a load; the claim is the next step. -/
def publish (page : ℕ+) (state : Published) (id addr len : Nat) : Option Published :=
  if id ∈ state.used then none
  else
    match step page state.memory (.publish id addr len), state.memory.loads id with
    | some memory, some load =>
        let published : Published := { state with
          memory
          codes := state.codes ++ [{ engine := load.engine, addr, len, load := some id }]
          used := id :: state.used }
        match takePending (fun region => region.contains addr len) state.memory.pending with
        | some _ => some published
        | none => some (published.protect addr len .readExecute).noteFallback
    | _, _ => none

/-- `publish_executable` for a text in ordinary memory, which is apart from the mappings
and from other such code. -/
def publishStock (state : Published) (engine addr len : Nat) : Option Published :=
  match state.memory.engines engine with
  | none => none
  | some hook =>
      if !hook.dropped && decide (0 < len) && decide (addr + len ≤ usizeMax) &&
          state.memory.live.all (fun region => rangesApart region.base region.len addr len) &&
          state.codes.all (·.clearOf addr len) then
        let published : Published :=
          { state with codes := state.codes ++ [{ engine, addr, len, load := none }] }
        match takePending (fun region => region.contains addr len) state.memory.pending with
        | some (region, rest) => some { published with
            memory := { state.memory.setEngine engine { hook with owned := hook.owned ++ [region] }
              with pending := rest }
            mapJitTotal := state.mapJitTotal + 1 }
        | none => some (published.protect addr len .readExecute).noteFallback
      else none

/-- `unpublish_executable`, when the code is dropped. -/
def unpublish (state : Published) (index : Nat) : Option Published :=
  match state.codes[index]? with
  | none => none
  | some code =>
      match state.memory.engines code.engine, state.publishing code with
      | some hook, false =>
          let dropped : Published := { state with codes := state.codes.eraseIdx index }
          if hook.owned.any fun region => region.contains code.addr code.len then some dropped
          else some (dropped.protect code.addr code.len .readWrite)
      | _, _ => none

/-- A mapping is made apart from the code in ordinary memory, and each code keeps the hook
of its engine. -/
def allows (page : ℕ+) (state : Published) : Label → Bool
  | .publish _ _ _ => false
  | .map _ base bytesLen => state.codes.all (·.clearOf base (mappingLen page bytesLen))
  | .dropEngine engine => state.codes.all (·.engine != engine)
  | _ => true

end Published

inductive Action where
  | memory (label : Label)
  | publish (load addr len : Nat)
  | publishStock (engine addr len : Nat)
  | unpublish (code : Nat)
  deriving DecidableEq, Repr

/-- A claim is counted as code published from a mapping. -/
def claimed : Label → Nat
  | .claim _ => 1
  | _ => 0

def Published.step (page : ℕ+) (state : Published) : Action → Option Published
  | .memory label =>
      if state.allows page label then
        (Memory.step page state.memory label).map fun memory =>
          { state with memory, mapJitTotal := state.mapJitTotal + claimed label }
      else none
  | .publish id addr len => state.publish page id addr len
  | .publishStock engine addr len => state.publishStock engine addr len
  | .unpublish index => state.unpublish index

/-! ## What a step does to the mappings -/

variable {page : ℕ+} {state next : State} {id : Nat} {load : Load} {region : Region} {label : Label}

/-- What a step leaves of the hooks, the publications and the mappings. -/
structure Effect (page : ℕ+) (label : Label) (state next : State) : Prop where
  hooks : ∀ {engine hook}, state.engines engine = some hook →
    ∃ later, next.engines engine = some later ∧
      (label ≠ .dropEngine engine → later.dropped = hook.dropped) ∧
      (hook.dropped = false → ∀ region ∈ hook.owned, region ∈ later.owned)
  publishing : ∀ {id load region}, state.loads id = some load → load.stage = .publishing region →
    label ≠ .claim id → next.loads id = some load
  published : ∀ {id load region}, next.loads id = some load → load.stage = .publishing region →
    state.loads id = some load ∨ ∃ addr len, label = .publish id addr len
  claims : next.claims.length = state.claims.length + claimed label ∧
    ∀ {region engine}, (region, engine) ∈ next.claims → (region, engine) ∈ state.claims ∨
      ∃ id load, state.loads id = some load ∧ load.stage = .publishing region
  live : ∀ region ∈ next.live, region ∈ state.live ∨
    ∃ engine bytesLen, label = .map engine region.base bytesLen ∧ region.len = mappingLen page bytesLen

theorem live_mono (hmade : next.made = state.made) (hgone : ∀ entry ∈ state.gone, entry ∈ next.gone) :
    ∀ region ∈ next.live, region ∈ state.live := by
  intro region hlive
  obtain ⟨hmem, hnot⟩ := mem_live.mp hlive
  refine mem_live.mpr ⟨hmade ▸ hmem, fun hheld => hnot ?_⟩
  obtain ⟨entry, hentry, hregion⟩ := List.mem_map.mp hheld
  exact List.mem_map.mpr ⟨entry, hgone entry hentry, hregion⟩

theorem eq_of_update {α : Type} {f : Nat → Option α} {k : Nat} {value other : α}
    (hupdate : Function.update f k (some value) k = some other) : value = other := by
  rw [Function.update_self] at hupdate
  exact Option.some.inj hupdate

/-- A step of one load, which is not inside its publish, changes nothing else that is
published. -/
theorem effect_of_load {after : Option Load} (hload : state.loads id = some load)
    (houtside : ∀ region, load.stage ≠ .publishing region)
    (hpublished : ∀ later region, after = some later → later.stage = .publishing region →
      ∃ addr len, label = .publish id addr len)
    (hloads : next.loads = Function.update state.loads id after)
    (hengines : next.engines = state.engines) (hclaims : next.claims = state.claims)
    (hcount : claimed label = 0) (hmade : next.made = state.made)
    (hgone : ∀ entry ∈ state.gone, entry ∈ next.gone) : Effect page label state next where
  hooks := by
    intro engine hook hhook
    exact ⟨hook, hengines ▸ hhook, fun _ => rfl, fun _ _ hregion => hregion⟩
  publishing := by
    intro other otherLoad region hother hstage _
    rw [hloads, Function.update_of_ne]
    · exact hother
    · rintro rfl
      obtain rfl := Option.some.inj (hload.symm.trans hother)
      exact houtside region hstage
  published := by
    intro other otherLoad region hother hstage
    rw [hloads] at hother
    by_cases hsame : other = id
    · subst hsame
      rw [Function.update_self] at hother
      exact Or.inr (hpublished otherLoad region hother hstage)
    · rw [Function.update_of_ne hsame] at hother
      exact Or.inl hother
  claims := ⟨by rw [hclaims, hcount, Nat.add_zero], fun hmem => Or.inl (hclaims ▸ hmem)⟩
  live := fun region hlive => Or.inl (live_mono hmade hgone region hlive)

/-- A step of one hook leaves the loads alone. -/
theorem effect_of_engine {engine : Nat} {later : MapJitCodeMemory}
    (hkeeps : ∀ hook, state.engines engine = some hook →
      (label ≠ .dropEngine engine → later.dropped = hook.dropped) ∧
        (hook.dropped = false → ∀ region ∈ hook.owned, region ∈ later.owned))
    (hengines : next.engines = Function.update state.engines engine (some later))
    (hloads : next.loads = state.loads) (hclaims : next.claims = state.claims)
    (hcount : claimed label = 0) (hmade : next.made = state.made)
    (hgone : ∀ entry ∈ state.gone, entry ∈ next.gone) : Effect page label state next where
  hooks := by
    intro other hook hhook
    rw [hengines]
    by_cases hsame : other = engine
    · subst hsame
      exact ⟨later, Function.update_self _ _ _, hkeeps hook hhook⟩
    · exact ⟨hook, (Function.update_of_ne hsame _ _).trans hhook, fun _ => rfl,
        fun _ _ hregion => hregion⟩
  publishing := fun hload _ _ => hloads ▸ hload
  published := fun hload _ => Or.inl (hloads ▸ hload)
  claims := ⟨by rw [hclaims, hcount, Nat.add_zero], fun hmem => Or.inl (hclaims ▸ hmem)⟩
  live := fun region hlive => Or.inl (live_mono hmade hgone region hlive)

theorem effect_map (hinv : Inv state) {engine base bytesLen : Nat}
    (hmap : mapRegion page state engine base bytesLen = some next) :
    Effect page (.map engine base bytesLen) state next := by
  rw [mapRegion] at hmap
  cases hhook : state.engines engine with
  | none =>
      rw [hhook] at hmap
      cases hmap
  | some hook =>
      simp only [hhook] at hmap
      split at hmap
      case isFalse => cases hmap
      case isTrue hallowed =>
        obtain rfl := Option.some.inj hmap
        constructor
        case hooks => exact fun hother => ⟨_, hother, fun _ => rfl, fun _ _ hregion => hregion⟩
        case publishing =>
          intro other load region hload hstage _
          refine (Function.update_of_ne ?_ _ _).trans hload
          rintro rfl
          cases hinv.loads_length.symm.trans hload
        case published =>
          intro other load region hload hstage
          by_cases hsame : other = state.made.length
          · subst hsame
            obtain rfl := eq_of_update hload
            cases hstage
          · exact Or.inl ((Function.update_of_ne hsame _ _).symm.trans hload)
        case claims => exact ⟨rfl, fun hmem => Or.inl hmem⟩
        case live =>
          intro region hlive
          obtain ⟨hmade, hnot⟩ := mem_live.mp hlive
          rcases List.mem_append.mp hmade with hbefore | hlast
          · exact Or.inl (mem_live.mpr ⟨hbefore, hnot⟩)
          · obtain rfl := List.mem_singleton.mp hlast
            exact Or.inr ⟨engine, bytesLen, rfl, rfl⟩

theorem effect_claim (hclaim : step page state (.claim id) = some next) :
    Effect page (.claim id) state next := by
  obtain ⟨load, region, hook, hload, hstage, hhook, rfl⟩ := step_claim hclaim
  constructor
  case hooks =>
    intro engine before hbefore
    by_cases hsame : engine = load.engine
    · subst hsame
      obtain rfl := Option.some.inj (hhook.symm.trans hbefore)
      exact ⟨_, Function.update_self _ _ _, fun _ => rfl,
        fun _ _ hregion => List.mem_append_left _ hregion⟩
    · exact ⟨before, (Function.update_of_ne hsame _ _).trans hbefore, fun _ => rfl,
        fun _ _ hregion => hregion⟩
  case publishing =>
    intro other otherLoad otherRegion hother _ hlabel
    refine (Function.update_of_ne ?_ _ _).trans hother
    rintro rfl
    exact hlabel rfl
  case published =>
    intro other otherLoad otherRegion hother hotherStage
    by_cases hsame : other = id
    · subst hsame
      obtain rfl := eq_of_update hother
      cases hotherStage
    · exact Or.inl ((Function.update_of_ne hsame _ _).symm.trans hother)
  case claims =>
    refine ⟨List.length_append, fun hmem => ?_⟩
    rcases List.mem_append.mp hmem with hbefore | hlast
    · exact Or.inl hbefore
    · obtain ⟨rfl, -⟩ := Prod.mk.inj (List.mem_singleton.mp hlast)
      exact Or.inr ⟨id, load, hload, hstage⟩
  case live => exact fun region hlive => Or.inl (live_mono rfl (fun _ hentry => hentry) region hlive)

theorem effect_of_step (hinv : Inv state) (hstep : step page state label = some next) :
    Effect page label state next := by
  cases label with
  | openEngine engine =>
      cases hhook : state.engines engine with
      | some hook => simp [step, hhook] at hstep
      | none =>
          simp only [step, hhook, Option.some.injEq] at hstep
          subst hstep
          refine effect_of_engine (fun hook hsome => ?_) rfl rfl rfl rfl rfl fun _ hentry => hentry
          cases hhook.symm.trans hsome
  | map engine base bytesLen => exact effect_map hinv hstep
  | queue id =>
      obtain ⟨load, region, hload, hstage, rfl⟩ := step_queue hstep
      refine effect_of_load hload (by simp [hstage]) ?_ rfl rfl rfl rfl rfl fun _ hentry => hentry
      rintro later other ⟨⟩ hother
      cases hother
  | publish id addr len =>
      obtain ⟨load, hload, hraw, hinside, rfl⟩ := step_publish hstep
      rcases hinv.publishExecutable_eq hload hinside with ⟨hsame, -⟩ | ⟨rest, -, htaken⟩
      · rw [hsame]
        refine effect_of_load hload (by simp [hraw]) ?_ (Function.update_eq_self _ _).symm rfl rfl rfl
          rfl fun _ hentry => hentry
        exact fun _ _ _ _ => ⟨addr, len, rfl⟩
      · rw [htaken]
        exact effect_of_load hload (by simp [hraw]) (fun _ _ _ _ => ⟨addr, len, rfl⟩) rfl rfl rfl rfl
          rfl fun _ hentry => hentry
  | claim id => exact effect_claim hstep
  | finish id ok =>
      obtain ⟨load, hload, hraw, rfl⟩ := step_finish hstep
      rw [recheck]
      split
      · refine effect_of_load hload (by simp [hraw]) ?_ rfl rfl rfl rfl rfl fun _ hentry => hentry
        rintro later other ⟨⟩
      · refine effect_of_load hload (by simp [hraw]) ?_ rfl rfl rfl rfl rfl fun _ hentry => hentry
        rintro later other ⟨⟩ hother
        cases hother
  | unmap id =>
      obtain ⟨load, region, ok, hload, hstage, rfl⟩ := step_unmap hstep
      refine effect_of_load hload (by simp [hstage]) ?_ rfl rfl rfl rfl rfl
        fun _ hentry => List.mem_append_left _ hentry
      rintro later other ⟨⟩
  | dropEngine engine =>
      cases hhook : state.engines engine with
      | none => simp [step, hhook] at hstep
      | some hook =>
          simp only [step, hhook] at hstep
          split at hstep
          case isFalse => cases hstep
          case isTrue hallowed =>
            obtain rfl := Option.some.inj hstep
            refine effect_of_engine (fun before hbefore => ?_) rfl rfl rfl rfl rfl fun _ hentry => hentry
            obtain rfl := Option.some.inj (hhook.symm.trans hbefore)
            exact ⟨fun hlabel => absurd rfl hlabel, fun _ _ hregion => hregion⟩
  | unmapOwned engine =>
      cases hhook : state.engines engine with
      | none => simp [step, hhook] at hstep
      | some hook =>
          simp only [step, hhook] at hstep
          split at hstep
          case h_2 => cases hstep
          case h_1 region rest hdropped howned =>
            obtain rfl := Option.some.inj hstep
            refine effect_of_engine (fun before hbefore => ?_) rfl rfl rfl rfl rfl
              fun _ hentry => List.mem_append_left _ hentry
            obtain rfl := Option.some.inj (hhook.symm.trans hbefore)
            exact ⟨fun _ => rfl, fun hlive => by simp [hdropped] at hlive⟩

/-! ## The invariant -/

/-- The code of a load lies in its mapping, which the engine owns or is about to. -/
def InMapping (state : State) (code : Code) : Prop :=
  ∃ id region, code.load = some id ∧ region.contains code.addr code.len = true ∧
    (region ∈ state.held (.engine code.engine) ∨ ∃ load, state.loads id = some load ∧
      load.stage = .publishing region ∧ load.engine = code.engine)

/-- Code in ordinary memory keeps clear of the mappings, and was made executable. -/
def InStock (published : Published) (code : Code) : Prop :=
  code.load = none ∧
    (∀ region ∈ published.memory.live, code.clearOf region.base region.len = true) ∧
    ∀ addr, code.addr ≤ addr → addr < code.addr + code.len →
      protection published.changes addr = some .readExecute

/-- Two texts in ordinary memory have no address in common. -/
def StockApart (left right : Code) : Prop :=
  left.load = none → right.load = none →
    rangesApart left.addr left.len right.addr right.len = true

structure CodeOk (published : Published) (code : Code) : Prop where
  hook : ∃ hook, published.memory.engines code.engine = some hook ∧ hook.dropped = false
  len : 0 < code.len ∧ code.addr + code.len ≤ usizeMax
  place : InMapping published.memory code ∨ InStock published code

structure Sound (published : Published) : Prop where
  memory : Inv published.memory
  codes : ∀ code ∈ published.codes, CodeOk published code
  stock : published.codes.Pairwise StockApart
  claims : ∀ {region engine}, (region, engine) ∈ published.memory.claims → region.id ∈ published.used
  publishing : ∀ {id load region}, published.memory.loads id = some load →
    load.stage = .publishing region → id ∈ published.used
  mapJitTotal : published.mapJitTotal = published.memory.claims.length
  fallbackTotal : published.fallbackTotal =
    published.changes.countP (·.protection = .readExecute)

theorem sound_start : Sound {} where
  memory := inv_start
  codes := nofun
  stock := .nil
  claims := nofun
  publishing := nofun
  mapJitTotal := rfl
  fallbackTotal := rfl

variable {published after : Published} {code : Code} {addr len : Nat}

/-! ## What the hook finds -/

theorem contains_iff (hlen : addr + len ≤ usizeMax) :
    region.contains addr len = true ↔ region.base ≤ addr ∧ addr + len ≤ region.base + region.len := by
  have hsum : saturatingAdd addr len = addr + len := Nat.min_eq_left hlen
  simp [Region.contains, hsum]

/-- What keeps clear of a mapping is not inside it. -/
theorem not_contains_of_apart (hpos : 0 < len) (hlen : addr + len ≤ usizeMax)
    (hapart : rangesApart region.base region.len addr len = true) :
    region.contains addr len = false := by
  rw [← Bool.not_eq_true, contains_iff hlen]
  simp only [rangesApart, Bool.or_eq_true, decide_eq_true_iff] at hapart
  omega

theorem rangesApart_comm {left leftLen right rightLen : Nat} :
    rangesApart left leftLen right rightLen = rangesApart right rightLen left leftLen :=
  Bool.or_comm _ _

theorem live_of_owned (hinv : Inv state) {engine : Nat}
    (howned : region ∈ state.held (.engine engine)) : region ∈ state.live := by
  refine mem_live.mpr ⟨hinv.custody.made howned, fun hgone => ?_⟩
  cases hinv.custody.sole howned hgone

theorem live_of_pending (hinv : Inv state) (hpending : region ∈ state.pending) : region ∈ state.live :=
  mem_live.mpr ⟨hinv.pending_made hpending, hinv.pending_not_gone hpending⟩

/-- The hook of an engine knows the code of its loads from that in ordinary memory. -/
theorem owns_iff (hsound : Sound published) (hcode : code ∈ published.codes)
    {hook : MapJitCodeMemory} (hhook : published.memory.engines code.engine = some hook)
    (hdone : published.publishing code = false) :
    (hook.owned.any fun region => region.contains code.addr code.len) = code.load.isSome := by
  obtain ⟨-, ⟨hpos, hlen⟩, hplace⟩ := hsound.codes code hcode
  rcases hplace with ⟨id, region, hload, hcontains, hwhere⟩ | ⟨hstock, hclear, -⟩
  · rw [hload, Option.isSome_some, List.any_eq_true]
    rcases hwhere with howned | ⟨load, hat, hstage, -⟩
    · exact ⟨region, held_engine hhook ▸ howned, hcontains⟩
    · simp [Published.publishing, hload, hat, hstage] at hdone
  · rw [hstock, Option.isSome_none, List.any_eq_false]
    intro region hregion
    have howned : region ∈ published.memory.held (.engine code.engine) :=
      (held_engine hhook).symm ▸ hregion
    have hapart := hclear region (live_of_owned hsound.memory howned)
    rw [Code.clearOf, hstock, Option.isSome_none, Bool.false_or, rangesApart_comm] at hapart
    simp [not_contains_of_apart hpos hlen hapart]

/-- A load that has not published finds its mapping in the queue. -/
theorem Sound.pending (hsound : Sound published) {id : Nat} {load : Load}
    (hload : published.memory.loads id = some load) (hraw : load.stage = .raw)
    (hfresh : id ∉ published.used) : load.region ∈ published.memory.pending := by
  by_contra hnot
  have howned := hsound.memory.owned_of_raw hload hraw hnot
  apply hfresh
  rw [← hsound.memory.region_id hload]
  exact hsound.claims (hsound.memory.owned howned)

/-! ## Changes of protection -/

theorem protection_append {changes : List Change} {change : Change} {addr : Nat} :
    protection (changes ++ [change]) addr =
      if change.covers addr then some change.protection else protection changes addr := by
  rw [protection, List.filter_append]
  cases hcovers : change.covers addr with
  | true => simp [hcovers]
  | false => simp [hcovers, protection]

/-- A change elsewhere leaves a text executable. -/
theorem protection_elsewhere {changes : List Change} {change : Change}
    (hapart : rangesApart code.addr code.len change.addr change.len = true) {addr : Nat}
    (hfirst : code.addr ≤ addr) (hlast : addr < code.addr + code.len) :
    protection (changes ++ [change]) addr = protection changes addr := by
  rw [protection_append, if_neg]
  simp only [rangesApart, Bool.or_eq_true, decide_eq_true_iff] at hapart
  simp only [Change.covers, Bool.and_eq_true, decide_eq_true_iff]
  omega

theorem stockApart_comm {left right : Code} (hapart : StockApart left right) :
    StockApart right left := by
  intro hright hleft
  rw [rangesApart_comm]
  exact hapart hleft hright

/-! ## One step keeps it -/

/-- Published code stays as it is in a step of the mappings that leaves its engine there
and maps nothing over it. -/
theorem codeOk_effect (hsound : Sound published) (hcode : code ∈ published.codes)
    (hkept : label ≠ .dropEngine code.engine)
    (hmap : ∀ engine base bytesLen, label = .map engine base bytesLen →
      code.clearOf base (mappingLen page bytesLen) = true)
    (hstep : step page published.memory label = some next) :
    CodeOk { published with memory := next } code := by
  obtain ⟨⟨hook, hhook, hlive⟩, hlen, hplace⟩ := hsound.codes code hcode
  have heffect := effect_of_step hsound.memory hstep
  obtain ⟨later, hlater, hdropped, howned⟩ := heffect.hooks hhook
  refine ⟨⟨later, hlater, (hdropped hkept).trans hlive⟩, hlen, ?_⟩
  rcases hplace with ⟨id, region, hload, hcontains, hwhere⟩ | ⟨hstock, hclear, hexecutable⟩
  · refine Or.inl ⟨id, region, hload, hcontains, ?_⟩
    rcases hwhere with hheld | ⟨load, hat, hstage, hengine⟩
    · rw [held_engine hhook] at hheld
      exact Or.inl (held_engine hlater ▸ howned hlive region hheld)
    · by_cases hclaim : label = .claim id
      · subst hclaim
        obtain ⟨other, taken, hookBefore, hother, htaken, hbefore, rfl⟩ := step_claim hstep
        obtain rfl := Option.some.inj (hat.symm.trans hother)
        obtain rfl := Stage.publishing.inj (hstage.symm.trans htaken)
        refine Or.inl ?_
        rw [← hengine, held_engine (Function.update_self _ _ _)]
        exact List.mem_append_right _ (List.mem_singleton_self _)
      · exact Or.inr ⟨load, heffect.publishing hat hstage hclaim, hstage, hengine⟩
  · refine Or.inr ⟨hstock, fun region hregion => ?_, hexecutable⟩
    rcases heffect.live region hregion with hbefore | ⟨engine, bytesLen, hlabel, hlength⟩
    · exact hclear region hbefore
    · rw [hlength]
      exact hmap engine region.base bytesLen hlabel

theorem Sound.claims_step (hsound : Sound published)
    (hstep : step page published.memory label = some next) {engine : Nat}
    (hclaim : (region, engine) ∈ next.claims) : region.id ∈ published.used := by
  rcases (effect_of_step hsound.memory hstep).claims.2 hclaim with hbefore | ⟨id, load, hload, hstage⟩
  · exact hsound.claims hbefore
  · have hhands : load.stage.hands = [region] := by rw [hstage, Stage.hands]
    rw [hsound.memory.hands_eq hload hhands, hsound.memory.region_id hload]
    exact hsound.publishing hload hstage

theorem sound_memory (hsound : Sound published) (hallows : published.allows page label = true)
    (hstep : step page published.memory label = some next) :
    Sound { published with memory := next, mapJitTotal := published.mapJitTotal + claimed label } where
  memory := inv_step hsound.memory hstep
  codes := by
    intro code hcode
    have hok : CodeOk { published with memory := next } code := by
      refine codeOk_effect hsound hcode ?_ ?_ hstep
      · rintro rfl
        have hall := List.all_eq_true.mp hallows code hcode
        simp at hall
      · rintro engine base bytesLen rfl
        exact List.all_eq_true.mp hallows code hcode
    exact ⟨hok.hook, hok.len, hok.place⟩
  stock := hsound.stock
  claims := hsound.claims_step hstep
  publishing := by
    intro id load region hload hstage
    rcases (effect_of_step hsound.memory hstep).published hload hstage with hbefore | ⟨addr, len, rfl⟩
    · exact hsound.publishing hbefore hstage
    · cases hallows
  mapJitTotal := by
    rw [(effect_of_step hsound.memory hstep).claims.1, hsound.mapJitTotal]
  fallbackTotal := hsound.fallbackTotal

/-! ## The text of a load -/

/-- The hook finds the mapping of the load, so that no protection is changed. -/
theorem publish_eq (hsound : Sound published)
    (hpublish : published.publish page id addr len = some after) :
    ∃ load memory, published.memory.loads id = some load ∧ load.textInside addr len = true ∧
      step page published.memory (.publish id addr len) = some memory ∧
      memory.loads id = some { load with stage := .publishing load.region } ∧
      after = { published with
        memory
        codes := published.codes ++ [{ engine := load.engine, addr, len, load := some id }]
        used := id :: published.used } := by
  rw [Published.publish] at hpublish
  split at hpublish
  case isTrue => cases hpublish
  case isFalse hfresh =>
    cases hstep : step page published.memory (.publish id addr len) with
    | none =>
        rw [hstep] at hpublish
        cases hpublish
    | some memory =>
        obtain ⟨load, hload, hraw, hinside, hmemory⟩ := step_publish hstep
        have hpending := hsound.pending hload hraw hfresh
        have hown := hsound.memory.contains_own hload hinside
        rcases hsound.memory.publishExecutable_eq hload hinside with ⟨-, hnot⟩ | ⟨rest, -, htaken⟩
        · exact absurd hpending hnot
        · refine ⟨load, memory, hload, hinside, rfl, ?_, ?_⟩
          · rw [hmemory, htaken]
            exact Function.update_self _ _ _
          · cases hfound : takePending (fun region => region.contains addr len)
              published.memory.pending with
            | none =>
                have hfails := takePending_eq_none hfound _ hpending
                rw [hown] at hfails
                cases hfails
            | some found =>
                simp only [hstep, hload, hfound] at hpublish
                exact (Option.some.inj hpublish).symm

theorem sound_publish (hsound : Sound published)
    (hpublish : published.publish page id addr len = some after) : Sound after := by
  obtain ⟨load, memory, hload, hinside, hstep, hafter, rfl⟩ := publish_eq hsound hpublish
  have heffect := effect_of_step hsound.memory hstep
  constructor
  case memory => exact inv_step hsound.memory hstep
  case codes =>
    intro code hcode
    rcases List.mem_append.mp hcode with hbefore | hlast
    · have hok : CodeOk { published with memory } code :=
        codeOk_effect hsound hbefore (fun hlabel => by cases hlabel) (fun _ _ _ hlabel => by cases hlabel)
          hstep
      exact ⟨hok.hook, hok.len, hok.place⟩
    · obtain rfl := List.mem_singleton.mp hlast
      have hinv := inv_step hsound.memory hstep
      refine ⟨(hinv.loads hafter).hook, ?_, Or.inl ⟨id, load.region, rfl, ?_, ?_⟩⟩
      · have hfits := (hsound.memory.loads hload).fits
        have hmax := (hsound.memory.sized _ (hsound.memory.region_made hload)).2
        simp only [Load.textInside, Bool.and_eq_true, decide_eq_true_iff] at hinside
        obtain ⟨⟨hpos, -⟩, hend⟩ := hinside
        have hsum : addr + len ≤ usizeMax := by omega
        exact ⟨hpos, hsum⟩
      · exact hsound.memory.contains_own hload hinside
      · exact Or.inr ⟨_, hafter, rfl, rfl⟩
  case stock =>
    refine List.pairwise_append.mpr ⟨hsound.stock, List.pairwise_singleton _ _, ?_⟩
    intro left _ right hright _ hnone
    obtain rfl := List.mem_singleton.mp hright
    cases hnone
  case claims => exact fun hclaim => List.mem_cons_of_mem _ (hsound.claims_step hstep hclaim)
  case publishing =>
    intro other otherLoad region hother hstage
    rcases heffect.published hother hstage with hbefore | ⟨_, _, hlabel⟩
    · exact List.mem_cons_of_mem _ (hsound.publishing hbefore hstage)
    · obtain ⟨rfl, -, -⟩ := Label.publish.inj hlabel
      exact List.mem_cons_self ..
  case mapJitTotal => exact hsound.mapJitTotal.trans heffect.claims.1.symm
  case fallbackTotal => exact hsound.fallbackTotal

/-! ## Text in ordinary memory -/

/-- The hook finds no mapping for a text that is apart from them all. -/
theorem publishStock_eq (hsound : Sound published) {engine : Nat}
    (hpublish : published.publishStock engine addr len = some after) :
    ∃ hook, published.memory.engines engine = some hook ∧ hook.dropped = false ∧
      (0 < len ∧ addr + len ≤ usizeMax) ∧
      (∀ region ∈ published.memory.live, rangesApart region.base region.len addr len = true) ∧
      (∀ code ∈ published.codes, code.clearOf addr len = true) ∧
      after = { published with
        codes := published.codes ++ [{ engine, addr, len, load := none }]
        changes := published.changes ++ [{ addr, len, protection := .readExecute }]
        fallbackTotal := published.fallbackTotal + 1 } := by
  rw [Published.publishStock] at hpublish
  cases hhook : published.memory.engines engine with
  | none =>
      rw [hhook] at hpublish
      cases hpublish
  | some hook =>
      simp only [hhook] at hpublish
      split at hpublish
      case isFalse => cases hpublish
      case isTrue hallowed =>
        simp only [Bool.and_eq_true, Bool.not_eq_true', decide_eq_true_iff, List.all_eq_true] at hallowed
        obtain ⟨⟨⟨⟨hlive, hpos⟩, hmax⟩, hapart⟩, hclear⟩ := hallowed
        refine ⟨hook, rfl, hlive, ⟨hpos, hmax⟩, hapart, hclear, ?_⟩
        cases hfound : takePending (fun region => region.contains addr len)
          published.memory.pending with
        | none =>
            rw [hfound] at hpublish
            exact (Option.some.inj hpublish).symm
        | some found =>
            obtain ⟨region, rest⟩ := found
            obtain ⟨hcontains, hperm⟩ := takePending_eq_some hfound
            have hpending := hperm.mem_iff.mpr (List.mem_cons_self ..)
            have hfails := not_contains_of_apart hpos hmax
              (hapart region (live_of_pending hsound.memory hpending))
            rw [hcontains] at hfails
            cases hfails

/-- Code stays as it is when the protection of other pages is changed. -/
theorem codeOk_protect (hok : CodeOk published code) {change : Change}
    (hclear : code.clearOf change.addr change.len = true)
    (hmemory : after.memory = published.memory)
    (hchanges : after.changes = published.changes ++ [change]) : CodeOk after code := by
  refine ⟨hmemory ▸ hok.hook, hok.len, ?_⟩
  rcases hok.place with hmapping | ⟨hstock, hlive, hexecutable⟩
  · exact Or.inl (hmemory ▸ hmapping)
  · refine Or.inr ⟨hstock, hmemory ▸ hlive, fun other hfirst hlast => ?_⟩
    rw [Code.clearOf, hstock, Option.isSome_none, Bool.false_or] at hclear
    rw [hchanges, protection_elsewhere hclear hfirst hlast]
    exact hexecutable other hfirst hlast

theorem sound_publishStock (hsound : Sound published) {engine : Nat}
    (hpublish : published.publishStock engine addr len = some after) : Sound after := by
  obtain ⟨hook, hhook, hlive, hlen, hapart, hclear, rfl⟩ := publishStock_eq hsound hpublish
  constructor
  case memory => exact hsound.memory
  case codes =>
    intro code hcode
    rcases List.mem_append.mp hcode with hbefore | hlast
    · exact codeOk_protect (hsound.codes code hbefore) (hclear code hbefore) rfl rfl
    · obtain rfl := List.mem_singleton.mp hlast
      refine ⟨⟨hook, hhook, hlive⟩, hlen, Or.inr ⟨rfl, fun region hregion => ?_, ?_⟩⟩
      · rw [Code.clearOf, Option.isSome_none, Bool.false_or, rangesApart_comm]
        exact hapart region hregion
      · intro other hfirst hlast
        rw [protection_append, if_pos]
        simp only [Change.covers, Bool.and_eq_true, decide_eq_true_iff]
        exact ⟨hfirst, hlast⟩
  case stock =>
    refine List.pairwise_append.mpr ⟨hsound.stock, List.pairwise_singleton _ _, ?_⟩
    intro left hleft right hright hleftNone _
    obtain rfl := List.mem_singleton.mp hright
    have hapartLeft := hclear left hleft
    rwa [Code.clearOf, hleftNone, Option.isSome_none, Bool.false_or] at hapartLeft
  case claims => exact hsound.claims
  case publishing => exact hsound.publishing
  case mapJitTotal => exact hsound.mapJitTotal
  case fallbackTotal =>
    rw [List.countP_append, hsound.fallbackTotal]
    rfl

/-! ## Code that is dropped -/

theorem unpublish_eq (hsound : Sound published) {index : Nat}
    (hunpublish : published.unpublish index = some after) :
    ∃ code, published.codes[index]? = some code ∧
      ((code.load.isSome = true ∧ after = { published with codes := published.codes.eraseIdx index }) ∨
        (code.load = none ∧ after = { published with
          codes := published.codes.eraseIdx index
          changes := published.changes ++
            [{ addr := code.addr, len := code.len, protection := .readWrite }] })) := by
  rw [Published.unpublish] at hunpublish
  cases hcode : published.codes[index]? with
  | none =>
      rw [hcode] at hunpublish
      cases hunpublish
  | some code =>
      simp only [hcode] at hunpublish
      split at hunpublish
      case h_2 => cases hunpublish
      case h_1 hook hhook hdone =>
        rw [owns_iff hsound (List.mem_of_getElem? hcode) hhook hdone] at hunpublish
        refine ⟨code, rfl, ?_⟩
        cases hload : code.load with
        | some id =>
            rw [hload, Option.isSome_some, if_pos rfl] at hunpublish
            exact Or.inl ⟨rfl, (Option.some.inj hunpublish).symm⟩
        | none =>
            rw [hload, Option.isSome_none, if_neg Bool.false_ne_true] at hunpublish
            exact Or.inr ⟨rfl, (Option.some.inj hunpublish).symm⟩

/-- The other texts in ordinary memory are apart from one of them. -/
theorem stockApart_others (hstock : published.codes.Pairwise StockApart) {index : Nat}
    (hcode : published.codes[index]? = some code) :
    ∀ other ∈ published.codes.eraseIdx index, StockApart other code := by
  obtain ⟨hlt, rfl⟩ := List.getElem?_eq_some_iff.mp hcode
  have hperm := List.getElem_cons_eraseIdx_perm hlt
  have hpairs := hperm.symm.pairwise hstock stockApart_comm
  exact fun other hother => stockApart_comm (List.rel_of_pairwise_cons hpairs hother)

theorem sound_unpublish (hsound : Sound published) {index : Nat}
    (hunpublish : published.unpublish index = some after) : Sound after := by
  obtain ⟨code, hcode, ⟨-, rfl⟩ | ⟨hnone, rfl⟩⟩ := unpublish_eq hsound hunpublish
  · constructor
    case memory => exact hsound.memory
    case codes =>
      intro other hother
      have hok := hsound.codes other (List.mem_of_mem_eraseIdx hother)
      exact ⟨hok.hook, hok.len, hok.place⟩
    case stock => exact hsound.stock.sublist (List.eraseIdx_sublist _ _)
    case claims => exact hsound.claims
    case publishing => exact hsound.publishing
    case mapJitTotal => exact hsound.mapJitTotal
    case fallbackTotal => exact hsound.fallbackTotal
  · constructor
    case memory => exact hsound.memory
    case codes =>
      intro other hother
      refine codeOk_protect (hsound.codes other (List.mem_of_mem_eraseIdx hother)) ?_ rfl rfl
      cases hload : other.load with
      | some id => simp [Code.clearOf, hload]
      | none =>
          rw [Code.clearOf, hload, Option.isSome_none, Bool.false_or]
          exact stockApart_others hsound.stock hcode other hother hload hnone
    case stock => exact hsound.stock.sublist (List.eraseIdx_sublist _ _)
    case claims => exact hsound.claims
    case publishing => exact hsound.publishing
    case mapJitTotal => exact hsound.mapJitTotal
    case fallbackTotal =>
      rw [List.countP_append, hsound.fallbackTotal]
      rfl

/-! ## Whole runs -/

theorem sound_step {action : Action} (hsound : Sound published)
    (hstep : published.step page action = some after) : Sound after := by
  cases action with
  | memory label =>
      simp only [Published.step] at hstep
      split at hstep
      case isFalse => cases hstep
      case isTrue hallows =>
        obtain ⟨next, hnext, rfl⟩ := Option.map_eq_some_iff.mp hstep
        exact sound_memory hsound hallows hnext
  | publish id addr len => exact sound_publish hsound hstep
  | publishStock engine addr len => exact sound_publishStock hsound hstep
  | unpublish index => exact sound_unpublish hsound hstep

theorem sound_run {actions : List Action}
    (hrun : run (Published.step page) {} actions = some published) : Sound published :=
  run_preserves (fun _ _ _ hsound hstep => sound_step hsound hstep) sound_start hrun

/-- The mapping of published code is not unmapped. -/
theorem live_of_inMapping (hinv : Inv state) (hplace : InMapping state code) :
    ∃ region ∈ state.live, region.contains code.addr code.len = true := by
  obtain ⟨id, region, -, hcontains, hwhere⟩ := hplace
  refine ⟨region, ?_, hcontains⟩
  rcases hwhere with howned | ⟨load, hload, hstage, -⟩
  · exact live_of_owned hinv howned
  · have hhands : load.stage.hands = [region] := by rw [hstage, Stage.hands]
    rw [hinv.hands_eq hload hhands]
    exact mem_live.mpr ⟨hinv.region_made hload, hinv.not_gone hload⟩

/-- What a step adds to the changes of protection is apart from every mapping. -/
theorem changes_step (hsound : Sound published) {action : Action}
    (hstep : published.step page action = some after) :
    ∃ changed : List Change, after.changes = published.changes ++ changed ∧
      ∀ change ∈ changed, ∀ region ∈ published.memory.live,
        rangesApart region.base region.len change.addr change.len = true := by
  cases action with
  | memory label =>
      simp only [Published.step] at hstep
      split at hstep
      case isFalse => cases hstep
      case isTrue hallows =>
        obtain ⟨next, hnext, rfl⟩ := Option.map_eq_some_iff.mp hstep
        exact ⟨[], (List.append_nil _).symm, nofun⟩
  | publish id addr len =>
      obtain ⟨load, memory, hload, hinside, hnext, hafter, rfl⟩ := publish_eq hsound hstep
      exact ⟨[], (List.append_nil _).symm, nofun⟩
  | publishStock engine addr len =>
      obtain ⟨hook, hhook, hlive, hlen, hapart, hclear, rfl⟩ := publishStock_eq hsound hstep
      refine ⟨_, rfl, fun change hchange => ?_⟩
      obtain rfl := List.mem_singleton.mp hchange
      exact hapart
  | unpublish index =>
      obtain ⟨code, hcode, ⟨-, rfl⟩ | ⟨hnone, rfl⟩⟩ := unpublish_eq hsound hstep
      · exact ⟨[], (List.append_nil _).symm, nofun⟩
      · refine ⟨_, rfl, fun change hchange region hregion => ?_⟩
        obtain rfl := List.mem_singleton.mp hchange
        have hplace := (hsound.codes code (List.mem_of_getElem? hcode)).place
        rcases hplace with ⟨id, other, hload, -⟩ | ⟨-, hclear, -⟩
        · cases hnone.symm.trans hload
        · have hapart := hclear region hregion
          rwa [Code.clearOf, hnone, Option.isSome_none, Bool.false_or, rangesApart_comm] at hapart

/-- What the hooks have published, and what they do next. -/
structure Executable (page : ℕ+) (published : Published) : Prop where
  /-- The text of a load is inside a mapping of its engine, which is not unmapped; of any
  other text every address was last made executable. -/
  codes : ∀ code ∈ published.codes,
    (code.load.isSome = true ∧ InMapping published.memory code ∧
      ∃ region ∈ published.memory.live, region.contains code.addr code.len = true) ∨
    (code.load = none ∧ ∀ addr, code.addr ≤ addr → addr < code.addr + code.len →
      protection published.changes addr = some .readExecute)
  /-- No protection is changed inside a mapping, whatever is published or dropped. -/
  changes : ∀ {action after}, published.step page action = some after →
    ∃ changed : List Change, after.changes = published.changes ++ changed ∧
      ∀ change ∈ changed, ∀ region ∈ published.memory.live,
        rangesApart region.base region.len change.addr change.len = true
  /-- Only text in ordinary memory is made writable again when it is dropped. -/
  unpublish : ∀ {index after}, published.unpublish index = some after →
    ∃ code, published.codes[index]? = some code ∧ after.memory = published.memory ∧
      after.codes = published.codes.eraseIdx index ∧
      after.changes = published.changes ++ (if code.load.isSome then []
        else [{ addr := code.addr, len := code.len, protection := .readWrite }])
  /-- `publish_counts` tells the texts from mappings and those in ordinary memory apart. -/
  counts : published.mapJitTotal = published.memory.claims.length ∧
    published.fallbackTotal = published.changes.countP (·.protection = .readExecute)

/-- In every interleaving of loads, publishes and drops the published code stays
executable where it lies, and what is dropped touches no other code. -/
theorem executable_of_run {actions : List Action}
    (hrun : run (Published.step page) {} actions = some published) : Executable page published := by
  have hsound : Sound published := sound_run hrun
  constructor
  case codes =>
    intro code hcode
    rcases (hsound.codes code hcode).place with hmapping | ⟨hnone, -, hexecutable⟩
    · obtain ⟨id, region, hload, hplace⟩ := hmapping
      refine Or.inl ⟨by rw [hload, Option.isSome_some], ⟨id, region, hload, hplace⟩, ?_⟩
      exact live_of_inMapping hsound.memory ⟨id, region, hload, hplace⟩
    · exact Or.inr ⟨hnone, hexecutable⟩
  case changes => exact changes_step hsound
  case unpublish =>
    intro index after hunpublish
    obtain ⟨code, hcode, ⟨hsome, rfl⟩ | ⟨hnone, rfl⟩⟩ := unpublish_eq hsound hunpublish
    · exact ⟨code, hcode, rfl, rfl, by rw [if_pos hsome, List.append_nil]⟩
    · exact ⟨code, hcode, rfl, rfl, by rw [hnone, Option.isSome_none, if_neg Bool.false_ne_true]⟩
  case counts => exact ⟨hsound.mapJitTotal, hsound.fallbackTotal⟩

/-- One engine publishes the text of a load and one in ordinary memory, then drops both. -/
def twoTexts : List Action :=
  [.memory (.openEngine 0), .memory (.map 0 0x10000 5000), .memory (.queue 0), .publish 0 0x10040 4000,
    .publishStock 0 0x40000 100, .memory (.claim 0), .memory (.finish 0 true), .unpublish 0, .unpublish 0]

theorem executable_of_run_example : ∃ published, run (Published.step 4096) {} twoTexts = some published ∧
    published.changes = [⟨0x40000, 100, .readExecute⟩, ⟨0x40000, 100, .readWrite⟩] ∧
    Executable 4096 published := by
  have hchanges : (run (Published.step 4096) {} twoTexts).map Published.changes =
      some [⟨0x40000, 100, .readExecute⟩, ⟨0x40000, 100, .readWrite⟩] := by
    decide
  obtain ⟨published, hrun, hpublished⟩ := Option.map_eq_some_iff.mp hchanges
  exact ⟨published, hrun, hpublished, executable_of_run hrun⟩

end HellohqRuntime.Jit.Publishing

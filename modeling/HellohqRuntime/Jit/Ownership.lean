import HellohqRuntime.Foundation.Runs
import HellohqRuntime.Jit.Invariant

/-!
# Who holds a mapping

In every interleaving of loads and engine drops a mapping is in the hands of its load,
in the queue or with one engine, until it is unmapped.
-/

namespace HellohqRuntime.Jit.Ownership

open HellohqRuntime.Foundation.Custody
open HellohqRuntime.Foundation.Runs
open HellohqRuntime.Jit.Memory
open HellohqRuntime.Jit.Invariant

variable {page : ℕ+} {state next : State} {id : Nat} {load : Load} {region : Region}

/-! ## Engines -/

theorem held_setEngine {engine : Nat} {hook : MapJitCodeMemory}
    (howned : state.held (.engine engine) = hook.owned) :
    (state.setEngine engine hook).held = state.held := by
  funext place
  cases place with
  | load id => rfl
  | pending => rfl
  | gone => rfl
  | engine other =>
      by_cases hother : other = engine
      · subst hother
        rw [howned]
        exact held_engine (Function.update_self _ _ _)
      · exact held_engine_ne rfl hother

/-- The hook of an engine without loads is made or dropped, with the mappings it has. -/
theorem inv_setEngine (hinv : Inv state) {engine : Nat} {hook : MapJitCodeMemory}
    (howned : state.held (.engine engine) = hook.owned)
    (hidle : ∀ id load, state.loads id = some load → load.engine ≠ engine)
    (hdropped : ∀ before, state.engines engine = some before → before.dropped = true →
      hook.dropped = true) : Inv (state.setEngine engine hook) := by
  have hheld := held_setEngine howned
  constructor
  case custody =>
    rw [hheld]
    exact hinv.custody
  case ids => exact hinv.ids
  case sized => exact hinv.sized
  case apart => exact hinv.apart
  case loads =>
    intro id load hload
    obtain ⟨hmade, hfits, hhook, hhands, hplace⟩ := hinv.loads hload
    refine ⟨hmade, hfits, ?_, hhands, hheld ▸ hplace⟩
    obtain ⟨before, hbefore, hkept⟩ := hhook
    exact ⟨before, (Function.update_of_ne (hidle id load hload) _ _).trans hbefore, hkept⟩
  case pending => exact hinv.pending
  case owned =>
    intro other region hregion
    rw [hheld] at hregion
    exact hinv.owned hregion
  case claims =>
    intro region other hclaim
    rw [hheld]
    exact hinv.claims hclaim
  case returned => exact hinv.returned
  case gone =>
    intro region cause hgone
    have hcause := hinv.gone hgone
    cases cause with
    | loadFailed => exact hcause
    | neverPublished => exact hcause
    | engineDropped other =>
        obtain ⟨hclaim, before, hbefore, hbeforeDropped⟩ := hcause
        refine ⟨hclaim, ?_⟩
        by_cases hother : other = engine
        · subst hother
          exact ⟨hook, Function.update_self _ _ _, hdropped before hbefore hbeforeDropped⟩
        · exact ⟨before, (Function.update_of_ne hother _ _).trans hbefore, hbeforeDropped⟩

theorem inv_openEngine (hinv : Inv state) {engine : Nat} (hnone : state.engines engine = none) :
    Inv (state.setEngine engine {}) := by
  apply inv_setEngine hinv
  · rw [State.held, hnone]
  · intro id load hload heq
    obtain ⟨hook, hhook, -⟩ := (hinv.loads hload).hook
    rw [heq, hnone] at hhook
    cases hhook
  · intro before hbefore
    rw [hnone] at hbefore
    cases hbefore

theorem inv_dropEngine (hinv : Inv state) {engine : Nat} {hook : MapJitCodeMemory}
    (hhook : state.engines engine = some hook) (hidle : state.idle engine = true) :
    Inv (state.setEngine engine { hook with dropped := true }) := by
  apply inv_setEngine hinv
  · exact (held_engine hhook).trans rfl
  · exact fun id load hload => hinv.engine_ne_of_idle hidle hload
  · exact fun _ _ _ => rfl

/-! ## A new mapping -/

theorem ids_append (hinv : Inv state) (hid : region.id = state.made.length) {other : Region}
    (hother : (state.made ++ [region])[id]? = some other) : other.id = id := by
  rcases Nat.lt_or_ge id state.made.length with hlt | hge
  · rw [List.getElem?_append_left hlt] at hother
    exact hinv.ids hother
  · rw [List.getElem?_append_right hge, List.getElem?_singleton] at hother
    split at hother
    · obtain rfl := Option.some.inj hother
      omega
    · cases hother

/-- A mapping apart from the live ones keeps the live ones apart. -/
theorem apart_append (hinv : Inv state)
    (hlive : ∀ other ∈ state.live, region.disjoint other = true) :
    ∀ left ∈ state.made ++ [region], ∀ right ∈ state.made ++ [region], left ≠ right →
      left ∉ state.held .gone → right ∉ state.held .gone → left.disjoint right = true := by
  intro left hleft right hright hne hleftGone hrightGone
  rcases List.mem_append.mp hleft with hleftBefore | hleftLast
  · rcases List.mem_append.mp hright with hrightBefore | hrightLast
    · exact hinv.apart left hleftBefore right hrightBefore hne hleftGone hrightGone
    · rw [List.mem_singleton.mp hrightLast]
      exact disjoint_comm (hlive left (mem_live.mpr ⟨hleftBefore, hleftGone⟩))
  · rw [List.mem_singleton.mp hleftLast] at hne ⊢
    rcases List.mem_append.mp hright with hrightBefore | hrightLast
    · exact hlive right (mem_live.mpr ⟨hrightBefore, hrightGone⟩)
    · exact absurd (List.mem_singleton.mp hrightLast).symm hne

/-- The new mapping is in the hands of its load. -/
theorem arrival_map (hnone : state.loads region.id = none) (hstage : load.stage = .mapped region)
    (hloads : next.loads = Function.update state.loads region.id (some load))
    (hpending : next.pending = state.pending) (hengines : next.engines = state.engines)
    (hgone : next.gone = state.gone) :
    Arrival state.held next.held (.load region.id) region := by
  constructor
  · rw [held_load (by rw [hloads, Function.update_self]), hstage, State.held, hnone]
    exact List.Perm.refl _
  · intro place hplace
    cases place with
    | load other => exact held_load_ne hloads fun heq => hplace (congrArg Place.load heq)
    | pending => exact hpending
    | engine engine => rw [State.held, State.held, hengines]
    | gone => rw [State.held, State.held, hgone]

/-- A load goes on as it was where a new mapping comes. -/
theorem loadOk_arrival (hinv : Inv state) (hload : state.loads id = some load) {target : Place}
    (harrival : Arrival state.held next.held target region)
    (hmade : next.made = state.made ++ [region]) (hengines : next.engines = state.engines) :
    LoadOk next id load := by
  obtain ⟨hmadeAt, hfits, hhook, hhands, place, hplace, hwhere⟩ := hinv.loads hload
  refine ⟨?_, hfits, hengines ▸ hhook, hhands, place, ?_, hwhere⟩
  · rw [hmade, List.getElem?_append_left (hinv.lt_made hload)]
    exact hmadeAt
  · exact harrival.mem_iff.mpr (Or.inr hplace)

theorem inv_map (hinv : Inv state) (hid : region.id = state.made.length)
    (hbytes : max load.bytesLen 1 ≤ region.len) (hend : region.base + region.len ≤ usizeMax)
    (hlive : ∀ other ∈ state.live, region.disjoint other = true)
    (hhook : ∃ hook, state.engines load.engine = some hook ∧ hook.dropped = false)
    (hregion : load.region = region) (hstage : load.stage = .mapped region)
    (hloads : next.loads = Function.update state.loads region.id (some load))
    (hmade : next.made = state.made ++ [region]) (hpending : next.pending = state.pending)
    (hengines : next.engines = state.engines) (hclaims : next.claims = state.claims)
    (hreturned : next.returned = state.returned) (hgone : next.gone = state.gone) : Inv next := by
  have hnone : state.loads region.id = none := hid ▸ hinv.loads_length
  have harrival := arrival_map hnone hstage hloads hpending hengines hgone
  have hheldGone : next.held .gone = state.held .gone := by rw [State.held, State.held, hgone]
  have hheldEngine : ∀ engine, next.held (.engine engine) = state.held (.engine engine) := by
    intro engine
    rw [State.held, State.held, hengines]
  constructor
  case custody => exact hmade ▸ hinv.custody.arrival (hinv.not_made hid) harrival
  case ids =>
    intro id other hother
    rw [hmade] at hother
    exact ids_append hinv hid hother
  case sized =>
    intro other hother
    rw [hmade] at hother
    rcases List.mem_append.mp hother with hbefore | hlast
    · exact hinv.sized other hbefore
    · obtain rfl := List.mem_singleton.mp hlast
      exact ⟨by omega, hend⟩
  case apart =>
    rw [hmade, hheldGone]
    exact apart_append hinv hlive
  case loads =>
    intro id other hother
    rw [hloads] at hother
    by_cases hsame : id = region.id
    · subst hsame
      rw [Function.update_self] at hother
      obtain rfl := Option.some.inj hother
      refine ⟨?_, ?_, hengines ▸ hhook, ?_, .load region.id, ?_, Or.inl rfl⟩
      · rw [hmade, hid, hregion, List.getElem?_concat_length]
      · rw [hregion]
        omega
      · rw [hstage, hregion]
        exact fun other hother => List.mem_singleton.mp hother
      · rw [hregion]
        exact harrival.mem_iff.mpr (Or.inl ⟨rfl, rfl⟩)
    · rw [Function.update_of_ne hsame] at hother
      exact loadOk_arrival hinv hother harrival hmade hengines
  case pending =>
    intro other hother
    rw [hpending] at hother
    obtain ⟨owner, howner, hsame, hraw⟩ := hinv.pending other hother
    refine ⟨owner, ?_, hsame, hraw⟩
    rw [hloads, Function.update_of_ne, howner]
    intro heq
    rw [heq, hnone] at howner
    cases howner
  case owned =>
    intro engine other howned
    rw [hheldEngine] at howned
    rw [hclaims]
    exact hinv.owned howned
  case claims =>
    intro other engine hclaim
    rw [hclaims] at hclaim
    rw [hheldEngine, hgone]
    exact hinv.claims hclaim
  case returned =>
    intro other ok hentry
    rw [hreturned] at hentry
    obtain ⟨hbefore, hnoLoad⟩ := hinv.returned hentry
    rw [hmade, hloads, Function.update_of_ne (hinv.id_ne hid hbefore)]
    exact ⟨List.mem_append_left _ hbefore, hnoLoad⟩
  case gone =>
    intro other cause hentry
    rw [hgone] at hentry
    exact (hinv.gone hentry).mono (enginesKept_of_eq hengines)
      (fun entry hold => hreturned ▸ hold) (fun engine => by rw [hclaims])

/-! ## A mapping that moves -/

/-- The mapping of a load moves and the load changes; what is left to show is about the
load itself, the queue and the records. -/
theorem inv_move (hinv : Inv state) (hload : state.loads id = some load) {after : Option Load}
    (hloads : next.loads = Function.update state.loads id after) {source target : Place}
    (hhandover : Handover state.held next.held source target [load.region])
    (hmade : next.made = state.made) (hkept : EnginesKept state next)
    (hafter : ∀ changed, after = some changed → LoadOk next id changed)
    (hpending : ∀ region ∈ next.pending, (region ∈ state.pending ∧ region ≠ load.region) ∨
      ∃ changed, after = some changed ∧ region = load.region ∧ changed.region = load.region ∧
        changed.stage = .raw)
    (howned : ∀ {engine region}, region ∈ next.held (.engine engine) →
      (region, engine) ∈ next.claims)
    (hclaims : ∀ {region engine}, (region, engine) ∈ next.claims →
      region ∈ next.held (.engine engine) ∨ (region, .engineDropped engine) ∈ next.gone)
    (hreturned : ∀ {region : Region} {ok : Bool}, (region, ok) ∈ next.returned →
      region ∈ next.made ∧ next.loads region.id = none)
    (hgone : ∀ {region cause}, (region, cause) ∈ next.gone → CauseOk next region cause) :
    Inv next := by
  have hstays : ∀ region place, region ≠ load.region → region ∈ state.held place →
      region ∈ next.held place :=
    fun region place hne => hhandover.stays hinv.custody (mt List.mem_singleton.mp hne)
  constructor
  case custody => exact hmade ▸ hinv.custody.handover hhandover
  case ids =>
    rw [hmade]
    exact hinv.ids
  case sized =>
    rw [hmade]
    exact hinv.sized
  case apart =>
    apply hinv.apart_next hmade
    intro region hregion
    apply hstays region .gone _ hregion
    rintro rfl
    exact hinv.not_gone hload hregion
  case loads => exact loads_next hinv hload hloads hmade hkept hstays hafter
  case pending => exact pending_next hinv hload hloads hpending
  case owned => exact howned
  case claims => exact hclaims
  case returned => exact hreturned
  case gone => exact hgone

/-! ## The queue -/

/-- The queue and the loads are all that changes. -/
structure Queueing (state next : State) : Prop where
  engines : next.engines = state.engines
  made : next.made = state.made
  claims : next.claims = state.claims
  returned : next.returned = state.returned
  gone : next.gone = state.gone

theorem Queueing.held_engine (hkept : Queueing state next) (engine : Nat) :
    next.held (.engine engine) = state.held (.engine engine) := by
  rw [State.held, State.held, hkept.engines]

theorem Queueing.held_gone (hkept : Queueing state next) :
    next.held .gone = state.held .gone := by
  rw [State.held, State.held, hkept.gone]

theorem Queueing.held_other (hkept : Queueing state next) {after : Option Load}
    (hloads : next.loads = Function.update state.loads id after) {place : Place}
    (hload : place ≠ .load id) (hpending : place ≠ .pending) :
    next.held place = state.held place := by
  cases place with
  | load other => exact held_load_ne hloads fun heq => hload (congrArg Place.load heq)
  | pending => exact absurd rfl hpending
  | engine engine => exact hkept.held_engine engine
  | gone => exact hkept.held_gone

/-- The mapping of a load goes between its hands and the queue. -/
theorem inv_queueing (hinv : Inv state) (hload : state.loads id = some load)
    (hkept : Queueing state next) {stage : Stage}
    (hloads : next.loads = Function.update state.loads id (some { load with stage := stage }))
    {source target : Place}
    (hhandover : Handover state.held next.held source target [load.region])
    (htarget : target = .load id ∨ target = .pending)
    (hhands : ∀ region ∈ stage.hands, region = load.region)
    (hpending : ∀ region ∈ next.pending, (region ∈ state.pending ∧ region ≠ load.region) ∨
      region = load.region ∧ stage = .raw) : Inv next := by
  apply inv_move hinv hload hloads hhandover hkept.made (enginesKept_of_eq hkept.engines)
  case hafter =>
    intro changed hchanged
    obtain rfl := Option.some.inj hchanged
    obtain ⟨hmade, hfits, hhook, -, -⟩ := hinv.loads hload
    refine ⟨hkept.made ▸ hmade, hfits, hkept.engines ▸ hhook, hhands, target, ?_, ?_⟩
    · exact hhandover.arrived (List.mem_singleton_self _)
    · exact htarget.imp_right Or.inl
  case hpending =>
    intro region hregion
    exact (hpending region hregion).imp_right fun hboth => ⟨_, rfl, hboth.1, rfl, hboth.2⟩
  case howned =>
    intro engine region howned
    rw [hkept.held_engine] at howned
    rw [hkept.claims]
    exact hinv.owned howned
  case hclaims =>
    intro region engine hclaim
    rw [hkept.claims] at hclaim
    rw [hkept.held_engine, hkept.gone]
    exact hinv.claims hclaim
  case hreturned =>
    intro region ok hreturned
    rw [hkept.returned] at hreturned
    rw [hkept.made]
    exact returned_next hinv hload hloads hreturned
  case hgone =>
    intro region cause hgone
    rw [hkept.gone] at hgone
    exact (hinv.gone hgone).mono (enginesKept_of_eq hkept.engines)
      (fun entry hentry => hkept.returned ▸ hentry) (fun engine => by rw [hkept.claims])

/-- The load queues its mapping. -/
theorem inv_enqueue (hinv : Inv state) (hload : state.loads id = some load)
    (hkept : Queueing state next) (hhands : load.stage.hands = [load.region])
    (hloads : next.loads = Function.update state.loads id (some { load with stage := .raw }))
    (hpending : next.pending = state.pending ++ [load.region]) : Inv next := by
  have hhandover : Handover state.held next.held (.load id) .pending [load.region] := by
    refine ⟨nofun, ?_, ?_, fun place => hkept.held_other hloads⟩
    · have hafter : next.held (.load id) = [] := by
        rw [held_load (by rw [hloads, Function.update_self])]
        rfl
      rw [held_load hload, hhands, hafter, List.append_nil]
    · change next.pending.Perm ([load.region] ++ state.pending)
      rw [hpending]
      exact List.perm_append_comm
  apply inv_queueing hinv hload hkept hloads hhandover (Or.inr rfl) nofun
  intro region hregion
  rw [hpending] at hregion
  rcases List.mem_append.mp hregion with hbefore | hlast
  · refine Or.inl ⟨hbefore, ?_⟩
    rintro rfl
    exact hinv.not_pending hload hhands hbefore
  · exact Or.inr ⟨List.mem_singleton.mp hlast, rfl⟩

/-- The load, or the hook that it calls, takes its mapping out of the queue. -/
theorem inv_dequeue (hinv : Inv state) (hload : state.loads id = some load)
    (hkept : Queueing state next) (hraw : load.stage = .raw) {stage : Stage}
    (hhands : stage.hands = [load.region])
    (hloads : next.loads = Function.update state.loads id (some { load with stage := stage }))
    (hperm : state.pending.Perm (load.region :: next.pending)) : Inv next := by
  have hhandover : Handover state.held next.held .pending (.load id) [load.region] := by
    refine ⟨nofun, hperm, ?_, fun place hpending hplace => hkept.held_other hloads hplace hpending⟩
    rw [held_load (by rw [hloads, Function.update_self]), held_load hload, hraw, hhands]
    rfl
  apply inv_queueing hinv hload hkept hloads hhandover (Or.inl rfl)
  · intro region hregion
    rw [hhands] at hregion
    exact List.mem_singleton.mp hregion
  · intro region hregion
    have hnodup := hperm.nodup_iff.mp (hinv.custody.nodup .pending)
    refine Or.inl ⟨hperm.mem_iff.mpr (List.mem_cons_of_mem _ hregion), ?_⟩
    rintro rfl
    exact (List.nodup_cons.mp hnodup).1 hregion

/-! ## Claims -/

/-- The mapping goes from the hands of the load into the list of the hook. -/
theorem handover_claim (hload : state.loads id = some load)
    (hhands : load.stage.hands = [load.region]) {hook : MapJitCodeMemory}
    (hhook : state.engines load.engine = some hook)
    (hloads : next.loads = Function.update state.loads id (some { load with stage := .raw }))
    (hengines : next.engines = Function.update state.engines load.engine
      (some { hook with owned := hook.owned ++ [load.region] }))
    (hpending : next.pending = state.pending) (hgone : next.gone = state.gone) :
    Handover state.held next.held (.load id) (.engine load.engine) [load.region] := by
  constructor
  · intro heq
    cases heq
  · rw [held_load hload, hhands, held_load (by rw [hloads, Function.update_self])]
    exact List.Perm.refl _
  · rw [held_engine hhook, held_engine (by rw [hengines, Function.update_self])]
    exact List.perm_append_comm
  · intro place hplace hother
    cases place with
    | load other => exact held_load_ne hloads fun heq => hplace (congrArg Place.load heq)
    | pending => exact hpending
    | engine other => exact held_engine_ne hengines fun heq => hother (congrArg Place.engine heq)
    | gone => rw [State.held, State.held, hgone]

/-- The hook puts the mapping that it took out of the queue into its list. -/
theorem inv_claim (hinv : Inv state) (hload : state.loads id = some load)
    (hhands : load.stage.hands = [load.region]) {hook : MapJitCodeMemory}
    (hhook : state.engines load.engine = some hook)
    (hloads : next.loads = Function.update state.loads id (some { load with stage := .raw }))
    (hengines : next.engines = Function.update state.engines load.engine
      (some { hook with owned := hook.owned ++ [load.region] }))
    (hclaims : next.claims = state.claims ++ [(load.region, load.engine)])
    (hpending : next.pending = state.pending) (hmade : next.made = state.made)
    (hreturned : next.returned = state.returned) (hgone : next.gone = state.gone) : Inv next := by
  have hhandover := handover_claim hload hhands hhook hloads hengines hpending hgone
  have hkept : EnginesKept state next := enginesKept_update hhook hengines rfl
  have hheld : load.region ∈ state.held (.load id) :=
    hhandover.mem_source (List.mem_singleton_self _)
  -- the mapping was claimed by nobody, so what other entries say is what they said
  have hnotClaimed : ∀ engine, (load.region, engine) ∉ state.claims :=
    hinv.not_claimed hheld (Or.inl ⟨id, rfl⟩)
  apply inv_move hinv hload hloads hhandover hmade hkept
  case hafter =>
    intro changed hchanged
    obtain rfl := Option.some.inj hchanged
    obtain ⟨hmadeAt, hfits, ⟨before, hbefore, hdropped⟩, -, -⟩ := hinv.loads hload
    obtain ⟨later, hlater, hsame⟩ := hkept _ _ hbefore
    refine ⟨hmade ▸ hmadeAt, hfits, ⟨later, hlater, hsame.trans hdropped⟩, ?_,
      .engine load.engine, ?_, Or.inr (Or.inr rfl)⟩
    · intro region hregion
      cases hregion
    · exact hhandover.arrived (List.mem_singleton_self _)
  case hpending =>
    intro region hregion
    rw [hpending] at hregion
    refine Or.inl ⟨hregion, ?_⟩
    rintro rfl
    exact hinv.not_pending hload hhands hregion
  case howned =>
    intro engine region howned
    rw [hclaims]
    rcases (hhandover.mem_iff hinv.custody).mp howned with ⟨hregion, hengine⟩ | ⟨-, hbefore⟩
    · obtain rfl := List.mem_singleton.mp hregion
      obtain rfl := Place.engine.inj hengine
      exact List.mem_append_right _ (List.mem_singleton_self _)
    · exact List.mem_append_left _ (hinv.owned hbefore)
  case hclaims =>
    intro region engine hclaim
    rw [hclaims] at hclaim
    rcases List.mem_append.mp hclaim with hbefore | hlast
    · have hne : region ≠ load.region := by
        rintro rfl
        exact hnotClaimed engine hbefore
      refine (hinv.claims hbefore).imp ?_ fun hentry => hgone ▸ hentry
      exact hhandover.stays hinv.custody (mt List.mem_singleton.mp hne)
    · obtain ⟨rfl, rfl⟩ := Prod.mk.inj (List.mem_singleton.mp hlast)
      exact Or.inl (hhandover.arrived (List.mem_singleton_self _))
  case hreturned =>
    intro region ok hentry
    rw [hreturned] at hentry
    rw [hmade]
    exact returned_next hinv hload hloads hentry
  case hgone =>
    intro region cause hentry
    rw [hgone] at hentry
    apply (hinv.gone hentry).mono hkept fun entry hold => hreturned ▸ hold
    intro engine
    have hne : region ≠ load.region := by
      rintro rfl
      exact hinv.not_gone hload (List.mem_map_of_mem hentry)
    simp [hclaims, hne]

/-! ## Returns -/

/-- The load returns, with its mapping at the engine that claimed it. -/
theorem inv_return (hinv : Inv state) (hload : state.loads id = some load)
    (hraw : load.stage = .raw) (hnotPending : load.region ∉ state.pending) {ok : Bool} :
    Inv { state.setLoad id none with returned := state.returned ++ [(load.region, ok)] } := by
  let next : State := { state.setLoad id none with
    returned := state.returned ++ [(load.region, ok)] }
  have hloads : next.loads = Function.update state.loads id none := rfl
  have hheld : next.held = state.held := by
    funext place
    cases place with
    | load other =>
        by_cases hother : other = id
        · subst hother
          rw [held_load hload, hraw, State.held, hloads, Function.update_self]
          rfl
        · exact held_load_ne hloads hother
    | pending => rfl
    | engine engine => rfl
    | gone => rfl
  have hkept : EnginesKept state next := enginesKept_of_eq rfl
  change Inv next
  constructor
  case custody =>
    rw [hheld]
    exact hinv.custody
  case ids => exact hinv.ids
  case sized => exact hinv.sized
  case apart => exact hinv.apart
  case loads =>
    apply loads_next hinv hload hloads rfl hkept
    · intro region place hne hplace
      rw [hheld]
      exact hplace
    · intro changed hchanged
      cases hchanged
  case pending =>
    apply pending_next hinv hload hloads
    intro region hregion
    refine Or.inl ⟨hregion, ?_⟩
    rintro rfl
    exact hnotPending hregion
  case owned => exact hinv.owned
  case claims => exact hinv.claims
  case returned => exact returned_append hinv hload hloads rfl rfl rfl
  case gone =>
    intro region cause hentry
    exact (hinv.gone hentry).mono hkept (fun _ hold => List.mem_append_left _ hold) fun _ => Iff.rfl

/-- The load unmaps what is in its hands. -/
theorem handover_unmap (hload : state.loads id = some load)
    (hhands : load.stage.hands = [load.region])
    (hloads : next.loads = Function.update state.loads id none)
    (hgone : next.held .gone = state.held .gone ++ [load.region])
    (hengines : next.engines = state.engines) (hpending : next.pending = state.pending) :
    Handover state.held next.held (.load id) .gone [load.region] := by
  constructor
  · intro heq
    cases heq
  · rw [held_load hload, hhands, State.held, hloads, Function.update_self]
    exact List.Perm.refl _
  · rw [hgone]
    exact List.perm_append_comm
  · intro place hplace hother
    cases place with
    | load other => exact held_load_ne hloads fun heq => hplace (congrArg Place.load heq)
    | pending => exact hpending
    | engine engine => rw [State.held, State.held, hengines]
    | gone => exact absurd rfl hother

/-- The load unmaps its mapping and returns. -/
theorem inv_unmap (hinv : Inv state) (hload : state.loads id = some load)
    (hhands : load.stage.hands = [load.region]) {ok : Bool}
    (hloads : next.loads = Function.update state.loads id none)
    (hreturned : next.returned = state.returned ++ [(load.region, ok)])
    (hgone : next.gone =
      state.gone ++ [(load.region, if ok then .neverPublished else .loadFailed)])
    (hengines : next.engines = state.engines) (hclaims : next.claims = state.claims)
    (hpending : next.pending = state.pending) (hmade : next.made = state.made) : Inv next := by
  have hhandover : Handover state.held next.held (.load id) .gone [load.region] :=
    handover_unmap hload hhands hloads (held_gone_append hgone) hengines hpending
  have hkept : EnginesKept state next := enginesKept_of_eq hengines
  have hmore : ∀ entry ∈ state.returned, entry ∈ next.returned :=
    fun entry hentry => hreturned ▸ List.mem_append_left _ hentry
  apply inv_move hinv hload hloads hhandover hmade hkept
  case hafter =>
    intro changed hchanged
    cases hchanged
  case hpending =>
    intro region hregion
    rw [hpending] at hregion
    refine Or.inl ⟨hregion, ?_⟩
    rintro rfl
    exact hinv.not_pending hload hhands hregion
  case howned =>
    intro engine region howned
    rw [State.held, hengines] at howned
    rw [hclaims]
    exact hinv.owned howned
  case hclaims =>
    intro region engine hclaim
    rw [hclaims] at hclaim
    rw [State.held, hengines, hgone]
    exact (hinv.claims hclaim).imp_right fun hentry => List.mem_append_left _ hentry
  case hreturned => exact returned_append hinv hload hloads hmade rfl hreturned
  case hgone =>
    intro region cause hentry
    rw [hgone] at hentry
    rcases List.mem_append.mp hentry with hbefore | hlast
    · exact (hinv.gone hbefore).mono hkept hmore fun engine => by rw [hclaims]
    · obtain ⟨rfl, rfl⟩ := Prod.mk.inj (List.mem_singleton.mp hlast)
      have hheld : load.region ∈ state.held (.load id) :=
        hhandover.mem_source (List.mem_singleton_self _)
      have hnotClaimed : ∀ engine, (load.region, engine) ∉ next.claims := by
        rw [hclaims]
        exact hinv.not_claimed hheld (Or.inl ⟨id, rfl⟩)
      have hlastReturned : (load.region, ok) ∈ next.returned := by
        rw [hreturned]
        exact List.mem_append_right _ (List.mem_singleton_self _)
      cases ok with
      | true => exact ⟨hlastReturned, hnotClaimed⟩
      | false => exact ⟨hlastReturned, hnotClaimed⟩

/-! ## Dropped engines -/

/-- A dropped engine unmaps the first mapping that it owns. -/
theorem handover_unmapOwned {engine : Nat} {hook : MapJitCodeMemory}
    (hhook : state.engines engine = some hook) {rest : List Region}
    (howned : hook.owned = region :: rest)
    (hengines : next.engines =
      Function.update state.engines engine (some { hook with owned := rest }))
    (hgone : next.held .gone = state.held .gone ++ [region])
    (hloads : next.loads = state.loads) (hpending : next.pending = state.pending) :
    Handover state.held next.held (.engine engine) .gone [region] := by
  constructor
  · intro heq
    cases heq
  · rw [held_engine hhook, howned, held_engine (by rw [hengines, Function.update_self])]
    exact List.Perm.refl _
  · rw [hgone]
    exact List.perm_append_comm
  · intro place hplace hother
    cases place with
    | load other => rw [State.held, State.held, hloads]
    | pending => exact hpending
    | engine other => exact held_engine_ne hengines fun heq => hplace (congrArg Place.engine heq)
    | gone => exact absurd rfl hother

theorem inv_unmapOwned (hinv : Inv state) {engine : Nat} {hook : MapJitCodeMemory}
    (hhook : state.engines engine = some hook) (hdropped : hook.dropped = true)
    {rest : List Region} (howned : hook.owned = region :: rest) :
    Inv { state.setEngine engine { hook with owned := rest } with
      gone := state.gone ++ [(region, .engineDropped engine)] } := by
  let next : State := { state.setEngine engine { hook with owned := rest } with
    gone := state.gone ++ [(region, .engineDropped engine)] }
  have hengines : next.engines =
    Function.update state.engines engine (some { hook with owned := rest }) := rfl
  have hmade : next.made = state.made := rfl
  have hhandover : Handover state.held next.held (.engine engine) .gone [region] :=
    handover_unmapOwned hhook howned hengines (held_gone_append rfl) rfl rfl
  have hkept : EnginesKept state next := enginesKept_update hhook hengines rfl
  have hheld : region ∈ state.held (.engine engine) :=
    hhandover.mem_source (List.mem_singleton_self _)
  change Inv next
  constructor
  case custody => exact hinv.custody.handover hhandover
  case ids => exact hinv.ids
  case sized => exact hinv.sized
  case apart =>
    apply hinv.apart_next hmade
    intro other hother
    exact hhandover.taken.mem_iff.mpr (List.mem_append_right _ hother)
  case loads =>
    intro id load hload
    change state.loads id = some load at hload
    apply (hinv.loads hload).mono hmade hkept
    intro place
    apply hhandover.stays hinv.custody
    intro hregion
    rw [← List.mem_singleton.mp hregion] at hheld
    exact hinv.not_owned_of_dropped hload hhook hdropped hheld
  case pending => exact hinv.pending
  case owned =>
    intro other region hregion
    rcases (hhandover.mem_iff hinv.custody).mp hregion with ⟨-, hplace⟩ | ⟨-, hbefore⟩
    · cases hplace
    · exact hinv.owned hbefore
  case claims =>
    intro claimed other hclaim
    rcases hinv.claims hclaim with hbefore | hentry
    · by_cases hsame : claimed = region
      · subst hsame
        obtain rfl := Place.engine.inj (hinv.custody.sole hbefore hheld)
        exact Or.inr (List.mem_append_right _ (List.mem_singleton_self _))
      · exact Or.inl (hhandover.stays hinv.custody (mt List.mem_singleton.mp hsame) hbefore)
    · exact Or.inr (List.mem_append_left _ hentry)
  case returned => exact hinv.returned
  case gone =>
    intro other cause hentry
    rcases List.mem_append.mp hentry with hbefore | hlast
    · exact (hinv.gone hbefore).mono hkept (fun _ hold => hold) fun _ => Iff.rfl
    · obtain ⟨rfl, rfl⟩ := Prod.mk.inj (List.mem_singleton.mp hlast)
      exact ⟨hinv.owned hheld, _, Function.update_self _ _ _, hdropped⟩

/-! ## One step -/

theorem inv_mapRegion (hinv : Inv state) {engine base bytesLen : Nat}
    (hmap : mapRegion page state engine base bytesLen = some next) : Inv next := by
  rw [mapRegion] at hmap
  cases hhook : state.engines engine with
  | none =>
      rw [hhook] at hmap
      cases hmap
  | some hook =>
      simp only [hhook] at hmap
      split at hmap
      case isFalse => cases hmap
      case isTrue hallowed =>
        simp only [Bool.and_eq_true, Bool.not_eq_true', decide_eq_true_iff] at hallowed
        obtain ⟨⟨hdropped, hend⟩, hlive⟩ := hallowed
        let region : Region := { id := state.made.length, base, len := mappingLen page bytesLen }
        obtain rfl := Option.some.inj hmap
        have hbytes : max bytesLen 1 ≤ region.len := le_mappingLen page bytesLen
        have hapart : ∀ other ∈ state.live, region.disjoint other = true :=
          List.all_eq_true.mp hlive
        let load : Load := { engine, region, bytesLen, stage := .mapped region }
        exact @inv_map state _ load region hinv rfl hbytes hend hapart ⟨hook, hhook, hdropped⟩
          rfl rfl rfl rfl rfl rfl rfl rfl rfl

theorem inv_publish (hinv : Inv state) (hload : state.loads id = some load)
    (hraw : load.stage = .raw) {addr len : Nat} (hinside : load.textInside addr len = true) :
    Inv (publishExecutable state id addr len load) := by
  rcases hinv.publishExecutable_eq hload hinside with ⟨hsame, -⟩ | ⟨rest, hperm, htaken⟩
  · rw [hsame]
    exact hinv
  · rw [htaken]
    exact inv_dequeue hinv hload ⟨rfl, rfl, rfl, rfl, rfl⟩ hraw rfl rfl hperm

theorem inv_recheck (hinv : Inv state) (hload : state.loads id = some load)
    (hraw : load.stage = .raw) {ok : Bool} : Inv (recheck state id ok load) := by
  have hsearch := takePending_own (beq_self_eq_true load.region.base)
    fun region hpending hbase => hinv.eq_of_base hload hpending (beq_iff_eq.mp hbase)
  rcases hsearch with ⟨htake, hnot⟩ | ⟨rest, htake, hperm⟩
  · simp only [recheck, htake]
    exact inv_return hinv hload hraw hnot
  · simp only [recheck, htake]
    exact inv_dequeue hinv hload ⟨rfl, rfl, rfl, rfl, rfl⟩ hraw rfl rfl hperm

/-- A mapping is queued by the load that made it. -/
theorem step_queue (hqueue : step page state (.queue id) = some next) :
    ∃ load region, state.loads id = some load ∧ load.stage = .mapped region ∧
      next = { state.setLoad id (some { load with stage := .raw }) with
        pending := state.pending ++ [region] } := by
  simp only [step] at hqueue
  split at hqueue
  case h_1 => cases hqueue
  case h_2 load hload =>
    split at hqueue
    case h_2 => cases hqueue
    case h_1 region hstage =>
      exact ⟨load, region, hload, hstage, (Option.some.inj hqueue).symm⟩

/-- A publish is made while the runtime loads, of a text in the memory it was given. -/
theorem step_publish {addr len : Nat} (hpublish : step page state (.publish id addr len) = some next) :
    ∃ load, state.loads id = some load ∧ load.stage = .raw ∧ load.textInside addr len = true ∧
      next = publishExecutable state id addr len load := by
  simp only [step] at hpublish
  split at hpublish
  case h_1 => cases hpublish
  case h_2 load hload =>
    split at hpublish
    case h_2 => cases hpublish
    case h_1 hstage =>
      split at hpublish
      case isFalse => cases hpublish
      case isTrue hinside => exact ⟨load, hload, hstage, hinside, (Option.some.inj hpublish).symm⟩

/-- The stage and the hook from which a claim is made. -/
theorem step_claim (hclaim : step page state (.claim id) = some next) :
    ∃ load region hook, state.loads id = some load ∧ load.stage = .publishing region ∧
      state.engines load.engine = some hook ∧
      next = { (state.setLoad id (some { load with stage := .raw })).setEngine load.engine
          { hook with owned := hook.owned ++ [region] } with
        claims := state.claims ++ [(region, load.engine)] } := by
  simp only [step] at hclaim
  split at hclaim
  case h_1 => cases hclaim
  case h_2 load hload =>
    split at hclaim
    case h_2 => cases hclaim
    case h_1 region hook hstage hhook =>
      exact ⟨load, region, hook, hload, hstage, hhook, (Option.some.inj hclaim).symm⟩

theorem step_finish {ok : Bool} (hfinish : step page state (.finish id ok) = some next) :
    ∃ load, state.loads id = some load ∧ load.stage = .raw ∧ next = recheck state id ok load := by
  simp only [step] at hfinish
  split at hfinish
  case h_1 => cases hfinish
  case h_2 load hload =>
    split at hfinish
    case h_2 => cases hfinish
    case h_1 hstage => exact ⟨load, hload, hstage, (Option.some.inj hfinish).symm⟩

/-- A mapping without a text is unmapped by the load that still has it. -/
theorem step_unmap (hunmap : step page state (.unmap id) = some next) :
    ∃ load region ok, state.loads id = some load ∧ load.stage = .unclaimed region ok ∧
      next = { state.setLoad id none with
        returned := state.returned ++ [(load.region, ok)]
        gone := state.gone ++ [(region, if ok then .neverPublished else .loadFailed)] } := by
  simp only [step] at hunmap
  split at hunmap
  case h_1 => cases hunmap
  case h_2 load hload =>
    split at hunmap
    case h_2 => cases hunmap
    case h_1 region ok hstage =>
      exact ⟨load, region, ok, hload, hstage, (Option.some.inj hunmap).symm⟩

theorem inv_step {label : Label} (hinv : Inv state) (hstep : step page state label = some next) :
    Inv next := by
  cases label with
  | openEngine engine =>
      cases hhook : state.engines engine with
      | some hook => simp [step, hhook] at hstep
      | none =>
          simp only [step, hhook, Option.some.injEq] at hstep
          exact hstep ▸ inv_openEngine hinv hhook
  | map engine base bytesLen => exact inv_mapRegion hinv hstep
  | queue id =>
      obtain ⟨load, region, hload, hstage, rfl⟩ := step_queue hstep
      have hhands : load.stage.hands = [region] := by rw [hstage, Stage.hands]
      obtain rfl := hinv.hands_eq hload hhands
      exact inv_enqueue hinv hload ⟨rfl, rfl, rfl, rfl, rfl⟩ hhands rfl rfl
  | publish id addr len =>
      obtain ⟨load, hload, hraw, hinside, rfl⟩ := step_publish hstep
      exact inv_publish hinv hload hraw hinside
  | claim id =>
      obtain ⟨load, region, hook, hload, hstage, hhook, rfl⟩ := step_claim hstep
      have hhands : load.stage.hands = [region] := by rw [hstage, Stage.hands]
      obtain rfl := hinv.hands_eq hload hhands
      exact inv_claim hinv hload hhands hhook rfl rfl rfl rfl rfl rfl rfl
  | finish id ok =>
      obtain ⟨load, hload, hstage, rfl⟩ := step_finish hstep
      exact inv_recheck hinv hload hstage
  | unmap id =>
      obtain ⟨load, region, ok, hload, hstage, rfl⟩ := step_unmap hstep
      have hhands : load.stage.hands = [region] := by rw [hstage, Stage.hands]
      obtain rfl := hinv.hands_eq hload hhands
      exact inv_unmap hinv hload hhands rfl rfl rfl rfl rfl rfl rfl
  | dropEngine engine =>
      cases hhook : state.engines engine with
      | none => simp [step, hhook] at hstep
      | some hook =>
          simp only [step, hhook] at hstep
          split at hstep
          case isFalse => cases hstep
          case isTrue hallowed =>
            obtain ⟨-, hidle⟩ := Bool.and_eq_true_iff.mp hallowed
            exact Option.some.inj hstep ▸ inv_dropEngine hinv hhook hidle
  | unmapOwned engine =>
      cases hhook : state.engines engine with
      | none => simp [step, hhook] at hstep
      | some hook =>
          simp only [step, hhook] at hstep
          split at hstep
          case h_2 => cases hstep
          case h_1 region rest hdropped howned =>
            exact Option.some.inj hstep ▸ inv_unmapOwned hinv hhook hdropped howned

theorem inv_run {labels : List Label} (hrun : run (step page) {} labels = some next) : Inv next :=
  run_preserves (fun _ _ _ hinv hstep => inv_step hinv hstep) inv_start hrun

/-! ## Ownership in every interleaving -/

/-- Who holds a mapping, what a publish takes and why a mapping is unmapped. -/
structure Owned (page : ℕ+) (state : State) : Prop where
  /-- Every mapping is in the hands of a load, in the queue, with one engine or unmapped,
  once and at one of these places only. -/
  custody : InCustody state.held state.made
  /-- What a load has in its hands is the mapping that it made. -/
  hands : ∀ {id load}, state.loads id = some load → ∀ region ∈ load.stage.hands,
    region = load.region
  /-- A publish takes the mapping of its own load and nothing else out of the queue, where
  the engine does not have that mapping already. -/
  publishes : ∀ {id addr len next}, step page state (.publish id addr len) = some next →
    ∃ load, state.loads id = some load ∧
      (state.pending.Perm (load.region :: next.pending) ∧
          next.loads id = some { load with stage := .publishing load.region } ∨
        next = state ∧ load.region ∈ state.held (.engine load.engine))
  /-- An engine comes to own the mapping of the load that publishes. -/
  claims : ∀ {id next}, step page state (.claim id) = some next →
    ∃ load, state.loads id = some load ∧ load.stage = .publishing load.region ∧
      load.region ∈ next.held (.engine load.engine) ∧
      next.claims = state.claims ++ [(load.region, load.engine)]
  /-- The mapping of a load that has returned is with an engine or unmapped. -/
  returned : ∀ {region ok}, (region, ok) ∈ state.returned → region ∉ state.pending ∧
    (region ∈ state.held .gone ∨ ∃ engine, region ∈ state.held (.engine engine))
  /-- A mapping is unmapped when its load failed or never published, or when the engine
  that claimed it was dropped. -/
  unmapped : ∀ {region cause}, (region, cause) ∈ state.gone → CauseOk state region cause

theorem publishes_own (hinv : Inv state) {addr len : Nat}
    (hpublish : step page state (.publish id addr len) = some next) :
    ∃ load, state.loads id = some load ∧
      (state.pending.Perm (load.region :: next.pending) ∧
          next.loads id = some { load with stage := .publishing load.region } ∨
        next = state ∧ load.region ∈ state.held (.engine load.engine)) := by
  obtain ⟨load, hload, hraw, hinside, rfl⟩ := step_publish hpublish
  refine ⟨load, hload, ?_⟩
  rcases hinv.publishExecutable_eq hload hinside with ⟨hsame, hnot⟩ | ⟨rest, hperm, htaken⟩
  · exact Or.inr ⟨hsame, hinv.owned_of_raw hload hraw hnot⟩
  · rw [htaken]
    exact Or.inl ⟨hperm, Function.update_self _ _ _⟩

theorem claims_own (hinv : Inv state) (hclaim : step page state (.claim id) = some next) :
    ∃ load, state.loads id = some load ∧ load.stage = .publishing load.region ∧
      load.region ∈ next.held (.engine load.engine) ∧
      next.claims = state.claims ++ [(load.region, load.engine)] := by
  obtain ⟨load, region, hook, hload, hstage, hhook, rfl⟩ := step_claim hclaim
  have hhands : load.stage.hands = [region] := by rw [hstage, Stage.hands]
  obtain rfl := hinv.hands_eq hload hhands
  refine ⟨load, hload, hstage, ?_, rfl⟩
  rw [held_engine (Function.update_self _ _ _)]
  exact List.mem_append_right _ (List.mem_singleton_self _)

/-- In every interleaving a mapping has one owner. -/
theorem owned_run {labels : List Label} {final : State}
    (hrun : run (step page) {} labels = some final) : Owned page final := by
  have hinv : Inv final := inv_run hrun
  constructor
  case custody => exact hinv.custody
  case hands => exact fun hload => (hinv.loads hload).hands
  case publishes => exact publishes_own hinv
  case claims => exact claims_own hinv
  case returned => exact hinv.place_of_returned
  case unmapped => exact hinv.gone

/-- Two engines load at once: the second load is published and owned, the first fails, and
then the engine of the second is dropped. -/
def twoLoads : List Label :=
  [.openEngine 0, .openEngine 1, .map 0 0x10000 5000, .map 1 0x20000 100, .queue 0, .queue 1,
    .publish 1 0x20000 64, .finish 0 false, .claim 1, .unmap 0, .finish 1 true, .dropEngine 1,
    .unmapOwned 1]

theorem owned_run_example : ∃ final, run (step 4096) {} twoLoads = some final ∧
    final.gone = [(⟨0, 0x10000, 8192⟩, .loadFailed), (⟨1, 0x20000, 4096⟩, .engineDropped 1)] ∧
    Owned 4096 final := by
  have hgone : (run (step 4096) {} twoLoads).map State.gone =
      some [(⟨0, 0x10000, 8192⟩, .loadFailed), (⟨1, 0x20000, 4096⟩, .engineDropped 1)] := by
    decide
  obtain ⟨final, hrun, hfinal⟩ := Option.map_eq_some_iff.mp hgone
  exact ⟨final, hrun, hfinal, owned_run hrun⟩

end HellohqRuntime.Jit.Ownership

import HellohqRuntime.Http.Effects

/-!
# What a request or response keeps of its construction

A request is constructed with headers and options, a response with headers.  In
a run that neither drops a handle to these entries while they say something nor
reuses an id that is in use, what the holder exposes, and what a call would put
into the request head, is what it was constructed with.
-/

namespace HellohqRuntime.Http.Retention

open HellohqRuntime.Foundation
open HellohqRuntime.Foundation.Runs
open HellohqRuntime.Http.Effects
open HellohqRuntime.Http.Handle
open HellohqRuntime.Http.Resources
open HellohqRuntime.Http.System
open HellohqRuntime.Http.Tables
open HellohqRuntime.Http.Types

/-! ## Holders -/

inductive Holder where
  | request (rep : Rep)
  | response (rep : Rep)
  deriving DecidableEq, Repr

/-- The reps of the headers and of the options, if the holder is in its table. -/
def holderReps (host : WasiHttpHost) : Holder → Option (Rep × Option Rep)
  | .request rep => (host.requests.get rep).map fun data => (data.headers, data.options)
  | .response rep => (host.responses.get rep).map fun data => (data.headers, none)

/-- The entries read through the handle that a fresh `get-headers` mints. -/
def exposedHeaders (host : WasiHttpHost) : Holder → List (FieldName × FieldValue)
  | .request rep =>
      let got := HostRequest.getHeaders host rep
      HostFields.copyAll got.2 got.1
  | .response rep =>
      let got := HostResponse.getHeaders host rep
      HostFields.copyAll got.2 got.1

/-- The holder exposes the entries, and a call on it would send them with the
timeouts. -/
def Retains (host : WasiHttpHost) (holder : Holder) (entries : List (FieldName × FieldValue))
    (timeouts : Timeouts) : Prop :=
  exposedHeaders host holder = entries ∧
    match holder with
    | .response _ => True
    | .request rep => ∃ parts, requestParts host rep = some parts ∧
        parts.headers = entries ∧ timeoutsOf parts.options = timeouts

/-- The step drops the holder or passes it on. -/
def Spends : Holder → Label → Prop
  | .request rep, .requestDrop other | .request rep, .requestConsumeBody other
  | .request rep, .handle other _ _ => other = rep
  | .response rep, .responseDrop other | .response rep, .responseConsumeBody other => other = rep
  | _, _ => False

/-- The step drops no handle to an entry of the holder that says something. -/
def Spares (holder : Holder) (world : World) : Label → Prop
  | .fieldsDrop rep => (holderReps world.host holder).map Prod.fst = some rep →
      entriesOf (world.host.fields.get rep) = []
  | .optionsDrop rep => (holderReps world.host holder).bind Prod.snd = some rep →
      timeoutsOf (world.host.options.get rep) = {}
  | _ => True

/-- The step spares the holder's entries and reuses no id. -/
def Undisturbed (holder : Holder) (world : World) (label : Label) : Prop :=
  Spares holder world label ∧ Fresh world label

/-- The handle to fields that a step drops. -/
def fieldsDropped : Label → Option Rep
  | .fieldsDrop rep => some rep
  | _ => none

/-- The handle to options that a step drops. -/
def optionsDropped : Label → Option Rep
  | .optionsDrop rep => some rep
  | _ => none

theorem spares_iff {holder : Holder} {world : World} {label : Label} :
    Spares holder world label ↔
      (∀ rep ∈ fieldsDropped label, (holderReps world.host holder).map Prod.fst = some rep →
        entriesOf (world.host.fields.get rep) = []) ∧
      ∀ rep ∈ optionsDropped label, (holderReps world.host holder).bind Prod.snd = some rep →
        timeoutsOf (world.host.options.get rep) = {} := by
  cases label <;> simp [Spares, fieldsDropped, optionsDropped]

-- The instances are given, since another one for `∀ rep` runs through every id.
instance decidableSpares (holder : Holder) (world : World) (label : Label) :
    Decidable (Spares holder world label) :=
  @decidable_of_iff' _ _ spares_iff
    (@instDecidableAnd _ _ (Option.decidableForallMem _) (Option.decidableForallMem _))

instance (holder : Holder) (world : World) (label : Label) :
    Decidable (Undisturbed holder world label) :=
  inferInstanceAs (Decidable (Spares holder world label ∧ Fresh world label))

/-- What a step constructs, and with which entries and timeouts. -/
def constructedWith (world : World) :
    Label → Option (Holder × List (FieldName × FieldValue) × Timeouts)
  | .requestNew headers _ _ options =>
      some (.request world.host.requests.next, HostFields.copyAll world.host headers,
        timeoutsOf (options.bind world.host.options.get))
  | .responseNew headers _ _ =>
      some (.response world.host.responses.next, HostFields.copyAll world.host headers, {})
  | .handle request fault trailersFault =>
      match world.host.transport, (handleSynthetic world.host request fault trailersFault).1 with
      | none, .ok response => some (.response response, syntheticEntries, {})
      | _, _ => none
  | .responseHead _ shown bodyFault trailersFault =>
      match world.inbound with
      | [] => none
      | frame :: _ =>
          match parseResponseHead shown frame with
          | .error _ => none
          | .ok head =>
              match (buildResponse world.host head .receiver bodyFault trailersFault).1 with
              | .error _ => none
              | .ok response => some (.response response, head.headers, {})
  | _ => none

/-! ## Both stores stay guarded -/

/-- Whoever names an entry next to its holder, or next to another handle, cannot
write it. -/
structure Sound (world : World) : Prop where
  fields : Ownership.Guarded FieldsData.immutable (fieldsView world)
  options : Ownership.Guarded RequestOptionsData.immutable (optionsView world)

theorem sound_start (host : WasiHttpHost) : Sound (World.start host) where
  fields := Ownership.guarded_nil
  options := Ownership.guarded_nil

variable {world next final : World} {label : Label} {holder : Holder}
variable {entries : List (FieldName × FieldValue)} {timeouts : Timeouts}

theorem sound_step (hsound : Sound world) (heffect : Effect world label next) : Sound next where
  fields := hsound.fields.of_step heffect.fields
  options := hsound.options.of_step heffect.options

/-! ## The entries of a holder -/

/-- The holder is in its table, over entries that say what is expected. -/
def Keeps (world : World) (holder : Holder) (entries : List (FieldName × FieldValue))
    (timeouts : Timeouts) : Prop :=
  ∃ headers options, holderReps world.host holder = some (headers, options) ∧
    entriesOf (world.host.fields.get headers) = entries ∧
    timeoutsOf (options.bind world.host.options.get) = timeouts

theorem headersHeld_of_holderReps {host : WasiHttpHost} {headers : Rep} {options : Option Rep}
    (hreps : holderReps host holder = some (headers, options)) : headersHeld host headers := by
  cases holder with
  | request rep =>
      simp only [holderReps, Option.map_eq_some_iff, Prod.mk.injEq] at hreps
      obtain ⟨data, hget, hheaders, -⟩ := hreps
      exact Or.inl ⟨rep, data, hget, hheaders⟩
  | response rep =>
      simp only [holderReps, Option.map_eq_some_iff, Prod.mk.injEq] at hreps
      obtain ⟨data, hget, hheaders, -⟩ := hreps
      exact Or.inr ⟨rep, data, hget, hheaders⟩

theorem optionsHeld_of_holderReps {host : WasiHttpHost} {headers options : Rep}
    (hreps : holderReps host holder = some (headers, some options)) :
    optionsHeld host options := by
  cases holder with
  | request rep =>
      simp only [holderReps, Option.map_eq_some_iff, Prod.mk.injEq] at hreps
      obtain ⟨data, hget, -, hoptions⟩ := hreps
      exact ⟨rep, data, hget, hoptions⟩
  | response rep => simp [holderReps] at hreps

theorem fresh_newRequest (hfresh : Fresh world label) (hnew : ∃ data, NewRequest label data) :
    world.host.requests.get world.host.requests.next = none := by
  obtain ⟨data, hnew⟩ := hnew
  cases label
  case requestNew headers contents trailers options => exact hfresh
  all_goals exact hnew.elim

theorem fresh_newResponse (hfresh : Fresh world label) (hnew : ∃ data, NewResponse world label data) :
    world.host.responses.get world.host.responses.next = none := by
  obtain ⟨data, hnew⟩ := hnew
  cases label
  case responseNew headers contents trailers => exact hfresh
  case handle request fault trailersFault => exact (hfresh hnew.1).2.2
  case responseHead index shown bodyFault trailersFault => exact hfresh.2.2
  all_goals exact hnew.elim

/-- A holder that is not spent keeps the reps it was constructed with. -/
theorem holderReps_step (heffect : Effect world label next) (hfresh : Fresh world label)
    (hspends : ¬Spends holder label) {reps : Rep × Option Rep}
    (hreps : holderReps world.host holder = some reps) :
    holderReps next.host holder = some reps := by
  cases holder with
  | request rep =>
      simp only [holderReps, Option.map_eq_some_iff] at hreps
      obtain ⟨data, hget, rfl⟩ := hreps
      refine heffect.requests.get_eq (fun value changed hsame => ?_) hget ?_
        (fresh_newRequest hfresh)
      · rw [hsame.1, hsame.2]
      · rintro rfl
        exact hspends rfl
  | response rep =>
      simp only [holderReps, Option.map_eq_some_iff] at hreps
      obtain ⟨data, hget, rfl⟩ := hreps
      refine heffect.responses.get_eq (fun value changed hsame => ?_) hget ?_
        (fresh_newResponse hfresh)
      · rw [show changed.headers = value.headers from hsame]
      · rintro rfl
        exact hspends rfl

/-- One undisturbed step that does not spend the holder. -/
theorem keeps_step (hsound : Sound world) (hkeeps : Keeps world holder entries timeouts)
    (hundisturbed : Undisturbed holder world label) (hspends : ¬Spends holder label)
    (hstep : world.step label = some next) : Keeps next holder entries timeouts := by
  obtain ⟨hspares, hfresh⟩ := hundisturbed
  obtain ⟨headers, options, hreps, hentries, htimeouts⟩ := hkeeps
  have heffect := step_effect hstep hfresh
  refine ⟨headers, options, holderReps_step heffect hfresh hspends hreps, ?_, ?_⟩
  · rw [← hentries]
    refine hsound.fields.content_eq heffect.fields (headersHeld_of_holderReps hreps) ?_
    rintro rfl
    exact hspares (by rw [hreps]; rfl)
  · rw [← htimeouts]
    cases options with
    | none => rfl
    | some rep =>
        refine hsound.options.content_eq heffect.options (optionsHeld_of_holderReps hreps) ?_
        rintro rfl
        exact hspares (by rw [hreps]; rfl)

/-- What is kept is what the holder exposes and a call would send. -/
theorem retains_of_keeps (hkeeps : Keeps world holder entries timeouts) :
    Retains world.host holder entries timeouts := by
  obtain ⟨headers, options, hreps, hentries, htimeouts⟩ := hkeeps
  have hfreeze : HostFields.copyAll (HostFields.freeze world.host headers) headers = entries := by
    rw [← hentries]
    simp only [HostFields.copyAll, HostFields.freeze, Table.get_modify_self, entriesOf,
      Option.map_map]
    rfl
  cases holder with
  | request rep =>
      simp only [holderReps, Option.map_eq_some_iff, Prod.mk.injEq] at hreps
      obtain ⟨data, hget, rfl, rfl⟩ := hreps
      refine ⟨?_, ?_⟩
      · simp only [exposedHeaders, HostRequest.getHeaders, HostRequest.read, hget, Option.map_some,
          Option.getD_some, hfreeze]
      · exact ⟨_, by rw [requestParts, hget]; rfl, hentries, htimeouts⟩
  | response rep =>
      simp only [holderReps, Option.map_eq_some_iff, Prod.mk.injEq] at hreps
      obtain ⟨data, hget, rfl, -⟩ := hreps
      refine ⟨?_, trivial⟩
      simp only [exposedHeaders, HostResponse.getHeaders, HostResponse.read, hget, Option.map_some,
        Option.getD_some, hfreeze]

/-- A response that is built is backed by the entries it is built from. -/
theorem keeps_built {base : World} {built : Except ErrorCode Rep × WasiHttpHost} {response : Rep}
    (hbuilt : Built world.host entries built) (hhost : base.host = built.2)
    (hresult : built.1 = .ok response) :
    Keeps (base.deliver (.ok response)) (.response response) entries {} := by
  rcases hbuilt.responses with
    ⟨error, herror, -⟩ | ⟨data, trailersRep, hok, hafter, hheaders, -, -⟩
  · rw [herror] at hresult
    cases hresult
  · rw [hok] at hresult
    cases hresult
    refine ⟨world.host.fields.next, none, ?_, ?_, rfl⟩
    · rw [World.deliver_host, hhost, holderReps, hafter, Table.get_insert_self, ← hheaders]
      rfl
    · rw [World.deliver_host, hhost, hbuilt.headers]
      rfl

/-- Right after its construction a holder has what it was constructed with. -/
theorem keeps_constructed
    (hconstructs : constructedWith world label = some (holder, entries, timeouts))
    (hstep : world.step label = some next) : Keeps next holder entries timeouts := by
  cases label
  case requestNew headers contents trailers options =>
      simp only [World.step, World.whenOwned_eq_some] at hstep
      obtain ⟨-, rfl⟩ := hstep
      simp only [constructedWith, Option.some.injEq, Prod.mk.injEq] at hconstructs
      obtain ⟨rfl, rfl, rfl⟩ := hconstructs
      refine ⟨headers, options, ?_, rfl, rfl⟩
      simp only [holderReps, World.gainRequest, HostRequest.new, Table.get_insert_self,
        Option.map_some]
  case responseNew headers contents trailers =>
      simp only [World.step, World.whenOwned_eq_some] at hstep
      obtain ⟨-, rfl⟩ := hstep
      simp only [constructedWith, Option.some.injEq, Prod.mk.injEq] at hconstructs
      obtain ⟨rfl, rfl, rfl⟩ := hconstructs
      refine ⟨headers, none, ?_, rfl, rfl⟩
      simp only [holderReps, World.gainResponse, HostResponse.new, Table.get_insert_self,
        Option.map_some]
  case handle request fault trailersFault =>
      simp only [World.step, World.whenOwned_eq_some] at hstep
      obtain ⟨-, rfl⟩ := hstep
      simp only [constructedWith] at hconstructs
      rcases world.startHandle_cases request fault trailersFault with
        ⟨transport, htransport, -⟩ | ⟨htransport, calls, herror, -⟩ |
          ⟨htransport, built, calls, hbuilt, heq, hnext⟩
      · simp [htransport] at hconstructs
      · simp [htransport, herror] at hconstructs
      · rw [htransport, heq] at hconstructs
        cases hresult : built.1 with
        | error error => simp [hresult] at hconstructs
        | ok response =>
            simp only [hresult, Option.some.injEq, Prod.mk.injEq] at hconstructs
            obtain ⟨rfl, rfl, rfl⟩ := hconstructs
            rw [hnext, hresult]
            refine keeps_built hbuilt ?_ hresult
            rfl
  case responseHead index shown bodyFault trailersFault =>
      obtain ⟨call, -, -, hreceive⟩ := World.responseHead_step hstep
      simp only [constructedWith] at hconstructs
      rcases World.receiveHeadAt_cases hreceive with
        ⟨hnone, -⟩ | ⟨frame, rest, head, built, hinbound, hparse, heq, rfl⟩
      · cases hinbound : world.inbound with
        | nil => simp [hinbound] at hconstructs
        | cons frame rest =>
            obtain ⟨error, hparse⟩ := hnone frame (by rw [hinbound]; rfl)
            simp [hinbound, hparse] at hconstructs
      · simp only [hinbound, hparse, heq] at hconstructs
        cases hresult : built.1 with
        | error error => simp [hresult] at hconstructs
        | ok response =>
            simp only [hresult, Option.some.injEq, Prod.mk.injEq] at hconstructs
            obtain ⟨rfl, rfl, rfl⟩ := hconstructs
            have hbuilt : Built world.host head.headers built := heq ▸
              built_buildResponse world.host head .receiver bodyFault trailersFault
            refine keeps_built hbuilt ?_ hresult
            rfl
  all_goals exact absurd hconstructs (by simp [constructedWith])

/-! ## Whole sessions -/

theorem sound_run {past : List Label}
    {host : WasiHttpHost} (hpast : run World.step (World.start host) past = some world)
    (hfresh : EachStep World.step Fresh (World.start host) past) : Sound world :=
  run_preserves_of_eachStep
    (fun _ _ _ hsound hnew hstep => sound_step hsound (step_effect hstep hnew))
    (sound_start host) hfresh hpast

/-- Through every undisturbed run a holder exposes, and a call on it would send,
what it was constructed with. -/
theorem retains_of_undisturbed {host : WasiHttpHost} {past rest : List Label}
    {constructed : World}
    (hpast : run World.step (World.start host) past = some world)
    (hpastFresh : EachStep World.step Fresh (World.start host) past)
    (hconstructs : constructedWith world label = some (holder, entries, timeouts))
    (hfresh : Fresh world label) (hstep : world.step label = some constructed)
    (hspends : ∀ later ∈ rest, ¬Spends holder later)
    (hundisturbed : EachStep World.step (Undisturbed holder) constructed rest)
    (hrun : run World.step constructed rest = some final) :
    Retains final.host holder entries timeouts := by
  have hsound := sound_step (sound_run hpast hpastFresh) (step_effect hstep hfresh)
  have hkeeps := keeps_constructed hconstructs hstep
  clear hpast hpastFresh hconstructs hfresh hstep
  induction rest generalizing constructed with
  | nil =>
      obtain rfl : constructed = final := by simpa using hrun
      exact retains_of_keeps hkeeps
  | cons later rest ih =>
      obtain ⟨middle, hmiddle, hrest⟩ := run_cons_eq_some.mp hrun
      rw [eachStep_cons hmiddle] at hundisturbed
      exact ih (fun other hother => hspends other (List.mem_cons_of_mem later hother))
        hundisturbed.2 hrest
        (sound_step hsound (step_effect hmiddle hundisturbed.1.2))
        (keeps_step hsound hkeeps hundisturbed.1 (hspends later List.mem_cons_self) hmiddle)

def oneHeader : List (FieldName × FieldValue) := [("authorization".toList, [0x78])]

/-- A request whose handles are read, next to a handle that is dropped. -/
theorem retains_of_undisturbed_example :
    ∃ final, Retains final (.request 1) oneHeader { connect := some 5 } :=
  ⟨_, @retains_of_undisturbed _ _ (.requestNew 1 none (.guest 0) (some 1)) _ _ _ .withTransport
    [.fieldsFromList oneHeader, .optionsNew, .optionsChange 1 (.connectTimeout (some 5))]
    [.requestGetHeaders 1, .fieldsRead 1, .requestGetOptions 1, .fieldsNew, .fieldsDrop 2,
      .fieldsChange 1 (.delete "authorization".toList)]
    _ rfl (by decide) rfl (by decide) rfl (by simp [Spends])
    (by decide) rfl⟩

/-- Dropping the handle that `get-headers` minted strips the request. -/
theorem not_retains_after_drop :
    ∃ world constructed final,
      run World.step (World.start .withTransport) [.fieldsFromList oneHeader] = some world ∧
      constructedWith world (.requestNew 1 none (.guest 0) none) =
        some (.request 1, oneHeader, {}) ∧
      world.step (.requestNew 1 none (.guest 0) none) = some constructed ∧
      (∀ later ∈ [.requestGetHeaders 1, .fieldsRead 1, .fieldsDrop 1],
        ¬Spends (.request 1) later) ∧
      run World.step constructed [.requestGetHeaders 1, .fieldsRead 1, .fieldsDrop 1] =
        some final ∧
      exposedHeaders final.host (.request 1) = [] ∧
      ¬Retains final.host (.request 1) oneHeader {} := by
  refine ⟨_, _, _, rfl, rfl, rfl, ?_, rfl, by decide, ?_⟩
  · simp [Spends]
  · intro hretains
    exact absurd hretains.1 (by decide)

end HellohqRuntime.Http.Retention

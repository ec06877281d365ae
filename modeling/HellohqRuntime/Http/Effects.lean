import HellohqRuntime.Foundation.Ownership
import HellohqRuntime.Http.System

/-!
# What a step does to the tables

A request or response names the entries of its headers and options by rep, and
hands out handles to the same entries.  Every step of a session is one step of
the ownership of the fields, one of the ownership of the options, and one step
of the two tables that hold them.
-/

namespace HellohqRuntime.Http.Effects

open HellohqRuntime.Foundation
open HellohqRuntime.Foundation.Runs
open HellohqRuntime.Foundation.Strings
open HellohqRuntime.Http.Handle
open HellohqRuntime.Http.Resources
open HellohqRuntime.Http.System
open HellohqRuntime.Http.Tables
open HellohqRuntime.Http.Types

/-! ## The two tables as owned stores -/

/-- The rep is the headers of some request or response. -/
def headersHeld (host : WasiHttpHost) (rep : Rep) : Prop :=
  (host.requests.Holds fun data => data.headers = rep) ∨
    host.responses.Holds fun data => data.headers = rep

/-- The rep is the options of some request. -/
def optionsHeld (host : WasiHttpHost) (rep : Rep) : Prop :=
  host.requests.Holds fun data => data.options = some rep

instance (host : WasiHttpHost) (rep : Rep) : Decidable (headersHeld host rep) := by
  unfold headersHeld; infer_instance

instance (host : WasiHttpHost) (rep : Rep) : Decidable (optionsHeld host rep) := by
  unfold optionsHeld; infer_instance

def fieldsView (world : World) : Ownership.View Rep FieldsData where
  lookup := world.host.fields.get
  owned := world.guest.fields ++ world.inFlight
  held := headersHeld world.host

def optionsView (world : World) : Ownership.View Rep RequestOptionsData where
  lookup := world.host.options.get
  owned := world.guest.options
  held := optionsHeld world.host

/-- The entries a reader sees under a rep. -/
def entriesOf (data : Option FieldsData) : List (FieldName × FieldValue) :=
  (data.map FieldsData.entries).getD []

structure Timeouts where
  connect : Option Duration := none
  firstByte : Option Duration := none
  betweenBytes : Option Duration := none
  deriving DecidableEq, Repr

/-- The timeouts a reader sees under a rep. -/
def timeoutsOf (data : Option RequestOptionsData) : Timeouts where
  connect := data.bind RequestOptionsData.connectTimeout
  firstByte := data.bind RequestOptionsData.firstByteTimeout
  betweenBytes := data.bind RequestOptionsData.betweenBytesTimeout

/-- A rep of `fields` that no handle and no holder names. -/
def UnusedFields (world : World) (rep : Rep) : Prop :=
  rep ∉ world.guest.fields ++ world.inFlight ∧ ¬headersHeld world.host rep

def UnusedOptions (world : World) (rep : Rep) : Prop :=
  rep ∉ world.guest.options ∧ ¬optionsHeld world.host rep

/-- The ids of a response that the host builds, and of its headers and trailers. -/
def FreshResponse (world : World) : Prop :=
  UnusedFields world world.host.fields.next ∧
    UnusedFields world (world.host.fields.next + 1) ∧
    world.host.responses.get world.host.responses.next = none

/-- The ids that a step allocates name nothing that is still in use. -/
def Fresh (world : World) : Label → Prop
  | .fieldsNew | .fieldsFromList _ | .fieldsClone _ => UnusedFields world world.host.fields.next
  | .optionsNew | .optionsClone _ => UnusedOptions world world.host.options.next
  | .requestNew _ _ _ _ => world.host.requests.get world.host.requests.next = none
  | .responseNew _ _ _ => world.host.responses.get world.host.responses.next = none
  | .handle _ _ _ => world.host.transport.isNone = true → FreshResponse world
  | .responseHead _ _ _ _ => FreshResponse world
  | _ => True

instance (world : World) (rep : Rep) : Decidable (UnusedFields world rep) := by
  unfold UnusedFields; infer_instance

instance (world : World) (rep : Rep) : Decidable (UnusedOptions world rep) := by
  unfold UnusedOptions; infer_instance

instance {α : Type} (table : Table α) (rep : Rep) : Decidable (table.get rep = none) :=
  decidable_of_iff ((table.get rep).isNone = true) Option.isNone_iff_eq_none

instance (world : World) : Decidable (FreshResponse world) := by
  unfold FreshResponse; infer_instance

instance decidableFresh (world : World) (label : Label) : Decidable (Fresh world label) := by
  cases label <;> simp only [Fresh] <;> infer_instance

/-! ## The request and response tables through a step -/

/-- The fields entry that a step makes the headers of a new holder. -/
def AdoptsFields (world : World) : Label → Rep → Prop
  | .requestNew headers _ _ _, rep | .responseNew headers _ _, rep => rep = headers
  | .handle _ _ _, rep | .responseHead _ _ _ _, rep => rep = world.host.fields.next
  | _, _ => False

/-- The options entry that a step gives to a new request. -/
def AdoptsOptions : Label → Rep → Prop
  | .requestNew _ _ _ options, rep => options = some rep
  | _, _ => False

/-- The request that a step inserts. -/
def NewRequest : Label → RequestData → Prop
  | .requestNew headers _ _ options, data => data.headers = headers ∧ data.options = options
  | _, _ => False

/-- The response that a step inserts. -/
def NewResponse (world : World) : Label → ResponseData → Prop
  | .responseNew headers _ _, data => data.headers = headers
  | .handle _ _ _, data =>
      world.host.transport.isNone = true ∧ data.headers = world.host.fields.next
  | .responseHead _ _ _ _, data => data.headers = world.host.fields.next
  | _, _ => False

def SameReps (data changed : RequestData) : Prop :=
  changed.headers = data.headers ∧ changed.options = data.options

def SameHeaders (data changed : ResponseData) : Prop := changed.headers = data.headers

/-- What a step does to the requests. -/
abbrev RequestsStep (world : World) (label : Label) (after : WasiHttpHost) : Prop :=
  Table.Step (NewRequest label) SameReps (fun rep => label = .requestDrop rep)
    world.host.requests after.requests

/-- What a step does to the responses. -/
abbrev ResponsesStep (world : World) (label : Label) (after : WasiHttpHost) : Prop :=
  Table.Step (NewResponse world label) SameHeaders (fun rep => label = .responseDrop rep)
    world.host.responses after.responses

/-- The fields and their handles through a step. -/
abbrev FieldsStep (world : World) (label : Label) (next : World) : Prop :=
  Ownership.Step FieldsData.immutable entriesOf (fun rep => label = .fieldsDrop rep)
    (fieldsView world) (fieldsView next)

/-- The options and their handles through a step. -/
abbrev OptionsStep (world : World) (label : Label) (next : World) : Prop :=
  Ownership.Step RequestOptionsData.immutable timeoutsOf (fun rep => label = .optionsDrop rep)
    (optionsView world) (optionsView next)

/-- A built response, if there is one, is backed by the next fields entry. -/
theorem responses_built {world : World} {entries : List (FieldName × FieldValue)}
    {built : Except ErrorCode Rep × WasiHttpHost} (label : Label)
    (hnew : ∀ data, data.headers = world.host.fields.next → NewResponse world label data)
    (hbuilt : Built world.host entries built) : ResponsesStep world label built.2 := by
  rcases hbuilt.responses with ⟨error, -, hsame⟩ | ⟨data, trailersRep, -, hafter, hheaders, -, -⟩
  · exact .same hsame
  · exact .insert data (hnew data hheaders) hafter

/-- What one step does to the four tables. -/
structure Effect (world : World) (label : Label) (next : World) : Prop where
  requests : RequestsStep world label next.host
  responses : ResponsesStep world label next.host
  fields : FieldsStep world label next
  options : OptionsStep world label next

variable {world next : World} {label : Label}

theorem headersHeld_of_eq {host after : WasiHttpHost} {rep : Rep}
    (hrequests : after.requests = host.requests) (hresponses : after.responses = host.responses)
    (hheld : headersHeld after rep) : headersHeld host rep := by
  rwa [headersHeld, hrequests, hresponses] at hheld

theorem optionsHeld_of_eq {host after : WasiHttpHost} {rep : Rep}
    (hrequests : after.requests = host.requests) (hheld : optionsHeld after rep) :
    optionsHeld host rep := by
  rwa [optionsHeld, hrequests] at hheld

theorem adoptsFields_of_newRequest {data : RequestData} (hnew : NewRequest label data) :
    AdoptsFields world label data.headers := by
  cases label
  case requestNew headers contents trailers options => exact hnew.1
  all_goals exact hnew.elim

theorem adoptsOptions_of_newRequest {data : RequestData} {rep : Rep} (hnew : NewRequest label data)
    (hrep : data.options = some rep) : AdoptsOptions label rep := by
  cases label
  case requestNew headers contents trailers options => exact hnew.2.symm.trans hrep
  all_goals exact hnew.elim

theorem adoptsFields_of_newResponse {data : ResponseData} (hnew : NewResponse world label data) :
    AdoptsFields world label data.headers := by
  cases label
  case responseNew headers contents trailers => exact hnew
  case handle request fault trailersFault => exact hnew.2
  case responseHead index shown bodyFault trailersFault => exact hnew
  all_goals exact hnew.elim

theorem headersHeld_of_step {after : WasiHttpHost} (hrequests : RequestsStep world label after)
    (hresponses : ResponsesStep world label after) {rep : Rep}
    (hheld : headersHeld after rep) :
    headersHeld world.host rep ∨ AdoptsFields world label rep := by
  rcases hheld with hheld | hheld
  · rcases hheld.of_step hrequests fun _ _ hsame hdata => hsame.1 ▸ hdata with
      hheld | ⟨data, hnew, rfl⟩
    · exact Or.inl (Or.inl hheld)
    · exact Or.inr (adoptsFields_of_newRequest hnew)
  · rcases hheld.of_step hresponses fun _ _ hsame hdata => Eq.trans hsame.symm hdata with
      hheld | ⟨data, hnew, rfl⟩
    · exact Or.inl (Or.inr hheld)
    · exact Or.inr (adoptsFields_of_newResponse hnew)

theorem optionsHeld_of_step {after : WasiHttpHost} (hrequests : RequestsStep world label after)
    {rep : Rep} (hheld : optionsHeld after rep) :
    optionsHeld world.host rep ∨ AdoptsOptions label rep := by
  rcases hheld.of_step hrequests fun _ _ hsame hdata => hsame.2 ▸ hdata with
    hheld | ⟨data, hnew, hdata⟩
  · exact Or.inl hheld
  · exact Or.inr (adoptsOptions_of_newRequest hnew hdata)

/-- A step that inserts nothing and touches neither fields nor options. -/
theorem Effect.quiet
    (hrequests : Table.Step (fun _ => False) SameReps (fun rep => label = .requestDrop rep)
      world.host.requests next.host.requests)
    (hresponses : Table.Step (fun _ => False) SameHeaders (fun rep => label = .responseDrop rep)
      world.host.responses next.host.responses)
    (hfields : next.host.fields = world.host.fields)
    (hoptions : next.host.options = world.host.options)
    (hownedFields : ∀ rep, (next.guest.fields ++ next.inFlight).count rep ≤
      (world.guest.fields ++ world.inFlight).count rep)
    (hownedOptions : ∀ rep, next.guest.options.count rep ≤ world.guest.options.count rep) :
    Effect world label next where
  requests := hrequests.of_quiet
  responses := hresponses.of_quiet
  fields := .narrow (congrArg Table.get hfields) hownedFields fun _ hheld =>
    hheld.imp
      (fun hholds => hholds.of_quiet hrequests fun _ _ hsame hdata => hsame.1 ▸ hdata)
      (fun hholds => hholds.of_quiet hresponses fun _ _ hsame hdata => Eq.trans hsame.symm hdata)
  options := .narrow (congrArg Table.get hoptions) hownedOptions fun _ hheld =>
    hheld.of_quiet hrequests fun _ _ hsame hdata => hsame.2 ▸ hdata

/-- A step that leaves every table alone. -/
theorem Effect.idle (hsame : SameTables world.host next.host)
    (hownedFields : ∀ rep, (next.guest.fields ++ next.inFlight).count rep ≤
      (world.guest.fields ++ world.inFlight).count rep)
    (hownedOptions : ∀ rep, next.guest.options.count rep ≤ world.guest.options.count rep) :
    Effect world label next where
  requests := .same hsame.requests
  responses := .same hsame.responses
  fields := .narrow (congrArg Table.get hsame.fields) hownedFields
    fun _ => headersHeld_of_eq hsame.requests hsame.responses
  options := .narrow (congrArg Table.get hsame.options) hownedOptions
    fun _ => optionsHeld_of_eq hsame.requests

/-- A step on the fields only. -/
theorem Effect.onFields (hrequests : next.host.requests = world.host.requests)
    (hresponses : next.host.responses = world.host.responses)
    (hoptions : next.host.options = world.host.options)
    (howned : next.guest.options = world.guest.options)
    (hfields : (∀ rep, headersHeld next.host rep → headersHeld world.host rep) →
      FieldsStep world label next) : Effect world label next where
  requests := .same hrequests
  responses := .same hresponses
  fields := hfields fun _ => headersHeld_of_eq hrequests hresponses
  options := .narrow (congrArg Table.get hoptions)
    (fun rep => by simp only [optionsView, howned, Nat.le_refl])
    fun _ => optionsHeld_of_eq hrequests

/-- A step on the options only. -/
theorem Effect.onOptions (hrequests : next.host.requests = world.host.requests)
    (hresponses : next.host.responses = world.host.responses)
    (hfields : next.host.fields = world.host.fields)
    (howned : next.guest.fields ++ next.inFlight = world.guest.fields ++ world.inFlight)
    (hoptions : (∀ rep, optionsHeld next.host rep → optionsHeld world.host rep) →
      OptionsStep world label next) : Effect world label next where
  requests := .same hrequests
  responses := .same hresponses
  fields := .narrow (congrArg Table.get hfields)
    (fun rep => by simp only [fieldsView, howned, Nat.le_refl])
    fun _ => headersHeld_of_eq hrequests hresponses
  options := hoptions fun _ => optionsHeld_of_eq hrequests

/-! ## One lemma for each action on the fields -/

theorem effect_fieldsMint {data : FieldsData}
    (hunused : UnusedFields world world.host.fields.next) :
    Effect world label (world.gainFields ((world.host.fields.insert data).1,
      { world.host with fields := (world.host.fields.insert data).2 })) := by
  refine .onFields rfl rfl rfl rfl fun hheld => ?_
  exact .mintOne hunused.1 hunused.2 (fun other hne => Table.get_insert_ne hne)
    (List.Perm.refl _) hheld

theorem effect_fieldsChange {rep : Rep} (change : FieldsChange) (howned : rep ∈ world.guest.fields) :
    Effect world label (world.withHost (change.apply world.host rep)) := by
  rcases change.apply_cases world.host rep with hafter | ⟨data, hget, hthawed, hafter⟩
  · rw [hafter]
    exact .idle (SameTables.refl world.host) (fun _ => Nat.le_refl _) fun _ => Nat.le_refl _
  · rw [hafter]
    refine .onFields rfl rfl rfl rfl fun hheld => ?_
    exact .write rep (List.mem_append_left _ howned) hget hthawed
      (fun other hne => Table.get_modify_ne hne) (fun _ => Nat.le_refl _) hheld

theorem effect_fieldsDrop {rep : Rep} :
    Effect world (.fieldsDrop rep)
      ((world.loseFields rep).withHost (HostFields.drop world.host rep)) := by
  refine .onFields rfl rfl rfl rfl fun hheld => ?_
  refine .release rep rfl (Table.get_remove_self _ rep)
    (fun other hne => Table.get_remove_ne hne) (fun other => ?_) hheld
  simp only [fieldsView, World.withHost, World.loseFields, List.count_append]
  exact Nat.add_le_add_right (List.erase_sublist.count_le other) _

/-- A getter of the headers freezes the entry and shares it. -/
theorem effect_getHeaders (rep : Rep) :
    Effect world label (world.gainFields (rep, HostFields.freeze world.host rep)) := by
  refine .onFields rfl rfl rfl rfl fun hheld => ?_
  refine .share rep ?_ ?_ (fun other hne => Table.get_modify_ne hne)
    (fun other => Nat.le_refl _) hheld
  · intro value hvalue
    simp only [fieldsView, World.gainFields, HostFields.freeze, Table.get_modify_self,
      Option.map_eq_some_iff] at hvalue
    obtain ⟨data, -, rfl⟩ := hvalue
    rfl
  · simp only [fieldsView, World.gainFields, HostFields.freeze, Table.get_modify_self, entriesOf,
      Option.map_map]
    rfl

theorem effect_requestNew {headers : Rep} {contents : Option BodyReader}
    {trailers : TrailersFuture} {options : Option Rep}
    (hheaders : headers ∈ world.guest.fields) (hoptions : ∀ rep ∈ options, rep ∈ world.guest.options) :
    Effect world (.requestNew headers contents trailers options)
      (((world.loseFields headers).loseOptions options).gainRequest
        (HostRequest.new world.host headers contents trailers options)) := by
  have hrequests : RequestsStep world (.requestNew headers contents trailers options)
      (HostRequest.new world.host headers contents trailers options).2 := by
    refine .insert { headers, options, body := contents, trailers := some trailers } ?_ rfl
    exact ⟨rfl, rfl⟩
  have hresponses : ResponsesStep world (.requestNew headers contents trailers options)
      (HostRequest.new world.host headers contents trailers options).2 := .same rfl
  have hheldOptions : ∀ other, optionsHeld
      (HostRequest.new world.host headers contents trailers options).2 other →
        optionsHeld world.host other ∨ options = some other :=
    fun other => optionsHeld_of_step hrequests
  refine ⟨hrequests, hresponses, ?_, ?_⟩
  · refine .give headers (List.mem_append_left _ hheaders) rfl (fun other => ?_)
      fun other => headersHeld_of_step hrequests hresponses
    rw [fieldsView, fieldsView, List.erase_append_left _ hheaders]
    exact Nat.le_refl _
  · cases options with
    | none =>
        exact .narrow rfl (fun _ => Nat.le_refl _) fun other hheld =>
          (hheldOptions other hheld).resolve_right (by simp)
    | some rep =>
        exact .give rep (hoptions rep rfl) rfl (fun _ => Nat.le_refl _) fun other hheld =>
          (hheldOptions other hheld).imp_right fun hadopts => (Option.some.inj hadopts).symm

theorem effect_responseNew {headers : Rep} {contents : Option BodyReader}
    {trailers : TrailersFuture} (hheaders : headers ∈ world.guest.fields) :
    Effect world (.responseNew headers contents trailers)
      ((world.loseFields headers).gainResponse
        (HostResponse.new world.host headers contents trailers)) := by
  have hresponses : ResponsesStep world (.responseNew headers contents trailers)
      (HostResponse.new world.host headers contents trailers).2 := by
    refine .insert
      { statusCode := 200, headers, body := contents, trailers := some trailers } ?_ rfl
    exact (rfl : headers = headers)
  have hrequests : RequestsStep world (.responseNew headers contents trailers)
      (HostResponse.new world.host headers contents trailers).2 := .same rfl
  refine ⟨hrequests, hresponses, ?_, .narrow rfl (fun _ => Nat.le_refl _) fun _ hheld => hheld⟩
  refine .give headers (List.mem_append_left _ hheaders) rfl (fun other => ?_)
    fun other => headersHeld_of_step hrequests hresponses
  rw [fieldsView, fieldsView, List.erase_append_left _ hheaders]
  exact Nat.le_refl _

/-! ## One lemma for each action on the options -/

theorem effect_optionsMint {data : RequestOptionsData}
    (hunused : UnusedOptions world world.host.options.next) :
    Effect world label (world.gainOptions ((world.host.options.insert data).1,
      { world.host with options := (world.host.options.insert data).2 })) := by
  refine .onOptions rfl rfl rfl rfl fun hheld => ?_
  exact .mintOne hunused.1 hunused.2 (fun other hne => Table.get_insert_ne hne)
    (List.Perm.refl _) hheld

theorem effect_optionsChange {rep : Rep} (change : OptionsChange)
    (howned : rep ∈ world.guest.options) :
    Effect world label (world.withHost (change.apply world.host rep)) := by
  rw [change.apply_eq]
  rcases HostRequestOptions.write_cases world.host rep fun data => change.write data with
    hafter | ⟨data, hget, hthawed, hafter⟩
  · rw [hafter]
    exact .idle (SameTables.refl world.host) (fun _ => Nat.le_refl _) fun _ => Nat.le_refl _
  · rw [hafter]
    refine .onOptions rfl rfl rfl rfl fun hheld => ?_
    exact .write rep howned hget hthawed (fun other hne => Table.get_modify_ne hne)
      (fun _ => Nat.le_refl _) hheld

theorem effect_optionsDrop {rep : Rep} :
    Effect world (.optionsDrop rep)
      ((world.loseOptions (some rep)).withHost (HostRequestOptions.drop world.host rep)) := by
  refine .onOptions rfl rfl rfl rfl fun hheld => ?_
  exact .release rep rfl (Table.get_remove_self _ rep) (fun other hne => Table.get_remove_ne hne)
    (fun other => List.erase_sublist.count_le other) hheld

/-- A getter of the options freezes the entry and shares it. -/
theorem effect_getOptions (rep : Rep) :
    Effect world label (world.gainOptions (rep, { world.host with
      options := world.host.options.modify rep fun data => { data with immutable := true } })) := by
  refine .onOptions rfl rfl rfl rfl fun hheld => ?_
  refine .share rep ?_ ?_ (fun other hne => Table.get_modify_ne hne)
    (fun other => Nat.le_refl _) hheld
  · intro value hvalue
    simp only [optionsView, World.gainOptions, Table.get_modify_self,
      Option.map_eq_some_iff] at hvalue
    obtain ⟨data, -, rfl⟩ := hvalue
    rfl
  · simp only [optionsView, World.gainOptions, Table.get_modify_self, timeoutsOf,
      Option.bind_map]
    rfl

/-! ## The actions that build a response -/

/-- The trailers of a built response are the one new handle in flight. -/
theorem deliver_inFlight {base : World} {entries : List (FieldName × FieldValue)}
    {built : Except ErrorCode Rep × WasiHttpHost} (hbuilt : Built world.host entries built)
    (hhost : base.host = built.2) :
    ∃ trailersRep : Option Rep, (∀ rep ∈ trailersRep, rep = world.host.fields.next + 1) ∧
      (base.deliver built.1).inFlight = trailersRep.toList ++ base.inFlight := by
  rcases hbuilt.responses with
    ⟨error, hresult, -⟩ | ⟨data, trailersRep, hresult, hafter, -, htrailers, hnext⟩
  · exact ⟨none, by simp, by rw [hresult]; rfl⟩
  · refine ⟨trailersRep, hnext, ?_⟩
    rw [hresult]
    simp only [World.deliver, World.builtTrailers, hhost, hafter, Table.get_insert_self,
      Option.bind_some, htrailers]

theorem effect_built {base : World} {entries : List (FieldName × FieldValue)}
    {built : Except ErrorCode Rep × WasiHttpHost} (hbuilt : Built world.host entries built)
    (hhost : base.host = built.2) (hguestFields : base.guest.fields = world.guest.fields)
    (hguestOptions : base.guest.options = world.guest.options)
    (hinFlight : base.inFlight = world.inFlight)
    (hadopts : ∀ rep, AdoptsFields world label rep → rep = world.host.fields.next)
    (hnew : ∀ data, data.headers = world.host.fields.next → NewResponse world label data)
    (hadoptsOptions : ∀ rep, ¬AdoptsOptions label rep)
    (hunused : UnusedFields world world.host.fields.next)
    (hunusedSucc : UnusedFields world (world.host.fields.next + 1)) :
    Effect world label (base.deliver built.1) := by
  have hrequests : RequestsStep world label built.2 := .same hbuilt.requests
  have hresponses : ResponsesStep world label built.2 :=
    responses_built label hnew hbuilt
  have hheld : ∀ rep, headersHeld built.2 rep →
      headersHeld world.host rep ∨ rep = world.host.fields.next := fun rep hrep =>
    (headersHeld_of_step hrequests hresponses hrep).imp_right (hadopts rep)
  obtain ⟨trailersRep, htrailers, hdelivered⟩ := deliver_inFlight hbuilt hhost
  have howned : ∀ rep, ((base.deliver built.1).guest.fields ++
      (base.deliver built.1).inFlight).count rep =
        (world.guest.fields ++ world.inFlight).count rep + trailersRep.toList.count rep := by
    intro rep
    rw [hdelivered, World.deliver_guest_fields, hguestFields, hinFlight]
    simp only [List.count_append]
    omega
  have hother : ∀ rep, rep ≠ world.host.fields.next + 1 → trailersRep.toList.count rep = 0 :=
    fun rep hne => List.count_eq_zero.mpr fun hmem =>
      hne (htrailers rep (Option.mem_toList.mp hmem))
  have hnew : ∀ rep, rep = world.host.fields.next ∨ rep = world.host.fields.next + 1 →
      (world.guest.fields ++ world.inFlight).count rep = 0 := by
    rintro rep (rfl | rfl)
    · exact List.count_eq_zero.mpr hunused.1
    · exact List.count_eq_zero.mpr hunusedSucc.1
  have hone : ∀ rep, trailersRep.toList.count rep ≤ 1 := by
    intro rep
    refine Nat.le_trans List.count_le_length ?_
    cases trailersRep <;> simp
  refine ⟨?_, ?_, ?_, ?_⟩
  · rw [World.deliver_host, hhost]
    exact hrequests
  · rw [World.deliver_host, hhost]
    exact hresponses
  · refine .mint (fun rep => rep = world.host.fields.next ∨ rep = world.host.fields.next + 1)
      ?_ ?_ ?_ ?_ ?_
    · rintro rep (rfl | rfl)
      · exact hunused
      · exact hunusedSucc
    · intro rep hrep
      rw [fieldsView, World.deliver_host, hhost]
      exact hbuilt.others rep (fun heq => hrep (Or.inl heq)) fun heq => hrep (Or.inr heq)
    · intro rep hrep
      change ((base.deliver built.1).guest.fields ++ (base.deliver built.1).inFlight).count rep ≤
        (world.guest.fields ++ world.inFlight).count rep
      rw [howned, hother rep fun heq => hrep (Or.inr heq)]
      exact Nat.le_refl _
    · intro rep hrep
      have hzero := hnew rep hrep
      rw [fieldsView, howned]
      refine ⟨by have := hone rep; omega, fun hrepHeld hmem => ?_⟩
      have hpositive := List.count_pos_iff.mpr hmem
      rw [howned, hzero] at hpositive
      have hsucc : rep = world.host.fields.next + 1 := by
        by_contra hne
        rw [hother rep hne] at hpositive
        omega
      rw [World.deliver_host, hhost] at hrepHeld
      rcases hheld rep hrepHeld with hbefore | hnext
      · exact hunusedSucc.2 (hsucc ▸ hbefore)
      · exact ne_succ _ (hnext.symm.trans hsucc)
    · intro rep hrep
      rw [fieldsView, World.deliver_host, hhost] at hrep
      exact (hheld rep hrep).imp_right Or.inl
  · refine .narrow ?_ (fun rep => ?_) fun rep hrep => ?_
    · rw [optionsView, World.deliver_host, hhost]
      exact congrArg Table.get hbuilt.options
    · rw [optionsView, World.deliver_guest_options, hguestOptions]
      exact Nat.le_refl _
    · rw [optionsView, World.deliver_host, hhost] at hrep
      exact (optionsHeld_of_step hrequests hrep).resolve_right (hadoptsOptions rep)

/-! ## Every step -/

/-- Moving a handle between the guest and a future keeps the counts. -/
theorem count_move {rep : Rep} {source target : List Rep} (hsource : rep ∈ source) (other : Rep) :
    (source.erase rep ++ rep :: target).count other = (source ++ target).count other := by
  have hperm : (source.erase rep ++ rep :: target).Perm (source ++ target) :=
    List.perm_middle.trans ((List.perm_cons_erase hsource).symm.append_right target)
  exact hperm.count_eq other

/-- What a step of the session does to the four tables, where the ids it
allocates are not in use. -/
theorem step_effect (hstep : world.step label = some next) (hfresh : Fresh world label) :
    Effect world label next := by
  have hle : ∀ (list : List Rep) (rep : Rep), list.count rep ≤ list.count rep :=
    fun _ _ => Nat.le_refl _
  cases label
  case fieldsNew =>
      obtain rfl := Option.some.inj hstep
      exact effect_fieldsMint hfresh
  case fieldsFromList entries =>
      obtain rfl := Option.some.inj hstep
      exact effect_fieldsMint hfresh
  case optionsNew =>
      obtain rfl := Option.some.inj hstep
      exact effect_optionsMint hfresh
  case push chunk =>
      obtain rfl := Option.some.inj hstep
      exact .idle (SameTables.refl world.host) (hle _) (hle _)
  case pushEnd =>
      obtain rfl := Option.some.inj hstep
      exact .idle (SameTables.refl world.host) (hle _) (hle _)
  case bodyBatch index chunk =>
      obtain ⟨call, trailers, -, -, rfl⟩ := World.bodyBatch_step hstep
      exact .idle (sameTables_receiveBatch world.host call chunk) (hle _) (hle _)
  case bodyEnd index fault =>
      obtain ⟨call, trailers, -, -, rfl⟩ := World.bodyEnd_step hstep
      exact .idle (sameTables_enterTrailers world.host call trailers fault) (hle _) (hle _)
  case trailersResolved index resolved =>
      obtain ⟨call, taken, -, -, htaken, rfl⟩ := World.trailersResolved_step hstep
      obtain ⟨inFlight, hsub, rfl⟩ := World.takeTrailers_eq htaken
      refine .idle (sameTables_receiveTrailers world.host call resolved) (fun rep => ?_) (hle _)
      exact ((List.Sublist.refl _).append hsub).count_le rep
  case responseHead index shown bodyFault trailersFault =>
      obtain ⟨call, -, -, hreceive⟩ := World.responseHead_step hstep
      rcases World.receiveHeadAt_cases hreceive with
        ⟨-, error, inbound, rfl⟩ | ⟨frame, rest, head, built, -, -, rfl, rfl⟩
      · exact .idle (SameTables.refl world.host) (hle _) (hle _)
      · exact effect_built (built_buildResponse world.host head .receiver bodyFault trailersFault)
          rfl rfl rfl rfl (fun _ => id) (fun _ => id) (fun _ => id) hfresh.1 hfresh.2.1
  case handle request fault trailersFault =>
      simp only [World.step, World.whenOwned_eq_some] at hstep
      obtain ⟨-, rfl⟩ := hstep
      rcases world.startHandle_cases request fault trailersFault with
        ⟨transport, -, hnext⟩ | ⟨-, calls, -, hnext⟩ | ⟨hnone, built, calls, hbuilt, -, hnext⟩
      · rw [hnext]
        rcases startCall_tables world.host request fault with hsame | hsame
        · exact .idle hsame (hle _) (hle _)
        · refine .quiet (.modify request
              (fun data : RequestData => { data with body := none, trailers := none }) ?_
              hsame.requests) (.same hsame.responses) hsame.fields hsame.options (hle _) (hle _)
          exact fun data => ⟨rfl, rfl⟩
      · rw [hnext]
        exact .idle (SameTables.refl world.host) (hle _) (hle _)
      · rw [hnext]
        have hnoTransport : world.host.transport.isNone = true := Option.isNone_iff_eq_none.mpr hnone
        have hunused := hfresh hnoTransport
        exact effect_built hbuilt rfl rfl rfl rfl (fun _ => id)
          (fun _ hheaders => ⟨hnoTransport, hheaders⟩) (fun _ => id) hunused.1 hunused.2.1
  all_goals
    simp only [World.step, World.whenOwned_eq_some] at hstep
    obtain ⟨howned, rfl⟩ := hstep
  case fieldsChange rep change => exact effect_fieldsChange change howned
  case fieldsClone rep => exact effect_fieldsMint hfresh
  case fieldsDrop rep => exact effect_fieldsDrop
  case requestNew headers contents trailers options =>
      exact effect_requestNew howned.1 howned.2
  case requestGetHeaders rep => exact effect_getHeaders _
  case responseNew headers contents trailers => exact effect_responseNew howned
  case responseGetHeaders rep => exact effect_getHeaders _
  case optionsChange rep change => exact effect_optionsChange change howned
  case optionsClone rep => exact effect_optionsMint hfresh
  case optionsDrop rep => exact effect_optionsDrop
  case fieldsRead rep => exact .idle (SameTables.refl world.host) (hle _) (hle _)
  case requestRead rep => exact .idle (SameTables.refl world.host) (hle _) (hle _)
  case responseRead rep => exact .idle (SameTables.refl world.host) (hle _) (hle _)
  case optionsRead rep => exact .idle (SameTables.refl world.host) (hle _) (hle _)
  case writeTrailers rep =>
      refine .idle (SameTables.refl world.host) (fun other => ?_) (hle _)
      exact Nat.le_of_eq (count_move howned other)
  case readTrailers rep =>
      refine .idle (SameTables.refl world.host) (fun other => ?_) (hle _)
      exact Nat.le_of_eq (List.perm_middle.symm.trans
        ((List.perm_cons_erase howned).symm.append_left _) |>.count_eq other)
  case requestGetOptions rep =>
      simp only [HostRequest.getOptions]
      cases (world.host.requests.get rep).bind RequestData.options with
      | none => exact .idle (SameTables.refl world.host) (hle _) (hle _)
      | some optRep => exact effect_getOptions optRep
  case requestChange rep change =>
      rw [change.apply_eq]
      rcases HostRequest.write_cases world.host rep fun data => change.write data with
        hafter | hafter
      · rw [hafter]
        exact .idle (SameTables.refl world.host) (hle _) (hle _)
      · rw [hafter]
        exact .quiet (.modify rep _ (fun data => change.write_keeps data) rfl) (.same rfl) rfl rfl
          (hle _) (hle _)
  case requestConsumeBody rep =>
      exact .quiet (.modify rep (fun data => { data with body := none, trailers := none })
        (fun data => ⟨rfl, rfl⟩) rfl) (.same rfl) rfl rfl (hle _) (hle _)
  case requestDrop rep =>
      exact .quiet (.remove rep rfl rfl) (.same rfl) rfl rfl (hle _) (hle _)
  case responseSetStatusCode rep statusCode =>
      rcases HostResponse.setStatusCode_cases world.host rep statusCode with hafter | hafter
      · rw [hafter]
        exact .idle (SameTables.refl world.host) (hle _) (hle _)
      · rw [hafter]
        exact .quiet (.same rfl) (.modify rep (fun data => { data with statusCode })
          (by intro data; exact rfl) rfl) rfl rfl (hle _) (hle _)
  case responseConsumeBody rep =>
      exact .quiet (.same rfl) (.modify rep
        (fun data => { data with body := none, trailers := none })
        (by intro data; exact rfl) rfl) rfl rfl (hle _) (hle _)
  case responseDrop rep =>
      exact .quiet (.same rfl) (.remove rep rfl rfl) rfl rfl (hle _) (hle _)

end HellohqRuntime.Http.Effects

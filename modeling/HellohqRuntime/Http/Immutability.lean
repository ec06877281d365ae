import HellohqRuntime.Http.GuardedTables
import HellohqRuntime.Http.System

/-!
# Immutable fields and options

The host functions that reach the `fields` and the `request-options` tables, in any
order and on any reps.  Once an entry is flagged immutable it stays as it is until
it is dropped; the mutators refuse it, and on a mutable entry they change that entry
alone; a clone and its source go separate ways.
-/

namespace HellohqRuntime.Http.Immutability

open HellohqRuntime.Foundation.Runs
open HellohqRuntime.Http.Handle
open HellohqRuntime.Http.Resources
open HellohqRuntime.Http.System (FieldsChange OptionsChange)
open HellohqRuntime.Http.Tables
open HellohqRuntime.Http.Types

/-! ## Operations -/

inductive Op where
  | fieldsNew
  | fieldsFromList (entries : List (FieldName × FieldValue))
  /-- `get`, `has` or `copy-all`. -/
  | fieldsRead (rep : Rep)
  | fieldsChange (rep : Rep) (change : FieldsChange)
  | fieldsClone (rep : Rep)
  | fieldsDrop (rep : Rep)
  | optionsNew
  | optionsRead (rep : Rep)
  | optionsChange (rep : Rep) (change : OptionsChange)
  | optionsClone (rep : Rep)
  | optionsDrop (rep : Rep)
  | requestGetOptions (rep : Rep)
  | requestGetHeaders (rep : Rep)
  | responseGetHeaders (rep : Rep)
  /-- The headers or the trailers of a response that the caller sent. -/
  | fieldsReceived (data : FieldsData)
  /-- Everything else of the host, which has no access to the two tables. -/
  | elsewhere (requests : Table RequestData) (responses : Table ResponseData)
      (transport : Option HttpTransport)

namespace Op

def apply (host : WasiHttpHost) : Op → WasiHttpHost
  | fieldsNew => (HostFields.new host).2
  | fieldsFromList entries => (HostFields.fromList host entries).2
  | fieldsRead _ => host
  | fieldsChange rep change => change.apply host rep
  | fieldsClone rep => (HostFields.clone host rep).2
  | fieldsDrop rep => HostFields.drop host rep
  | optionsNew => (HostRequestOptions.new host).2
  | optionsRead _ => host
  | optionsChange rep change => change.apply host rep
  | optionsClone rep => (HostRequestOptions.clone host rep).2
  | optionsDrop rep => HostRequestOptions.drop host rep
  | requestGetOptions rep => (HostRequest.getOptions host rep).2
  | requestGetHeaders rep => (HostRequest.getHeaders host rep).2
  | responseGetHeaders rep => (HostResponse.getHeaders host rep).2
  | fieldsReceived data => { host with fields := (host.fields.insert data).2 }
  | elsewhere requests responses transport => { host with requests, responses, transport }

def step (host : WasiHttpHost) (op : Op) : Option WasiHttpHost := some (op.apply host)

/-- The fields that an operation may write or remove. -/
def fieldsNamed (host : WasiHttpHost) : Op → Option Rep
  | fieldsChange rep _ => some rep
  | fieldsDrop rep => some rep
  | requestGetHeaders rep => some (HostRequest.getHeaders host rep).1
  | responseGetHeaders rep => some (HostResponse.getHeaders host rep).1
  | _ => none

/-- The options that an operation may write or remove. -/
def optionsNamed (host : WasiHttpHost) : Op → Option Rep
  | optionsChange rep _ => some rep
  | optionsDrop rep => some rep
  | requestGetOptions rep => (HostRequest.getOptions host rep).1
  | _ => none

def fieldsCreated : Op → Nat
  | fieldsNew => 1
  | fieldsFromList _ => 1
  | fieldsClone _ => 1
  | fieldsReceived _ => 1
  | _ => 0

def optionsCreated : Op → Nat
  | optionsNew => 1
  | optionsClone _ => 1
  | _ => 0

end Op

/-- Fewer than `2^32 - 1` resources of a kind are created. -/
def FewCreated (ops : List Op) : Prop :=
  Table.insertsOf Op.fieldsCreated ops < 2 ^ 32 - 1 ∧
    Table.insertsOf Op.optionsCreated ops < 2 ^ 32 - 1

/-- A host before its first operation. -/
def start (transport : Option HttpTransport) : WasiHttpHost := { transport }

/-! ## The two tables under one operation -/

open Table (Guarded GuardedBy)

variable {host after final : WasiHttpHost} {rep : Rep}

theorem guarded_change (host : WasiHttpHost) (rep : Rep) (change : FieldsChange) :
    Guarded FieldsData.immutable host.fields (some rep) 0 (change.apply host rep).fields := by
  obtain happly | ⟨data, hget, hmutable, happly⟩ := change.apply_cases host rep
  · rw [happly]
    exact .same _
  · rw [happly]
    apply Guarded.modify
    intro value hvalue himmutable
    obtain rfl := Option.some.inj (hget.symm.trans hvalue)
    rw [hmutable] at himmutable
    cases himmutable

theorem guarded_freeze (host : WasiHttpHost) (rep : Rep) :
    Guarded FieldsData.immutable host.fields (some rep) 0 (HostFields.freeze host rep).fields := by
  apply Guarded.modify
  intro value _ himmutable
  rw [← himmutable]

theorem fields_getOptions (host : WasiHttpHost) (rep : Rep) :
    (HostRequest.getOptions host rep).2.fields = host.fields := by
  unfold HostRequest.getOptions
  split <;> rfl

theorem guarded_fields :
    GuardedBy FieldsData.immutable Op.step WasiHttpHost.fields Op.fieldsNamed Op.fieldsCreated := by
  intro host op after hstep
  obtain rfl := Option.some.inj hstep
  cases op with
  | fieldsNew => exact .insert _
  | fieldsFromList entries => exact .insert _
  | fieldsRead rep => exact .same _
  | fieldsChange rep change => exact guarded_change host rep change
  | fieldsClone rep => exact .insert _
  | fieldsDrop rep => exact .remove rep
  | optionsNew => exact .same _
  | optionsRead rep => exact .same _
  | optionsChange rep change =>
      rw [Op.apply, change.apply_only]
      exact .same _
  | optionsClone rep => exact .same _
  | optionsDrop rep => exact .same _
  | requestGetOptions rep =>
      rw [Op.apply, fields_getOptions]
      exact .same _
  | requestGetHeaders rep => exact guarded_freeze host _
  | responseGetHeaders rep => exact guarded_freeze host _
  | fieldsReceived data => exact .insert data
  | elsewhere requests responses transport => exact .same _

theorem guarded_optionsChange (host : WasiHttpHost) (rep : Rep) (change : OptionsChange) :
    Guarded RequestOptionsData.immutable host.options (some rep) 0
      (change.apply host rep).options := by
  rw [change.apply_eq]
  obtain hwrite | ⟨data, hget, hmutable, hwrite⟩ := HostRequestOptions.write_cases host rep
    fun data => change.write data
  · rw [hwrite]
    exact .same _
  · rw [hwrite]
    apply Guarded.modify
    intro value hvalue himmutable
    obtain rfl := Option.some.inj (hget.symm.trans hvalue)
    rw [hmutable] at himmutable
    cases himmutable

theorem guarded_getOptions (host : WasiHttpHost) (rep : Rep) :
    Guarded RequestOptionsData.immutable host.options (HostRequest.getOptions host rep).1 0
      (HostRequest.getOptions host rep).2.options := by
  unfold HostRequest.getOptions
  split
  · exact .same _
  · apply Guarded.modify
    intro value _ himmutable
    rw [← himmutable]

theorem guarded_options :
    GuardedBy RequestOptionsData.immutable Op.step WasiHttpHost.options Op.optionsNamed
      Op.optionsCreated := by
  intro host op after hstep
  obtain rfl := Option.some.inj hstep
  cases op with
  | fieldsNew => exact .same _
  | fieldsFromList entries => exact .same _
  | fieldsRead rep => exact .same _
  | fieldsChange rep change =>
      rw [Op.apply, change.apply_only]
      exact .same _
  | fieldsClone rep => exact .same _
  | fieldsDrop rep => exact .same _
  | optionsNew => exact .insert _
  | optionsRead rep => exact .same _
  | optionsChange rep change => exact guarded_optionsChange host rep change
  | optionsClone rep => exact .insert _
  | optionsDrop rep => exact .remove rep
  | requestGetOptions rep => exact guarded_getOptions host rep
  | requestGetHeaders rep => exact .same _
  | responseGetHeaders rep => exact .same _
  | fieldsReceived data => exact .same _
  | elsewhere requests responses transport => exact .same _

/-! ## Guarded writes -/

/-- The rep names no fields, or fields that are immutable. -/
def FieldsRefused (host : WasiHttpHost) (rep : Rep) : Prop :=
  ∀ data, host.fields.get rep = some data → data.immutable = true

def OptionsRefused (host : WasiHttpHost) (rep : Rep) : Prop :=
  ∀ data, host.options.get rep = some data → data.immutable = true

/-- The fields of one rep have become `data`, and nothing else differs but, where they
are new, the id counter of the table. -/
structure OnlyFields (before after : WasiHttpHost) (rep : Rep) (data : FieldsData) : Prop where
  changed : after.fields.get rep = some data
  others : ∀ other, other ≠ rep → after.fields.get other = before.fields.get other
  elsewhere : after = { before with fields := after.fields }

structure OnlyOptions (before after : WasiHttpHost) (rep : Rep) (data : RequestOptionsData) :
    Prop where
  changed : after.options.get rep = some data
  others : ∀ other, other ≠ rep → after.options.get other = before.options.get other
  elsewhere : after = { before with options := after.options }

/-- A write that goes through: its result, and the one entry it changes. -/
def WritesFields {α : Type} (host : WasiHttpHost) (rep : Rep) (result : α) (data : FieldsData)
    (written : Except HeaderError α × WasiHttpHost) : Prop :=
  written.1 = .ok result ∧ OnlyFields host written.2 rep data ∧
    written.2.fields.next = host.fields.next

def WritesOptions (host : WasiHttpHost) (rep : Rep) (data : RequestOptionsData)
    (written : Except RequestOptionsError Unit × WasiHttpHost) : Prop :=
  written.1 = .ok () ∧ OnlyOptions host written.2 rep data ∧
    written.2.options.next = host.options.next

theorem mutate_refused {α : Type} (hrefused : FieldsRefused host rep)
    (change : FieldsData → α × FieldsData) :
    HostFields.mutate host rep change = (.error .immutable, host) := by
  unfold HostFields.mutate
  cases hget : host.fields.get rep with
  | none => rfl
  | some data => simp [hrefused data hget]

theorem mutate_writes {α : Type} {data : FieldsData} (hget : host.fields.get rep = some data)
    (hmutable : data.immutable = false) (change : FieldsData → α × FieldsData) :
    WritesFields host rep (change data).1 (change data).2 (HostFields.mutate host rep change) := by
  have hmutate : HostFields.mutate host rep change = (.ok (change data).1,
      { host with fields := host.fields.modify rep fun data => (change data).2 }) := by
    simp [HostFields.mutate, hget, hmutable]
  rw [hmutate]
  refine ⟨rfl, ⟨?_, ?_, rfl⟩, Table.modify_next _ _ _⟩
  · exact (Table.get_modify_self _ _ _).trans (by rw [hget, Option.map_some])
  · intro other hne
    exact Table.get_modify_ne hne

theorem write_refused (hrefused : OptionsRefused host rep)
    (change : RequestOptionsData → RequestOptionsData) :
    HostRequestOptions.write host rep change = (.error .immutable, host) := by
  unfold HostRequestOptions.write
  cases hget : host.options.get rep with
  | none => rfl
  | some data => simp [hrefused data hget]

theorem write_writes {data : RequestOptionsData} (hget : host.options.get rep = some data)
    (hmutable : data.immutable = false) (change : RequestOptionsData → RequestOptionsData) :
    WritesOptions host rep (change data) (HostRequestOptions.write host rep change) := by
  have hwrite : HostRequestOptions.write host rep change =
      (.ok (), { host with options := host.options.modify rep change }) := by
    simp [HostRequestOptions.write, hget, hmutable]
  rw [hwrite]
  refine ⟨rfl, ⟨?_, ?_, rfl⟩, Table.modify_next _ _ _⟩
  · exact (Table.get_modify_self _ _ _).trans (by rw [hget, Option.map_some])
  · intro other hne
    exact Table.get_modify_ne hne

/-! ## Clones -/

/-- The operation neither writes nor removes the fields. -/
def SparesFields (rep : Rep) (host : WasiHttpHost) (op : Op) : Prop :=
  op.fieldsNamed host ≠ some rep

def SparesOptions (rep : Rep) (host : WasiHttpHost) (op : Op) : Prop :=
  op.optionsNamed host ≠ some rep

instance (rep : Rep) (host : WasiHttpHost) (op : Op) : Decidable (SparesFields rep host op) :=
  inferInstanceAs (Decidable (op.fieldsNamed host ≠ some rep))

instance (rep : Rep) (host : WasiHttpHost) (op : Op) : Decidable (SparesOptions rep host op) :=
  inferInstanceAs (Decidable (op.optionsNamed host ≠ some rep))

/-- Cloning the fields of `rep` after the operations `past`: the clone is new and
mutable with the same entries, and what is done to one of the two is not done to the
other. -/
structure FieldsCloned (past : List Op) (host : WasiHttpHost) (rep : Rep) : Prop where
  fresh : host.fields.get (HostFields.clone host rep).1 = none
  only : OnlyFields host (HostFields.clone host rep).2 (HostFields.clone host rep).1
    { entries := HostFields.copyAll host rep, immutable := false }
  clone_apart : ∀ later final, run Op.step (HostFields.clone host rep).2 later = some final →
    FewCreated (past ++ .fieldsClone rep :: later) →
    EachStep Op.step (SparesFields (HostFields.clone host rep).1) (HostFields.clone host rep).2
      later →
    final.fields.get (HostFields.clone host rep).1 =
      some { entries := HostFields.copyAll host rep, immutable := false }
  source_apart : ∀ later final, run Op.step (HostFields.clone host rep).2 later = some final →
    FewCreated (past ++ .fieldsClone rep :: later) →
    EachStep Op.step (SparesFields rep) (HostFields.clone host rep).2 later →
    ∀ data, host.fields.get rep = some data → final.fields.get rep = some data

/-- The options a clone starts with: those of its source, or the defaults. -/
def clonedOptions (host : WasiHttpHost) (rep : Rep) : RequestOptionsData :=
  { (host.options.get rep).getD {} with immutable := false }

structure OptionsCloned (past : List Op) (host : WasiHttpHost) (rep : Rep) : Prop where
  fresh : host.options.get (HostRequestOptions.clone host rep).1 = none
  only : OnlyOptions host (HostRequestOptions.clone host rep).2 (HostRequestOptions.clone host rep).1
    (clonedOptions host rep)
  clone_apart : ∀ later final,
    run Op.step (HostRequestOptions.clone host rep).2 later = some final →
    FewCreated (past ++ .optionsClone rep :: later) →
    EachStep Op.step (SparesOptions (HostRequestOptions.clone host rep).1)
      (HostRequestOptions.clone host rep).2 later →
    final.options.get (HostRequestOptions.clone host rep).1 = some (clonedOptions host rep)
  source_apart : ∀ later final,
    run Op.step (HostRequestOptions.clone host rep).2 later = some final →
    FewCreated (past ++ .optionsClone rep :: later) →
    EachStep Op.step (SparesOptions rep) (HostRequestOptions.clone host rep).2 later →
    ∀ data, host.options.get rep = some data → final.options.get rep = some data

variable {transport : Option HttpTransport} {past later : List Op}

theorem allocated_fields (hfew : FewCreated past)
    (hpast : run Op.step (start transport) past = some host) :
    Table.Allocated host.fields (Table.insertsOf Op.fieldsCreated past) := by
  have hempty : Table.Allocated (start transport).fields (Table.insertsOf Op.fieldsCreated []) :=
    Table.allocated_empty
  exact Table.allocated_run guarded_fields hempty hfew.1 hpast

theorem allocated_options (hfew : FewCreated past)
    (hpast : run Op.step (start transport) past = some host) :
    Table.Allocated host.options (Table.insertsOf Op.optionsCreated past) := by
  have hempty : Table.Allocated (start transport).options (Table.insertsOf Op.optionsCreated []) :=
    Table.allocated_empty
  exact Table.allocated_run guarded_options hempty hfew.2 hpast

theorem FewCreated.of_append (hfew : FewCreated (past ++ later)) : FewCreated past := by
  simp only [FewCreated, Table.insertsOf_append] at hfew ⊢
  omega

/-- Fields that no operation of a run names are as they were. -/
theorem fields_spared {data : FieldsData} (hpast : run Op.step (start transport) past = some host)
    (hlater : run Op.step host later = some final) (hfew : FewCreated (past ++ later))
    (hget : host.fields.get rep = some data)
    (hspares : EachStep Op.step (SparesFields rep) host later) :
    final.fields.get rep = some data :=
  Table.get_spared_run guarded_fields (allocated_fields hfew.of_append hpast) hfew.1 hlater hget
    hspares

theorem options_spared {data : RequestOptionsData}
    (hpast : run Op.step (start transport) past = some host)
    (hlater : run Op.step host later = some final) (hfew : FewCreated (past ++ later))
    (hget : host.options.get rep = some data)
    (hspares : EachStep Op.step (SparesOptions rep) host later) :
    final.options.get rep = some data :=
  Table.get_spared_run guarded_options (allocated_options hfew.of_append hpast) hfew.2 hlater hget
    hspares

theorem fieldsCloned (hfew : FewCreated past)
    (hpast : run Op.step (start transport) past = some host) (rep : Rep) :
    FieldsCloned past host rep := by
  have hallocated := allocated_fields hfew hpast
  have hclone : (HostFields.clone host rep).2.fields.get (HostFields.clone host rep).1 =
      some { entries := HostFields.copyAll host rep, immutable := false } :=
    Table.get_insert_self _ _
  have hafter : run Op.step (start transport) (past ++ [.fieldsClone rep]) =
      some (HostFields.clone host rep).2 := run_snoc_eq_some.mpr ⟨host, hpast, rfl⟩
  constructor
  · exact hallocated.fresh
  · refine ⟨hclone, ?_, rfl⟩
    intro other hne
    exact Table.get_insert_ne hne
  · intro later final hlater hroom hspares
    rw [List.append_cons] at hroom
    exact fields_spared hafter hlater hroom hclone hspares
  · intro later final hlater hroom hspares data hget
    rw [List.append_cons] at hroom
    exact fields_spared hafter hlater hroom (hallocated.get_insert hget _) hspares

theorem optionsCloned (hfew : FewCreated past)
    (hpast : run Op.step (start transport) past = some host) (rep : Rep) :
    OptionsCloned past host rep := by
  have hallocated := allocated_options hfew hpast
  have hclone : (HostRequestOptions.clone host rep).2.options.get
      (HostRequestOptions.clone host rep).1 = some (clonedOptions host rep) :=
    Table.get_insert_self _ _
  have hafter : run Op.step (start transport) (past ++ [.optionsClone rep]) =
      some (HostRequestOptions.clone host rep).2 := run_snoc_eq_some.mpr ⟨host, hpast, rfl⟩
  constructor
  · exact hallocated.fresh
  · refine ⟨hclone, ?_, rfl⟩
    intro other hne
    exact Table.get_insert_ne hne
  · intro later final hlater hroom hspares
    rw [List.append_cons] at hroom
    exact options_spared hafter hlater hroom hclone hspares
  · intro later final hlater hroom hspares data hget
    rw [List.append_cons] at hroom
    exact options_spared hafter hlater hroom (hallocated.get_insert hget _) hspares

/-! ## The main result -/

/-- Immutability is permanent and isolating, in every run that does not wrap the id
counter of a table. -/
theorem immutable_permanent_and_isolating
    (hpast : run Op.step (start transport) past = some host) (hfew : FewCreated past) :
    (∀ later final, run Op.step host later = some final → FewCreated (past ++ later) →
      (∀ rep data, host.fields.get rep = some data → data.immutable = true →
        final.fields.get rep = some data ∨ final.fields.get rep = none) ∧
      (∀ rep data, host.options.get rep = some data → data.immutable = true →
        final.options.get rep = some data ∨ final.options.get rep = none)) ∧
    (∀ rep, FieldsRefused host rep → ∀ name values value,
      HostFields.set host rep name values = (.error .immutable, host) ∧
      HostFields.append host rep name value = (.error .immutable, host) ∧
      HostFields.delete host rep name = (.error .immutable, host) ∧
      HostFields.getAndDelete host rep name = (.error .immutable, host)) ∧
    (∀ rep, OptionsRefused host rep → ∀ duration,
      HostRequestOptions.setConnectTimeout host rep duration = (.error .immutable, host) ∧
      HostRequestOptions.setFirstByteTimeout host rep duration = (.error .immutable, host) ∧
      HostRequestOptions.setBetweenBytesTimeout host rep duration = (.error .immutable, host)) ∧
    (∀ rep data, host.fields.get rep = some data → data.immutable = false →
      ∀ name values value,
      WritesFields host rep () (data.set name values) (HostFields.set host rep name values) ∧
      WritesFields host rep () (data.append name value) (HostFields.append host rep name value) ∧
      WritesFields host rep () (data.delete name) (HostFields.delete host rep name) ∧
      WritesFields host rep (data.get name) (data.delete name)
        (HostFields.getAndDelete host rep name)) ∧
    (∀ rep data, host.options.get rep = some data → data.immutable = false → ∀ duration,
      WritesOptions host rep { data with connectTimeout := duration }
        (HostRequestOptions.setConnectTimeout host rep duration) ∧
      WritesOptions host rep { data with firstByteTimeout := duration }
        (HostRequestOptions.setFirstByteTimeout host rep duration) ∧
      WritesOptions host rep { data with betweenBytesTimeout := duration }
        (HostRequestOptions.setBetweenBytesTimeout host rep duration)) ∧
    (∀ rep, FieldsCloned past host rep) ∧
    (∀ rep, OptionsCloned past host rep) := by
  refine ⟨?_, ?_, ?_, ?_, ?_, fieldsCloned hfew hpast, optionsCloned hfew hpast⟩
  · intro later final hlater hroom
    constructor
    · intro rep data hget himmutable
      exact Table.get_frozen_run guarded_fields (allocated_fields hfew hpast) hroom.1 hlater hget
        himmutable
    · intro rep data hget himmutable
      exact Table.get_frozen_run guarded_options (allocated_options hfew hpast) hroom.2 hlater hget
        himmutable
  · intro rep hrefused name values value
    exact ⟨mutate_refused hrefused _, mutate_refused hrefused _, mutate_refused hrefused _,
      mutate_refused hrefused _⟩
  · intro rep hrefused duration
    exact ⟨write_refused hrefused _, write_refused hrefused _, write_refused hrefused _⟩
  · intro rep data hget hmutable name values value
    exact ⟨mutate_writes hget hmutable fun data => ((), data.set name values),
      mutate_writes hget hmutable fun data => ((), data.append name value),
      mutate_writes hget hmutable fun data => ((), data.delete name),
      mutate_writes hget hmutable fun data => data.getAndDelete name⟩
  · intro rep data hget hmutable duration
    exact ⟨write_writes hget hmutable _, write_writes hget hmutable _,
      write_writes hget hmutable _⟩

/-- A request's headers and options are looked up, and are cloned behind that. -/
def examplePast : List Op :=
  [.fieldsFromList [("x".toList, [0x61])], .optionsNew,
    .elsewhere (Table.insert {} { headers := 1, options := some 1, body := none, trailers := none }).2
      {} none,
    .requestGetHeaders 1, .requestGetOptions 1]

def exampleLater : List Op :=
  [.fieldsClone 1, .fieldsChange 2 (.delete "X".toList), .fieldsChange 1 (.delete "X".toList),
    .optionsChange 1 (.connectTimeout (some 5))]

theorem immutable_permanent_and_isolating_example :
    ∃ host final, run Op.step (start none) examplePast = some host ∧
      run Op.step host exampleLater = some final ∧
      (final.fields.get 1 = host.fields.get 1 ∨ final.fields.get 1 = none) ∧
      (final.options.get 1 = host.options.get 1 ∨ final.options.get 1 = none) ∧
      HostFields.delete host 1 "X".toList = (.error .immutable, host) := by
  refine ⟨_, _, rfl, rfl, ?_⟩
  have hfew : FewCreated examplePast ∧ FewCreated (examplePast ++ exampleLater) := by
    constructor <;> constructor <;> decide
  obtain ⟨hpermanent, hrefused, -⟩ := immutable_permanent_and_isolating rfl hfew.1
  obtain ⟨hfields, hoptions⟩ := hpermanent exampleLater _ rfl hfew.2
  refine ⟨hfields 1 _ rfl rfl, hoptions 1 _ rfl rfl, ?_⟩
  refine (hrefused 1 ?_ "X".toList [] []).2.2.1
  intro data hget
  obtain rfl := Option.some.inj hget
  rfl

end HellohqRuntime.Http.Immutability

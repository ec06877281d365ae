import HellohqRuntime.Foundation.FlatMultimap
import HellohqRuntime.Http.System

/-!
# Fields as a case-insensitive multimap

`FieldsData` keeps its entries in one list.  Here it is compared with what it stands
for: a list of values for each name in lower case.  The two give the same answers
under any operations, and what no operation names keeps its place.
-/

namespace HellohqRuntime.Http.FieldsRefinement

open HellohqRuntime.Foundation
open HellohqRuntime.Foundation.Strings
open HellohqRuntime.Http.Resources
open HellohqRuntime.Http.System (FieldsChange)
open HellohqRuntime.Http.Tables
open HellohqRuntime.Http.Types

/-! ## The multimap -/

/-- The values of each name, which is in lower case. -/
abbrev Model := Text → List FieldValue

/-- What an operation answers, if it answers with values. -/
abbrev Answer := Option (List FieldValue)

/-- What the entries say about each name. -/
def Model.of (data : FieldsData) : Model := FlatMultimap.valuesOf toAsciiLowercase data.entries

/-- The operations on the multimap. -/
def Model.apply (model : Model) : FieldsChange → Answer × Model
  | .set name values => (none, Function.update model (toAsciiLowercase name) values)
  | .append name value =>
      (none, Function.update model (toAsciiLowercase name)
        (model (toAsciiLowercase name) ++ [value]))
  | .delete name => (none, Function.update model (toAsciiLowercase name) [])
  | .getAndDelete name =>
      (some (model (toAsciiLowercase name)), Function.update model (toAsciiLowercase name) [])

/-- The operations on the entries. -/
def perform (data : FieldsData) : FieldsChange → Answer × FieldsData
  | .set name values => (none, data.set name values)
  | .append name value => (none, data.append name value)
  | .delete name => (none, data.delete name)
  | .getAndDelete name => (some (data.getAndDelete name).1, (data.getAndDelete name).2)

/-- The answers of a sequence of operations, and what they leave. -/
def play {σ : Type} (apply : σ → FieldsChange → Answer × σ) :
    σ → List FieldsChange → List Answer × σ
  | state, [] => ([], state)
  | state, change :: rest =>
      let (answer, next) := apply state change
      let (answers, final) := play apply next rest
      (answer :: answers, final)

/-- The name an operation is about. -/
def nameOf : FieldsChange → FieldName
  | .set name _ => name
  | .append name _ => name
  | .delete name => name
  | .getAndDelete name => name

/-- The names of some operations, in lower case. -/
def named (changes : List FieldsChange) : List Text :=
  changes.map fun change => toAsciiLowercase (nameOf change)

/-! ## One operation -/

theorem nameMatches_eq (name candidate : FieldName) :
    FieldsData.nameMatches name candidate =
      decide (toAsciiLowercase candidate = toAsciiLowercase name) := by
  rw [Bool.eq_iff_iff, FieldsData.nameMatches, eqIgnoreAsciiCase_iff, decide_eq_true_eq, eq_comm]

theorem get_eq (data : FieldsData) (name : FieldName) :
    data.get name = Model.of data (toAsciiLowercase name) := by
  simp only [FieldsData.get, nameMatches_eq, Model.of, FlatMultimap.valuesOf]

/-- A name is there exactly if it has a value. -/
theorem has_iff (data : FieldsData) (name : FieldName) :
    data.has name = true ↔ Model.of data (toAsciiLowercase name) ≠ [] := by
  rw [Model.of, FlatMultimap.valuesOf_ne_nil, FieldsData.has, List.any_eq_true]
  simp only [nameMatches_eq, decide_eq_true_eq]

/-- The entries that an operation filters for, which are those of other names. -/
theorem delete_entries (data : FieldsData) (name : FieldName) :
    (data.delete name).entries =
      FlatMultimap.without toAsciiLowercase data.entries (toAsciiLowercase name) := by
  simp only [FieldsData.delete, nameMatches_eq, FlatMultimap.without, decide_not]

theorem of_delete (data : FieldsData) (name : FieldName) :
    Model.of (data.delete name) = Function.update (Model.of data) (toAsciiLowercase name) [] := by
  rw [Model.of, delete_entries, FlatMultimap.valuesOf_without, Model.of]

theorem set_entries (data : FieldsData) (name : FieldName) (values : List FieldValue) :
    (data.set name values).entries =
      FlatMultimap.without toAsciiLowercase data.entries (toAsciiLowercase name) ++
        values.map fun value => (name, value) := by
  simp only [FieldsData.set, nameMatches_eq, FlatMultimap.without, decide_not]

/-- One operation on the entries is the operation on the multimap. -/
theorem apply_of (data : FieldsData) (change : FieldsChange) :
    (Model.of data).apply change = ((perform data change).1, Model.of (perform data change).2) := by
  cases change with
  | set name values =>
      simp only [Model.apply, perform, Prod.mk.injEq, true_and]
      rw [Model.of, Model.of, set_entries, FlatMultimap.valuesOf_replace]
  | append name value =>
      simp only [Model.apply, perform, Prod.mk.injEq, true_and]
      rw [Model.of, Model.of, FieldsData.append, FlatMultimap.valuesOf_push]
  | delete name =>
      simp only [Model.apply, perform, of_delete]
  | getAndDelete name =>
      simp only [Model.apply, perform, FieldsData.getAndDelete, get_eq, of_delete]

/-- The entries of other names stay where they are. -/
theorem outside_perform {keys : List Text} {change : FieldsChange}
    (hnamed : toAsciiLowercase (nameOf change) ∈ keys) (data : FieldsData) :
    FlatMultimap.outside toAsciiLowercase keys (perform data change).2.entries =
      FlatMultimap.outside toAsciiLowercase keys data.entries := by
  cases change with
  | set name values =>
      simp only [nameOf] at hnamed
      rw [perform, set_entries, FlatMultimap.outside_append, FlatMultimap.outside_named hnamed,
        List.append_nil, FlatMultimap.outside_without hnamed]
  | append name value =>
      have hadded : FlatMultimap.outside toAsciiLowercase keys [(name, value)] = [] :=
        FlatMultimap.outside_named hnamed [value]
      rw [perform, FieldsData.append, FlatMultimap.outside_append, hadded, List.append_nil]
  | delete name =>
      simp only [nameOf] at hnamed
      rw [perform, delete_entries, FlatMultimap.outside_without hnamed]
  | getAndDelete name =>
      simp only [nameOf] at hnamed
      rw [perform, FieldsData.getAndDelete, delete_entries, FlatMultimap.outside_without hnamed]

/-- An operation reads and writes nothing but the entries. -/
theorem perform_congr {data copy : FieldsData} (hentries : copy.entries = data.entries)
    (change : FieldsChange) :
    (perform copy change).1 = (perform data change).1 ∧
      (perform copy change).2.entries = (perform data change).2.entries := by
  cases change with
  | set name values => exact ⟨rfl, by rw [perform, perform, set_entries, set_entries, hentries]⟩
  | append name value =>
      refine ⟨rfl, ?_⟩
      rw [perform, perform, FieldsData.append, FieldsData.append, hentries]
  | delete name => exact ⟨rfl, by rw [perform, perform, delete_entries, delete_entries, hentries]⟩
  | getAndDelete name =>
      simp only [perform, FieldsData.getAndDelete, delete_entries, get_eq, Model.of, hentries,
        and_self]

/-! ## Sequences of operations -/

/-- The entries refine the multimap, operation by operation. -/
theorem play_of (data : FieldsData) (changes : List FieldsChange) :
    play Model.apply (Model.of data) changes =
      ((play perform data changes).1, Model.of (play perform data changes).2) := by
  induction changes generalizing data with
  | nil => rfl
  | cons change rest ih => simp only [play, apply_of, ih]

theorem outside_play {keys : List Text} {changes : List FieldsChange}
    (hnamed : ∀ change ∈ changes, toAsciiLowercase (nameOf change) ∈ keys) (data : FieldsData) :
    FlatMultimap.outside toAsciiLowercase keys (play perform data changes).2.entries =
      FlatMultimap.outside toAsciiLowercase keys data.entries := by
  induction changes generalizing data with
  | nil => rfl
  | cons change rest ih =>
      have hrest := ih (fun other hother => hnamed other (List.mem_cons_of_mem change hother))
        (perform data change).2
      simp only [play]
      rw [hrest, outside_perform (hnamed change List.mem_cons_self)]

theorem play_congr {data copy : FieldsData} (hentries : copy.entries = data.entries)
    (changes : List FieldsChange) :
    (play perform copy changes).1 = (play perform data changes).1 ∧
      (play perform copy changes).2.entries = (play perform data changes).2.entries := by
  induction changes generalizing data copy with
  | nil => exact ⟨rfl, hentries⟩
  | cons change rest ih =>
      obtain ⟨hanswer, hnext⟩ := perform_congr hentries change
      obtain ⟨hanswers, hfinal⟩ := ih hnext
      simp only [play]
      exact ⟨by rw [hanswer, hanswers], hfinal⟩

/-- Nothing tells the two apart: no answer of a getter, and no answer of any later
operations or of a getter behind them. -/
def Indistinguishable (copy data : FieldsData) : Prop :=
  ∀ later : List FieldsChange,
    (play perform copy later).1 = (play perform data later).1 ∧
      (play perform copy later).2.entries = (play perform data later).2.entries ∧
      ∀ name, (play perform copy later).2.get name = (play perform data later).2.get name ∧
        (play perform copy later).2.has name = (play perform data later).2.has name

theorem indistinguishable_of_entries {data copy : FieldsData}
    (hentries : copy.entries = data.entries) : Indistinguishable copy data := by
  intro later
  obtain ⟨hanswers, hfinal⟩ := play_congr hentries later
  refine ⟨hanswers, hfinal, ?_⟩
  intro name
  constructor
  · rw [get_eq, get_eq, Model.of, Model.of, hfinal]
  · rw [Bool.eq_iff_iff, has_iff, has_iff, Model.of, Model.of, hfinal]

/-- `FieldsData` refines the case-insensitive ordered multimap. -/
theorem fieldsData_refines_multimap (data : FieldsData) (changes : List FieldsChange) :
    (play perform data changes).1 = (play Model.apply (Model.of data) changes).1 ∧
    (∀ name,
      (play perform data changes).2.get name =
        (play Model.apply (Model.of data) changes).2 (toAsciiLowercase name) ∧
      ((play perform data changes).2.has name = true ↔
        (play Model.apply (Model.of data) changes).2 (toAsciiLowercase name) ≠ [])) ∧
    FlatMultimap.outside toAsciiLowercase (named changes) (play perform data changes).2.entries =
      FlatMultimap.outside toAsciiLowercase (named changes) data.entries ∧
    ∀ host rep, host.fields.get rep = some (play perform data changes).2 →
      ∃ copy, (HostFields.clone host rep).2.fields.get (HostFields.clone host rep).1 = some copy ∧
        copy.immutable = false ∧ Indistinguishable copy (play perform data changes).2 := by
  rw [play_of]
  refine ⟨rfl, ?_, ?_, ?_⟩
  · intro name
    exact ⟨get_eq _ name, has_iff _ name⟩
  · apply outside_play
    intro change hchange
    exact List.mem_map_of_mem hchange
  · intro host rep hget
    refine ⟨_, Table.get_insert_self _ _, rfl, indistinguishable_of_entries ?_⟩
    rw [HostFields.copyAll, hget]
    rfl

end HellohqRuntime.Http.FieldsRefinement

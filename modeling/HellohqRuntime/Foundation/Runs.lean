import Mathlib.Data.List.Basic

/-!
# Labelled runs of a partial step function

A system is a function `step : State → Label → Option State`: every choice the
environment can make is in the label, and `none` means that the label is not
enabled.  A run takes a list of labels in order.  This module holds the
induction rules that invariants and histories of such systems use.
-/

namespace HellohqRuntime.Foundation.Runs

variable {State Label : Type*} {step : State → Label → Option State}

/-- Take the labels in order, stopping at the first one that is not enabled. -/
def run (step : State → Label → Option State) : State → List Label → Option State
  | state, [] => some state
  | state, label :: rest =>
      match step state label with
      | none => none
      | some next => run step next rest

/-- Every label of the run satisfies `Ok` in the state it is taken from. -/
def EachStep (step : State → Label → Option State) (Ok : State → Label → Prop) :
    State → List Label → Prop
  | _, [] => True
  | state, label :: rest =>
      Ok state label ∧
        match step state label with
        | none => True
        | some next => EachStep step Ok next rest

instance decidableEachStep (step : State → Label → Option State)
    (Ok : State → Label → Prop) [∀ state label, Decidable (Ok state label)] :
    ∀ state labels, Decidable (EachStep step Ok state labels)
  | _, [] => inferInstanceAs (Decidable True)
  | state, label :: rest =>
      match hstep : step state label with
      | none => decidable_of_iff (Ok state label) (by simp [EachStep, hstep])
      | some next =>
          letI := decidableEachStep step Ok next rest
          decidable_of_iff (Ok state label ∧ EachStep step Ok next rest)
            (by simp [EachStep, hstep])

/-- The first condition of a run whose first label is enabled, taken apart. -/
theorem eachStep_cons {Ok : State → Label → Prop} {state next : State} {label : Label}
    {rest : List Label} (hnext : step state label = some next) :
    EachStep step Ok state (label :: rest) ↔ Ok state label ∧ EachStep step Ok next rest := by
  rw [EachStep, hnext]

@[simp] theorem run_nil (state : State) : run step state [] = some state := rfl

/-- The first label of a run, taken apart. -/
theorem run_cons_eq_some {state final : State} {label : Label} {rest : List Label} :
    run step state (label :: rest) = some final ↔
      ∃ next, step state label = some next ∧ run step next rest = some final := by
  cases hstep : step state label <;> simp [run, hstep]

/-- A run of two words is a run of the first followed by a run of the second. -/
theorem run_append_eq_some {state final : State} {left right : List Label} :
    run step state (left ++ right) = some final ↔
      ∃ middle, run step state left = some middle ∧ run step middle right = some final := by
  induction left generalizing state with
  | nil => simp
  | cons label rest ih =>
      simp only [List.cons_append, run_cons_eq_some, ih]
      constructor
      · rintro ⟨next, hstep, middle, hleft, hright⟩
        exact ⟨middle, ⟨next, hstep, hleft⟩, hright⟩
      · rintro ⟨middle, ⟨next, hstep, hleft⟩, hright⟩
        exact ⟨next, hstep, middle, hleft, hright⟩

theorem run_singleton_eq_some {state final : State} {label : Label} :
    run step state [label] = some final ↔ step state label = some final := by
  simp [run_cons_eq_some]

/-- The last label of a run, taken apart. -/
theorem run_snoc_eq_some {state final : State} {past : List Label} {label : Label} :
    run step state (past ++ [label]) = some final ↔
      ∃ last, run step state past = some last ∧ step last label = some final := by
  simp only [run_append_eq_some, run_singleton_eq_some]

/-- What holds of a state and survives every step holds at the end of a run. -/
theorem run_preserves {Inv : State → Prop}
    (hstep : ∀ state label next, Inv state → step state label = some next → Inv next)
    {state final : State} {labels : List Label}
    (hinv : Inv state) (hrun : run step state labels = some final) : Inv final := by
  induction labels generalizing state with
  | nil =>
      obtain rfl : state = final := by simpa using hrun
      exact hinv
  | cons label rest ih =>
      obtain ⟨next, hnext, hrest⟩ := run_cons_eq_some.mp hrun
      exact ih (hstep state label next hinv hnext) hrest

/-- The invariant rule for runs whose every step meets a condition. -/
theorem run_preserves_of_eachStep {Inv : State → Prop} {Ok : State → Label → Prop}
    (hstep : ∀ state label next,
      Inv state → Ok state label → step state label = some next → Inv next)
    {state final : State} {labels : List Label}
    (hinv : Inv state) (hok : EachStep step Ok state labels)
    (hrun : run step state labels = some final) : Inv final := by
  induction labels generalizing state with
  | nil =>
      obtain rfl : state = final := by simpa using hrun
      exact hinv
  | cons label rest ih =>
      obtain ⟨next, hnext, hrest⟩ := run_cons_eq_some.mp hrun
      rw [eachStep_cons hnext] at hok
      exact ih (hstep state label next hinv hok.1 hnext) hok.2 hrest

/-- A weaker condition on the steps of a run. -/
theorem EachStep.mono {Ok Weaker : State → Label → Prop}
    (hweaker : ∀ state label, Ok state label → Weaker state label) {state : State}
    {labels : List Label} (hok : EachStep step Ok state labels) :
    EachStep step Weaker state labels := by
  induction labels generalizing state with
  | nil => exact trivial
  | cons label rest ih =>
      obtain ⟨hfirst, hrest⟩ := hok
      refine ⟨hweaker state label hfirst, ?_⟩
      cases hnext : step state label with
      | none => exact trivial
      | some next =>
          rw [hnext] at hrest
          exact ih hrest

/-- A condition on the labels alone. -/
theorem eachStep_of_forall {Ok : Label → Prop} {state : State} {labels : List Label}
    (hok : ∀ label ∈ labels, Ok label) : EachStep step (fun _ => Ok) state labels := by
  induction labels generalizing state with
  | nil => exact trivial
  | cons label rest ih =>
      obtain ⟨hfirst, hrest⟩ := List.forall_mem_cons.mp hok
      refine ⟨hfirst, ?_⟩
      cases step state label with
      | none => exact trivial
      | some next => exact ih hrest

/-- The conditions of a run, split where its first word ends. -/
theorem eachStep_append {Ok : State → Label → Prop} {state middle : State}
    {left right : List Label} (hrun : run step state left = some middle) :
    EachStep step Ok state (left ++ right) ↔
      EachStep step Ok state left ∧ EachStep step Ok middle right := by
  induction left generalizing state with
  | nil =>
      obtain rfl : state = middle := by simpa using hrun
      exact ⟨fun hok => ⟨trivial, hok⟩, fun hok => hok.2⟩
  | cons label rest ih =>
      obtain ⟨next, hnext, hrest⟩ := run_cons_eq_some.mp hrun
      rw [List.cons_append, eachStep_cons hnext, eachStep_cons hnext, ih hrest, and_assoc]

/-- Where a step outside the condition leaves a mark that stays, a run that ends
without the mark met the condition at every step. -/
theorem eachStep_of_unmarked {Inv Marked : State → Prop} {Ok : State → Label → Prop}
    (hstep : ∀ state label next, Inv state → step state label = some next → Inv next)
    (hmark : ∀ state label next,
      Inv state → ¬Ok state label → step state label = some next → Marked next)
    (hkeep : ∀ state label next,
      Inv state → Marked state → step state label = some next → Marked next)
    {state final : State} {labels : List Label} (hinv : Inv state)
    (hrun : run step state labels = some final) (hfinal : ¬Marked final) :
    EachStep step Ok state labels := by
  induction labels generalizing state with
  | nil => exact trivial
  | cons label rest ih =>
      obtain ⟨next, hnext, hrest⟩ := run_cons_eq_some.mp hrun
      have hafter := hstep state label next hinv hnext
      refine ⟨by_contra fun hbad => hfinal ?_, ?_⟩
      · have hboth : ∀ state label next, Inv state ∧ Marked state →
            step state label = some next → Inv next ∧ Marked next :=
          fun state label next hinv hnext =>
            ⟨hstep state label next hinv.1 hnext, hkeep state label next hinv.1 hinv.2 hnext⟩
        exact (run_preserves hboth ⟨hafter, hmark state label next hinv hbad hnext⟩ hrest).2
      · rw [hnext]
        exact ih hafter hrest

/-- Through a view under which each label is hidden or is a step of another system,
a run is a run of that system, and meets a condition where the other run does. -/
theorem run_project {View Action : Type*} {viewStep : View → Action → Option View}
    {Ok : State → Label → Prop} {ViewOk : View → Action → Prop}
    (view : State → View) (action : Label → Option Action)
    (hhidden : ∀ state label next, action label = none → step state label = some next →
      view next = view state)
    (hshown : ∀ state label next act, action label = some act → step state label = some next →
      viewStep (view state) act = some (view next))
    (hok : ∀ state label, Ok state label ↔ ∀ act ∈ action label, ViewOk (view state) act)
    {state final : State} {labels : List Label} (hrun : run step state labels = some final) :
    run viewStep (view state) (labels.filterMap action) = some (view final) ∧
      (EachStep step Ok state labels ↔
        EachStep viewStep ViewOk (view state) (labels.filterMap action)) := by
  induction labels generalizing state with
  | nil =>
      obtain rfl : state = final := by simpa using hrun
      exact ⟨rfl, Iff.rfl⟩
  | cons label rest ih =>
      obtain ⟨next, hnext, hrest⟩ := run_cons_eq_some.mp hrun
      obtain ⟨hview, hconditions⟩ := ih hrest
      rw [eachStep_cons hnext, hok, hconditions]
      cases haction : action label with
      | none =>
          rw [hhidden state label next haction hnext] at hview ⊢
          simpa [haction] using hview
      | some act =>
          have hstep := hshown state label next act haction hnext
          rw [List.filterMap_cons_some haction]
          exact ⟨run_cons_eq_some.mpr ⟨view next, hstep, hview⟩, by
            rw [eachStep_cons hstep]
            simp⟩

/-- Where every state short of the goal has a step that lowers a measure, a run
reaches the goal. -/
theorem exists_run_of_measure {Goal : State → Prop} (measure : State → Nat)
    (hprogress : ∀ state, ¬Goal state →
      ∃ label next, step state label = some next ∧ measure next < measure state)
    (state : State) : ∃ labels final, run step state labels = some final ∧ Goal final := by
  induction hsize : measure state using Nat.strongRecOn generalizing state with
  | ind size ih =>
      by_cases hgoal : Goal state
      · exact ⟨[], state, rfl, hgoal⟩
      · obtain ⟨label, next, hstep, hless⟩ := hprogress state hgoal
        obtain ⟨labels, final, hrun, hfinal⟩ := ih (measure next) (hsize ▸ hless) next rfl
        exact ⟨label :: labels, final, run_cons_eq_some.mpr ⟨next, hstep, hrun⟩, hfinal⟩

/-- Where a step keeps the invariant exactly if it meets a condition, the states of
a run all have the invariant exactly if its steps all meet the condition. -/
theorem forall_prefix_iff_eachStep {Inv : State → Prop} {Ok : State → Label → Prop}
    (hstep : ∀ state label next, Inv state → step state label = some next →
      (Inv next ↔ Ok state label))
    {state final : State} {labels : List Label} (hinv : Inv state)
    (hrun : run step state labels = some final) :
    (∀ past middle, past <+: labels → run step state past = some middle → Inv middle) ↔
      EachStep step Ok state labels := by
  induction labels generalizing state with
  | nil =>
      refine iff_of_true ?_ trivial
      intro past middle hpast hmiddle
      obtain rfl := List.prefix_nil.mp hpast
      obtain rfl : state = middle := by simpa using hmiddle
      exact hinv
  | cons label rest ih =>
      obtain ⟨next, hnext, hrest⟩ := run_cons_eq_some.mp hrun
      rw [eachStep_cons hnext]
      constructor
      · intro hall
        have hinvNext := hall [label] next ⟨rest, rfl⟩ (run_singleton_eq_some.mpr hnext)
        refine ⟨(hstep state label next hinv hnext).mp hinvNext, (ih hinvNext hrest).mp ?_⟩
        intro past middle hpast hmiddle
        exact hall (label :: past) middle (List.cons_prefix_cons.mpr ⟨rfl, hpast⟩)
          (run_cons_eq_some.mpr ⟨next, hnext, hmiddle⟩)
      · rintro ⟨hok, hokRest⟩ past middle hpast hmiddle
        have hinvNext := (hstep state label next hinv hnext).mpr hok
        cases past with
        | nil =>
            obtain rfl : state = middle := by simpa using hmiddle
            exact hinv
        | cons first more =>
            obtain ⟨rfl, hmore⟩ := List.cons_prefix_cons.mp hpast
            obtain ⟨other, hother, hmiddle⟩ := run_cons_eq_some.mp hmiddle
            obtain rfl := Option.some.inj (hnext.symm.trans hother)
            exact (ih hinvNext hrest).mpr hokRest more middle hmore hmiddle

/-- Relate the labels taken so far to the state they reach. -/
theorem run_history {Hist : List Label → State → Prop}
    (hstep : ∀ past state label next,
      Hist past state → step state label = some next → Hist (past ++ [label]) next)
    {past labels : List Label} {state final : State}
    (hhist : Hist past state) (hrun : run step state labels = some final) :
    Hist (past ++ labels) final := by
  induction labels generalizing past state with
  | nil =>
      obtain rfl : state = final := by simpa using hrun
      simpa using hhist
  | cons label rest ih =>
      obtain ⟨next, hnext, hrest⟩ := run_cons_eq_some.mp hrun
      simpa using ih (hstep past state label next hhist hnext) hrest

/-- The history rule for runs whose every step meets a condition. -/
theorem run_history_of_eachStep {Hist : List Label → State → Prop} {Ok : State → Label → Prop}
    (hstep : ∀ past state label next,
      Hist past state → Ok state label → step state label = some next → Hist (past ++ [label]) next)
    {past labels : List Label} {state final : State}
    (hhist : Hist past state) (hok : EachStep step Ok state labels)
    (hrun : run step state labels = some final) : Hist (past ++ labels) final := by
  induction labels generalizing past state with
  | nil =>
      obtain rfl : state = final := by simpa using hrun
      simpa using hhist
  | cons label rest ih =>
      obtain ⟨next, hnext, hrest⟩ := run_cons_eq_some.mp hrun
      rw [eachStep_cons hnext] at hok
      simpa using ih (hstep past state label next hhist hok.1 hnext) hok.2 hrest

/-! ## Traces of answered calls -/

/-- Calls with their answers, oldest first, each related to the states around it. -/
inductive Trace {Ask Answer : Type*} (Rel : State → Ask → Answer → State → Prop) (start : State) :
    List (Ask × Answer) → State → Prop
  | nil : Trace Rel start [] start
  | snoc {calls : List (Ask × Answer)} {state next : State} {ask : Ask} {answer : Answer}
      (htrace : Trace Rel start calls state) (hrel : Rel state ask answer next) :
      Trace Rel start (calls ++ [(ask, answer)]) next

/-- A trace goes on from what one call leaves. -/
theorem Trace.cons {Ask Answer : Type*} {Rel : State → Ask → Answer → State → Prop}
    {start middle final : State} {ask : Ask} {answer : Answer} {calls : List (Ask × Answer)}
    (hrel : Rel start ask answer middle) (htrace : Trace Rel middle calls final) :
    Trace Rel start ((ask, answer) :: calls) final := by
  induction htrace with
  | nil => exact Trace.snoc .nil hrel
  | snoc htrace hnext ih => exact ih.snoc hnext

theorem Trace.trans {Ask Answer : Type*} {Rel : State → Ask → Answer → State → Prop}
    {start middle final : State} {calls more : List (Ask × Answer)}
    (htrace : Trace Rel start calls middle) (hmore : Trace Rel middle more final) :
    Trace Rel start (calls ++ more) final := by
  induction hmore with
  | nil => rwa [List.append_nil]
  | snoc hrest hrel ih =>
      rw [← List.append_assoc]
      exact ih.snoc hrel

theorem eq_of_trace_nil {Ask Answer : Type*} {Rel : State → Ask → Answer → State → Prop}
    {start final : State} (htrace : Trace Rel start [] final) : final = start := by
  generalize hnone : [] = none at htrace
  cases htrace with
  | nil => rfl
  | snoc htrace hrel => exact absurd hnone.symm (List.append_ne_nil_of_right_ne_nil _ (by simp))

/-- The first call of a trace, taken apart. -/
theorem trace_cons_iff {Ask Answer : Type*} {Rel : State → Ask → Answer → State → Prop}
    {start final : State} {ask : Ask} {answer : Answer} {calls : List (Ask × Answer)} :
    Trace Rel start ((ask, answer) :: calls) final ↔
      ∃ middle, Rel start ask answer middle ∧ Trace Rel middle calls final := by
  constructor
  · intro htrace
    generalize hall : (ask, answer) :: calls = all at htrace
    induction htrace generalizing calls with
    | nil => cases hall
    | @snoc before state next other reply htrace hrel ih =>
        cases before with
        | nil =>
            obtain ⟨hfirst, rfl⟩ := List.cons.inj hall
            obtain ⟨rfl, rfl⟩ := Prod.mk.inj hfirst
            obtain rfl := eq_of_trace_nil htrace
            exact ⟨next, hrel, .nil⟩
        | cons first rest =>
            obtain ⟨rfl, rfl⟩ := List.cons.inj hall
            obtain ⟨middle, hfirst, hrest⟩ := ih rfl
            exact ⟨middle, hfirst, hrest.snoc hrel⟩
  · rintro ⟨middle, hrel, htrace⟩
    exact Trace.cons hrel htrace

/-- Through a view under which each call is hidden or is one of another system, a trace is
a trace of that system. -/
theorem Trace.project {Ask Answer View Other Reply : Type*}
    {Rel : State → Ask → Answer → State → Prop} {ViewRel : View → Other → Reply → View → Prop}
    (view : State → View) (shown : Ask × Answer → Option (Other × Reply))
    (hhidden : ∀ state ask answer next, shown (ask, answer) = none → Rel state ask answer next →
      view next = view state)
    (hshown : ∀ state ask answer next other reply, shown (ask, answer) = some (other, reply) →
      Rel state ask answer next → ViewRel (view state) other reply (view next))
    {start final : State} {calls : List (Ask × Answer)} (htrace : Trace Rel start calls final) :
    Trace ViewRel (view start) (calls.filterMap shown) (view final) := by
  induction htrace with
  | nil => exact .nil
  | @snoc calls state next ask answer htrace hrel ih =>
      rw [List.filterMap_append]
      cases hcall : shown (ask, answer) with
      | none =>
          rw [hhidden state ask answer next hcall hrel]
          simpa [hcall] using ih
      | some call =>
          have hnext := ih.snoc (hshown state ask answer next call.1 call.2 hcall hrel)
          simpa [hcall] using hnext

end HellohqRuntime.Foundation.Runs

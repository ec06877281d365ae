import HellohqRuntime.Bridge.Freeing
import HellohqRuntime.Bridge.StreamDriver

/-!
# Freeing a driver

`Drop` closes the inbound stream, disconnects the outbound one, and joins the worker.
To the driver that is a caller that has pushed its last chunk: it says what it says
alone to the chunks pushed until then, and the join returns when it does.
-/

namespace HellohqRuntime.Bridge.FreedDriver

open HellohqRuntime.Foundation.Runs
open HellohqRuntime.Foundation.Strings
open HellohqRuntime.Bridge.Freeing (FreedStream Phase isOver)
open HellohqRuntime.Bridge.Reporting
open HellohqRuntime.Bridge.Stream
open HellohqRuntime.Bridge.StreamDriver

variable {σ : Type}

structure FreedDriven (σ : Type) where
  driven : DrivenStream σ
  phase : Phase := .live

inductive Move where
  | turn (turn : Turn)
  | closeInbound
  | disconnect
  | join

namespace FreedDriven

def start (driver : Driver σ) : FreedDriven σ where
  driven := .start driver

/-- The caller makes calls while the session is live, the worker goes on in every phase. -/
def advance (driver : Driver σ) (state : FreedDriven σ) (turn : Turn) : Option (FreedDriven σ) :=
  if state.phase = .live ∨ turn.isWorker = true then
    (state.driven.step driver turn).map fun driven => { state with driven }
  else none

/-- A step of `Drop`. -/
def dropping (state : FreedDriven σ) (step : FreedStream → Option FreedStream) :
    Option (FreedDriven σ) :=
  (step { run := state.driven.run, phase := state.phase }).map fun freed =>
    { driven := { state.driven with run := freed.run }, phase := freed.phase }

def step (driver : Driver σ) (state : FreedDriven σ) : Move → Option (FreedDriven σ)
  | .turn turn => state.advance driver turn
  | .closeInbound => state.dropping FreedStream.closeInbound
  | .disconnect => state.dropping FreedStream.disconnect
  | .join => state.dropping FreedStream.join

end FreedDriven

/-- What a move is to the driver. -/
def Move.asTurn : Move → Option Turn
  | .turn taken => some taken
  | .closeInbound => some .pushEnd
  | _ => none

def turnsOf (moves : List Move) : List Turn := moves.filterMap Move.asTurn

/-- What was pushed until the inbound stream was ended, by the caller or by the free. -/
def pushedIn (moves : List Move) : List Bytes := pushedBy (turnsOf moves)

def workerTurns (moves : List Move) : Nat := (turnsOf moves).countP Turn.isWorker

/-- What becomes of a driver whose session is being freed. -/
structure Freed (driver : Driver σ) (moves : List Move) (state : FreedDriven σ) : Prop where
  /-- The worker can go on until it returns. -/
  worker : state.driven.run.report = .running →
    ∃ next, state.step driver (.turn .worker) = some next
  /-- Behind the join the driver has said all that it says alone to what was pushed. -/
  joined : state.phase = .joined → ∃ said ending,
    Halts driver (driver.start, pushedIn moves) said ending ∧
      state.driven.run.report = reportOf ending ∧ workerTurns moves = cost said + 1
  /-- Where the driver halts at all the free returns. -/
  returns : ∀ said ending, Halts driver (driver.start, pushedIn moves) said ending →
    workerTurns moves ≤ cost said + 1 ∧
    ∃ more final, run (FreedDriven.step driver) state more = some final ∧ final.phase = .joined

variable {driver : Driver σ} {state next final : FreedDriven σ} {moves : List Move} {move : Move}
variable {here other after : P3sRun} {label : Label}

/-! ## Beside a session that is not freed -/

/-- What a worker has to do with is the same in two runs. -/
structure Beside (here other : P3sRun) : Prop where
  inTx : other.stream.inTx = here.stream.inTx
  report : other.report = here.report
  waiting : other.waiting = here.waiting
  received : other.received = here.received

theorem Beside.refl (here : P3sRun) : Beside here here := ⟨rfl, rfl, rfl, rfl⟩

theorem Beside.symm (hbeside : Beside here other) : Beside other here :=
  ⟨hbeside.inTx.symm, hbeside.report.symm, hbeside.waiting.symm, hbeside.received.symm⟩

/-- The worker makes the same step in both. -/
theorem Beside.step (hbeside : Beside here other) (hworker : label.isWorker = true)
    (hstep : here.step label = some after) :
    ∃ otherAfter, other.step label = some otherAfter ∧ Beside after otherAfter := by
  obtain ⟨hinTx, hreport, hwaiting, hreceived⟩ := hbeside
  cases label with
  | chunk bytes =>
      obtain ⟨hrunning, rfl⟩ := whileRunning_eq_some.mp hstep
      exact ⟨_, whileRunning_eq_some.mpr ⟨hreport.trans hrunning, rfl⟩, hinTx, hreport, hwaiting,
        hreceived⟩
  | endOut =>
      obtain ⟨hrunning, rfl⟩ := whileRunning_eq_some.mp hstep
      exact ⟨_, whileRunning_eq_some.mpr ⟨hreport.trans hrunning, rfl⟩, hinTx, hreport, hwaiting,
        hreceived⟩
  | await =>
      obtain ⟨hreceiving, hawait⟩ := Option.ite_none_right_eq_some.mp hstep
      obtain ⟨hrunning, rfl⟩ := whileRunning_eq_some.mp hawait
      exact ⟨_, Option.ite_none_right_eq_some.mpr ⟨hinTx ▸ hreceiving,
        whileRunning_eq_some.mpr ⟨hreport.trans hrunning, rfl⟩⟩, hinTx, hreport, rfl, hreceived⟩
  | wake =>
      obtain ⟨hawaits, hready, rfl⟩ := wake_eq_some.mp hstep
      refine ⟨_, wake_eq_some.mpr ⟨hwaiting.trans hawaits, hinTx ▸ hready, rfl⟩, ?_, hreport, rfl,
        ?_⟩
      · simp only [hinTx]
      · simp only [hinTx, hreceived]
  | dropInbound =>
      obtain ⟨hidle, hdrop⟩ := Option.ite_none_left_eq_some.mp hstep
      obtain ⟨hrunning, rfl⟩ := whileRunning_eq_some.mp hdrop
      refine ⟨_, Option.ite_none_left_eq_some.mpr ⟨hwaiting ▸ hidle,
        whileRunning_eq_some.mpr ⟨hreport.trans hrunning, rfl⟩⟩, ?_, hreport, hwaiting, hreceived⟩
      simp only [hinTx]
  | finish result =>
      obtain ⟨hrunning, rfl⟩ := whileRunning_eq_some.mp hstep
      refine ⟨_, whileRunning_eq_some.mpr ⟨hreport.trans hrunning, rfl⟩, ?_, rfl, rfl, hreceived⟩
      simp only [P3sRun.ended, hinTx]
  | vanish =>
      obtain ⟨hrunning, rfl⟩ := whileRunning_eq_some.mp hstep
      refine ⟨_, whileRunning_eq_some.mpr ⟨hreport.trans hrunning, rfl⟩, ?_, rfl, rfl, hreceived⟩
      simp only [P3sRun.ended, hinTx]
  | poll => cases hworker
  | push chunk => cases hworker
  | pushEnd => cases hworker

/-- A worker that has returned does not run again. -/
theorem over_step (hworker : label.isWorker = true) (hstep : here.step label = some after)
    (hover : here.report ≠ .running) : after.report ≠ .running := by
  cases label with
  | chunk bytes => exact absurd (whileRunning_eq_some.mp hstep).1 hover
  | endOut => exact absurd (whileRunning_eq_some.mp hstep).1 hover
  | await =>
      obtain ⟨-, hawait⟩ := Option.ite_none_right_eq_some.mp hstep
      exact absurd (whileRunning_eq_some.mp hawait).1 hover
  | wake =>
      obtain ⟨-, -, rfl⟩ := wake_eq_some.mp hstep
      exact hover
  | dropInbound =>
      obtain ⟨-, hdrop⟩ := Option.ite_none_left_eq_some.mp hstep
      exact absurd (whileRunning_eq_some.mp hdrop).1 hover
  | finish result => exact absurd (whileRunning_eq_some.mp hstep).1 hover
  | vanish => exact absurd (whileRunning_eq_some.mp hstep).1 hover
  | poll => cases hworker
  | push chunk => cases hworker
  | pushEnd => cases hworker

theorem isWorker_label (due : Due) (waiting : Bool) : (due.label waiting).isWorker = true := by
  cases due with
  | done ending => cases ending <;> rfl
  | call call => cases call <;> cases waiting <;> rfl

/-- The worker takes the same turn in both. -/
theorem worker_beside {driven shadow after : DrivenStream σ} (hnow : shadow.now = driven.now)
    (hbeside : Beside driven.run shadow.run) (hstep : driven.worker driver = some after) :
    ∃ shadowAfter, shadow.worker driver = some shadowAfter ∧ shadowAfter.now = after.now ∧
      Beside after.run shadowAfter.run := by
  obtain ⟨run, hrun, rfl⟩ := Option.map_eq_some_iff.mp hstep
  obtain ⟨other, hother, hafter⟩ := hbeside.step (isWorker_label _ _) hrun
  refine ⟨_, Option.map_eq_some_iff.mpr ⟨other, ?_, rfl⟩, ?_, hafter⟩
  · rw [hnow, hbeside.waiting]
    exact hother
  · simp only [DrivenStream.goesOn, hnow, hbeside.waiting, hafter.received]

/-- A session that is not freed has taken the same turns, with the end of the inbound
stream where this one is freed. -/
structure Shadowed (driver : Driver σ) (moves : List Move) (state : FreedDriven σ) : Prop where
  shadow : ∃ shadow : DrivenStream σ,
    run (DrivenStream.step driver) (.start driver) (turnsOf moves) = some shadow ∧
    shadow.now = state.driven.now ∧ Beside state.driven.run shadow.run ∧
    (state.phase = .live → shadow = state.driven)
  closed : state.phase ≠ .live → .pushEnd ∈ turnsOf moves
  stopped : state.phase = .joined → state.driven.run.report ≠ .running

theorem turnsOf_concat (moves : List Move) (move : Move) :
    turnsOf (moves ++ [move]) = turnsOf moves ++ move.asTurn.toList := by
  rw [turnsOf, List.filterMap_append, ← turnsOf]
  cases hturn : move.asTurn with
  | none => rw [List.filterMap_cons_none hturn]; rfl
  | some turn => rw [List.filterMap_cons_some hturn]; rfl

theorem shadowed_start (driver : Driver σ) : Shadowed driver [] (.start driver) where
  shadow := ⟨_, rfl, rfl, .refl _, fun _ => rfl⟩
  closed := fun hfreed => absurd rfl hfreed
  stopped := fun hjoined => by cases hjoined

theorem shadowed_turn {turn : Turn} (hshadowed : Shadowed driver moves state)
    (hstep : state.advance driver turn = some next) :
    Shadowed driver (moves ++ [.turn turn]) next := by
  obtain ⟨hwho, hmap⟩ := Option.ite_none_right_eq_some.mp hstep
  obtain ⟨driven, hdriven, rfl⟩ := Option.map_eq_some_iff.mp hmap
  obtain ⟨shadow, hrun, hnow, hbeside, hsame⟩ := hshadowed.shadow
  have hclosed : state.phase ≠ .live → .pushEnd ∈ turnsOf (moves ++ [.turn turn]) := by
    intro hfreed
    rw [turnsOf_concat]
    exact List.mem_append_left _ (hshadowed.closed hfreed)
  by_cases hlive : state.phase = .live
  · refine ⟨⟨driven, ?_, rfl, .refl _, fun _ => rfl⟩, hclosed, fun hjoined => ?_⟩
    · rw [turnsOf_concat]
      exact run_append_eq_some.mpr ⟨shadow, hrun, run_singleton_eq_some.mpr (hsame hlive ▸ hdriven)⟩
    · exact absurd (hlive.symm.trans hjoined) (by decide)
  · cases turn with
    | worker =>
        obtain ⟨after, hafter, hthere, hnext⟩ := worker_beside hnow hbeside hdriven
        refine ⟨⟨after, ?_, hthere, hnext, fun hagain => absurd hagain hlive⟩, hclosed,
          fun hjoined => ?_⟩
        · rw [turnsOf_concat]
          exact run_append_eq_some.mpr ⟨shadow, hrun, run_singleton_eq_some.mpr hafter⟩
        · obtain ⟨run, hstepped, rfl⟩ := Option.map_eq_some_iff.mp hdriven
          exact over_step (isWorker_label _ _) hstepped (hshadowed.stopped hjoined)
    | poll => exact absurd (hwho.resolve_left hlive) (by decide)
    | push chunk => exact absurd (hwho.resolve_left hlive) (by simp [Turn.isWorker])
    | pushEnd => exact absurd (hwho.resolve_left hlive) (by decide)

theorem shadowed_step (hshadowed : Shadowed driver moves state)
    (hstep : state.step driver move = some next) : Shadowed driver (moves ++ [move]) next := by
  obtain ⟨shadow, hrun, hnow, hbeside, hsame⟩ := hshadowed.shadow
  cases move with
  | turn turn => exact shadowed_turn hshadowed hstep
  | closeInbound =>
      obtain ⟨freed, hfreed, rfl⟩ := Option.map_eq_some_iff.mp hstep
      obtain ⟨hlive, hafter⟩ := Option.ite_none_right_eq_some.mp hfreed
      obtain rfl := Option.some.inj hafter
      obtain rfl := hsame hlive
      have hturns : turnsOf (moves ++ [.closeInbound]) = turnsOf moves ++ [.pushEnd] :=
        turnsOf_concat moves .closeInbound
      refine ⟨⟨_, ?_, rfl, .refl _, nofun⟩, fun _ => ?_, nofun⟩
      · rw [hturns]
        exact run_append_eq_some.mpr ⟨_, hrun, run_singleton_eq_some.mpr rfl⟩
      · rw [hturns]
        exact List.mem_append_right _ (List.mem_singleton.mpr rfl)
  | disconnect =>
      obtain ⟨freed, hfreed, rfl⟩ := Option.map_eq_some_iff.mp hstep
      obtain ⟨hreleased, hafter⟩ := Option.ite_none_right_eq_some.mp hfreed
      obtain rfl := Option.some.inj hafter
      have hturns : turnsOf (moves ++ [.disconnect]) = turnsOf moves :=
        (turnsOf_concat moves .disconnect).trans (List.append_nil _)
      refine ⟨⟨shadow, by rw [hturns]; exact hrun, hnow, ⟨hbeside.inTx, hbeside.report,
        hbeside.waiting, hbeside.received⟩, nofun⟩, fun _ => ?_, nofun⟩
      rw [hturns]
      exact hshadowed.closed fun hlive => absurd (hreleased.symm.trans hlive) (by decide)
  | join =>
      obtain ⟨freed, hfreed, rfl⟩ := Option.map_eq_some_iff.mp hstep
      obtain ⟨⟨hgone, hover⟩, hafter⟩ := Option.ite_none_right_eq_some.mp hfreed
      obtain rfl := Option.some.inj hafter
      have hturns : turnsOf (moves ++ [.join]) = turnsOf moves :=
        (turnsOf_concat moves .join).trans (List.append_nil _)
      refine ⟨⟨shadow, by rw [hturns]; exact hrun, hnow, hbeside, nofun⟩, fun _ => ?_, fun _ => ?_⟩
      · rw [hturns]
        exact hshadowed.closed fun hlive => absurd (hgone.symm.trans hlive) (by decide)
      · intro hrunning
        have hreturned : isOver state.driven.run.report = true := hover
        rw [hrunning] at hreturned
        cases hreturned

theorem shadowed_run (hrun : run (FreedDriven.step driver) (.start driver) moves = some state) :
    Shadowed driver moves state :=
  run_history (fun _ _ _ _ => shadowed_step) (shadowed_start driver) hrun

/-! ## The free returns -/

theorem continues_pushedIn (moves : List Move) : Continues (turnsOf moves) (pushedIn moves) :=
  ⟨List.prefix_refl _, fun _ => rfl⟩

theorem Shadowed.tracks (hshadowed : Shadowed driver moves state) :
    ∃ shadow, Tracks driver (turnsOf moves) shadow ∧ Paced driver (turnsOf moves) shadow ∧
      shadow.now = state.driven.now ∧ Beside state.driven.run shadow.run := by
  obtain ⟨shadow, hrun, hnow, hbeside, -⟩ := hshadowed.shadow
  exact ⟨shadow, tracks_run hrun, paced_of_run driver _ shadow hrun, hnow, hbeside⟩

/-- Nothing keeps the worker of a session that is being freed from going on. -/
theorem Shadowed.goes_on (hshadowed : Shadowed driver moves state) (hfreed : state.phase ≠ .live)
    (hrunning : state.driven.run.report = .running) :
    ∃ next, state.step driver (.turn .worker) = some next := by
  obtain ⟨shadow, -, hpaced, hnow, hbeside⟩ := hshadowed.tracks
  obtain ⟨after, hafter⟩ | hstarved := hpaced.worker (hbeside.report.trans hrunning)
  · obtain ⟨driven, hdriven, -⟩ := worker_beside hnow.symm hbeside.symm hafter
    exact ⟨_, Option.ite_none_right_eq_some.mpr
      ⟨.inr rfl, Option.map_eq_some_iff.mpr ⟨driven, hdriven, rfl⟩⟩⟩
  · exact absurd (hshadowed.closed hfreed) hstarved.live

/-- A worker that has returned has said what its driver says alone. -/
theorem Shadowed.returned (hshadowed : Shadowed driver moves state)
    (hstopped : state.driven.run.report ≠ .running) :
    ∃ said ending, Halts driver (driver.start, pushedIn moves) said ending ∧
      state.driven.run.report = reportOf ending ∧ workerTurns moves = cost said + 1 := by
  obtain ⟨shadow, htracks, -, -, hbeside⟩ := hshadowed.tracks
  obtain ⟨said, ending, hhalts, hreport, hturns, -⟩ :=
    htracks.returned (hbeside.report.symm ▸ hstopped) (continues_pushedIn moves)
  exact ⟨said, ending, hhalts, hbeside.report.symm.trans hreport, hturns⟩

/-- The worker of a driver that halts returns. -/
theorem exists_returned {said : List (DriverCall × Option Bytes)}
    {ending : Option (Except Text Bytes)} (hshadowed : Shadowed driver moves state)
    (hfreed : state.phase ≠ .live)
    (hhalts : Halts driver (driver.start, pushedIn moves) said ending) :
    ∃ more final, run (FreedDriven.step driver) state more = some final ∧
      final.phase = state.phase ∧ final.driven.run.report ≠ .running := by
  induction hleft : cost said + 1 - workerTurns moves using Nat.strongRecOn
    generalizing moves state with
  | ind left ih =>
      by_cases hrunning : state.driven.run.report = .running
      · obtain ⟨next, hnext⟩ := hshadowed.goes_on hfreed hrunning
        have hafter := shadowed_step hshadowed hnext
        have hphase : next.phase = state.phase := by
          obtain ⟨-, hmap⟩ := Option.ite_none_right_eq_some.mp hnext
          obtain ⟨driven, -, rfl⟩ := Option.map_eq_some_iff.mp hmap
          rfl
        have hpushed : pushedIn (moves ++ [.turn .worker]) = pushedIn moves := by
          rw [pushedIn, turnsOf_concat, pushedBy, List.filterMap_append]
          exact congrArg _ (List.append_nil _)
        have hturns : workerTurns (moves ++ [.turn .worker]) = workerTurns moves + 1 := by
          rw [workerTurns, turnsOf_concat, List.countP_append]
          rfl
        have hthere : next.phase ≠ .live := hphase ▸ hfreed
        rw [← hpushed] at hhalts
        obtain ⟨shadow, -, hpaced, -⟩ := hafter.tracks
        have hbound := (hpaced.bounded _ said ending (continues_pushedIn _) hhalts).1
        rw [← workerTurns] at hbound
        obtain ⟨more, final, hrun, hfinal, hstopped⟩ :=
          ih (cost said + 1 - workerTurns (moves ++ [.turn .worker])) (by omega) hafter hthere
            hhalts rfl
        exact ⟨.turn .worker :: more, final, run_cons_eq_some.mpr ⟨next, hnext, hrun⟩,
          hfinal.trans hphase, hstopped⟩
      · exact ⟨[], state, rfl, rfl, hrunning⟩

/-- Behind a worker that has returned the rest of `Drop` goes through. -/
theorem exists_joined_of_over (hfreed : state.phase ≠ .live)
    (hstopped : state.driven.run.report ≠ .running) :
    ∃ more final, run (FreedDriven.step driver) state more = some final ∧
      final.phase = .joined := by
  have hover : isOver state.driven.run.report = true := by
    cases hreport : state.driven.run.report with
    | running => exact absurd hreport hstopped
    | done result => rfl
    | vanished => rfl
  have hjoin : ∀ gone : FreedDriven σ, gone.phase = .disconnected →
      gone.driven.run.report = state.driven.run.report →
      ∃ final, gone.step driver .join = some final ∧ final.phase = .joined := by
    intro gone hphase hreport
    exact ⟨_, Option.map_eq_some_iff.mpr
      ⟨_, Option.ite_none_right_eq_some.mpr ⟨⟨hphase, hreport ▸ hover⟩, rfl⟩, rfl⟩, rfl⟩
  cases hphase : state.phase with
  | live => exact absurd hphase hfreed
  | released =>
      have hgone : ∃ gone, state.step driver .disconnect = some gone ∧ gone.phase = .disconnected ∧
          gone.driven.run.report = state.driven.run.report :=
        ⟨_, Option.map_eq_some_iff.mpr
          ⟨_, Option.ite_none_right_eq_some.mpr ⟨hphase, rfl⟩, rfl⟩, rfl, rfl⟩
      obtain ⟨gone, hstep, hdisconnected, hreport⟩ := hgone
      obtain ⟨final, hfinal, hjoined⟩ := hjoin gone hdisconnected hreport
      exact ⟨[.disconnect, .join], final,
        run_cons_eq_some.mpr ⟨gone, hstep, run_singleton_eq_some.mpr hfinal⟩, hjoined⟩
  | disconnected =>
      obtain ⟨final, hfinal, hjoined⟩ := hjoin state hphase rfl
      exact ⟨[.join], final, run_singleton_eq_some.mpr hfinal, hjoined⟩
  | joined => exact ⟨[], state, rfl, hphase⟩

/-- Freeing a driver at any moment lets it run to its end as if the inbound stream had been
ended there, and the join then returns. -/
theorem driver_freed_of_run (driver : Driver σ) (moves : List Move) (state : FreedDriven σ)
    (hrun : run (FreedDriven.step driver) (.start driver) moves = some state)
    (hfreed : state.phase ≠ .live) : Freed driver moves state := by
  have hshadowed := shadowed_run hrun
  constructor
  case worker => exact hshadowed.goes_on hfreed
  case joined => exact fun hjoined => hshadowed.returned (hshadowed.stopped hjoined)
  case returns =>
    intro said ending hhalts
    obtain ⟨shadow, -, hpaced, -⟩ := hshadowed.tracks
    refine ⟨(hpaced.bounded _ said ending (continues_pushedIn moves) hhalts).1, ?_⟩
    obtain ⟨more, middle, hmiddle, hphase, hstopped⟩ := exists_returned hshadowed hfreed hhalts
    obtain ⟨rest, final, hfinal, hjoined⟩ := exists_joined_of_over (hphase ▸ hfreed) hstopped
    exact ⟨more ++ rest, final, run_append_eq_some.mpr ⟨middle, hmiddle, hfinal⟩, hjoined⟩

/-- The echo, freed between its two requests. -/
theorem driver_freed_of_run_example :
    ∃ state, run (FreedDriven.step p3sEchoDriver) (.start p3sEchoDriver)
        [.turn .worker, .turn (.push [0x31]), .turn .poll, .closeInbound] = some state ∧
      Freed p3sEchoDriver [.turn .worker, .turn (.push [0x31]), .turn .poll, .closeInbound] state :=
  ⟨_, rfl, driver_freed_of_run _ _ _ rfl nofun⟩

end HellohqRuntime.Bridge.FreedDriver

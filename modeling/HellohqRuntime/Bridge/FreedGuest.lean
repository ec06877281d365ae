import HellohqRuntime.Bridge.Freeing
import HellohqRuntime.Bridge.ServedSession

/-!
# Freeing a served session

The app frees the session at any moment while the guest on the worker thread goes on.
The guest then has what the app answered before, and every other call fails: its
conversation is the one with a server that goes away.  `Drop` returns, after a number
of steps that the guest's own calls bound.
-/

namespace HellohqRuntime.Bridge.FreedGuest

open HellohqRuntime.Foundation.Channels
open HellohqRuntime.Foundation.Programs
open HellohqRuntime.Foundation.Runs
open HellohqRuntime.Foundation.Strings
open HellohqRuntime.Bridge.Freeing
open HellohqRuntime.Bridge.HostCalls
open HellohqRuntime.Bridge.Reporting
open HellohqRuntime.Bridge.ServedSession
open HellohqRuntime.Bridge.Session
open HellohqRuntime.Bridge.Waiting

variable {σ : Type}

/-! ## The session and its end -/

structure FreedServed (σ : Type) where
  served : ServedRun σ
  phase : Phase := .live

inductive Move where
  | turn (turn : Turn)
  | takeRespond
  | disconnect
  | join

def isWorker : Turn → Bool
  | .worker => true
  | _ => false

def isAnswer : Turn → Bool
  | .answer => true
  | _ => false

/-- The moves with which the app answers. -/
def Move.answers : Move → Bool
  | .turn taken => isAnswer taken
  | _ => false

namespace FreedServed

def start (drive : Drive) (guest : Guest) (app : σ) : FreedServed σ :=
  { served := .start drive guest app }

/-- The session without its guest and its app. -/
def freed (state : FreedServed σ) : FreedSession := { run := state.served.run, phase := state.phase }

/-- A step of `Drop` on the session. -/
def dropping (state : FreedServed σ) (step : FreedSession → Option FreedSession) :
    Option (FreedServed σ) :=
  (step state.freed).map fun freed =>
    { served := { state.served with run := freed.run }, phase := freed.phase }

/-- The caller takes its turns while the session is live, the worker in every phase. -/
def advance (serve : Server σ Bytes Bytes) (state : FreedServed σ) (turn : Turn) :
    Option (FreedServed σ) :=
  if state.phase = .live ∨ isWorker turn = true then
    (state.served.step serve turn).map fun served => { state with served }
  else none

def step (serve : Server σ Bytes Bytes) (state : FreedServed σ) : Move → Option (FreedServed σ)
  | .turn turn => state.advance serve turn
  | .takeRespond => state.dropping FreedSession.takeRespond
  | .disconnect => state.dropping FreedSession.disconnect
  | .join => state.dropping FreedSession.join

end FreedServed

/-! ## While the session is live -/

abbrev Said := List (Bytes × Option Bytes)

variable {serve : Server σ Bytes Bytes} {stage : Stage} {said saidNext : Said}
variable {rest restNext : Guest} {turn : Turn} {guest : Guest} {app : σ} {n : Nat}

/-- What a turn adds to what was said: nothing, or the app's answer to the next request. -/
inductive Speaks (serve : Server σ Bytes Bytes) (app : σ) (said : Said) :
    Turn → Guest → σ → Said → Guest → Prop
  | silent {turn : Turn} (rest : Guest) (hturn : isAnswer turn = false) :
      Speaks serve app said turn rest app said rest
  | answered (request : Bytes) (more : Option Bytes → Guest) :
      Speaks serve app said .answer (.ask request more) (serve app request).2
        (said ++ [(request, some (serve app request).1)]) (more (some (serve app request).1))

/-- A turn of a live session leaves it at a stage, and speaks. -/
theorem at_turn {state next : ServedRun σ} (hat : At state stage said rest)
    (hstep : state.step serve turn = some next) :
    ∃ later saidNext restNext, At next later saidNext restNext ∧
      Speaks serve state.app said turn rest next.app saidNext restNext := by
  have hdue : ∀ {due : Turn}, turn = due → ∀ {after : ServedRun σ},
      state.step serve due = some after → after = next := by
    rintro due rfl after hafter
    exact Option.some.inj (hafter.symm.trans hstep)
  cases hadvances : turn.advances with
  | false =>
      cases turn with
      | stray response =>
          obtain ⟨hat, happ⟩ := at_stray hat hstep
          exact ⟨stage, said, rest, hat, by rw [happ]; exact .silent rest rfl⟩
      | worker => cases hadvances
      | poll => cases hadvances
      | answer => cases hadvances
  | true =>
      have hturn := turn_eq hat hadvances hstep
      cases hat with
      | thinking hopen hwaiting hqueue hidle =>
          cases hguest : state.guest with
          | done result =>
              obtain ⟨after, hafter, happ, hat⟩ := at_report hguest hopen hqueue hidle
              obtain rfl := hdue hturn hafter
              exact ⟨_, _, _, hat, by rw [happ, hturn]; exact .silent _ rfl⟩
          | ask request more =>
              obtain ⟨after, hafter, happ, hat⟩ := at_ask hguest hopen hwaiting hqueue hidle
              obtain rfl := hdue hturn hafter
              exact ⟨_, _, _, hat, by rw [happ, hturn]; exact .silent _ rfl⟩
      | queued hopen hguest hwaiting hqueue hcall hpending hidle =>
          obtain ⟨after, hafter, happ, hat⟩ :=
            at_surface hguest hopen hwaiting hqueue hcall hpending hidle
          obtain rfl := hdue hturn hafter
          exact ⟨_, _, _, hat, by rw [happ, hturn]; exact .silent _ rfl⟩
      | surfaced hopen hguest hwaiting hqueue hcall hpending hrespond hrequest hawaits hexchanges =>
          obtain ⟨after, hafter, happ, hat⟩ := @at_answer _ serve _ _ _ _ _ _ hguest hopen hwaiting
            hqueue hcall hpending hrespond hrequest hawaits hexchanges
          obtain rfl := hdue hturn hafter
          exact ⟨_, _, _, hat, by rw [happ, hturn]; exact .answered _ _⟩
      | answered hopen hguest hwaiting hqueue hcall hanswered hidle =>
          obtain ⟨after, hafter, happ, hat⟩ :=
            at_wake hguest hopen hwaiting hqueue hcall hanswered hidle
          obtain rfl := hdue hturn hafter
          exact ⟨_, _, _, hat, by rw [happ, hturn]; exact .silent _ rfl⟩
      | reported hguest hreport hqueue hfinished huntold hidle =>
          obtain ⟨after, hafter, happ, hat⟩ := at_tell hguest hreport hqueue hfinished huntold hidle
          obtain rfl := hdue hturn hafter
          exact ⟨_, _, _, hat, by rw [happ, hturn]; exact .silent _ rfl⟩
      | told hguest hreport hfinished hresult htold hidle =>
          obtain ⟨after, hafter, happ, hat⟩ :=
            at_told_again hguest hreport hfinished hresult htold hidle
          obtain rfl := hdue hturn hafter
          exact ⟨_, _, _, hat, by rw [happ, hturn]; exact .silent _ rfl⟩

/-- The guest and the app as they are after `n` answers, in the eyes of any server that
goes away later. -/
def Underway (serve : Server σ Bytes Bytes) (guest : Guest) (app : σ) (n : Nat)
    (state : ServedRun σ) : Prop :=
  ∃ stage said rest, At state stage said rest ∧ ∀ more : Nat,
    (rest.converse (Program.cutOff serve) (more, state.app)).after said =
      guest.converse (Program.cutOff serve) (n + more, app)

theorem underway_start (drive : Drive) (guest : Guest) (app : σ) :
    Underway serve guest app 0 (.start drive guest app) :=
  ⟨.thinking, [], guest, .thinking ⟨rfl, rfl, rfl, rfl, rfl⟩ rfl rfl ⟨rfl, rfl, rfl⟩,
    fun more => by rw [Nat.zero_add]; rfl⟩

/-- An answer of the app is one more, and nothing else is. -/
theorem underway_step {state next : ServedRun σ} (hunderway : Underway serve guest app n state)
    (hstep : state.step serve turn = some next) :
    Underway serve guest app (n + (isAnswer turn).toNat) next := by
  obtain ⟨stage, said, rest, hat, htalk⟩ := hunderway
  obtain ⟨later, saidNext, restNext, hafter, hspeaks⟩ := at_turn hat hstep
  generalize happ : next.app = appNext at hspeaks
  cases hspeaks with
  | silent rest hturn =>
      refine ⟨later, said, rest, hafter, fun count => ?_⟩
      rw [happ, hturn]
      exact htalk count
  | answered request more =>
      refine ⟨later, _, _, hafter, fun count => ?_⟩
      rw [happ, isAnswer, Bool.toNat_true, Nat.add_assoc, Nat.add_comm 1, ← htalk,
        Program.converse_cutOff_succ, Conversation.after_after]

/-! ## While the session is freed -/

/-- How far the worker has come with its current host call, or with its end. -/
inductive CutStage where
  | thinking | held | answered | cancelled | returned

/-- How many steps a stage is away from the one where the guest thinks again, the step that
ends the worker counted with thinking. -/
def CutStage.ahead : CutStage → Nat
  | .thinking => 1
  | .held => 0
  | .answered => 2
  | .cancelled => 2
  | .returned => 0

/-- The freed session is at a stage: what was said, and what is left of the guest when what
comes of its current call has reached it. -/
inductive CutAt (state : FreedServed σ) : CutStage → Said → Guest → Prop
  | thinking {said : Said} (hreport : state.served.run.report = .running)
      (hwaiting : state.served.run.waiting = []) : CutAt state .thinking said state.served.guest
  | held {said : Said} {request : Bytes} {more : Option Bytes → Guest} {k : Nat} {call : Call}
      (hreport : state.served.run.report = .running)
      (hguest : state.served.guest = .ask request more) (hwaiting : state.served.run.waiting = [k])
      (hqueued : k ∈ queuedResponders state.served.run.session)
      (hcall : state.served.run.calls[k]? = some call) (hpending : call.respond = .pending)
      (hphase : state.phase = .released) : CutAt state .held said (.ask request more)
  | answered {said : Said} {request response : Bytes} {more : Option Bytes → Guest} {k : Nat}
      {call : Call} (hreport : state.served.run.report = .running)
      (hguest : state.served.guest = .ask request more) (hwaiting : state.served.run.waiting = [k])
      (hcall : state.served.run.calls[k]? = some call) (hanswered : call.respond = .answered response) :
      CutAt state .answered said (more (some response))
  | cancelled {said : Said} {request : Bytes} {more : Option Bytes → Guest} {k : Nat} {call : Call}
      (hreport : state.served.run.report = .running)
      (hguest : state.served.guest = .ask request more) (hwaiting : state.served.run.waiting = [k])
      (hcall : state.served.run.calls[k]? = some call) (hcancelled : call.respond = .cancelled) :
      CutAt state .cancelled said (more none)
  | returned {said : Said} {result : Except Text Bytes} (hguest : state.served.guest = .done result)
      (hreport : state.served.run.report = .done result) : CutAt state .returned said (.done result)

/-- How many steps of `Drop` are left. -/
def phaseAhead : Phase → Nat
  | .live => 3
  | .released => 2
  | .disconnected => 1
  | .joined => 0

abbrev CutTalk (σ : Type) := Conversation (Nat × σ) Bytes (Option Bytes) (Except Text Bytes)

/-- The freed session is in its last conversation, at most this many steps from its end. -/
structure Ending (serve : Server σ Bytes Bytes) (talk : CutTalk σ) (left : Nat)
    (state : FreedServed σ) : Prop where
  freed : state.phase ≠ .live
  closed : state.phase.isDisconnected = true → state.served.run.session.rx.receiving = false
  joined : state.phase = .joined → isOver state.served.run.report = true
  underway : ∃ stage said rest, CutAt state stage said rest ∧
    (rest.converse (Program.cutOff serve) (0, state.served.app)).after said = talk ∧
    2 * rest.asksInVain + stage.ahead + phaseAhead state.phase ≤ left

variable {state next final : FreedServed σ} {cut : CutStage} {talk : CutTalk σ} {left : Nat}
variable {move : Move}

theorem dropping_eq_some {step : FreedSession → Option FreedSession} :
    state.dropping step = some next ↔ ∃ freed, step state.freed = some freed ∧
      next = { served := { state.served with run := freed.run }, phase := freed.phase } := by
  rw [FreedServed.dropping, Option.map_eq_some_iff]
  simp only [@eq_comm _ next]

theorem cutAt_thinking (hreport : state.served.run.report = .running)
    (hwaiting : state.served.run.waiting = []) (hguest : state.served.guest = rest) :
    CutAt state .thinking said rest := by
  subst hguest
  exact .thinking hreport hwaiting

/-- What a step of the worker makes of the stage: it takes the session on in the same
conversation, and leaves the phase and the app. -/
structure TakesOn (serve : Server σ Bytes Bytes) (state : FreedServed σ) (cut : CutStage)
    (said : Said) (rest : Guest) (next : FreedServed σ) : Prop where
  phase : next.phase = state.phase
  app : next.served.app = state.served.app
  closed : state.served.run.session.rx.receiving = false →
    next.served.run.session.rx.receiving = false
  running : isOver state.served.run.report = false
  later : ∃ later saidNext restNext, CutAt next later saidNext restNext ∧
    (restNext.converse (Program.cutOff serve) (0, state.served.app)).after saidNext =
      (rest.converse (Program.cutOff serve) (0, state.served.app)).after said ∧
    2 * restNext.asksInVain + later.ahead < 2 * rest.asksInVain + cut.ahead

theorem takesOn_thinking (hfreed : state.phase ≠ .live)
    (hclosed : state.phase.isDisconnected = true → state.served.run.session.rx.receiving = false)
    (hreport : state.served.run.report = .running) (hwaiting : state.served.run.waiting = [])
    {after : ServedRun σ} (hstep : state.served.worker = some after) :
    TakesOn serve state .thinking said state.served.guest { state with served := after } := by
  have hover : isOver state.served.run.report = false := by rw [hreport]; rfl
  cases hguest : state.served.guest with
  | done result =>
      rw [worker_of_done hguest, Option.map_eq_some_iff] at hstep
      obtain ⟨run, hfinish, rfl⟩ := hstep
      obtain ⟨-, rfl⟩ := whileRunning_eq_some.mp hfinish
      refine ⟨rfl, rfl, fun hgone => ?_, hover, .returned, said, _, .returned hguest rfl, rfl,
        by simp [CutStage.ahead]⟩
      rw [Channel.send_eq_none.mpr hgone]
      exact hgone
  | ask request more =>
      rw [worker_of_ask hguest hwaiting, Option.map_eq_some_iff] at hstep
      obtain ⟨run, hissue, rfl⟩ := hstep
      obtain ⟨-, ⟨hopen, rfl⟩ | ⟨hgone, -, rfl⟩ | ⟨hgone, -, rfl⟩⟩ := issue_cases hissue
      · have hphase : state.phase = .released := by
          cases hphase : state.phase with
          | live => exact (hfreed hphase).elim
          | released => rfl
          | disconnected => simp [hclosed (by rw [hphase]; rfl)] at hopen
          | joined => simp [hclosed (by rw [hphase]; rfl)] at hopen
        refine ⟨rfl, rfl, id, hover, .held, said, .ask request more, ?_, rfl, by simp [CutStage.ahead]⟩
        refine @CutAt.held _ _ _ request more _ { request } hreport ?_ ?_ ?_
          List.getElem?_concat_length rfl hphase
        · simp
        · simp [hwaiting]
        · simp [queuedResponders, queuedResponder]
      · refine ⟨rfl, rfl, id, hover, .cancelled, said ++ [(request, none)], more none, ?_, ?_, ?_⟩
        · refine @CutAt.cancelled _ _ _ request more _ { request, respond := .cancelled } hreport ?_ ?_
            List.getElem?_concat_length rfl
          · simp
          · simp [hwaiting]
        · rw [Program.converse_cutOff_zero, Conversation.after_after]
        · simp only [Program.asksInVain, CutStage.ahead]
          omega
      · refine ⟨rfl, rfl, id, hover, .thinking, said ++ [(request, none)], more none, ?_, ?_, ?_⟩
        · exact cutAt_thinking hreport hwaiting (by simp [hwaiting])
        · rw [Program.converse_cutOff_zero, Conversation.after_after]
        · simp only [Program.asksInVain, CutStage.ahead]
          omega

/-- A worker that is woken goes on with what its call came to. -/
theorem takesOn_wake {request : Bytes} {more : Option Bytes → Guest} {k : Nat} {call : Call}
    {outcome : Option Bytes} (hreport : state.served.run.report = .running)
    (hguest : state.served.guest = .ask request more) (hwaiting : state.served.run.waiting = [k])
    (hcall : state.served.run.calls[k]? = some call) (houtcome : call.respond.outcome = some outcome)
    (hahead : cut.ahead = 2) {after : ServedRun σ} (hstep : state.served.worker = some after) :
    TakesOn serve state cut said (more outcome) { state with served := after } := by
  rw [worker_of_wait hguest hwaiting, Option.map_eq_some_iff] at hstep
  obtain ⟨run, hwake, rfl⟩ := hstep
  obtain ⟨-, woken, came, hwoken, hcame, rfl⟩ := wake_eq_some.mp hwake
  obtain rfl := Option.some.inj (hcall.symm.trans hwoken)
  obtain rfl := Option.some.inj (houtcome.symm.trans hcame)
  refine ⟨rfl, rfl, id, by rw [hreport]; rfl, .thinking, said, more outcome, ?_, rfl, ?_⟩
  · exact cutAt_thinking hreport (by simp [hwaiting]) (by simp)
  · rw [hahead]
    simp [CutStage.ahead]

/-- The worker takes the freed session on. -/
theorem takesOn_worker (serve : Server σ Bytes Bytes) (hat : CutAt state cut said rest)
    (hfreed : state.phase ≠ .live)
    (hclosed : state.phase.isDisconnected = true → state.served.run.session.rx.receiving = false)
    {after : ServedRun σ} (hstep : state.served.worker = some after) :
    TakesOn serve state cut said rest { state with served := after } := by
  cases hat with
  | thinking hreport hwaiting => exact takesOn_thinking hfreed hclosed hreport hwaiting hstep
  | held hreport hguest hwaiting hqueued hcall hpending hphase =>
      rw [worker_blocked hguest hwaiting hcall hpending] at hstep
      cases hstep
  | answered hreport hguest hwaiting hcall hanswered =>
      exact takesOn_wake hreport hguest hwaiting hcall (by rw [hanswered]; rfl) rfl hstep
  | cancelled hreport hguest hwaiting hcall hcancelled =>
      exact takesOn_wake hreport hguest hwaiting hcall (by rw [hcancelled]; rfl) rfl hstep
  | returned hguest hreport =>
      rw [worker_over hguest (by simp [hreport])] at hstep
      cases hstep

/-- Where the receiver goes, the calls that are queued are cancelled. -/
theorem cutAt_disconnect (hat : CutAt state cut said rest)
    (hstep : state.dropping FreedSession.disconnect = some next) :
    ∃ later saidNext restNext, CutAt next later saidNext restNext ∧
      (restNext.converse (Program.cutOff serve) (0, state.served.app)).after saidNext =
        (rest.converse (Program.cutOff serve) (0, state.served.app)).after said ∧
      2 * restNext.asksInVain + later.ahead ≤ 2 * rest.asksInVain + cut.ahead := by
  obtain ⟨freed, hfreed, rfl⟩ := dropping_eq_some.mp hstep
  obtain rfl := Option.some.inj (Option.ite_none_right_eq_some.mp hfreed).2
  cases hat with
  | thinking hreport hwaiting =>
      exact ⟨_, said, _, cutAt_thinking hreport hwaiting rfl, rfl, le_rfl⟩
  | @held said request more k call hreport hguest hwaiting hqueued hcall hpending hphase =>
      refine ⟨.cancelled, said ++ [(request, none)], more none, ?_, ?_, ?_⟩
      · refine .cancelled hreport hguest hwaiting (touch_eq_some.mpr ⟨call, hcall, rfl⟩) ?_
        simp [FreedServed.freed, hqueued, hpending, Oneshot.dropSender]
      · rw [Program.converse_cutOff_zero, Conversation.after_after]
      · simp only [Program.asksInVain, CutStage.ahead]
        omega
  | @answered said request response more k call hreport hguest hwaiting hcall hanswered =>
      refine ⟨.answered, said, _, ?_, rfl, le_rfl⟩
      refine .answered hreport hguest hwaiting (touch_eq_some.mpr ⟨call, hcall, rfl⟩) ?_
      simp [hanswered, Oneshot.dropSender]
  | @cancelled said request more k call hreport hguest hwaiting hcall hcancelled =>
      refine ⟨.cancelled, said, _, ?_, rfl, le_rfl⟩
      refine .cancelled hreport hguest hwaiting (touch_eq_some.mpr ⟨call, hcall, rfl⟩) ?_
      simp [hcancelled, Oneshot.dropSender]
  | returned hguest hreport => exact ⟨_, said, _, .returned hguest hreport, rfl, le_rfl⟩

/-- A worker that is over has reported what is left of its guest. -/
theorem over_of_isOver (hat : CutAt state cut said rest)
    (hover : isOver state.served.run.report = true) :
    ∃ result, state.served.guest = .done result ∧ state.served.run.report = .done result ∧
      rest = .done result ∧ cut = .returned := by
  have hrunning : state.served.run.report ≠ .running := by
    intro hreport
    rw [hreport] at hover
    cases hover
  cases hat with
  | thinking hreport => exact (hrunning hreport).elim
  | held hreport => exact (hrunning hreport).elim
  | answered hreport => exact (hrunning hreport).elim
  | cancelled hreport => exact (hrunning hreport).elim
  | returned hguest hreport => exact ⟨_, hguest, hreport, rfl, rfl⟩

/-- Every step of the caller or the worker brings the end closer. -/
theorem ending_step (hending : Ending serve talk left state)
    (hstep : state.step serve move = some next) :
    0 < left ∧ Ending serve talk (left - 1) next := by
  obtain ⟨hfreed, hclosed, hjoined, stage, said, rest, hat, htalk, hleft⟩ := hending
  cases move with
  | turn turn =>
      obtain ⟨hwho, hmap⟩ := Option.ite_none_right_eq_some.mp hstep
      obtain ⟨after, hafter, rfl⟩ := Option.map_eq_some_iff.mp hmap
      cases turn with
      | worker =>
          obtain ⟨-, happ, hkept, hrunning, later, saidNext, restNext, hlater, hsame, hless⟩ :=
            takesOn_worker serve hat hfreed hclosed hafter
          refine ⟨by omega, ⟨hfreed, fun hgone => ?_, fun hover => ?_, later, saidNext, restNext,
            hlater, ?_, ?_⟩⟩
          · exact hkept (hclosed hgone)
          · rw [hjoined hover] at hrunning
            cases hrunning
          · rw [happ, hsame, htalk]
          · simp only
            omega
      | poll => exact absurd (hwho.resolve_left hfreed) (by decide)
      | answer => exact absurd (hwho.resolve_left hfreed) (by decide)
      | stray response => exact absurd (hwho.resolve_left hfreed) (by simp [isWorker])
  | takeRespond =>
      obtain ⟨freed, htaken, -⟩ := dropping_eq_some.mp hstep
      exact (hfreed (Option.ite_none_right_eq_some.mp htaken).1).elim
  | disconnect =>
      obtain ⟨later, saidNext, restNext, hlater, hsame, hless⟩ := cutAt_disconnect hat hstep
      obtain ⟨freed, hfreed, rfl⟩ := dropping_eq_some.mp hstep
      obtain ⟨hphase, hafter⟩ := Option.ite_none_right_eq_some.mp hfreed
      obtain rfl := Option.some.inj hafter
      have hreleased : phaseAhead state.phase = 2 := congrArg phaseAhead hphase
      refine ⟨by omega, ⟨nofun, fun _ => rfl, nofun, later, saidNext, restNext, hlater,
        hsame.trans htalk, ?_⟩⟩
      simp only [phaseAhead]
      omega
  | join =>
      obtain ⟨freed, hfreed, rfl⟩ := dropping_eq_some.mp hstep
      obtain ⟨⟨hphase, hover⟩, hafter⟩ := Option.ite_none_right_eq_some.mp hfreed
      obtain rfl := Option.some.inj hafter
      have hdisconnected : phaseAhead state.phase = 1 := congrArg phaseAhead hphase
      have hgone : state.phase.isDisconnected = true := by rw [show state.phase = _ from hphase]; rfl
      refine ⟨by omega, ⟨nofun, fun _ => hclosed hgone, fun _ => hover, stage, said, rest, ?_, htalk,
        ?_⟩⟩
      · obtain ⟨result, hguest, hreport, rfl, rfl⟩ := over_of_isOver hat hover
        exact .returned hguest hreport
      · simp only [phaseAhead]
        omega

theorem ending_run {moves : List Move} (hending : Ending serve talk left state)
    (hrun : run (FreedServed.step serve) state moves = some final) :
    moves.length ≤ left ∧ Ending serve talk (left - moves.length) final := by
  induction moves generalizing state left with
  | nil =>
      obtain rfl := Option.some.inj hrun
      exact ⟨Nat.zero_le _, hending⟩
  | cons move rest ih =>
      obtain ⟨next, hnext, hrest⟩ := run_cons_eq_some.mp hrun
      obtain ⟨hleft, hafter⟩ := ending_step hending hnext
      obtain ⟨hlength, hfinal⟩ := ih hafter hrest
      rw [List.length_cons]
      refine ⟨by omega, ?_⟩
      rw [Nat.add_comm, Nat.sub_add_eq]
      exact hfinal

theorem exists_dropping {step : FreedSession → Option FreedSession}
    (hstep : (step state.freed).isSome = true) : ∃ next, state.dropping step = some next := by
  obtain ⟨freed, hfreed⟩ := Option.isSome_iff_exists.mp hstep
  exact ⟨_, dropping_eq_some.mpr ⟨freed, hfreed, rfl⟩⟩

/-- Behind the disconnect a worker that is not over can go on. -/
theorem exists_worker (hat : CutAt state cut said rest) (hphase : state.phase ≠ .released)
    (hrunning : isOver state.served.run.report = false) :
    ∃ after, state.served.worker = some after := by
  cases hat with
  | thinking hreport hwaiting =>
      cases hguest : state.served.guest with
      | done result =>
          rw [worker_of_done hguest, P3Run.finish, hreport]
          exact ⟨_, rfl⟩
      | ask request more =>
          rw [worker_of_ask hguest hwaiting, P3Run.issue, hreport]
          exact ⟨_, rfl⟩
  | held hreport hguest hwaiting hqueued hcall hpending hreleased => exact (hphase hreleased).elim
  | @answered said request response more k call hreport hguest hwaiting hcall hanswered =>
      have hwake := wake_eq_some.mpr
        ⟨by simp [hwaiting], call, some response, hcall, by rw [hanswered]; rfl, rfl⟩
      rw [worker_of_wait hguest hwaiting, hwake]
      exact ⟨_, rfl⟩
  | cancelled hreport hguest hwaiting hcall hcancelled =>
      have hwake := wake_eq_some.mpr
        ⟨by simp [hwaiting], _, none, hcall, by rw [hcancelled]; rfl, rfl⟩
      rw [worker_of_wait hguest hwaiting, hwake]
      exact ⟨_, rfl⟩
  | returned hguest hreport =>
      rw [hreport] at hrunning
      cases hrunning

/-- Short of the end a step can be taken. -/
theorem exists_step (hending : Ending serve talk left state) (hphase : state.phase ≠ .joined) :
    ∃ move next, state.step serve move = some next := by
  obtain ⟨hfreed, -, -, stage, said, rest, hat, -⟩ := hending
  cases hnow : state.phase with
  | live => exact (hfreed hnow).elim
  | joined => exact (hphase hnow).elim
  | released =>
      obtain ⟨next, hnext⟩ := @exists_dropping _ state FreedSession.disconnect
        (by simp [FreedSession.disconnect, FreedServed.freed, hnow])
      exact ⟨.disconnect, next, hnext⟩
  | disconnected =>
      cases hover : isOver state.served.run.report with
      | true =>
          obtain ⟨next, hnext⟩ := @exists_dropping _ state FreedSession.join
            (by simp [FreedSession.join, FreedServed.freed, hnow, hover])
          exact ⟨.join, next, hnext⟩
      | false =>
          obtain ⟨after, hafter⟩ := exists_worker hat (by simp [hnow]) hover
          refine ⟨.turn .worker, { state with served := after }, ?_⟩
          exact Option.ite_none_right_eq_some.mpr
            ⟨.inr rfl, Option.map_eq_some_iff.mpr ⟨after, hafter, rfl⟩⟩

/-- `Drop` comes to its end. -/
theorem exists_joined (hending : Ending serve talk left state) :
    ∃ moves final, run (FreedServed.step serve) state moves = some final ∧ final.phase = .joined := by
  induction left generalizing state with
  | zero =>
      by_cases hphase : state.phase = .joined
      · exact ⟨[], state, rfl, hphase⟩
      · obtain ⟨move, next, hnext⟩ := exists_step hending hphase
        exact absurd (ending_step hending hnext).1 (Nat.lt_irrefl 0)
  | succ left ih =>
      by_cases hphase : state.phase = .joined
      · exact ⟨[], state, rfl, hphase⟩
      · obtain ⟨move, next, hnext⟩ := exists_step hending hphase
        obtain ⟨moves, final, hrun, hfinal⟩ := ih (ending_step hending hnext).2
        exact ⟨move :: moves, final, run_cons_eq_some.mpr ⟨next, hnext, hrun⟩, hfinal⟩

/-- The first step of `Drop` cancels the call that is in the hand of the caller. -/
theorem cutAt_takeRespond (serve : Server σ Bytes Bytes) {stage : Stage}
    (hat : At state.served stage said rest)
    (hstep : state.dropping FreedSession.takeRespond = some next) :
    ∃ later saidNext restNext, CutAt next later saidNext restNext ∧
      (restNext.converse (Program.cutOff serve) (0, state.served.app)).after saidNext =
        (rest.converse (Program.cutOff serve) (0, state.served.app)).after said := by
  obtain ⟨freed, htaken, rfl⟩ := dropping_eq_some.mp hstep
  obtain rfl := Option.some.inj (Option.ite_none_right_eq_some.mp htaken).2
  cases hat with
  | thinking hopen hwaiting =>
      exact ⟨.thinking, said, _, cutAt_thinking hopen.report hwaiting rfl, rfl⟩
  | @queued said request more k call hopen hguest hwaiting hqueue hcall hpending hidle =>
      refine ⟨.held, said, _, ?_, rfl⟩
      refine @CutAt.held _ _ said request more k call hopen.report hguest hwaiting ?_ ?_ hpending rfl
      · simp [queuedResponders, FreedServed.freed, hqueue, queuedResponder]
      · simp [FreedServed.freed, hidle.pendingRespond, touch_nil, hcall]
  | @surfaced said request more k call hopen hguest hwaiting hqueue hcall hpending hrespond =>
      refine ⟨.cancelled, said ++ [(request, none)], more none, ?_, ?_⟩
      · refine .cancelled hopen.report hguest hwaiting (touch_eq_some.mpr ⟨call, hcall, rfl⟩) ?_
        simp [FreedServed.freed, hrespond, hpending, Oneshot.dropSender]
      · rw [Program.converse_cutOff_zero, Conversation.after_after]
  | @answered said request response more k call hopen hguest hwaiting hqueue hcall hanswered hidle =>
      refine ⟨.answered, said, _, ?_, rfl⟩
      refine .answered hopen.report hguest hwaiting (touch_eq_some.mpr ⟨call, hcall, rfl⟩) ?_
      simp [hanswered, Oneshot.dropSender]
  | reported hguest hreport => exact ⟨.returned, said, _, .returned hguest hreport, rfl⟩
  | told hguest hreport => exact ⟨.returned, said, _, .returned hguest hreport, rfl⟩

/-- The session from the moment on when `Drop` begins. -/
theorem ending_takeRespond (hunderway : Underway serve guest app n state.served)
    (hstep : state.step serve .takeRespond = some next) :
    Ending serve (guest.converse (Program.cutOff serve) (n, app))
      (2 * (guest.converse (Program.cutOff serve) (n, app)).exchanges.length + 4) next := by
  obtain ⟨stage, said, rest, hat, htalk⟩ := hunderway
  obtain ⟨later, saidNext, restNext, hlater, hsame⟩ := cutAt_takeRespond serve hat hstep
  have hwhole := hsame.trans (htalk 0)
  obtain ⟨freed, htaken, rfl⟩ := dropping_eq_some.mp hstep
  obtain rfl := Option.some.inj (Option.ite_none_right_eq_some.mp htaken).2
  refine ⟨nofun, nofun, nofun, later, saidNext, restNext, hlater, hwhole, ?_⟩
  have hlength := congrArg (fun talk => talk.exchanges.length) hwhole
  simp only [Conversation.after_exchanges, List.length_append, Program.length_converse_cutOff,
    Nat.add_zero] at hlength
  have hahead : later.ahead ≤ 2 := by cases later <;> decide
  simp only [phaseAhead]
  omega

/-! ## Whole runs -/

/-- Where a session is after `n` answers: in a conversation, or behind the moment that cut
it off. -/
inductive Tracked (serve : Server σ Bytes Bytes) (guest : Guest) (app : σ) (n : Nat)
    (state : FreedServed σ) : Prop
  | live (hlive : state.phase = .live) (hunderway : Underway serve guest app n state.served)
  | freed (left : Nat)
      (hleft : left ≤ 2 * (guest.converse (Program.cutOff serve) (n, app)).exchanges.length + 4)
      (hending : Ending serve (guest.converse (Program.cutOff serve) (n, app)) left state)

theorem tracked_step (htracked : Tracked serve guest app n state)
    (hstep : state.step serve move = some next) :
    Tracked serve guest app (n + move.answers.toNat) next := by
  cases htracked with
  | live hlive hunderway =>
      cases move with
      | turn turn =>
          obtain ⟨-, hmap⟩ := Option.ite_none_right_eq_some.mp hstep
          obtain ⟨after, hafter, rfl⟩ := Option.map_eq_some_iff.mp hmap
          exact .live hlive (underway_step hunderway hafter)
      | takeRespond => exact .freed _ le_rfl (ending_takeRespond hunderway hstep)
      | disconnect =>
          obtain ⟨freed, hfreed, -⟩ := dropping_eq_some.mp hstep
          have hreleased : state.phase = .released := (Option.ite_none_right_eq_some.mp hfreed).1
          rw [hlive] at hreleased
          cases hreleased
      | join =>
          obtain ⟨freed, hfreed, -⟩ := dropping_eq_some.mp hstep
          have hdisconnected : state.phase = .disconnected :=
            (Option.ite_none_right_eq_some.mp hfreed).1.1
          rw [hlive] at hdisconnected
          cases hdisconnected
  | freed left hleft hending =>
      have hsilent : move.answers = false := by
        cases move with
        | turn turn =>
            obtain ⟨hwho, -⟩ := Option.ite_none_right_eq_some.mp hstep
            have hworker := hwho.resolve_left hending.freed
            cases turn <;> first | rfl | cases hworker
        | _ => rfl
      rw [hsilent, Bool.toNat_false, Nat.add_zero]
      exact .freed (left - 1) (by omega) (ending_step hending hstep).2

theorem tracked_run {drive : Drive} {moves : List Move}
    (hrun : run (FreedServed.step serve) (.start drive guest app) moves = some final) :
    Tracked serve guest app (moves.countP Move.answers) final := by
  have hhistory := @run_history _ _ (FreedServed.step serve)
    (fun past state => Tracked serve guest app (past.countP Move.answers) state) ?_ [] moves
    (.start drive guest app) final (.live rfl (underway_start drive guest app)) hrun
  · simpa using hhistory
  · intro past state move next htracked hstep
    have hafter := tracked_step htracked hstep
    rw [List.countP_append, List.countP_singleton]
    cases hanswers : move.answers <;> simpa [hanswers] using hafter

/-- When a freed session is joined, the guest has held, to its end, the conversation with an
app that goes away after the answers it gave, and the app has serviced these requests and
no other. -/
theorem freed_of_run (serve : Server σ Bytes Bytes) (drive : Drive) (guest : Guest) (app : σ)
    (moves : List Move) (final : FreedServed σ)
    (hrun : run (FreedServed.step serve) (.start drive guest app) moves = some final)
    (hjoined : final.phase = .joined) :
    let talk := guest.converse (Program.cutOff serve) (moves.countP Move.answers, app)
    final.served.guest = .done talk.result ∧ final.served.run.report = .done talk.result ∧
      talk.state = (0, final.served.app) := by
  intro talk
  cases tracked_run hrun with
  | live hlive =>
      rw [hlive] at hjoined
      cases hjoined
  | freed left hleft hending =>
      obtain ⟨stage, said, rest, hat, htalk, -⟩ := hending.underway
      obtain ⟨result, hguest, hreport, rfl, -⟩ := over_of_isOver hat (hending.joined hjoined)
      have hresult : result = talk.result := congrArg Conversation.result htalk
      rw [hguest, hreport, hresult]
      exact ⟨rfl, rfl, (congrArg Conversation.state htalk).symm⟩

def freedMoves : List Move :=
  [.turn .worker, .turn .poll, .turn .answer, .turn .worker, .turn .worker, .turn .poll,
    .takeRespond, .disconnect, .turn .worker, .turn .worker, .join]

theorem freed_of_run_example :
    ∃ final, run (FreedServed.step numbering) (.start .async relay 7) freedMoves = some final ∧
      (let talk := relay.converse (Program.cutOff numbering) (1, 7)
      final.served.guest = .done talk.result ∧ final.served.run.report = .done talk.result ∧
        talk.state = (0, final.served.app)) :=
  ⟨_, rfl, freed_of_run numbering .async relay 7 freedMoves _ rfl rfl⟩

/-- Once a free has begun it returns: what the worker and the caller can still do is
bounded by the guest's conversation, and they can always do it. -/
theorem free_returns (serve : Server σ Bytes Bytes) (drive : Drive) (guest : Guest) (app : σ)
    (moves : List Move) (state : FreedServed σ)
    (hrun : run (FreedServed.step serve) (.start drive guest app) moves = some state)
    (hfreed : state.phase ≠ .live) :
    (∀ more final, run (FreedServed.step serve) state more = some final →
      more.length ≤ 2 * (guest.converse (Program.cutOff serve)
        (moves.countP Move.answers, app)).exchanges.length + 4 ∧
      (final.phase ≠ .joined → ∃ move next, final.step serve move = some next)) ∧
    ∃ more final, run (FreedServed.step serve) state more = some final ∧ final.phase = .joined := by
  cases tracked_run hrun with
  | live hlive => exact (hfreed hlive).elim
  | freed left hleft hending =>
      refine ⟨fun more final hmore => ?_, exists_joined hending⟩
      obtain ⟨hlength, hfinal⟩ := ending_run hending hmore
      exact ⟨Nat.le_trans hlength hleft, exists_step hfinal⟩

theorem free_returns_example :
    ∃ state, run (FreedServed.step numbering) (.start .sync relay 7)
        [.turn .worker, .takeRespond] = some state ∧
      (∀ more final, run (FreedServed.step numbering) state more = some final →
        more.length ≤ 2 * (relay.converse (Program.cutOff numbering) (0, 7)).exchanges.length + 4 ∧
        (final.phase ≠ .joined → ∃ move next, final.step numbering move = some next)) ∧
      ∃ more final, run (FreedServed.step numbering) state more = some final ∧
        final.phase = .joined :=
  ⟨_, rfl, free_returns numbering .sync relay 7 [.turn .worker, .takeRespond] _ rfl nofun⟩

end HellohqRuntime.Bridge.FreedGuest

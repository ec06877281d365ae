import HellohqRuntime.Foundation.Runs

/-!
# Programs that ask

A program returns a result, or asks something and goes on with the answer.  A server
with a state answers; the conversation of the two is what was asked and answered, the
result, and the state the server is left in.  A program over one kind of questions
becomes a program over another when each question is put by a program of its own,
and the conversation is then that of the first program with the server that those
programs make of the second.
-/

namespace HellohqRuntime.Foundation.Programs

open HellohqRuntime.Foundation.Runs

variable {Ask Answer Result Other Reply State : Type}

inductive Program (Ask Answer Result : Type) where
  | done (result : Result)
  | ask (request : Ask) (next : Answer → Program Ask Answer Result)

/-- A server: what it answers, and its state after that. -/
abbrev Server (State Ask Answer : Type) := State → Ask → Answer × State

/-- A server that answers, or traps. -/
abbrev Trapping (State Ask Answer : Type) := State → Ask → Option (Answer × State)

/-- What a program and a server said to each other. -/
structure Conversation (State Ask Answer Result : Type) where
  exchanges : List (Ask × Answer)
  result : Result
  state : State

/-- The conversation with what was said before it. -/
def Conversation.after (before : List (Ask × Answer))
    (talk : Conversation State Ask Answer Result) : Conversation State Ask Answer Result :=
  { talk with exchanges := before ++ talk.exchanges }

@[simp] theorem Conversation.after_nil (talk : Conversation State Ask Answer Result) :
    talk.after [] = talk := rfl

@[simp] theorem Conversation.after_exchanges (before : List (Ask × Answer))
    (talk : Conversation State Ask Answer Result) :
    (talk.after before).exchanges = before ++ talk.exchanges := rfl

@[simp] theorem Conversation.after_result (before : List (Ask × Answer))
    (talk : Conversation State Ask Answer Result) : (talk.after before).result = talk.result := rfl

@[simp] theorem Conversation.after_state (before : List (Ask × Answer))
    (talk : Conversation State Ask Answer Result) : (talk.after before).state = talk.state := rfl

theorem Conversation.after_after (before between : List (Ask × Answer))
    (talk : Conversation State Ask Answer Result) :
    (talk.after between).after before = talk.after (before ++ between) := by
  rw [after, after, after, List.append_assoc]

namespace Program

def converse (serve : Server State Ask Answer) :
    Program Ask Answer Result → State → Conversation State Ask Answer Result
  | .done result, state => { exchanges := [], result, state }
  | .ask request next, state =>
      ((next (serve state request).1).converse serve (serve state request).2).after
        [(request, (serve state request).1)]

/-- Go on with the result. -/
def bind (program : Program Ask Answer Result) (next : Result → Program Ask Answer Reply) :
    Program Ask Answer Reply :=
  match program with
  | .done result => next result
  | .ask request rest => .ask request fun answer => (rest answer).bind next

/-- Put each question by a program that asks others. -/
def via (put : Ask → Program Other Reply Answer) :
    Program Ask Answer Result → Program Other Reply Result
  | .done result => .done result
  | .ask request next => (put request).bind fun answer => (next answer).via put

/-- The server that answers with the result of a program of its own. -/
def serveVia (serve : Server State Other Reply) (put : Ask → Program Other Reply Answer) :
    Server State Ask Answer :=
  fun state request =>
    (((put request).converse serve state).result, ((put request).converse serve state).state)

/-- One program after another is one conversation after another. -/
theorem converse_bind (serve : Server State Other Reply) (program : Program Other Reply Answer)
    (next : Answer → Program Other Reply Result) (state : State) :
    (program.bind next).converse serve state =
      ((next (program.converse serve state).result).converse serve
        (program.converse serve state).state).after (program.converse serve state).exchanges := by
  induction program generalizing state with
  | done result => rfl
  | ask request rest ih =>
      rw [bind, converse, ih]
      exact Conversation.after_after _ _ _

/-- Through another server the result and the state are those of the server that the
questions make of it. -/
theorem converse_via (serve : Server State Other Reply) (put : Ask → Program Other Reply Answer)
    (program : Program Ask Answer Result) (state : State) :
    ((program.via put).converse serve state).result =
        (program.converse (serveVia serve put) state).result ∧
      ((program.via put).converse serve state).state =
        (program.converse (serveVia serve put) state).state := by
  induction program generalizing state with
  | done result => exact ⟨rfl, rfl⟩
  | ask request next ih =>
      obtain ⟨hresult, hstate⟩ := ih (serveVia serve put state request).1
        (serveVia serve put state request).2
      rw [via, converse_bind]
      exact ⟨hresult, hstate⟩

/-! ## Exchanges of a program -/

/-- The program makes these exchanges, given the answers, and ends with the result. -/
inductive Makes : Program Ask Answer Result → List (Ask × Answer) → Result → Prop
  | done (result : Result) : Makes (.done result) [] result
  | ask {request : Ask} {next : Answer → Program Ask Answer Result} {answer : Answer}
      {more : List (Ask × Answer)} {result : Result} (hmore : Makes (next answer) more result) :
      Makes (.ask request next) ((request, answer) :: more) result

/-- A question is put by a program whose every conversation is of this kind: the question
has its result for an answer, and makes its exchanges. -/
def PutAs (serve : Server State Other Reply) (put : Ask → Program Other Reply Answer)
    (Kind : Ask → Answer → List (Other × Reply) → Prop) : Prop :=
  ∀ request state, Kind request ((put request).converse serve state).result
    ((put request).converse serve state).exchanges

/-- Through another server a program makes exchanges of its own, and the conversation is
those of the programs that put its questions, one after another. -/
theorem exists_exchanges_via {serve : Server State Other Reply}
    {put : Ask → Program Other Reply Answer} {Kind : Ask → Answer → List (Other × Reply) → Prop}
    (hput : PutAs serve put Kind) (program : Program Ask Answer Result) (state : State) :
    ∃ calls : List ((Ask × Answer) × List (Other × Reply)),
      Makes program (calls.map Prod.fst) ((program.via put).converse serve state).result ∧
      ((program.via put).converse serve state).exchanges = calls.flatMap Prod.snd ∧
      ∀ call ∈ calls, Kind call.1.1 call.1.2 call.2 := by
  induction program generalizing state with
  | done result => exact ⟨[], .done result, rfl, by simp⟩
  | ask request next ih =>
      let said := (put request).converse serve state
      obtain ⟨calls, hmakes, hexchanges, hkind⟩ := ih said.result said.state
      refine ⟨((request, said.result), said.exchanges) :: calls, ?_, ?_, ?_⟩
      · rw [via, converse_bind]
        exact .ask hmakes
      · rw [via, converse_bind, Conversation.after_exchanges, hexchanges, List.flatMap_cons]
      · rw [List.forall_mem_cons]
        exact ⟨hput request state, hkind⟩

/-! ## Servers that may trap -/

/-- The conversation with a server that may trap, where it comes to its end. -/
def attempt (serve : Trapping State Ask Answer) :
    Program Ask Answer Result → State → Option (Conversation State Ask Answer Result)
  | .done result, state => some { exchanges := [], result, state }
  | .ask request next, state =>
      match serve state request with
      | none => none
      | some (answer, after) =>
          ((next answer).attempt serve after).map (Conversation.after [(request, answer)])

theorem attempt_ask {serve : Trapping State Ask Answer} {request : Ask}
    {next : Answer → Program Ask Answer Result} {state after : State} {answer : Answer}
    (hserve : serve state request = some (answer, after)) :
    (ask request next).attempt serve state =
      ((next answer).attempt serve after).map (Conversation.after [(request, answer)]) := by
  rw [attempt, hserve]

/-- Where a server that may trap answers from every state of an invariant, every
conversation from such a state comes to its end. -/
theorem exists_attempt {serve : Trapping State Ask Answer} {Inv : State → Prop}
    {Rel : State → Ask → Answer → State → Prop}
    (hserve : ∀ state request, Inv state → ∃ answer next, serve state request = some (answer, next) ∧
      Inv next ∧ Rel state request answer next)
    (program : Program Ask Answer Result) {state : State} (hinv : Inv state) :
    ∃ talk, program.attempt serve state = some talk ∧ Inv talk.state ∧
      Makes program talk.exchanges talk.result ∧ Trace Rel state talk.exchanges talk.state := by
  induction program generalizing state with
  | done result => exact ⟨_, rfl, hinv, .done result, .nil⟩
  | ask request next ih =>
      obtain ⟨answer, after, hserved, hafter, hrel⟩ := hserve state request hinv
      obtain ⟨talk, hattempt, hstate, hmakes, htrace⟩ := ih answer hafter
      refine ⟨talk.after [(request, answer)], ?_, hstate, .ask hmakes, Trace.cons hrel htrace⟩
      rw [attempt_ask hserved, hattempt]
      rfl

/-- Two servers between related states give the same answers, and leave related states. -/
def Indistinguishable (serve : Trapping State Ask Answer) (counter : Trapping Other Ask Answer)
    (Rel : State → Other → Prop) : Prop :=
  ∀ state other request, Rel state other → ∃ answer next later,
    serve state request = some (answer, next) ∧ counter other request = some (answer, later) ∧
      Rel next later

/-- No program tells such servers apart. -/
theorem Indistinguishable.attempt {serve : Trapping State Ask Answer}
    {counter : Trapping Other Ask Answer} {Rel : State → Other → Prop}
    (hservers : Indistinguishable serve counter Rel) (program : Program Ask Answer Result)
    {state : State} {other : Other} (hrel : Rel state other) :
    ∃ talk echo, program.attempt serve state = some talk ∧ program.attempt counter other = some echo ∧
      echo.exchanges = talk.exchanges ∧ echo.result = talk.result ∧ Rel talk.state echo.state := by
  induction program generalizing state other with
  | done result => exact ⟨_, _, rfl, rfl, rfl, rfl, hrel⟩
  | ask request next ih =>
      obtain ⟨answer, after, later, hserve, hcounter, hafter⟩ := hservers state other request hrel
      obtain ⟨talk, echo, htalk, hecho, hexchanges, hresult, hstates⟩ := ih answer hafter
      refine ⟨talk.after [(request, answer)], echo.after [(request, answer)], ?_, ?_, ?_, hresult,
        hstates⟩
      · rw [attempt_ask hserve, htalk]
        rfl
      · rw [attempt_ask hcounter, hecho]
        rfl
      · rw [Conversation.after_exchanges, Conversation.after_exchanges, hexchanges]

/-! ## Servers that go away -/

/-- The server for so many questions; the others fail. -/
def cutOff (serve : Server State Ask Reply) : Server (Nat × State) Ask (Option Reply)
  | (0, state), _ => (none, (0, state))
  | (more + 1, state), request =>
      (some (serve state request).1, (more, (serve state request).2))

/-- How often a program asks when every question fails. -/
def asksInVain : Program Ask (Option Reply) Result → Nat
  | .done _ => 0
  | .ask _ next => (next none).asksInVain + 1

variable {serve : Server State Ask Reply} {state : State} {request : Ask}

theorem converse_cutOff_zero (next : Option Reply → Program Ask (Option Reply) Result) :
    (ask request next).converse (cutOff serve) (0, state) =
      ((next none).converse (cutOff serve) (0, state)).after [(request, none)] := rfl

theorem converse_cutOff_succ (more : Nat) (next : Option Reply → Program Ask (Option Reply) Result) :
    (ask request next).converse (cutOff serve) (more + 1, state) =
      ((next (some (serve state request).1)).converse (cutOff serve)
        (more, (serve state request).2)).after [(request, some (serve state request).1)] := rfl

theorem length_converse_cutOff (program : Program Ask (Option Reply) Result) :
    (program.converse (cutOff serve) (0, state)).exchanges.length = program.asksInVain := by
  induction program with
  | done result => rfl
  | ask request next ih =>
      rw [converse_cutOff_zero, Conversation.after_exchanges, List.length_append, ih none, asksInVain]
      exact Nat.add_comm _ _

end Program

end HellohqRuntime.Foundation.Programs

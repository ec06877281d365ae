import HellohqRuntime.Bridge.Waiting

/-!
# Each host call gets its own answer

A PENDING poll surfaces a request, and the first resolve before the next poll is
its answer.  The `k`-th exchange of the caller belongs to the `k`-th call of the
guest: a responder is in the queue until its request is surfaced, then in the hand
of the caller, and once it is used or replaced no resolve can reach it.
-/

namespace HellohqRuntime.Bridge.HostCalls

open HellohqRuntime.Foundation.Channels
open HellohqRuntime.Foundation.Runs
open HellohqRuntime.Foundation.Strings
open HellohqRuntime.Bridge.Reporting
open HellohqRuntime.Bridge.Session
open HellohqRuntime.Bridge.Waiting

/-- The request that a PENDING poll surfaced. -/
def surfaced : CallerEvent → Option Bytes
  | .polled polled request => if polled.status = .pending then some request else none
  | .resolved _ => none

/-- The first resolve before any later poll. -/
def firstResolve : List CallerEvent → Option Bytes
  | .resolved response :: _ => some response
  | _ => none

/-- The requests that PENDING polls surfaced, each with its answer. -/
def exchanges : List CallerEvent → List (Bytes × Option Bytes)
  | [] => []
  | event :: rest =>
      match surfaced event with
      | some request => (request, firstResolve rest) :: exchanges rest
      | none => exchanges rest

/-- A resolve made now is the first one after a PENDING poll. -/
def awaitsResolve (transcript : List CallerEvent) : Bool :=
  (transcript.getLast?.bind surfaced).isSome

def queuedRequest : P3Event → Option Bytes
  | .hostCall request _ => some request
  | .done _ => none

/-- The requests on their way to the caller. -/
def queuedRequests (session : HwrP3Session) : List Bytes := session.rx.queue.filterMap queuedRequest

/-- What a session does for the host calls of its guest. -/
structure OwnAnswers (run : P3Run) : Prop where
  /-- Requests surface in the order of the calls; those that have not are queued. -/
  inOrder : (exchanges run.transcript).map Prod.fst ++ queuedRequests run.session =
    run.calls.map Call.request
  /-- When the end is known all have surfaced. -/
  complete : run.session.finished = true → queuedRequests run.session = []
  /-- The `k`-th call returns with the answer of the `k`-th exchange. -/
  own : ∀ k outcome, (k, outcome) ∈ run.received →
    ∃ request, (exchanges run.transcript)[k]? = some (request, outcome)
  once : (run.received.map Prod.fst).Nodup
  /-- An answer reaches the worker that waits for it. -/
  delivered : ∀ k request response,
    (exchanges run.transcript)[k]? = some (request, some response) → k ∈ run.waiting →
      ∃ next, run.step (.wake k) = some next ∧ next.received = run.received ++ [(k, some response)]
  /-- Any other resolve leaves the worker, its calls and its events as they are. -/
  others : awaitsResolve run.transcript = false → ∀ response,
    (run.resolve response).calls = run.calls ∧ (run.resolve response).waiting = run.waiting ∧
      (run.resolve response).received = run.received ∧
      (run.resolve response).report = run.report ∧
      (run.resolve response).session.rx = run.session.rx

/-! ## The exchanges -/

variable {drive : Drive} {state next final : P3Run} {label : Label}
variable {transcript past rest : List CallerEvent} {event : CallerEvent}

@[simp] theorem surfaced_resolved (response : Bytes) : surfaced (.resolved response) = none := rfl

/-- Behind a poll the exchanges are those of the two parts. -/
theorem exchanges_append_polled {polled : Polled P3Status} {request : Bytes} :
    exchanges (past ++ .polled polled request :: rest) =
      exchanges past ++ exchanges (.polled polled request :: rest) := by
  induction past with
  | nil => rfl
  | cons event past ih =>
      have hfirst : firstResolve (past ++ .polled polled request :: rest) = firstResolve past := by
        cases past with
        | nil => rfl
        | cons head _ => cases head <;> rfl
      rw [List.cons_append, exchanges, ih, hfirst]
      cases hsurfaced : surfaced event with
      | none => simp [exchanges, hsurfaced]
      | some request => simp [exchanges, hsurfaced]

/-- A resolve that is not the first one after a PENDING poll is in no exchange. -/
theorem exchanges_append_resolved {response : Bytes} (hawaits : awaitsResolve transcript = false) :
    exchanges (transcript ++ [.resolved response]) = exchanges transcript := by
  induction transcript with
  | nil => rfl
  | cons event rest ih =>
      cases rest with
      | nil =>
          have hnone : surfaced event = none := by simpa [awaitsResolve] using hawaits
          simp [exchanges, hnone]
      | cons second more =>
          have hrest : awaitsResolve (second :: more) = false := by
            simpa [awaitsResolve, List.getLast?_cons_cons] using hawaits
          have hfirst : firstResolve (second :: more ++ [.resolved response]) =
              firstResolve (second :: more) := by
            cases second <;> rfl
          rw [List.cons_append, exchanges, ih hrest, hfirst]
          rfl

/-- A transcript that awaits a resolve ends with an exchange that has none. -/
theorem exists_of_awaitsResolve (hawaits : awaitsResolve transcript = true) :
    ∃ before request, exchanges transcript = before ++ [(request, none)] ∧
      ∀ response, exchanges (transcript ++ [.resolved response]) =
        before ++ [(request, some response)] := by
  obtain ⟨request, hlast⟩ := Option.isSome_iff_exists.mp hawaits
  obtain ⟨event, hevent, hsurfaced⟩ := Option.bind_eq_some_iff.mp hlast
  obtain ⟨past, rfl⟩ := List.getLast?_eq_some_iff.mp hevent
  cases event with
  | resolved response => cases hsurfaced
  | polled polled shown =>
      refine ⟨exchanges past, request, ?_, fun response => ?_⟩
      · rw [exchanges_append_polled]
        simp [exchanges, hsurfaced, firstResolve]
      · rw [List.append_assoc, List.singleton_append, exchanges_append_polled]
        simp [exchanges, hsurfaced, firstResolve]

@[simp] theorem awaitsResolve_append_resolved {response : Bytes} :
    awaitsResolve (transcript ++ [.resolved response]) = false := by
  simp [awaitsResolve]

/-! ## Where a responder is -/

/-- The events of some calls, as the worker sends them. -/
def hostCalls (calls : List Call) : List P3Event :=
  calls.mapIdx fun k call => .hostCall call.request k

/-- The last event, while the caller has not taken it. -/
def lastEvents (run : P3Run) : List P3Event :=
  if run.session.finished then []
  else
    match run.report with
    | .done result => [.done result]
    | _ => []

/-- What the oneshot of the `k`-th call holds, by the answer of the `k`-th exchange. -/
def Agrees (held : Option Nat) (k : Nat) : Option Bytes → Oneshot Bytes → Prop
  | some response, oneshot => oneshot = .answered response ∨ oneshot = .abandoned
  | none, oneshot => oneshot = .cancelled ∨ oneshot = .abandoned ∨ oneshot = .pending ∧ held = some k

/-- The responder of the oneshot has not been used. -/
def Unused (oneshot : Oneshot Bytes) : Prop := oneshot = .pending ∨ oneshot = .abandoned

structure Matched (run : P3Run) : Prop where
  flow : run.session.rx.queue =
    (hostCalls run.calls).drop (exchanges run.transcript).length ++ lastEvents run
  surfaced : (exchanges run.transcript).map Prod.fst =
    (run.calls.map Call.request).take (exchanges run.transcript).length
  complete : run.session.finished = true → (exchanges run.transcript).length = run.calls.length
  settled : ∀ k exchange call, (exchanges run.transcript)[k]? = some exchange →
    run.calls[k]? = some call → Agrees run.session.pendingRespond k exchange.2 call.respond
  queued : ∀ k call, (exchanges run.transcript).length ≤ k → run.calls[k]? = some call →
    Unused call.respond
  held : ∀ k, run.session.pendingRespond = some k → k < (exchanges run.transcript).length ∧
    ∀ call, run.calls[k]? = some call → Unused call.respond
  opened : awaitsResolve run.transcript = true →
    ∃ k, run.session.pendingRespond = some k ∧ k + 1 = (exchanges run.transcript).length
  closed : awaitsResolve run.transcript = false → run.session.pendingRespond ≠ none →
    run.report ≠ .running

theorem matched_start : Matched (P3Run.start drive) where
  flow := rfl
  surfaced := rfl
  complete hover := by cases hover
  settled _ _ _ hexchange := by cases hexchange
  queued _ _ _ hcall := by cases hcall
  held _ hheld := by cases hheld
  opened hawaits := by cases hawaits
  closed _ hheld := (hheld rfl).elim

variable {responders : List Nat} {change : Oneshot Bytes → Oneshot Bytes} {calls : List Call}

@[simp] theorem length_hostCalls : (hostCalls calls).length = calls.length := List.length_mapIdx

theorem hostCalls_concat (call : Call) :
    hostCalls (calls ++ [call]) = hostCalls calls ++ [.hostCall call.request calls.length] :=
  List.mapIdx_concat

@[simp] theorem hostCalls_touch : hostCalls (touch responders change calls) = hostCalls calls := by
  refine List.ext_getElem? fun k => ?_
  simp only [hostCalls, List.getElem?_mapIdx, getElem?_touch, Option.map_map]
  congr 1
  funext call
  by_cases hmem : k ∈ responders <;> simp [hmem]

@[simp] theorem map_request_touch :
    (touch responders change calls).map Call.request = calls.map Call.request := by
  refine List.ext_getElem? fun k => ?_
  simp only [List.getElem?_map, getElem?_touch, Option.map_map]
  congr 1
  funext call
  by_cases hmem : k ∈ responders <;> simp [hmem]

/-- The first event of the calls behind the `j`-th is that of the `j`-th. -/
theorem drop_hostCalls (calls : List Call) (j : Nat) :
    (hostCalls calls).drop j = match calls[j]? with
      | some call => .hostCall call.request j :: (hostCalls calls).drop (j + 1)
      | none => [] := by
  by_cases hj : j < calls.length
  · rw [List.getElem?_eq_getElem hj, List.drop_eq_getElem_cons (by simpa using hj)]
    simp [hostCalls]
  · rw [List.getElem?_eq_none (by omega), List.drop_eq_nil_of_le (by simpa using hj)]

theorem Matched.length_le (hmatched : Matched state) :
    (exchanges state.transcript).length ≤ state.calls.length := by
  have hlength := congrArg List.length hmatched.surfaced
  simp only [List.length_map, List.length_take] at hlength
  omega

theorem matched_issue {request : Bytes} (hconsistent : Consistent state.reporting)
    (hmatched : Matched state) (hstep : state.issue request = some next) : Matched next := by
  have hreceiving : state.session.rx.receiving = true := hconsistent.receiving
  obtain ⟨hreport, ⟨-, rfl⟩ | ⟨hclosed, -⟩ | ⟨hclosed, -⟩⟩ := issue_cases hstep
  · have hlength := hmatched.length_le
    have hfinished : state.session.finished = false := (hconsistent.running hreport).1
    refine ⟨?_, ?_, fun hover => ?_, fun k exchange call hexchange hcall => ?_,
      fun k call hk hcall => ?_, fun k hk => ?_, hmatched.opened, hmatched.closed⟩
    · rw [hostCalls_concat, List.drop_append_of_le_length (by simpa using hlength), hmatched.flow]
      simp [lastEvents, hfinished, hreport]
    · simp [hmatched.surfaced, List.take_append_of_le_length, hlength]
    · simp [hfinished] at hover
    · have hk : k < state.calls.length :=
        (List.getElem?_eq_some_iff.mp hexchange).1.trans_le hlength
      rw [List.getElem?_append_left hk] at hcall
      exact hmatched.settled k exchange call hexchange hcall
    · rcases getElem?_concat_eq_some hcall with hold | ⟨-, rfl⟩
      · exact hmatched.queued k call hk hold
      · exact .inl rfl
    · refine ⟨(hmatched.held k hk).1, fun call hcall => ?_⟩
      rcases getElem?_concat_eq_some hcall with hold | ⟨-, rfl⟩
      · exact (hmatched.held k hk).2 call hold
      · exact .inl rfl
  · simp [hreceiving] at hclosed
  · simp [hreceiving] at hclosed

theorem matched_wake {k : Nat} (hmatched : Matched state)
    (hstep : state.wake k = some next) : Matched next := by
  obtain ⟨-, call, outcome, -, -, rfl⟩ := wake_eq_some.mp hstep
  exact ⟨hmatched.flow, hmatched.surfaced, hmatched.complete, hmatched.settled, hmatched.queued,
    hmatched.held, hmatched.opened, hmatched.closed⟩

theorem Unused.dropReceiver {oneshot : Oneshot Bytes} (hunused : Unused oneshot) :
    Unused oneshot.dropReceiver := by
  rcases hunused with rfl | rfl
  · exact .inr rfl
  · exact .inr rfl

theorem Agrees.dropReceiver {held : Option Nat} {k : Nat} {response : Option Bytes}
    {oneshot : Oneshot Bytes} (hagrees : Agrees held k response oneshot) :
    Agrees held k response oneshot.dropReceiver := by
  cases response with
  | some response =>
      rcases hagrees with rfl | rfl
      · exact .inl rfl
      · exact .inr rfl
  | none =>
      rcases hagrees with rfl | rfl | ⟨rfl, -⟩
      · exact .inl rfl
      · exact .inr (.inl rfl)
      · exact .inr (.inl rfl)

/-- A worker that ends sends its report, and gives up the calls it waits on. -/
theorem matched_ended {rx : Channel P3Event} {report : Report} (hmatched : Matched state)
    (hfinished : state.session.finished = false) (hreport : report ≠ .running)
    (hqueue : rx.queue = (hostCalls state.calls).drop (exchanges state.transcript).length ++
      lastEvents (state.ended rx report)) : Matched (state.ended rx report) := by
  refine ⟨?_, ?_, fun hover => ?_, fun k exchange after hexchange hafter => ?_,
    fun k after hk hafter => ?_, fun k hk => ⟨(hmatched.held k hk).1, fun after hafter => ?_⟩,
    hmatched.opened, fun _ _ => hreport⟩
  · simpa [P3Run.ended] using hqueue
  · simpa [P3Run.ended] using hmatched.surfaced
  · simp [P3Run.ended, hfinished] at hover
  · obtain ⟨call, hcall, rfl⟩ := touch_eq_some.mp hafter
    have hagrees := hmatched.settled k exchange call hexchange hcall
    by_cases hwaiting : k ∈ state.waiting
    · simp only [if_pos hwaiting]
      exact hagrees.dropReceiver
    · simp only [if_neg hwaiting]
      exact hagrees
  · obtain ⟨call, hcall, rfl⟩ := touch_eq_some.mp hafter
    have hunused := hmatched.queued k call hk hcall
    by_cases hwaiting : k ∈ state.waiting
    · simpa [hwaiting] using hunused.dropReceiver
    · simpa [hwaiting] using hunused
  · obtain ⟨call, hcall, rfl⟩ := touch_eq_some.mp hafter
    have hunused := (hmatched.held k hk).2 call hcall
    by_cases hwaiting : k ∈ state.waiting
    · simpa [hwaiting] using hunused.dropReceiver
    · simpa [hwaiting] using hunused

theorem matched_finish {result : Except Text Bytes} (hconsistent : Consistent state.reporting)
    (hmatched : Matched state) (hstep : state.finish result = some next) : Matched next := by
  obtain ⟨hreport, rfl⟩ := whileRunning_eq_some.mp hstep
  have hreceiving : state.session.rx.receiving = true := hconsistent.receiving
  have hfinished : state.session.finished = false := (hconsistent.running hreport).1
  refine matched_ended hmatched hfinished nofun ?_
  rw [Channel.send_eq_some.mpr ⟨hreceiving, rfl⟩]
  simp [hmatched.flow, lastEvents, P3Run.ended, hfinished, hreport]

theorem matched_vanish (hconsistent : Consistent state.reporting)
    (hmatched : Matched state) (hstep : state.vanish = some next) : Matched next := by
  obtain ⟨hreport, rfl⟩ := whileRunning_eq_some.mp hstep
  have hfinished : state.session.finished = false := (hconsistent.running hreport).1
  refine matched_ended hmatched hfinished nofun ?_
  simp [hmatched.flow, lastEvents, P3Run.ended, hfinished, hreport]

theorem exchanges_append_pending {result request : Bytes} {report : Report} :
    exchanges (transcript ++ [.polled { status := .pending, result, report } request]) =
      exchanges transcript ++ [(request, none)] := by
  rw [exchanges_append_polled]
  rfl

theorem exchanges_append_ended {polled : Polled P3Status} {request : Bytes}
    (hstatus : polled.status ≠ .pending) :
    exchanges (transcript ++ [.polled polled request]) = exchanges transcript := by
  rw [exchanges_append_polled]
  simp [exchanges, surfaced, hstatus]

theorem Agrees.dropSender {held : Option Nat} {k j : Nat} {response : Option Bytes}
    {oneshot : Oneshot Bytes} (hagrees : Agrees held k response oneshot) :
    Agrees (some j) k response (if k ∈ held.toList then oneshot.dropSender else oneshot) := by
  cases response with
  | some response =>
      rcases hagrees with rfl | rfl
      · exact .inl (ite_self _)
      · exact .inr (ite_self _)
  | none =>
      rcases hagrees with rfl | rfl | ⟨rfl, rfl⟩
      · exact .inl (ite_self _)
      · exact .inr (.inl (ite_self _))
      · exact .inl (if_pos (by simp))

theorem mem_lastEvents {event : P3Event} (hevent : event ∈ lastEvents state) :
    ∃ result, event = .done result ∧ state.report = .done result := by
  unfold lastEvents at hevent
  split at hevent
  · cases hevent
  · split at hevent
    · next result hreport => exact ⟨result, List.mem_singleton.mp hevent, hreport⟩
    · cases hevent

/-- A host call at the front of the queue is the next one to surface. -/
theorem Matched.front {request : Bytes} {respond : Nat} {rest : List P3Event}
    (hmatched : Matched state)
    (hqueue : state.session.rx.queue = .hostCall request respond :: rest) :
    respond = (exchanges state.transcript).length ∧
      rest = (hostCalls state.calls).drop (respond + 1) ++ lastEvents state ∧
      ∃ call, state.calls[respond]? = some call ∧ call.request = request := by
  have hflow := hmatched.flow
  rw [hqueue, drop_hostCalls] at hflow
  cases hcall : state.calls[(exchanges state.transcript).length]? with
  | none =>
      rw [hcall] at hflow
      obtain ⟨result, hdone, -⟩ := mem_lastEvents (hflow ▸ List.mem_cons_self)
      cases hdone
  | some call =>
      rw [hcall] at hflow
      simp only [List.cons_append, List.cons.injEq, P3Event.hostCall.injEq] at hflow
      obtain ⟨⟨rfl, rfl⟩, rfl⟩ := hflow
      exact ⟨rfl, rfl, call, hcall, rfl⟩

/-- A PENDING poll takes the next call in hand and drops the responder it had. -/
theorem matched_pending {request : Bytes} {respond : Nat} {rest : List P3Event}
    (hmatched : Matched state)
    (hqueue : state.session.rx.queue = .hostCall request respond :: rest)
    (hrx : next.session.rx.queue = rest) (hnext : next.session.pendingRespond = some respond)
    (hlast : lastEvents next = lastEvents state) (hlive : next.session.finished = false)
    (hcalls : next.calls =
      touch state.session.pendingRespond.toList Oneshot.dropSender state.calls)
    (hexchanges : exchanges next.transcript = exchanges state.transcript ++ [(request, none)])
    (hawaits : awaitsResolve next.transcript = true) : Matched next := by
  obtain ⟨hrespond, hrest, call, hcall, rfl⟩ := hmatched.front hqueue
  have hlength : (exchanges next.transcript).length = respond + 1 := by
    rw [hexchanges, List.length_append, ← hrespond, List.length_singleton]
  have hheld : ∀ k, state.session.pendingRespond = some k → k < respond :=
    fun k hk => hrespond ▸ (hmatched.held k hk).1
  have hunused : ∀ k after, respond ≤ k → next.calls[k]? = some after → Unused after.respond := by
    intro k after hk hafter
    rw [hcalls] at hafter
    obtain ⟨before, hbefore, rfl⟩ := touch_eq_some.mp hafter
    have hout : k ∉ state.session.pendingRespond.toList := fun hmem =>
      absurd (hheld k (Option.mem_toList.mp hmem)) (by omega)
    simpa [hout] using hmatched.queued k before (hrespond ▸ hk) hbefore
  refine ⟨?_, ?_, fun hover => ?_, fun k exchange after hexchange hafter => ?_,
    fun k after hk hafter => ?_, fun k hk => ?_, fun _ => ⟨respond, hnext, hlength.symm⟩,
    fun hnone => ?_⟩
  · rw [hrx, hlength, hcalls, hostCalls_touch, hlast, hrest]
  · rw [hlength, hcalls, map_request_touch, hexchanges, List.map_append, hmatched.surfaced,
      ← hrespond, List.take_add_one]
    simp [hcall]
  · simp [hlive] at hover
  · rw [hnext]
    rw [hexchanges] at hexchange
    rcases Nat.lt_or_ge k respond with hold | hnew
    · rw [hcalls] at hafter
      obtain ⟨before, hbefore, rfl⟩ := touch_eq_some.mp hafter
      rw [List.getElem?_append_left (hrespond ▸ hold)] at hexchange
      exact (hmatched.settled k exchange before hexchange hbefore).dropSender
    · have hk : k < respond + 1 := hlength ▸ hexchanges ▸ (List.getElem?_eq_some_iff.mp hexchange).1
      obtain rfl : k = respond := by omega
      obtain rfl : (call.request, none) = exchange := by simpa [hrespond] using hexchange
      rcases hunused k after le_rfl hafter with hpending | habandoned
      · exact .inr (.inr ⟨hpending, rfl⟩)
      · exact .inr (.inl habandoned)
  · exact hunused k after (by omega) hafter
  · obtain rfl := Option.some.inj (hnext.symm.trans hk)
    exact ⟨by omega, fun after hafter => hunused _ after le_rfl hafter⟩
  · simp [hawaits] at hnone

/-- A poll that tells the end takes no call in hand, and leaves none in the queue. -/
theorem matched_ended_poll (hconsistent : Consistent next.reporting) (hmatched : Matched state)
    (hrx : next.session.rx.queue = []) (hover : next.session.finished = true)
    (hnext : next.session.pendingRespond = state.session.pendingRespond)
    (hcalls : next.calls = state.calls)
    (hall : (exchanges state.transcript).length = state.calls.length)
    (hexchanges : exchanges next.transcript = exchanges state.transcript)
    (hawaits : awaitsResolve next.transcript = false) : Matched next := by
  refine ⟨?_, ?_, fun _ => ?_, ?_, ?_, ?_, fun hsome => ?_, fun _ _ => (hconsistent.ended hover).1⟩
  · rw [hrx, hexchanges, hcalls, hall, List.drop_eq_nil_of_le (by simp), lastEvents, if_pos hover]
    rfl
  · rw [hexchanges, hcalls]
    exact hmatched.surfaced
  · rw [hexchanges, hcalls, hall]
  · rw [hexchanges, hcalls, hnext]
    exact hmatched.settled
  · rw [hexchanges, hcalls]
    exact hmatched.queued
  · rw [hexchanges, hcalls, hnext]
    exact hmatched.held
  · simp [hawaits] at hsome

/-- Where no host call is at the front of the queue, all have surfaced. -/
theorem Matched.all_surfaced (hmatched : Matched state)
    (hfront : ∀ request respond rest, state.session.rx.queue ≠ .hostCall request respond :: rest) :
    (exchanges state.transcript).length = state.calls.length ∧
      state.session.rx.queue = lastEvents state := by
  have hflow := hmatched.flow
  rw [drop_hostCalls] at hflow
  cases hcall : state.calls[(exchanges state.transcript).length]? with
  | none =>
      rw [hcall] at hflow
      exact ⟨le_antisymm hmatched.length_le (List.getElem?_eq_none_iff.mp hcall), hflow⟩
  | some call =>
      rw [hcall] at hflow
      exact (hfront _ _ _ hflow).elim

theorem tail_lastEvents {event : P3Event} {rest : List P3Event}
    (hlast : lastEvents state = event :: rest) : rest = [] := by
  unfold lastEvents at hlast
  split at hlast
  · cases hlast
  · split at hlast
    · exact (List.cons.inj hlast).2.symm
    · cases hlast

theorem matched_poll (hconsistent : Consistent state.reporting) (hmatched : Matched state)
    (hstep : state.poll = some next) : Matched next := by
  have hnext : Consistent next.reporting := consistent_poll hconsistent (reporting_poll hstep)
  obtain ⟨⟨status, session⟩, hpoll, rfl⟩ := Option.map_eq_some_iff.mp hstep
  obtain ⟨rfl, hfinished, request, respond, rest, hqueue, rfl⟩ | ⟨hstatus, hover, hrespond, hcases⟩ :=
    session_poll_cases hpoll
  · exact matched_pending hmatched hqueue rfl rfl rfl hfinished rfl
      exchanges_append_pending (by simp [awaitsResolve, HostCalls.surfaced])
  · have hends : (exchanges state.transcript).length = state.calls.length ∧
        session.rx.queue = [] := by
      rcases hcases with ⟨hbefore, rfl⟩ | ⟨-, ⟨result, rest, hqueue, hrx⟩ | ⟨hqueue, -, hrx⟩⟩
      · have hall := hmatched.complete hbefore
        refine ⟨hall, ?_⟩
        rw [hmatched.flow, hall, List.drop_eq_nil_of_le (by simp), lastEvents, if_pos hbefore]
        rfl
      · obtain ⟨hall, hlast⟩ := hmatched.all_surfaced (by simp [hqueue])
        exact ⟨hall, by rw [hrx]; exact tail_lastEvents (hlast.symm.trans hqueue)⟩
      · obtain ⟨hall, -⟩ := hmatched.all_surfaced (by simp [hqueue])
        exact ⟨hall, by rw [hrx, hqueue]⟩
    exact matched_ended_poll hnext hmatched hends.2 hover hrespond (if_neg hstatus) hends.1
      (exchanges_append_ended hstatus) (by simp [awaitsResolve, HostCalls.surfaced, hstatus])

/-- A responder in hand when no resolve is awaited has nobody waiting for it. -/
theorem not_pending_of_not_awaited (haccounted : Accounted state) (hmatched : Matched state)
    (hawaits : awaitsResolve state.transcript = false) {k : Nat} {call : Call}
    (hheld : state.session.pendingRespond = some k) (hcall : state.calls[k]? = some call) :
    call.respond ≠ .pending := by
  intro hpending
  have hover := haccounted.ended (hmatched.closed hawaits (by simp [hheld]))
  have hwaiting := haccounted.pending k call hcall hpending
  simp [hover] at hwaiting

theorem calls_resolve_of_not_awaited (haccounted : Accounted state) (hmatched : Matched state)
    (hawaits : awaitsResolve state.transcript = false) (response : Bytes) :
    (state.resolve response).calls = state.calls :=
  touch_eq_self fun _ hk _ hcall => Oneshot.send_of_settled
    (not_pending_of_not_awaited haccounted hmatched hawaits (Option.mem_toList.mp hk) hcall)

/-- A call whose responder is elsewhere, when the one in hand goes. -/
theorem Agrees.release {held : Option Nat} {k : Nat} {response : Option Bytes}
    {oneshot : Oneshot Bytes} (hagrees : Agrees held k response oneshot)
    (helsewhere : oneshot = .pending → held ≠ some k) : Agrees none k response oneshot := by
  cases response with
  | some response => exact hagrees
  | none =>
      rcases hagrees with hcancelled | habandoned | ⟨hpending, hheld⟩
      · exact .inl hcancelled
      · exact .inr (.inl habandoned)
      · exact (helsewhere hpending hheld).elim

/-- A resolve that no PENDING poll awaits drops the responder in hand, if any. -/
theorem matched_resolve_unawaited (haccounted : Accounted state) (hmatched : Matched state)
    (hawaits : awaitsResolve state.transcript = false) (response : Bytes) :
    Matched (state.resolve response) := by
  have hcalls := calls_resolve_of_not_awaited haccounted hmatched hawaits response
  have hexchanges : exchanges (state.resolve response).transcript = exchanges state.transcript :=
    exchanges_append_resolved hawaits
  refine ⟨?_, ?_, ?_, fun k exchange call hexchange hcall => ?_, ?_, nofun,
    fun hsome => ?_, fun _ hheld => (hheld rfl).elim⟩
  · rw [hcalls, hexchanges]
    exact hmatched.flow
  · rw [hcalls, hexchanges]
    exact hmatched.surfaced
  · rw [hcalls, hexchanges]
    exact hmatched.complete
  · rw [hexchanges] at hexchange
    rw [hcalls] at hcall
    exact (hmatched.settled k exchange call hexchange hcall).release fun hpending hheld =>
      not_pending_of_not_awaited haccounted hmatched hawaits hheld hcall hpending
  · rw [hcalls, hexchanges]
    exact hmatched.queued
  · simp [P3Run.resolve] at hsome

/-- The first resolve after a PENDING poll answers the call that it surfaced. -/
theorem matched_resolve_awaited (hmatched : Matched state)
    (hawaits : awaitsResolve state.transcript = true) (response : Bytes) :
    Matched (state.resolve response) := by
  obtain ⟨before, request, hbefore, hafter⟩ := exists_of_awaitsResolve hawaits
  obtain ⟨held, hheld, hlast⟩ := hmatched.opened hawaits
  have hexchanges : exchanges (state.resolve response).transcript =
      before ++ [(request, some response)] := hafter response
  have hcalls : (state.resolve response).calls =
      touch [held] (Oneshot.send response) state.calls := by
    simp [P3Run.resolve, HwrP3Session.resolve, hheld]
  have hlength : (exchanges (state.resolve response).transcript).length =
      (exchanges state.transcript).length := by
    rw [hexchanges, hbefore, List.length_append, List.length_append]
    rfl
  have hposition : held = before.length := by
    rw [hbefore, List.length_append, List.length_singleton] at hlast
    omega
  refine ⟨?_, ?_, ?_, fun k exchange call hexchange hcall => ?_, fun k call hk hcall => ?_,
    fun k hnone => ?_, fun hsome => ?_, fun _ hnone => (hnone rfl).elim⟩
  · rw [hcalls, hlength, hostCalls_touch]
    exact hmatched.flow
  · rw [hcalls, hlength, map_request_touch, ← hmatched.surfaced, hexchanges, hbefore]
    simp
  · intro hover
    rw [hcalls, hlength, length_touch]
    exact hmatched.complete hover
  · rw [hcalls] at hcall
    obtain ⟨old, hold, rfl⟩ := touch_eq_some.mp hcall
    rw [hexchanges] at hexchange
    rcases Nat.lt_or_ge k before.length with hearlier | hlater
    · have hout : k ∉ [held] := by simp; omega
      rw [List.getElem?_append_left hearlier] at hexchange
      have hagrees := hmatched.settled k exchange old
        (by rw [hbefore, List.getElem?_append_left hearlier, hexchange]) hold
      rw [if_neg hout]
      exact hagrees.release fun _ hheld' => by
        obtain rfl := Option.some.inj (hheld.symm.trans hheld')
        simp at hout
    · have hk := (List.getElem?_eq_some_iff.mp hexchange).1
      rw [List.length_append, List.length_singleton] at hk
      obtain rfl : k = held := by omega
      obtain rfl : (request, some response) = exchange := by simpa [hposition] using hexchange
      rw [if_pos (List.mem_singleton_self _)]
      rcases (hmatched.held k hheld).2 old hold with hpending | habandoned
      · exact .inl (by rw [hpending]; rfl)
      · exact .inr (by rw [habandoned]; rfl)
  · rw [hcalls] at hcall
    obtain ⟨old, hold, rfl⟩ := touch_eq_some.mp hcall
    rw [hlength] at hk
    have hout : k ∉ [held] := by simp; omega
    simpa [hout] using hmatched.queued k old hk hold
  · cases hnone
  · simp [P3Run.resolve] at hsome

theorem matched_step (haccounted : Accounted state) (hconsistent : Consistent state.reporting)
    (hmatched : Matched state) (hstep : state.step label = some next) : Matched next := by
  cases label with
  | issue request => exact matched_issue hconsistent hmatched hstep
  | wake k => exact matched_wake hmatched hstep
  | finish result => exact matched_finish hconsistent hmatched hstep
  | vanish => exact matched_vanish hconsistent hmatched hstep
  | poll => exact matched_poll hconsistent hmatched hstep
  | resolve response =>
      obtain rfl := Option.some.inj hstep
      cases hawaits : awaitsResolve state.transcript with
      | false => exact matched_resolve_unawaited haccounted hmatched hawaits response
      | true => exact matched_resolve_awaited hmatched hawaits response

/-! ## The answers -/

theorem queuedRequests_eq (hmatched : Matched state) :
    queuedRequests state.session =
      (state.calls.map Call.request).drop (exchanges state.transcript).length := by
  have hcalls : (hostCalls state.calls).map queuedRequest =
      (state.calls.map Call.request).map some := by
    refine List.ext_getElem? fun k => ?_
    simp only [hostCalls, List.getElem?_map, List.getElem?_mapIdx, Option.map_map]
    rfl
  have hlast : (lastEvents state).filterMap queuedRequest = [] := by
    refine List.filterMap_eq_nil_iff.mpr fun event hevent => ?_
    obtain ⟨result, rfl, -⟩ := mem_lastEvents hevent
    rfl
  rw [queuedRequests, hmatched.flow, List.filterMap_append, hlast, List.append_nil]
  calc ((hostCalls state.calls).drop _).filterMap queuedRequest
      = (((hostCalls state.calls).map queuedRequest).drop _).filterMap id := by
        rw [← List.map_drop, List.filterMap_map, Function.id_comp]
    _ = (state.calls.map Call.request).drop _ := by
        rw [hcalls, ← List.map_drop, List.filterMap_map, Function.id_comp, List.filterMap_some]

/-- A call that came back was answered, or dropped, in its own exchange. -/
theorem own_of_received (haccounted : Accounted state) (hmatched : Matched state) {k : Nat}
    {outcome : Option Bytes} (hmem : (k, outcome) ∈ state.received) :
    ∃ request, (exchanges state.transcript)[k]? = some (request, outcome) := by
  obtain ⟨call, hcall, houtcome⟩ := haccounted.received k outcome hmem
  have hlt : k < (exchanges state.transcript).length := by
    by_contra hqueued
    rcases hmatched.queued k call (not_lt.mp hqueued) hcall with hpending | habandoned
    · simp [hpending, Oneshot.outcome] at houtcome
    · simp [habandoned, Oneshot.outcome] at houtcome
  obtain ⟨⟨request, response⟩, hexchange⟩ : ∃ exchange,
      (exchanges state.transcript)[k]? = some exchange := ⟨_, List.getElem?_eq_getElem hlt⟩
  have hagrees := hmatched.settled k _ call hexchange hcall
  refine ⟨request, ?_⟩
  rw [hexchange]
  cases response with
  | some response =>
      rcases hagrees with hanswered | habandoned
      · rw [hanswered] at houtcome
        rw [← Option.some.inj houtcome]
      · simp [habandoned, Oneshot.outcome] at houtcome
  | none =>
      rcases hagrees with hcancelled | habandoned | ⟨hpending, -⟩
      · rw [hcancelled] at houtcome
        rw [← Option.some.inj houtcome]
      · simp [habandoned, Oneshot.outcome] at houtcome
      · simp [hpending, Oneshot.outcome] at houtcome

theorem ownAnswers (haccounted : Accounted state) (hmatched : Matched state) : OwnAnswers state where
  inOrder := by
    rw [queuedRequests_eq hmatched, hmatched.surfaced, List.take_append_drop]
  complete hover := by
    rw [queuedRequests_eq hmatched, hmatched.complete hover]
    simp
  own _ _ := own_of_received haccounted hmatched
  once := (List.nodup_append.mp haccounted.once).2.1
  delivered k request response hexchange hwaiting := by
    obtain ⟨call, hcall, hlive⟩ := haccounted.waits k hwaiting
    have hanswered : call.respond = .answered response :=
      (hmatched.settled k _ call hexchange hcall).resolve_right hlive
    exact ⟨_, wake_eq_some.mpr ⟨hwaiting, call, some response, hcall, by rw [hanswered]; rfl, rfl⟩, rfl⟩
  others hawaits response :=
    ⟨calls_resolve_of_not_awaited haccounted hmatched hawaits response, rfl, rfl, rfl, rfl⟩

/-- The reporting of a run stays consistent. -/
theorem consistent_reporting_step (hconsistent : Consistent state.reporting)
    (hstep : state.step label = some next) : Consistent next.reporting := by
  cases haction : label.action with
  | none => exact reporting_hidden haction hstep ▸ hconsistent
  | some action => exact consistent_step hconsistent (reporting_shown haction hstep)

/-- What holds of every run that is not being freed. -/
structure Sound (run : P3Run) : Prop where
  accounted : Accounted run
  consistent : Consistent run.reporting
  matched : Matched run

theorem sound_step (hsound : Sound state) (hstep : state.step label = some next) : Sound next :=
  ⟨accounted_step hsound.accounted hstep, consistent_reporting_step hsound.consistent hstep,
    matched_step hsound.accounted hsound.consistent hsound.matched hstep⟩

/-- Whatever the order of the worker's and the caller's steps, each host call gets its
own answer. -/
theorem ownAnswers_of_run (drive : Drive) (labels : List Label) (final : P3Run)
    (hrun : run P3Run.step (P3Run.start drive) labels = some final) : OwnAnswers final := by
  have hsound : Sound final := run_preserves (fun _ _ _ => sound_step)
    ⟨accounted_start, consistent_start, matched_start⟩ hrun
  exact ownAnswers hsound.accounted hsound.matched

/-- Two calls, the first resolved twice and the second after its poll. -/
theorem ownAnswers_of_run_example :
    ∃ final, run P3Run.step (P3Run.start .async)
        [.resolve [0x30], .issue [0x61], .poll, .resolve [0x31], .resolve [0x32], .wake 0,
          .issue [0x62], .resolve [0x33], .poll, .resolve [0x34], .wake 1] = some final ∧
      final.received = [(0, some [0x31]), (1, some [0x34])] ∧ OwnAnswers final :=
  ⟨_, rfl, by decide, ownAnswers_of_run .async
    [.resolve [0x30], .issue [0x61], .poll, .resolve [0x31], .resolve [0x32], .wake 0,
      .issue [0x62], .resolve [0x33], .poll, .resolve [0x34], .wake 1] _ rfl⟩

end HellohqRuntime.Bridge.HostCalls

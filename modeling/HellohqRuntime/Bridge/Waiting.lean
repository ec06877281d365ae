import HellohqRuntime.Bridge.Session
import Mathlib.Data.List.Nodup

/-!
# What the worker waits on

Each call the guest made is waited on, or has come back with what its oneshot
holds, or was given up when the worker ended.  This holds of every run, also of one
whose session is being freed.
-/

namespace HellohqRuntime.Bridge.Waiting

open HellohqRuntime.Foundation.Channels
open HellohqRuntime.Foundation.Strings
open HellohqRuntime.Bridge.Reporting
open HellohqRuntime.Bridge.Session

variable {drive : Drive} {state next : P3Run} {label : Label}
variable {responders : List Nat} {change : Oneshot Bytes → Oneshot Bytes} {calls : List Call}

/-! ## Responders that act on their calls -/

theorem getElem?_touch (k : Nat) :
    (touch responders change calls)[k]? = calls[k]?.map fun call =>
      if k ∈ responders then { call with respond := change call.respond } else call := by
  rw [touch, List.getElem?_mapIdx]

theorem length_touch : (touch responders change calls).length = calls.length :=
  List.length_mapIdx

/-- A call behind a change, with what its oneshot was before. -/
theorem touch_eq_some {k : Nat} {after : Call} :
    (touch responders change calls)[k]? = some after ↔
      ∃ call, calls[k]? = some call ∧ after = { call with
        respond := if k ∈ responders then change call.respond else call.respond } := by
  rw [getElem?_touch, Option.map_eq_some_iff]
  refine exists_congr fun call => and_congr_right fun _ => ?_
  by_cases hmem : k ∈ responders <;> simp [hmem, eq_comm]

/-- A change that leaves settled oneshots alone. -/
theorem touch_eq_self (hfixed : ∀ k ∈ responders, ∀ call, calls[k]? = some call →
    change call.respond = call.respond) : touch responders change calls = calls := by
  refine List.ext_getElem? fun k => ?_
  rw [getElem?_touch]
  cases hcall : calls[k]? with
  | none => rfl
  | some call =>
      by_cases hmem : k ∈ responders
      · simp [hmem, hfixed k hmem call hcall]
      · simp [hmem]

/-! ## The steps -/

/-- What a poll takes: a host call; or it tells the end, known before or just now. -/
theorem session_poll_cases {session after : HwrP3Session} {status : P3Status}
    (hpoll : session.poll = some (status, after)) :
    (status = .pending ∧ session.finished = false ∧ ∃ request respond rest,
        session.rx.queue = .hostCall request respond :: rest ∧
        after = { session with
          rx := { session.rx with queue := rest }
          pendingRequest := request
          pendingRespond := some respond }) ∨
      (status ≠ .pending ∧ after.finished = true ∧ after.pendingRespond = session.pendingRespond ∧
        (session.finished = true ∧ after = session ∨
          session.finished = false ∧ ((∃ result rest, session.rx.queue = .done result :: rest ∧
            after.rx = { session.rx with queue := rest }) ∨
          session.rx.queue = [] ∧ session.rx.sending = false ∧ after.rx = session.rx))) := by
  unfold HwrP3Session.poll at hpoll
  by_cases hfinished : session.finished = true
  · rw [if_pos hfinished] at hpoll
    obtain ⟨rfl, rfl⟩ := Prod.mk.inj (Option.some.inj hpoll)
    exact .inr ⟨nofun, hfinished, rfl, .inl ⟨hfinished, rfl⟩⟩
  · rw [if_neg hfinished] at hpoll
    rw [Bool.not_eq_true] at hfinished
    cases hreceive : session.rx.receive with
    | pending => simp [hreceive] at hpoll
    | disconnected =>
        rw [hreceive] at hpoll
        obtain ⟨rfl, rfl⟩ := Prod.mk.inj (Option.some.inj hpoll)
        obtain ⟨hqueue, hsending⟩ := Channel.receive_eq_disconnected.mp hreceive
        exact .inr ⟨nofun, rfl, rfl, .inr ⟨hfinished, .inr ⟨hqueue, hsending, rfl⟩⟩⟩
    | value event rx =>
        rw [hreceive] at hpoll
        obtain ⟨rest, hqueue, rfl⟩ := Channel.receive_eq_value.mp hreceive
        cases event with
        | hostCall request respond =>
            obtain ⟨rfl, rfl⟩ := Prod.mk.inj (Option.some.inj hpoll)
            exact .inl ⟨rfl, hfinished, request, respond, rest, hqueue, rfl⟩
        | done result =>
            cases result with
            | ok out =>
                obtain ⟨rfl, rfl⟩ := Prod.mk.inj (Option.some.inj hpoll)
                exact .inr ⟨nofun, rfl, rfl, .inr ⟨hfinished, .inl ⟨_, rest, hqueue, rfl⟩⟩⟩
            | error msg =>
                obtain ⟨rfl, rfl⟩ := Prod.mk.inj (Option.some.inj hpoll)
                exact .inr ⟨nofun, rfl, rfl, .inr ⟨hfinished, .inl ⟨_, rest, hqueue, rfl⟩⟩⟩

/-- A host call is queued; or it waits on a responder that is dropped; or it fails. -/
theorem issue_cases {request : Bytes} (hstep : state.issue request = some next) :
    state.report = .running ∧
      ((state.session.rx.receiving = true ∧ next = { state with
          session := { state.session with rx := { state.session.rx with
            queue := state.session.rx.queue ++ [.hostCall request state.calls.length] } }
          calls := state.calls ++ [{ request }]
          waiting := state.waiting ++ [state.calls.length] }) ∨
        (state.session.rx.receiving = false ∧ state.drive = .async ∧ next = { state with
          calls := state.calls ++ [{ request, respond := .cancelled }]
          waiting := state.waiting ++ [state.calls.length] }) ∨
        (state.session.rx.receiving = false ∧ state.drive = .sync ∧ next = { state with
          calls := state.calls ++ [{ request, respond := .cancelled }]
          received := state.received ++ [(state.calls.length, none)] })) := by
  obtain ⟨hreport, hnext⟩ := whileRunning_eq_some.mp hstep
  refine ⟨hreport, ?_⟩
  cases hsend : state.session.rx.send (.hostCall request state.calls.length) with
  | some rx =>
      obtain ⟨hreceiving, rfl⟩ := Channel.send_eq_some.mp hsend
      rw [hsend] at hnext
      exact .inl ⟨hreceiving, hnext⟩
  | none =>
      have hreceiving := Channel.send_eq_none.mp hsend
      rw [hsend] at hnext
      cases hdrive : state.drive with
      | async =>
          rw [hdrive] at hnext
          exact .inr (.inl ⟨hreceiving, rfl, hnext⟩)
      | sync =>
          rw [hdrive] at hnext
          exact .inr (.inr ⟨hreceiving, rfl, hnext⟩)

theorem wake_eq_some {k : Nat} :
    state.wake k = some next ↔ k ∈ state.waiting ∧ ∃ call outcome, state.calls[k]? = some call ∧
      call.respond.outcome = some outcome ∧ next = { state with
        waiting := state.waiting.erase k
        received := state.received ++ [(k, outcome)] } := by
  rw [P3Run.wake, Option.ite_none_right_eq_some, Option.map_eq_some_iff]
  simp only [Option.bind_eq_some_iff]
  constructor
  · rintro ⟨hwaiting, outcome, ⟨call, hcall, houtcome⟩, rfl⟩
    exact ⟨hwaiting, call, outcome, hcall, houtcome, rfl⟩
  · rintro ⟨hwaiting, call, outcome, hcall, houtcome, rfl⟩
    exact ⟨hwaiting, outcome, ⟨call, hcall, houtcome⟩, rfl⟩

/-! ## The calls are accounted for -/

structure Accounted (run : P3Run) : Prop where
  waits : ∀ k ∈ run.waiting, ∃ call, run.calls[k]? = some call ∧ call.respond ≠ .abandoned
  pending : ∀ k call, run.calls[k]? = some call → call.respond = .pending → k ∈ run.waiting
  ended : run.report ≠ .running → run.waiting = []
  received : ∀ k outcome, (k, outcome) ∈ run.received →
    ∃ call, run.calls[k]? = some call ∧ call.respond.outcome = some outcome
  once : (run.waiting ++ run.received.map Prod.fst).Nodup

theorem accounted_start : Accounted (P3Run.start drive) where
  waits _ hwaiting := by cases hwaiting
  pending _ _ hcall := by cases hcall
  ended _ := rfl
  received _ _ hreceived := by cases hreceived
  once := List.nodup_nil

/-- Calls that are waited on or have come back were made. -/
theorem Accounted.lt_length (haccounted : Accounted state) {k : Nat}
    (hk : k ∈ state.waiting ++ state.received.map Prod.fst) : k < state.calls.length := by
  rcases List.mem_append.mp hk with hwaiting | hreceived
  · obtain ⟨call, hcall, -⟩ := haccounted.waits k hwaiting
    exact (List.getElem?_eq_some_iff.mp hcall).1
  · obtain ⟨⟨k, outcome⟩, hmem, rfl⟩ := List.mem_map.mp hreceived
    obtain ⟨call, hcall, -⟩ := haccounted.received k outcome hmem
    exact (List.getElem?_eq_some_iff.mp hcall).1

/-- The next call has a new number. -/
theorem Accounted.fresh (haccounted : Accounted state) :
    state.calls.length ∉ state.waiting ++ state.received.map Prod.fst :=
  fun hold => absurd (haccounted.lt_length hold) (Nat.lt_irrefl _)

theorem getElem?_concat_of_some {k : Nat} {call last : Call} (hcall : calls[k]? = some call) :
    (calls ++ [last])[k]? = some call := by
  rw [List.getElem?_append_left (List.getElem?_eq_some_iff.mp hcall).1, hcall]

theorem getElem?_concat_eq_some {k : Nat} {call last : Call}
    (hcall : (calls ++ [last])[k]? = some call) :
    calls[k]? = some call ∨ k = calls.length ∧ call = last := by
  rcases Nat.lt_trichotomy k calls.length with hold | rfl | hbeyond
  · exact .inl (by rwa [List.getElem?_append_left hold] at hcall)
  · exact .inr ⟨rfl, by simpa [eq_comm] using hcall⟩
  · have hnone : (calls ++ [last])[k]? = none := 
      List.getElem?_eq_none (by rw [List.length_append]; exact hbeyond)
    simp [hnone] at hcall

/-- A call that is made and waited on. -/
theorem accounted_open (haccounted : Accounted state) (hreport : state.report = .running)
    (session : HwrP3Session) {call : Call} (hlive : call.respond ≠ .abandoned) :
    Accounted { state with
      session
      calls := state.calls ++ [call]
      waiting := state.waiting ++ [state.calls.length] } := by
  refine ⟨fun k hk => ?_, fun k made hmade hpending => ?_, fun hover => (hover hreport).elim,
    fun k outcome hmem => ?_, ?_⟩
  · rcases List.mem_append.mp hk with hold | hnew
    · obtain ⟨old, hcall, holdlive⟩ := haccounted.waits k hold
      exact ⟨old, getElem?_concat_of_some hcall, holdlive⟩
    · obtain rfl := List.mem_singleton.mp hnew
      exact ⟨call, List.getElem?_concat_length, hlive⟩
  · rcases getElem?_concat_eq_some hmade with hold | ⟨rfl, -⟩
    · exact List.mem_append_left _ (haccounted.pending k made hold hpending)
    · exact List.mem_append_right _ (List.mem_singleton_self _)
  · obtain ⟨old, hcall, houtcome⟩ := haccounted.received k outcome hmem
    exact ⟨old, getElem?_concat_of_some hcall, houtcome⟩
  · rw [List.append_assoc, List.singleton_append, List.nodup_middle]
    exact List.nodup_cons.mpr ⟨haccounted.fresh, haccounted.once⟩

/-- A call that fails at once. -/
theorem accounted_failed (haccounted : Accounted state) (hreport : state.report = .running)
    (request : Bytes) :
    Accounted { state with
      calls := state.calls ++ [{ request, respond := .cancelled }]
      received := state.received ++ [(state.calls.length, none)] } := by
  refine ⟨fun k hk => ?_, fun k made hmade hpending => ?_, fun hover => (hover hreport).elim,
    fun k outcome hmem => ?_, ?_⟩
  · obtain ⟨old, hcall, holdlive⟩ := haccounted.waits k hk
    exact ⟨old, getElem?_concat_of_some hcall, holdlive⟩
  · rcases getElem?_concat_eq_some hmade with hold | ⟨-, rfl⟩
    · exact haccounted.pending k made hold hpending
    · cases hpending
  · rcases List.mem_append.mp hmem with hold | hnew
    · obtain ⟨old, hcall, houtcome⟩ := haccounted.received k outcome hold
      exact ⟨old, getElem?_concat_of_some hcall, houtcome⟩
    · obtain ⟨rfl, rfl⟩ := Prod.mk.inj (List.mem_singleton.mp hnew)
      exact ⟨_, List.getElem?_concat_length, rfl⟩
  · rw [List.map_append, ← List.append_assoc, List.map_singleton, List.nodup_middle, List.append_nil]
    exact List.nodup_cons.mpr ⟨haccounted.fresh, haccounted.once⟩

theorem accounted_issue {request : Bytes} (haccounted : Accounted state)
    (hstep : state.issue request = some next) : Accounted next := by
  obtain ⟨hreport, ⟨-, rfl⟩ | ⟨-, -, rfl⟩ | ⟨-, -, rfl⟩⟩ := issue_cases hstep
  · exact accounted_open haccounted hreport _ nofun
  · exact accounted_open haccounted hreport _ nofun
  · exact accounted_failed haccounted hreport request

theorem accounted_wake {k : Nat} (haccounted : Accounted state)
    (hstep : state.wake k = some next) : Accounted next := by
  obtain ⟨hwaiting, call, outcome, hcall, houtcome, rfl⟩ := wake_eq_some.mp hstep
  refine ⟨fun k' hk' => haccounted.waits k' (List.mem_of_mem_erase hk'),
    fun k' call' hcall' hpending => ?_, fun hover => ?_, fun k' outcome' hmem => ?_, ?_⟩
  · refine (List.mem_erase_of_ne ?_).mpr (haccounted.pending k' call' hcall' hpending)
    rintro rfl
    obtain rfl := Option.some.inj (hcall.symm.trans hcall')
    simp [hpending, Oneshot.outcome] at houtcome
  · simp [haccounted.ended hover]
  · rcases List.mem_append.mp hmem with hold | hnew
    · exact haccounted.received k' outcome' hold
    · obtain ⟨rfl, rfl⟩ := Prod.mk.inj (List.mem_singleton.mp hnew)
      exact ⟨call, hcall, houtcome⟩
  · rw [List.map_append, ← List.append_assoc, List.map_singleton, List.nodup_middle, List.append_nil,
      ← List.cons_append]
    exact ((List.perm_cons_erase hwaiting).append_right _).nodup_iff.mp haccounted.once

/-- A worker that ends gives up the calls it waits on. -/
theorem accounted_ended (haccounted : Accounted state) (rx : Channel P3Event) (report : Report) :
    Accounted (state.ended rx report) := by
  refine ⟨nofun, fun k after hafter hpending => ?_, fun _ => rfl, fun k outcome hmem => ?_, ?_⟩
  · obtain ⟨call, hcall, rfl⟩ := touch_eq_some.mp hafter
    by_cases hwaiting : k ∈ state.waiting
    · simp only [hwaiting, if_true] at hpending
      exact (Oneshot.dropReceiver_ne_pending hpending).elim
    · simp only [hwaiting, if_false] at hpending
      exact (hwaiting (haccounted.pending k call hcall hpending)).elim
  · obtain ⟨call, hcall, houtcome⟩ := haccounted.received k outcome hmem
    have hfresh : k ∉ state.waiting := fun hwaiting =>
      List.disjoint_of_nodup_append haccounted.once hwaiting (List.mem_map.mpr ⟨_, hmem, rfl⟩)
    exact ⟨_, touch_eq_some.mpr ⟨call, hcall, rfl⟩, by simpa [hfresh] using houtcome⟩
  · exact (List.nodup_append.mp haccounted.once).2.1

/-- Responders that answer or are dropped leave the calls accounted for. -/
theorem accounted_touch (haccounted : Accounted state)
    (hfixed : ∀ oneshot, oneshot ≠ .pending → change oneshot = oneshot)
    (hkept : change .pending ≠ .abandoned) (session : HwrP3Session)
    (transcript : List CallerEvent) :
    Accounted { state with
      session, calls := touch responders change state.calls, transcript } := by
  refine ⟨fun k hk => ?_, fun k after hafter hpending => ?_, haccounted.ended,
    fun k outcome hmem => ?_, haccounted.once⟩
  · obtain ⟨call, hcall, hlive⟩ := haccounted.waits k hk
    refine ⟨_, touch_eq_some.mpr ⟨call, hcall, rfl⟩, ?_⟩
    by_cases hpending : call.respond = .pending
    · by_cases hmem : k ∈ responders <;> simp [hmem, hpending, hkept]
    · simpa [hfixed _ hpending] using hlive
  · obtain ⟨call, hcall, rfl⟩ := touch_eq_some.mp hafter
    refine haccounted.pending k call hcall ?_
    by_contra hsettled
    simp [hfixed _ hsettled] at hpending
    exact hsettled hpending
  · obtain ⟨call, hcall, houtcome⟩ := haccounted.received k outcome hmem
    refine ⟨_, touch_eq_some.mpr ⟨call, hcall, rfl⟩, ?_⟩
    have hsettled : call.respond ≠ .pending := by
      intro hpending
      simp [hpending, Oneshot.outcome] at houtcome
    simpa [hfixed _ hsettled] using houtcome

theorem accounted_step (haccounted : Accounted state) (hstep : state.step label = some next) :
    Accounted next := by
  cases label with
  | issue request => exact accounted_issue haccounted hstep
  | wake k => exact accounted_wake haccounted hstep
  | finish result =>
      obtain ⟨-, rfl⟩ := whileRunning_eq_some.mp hstep
      exact accounted_ended haccounted _ _
  | vanish =>
      obtain ⟨-, rfl⟩ := whileRunning_eq_some.mp hstep
      exact accounted_ended haccounted _ _
  | poll =>
      obtain ⟨⟨status, session⟩, -, rfl⟩ := Option.map_eq_some_iff.mp hstep
      by_cases hpending : status = .pending
      · simp only [hpending, if_true]
        exact accounted_touch haccounted (fun _ => Oneshot.dropSender_of_settled) nofun _ _
      · simp only [hpending, if_false]
        exact ⟨haccounted.waits, haccounted.pending, haccounted.ended, haccounted.received,
          haccounted.once⟩
  | resolve response =>
      obtain rfl := Option.some.inj hstep
      exact accounted_touch haccounted (fun _ => Oneshot.send_of_settled) nofun _ _

end HellohqRuntime.Bridge.Waiting

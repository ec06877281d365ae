import HellohqRuntime.Http.ReadEnds

/-!
# Where the reading ends go

Requests and responses take ends from the guest and give them back or drop them, and a
call takes the ends of its request and the receiver, which goes on to its response.
Each function of the host keeps custody of all ends.
-/

namespace HellohqRuntime.Http.ReadEndMoves

open HellohqRuntime.Foundation.Custody
open HellohqRuntime.Foundation.Strings
open HellohqRuntime.Http.Handle
open HellohqRuntime.Http.ReadEnds
open HellohqRuntime.Http.Resources
open HellohqRuntime.Http.System
open HellohqRuntime.Http.Tables
open HellohqRuntime.Http.Types

variable {world next : World} {tracked : Tracked} {label : Label} {call changed : Call} {index : Nat}

/-! ## Requests and responses -/

theorem nodup_stashedEnds (body : Option BodyReader) (trailers : Option TrailersFuture) :
    (stashedEnds body trailers).Nodup := by
  rcases body with _ | reader
  · rcases trailers with _ | future
    · exact List.nodup_nil
    · cases future <;> simp [stashedEnds, futureEnds]
  · rcases trailers with _ | future
    · cases reader <;> simp [stashedEnds, readerEnds]
    · cases reader <;> cases future <;> simp [stashedEnds, readerEnds, futureEnds]

/-- The defaults that `consume-body` gives have no ends. -/
theorem stashedEnds_getD (body : Option BodyReader) (trailers : Option TrailersFuture) :
    stashedEnds (some (body.getD (.buffered []))) (some (trailers.getD (.ready (.ok none)))) =
      stashedEnds body trailers := by
  cases body <;> cases trailers <;> rfl

theorem gained_request (host : WasiHttpHost) (rep : Rep) :
    gained host (.requestConsumeBody rep) = endsAt requestEnds host.requests rep := by
  simp only [gained, HostRequest.consumeBody, HostRequest.takeStreams, stashedEnds_getD, HostRequest.read,
    endsAt]
  cases host.requests.get rep <;> rfl

theorem gained_response (host : WasiHttpHost) (rep : Rep) :
    gained host (.responseConsumeBody rep) = endsAt responseEnds host.responses rep := by
  simp only [gained, HostResponse.consumeBody, stashedEnds_getD, HostResponse.read, endsAt]
  cases host.responses.get rep <;> rfl

theorem guest_after (hpassed : passed label = []) :
    (tracked.after label next).held .guest = gained tracked.world.host label ++ tracked.held .guest := by
  simp [Tracked.held, Tracked.after, hpassed]

/-- A place that is neither the guest's nor closed has what its part of the session has. -/
theorem held_elsewhere {place : Place} (hguest : place ≠ .guest) (hclosed : place ≠ .closed)
    (hrequests : ∀ rep, place = .request rep →
      endsAt requestEnds next.host.requests rep = endsAt requestEnds tracked.world.host.requests rep)
    (hresponses : ∀ rep, place = .response rep →
      endsAt responseEnds next.host.responses rep = endsAt responseEnds tracked.world.host.responses rep)
    (htransport : next.host.transport = tracked.world.host.transport)
    (htaken : takenBy tracked.world.host label = [])
    (hcalls : ∀ index, place = .call index →
      endsOfCall tracked.taken next.calls index = endsOfCall tracked.taken tracked.world.calls index) :
    (tracked.after label next).held place = tracked.held place := by
  cases place with
  | guest => exact absurd rfl hguest
  | request rep => exact hrequests rep rfl
  | response rep => exact hresponses rep rfl
  | transport => simp only [Tracked.held, Tracked.after, transportEnds, htransport]
  | call index =>
      simp only [Tracked.held, Tracked.after, htaken, List.map_nil, List.append_nil]
      exact hcalls index rfl
  | closed => exact absurd rfl hclosed

/-- The calls and the transport have nothing to do with a label of the tables. -/
theorem inv_of_custody (hinv : Inv tracked) (hcalls : next.calls = tracked.world.calls)
    (htaken : takenBy tracked.world.host label = [])
    (hcustody : InCustody (tracked.after label next).held tracked.made) :
    Inv (tracked.after label next) where
  custody := hcustody
  waiting := fun call hcall => hinv.waiting call (hcalls ▸ hcall)
  taken := by
    intro entry hentry
    simp only [Tracked.after, htaken, List.map_nil, List.append_nil] at hentry
    exact hcalls ▸ hinv.taken entry hentry

/-- One entry of the requests has other ends. -/
structure RequestUpdate (world next : World) (rep : Rep) (ends : List ReadEnd) : Prop where
  requests : endsAt requestEnds next.host.requests =
    Function.update (endsAt requestEnds world.host.requests) rep ends
  responses : next.host.responses = world.host.responses
  transport : next.host.transport = world.host.transport
  calls : next.calls = world.calls

structure ResponseUpdate (world next : World) (rep : Rep) (ends : List ReadEnd) : Prop where
  responses : endsAt responseEnds next.host.responses =
    Function.update (endsAt responseEnds world.host.responses) rep ends
  requests : next.host.requests = world.host.requests
  transport : next.host.transport = world.host.transport
  calls : next.calls = world.calls

variable {rep : Rep} {ends : List ReadEnd} {target : Place}

theorem RequestUpdate.held_self (hupdate : RequestUpdate tracked.world next rep ends) :
    (tracked.after label next).held (.request rep) = ends :=
  (congrFun hupdate.requests rep).trans (Function.update_self _ _ _)

theorem ResponseUpdate.held_self (hupdate : ResponseUpdate tracked.world next rep ends) :
    (tracked.after label next).held (.response rep) = ends :=
  (congrFun hupdate.responses rep).trans (Function.update_self _ _ _)

theorem RequestUpdate.held_other (hupdate : RequestUpdate tracked.world next rep ends)
    (htaken : takenBy tracked.world.host label = []) {place : Place} (hplace : place ≠ .request rep)
    (hguest : place ≠ .guest) (hclosed : place ≠ .closed) :
    (tracked.after label next).held place = tracked.held place := by
  refine held_elsewhere hguest hclosed ?_ (fun _ _ => by rw [hupdate.responses]) hupdate.transport htaken
    fun _ _ => by rw [hupdate.calls]
  rintro other rfl
  refine (congrFun hupdate.requests other).trans (Function.update_of_ne ?_ _ _)
  exact fun hother => hplace (congrArg Place.request hother)

theorem ResponseUpdate.held_other (hupdate : ResponseUpdate tracked.world next rep ends)
    (htaken : takenBy tracked.world.host label = []) {place : Place} (hplace : place ≠ .response rep)
    (hguest : place ≠ .guest) (hclosed : place ≠ .closed) :
    (tracked.after label next).held place = tracked.held place := by
  refine held_elsewhere hguest hclosed (fun _ _ => by rw [hupdate.requests]) ?_ hupdate.transport htaken
    fun _ _ => by rw [hupdate.calls]
  rintro other rfl
  refine (congrFun hupdate.responses other).trans (Function.update_of_ne ?_ _ _)
  exact fun hother => hplace (congrArg Place.response hother)

theorem inv_requestNew (hinv : Inv tracked) {headers : Rep} {contents : Option BodyReader}
    {trailers : TrailersFuture} {options : Option Rep}
    (hhost : next.host = (HostRequest.new tracked.world.host headers contents trailers options).2)
    (hcalls : next.calls = tracked.world.calls)
    (hown : ∀ given ∈ passed (.requestNew headers contents trailers options), given ∈ tracked.guest) :
    Inv (tracked.after (.requestNew headers contents trailers options) next) := by
  have hupdate : RequestUpdate tracked.world next tracked.world.host.requests.next
      (stashedEnds contents (some trailers)) := by
    refine ⟨?_, by rw [hhost]; rfl, by rw [hhost]; rfl, hcalls⟩
    rw [hhost]
    exact endsAt_insert
  refine inv_of_custody hinv hcalls rfl ?_
  refine inCustody_put .guest (.request tracked.world.host.requests.next) hinv.custody nofun nofun nofun
    (perm_passed (hinv.custody.nodup .guest) (nodup_stashedEnds contents (some trailers)) hown)
    hupdate.held_self ?_ fun other hguest hplace hclosed => hupdate.held_other rfl hplace hguest hclosed
  simp only [Tracked.held, Tracked.after, dropped, hhost, HostRequest.new, replaced_insert,
    replaced_of_eq, List.append_nil]

theorem inv_responseNew (hinv : Inv tracked) {headers : Rep} {contents : Option BodyReader}
    {trailers : TrailersFuture}
    (hhost : next.host = (HostResponse.new tracked.world.host headers contents trailers).2)
    (hcalls : next.calls = tracked.world.calls)
    (hown : ∀ given ∈ passed (.responseNew headers contents trailers), given ∈ tracked.guest) :
    Inv (tracked.after (.responseNew headers contents trailers) next) := by
  have hupdate : ResponseUpdate tracked.world next tracked.world.host.responses.next
      (stashedEnds contents (some trailers)) := by
    refine ⟨?_, by rw [hhost]; rfl, by rw [hhost]; rfl, hcalls⟩
    rw [hhost]
    exact endsAt_insert
  refine inv_of_custody hinv hcalls rfl ?_
  refine inCustody_put .guest (.response tracked.world.host.responses.next) hinv.custody nofun nofun nofun
    (perm_passed (hinv.custody.nodup .guest) (nodup_stashedEnds contents (some trailers)) hown)
    hupdate.held_self ?_ fun other hguest hplace hclosed => hupdate.held_other rfl hplace hguest hclosed
  simp only [Tracked.held, Tracked.after, dropped, hhost, HostResponse.new, replaced_insert,
    replaced_of_eq, List.append_nil, List.nil_append]

/-- The ends of an entry go to the guest, or are closed. -/
theorem inCustody_goes (hinv : Inv tracked) (place : Place) (hplace : place ≠ target)
    (hempty : (tracked.after label next).held place = [])
    (hgoes : (tracked.after label next).held target = tracked.held place ++ tracked.held target)
    (hstays : ∀ other, other = .guest ∨ other = .closed → other ≠ target →
      (tracked.after label next).held other = tracked.held other)
    (hothers : ∀ other, other ≠ place → other ≠ .guest → other ≠ .closed →
      (tracked.after label next).held other = tracked.held other) :
    InCustody (tracked.after label next).held tracked.made := by
  refine inCustody_take place target hinv.custody hplace hempty hgoes fun other hother hnot => ?_
  by_cases hends : other = .guest ∨ other = .closed
  · exact hstays other hends hnot
  · exact hothers other hother (fun hguest => hends (Or.inl hguest))
      fun hclosed => hends (Or.inr hclosed)

theorem inv_takeRequest (hinv : Inv tracked) (hupdate : RequestUpdate tracked.world next rep [])
    (htarget : target = .guest ∨ target = .closed) (htaken : takenBy tracked.world.host label = [])
    (hgoes : (tracked.after label next).held target = tracked.held (.request rep) ++ tracked.held target)
    (hstays : ∀ other, other = .guest ∨ other = .closed → other ≠ target →
      (tracked.after label next).held other = tracked.held other) :
    Inv (tracked.after label next) := by
  refine inv_of_custody hinv hupdate.calls htaken ?_
  refine inCustody_goes hinv (.request rep) ?_ hupdate.held_self hgoes hstays
    fun other hother hguest hclosed => hupdate.held_other htaken hother hguest hclosed
  rcases htarget with rfl | rfl <;> exact nofun

theorem inv_takeResponse (hinv : Inv tracked) (hupdate : ResponseUpdate tracked.world next rep [])
    (htarget : target = .guest ∨ target = .closed) (htaken : takenBy tracked.world.host label = [])
    (hgoes : (tracked.after label next).held target = tracked.held (.response rep) ++ tracked.held target)
    (hstays : ∀ other, other = .guest ∨ other = .closed → other ≠ target →
      (tracked.after label next).held other = tracked.held other) :
    Inv (tracked.after label next) := by
  refine inv_of_custody hinv hupdate.calls htaken ?_
  refine inCustody_goes hinv (.response rep) ?_ hupdate.held_self hgoes hstays
    fun other hother hguest hclosed => hupdate.held_other htaken hother hguest hclosed
  rcases htarget with rfl | rfl <;> exact nofun

theorem requestUpdate_consumeBody (hhost : next.host = (HostRequest.consumeBody world.host rep).2)
    (hcalls : next.calls = world.calls) : RequestUpdate world next rep [] := by
  refine ⟨?_, by rw [hhost]; rfl, by rw [hhost]; rfl, hcalls⟩
  rw [hhost]
  exact endsAt_modify_nil fun _ => rfl

theorem responseUpdate_consumeBody (hhost : next.host = (HostResponse.consumeBody world.host rep).2)
    (hcalls : next.calls = world.calls) : ResponseUpdate world next rep [] := by
  refine ⟨?_, by rw [hhost]; rfl, by rw [hhost]; rfl, hcalls⟩
  rw [hhost]
  exact endsAt_modify_nil fun _ => rfl

theorem inv_requestConsumeBody (hinv : Inv tracked)
    (hhost : next.host = (HostRequest.consumeBody tracked.world.host rep).2)
    (hcalls : next.calls = tracked.world.calls) :
    Inv (tracked.after (.requestConsumeBody rep) next) := by
  refine inv_takeRequest hinv (requestUpdate_consumeBody hhost hcalls) (Or.inl rfl) rfl ?_ ?_
  · rw [guest_after rfl, gained_request]
    rfl
  · rintro other (rfl | rfl) hother
    · exact absurd rfl hother
    · simp [Tracked.held, Tracked.after, dropped, hhost, HostRequest.consumeBody,
        HostRequest.takeStreams, replaced_of_eq]

theorem inv_responseConsumeBody (hinv : Inv tracked)
    (hhost : next.host = (HostResponse.consumeBody tracked.world.host rep).2)
    (hcalls : next.calls = tracked.world.calls) :
    Inv (tracked.after (.responseConsumeBody rep) next) := by
  refine inv_takeResponse hinv (responseUpdate_consumeBody hhost hcalls) (Or.inl rfl) rfl ?_ ?_
  · rw [guest_after rfl, gained_response]
    rfl
  · rintro other (rfl | rfl) hother
    · exact absurd rfl hother
    · simp [Tracked.held, Tracked.after, dropped, hhost, HostResponse.consumeBody, replaced_of_eq]

theorem inv_requestDrop (hinv : Inv tracked)
    (hhost : next.host = HostRequest.drop tracked.world.host rep)
    (hcalls : next.calls = tracked.world.calls) : Inv (tracked.after (.requestDrop rep) next) := by
  have hupdate : RequestUpdate tracked.world next rep [] := by
    refine ⟨?_, by rw [hhost]; rfl, by rw [hhost]; rfl, hcalls⟩
    rw [hhost]
    exact endsAt_remove
  refine inv_takeRequest hinv hupdate (Or.inr rfl) rfl ?_ ?_
  · simp [Tracked.held, Tracked.after, dropped, hhost, HostRequest.drop,
      replaced_of_eq (Table.remove_next _ _), replaced_of_eq]
  · rintro other (rfl | rfl) hother
    · exact guest_after rfl
    · exact absurd rfl hother

theorem inv_responseDrop (hinv : Inv tracked)
    (hhost : next.host = HostResponse.drop tracked.world.host rep)
    (hcalls : next.calls = tracked.world.calls) : Inv (tracked.after (.responseDrop rep) next) := by
  have hupdate : ResponseUpdate tracked.world next rep [] := by
    refine ⟨?_, by rw [hhost]; rfl, by rw [hhost]; rfl, hcalls⟩
    rw [hhost]
    exact endsAt_remove
  refine inv_takeResponse hinv hupdate (Or.inr rfl) rfl ?_ ?_
  · simp [Tracked.held, Tracked.after, dropped, hhost, HostResponse.drop,
      replaced_of_eq (Table.remove_next _ _), replaced_of_eq]
  · rintro other (rfl | rfl) hother
    · exact guest_after rfl
    · exact absurd rfl hother

/-! ## What a call has -/

/-- The receiver is with a call that goes on, and goes with one that fails. -/
theorem ends_of_call (hopen : ∀ rep, call.await ≠ .done (.ok rep)) :
    callEnds call ++ failedEnds call = receiverEnds call.inbound := by
  rw [callEnds, failedEnds]
  cases hawait : call.await with
  | body trailers => exact List.append_nil _
  | trailers => exact List.append_nil _
  | head => exact List.append_nil _
  | done result =>
      cases result with
      | error error => rfl
      | ok rep => exact absurd hawait (hopen rep)

/-- A section of a call that may fail, but does not return a response. -/
structure Section (host : WasiHttpHost) (call : Call) (result : Call × WasiHttpHost) : Prop where
  inbound : result.1.inbound = call.inbound
  pending : ∀ rep, result.1.await ≠ .done (.ok rep)
  waiting : WaitsWithReceiver result.1
  transport : transportEnds result.2 = transportEnds host

theorem transportEnds_sendOut (host : WasiHttpHost) (event : OutEvent) :
    transportEnds (sendOut host event) = transportEnds host := by
  rw [transportEnds, transportEnds, sendOut]
  cases host.transport <;> rfl

theorem section_endOut (host : WasiHttpHost) (call : Call) : Section host call (endOut host call) := by
  have htransport := transportEnds_sendOut host .outEnd
  rw [endOut]
  cases hinbound : call.inbound with
  | none => exact ⟨hinbound.symm ▸ hinbound, nofun, nofun, htransport⟩
  | some inbound => exact ⟨hinbound.symm, nofun, fun _ => Option.some_ne_none inbound, htransport⟩

theorem section_fail (host : WasiHttpHost) (call : Call) (error : ErrorCode) :
    Section host call (call.fail error, host) := ⟨rfl, nofun, nofun, rfl⟩

theorem section_enterTrailers (host : WasiHttpHost) (call : Call) (trailers : Option TrailersFuture)
    (fault : Option Text) : Section host call (enterTrailers host call trailers fault) := by
  cases trailers with
  | none => exact section_endOut host call
  | some future =>
      cases fault with
      | some message => exact section_fail host call _
      | none => exact ⟨rfl, nofun, nofun, rfl⟩

theorem section_enterBody (host : WasiHttpHost) (call : Call) (body : Option BodyReader)
    (trailers : Option TrailersFuture) (fault : Option Text) :
    Section host call (enterBody host call body trailers fault) := by
  cases body with
  | none => exact section_enterTrailers host call trailers fault
  | some reader =>
      cases fault with
      | some message => exact section_fail host call _
      | none => exact ⟨rfl, nofun, nofun, rfl⟩

theorem section_receiveTrailers (host : WasiHttpHost) (call : Call) (resolved : TrailersOutcome) :
    Section host call (receiveTrailers host call resolved) := by
  obtain ⟨hinbound, hpending, hwaiting, htransport⟩ := section_endOut (emitTrailers host resolved)
    { call with trailers := trailersEntries host resolved }
  refine ⟨hinbound, hpending, hwaiting, htransport.trans ?_⟩
  rw [emitTrailers]
  cases trailersPayload host resolved with
  | none => rfl
  | some value => exact transportEnds_sendOut host _

theorem transportEnds_receiveBatch (host : WasiHttpHost) (call : Call) (chunk : Bytes) :
    transportEnds (receiveBatch host call chunk).2 = transportEnds host := by
  rw [receiveBatch, emitBody]
  split
  · rfl
  · exact transportEnds_sendOut host _

/-- A call fails behind its trailers only where it has no receiver. -/
theorem failedEnds_endOut (host : WasiHttpHost) (call : Call) : failedEnds (endOut host call).1 = [] := by
  rw [endOut]
  cases hinbound : call.inbound with
  | none => simp [failedEnds, Call.fail, receiverEnds, hinbound]
  | some inbound => rfl

/-! ## The calls of a session -/

theorem endsOfCall_set_ne {taken : List (ReadEnd × Nat)} {calls : List Call} {other : Nat}
    (hother : other ≠ index) :
    endsOfCall taken (calls.set index changed) other = endsOfCall taken calls other := by
  rw [endsOfCall, endsOfCall, List.getElem?_set_ne hother.symm]

theorem endsOfCall_at {taken : List (ReadEnd × Nat)} {calls : List Call}
    (hcall : calls[index]? = some call) :
    endsOfCall taken calls index =
      (taken.filter fun entry => entry.2 == index).map Prod.fst ++ callEnds call := by
  rw [endsOfCall, hcall]
  rfl

theorem getElem?_set {calls : List Call} (hcall : calls[index]? = some call) :
    (calls.set index changed)[index]? = some changed := by
  obtain ⟨hlt, -⟩ := List.getElem?_eq_some_iff.mp hcall
  rw [List.getElem?_set_self hlt]

/-- A call that has no ends is over before it takes some. -/
theorem endsOfCall_append {taken : List (ReadEnd × Nat)} {calls : List Call}
    (hnone : callEnds changed = []) :
    endsOfCall taken (calls ++ [changed]) index = endsOfCall taken calls index := by
  rw [endsOfCall, endsOfCall]
  rcases Nat.lt_trichotomy index calls.length with hlt | heq | hgt
  · rw [List.getElem?_append_left hlt]
  · subst heq
    rw [List.getElem?_concat_length, List.getElem?_eq_none (Nat.le_refl _), Option.map_some, hnone]
    rfl
  · rw [List.getElem?_eq_none (Nat.le_of_lt hgt), List.getElem?_eq_none]
    rw [List.length_append, List.length_singleton]
    exact hgt

theorem waiting_set (hwaiting : ∀ call ∈ world.calls, WaitsWithReceiver call)
    (hchanged : WaitsWithReceiver changed) (hcalls : next.calls = world.calls.set index changed) :
    ∀ call ∈ next.calls, WaitsWithReceiver call := by
  intro other hother
  rw [hcalls] at hother
  rcases List.mem_or_eq_of_mem_set hother with hbefore | rfl
  · exact hwaiting other hbefore
  · exact hchanged

/-- A call makes progress, and what it drops is closed. -/
theorem inv_progress (hinv : Inv tracked) (hcall : tracked.world.calls[index]? = some call)
    (hbefore : callEnds call = receiverEnds call.inbound) {host : WasiHttpHost}
    (hsection : Section tracked.world.host call (changed, host))
    (hrequests : next.host.requests = tracked.world.host.requests)
    (hresponses : next.host.responses = tracked.world.host.responses)
    (htransport : transportEnds next.host = transportEnds host)
    (hcalls : next.calls = tracked.world.calls.set index changed) (hpassed : passed label = [])
    (hgained : gained tracked.world.host label = []) (htaken : takenBy tracked.world.host label = [])
    (hdropped : dropped tracked.world next label = failedEnds changed) :
    Inv (tracked.after label next) := by
  have hset : next.calls[index]? = some changed := hcalls ▸ getElem?_set hcall
  constructor
  case custody =>
    have hhandover : Handover tracked.held (tracked.after label next).held (.call index) .closed
        (failedEnds changed) := by
      refine ⟨nofun, ?_, ?_, ?_⟩
      · have hsplit := ends_of_call hsection.pending
        rw [hsection.inbound, ← hbefore] at hsplit
        simp only [Tracked.held, Tracked.after, htaken, List.map_nil, List.append_nil,
          endsOfCall_at hcall, endsOfCall_at hset, ← hsplit]
        refine (List.Perm.append_left _ List.perm_append_comm).trans ?_
        rw [← List.append_assoc, ← List.append_assoc]
        exact List.Perm.append_right _ List.perm_append_comm
      · simp only [Tracked.held, Tracked.after, hdropped]
        exact List.Perm.refl _
      · intro place hplace hclosed
        cases place with
        | guest => simp [Tracked.held, Tracked.after, hpassed, hgained]
        | request rep => simp only [Tracked.held, Tracked.after, hrequests]
        | response rep => simp only [Tracked.held, Tracked.after, hresponses]
        | transport => exact htransport.trans hsection.transport
        | call other =>
            simp only [Tracked.held, Tracked.after, htaken, List.map_nil, List.append_nil, hcalls]
            exact endsOfCall_set_ne fun hother => hplace (congrArg Place.call hother)
        | closed => exact absurd rfl hclosed
    exact hinv.custody.handover hhandover
  case waiting => exact waiting_set hinv.waiting hsection.waiting hcalls
  case taken =>
    intro entry hentry
    simp only [Tracked.after, htaken, List.map_nil, List.append_nil] at hentry
    rw [Tracked.after, hcalls, List.length_set]
    exact hinv.taken entry hentry

theorem dropped_bodyEnd (hrequests : next.host.requests = world.host.requests)
    (hresponses : next.host.responses = world.host.responses)
    (hcall : next.calls[index]? = some changed) (fault : Option Text) :
    dropped world next (.bodyEnd index fault) = failedEnds changed := by
  simp only [dropped, hrequests, hresponses, replaced_of_eq, hcall, List.nil_append]
  rfl

theorem dropped_responseHead (hrequests : next.host.requests = world.host.requests)
    (hcall : next.calls[index]? = some changed) (shown : Text) (bodyFault trailersFault : Option Text) :
    dropped world next (.responseHead index shown bodyFault trailersFault) =
      replaced responseEnds world.host.responses next.host.responses ++ failedEnds changed := by
  simp only [dropped, hrequests, replaced_of_eq, hcall, List.nil_append]
  rfl

theorem dropped_failedHead (hrequests : next.host.requests = world.host.requests)
    (hresponses : next.host.responses = world.host.responses)
    (hcall : next.calls[index]? = some changed) (shown : Text) (bodyFault trailersFault : Option Text) :
    dropped world next (.responseHead index shown bodyFault trailersFault) = failedEnds changed := by
  rw [dropped_responseHead hrequests hcall, hresponses, replaced_of_eq rfl, List.nil_append]

/-! ## Sections of a call -/

theorem section_receiveBatch {host : WasiHttpHost} {trailers : Option TrailersFuture}
    (hawait : call.await = .body trailers) (chunk : Bytes) :
    Section host call (receiveBatch host call chunk) := by
  have hafter : (receiveBatch host call chunk).1.await = .body trailers := hawait
  refine ⟨rfl, ?_, ?_, transportEnds_receiveBatch host call chunk⟩
  · intro rep hdone
    cases hafter.symm.trans hdone
  · intro hhead
    cases hafter.symm.trans hhead

theorem inv_bodyBatch (hinv : Inv tracked) {chunk : Bytes}
    (hstep : tracked.world.step (.bodyBatch index chunk) = some next) :
    Inv (tracked.after (.bodyBatch index chunk) next) := by
  obtain ⟨call, trailers, hcall, hawait, rfl⟩ := World.bodyBatch_step hstep
  have htables := sameTables_receiveBatch tracked.world.host call chunk
  have hafter : (receiveBatch tracked.world.host call chunk).1.await = .body trailers := hawait
  have hfailed : failedEnds (receiveBatch tracked.world.host call chunk).1 = [] := by
    rw [failedEnds, hafter]
  refine inv_progress hinv hcall (by rw [callEnds, hawait]) (section_receiveBatch hawait chunk)
    htables.requests htables.responses rfl rfl rfl rfl rfl ?_
  refine Eq.trans ?_ hfailed.symm
  simp only [dropped, World.progress, htables.requests, htables.responses, replaced_of_eq,
    List.nil_append]

theorem inv_bodyEnd (hinv : Inv tracked) {fault : Option Text}
    (hstep : tracked.world.step (.bodyEnd index fault) = some next) :
    Inv (tracked.after (.bodyEnd index fault) next) := by
  obtain ⟨call, trailers, hcall, hawait, rfl⟩ := World.bodyEnd_step hstep
  have htables := sameTables_enterTrailers tracked.world.host call trailers fault
  refine inv_progress hinv hcall (by rw [callEnds, hawait]) (section_enterTrailers _ _ _ _)
    htables.requests htables.responses rfl rfl rfl rfl rfl ?_
  exact dropped_bodyEnd htables.requests htables.responses (getElem?_set hcall) fault

theorem inv_trailersResolved (hinv : Inv tracked) {resolved : TrailersOutcome}
    (hstep : tracked.world.step (.trailersResolved index resolved) = some next) :
    Inv (tracked.after (.trailersResolved index resolved) next) := by
  obtain ⟨call, taken, hcall, hawait, htaken, rfl⟩ := World.trailersResolved_step hstep
  obtain ⟨inFlight, -, rfl⟩ := World.takeTrailers_eq htaken
  have htables := sameTables_receiveTrailers tracked.world.host call resolved
  have hfailed : failedEnds (receiveTrailers tracked.world.host call resolved).1 = [] :=
    failedEnds_endOut _ _
  refine inv_progress hinv hcall (by rw [callEnds, hawait]) (section_receiveTrailers _ _ _)
    htables.requests htables.responses rfl rfl rfl rfl rfl ?_
  refine Eq.trans ?_ hfailed.symm
  simp only [dropped, World.progress, htables.requests, htables.responses, replaced_of_eq,
    List.nil_append]

/-! ## The response of a call -/

theorem buildResponse_ends (host : WasiHttpHost) (head : ResponseHead)
    (bodyFault trailersFault : Option Text) :
    (∃ error, (buildResponse host head .receiver bodyFault trailersFault).1 = .error error ∧
        (buildResponse host head .receiver bodyFault trailersFault).2.responses = host.responses) ∨
      ∃ rep data, (buildResponse host head .receiver bodyFault trailersFault).1 = .ok rep ∧
        (buildResponse host head .receiver bodyFault trailersFault).2.responses =
          (host.responses.insert data).2 ∧ responseEnds data = [.inbound] := by
  unfold buildResponse
  cases head.trailers with
  | none =>
      cases bodyFault with
      | some message => exact Or.inl ⟨_, rfl, rfl⟩
      | none =>
          cases trailersFault with
          | some message => exact Or.inl ⟨_, rfl, rfl⟩
          | none => exact Or.inr ⟨_, _, rfl, rfl, rfl⟩
  | some entries =>
      cases bodyFault with
      | some message => exact Or.inl ⟨_, rfl, rfl⟩
      | none =>
          cases trailersFault with
          | some message => exact Or.inl ⟨_, rfl, rfl⟩
          | none => exact Or.inr ⟨_, _, rfl, rfl, rfl⟩

/-- A synthetic response takes no end of its request. -/
theorem handleSynthetic_ends (host : WasiHttpHost) (request : Rep)
    (bodyFault trailersFault : Option Text) :
    (handleSynthetic host request bodyFault trailersFault).2.requests = host.requests ∧
    (handleSynthetic host request bodyFault trailersFault).2.transport = host.transport ∧
    ((∃ error, (handleSynthetic host request bodyFault trailersFault).1 = .error error ∧
        (handleSynthetic host request bodyFault trailersFault).2.responses = host.responses) ∨
      ∃ rep data, (handleSynthetic host request bodyFault trailersFault).1 = .ok rep ∧
        (handleSynthetic host request bodyFault trailersFault).2.responses =
          (host.responses.insert data).2 ∧ responseEnds data = []) := by
  unfold handleSynthetic
  cases host.requests.get request with
  | none => exact ⟨rfl, rfl, Or.inl ⟨_, rfl, rfl⟩⟩
  | some req =>
      cases bodyFault with
      | some message => exact ⟨rfl, rfl, Or.inl ⟨_, rfl, rfl⟩⟩
      | none =>
          cases trailersFault with
          | some message => exact ⟨rfl, rfl, Or.inl ⟨_, rfl, rfl⟩⟩
          | none => exact ⟨rfl, rfl, Or.inr ⟨_, _, rfl, rfl, rfl⟩⟩

theorem receiverEnds_of_waiting (hinv : Inv tracked) (hcall : tracked.world.calls[index]? = some call)
    (hawait : call.await = .head) : callEnds call = [.inbound] := by
  have hreceiver := hinv.waiting call (List.mem_of_getElem? hcall) hawait
  rw [callEnds, hawait]
  obtain ⟨⟨⟩, hinbound⟩ := Option.ne_none_iff_exists'.mp hreceiver
  rw [hinbound]
  rfl

/-- The receiver goes from the call to the body of its response. -/
theorem inv_received (hinv : Inv tracked) (hcall : tracked.world.calls[index]? = some call)
    (hawait : call.await = .head) (rep : Rep) {data : ResponseData}
    (hrequests : next.host.requests = tracked.world.host.requests)
    (hresponses : next.host.responses = (tracked.world.host.responses.insert data).2)
    (hends : responseEnds data = [.inbound])
    (htransport : next.host.transport = tracked.world.host.transport)
    (hcalls : next.calls = tracked.world.calls.set index { call with await := .done (.ok rep) })
    {shown : Text} {bodyFault trailersFault : Option Text} :
    Inv (tracked.after (.responseHead index shown bodyFault trailersFault) next) := by
  have hset : next.calls[index]? = some { call with await := .done (.ok rep) } :=
    hcalls ▸ getElem?_set hcall
  have hat : endsAt responseEnds next.host.responses =
      Function.update (endsAt responseEnds tracked.world.host.responses)
        tracked.world.host.responses.next [.inbound] := by
    rw [hresponses, endsAt_insert, hends]
  constructor
  case custody =>
    refine inCustody_put (.call index) (.response tracked.world.host.responses.next) hinv.custody nofun
      nofun nofun ?_ ((congrFun hat _).trans (Function.update_self _ _ _)) ?_ ?_
    · have hover : callEnds { call with await := .done (.ok rep) } = [] := rfl
      simp only [Tracked.held, Tracked.after, takenBy, List.map_nil, List.append_nil,
        endsOfCall_at hcall, endsOfCall_at hset, receiverEnds_of_waiting hinv hcall hawait, hover]
      exact List.perm_append_comm
    · simp only [Tracked.held, Tracked.after, dropped_responseHead hrequests hset, hresponses,
        replaced_insert, failedEnds, List.append_nil]
    · intro place hcallPlace hresponse hclosed
      cases place with
      | guest => simp [Tracked.held, Tracked.after, passed, gained]
      | request other => simp only [Tracked.held, Tracked.after, hrequests]
      | response other =>
          refine (congrFun hat other).trans (Function.update_of_ne ?_ _ _)
          exact fun hother => hresponse (congrArg Place.response hother)
      | transport => simp only [Tracked.held, Tracked.after, transportEnds, htransport]
      | call other =>
          simp only [Tracked.held, Tracked.after, takenBy, List.map_nil, List.append_nil, hcalls]
          exact endsOfCall_set_ne fun hother => hcallPlace (congrArg Place.call hother)
      | closed => exact absurd rfl hclosed
  case waiting => exact waiting_set hinv.waiting (fun hhead => by cases hhead) hcalls
  case taken =>
    intro entry hentry
    simp only [Tracked.after, takenBy, List.map_nil, List.append_nil] at hentry
    rw [Tracked.after, hcalls, List.length_set]
    exact hinv.taken entry hentry

theorem inv_responseHead (hinv : Inv tracked) {shown : Text} {bodyFault trailersFault : Option Text}
    (hstep : tracked.world.step (.responseHead index shown bodyFault trailersFault) = some next) :
    Inv (tracked.after (.responseHead index shown bodyFault trailersFault) next) := by
  obtain ⟨call, hcall, hawait, hreceive⟩ := World.responseHead_step hstep
  have hopen : callEnds call = receiverEnds call.inbound := by rw [callEnds, hawait]
  rcases World.receiveHeadAt_cases hreceive with
    ⟨-, error, inbound, rfl⟩ | ⟨frame, rest, head, built, -, -, rfl, rfl⟩
  · refine inv_progress hinv hcall hopen (section_fail _ _ error) rfl rfl rfl rfl rfl rfl rfl ?_
    refine dropped_failedHead ?_ ?_ ?_ shown bodyFault trailersFault
    · rfl
    · rfl
    · exact getElem?_set hcall
  · have hbuilt := built_buildResponse tracked.world.host head .receiver bodyFault trailersFault
    rcases buildResponse_ends tracked.world.host head bodyFault trailersFault with
      ⟨error, hresult, hresponses⟩ | ⟨rep, data, hresult, hresponses, hends⟩
    · rw [hresult]
      refine inv_progress hinv hcall hopen (section_fail _ _ error) hbuilt.requests hresponses ?_ rfl rfl
        rfl rfl ?_
      · exact congrArg (fun transport => receiverEnds (Option.bind transport HttpTransport.inbound))
          hbuilt.transport
      · exact dropped_failedHead hbuilt.requests hresponses (getElem?_set hcall) shown bodyFault
          trailersFault
    · refine inv_received hinv hcall hawait rep ?_ ?_ hends ?_ ?_
      · rw [World.deliver_host]
        exact hbuilt.requests
      · rw [World.deliver_host]
        exact hresponses
      · rw [World.deliver_host]
        exact hbuilt.transport
      · rw [World.deliver_calls, hresult]
        rfl

/-! ## The start of a call -/

theorem waiting_append (hwaiting : ∀ call ∈ world.calls, WaitsWithReceiver call)
    (hchanged : WaitsWithReceiver changed) (hcalls : next.calls = world.calls ++ [changed]) :
    ∀ call ∈ next.calls, WaitsWithReceiver call := by
  intro other hother
  rw [hcalls] at hother
  rcases List.mem_append.mp hother with hbefore | hlast
  · exact hwaiting other hbefore
  · rw [List.mem_singleton.mp hlast]
    exact hchanged

theorem dropped_handle (hrequests : next.host.requests.next = world.host.requests.next)
    (hcalls : next.calls = world.calls ++ [changed]) (request : Rep) (fault trailersFault : Option Text) :
    dropped world next (.handle request fault trailersFault) =
      replaced responseEnds world.host.responses next.host.responses ++ failedEnds changed := by
  simp only [dropped, replaced_of_eq hrequests, hcalls, List.getElem?_concat_length, List.nil_append]
  rfl

/-- A call that is over at once with an error, without the receiver. -/
theorem inv_refused (hinv : Inv tracked) (error : ErrorCode)
    (hrequests : next.host.requests = tracked.world.host.requests)
    (hresponses : next.host.responses = tracked.world.host.responses)
    (htransport : next.host.transport = tracked.world.host.transport)
    (hcalls : next.calls = tracked.world.calls ++ [{ await := .done (.error error) }])
    {request : Rep} {fault trailersFault : Option Text}
    (htaken : takenBy tracked.world.host (.handle request fault trailersFault) = []) :
    Inv (tracked.after (.handle request fault trailersFault) next) := by
  refine inv_same hinv ?_ rfl rfl htaken ?_
  · constructor
    case requests => rw [hrequests]
    case responses => rw [hresponses]
    case requestIds => rw [hrequests]
    case responseIds => rw [hresponses]
    case transport => rw [transportEnds, htransport, transportEnds]
    case calls =>
      intro taken index
      rw [hcalls]
      exact endsOfCall_append rfl
    case count =>
      rw [hcalls, List.length_append]
      exact Nat.le_add_right _ _
    case waiting => exact fun hwaiting => waiting_append hwaiting (fun hhead => by cases hhead) hcalls
  · rw [dropped_handle (congrArg Table.next hrequests) hcalls,
      replaced_of_eq (congrArg Table.next hresponses)]
    rfl

/-- A synthetic response replaces at most what was at its id. -/
theorem inv_synthetic (hinv : Inv tracked) (rep : Rep) {data : ResponseData}
    (hrequests : next.host.requests = tracked.world.host.requests)
    (hresponses : next.host.responses = (tracked.world.host.responses.insert data).2)
    (hends : responseEnds data = []) (htransport : next.host.transport = tracked.world.host.transport)
    (hcalls : next.calls = tracked.world.calls ++ [{ await := .done (.ok rep) }])
    {request : Rep} {fault trailersFault : Option Text}
    (htaken : takenBy tracked.world.host (.handle request fault trailersFault) = []) :
    Inv (tracked.after (.handle request fault trailersFault) next) := by
  have hat : endsAt responseEnds next.host.responses =
      Function.update (endsAt responseEnds tracked.world.host.responses)
        tracked.world.host.responses.next [] := by
    rw [hresponses, endsAt_insert, hends]
  constructor
  case custody =>
    refine inCustody_take (.response tracked.world.host.responses.next) .closed hinv.custody
      nofun ((congrFun hat _).trans (Function.update_self _ _ _)) ?_ ?_
    · simp only [Tracked.held, Tracked.after, dropped_handle (congrArg Table.next hrequests) hcalls,
        hresponses, replaced_insert, failedEnds, List.append_nil]
    · intro place hplace hclosed
      cases place with
      | guest => exact guest_after rfl
      | request other => simp only [Tracked.held, Tracked.after, hrequests]
      | response other =>
          refine (congrFun hat other).trans (Function.update_of_ne ?_ _ _)
          exact fun hother => hplace (congrArg Place.response hother)
      | transport => simp only [Tracked.held, Tracked.after, transportEnds, htransport]
      | call other =>
          simp only [Tracked.held, Tracked.after, htaken, List.map_nil, List.append_nil, hcalls]
          exact endsOfCall_append rfl
      | closed => exact absurd rfl hclosed
  case waiting => exact waiting_append hinv.waiting (fun hhead => by cases hhead) hcalls
  case taken =>
    intro entry hentry
    simp only [Tracked.after, htaken, List.map_nil, List.append_nil] at hentry
    rw [Tracked.after, hcalls, List.length_append]
    exact Nat.lt_of_lt_of_le (hinv.taken entry hentry) (Nat.le_add_right _ _)

/-- A call takes the streams of its request and the receiver. -/
theorem startCall_ok {host : WasiHttpHost} {request : Rep} (fault : Option Text) {head : Bytes}
    {transport : HttpTransport} (hhead : requestHead host request = .ok head)
    (htransport : host.transport = some transport) :
    (startCall host request fault).1.inbound = transport.inbound ∧
      (∀ rep, (startCall host request fault).1.await ≠ .done (.ok rep)) ∧
      WaitsWithReceiver (startCall host request fault).1 ∧
      transportEnds (startCall host request fault).2 = [] ∧
      SameTables (HostRequest.takeStreams host request).2 (startCall host request fault).2 := by
  simp only [startCall, hhead, HostRequest.takeStreams, htransport]
  obtain ⟨hinbound, hpending, hwaiting, hends⟩ := section_enterBody _ _ _ _ _
  obtain ⟨hfields, hrequests, hresponses, hoptions⟩ := sameTables_enterBody _ _ _ _ _
  exact ⟨hinbound, hpending, hwaiting, hends, hfields, hrequests, hresponses, hoptions⟩

theorem takenBy_handle {host : WasiHttpHost} {request : Rep} (fault trailersFault : Option Text)
    {head : Bytes} {transport : HttpTransport} (hhead : requestHead host request = .ok head)
    (htransport : host.transport = some transport) :
    takenBy host (.handle request fault trailersFault) = endsAt requestEnds host.requests request := by
  simp only [takenBy, htransport, hhead, HostRequest.takeStreams, HostRequest.read, endsAt]
  cases host.requests.get request <;> rfl

/-- What a new call has: what it took, and its receiver. -/
theorem endsOfCall_new {taken : List (ReadEnd × Nat)} {calls : List Call} (ends : List ReadEnd)
    (changed : Call) (htaken : ∀ entry ∈ taken, entry.2 < calls.length) :
    endsOfCall taken calls calls.length = [] ∧
      endsOfCall (taken ++ ends.map fun own => (own, calls.length)) (calls ++ [changed]) calls.length =
        ends ++ callEnds changed := by
  have hnone : taken.filter (fun entry => entry.2 == calls.length) = [] := by
    rw [List.filter_eq_nil_iff]
    intro entry hentry
    have hlt := htaken entry hentry
    simp only [beq_iff_eq]
    omega
  constructor
  · rw [endsOfCall, hnone, List.getElem?_eq_none (Nat.le_refl _)]
    rfl
  · rw [endsOfCall, List.filter_append, hnone, List.getElem?_concat_length, List.nil_append]
    congr 1
    rw [List.filter_eq_self.mpr (by simp), List.map_map]
    exact List.map_id ends

theorem endsOfCall_old {taken : List (ReadEnd × Nat)} {calls : List Call} {ends : List ReadEnd}
    (hindex : index ≠ calls.length) :
    endsOfCall (taken ++ ends.map fun own => (own, calls.length)) (calls ++ [changed]) index =
      endsOfCall taken calls index := by
  have hnone : (ends.map fun own => (own, calls.length)).filter (fun entry => entry.2 == index) = [] := by
    rw [List.filter_eq_nil_iff]
    intro entry hentry
    obtain ⟨own, -, rfl⟩ := List.mem_map.mp hentry
    simp only [beq_iff_eq]
    exact fun heq => hindex heq.symm
  have hcalls : (calls ++ [changed])[index]? = calls[index]? := by
    rcases Nat.lt_or_ge index calls.length with hlt | hge
    · exact List.getElem?_append_left hlt
    · rw [List.getElem?_eq_none hge, List.getElem?_eq_none]
      rw [List.length_append, List.length_singleton]
      omega
  rw [endsOfCall, endsOfCall, List.filter_append, hnone, List.append_nil, hcalls]

theorem inv_startCall (hinv : Inv tracked) {request : Rep} {fault trailersFault : Option Text}
    {head : Bytes} {transport : HttpTransport} (hhead : requestHead tracked.world.host request = .ok head)
    (htransport : tracked.world.host.transport = some transport)
    (hhost : next.host = (startCall tracked.world.host request fault).2)
    (hcalls : next.calls = tracked.world.calls ++ [(startCall tracked.world.host request fault).1]) :
    Inv (tracked.after (.handle request fault trailersFault) next) := by
  obtain ⟨hinbound, hpending, hwaiting, hends, htables⟩ := startCall_ok fault hhead htransport
  have htaken := takenBy_handle fault trailersFault hhead htransport
  obtain ⟨hbefore, hnew⟩ := endsOfCall_new (endsAt requestEnds tracked.world.host.requests request)
    (startCall tracked.world.host request fault).1 hinv.taken
  have hsplit := ends_of_call hpending
  have hrequests : endsAt requestEnds next.host.requests =
      Function.update (endsAt requestEnds tracked.world.host.requests) request [] := by
    rw [hhost, htables.requests]
    exact endsAt_modify_nil fun _ => rfl
  have hresponses : next.host.responses = tracked.world.host.responses := by
    rw [hhost, htables.responses]
    rfl
  have hids : next.host.requests.next = tracked.world.host.requests.next := by
    rw [hhost, htables.requests]
    exact Table.modify_next _ _ _
  have hdropped := dropped_handle hids hcalls request fault trailersFault
  rw [replaced_of_eq (congrArg Table.next hresponses), List.nil_append] at hdropped
  constructor
  case custody =>
    -- the streams go to the call, then the receiver, unless the call has failed
    have hstreams := hinv.custody.handedOver (.request request)
      (.call tracked.world.calls.length) (by rintro ⟨⟩)
      (by rw [List.append_nil] :
        (tracked.held (.request request)).Perm (tracked.held (.request request) ++ []))
    have hreceiver := hstreams.handedOver .transport (.call tracked.world.calls.length)
      (by rintro ⟨⟩)
      (by
        simp only [handedOver, Function.update_apply, reduceCtorEq, if_false]
        rw [Tracked.held, transportEnds, htransport, Option.bind_some, ← hinbound, ← hsplit])
    have hclosed := hreceiver.handedOver .transport .closed (by rintro ⟨⟩)
      (by
        simp only [handedOver, Function.update_apply, reduceCtorEq, if_false, if_true]
        rw [List.append_nil])
    refine hclosed.of_perm fun place => ?_
    simp only [handedOver, Function.update_apply]
    cases place with
    | guest => simp [Tracked.held, Tracked.after, passed, gained]
    | request rep =>
        simp only [Tracked.held, Tracked.after, hrequests, Function.update_apply]
        by_cases hrep : rep = request <;> simp [hrep]
    | response rep => simp [Tracked.held, Tracked.after, hresponses]
    | transport => simp [Tracked.held, Tracked.after, hhost, hends]
    | call index =>
        by_cases hindex : index = tracked.world.calls.length
        · subst hindex
          simp only [Tracked.held, Tracked.after, htaken, hcalls, hnew, hbefore]
          simpa using List.perm_append_comm
        · simp only [Tracked.held, Tracked.after, htaken, hcalls, endsOfCall_old hindex]
          simp [hindex]
    | closed => simp [Tracked.held, Tracked.after, hdropped]
  case waiting => exact waiting_append hinv.waiting hwaiting hcalls
  case taken =>
    intro entry hentry
    rw [Tracked.after, hcalls, List.length_append, List.length_singleton]
    rcases List.mem_append.mp hentry with hold | htook
    · exact Nat.lt_succ_of_lt (hinv.taken entry hold)
    · obtain ⟨own, -, rfl⟩ := List.mem_map.mp htook
      exact Nat.lt_succ_self _

theorem inv_handle (hinv : Inv tracked) {request : Rep} {fault trailersFault : Option Text}
    (hstep : tracked.world.step (.handle request fault trailersFault) = some next) :
    Inv (tracked.after (.handle request fault trailersFault) next) := by
  simp only [World.step, World.whenOwned_eq_some] at hstep
  obtain ⟨-, rfl⟩ := hstep
  simp only [World.startHandle, World.loseRequest]
  cases htransport : tracked.world.host.transport with
  | none =>
      have htaken : takenBy tracked.world.host (.handle request fault trailersFault) = [] := by
        simp only [takenBy, htransport]
      obtain ⟨hrequests, hkept, hresult⟩ :=
        handleSynthetic_ends tracked.world.host request fault trailersFault
      rcases hresult with ⟨error, herror, hresponses⟩ | ⟨rep, data, hok, hresponses, hends⟩
      · refine inv_refused hinv error ?_ ?_ ?_ ?_ htaken
        · rw [World.deliver_host]
          exact hrequests
        · rw [World.deliver_host]
          exact hresponses
        · rw [World.deliver_host]
          exact hkept
        · rw [World.deliver_calls, herror]
      · refine inv_synthetic hinv rep ?_ ?_ hends ?_ ?_ htaken
        · rw [World.deliver_host]
          exact hrequests
        · rw [World.deliver_host]
          exact hresponses
        · rw [World.deliver_host]
          exact hkept
        · rw [World.deliver_calls, hok]
  | some transport =>
      cases hhead : requestHead tracked.world.host request with
      | ok head => exact inv_startCall hinv hhead htransport rfl rfl
      | error error =>
          refine inv_refused hinv error ?_ ?_ ?_ ?_ ?_
          · simp only [startCall, hhead]
          · simp only [startCall, hhead]
          · simp only [startCall, hhead]
          · simp only [startCall, hhead]
          · simp only [takenBy, htransport, hhead]

end HellohqRuntime.Http.ReadEndMoves

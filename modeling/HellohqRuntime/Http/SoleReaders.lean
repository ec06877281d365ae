import HellohqRuntime.Http.ReadEndMoves

/-!
# One reader for every stream

In every run of a session each body stream and trailers future, and the inbound
receiver, has one reader.  Nobody reads what somebody else has been given, and no end
is lost.
-/

namespace HellohqRuntime.Http.SoleReaders

open HellohqRuntime.Foundation.Custody
open HellohqRuntime.Foundation.Runs
open HellohqRuntime.Foundation.Strings
open HellohqRuntime.Http.Handle
open HellohqRuntime.Http.ReadEndMoves
open HellohqRuntime.Http.ReadEnds
open HellohqRuntime.Http.Resources
open HellohqRuntime.Http.System
open HellohqRuntime.Http.Tables
open HellohqRuntime.Http.Types

variable {next : World} {tracked later : Tracked} {label : Label} {call : Call} {index : Nat}

/-! ## Whole runs -/

/-- A function of the fields or of the options moves no end. -/
theorem inv_elsewhere (hinv : Inv tracked) (hrequests : next.host.requests = tracked.world.host.requests)
    (hresponses : next.host.responses = tracked.world.host.responses)
    (htransport : next.host.transport = tracked.world.host.transport)
    (hcalls : next.calls = tracked.world.calls) (hpassed : passed label = [])
    (hgained : gained tracked.world.host label = []) (htaken : takenBy tracked.world.host label = [])
    (hdropped : dropped tracked.world next label =
      replaced requestEnds tracked.world.host.requests next.host.requests ++
        replaced responseEnds tracked.world.host.responses next.host.responses ++ []) :
    Inv (tracked.after label next) := by
  refine inv_same hinv (sameEnds_of_eq hrequests hresponses htransport hcalls) hpassed hgained htaken ?_
  rw [hdropped, replaced_of_eq (congrArg Table.next hrequests),
    replaced_of_eq (congrArg Table.next hresponses)]
  rfl

theorem inv_requestChange (hinv : Inv tracked) {rep : Rep} {change : RequestChange}
    (hhost : next.host = change.apply tracked.world.host rep)
    (hcalls : next.calls = tracked.world.calls) :
    Inv (tracked.after (.requestChange rep change) next) := by
  have hends : ∀ data, requestEnds (change.write data) = requestEnds data := by
    intro data
    cases change <;> rfl
  have hwrite : next.host = tracked.world.host ∨ next.host = { tracked.world.host with
      requests := tracked.world.host.requests.modify rep fun data => change.write data } := by
    rw [hhost, change.apply_eq]
    exact HostRequest.write_cases _ rep fun data => change.write data
  rcases hwrite with hsame | hmodified
  · exact inv_elsewhere hinv (by rw [hsame]) (by rw [hsame]) (by rw [hsame]) hcalls rfl rfl rfl rfl
  · have hsame : SameEnds tracked.world next := by
      refine ⟨?_, ?_, ?_, ?_, ?_, by simp [hcalls], by rw [hcalls], fun hwaiting => hcalls ▸ hwaiting⟩
      · rw [hmodified]
        exact endsAt_modify_eq hends
      · rw [hmodified]
      · rw [hmodified]
        exact Table.modify_next _ _ _
      · rw [hmodified]
      · rw [hmodified]
        rfl
    refine inv_same hinv hsame rfl rfl rfl ?_
    simp only [dropped, replaced_of_eq hsame.requestIds, replaced_of_eq hsame.responseIds]
    rfl

theorem inv_responseSetStatusCode (hinv : Inv tracked) {rep : Rep} {statusCode : UInt16}
    (hhost : next.host = (HostResponse.setStatusCode tracked.world.host rep statusCode).2)
    (hcalls : next.calls = tracked.world.calls) :
    Inv (tracked.after (.responseSetStatusCode rep statusCode) next) := by
  rcases HostResponse.setStatusCode_cases tracked.world.host rep statusCode with hsame | hmodified
  · rw [hsame] at hhost
    exact inv_elsewhere hinv (by rw [hhost]) (by rw [hhost]) (by rw [hhost]) hcalls rfl rfl rfl rfl
  · rw [hmodified] at hhost
    have hsame : SameEnds tracked.world next := by
      refine ⟨?_, ?_, ?_, ?_, ?_, by simp [hcalls], by rw [hcalls], fun hwaiting => hcalls ▸ hwaiting⟩
      · rw [hhost]
      · rw [hhost]
        exact endsAt_modify_eq fun _ => rfl
      · rw [hhost]
      · rw [hhost]
        exact Table.modify_next _ _ _
      · rw [hhost]
        rfl
    refine inv_same hinv hsame rfl rfl rfl ?_
    simp only [dropped, replaced_of_eq hsame.requestIds, replaced_of_eq hsame.responseIds]
    rfl

theorem inv_act (hinv : Inv tracked) (hstep : tracked.world.step label = some next)
    (hown : ∀ given ∈ passed label, given ∈ tracked.guest) : Inv (tracked.after label next) := by
  cases label with
  | fieldsNew | optionsNew | pushEnd =>
      obtain rfl := Option.some.inj hstep
      exact inv_elsewhere hinv rfl rfl rfl rfl rfl rfl rfl rfl
  | fieldsFromList given | push given =>
      obtain rfl := Option.some.inj hstep
      exact inv_elsewhere hinv rfl rfl rfl rfl rfl rfl rfl rfl
  | fieldsRead rep | fieldsClone rep | fieldsDrop rep | requestRead rep | requestGetHeaders rep
  | responseRead rep | responseGetHeaders rep | optionsRead rep | optionsClone rep | optionsDrop rep
  | writeTrailers rep | readTrailers rep =>
      obtain ⟨-, rfl⟩ := World.whenOwned_eq_some.mp hstep
      exact inv_elsewhere hinv rfl rfl rfl rfl rfl rfl rfl rfl
  | fieldsChange rep change | optionsChange rep change =>
      obtain ⟨-, rfl⟩ := World.whenOwned_eq_some.mp hstep
      have honly := change.apply_only tracked.world.host rep
      refine inv_elsewhere hinv ?_ ?_ ?_ rfl rfl rfl rfl rfl
      · exact (congrArg WasiHttpHost.requests honly :)
      · exact (congrArg WasiHttpHost.responses honly :)
      · exact (congrArg WasiHttpHost.transport honly :)
  | requestGetOptions rep =>
      obtain ⟨-, rfl⟩ := World.whenOwned_eq_some.mp hstep
      simp only [HostRequest.getOptions]
      cases (tracked.world.host.requests.get rep).bind RequestData.options with
      | none => exact inv_elsewhere hinv rfl rfl rfl rfl rfl rfl rfl rfl
      | some optRep => exact inv_elsewhere hinv rfl rfl rfl rfl rfl rfl rfl rfl
  | requestNew headers contents trailers options =>
      obtain ⟨-, rfl⟩ := World.whenOwned_eq_some.mp hstep
      exact inv_requestNew hinv rfl rfl hown
  | requestChange rep change =>
      obtain ⟨-, rfl⟩ := World.whenOwned_eq_some.mp hstep
      exact inv_requestChange hinv rfl rfl
  | requestConsumeBody rep =>
      obtain ⟨-, rfl⟩ := World.whenOwned_eq_some.mp hstep
      exact inv_requestConsumeBody hinv rfl rfl
  | requestDrop rep =>
      obtain ⟨-, rfl⟩ := World.whenOwned_eq_some.mp hstep
      exact inv_requestDrop hinv rfl rfl
  | responseNew headers contents trailers =>
      obtain ⟨-, rfl⟩ := World.whenOwned_eq_some.mp hstep
      exact inv_responseNew hinv rfl rfl hown
  | responseSetStatusCode rep statusCode =>
      obtain ⟨-, rfl⟩ := World.whenOwned_eq_some.mp hstep
      exact inv_responseSetStatusCode hinv rfl rfl
  | responseConsumeBody rep =>
      obtain ⟨-, rfl⟩ := World.whenOwned_eq_some.mp hstep
      exact inv_responseConsumeBody hinv rfl rfl
  | responseDrop rep =>
      obtain ⟨-, rfl⟩ := World.whenOwned_eq_some.mp hstep
      exact inv_responseDrop hinv rfl rfl
  | handle request fault trailersFault => exact inv_handle hinv hstep
  | bodyBatch index chunk => exact inv_bodyBatch hinv hstep
  | bodyEnd index fault => exact inv_bodyEnd hinv hstep
  | trailersResolved index resolved => exact inv_trailersResolved hinv hstep
  | responseHead index shown bodyFault trailersFault => exact inv_responseHead hinv hstep

/-- The guest makes an end, or drops one. -/
theorem inv_own (hinv : Inv tracked) (hworld : later.world = tracked.world)
    (htaken : later.taken = tracked.taken) (hcustody : InCustody later.held later.made) : Inv later where
  custody := hcustody
  waiting := hworld ▸ hinv.waiting
  taken := by
    rw [hworld, htaken]
    exact hinv.taken

theorem inv_make (hinv : Inv tracked) {own : ReadEnd} (hnew : own ∉ tracked.made) :
    Inv { tracked with guest := own :: tracked.guest, made := tracked.made ++ [own] } := by
  refine inv_own hinv rfl rfl ?_
  have harrival : Arrival tracked.held
      (Tracked.held { tracked with guest := own :: tracked.guest, made := tracked.made ++ [own] })
      .guest own := by
    refine ⟨List.Perm.refl _, fun place hplace => ?_⟩
    cases place with
    | guest => exact absurd rfl hplace
    | request _ | response _ | transport | call _ | closed => rfl
  exact hinv.custody.arrival hnew harrival

theorem inv_discard (hinv : Inv tracked) {own : ReadEnd} (hown : own ∈ tracked.guest) :
    Inv { tracked with guest := tracked.guest.erase own, closed := own :: tracked.closed } := by
  refine inv_own hinv rfl rfl ?_
  have hhandover : Handover tracked.held
      (Tracked.held { tracked with guest := tracked.guest.erase own, closed := own :: tracked.closed })
      .guest .closed [own] := by
    refine ⟨nofun, List.perm_cons_erase hown, List.Perm.refl _, fun place hguest hclosed => ?_⟩
    cases place with
    | guest => exact absurd rfl hguest
    | closed => exact absurd rfl hclosed
    | request _ | response _ | transport | call _ => rfl
  exact hinv.custody.handover hhandover

theorem inv_step {action : Action} (hinv : Inv tracked) (hstep : tracked.step action = some later) :
    Inv later := by
  cases action with
  | make own =>
      simp only [Tracked.step] at hstep
      split at hstep
      case isTrue => cases hstep
      case isFalse hnew =>
        obtain rfl := Option.some.inj hstep
        exact inv_make hinv fun hmade => hnew (Or.inl hmade)
  | discard own =>
      simp only [Tracked.step] at hstep
      split at hstep
      case isFalse => cases hstep
      case isTrue hown =>
        obtain rfl := Option.some.inj hstep
        exact inv_discard hinv hown
  | act label =>
      simp only [Tracked.step] at hstep
      split at hstep
      case h_1 => cases hstep
      case h_2 next hnext =>
        split at hstep
        case isFalse => cases hstep
        case isTrue hown =>
          obtain rfl := Option.some.inj hstep
          exact inv_act hinv hnext hown

/-- At first there is the receiver alone, with the transport. -/
theorem inv_start (transport : Option HttpTransport) : Inv (.start transport) where
  custody := by
    have hheld : (Tracked.start transport).held =
        fun place => if place = .transport then (Tracked.start transport).made else [] := by
      funext place
      cases place <;> rfl
    rw [hheld]
    have hnodup : (Tracked.start transport).made.Nodup := by
      simp only [Tracked.start, transportEnds, receiverEnds]
      cases transport.bind HttpTransport.inbound <;> simp
    refine ⟨fun place => ?_, fun hleft hright => ?_, fun own hown => ⟨.transport, hown⟩, fun hown => ?_⟩
    · split
      · exact hnodup
      · exact List.nodup_nil
    · split at hleft
      case isFalse => cases hleft
      case isTrue hleftPlace =>
        split at hright
        case isFalse => cases hright
        case isTrue hrightPlace => exact hleftPlace.trans hrightPlace.symm
    · split at hown
      case isFalse => cases hown
      case isTrue => exact hown
  waiting := nofun
  taken := nofun

theorem inv_run {transport : Option HttpTransport} {actions : List Action}
    (hrun : run Tracked.step (.start transport) actions = some tracked) : Inv tracked :=
  run_preserves (fun _ _ _ hinv hstep => inv_step hinv hstep) (inv_start transport) hrun

/-! ## Who reads what -/

theorem after_of_step (hstep : tracked.step (.act label) = some later) :
    ∃ next, tracked.world.step label = some next ∧ later = tracked.after label next := by
  simp only [Tracked.step] at hstep
  split at hstep
  case h_1 => cases hstep
  case h_2 next hnext =>
    split at hstep
    case isFalse => cases hstep
    case isTrue => exact ⟨next, hnext, (Option.some.inj hstep).symm⟩

/-- A call starts with what was in its request and with the receiver, if it takes anything. -/
theorem taken_of_handle (hinv : Inv tracked) {request : Rep} {fault trailersFault : Option Text}
    (hstep : tracked.world.step (.handle request fault trailersFault) = some next) :
    ∀ own ∈ (tracked.after (.handle request fault trailersFault) next).held
        (.call tracked.world.calls.length),
      own ∈ tracked.held (.request request) ∨ own ∈ tracked.held .transport := by
  simp only [World.step, World.whenOwned_eq_some] at hstep
  obtain ⟨-, rfl⟩ := hstep
  intro own hown
  simp only [Tracked.held, Tracked.after, World.startHandle, World.loseRequest] at hown
  cases htransport : tracked.world.host.transport with
  | none =>
      have htaken : takenBy tracked.world.host (.handle request fault trailersFault) = [] := by
        simp only [takenBy, htransport]
      simp only [htransport, htaken, World.deliver_calls] at hown
      rw [(endsOfCall_new [] _ hinv.taken).2] at hown
      cases hown
  | some transport =>
      simp only [htransport] at hown
      cases hhead : requestHead tracked.world.host request with
      | ok head =>
          obtain ⟨hinbound, hpending, -⟩ := startCall_ok fault hhead htransport
          rw [takenBy_handle fault trailersFault hhead htransport,
            (endsOfCall_new _ _ hinv.taken).2] at hown
          rcases List.mem_append.mp hown with hrequest | hreceiver
          · exact Or.inl hrequest
          · have hall := List.mem_append_left
              (failedEnds (startCall tracked.world.host request fault).1) hreceiver
            rw [ends_of_call hpending, hinbound] at hall
            refine Or.inr ?_
            rw [Tracked.held, transportEnds, htransport]
            exact hall
      | error error =>
          have htaken : takenBy tracked.world.host (.handle request fault trailersFault) = [] := by
            simp only [takenBy, htransport, hhead]
          rw [htaken, (endsOfCall_new [] _ hinv.taken).2] at hown
          simp only [startCall, hhead] at hown
          cases hown

/-- The call that waits for the caller's head has the receiver. -/
theorem inbound_of_waiting (hinv : Inv tracked) (hcall : tracked.world.calls[index]? = some call)
    (hawait : call.await = .head) : .inbound ∈ tracked.held (.call index) := by
  rw [Tracked.held, endsOfCall_at hcall, receiverEnds_of_waiting hinv hcall hawait]
  exact List.mem_append_right _ (List.mem_singleton_self _)

/-- Where the ends of a session are, and where its functions move them. -/
structure OneReader (tracked : Tracked) : Prop where
  /-- Every end is with the guest, in a request or response, with the transport or a call,
  or closed: at one place only, and once. -/
  custody : InCustody tracked.held tracked.made
  /-- One call at most waits for the caller's response. -/
  waiting : ∀ {left right : Nat} {leftCall rightCall : Call},
    tracked.world.calls[left]? = some leftCall → tracked.world.calls[right]? = some rightCall →
    leftCall.await = .head → rightCall.await = .head → left = right
  /-- `consume-body` hands over what was in the request or response, and nothing stays there. -/
  requestConsumeBody : ∀ {rep later}, tracked.step (.act (.requestConsumeBody rep)) = some later →
    later.guest = tracked.held (.request rep) ++ tracked.guest ∧ later.held (.request rep) = []
  responseConsumeBody : ∀ {rep later}, tracked.step (.act (.responseConsumeBody rep)) = some later →
    later.guest = tracked.held (.response rep) ++ tracked.guest ∧ later.held (.response rep) = []
  /-- A call has ends of its own request, and of no other. -/
  handle : ∀ {request fault trailersFault later},
    tracked.step (.act (.handle request fault trailersFault)) = some later →
    ∀ own ∈ later.held (.call tracked.world.calls.length),
      own ∈ tracked.held (.request request) ∨ own ∈ tracked.held .transport

/-- In every run of a session each stream and trailers future has one reader at most, and
none is lost: whoever had it last passed it on or closed it. -/
theorem oneReader_of_run {transport : Option HttpTransport} {actions : List Action}
    (hrun : run Tracked.step (.start transport) actions = some tracked) : OneReader tracked := by
  have hinv : Inv tracked := inv_run hrun
  constructor
  case custody => exact hinv.custody
  case waiting =>
    intro left right leftCall rightCall hleft hright hleftHead hrightHead
    have hsame := hinv.custody.sole (inbound_of_waiting hinv hleft hleftHead)
      (inbound_of_waiting hinv hright hrightHead)
    exact Place.call.inj hsame
  case requestConsumeBody =>
    intro rep later hstep
    obtain ⟨next, hnext, rfl⟩ := after_of_step hstep
    obtain ⟨-, rfl⟩ := World.whenOwned_eq_some.mp hnext
    constructor
    · refine (guest_after rfl).trans ?_
      rw [gained_request]
      rfl
    · have hupdate : RequestUpdate tracked.world ((tracked.world.loseRequest rep).withHost
          (HostRequest.consumeBody tracked.world.host rep).2) rep [] :=
        requestUpdate_consumeBody rfl rfl
      exact hupdate.held_self
  case responseConsumeBody =>
    intro rep later hstep
    obtain ⟨next, hnext, rfl⟩ := after_of_step hstep
    obtain ⟨-, rfl⟩ := World.whenOwned_eq_some.mp hnext
    constructor
    · refine (guest_after rfl).trans ?_
      rw [gained_response]
      rfl
    · have hupdate : ResponseUpdate tracked.world ((tracked.world.loseResponse rep).withHost
          (HostResponse.consumeBody tracked.world.host rep).2) rep [] :=
        responseUpdate_consumeBody rfl rfl
      exact hupdate.held_self
  case handle =>
    intro request fault trailersFault later hstep
    obtain ⟨next, hnext, rfl⟩ := after_of_step hstep
    exact taken_of_handle hinv hnext

/-- Two calls on one session: the second finds the receiver gone.  The guest consumes the
response of the first and drops what it got. -/
def twoCalls : List Action :=
  [.make (.body 0), .make (.trailers 0), .make (.trailers 1), .act .fieldsNew, .act .fieldsNew,
    .act (.requestNew 1 (some (.guest 0)) (.guest 0) none), .act (.requestNew 2 none (.guest 1) none),
    .act (.handle 1 none none), .act (.bodyEnd 0 none), .act (.trailersResolved 0 none),
    .act (.handle 2 none none), .act (.trailersResolved 1 none), .act (.push [0x32, 0x30, 0x30]),
    .act (.responseHead 0 [] none none), .act (.responseConsumeBody 1), .discard .inbound]

theorem oneReader_of_run_example :
    ∃ tracked, run Tracked.step (.start (some {})) twoCalls = some tracked ∧
      (tracked.guest = [] ∧ tracked.closed = [.inbound] ∧
        tracked.taken = [(.body 0, 0), (.trailers 0, 0), (.trailers 1, 1)]) ∧
      OneReader tracked := by
  have hends : (run Tracked.step (.start (some {})) twoCalls).map (fun tracked =>
      (tracked.guest, tracked.closed, tracked.taken)) =
        some ([], [.inbound], [(.body 0, 0), (.trailers 0, 0), (.trailers 1, 1)]) := by
    decide
  obtain ⟨tracked, hrun, hfinal⟩ := Option.map_eq_some_iff.mp hends
  obtain ⟨hguest, hrest⟩ := Prod.mk.inj hfinal
  exact ⟨tracked, hrun, ⟨hguest, Prod.mk.inj hrest⟩, oneReader_of_run hrun⟩

end HellohqRuntime.Http.SoleReaders

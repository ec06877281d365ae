import HellohqRuntime.Http.System

/-!
# What a session sends

Only the sections of a call touch the transport.  Each appends the frames of its
own phase, and at the end of the outbound stream the end event; nothing that was
sent is taken back.  A session in which one call sends is followed here frame by
frame.
-/

namespace HellohqRuntime.Http.OutLog

open HellohqRuntime.Foundation.Strings
open HellohqRuntime.Foundation.Utf8
open HellohqRuntime.Http.Frames
open HellohqRuntime.Http.Handle
open HellohqRuntime.Http.Resources
open HellohqRuntime.Http.System
open HellohqRuntime.Http.Trailers
open HellohqRuntime.Http.Types

/-- The OUT events a host has sent. -/
def sentBy (host : WasiHttpHost) : List OutEvent := (host.transport.map HttpTransport.out).getD []

/-- The OUT events of the session so far. -/
def sent (world : World) : List OutEvent := sentBy world.host

theorem sentBy_eq {host : WasiHttpHost} {transport : HttpTransport}
    (htransport : host.transport = some transport) : sentBy host = transport.out := by
  rw [sentBy, htransport]
  rfl

theorem sent_eq {world : World} {transport : HttpTransport}
    (htransport : world.host.transport = some transport) : sent world = transport.out :=
  sentBy_eq htransport

/-! ## Sections and the transport -/

/-- Where a call stands after it ended the outbound stream. -/
def ended (call : Call) : Call :=
  match call.inbound with
  | none => call.fail inboundConsumed
  | some _ => { call with await := .head }

def sendEvent (transport : HttpTransport) (event : OutEvent) : HttpTransport :=
  { transport with out := transport.out ++ [event] }

/-- What is left of a section after its own frames: the call waits, a pipe
failed, or the outbound stream ends. -/
inductive Section (transport : HttpTransport) (call : Call) : Call → HttpTransport → Prop where
  | body (trailers : Option TrailersFuture) :
      Section transport call { call with await := .body trailers } transport
  | trailers : Section transport call { call with await := .trailers } transport
  | fails (error : ErrorCode) : Section transport call (call.fail error) transport
  | ends : Section transport call (ended call) (sendEvent transport .outEnd)

variable {host : WasiHttpHost} {transport : HttpTransport}

theorem sendOut_transport (htransport : host.transport = some transport) (event : OutEvent) :
    (sendOut host event).transport = some (sendEvent transport event) := by
  rw [sendOut, htransport]
  rfl

theorem endOut_eq (htransport : host.transport = some transport) (call : Call) :
    (endOut host call).1 = ended call ∧
      (endOut host call).2.transport = some (sendEvent transport .outEnd) := by
  have hsent := sendOut_transport htransport .outEnd
  unfold endOut ended
  cases call.inbound with
  | none => exact ⟨rfl, hsent⟩
  | some inbound => exact ⟨rfl, hsent⟩

theorem section_endOut (htransport : host.transport = some transport) (call : Call) :
    ∃ after, (endOut host call).2.transport = some after ∧
      Section transport call (endOut host call).1 after := by
  obtain ⟨hcall, hafter⟩ := endOut_eq htransport call
  exact ⟨_, hafter, hcall ▸ .ends⟩

theorem section_enterTrailers (htransport : host.transport = some transport) (call : Call)
    (trailers : Option TrailersFuture) (fault : Option Text) :
    ∃ after, (enterTrailers host call trailers fault).2.transport = some after ∧
      Section transport call (enterTrailers host call trailers fault).1 after := by
  cases trailers with
  | none => exact section_endOut htransport call
  | some future =>
      cases fault with
      | none => exact ⟨transport, htransport, .trailers⟩
      | some message => exact ⟨transport, htransport, .fails _⟩

theorem section_enterBody (htransport : host.transport = some transport) (call : Call)
    (body : Option BodyReader) (trailers : Option TrailersFuture) (fault : Option Text) :
    ∃ after, (enterBody host call body trailers fault).2.transport = some after ∧
      Section transport call (enterBody host call body trailers fault).1 after := by
  cases body with
  | none => exact section_enterTrailers htransport call trailers fault
  | some reader =>
      cases fault with
      | none => exact ⟨transport, htransport, .body trailers⟩
      | some message => exact ⟨transport, htransport, .fails _⟩

/-- The transport once a call sent its head and took the receiver. -/
def sendHead (transport : HttpTransport) (head : Bytes) : HttpTransport where
  out := transport.out ++ [.out (encode .head head)]
  inbound := none

/-- A call that starts fails before it sent anything, or sends its head. -/
theorem startCall_section (htransport : host.transport = some transport) (request : Rep)
    (fault : Option Text) :
    (∃ error, requestHead host request = .error error ∧
      startCall host request fault = ({ await := .done (.error error) }, host)) ∨
    ∃ head await after, requestHead host request = .ok head ∧
      (startCall host request fault).2.transport = some after ∧
      Section (sendHead transport head)
        { head := some head, inbound := transport.inbound, await }
        (startCall host request fault).1 after := by
  unfold startCall
  cases hhead : requestHead host request with
  | error error => exact Or.inl ⟨error, rfl, rfl⟩
  | ok head =>
      refine Or.inr ⟨head, .body (HostRequest.read host request none RequestData.trailers), ?_⟩
      simp only [HostRequest.takeStreams, htransport]
      have htaken : ({ host with
          requests := host.requests.modify request fun data =>
            { data with body := none, trailers := none }
          transport := some (sendHead transport head) } : WasiHttpHost).transport =
            some (sendHead transport head) := rfl
      obtain ⟨after, hafter, hsection⟩ := section_enterBody htaken
        { head := some head
          inbound := transport.inbound
          await := .body (HostRequest.read host request none RequestData.trailers) }
        (HostRequest.read host request none RequestData.body)
        (HostRequest.read host request none RequestData.trailers) fault
      exact ⟨after, trivial, hafter, hsection⟩

/-! ## Steps of a session over the transport -/

def isHandle : Label → Bool
  | .handle _ _ _ => true
  | _ => false

/-- The label is a call of `handle` or an event of one. -/
def isCallEvent : Label → Bool
  | .handle _ _ _ | .bodyBatch _ _ | .bodyEnd _ _ | .trailersResolved _ _
  | .responseHead _ _ _ _ => true
  | _ => false

/-- What a step does to the calls and the transport of a session. -/
inductive SessionStep (world : World) (transport : HttpTransport) :
    Label → List Call → HttpTransport → Prop where
  | quiet {label : Label} (hlabel : isCallEvent label = false) :
      SessionStep world transport label world.calls transport
  | refused {request : Rep} {fault trailersFault : Option Text} (error : ErrorCode)
      (hhead : requestHead world.host request = .error error) :
      SessionStep world transport (.handle request fault trailersFault)
        (world.calls ++ [{ await := .done (.error error) }]) transport
  | started {request : Rep} {fault trailersFault : Option Text} (head : Bytes) (await : Await)
      {call : Call} {after : HttpTransport}
      (hhead : requestHead world.host request = .ok head)
      (hsection : Section (sendHead transport head)
        { head := some head, inbound := transport.inbound, await } call after) :
      SessionStep world transport (.handle request fault trailersFault)
        (world.calls ++ [call]) after
  | batch {index : Nat} {chunk : Bytes} {call : Call} (trailers : Option TrailersFuture)
      (hcall : world.calls[index]? = some call) (hawait : call.await = .body trailers) :
      SessionStep world transport (.bodyBatch index chunk)
        (world.calls.set index { call with batches := call.batches ++ [chunk] })
        (if chunk.isEmpty then transport
          else sendEvent transport (.out (encode .body chunk)))
  | drained {index : Nat} {fault : Option Text} {call changed : Call} {after : HttpTransport}
      (trailers : Option TrailersFuture) (hcall : world.calls[index]? = some call)
      (hawait : call.await = .body trailers) (hsection : Section transport call changed after) :
      SessionStep world transport (.bodyEnd index fault) (world.calls.set index changed) after
  | resolved {index : Nat} {resolved : TrailersOutcome} {call : Call}
      (hcall : world.calls[index]? = some call) (hawait : call.await = .trailers) :
      SessionStep world transport (.trailersResolved index resolved)
        (world.calls.set index
          (ended { call with trailers := trailersEntries world.host resolved }))
        { transport with
          out := transport.out ++
            ((trailersPayload world.host resolved).map fun value =>
              OutEvent.out (encode .trailers (asBytes value))).toList ++ [.outEnd] }
  | answered {index : Nat} {shown : Text} {bodyFault trailersFault : Option Text} {call : Call}
      (result : Except ErrorCode Rep) (hcall : world.calls[index]? = some call)
      (hawait : call.await = .head) :
      SessionStep world transport (.responseHead index shown bodyFault trailersFault)
        (world.calls.set index { call with await := .done result }) transport

variable {world next : World} {label : Label}

theorem receiveTrailers_eq (htransport : host.transport = some transport) (call : Call)
    (resolved : TrailersOutcome) :
    (receiveTrailers host call resolved).1 =
        ended { call with trailers := trailersEntries host resolved } ∧
      (receiveTrailers host call resolved).2.transport = some { transport with
        out := transport.out ++ ((trailersPayload host resolved).map fun value =>
          OutEvent.out (encode .trailers (asBytes value))).toList ++ [.outEnd] } := by
  rw [receiveTrailers, emitTrailers]
  cases trailersPayload host resolved with
  | none =>
      obtain ⟨hcall, hafter⟩ := endOut_eq htransport
        { call with trailers := trailersEntries host resolved }
      exact ⟨hcall, by simpa [sendEvent] using hafter⟩
  | some value =>
      obtain ⟨hcall, hafter⟩ := endOut_eq
        (sendOut_transport htransport (.out (encode .trailers (asBytes value))))
        { call with trailers := trailersEntries host resolved }
      exact ⟨hcall, by simpa [sendEvent] using hafter⟩

theorem emitBody_transport (htransport : host.transport = some transport) (chunk : Bytes) :
    (emitBody host chunk).transport =
      some (if chunk.isEmpty then transport else sendEvent transport (.out (encode .body chunk))) := by
  unfold emitBody
  split
  · exact htransport
  · exact sendOut_transport htransport _

/-- A step that leaves the transport and the calls alone. -/
theorem session_quiet (htransport : world.host.transport = some transport)
    (hlabel : isCallEvent label = false)
    (hafter : next.host.transport = world.host.transport) (hcalls : next.calls = world.calls) :
    ∃ after, next.host.transport = some after ∧
      SessionStep world transport label next.calls after :=
  ⟨transport, hafter.trans htransport, hcalls ▸ .quiet hlabel⟩

theorem session_handle (htransport : world.host.transport = some transport) (request : Rep)
    (fault trailersFault : Option Text) :
    ∃ after, (world.startHandle request fault trailersFault).host.transport = some after ∧
      SessionStep world transport (.handle request fault trailersFault)
        (world.startHandle request fault trailersFault).calls after := by
  rcases world.startHandle_cases request fault trailersFault with
    ⟨other, -, hnext⟩ | ⟨hnone, -⟩ | ⟨hnone, -⟩
  · rw [hnext]
    rcases startCall_section htransport request fault with
      ⟨error, herror, hstart⟩ | ⟨head, await, after, hhead, hafter, hsection⟩
    · rw [hstart]
      exact ⟨transport, htransport, .refused error herror⟩
    · exact ⟨after, hafter, .started head await hhead hsection⟩
  · rw [htransport] at hnone
    cases hnone
  · rw [htransport] at hnone
    cases hnone

/-- Every step of a session over a transport is one of its session steps. -/
theorem session_step (htransport : world.host.transport = some transport)
    (hstep : world.step label = some next) :
    ∃ after, next.host.transport = some after ∧
      SessionStep world transport label next.calls after := by
  cases label
  case fieldsNew | fieldsFromList | optionsNew | push | pushEnd =>
      all_goals
        obtain rfl := Option.some.inj hstep
        exact session_quiet htransport rfl rfl rfl
  case bodyBatch index chunk =>
      obtain ⟨call, trailers, hcall, hawait, rfl⟩ := World.bodyBatch_step hstep
      exact ⟨_, emitBody_transport htransport chunk, .batch trailers hcall hawait⟩
  case bodyEnd index fault =>
      obtain ⟨call, trailers, hcall, hawait, rfl⟩ := World.bodyEnd_step hstep
      obtain ⟨after, hafter, hsection⟩ := section_enterTrailers htransport call trailers fault
      exact ⟨after, hafter, .drained trailers hcall hawait hsection⟩
  case trailersResolved index resolved =>
      obtain ⟨call, taken, hcall, hawait, htaken, rfl⟩ := World.trailersResolved_step hstep
      obtain ⟨inFlight, -, rfl⟩ := World.takeTrailers_eq htaken
      obtain ⟨hchanged, hafter⟩ := receiveTrailers_eq htransport call resolved
      refine ⟨_, hafter, ?_⟩
      simp only [World.progress, hchanged]
      exact .resolved hcall hawait
  case responseHead index shown bodyFault trailersFault =>
      obtain ⟨call, hcall, hawait, hreceive⟩ := World.responseHead_step hstep
      rcases World.receiveHeadAt_cases hreceive with
        ⟨-, error, inbound, rfl⟩ | ⟨frame, rest, head, built, -, -, rfl, rfl⟩
      · exact ⟨transport, htransport, .answered _ hcall hawait⟩
      · refine ⟨transport, ?_, ?_⟩
        · rw [World.deliver_host]
          exact (built_buildResponse world.host head .receiver bodyFault
            trailersFault).transport.trans htransport
        · rw [World.deliver_calls]
          exact .answered _ hcall hawait
  case handle request fault trailersFault =>
      simp only [World.step, World.whenOwned_eq_some] at hstep
      obtain ⟨-, rfl⟩ := hstep
      exact session_handle htransport request fault trailersFault
  all_goals
    simp only [World.step, World.whenOwned_eq_some] at hstep
    obtain ⟨-, rfl⟩ := hstep
  case fieldsChange rep change =>
      refine session_quiet htransport rfl ?_ rfl
      rw [World.withHost, change.apply_only]
  case requestChange rep change =>
      refine session_quiet htransport rfl ?_ rfl
      rw [World.withHost, change.apply_only]
  case optionsChange rep change =>
      refine session_quiet htransport rfl ?_ rfl
      rw [World.withHost, change.apply_only]
  case responseSetStatusCode rep statusCode =>
      refine session_quiet htransport rfl ?_ rfl
      rcases HostResponse.setStatusCode_cases world.host rep statusCode with hafter | hafter
      · rw [World.withHost, hafter]
      · rw [World.withHost, hafter]
  case requestGetOptions rep =>
      simp only [HostRequest.getOptions]
      cases (world.host.requests.get rep).bind RequestData.options with
      | none => exact session_quiet htransport rfl rfl rfl
      | some optRep => exact session_quiet htransport rfl rfl rfl
  all_goals exact session_quiet htransport rfl rfl rfl

/-! ## The one call that sends -/

/-- The frames of a call so far: its head, its batches but the empty ones, and
its trailers once the wait gave some with a token name. -/
def callFrames (head : Bytes) (call : Call) : List Bytes :=
  sessionFrames head (call.batches.filter fun chunk => !chunk.isEmpty)
    ((call.trailers.bind formatRequestTrailersValue).map asBytes)

/-- The call has sent its frames and not ended the stream. -/
def Sending (head : Bytes) (call : Call) (out : List OutEvent) : Prop :=
  call.trailers = none ∧ out = (callFrames head call).map .out

/-- The call has sent its frames and ended the stream. -/
def Ended (head : Bytes) (call : Call) (out : List OutEvent) : Prop :=
  out = (callFrames head call).map .out ++ [.outEnd]

/-- What a call has sent, by where it stands. -/
def Logged (head : Bytes) (call : Call) (out : List OutEvent) : Prop :=
  match call.await with
  | .body _ | .trailers => Sending head call out
  | .head => Ended head call out
  | .done _ => Sending head call out ∨ Ended head call out

/-- A call that failed before it sent anything. -/
def Refused (call : Call) : Prop := call.head = none ∧ ∃ error, call.await = .done (.error error)

/-- Nothing was sent, and the receiver is there. -/
structure Idle (world : World) (transport : HttpTransport) : Prop where
  bridge : world.host.transport = some transport
  out : transport.out = []
  inbound : transport.inbound = some .receiver
  calls : ∀ (index : Nat) (call : Call), world.calls[index]? = some call → Refused call

/-- One call has the receiver and sent all there is; the others were refused. -/
structure Active (world : World) (transport : HttpTransport) (index : Nat) (head : Bytes)
    (call : Call) : Prop where
  bridge : world.host.transport = some transport
  taken : transport.inbound = none
  present : world.calls[index]? = some call
  headed : call.head = some head
  receiver : call.inbound = some .receiver
  logged : Logged head call transport.out
  others : ∀ (other : Nat) (found : Call), other ≠ index → world.calls[other]? = some found → Refused found

theorem callFrames_snoc {head chunk : Bytes} {call : Call} (hnone : call.trailers = none)
    (hchunk : chunk.isEmpty = false) :
    callFrames head { call with batches := call.batches ++ [chunk] } =
      callFrames head call ++ [encode .body chunk] := by
  simp [callFrames, sessionFrames, hnone, hchunk, List.filter_append]

theorem callFrames_empty {head chunk : Bytes} {call : Call} (hchunk : chunk.isEmpty = true) :
    callFrames head { call with batches := call.batches ++ [chunk] } = callFrames head call := by
  simp [callFrames, hchunk, List.filter_append]

/-- One turn of the drain loop keeps what was sent accounted for. -/
theorem sending_batch {head : Bytes} {call : Call} (hsending : Sending head call transport.out)
    (chunk : Bytes) :
    Sending head { call with batches := call.batches ++ [chunk] }
      (if chunk.isEmpty then transport
        else sendEvent transport (.out (encode .body chunk))).out := by
  obtain ⟨hnone, hout⟩ := hsending
  refine ⟨hnone, ?_⟩
  cases hchunk : chunk.isEmpty with
  | true =>
      rw [callFrames_empty hchunk, if_pos rfl]
      exact hout
  | false =>
      rw [callFrames_snoc hnone hchunk, if_neg (by simp)]
      simp [sendEvent, hout]

@[simp] theorem ended_fields (call : Call) :
    (ended call).head = call.head ∧ (ended call).batches = call.batches ∧
      (ended call).trailers = call.trailers ∧ (ended call).inbound = call.inbound := by
  unfold ended Call.fail
  cases call.inbound <;> simp

theorem ended_receiver {call : Call} (hreceiver : call.inbound = some .receiver) :
    ended call = { call with await := .head } := by
  rw [ended, hreceiver]

/-- What a section keeps of its call. -/
theorem section_fields {call changed : Call} {after : HttpTransport}
    (hsection : Section transport call changed after) :
    changed.head = call.head ∧ changed.batches = call.batches ∧
      changed.trailers = call.trailers ∧ changed.inbound = call.inbound ∧
      after.inbound = transport.inbound := by
  cases hsection with
  | body trailers => exact ⟨rfl, rfl, rfl, rfl, rfl⟩
  | trailers => exact ⟨rfl, rfl, rfl, rfl, rfl⟩
  | fails error => exact ⟨rfl, rfl, rfl, rfl, rfl⟩
  | ends =>
      obtain ⟨hhead, hbatches, htrailers, hinbound⟩ := ended_fields call
      exact ⟨hhead, hbatches, htrailers, hinbound, rfl⟩

/-- A section that starts from what was sent so far leaves it accounted for. -/
theorem logged_section {head : Bytes} {call changed : Call} {after : HttpTransport}
    (hsending : Sending head call transport.out) (hreceiver : call.inbound = some .receiver)
    (hsection : Section transport call changed after) : Logged head changed after.out := by
  obtain ⟨hnone, hout⟩ := hsending
  cases hsection with
  | body trailers => exact ⟨hnone, hout⟩
  | trailers => exact ⟨hnone, hout⟩
  | fails error => exact Or.inl ⟨hnone, hout⟩
  | ends =>
      rw [ended_receiver hreceiver]
      simp only [Logged, Ended, sendEvent, hout]
      rfl

/-! ## Steps of the call that sends -/

/-- The batch that a step delivers. -/
def batchOf : Label → Option Bytes
  | .bodyBatch _ chunk => some chunk
  | _ => none

/-- The record of the trailers behind a step. -/
def trailersBehind (world : World) (seen : Option (List (FieldName × FieldValue))) :
    Label → Option (List (FieldName × FieldValue))
  | .trailersResolved _ resolved => trailersEntries world.host resolved
  | _ => seen

theorem batchOf_of_quiet (hlabel : isCallEvent label = false) : batchOf label = none := by
  cases label with
  | bodyBatch index chunk => cases hlabel
  | _ => rfl

theorem trailersBehind_of_quiet {seen : Option (List (FieldName × FieldValue))}
    (hlabel : isCallEvent label = false) : trailersBehind world seen label = seen := by
  cases label with
  | trailersResolved index resolved => cases hlabel
  | _ => rfl

theorem trailersPayload_eq (host : WasiHttpHost) (resolved : TrailersOutcome) :
    trailersPayload host resolved =
      (trailersEntries host resolved).bind formatRequestTrailersValue := by
  unfold trailersPayload trailersEntries
  split
  · next fieldsRep =>
      simp only [HostFields.copyAll, Option.bind_some]
      cases host.fields.get fieldsRep with
      | none => rfl
      | some data => rfl
  · rfl

/-- A refused call does not wait for anything. -/
theorem Refused.not_await {call : Call} (hrefused : Refused call) {await : Await}
    (hawait : call.await = await) (hwaits : ∀ result, await ≠ .done result) : False := by
  obtain ⟨-, error, hdone⟩ := hrefused
  exact hwaits _ (hawait.symm.trans hdone)

theorem getElem?_append_one {calls : List Call} {call found : Call} {index : Nat}
    (hget : (calls ++ [call])[index]? = some found) :
    calls[index]? = some found ∨ index = calls.length ∧ found = call := by
  rcases Nat.lt_or_ge index calls.length with hlt | hge
  · rw [List.getElem?_append_left hlt] at hget
    exact Or.inl hget
  · rw [List.getElem?_append_right hge, List.getElem?_singleton] at hget
    split at hget
    · exact Or.inr ⟨by omega, (Option.some.inj hget).symm⟩
    · cases hget

variable {after : HttpTransport} {calls : List Call} {index : Nat} {head : Bytes} {call : Call}

/-- Before any head is sent, only a call of `handle` can change that. -/
theorem idle_quiet (hidle : Idle world transport) (hafter : next.host.transport = some after)
    (hhandle : isHandle label = false) (hcalls : next.calls = calls)
    (hstep : SessionStep world transport label calls after) : Idle next after := by
  cases hstep with
  | quiet hlabel => exact ⟨hafter, hidle.out, hidle.inbound, hcalls ▸ hidle.calls⟩
  | refused error hhead => cases hhandle
  | started head await hhead hsection => cases hhandle
  | batch trailers hcall hawait =>
      exact ((hidle.calls _ _ hcall).not_await hawait (by simp)).elim
  | drained trailers hcall hawait hsection =>
      exact ((hidle.calls _ _ hcall).not_await hawait (by simp)).elim
  | resolved hcall hawait => exact ((hidle.calls _ _ hcall).not_await hawait (by simp)).elim
  | answered result hcall hawait =>
      exact ((hidle.calls _ _ hcall).not_await hawait (by simp)).elim

/-- A call of `handle` is refused, or it is the one that sends. -/
theorem idle_handle {request : Rep} {fault trailersFault : Option Text}
    (hidle : Idle world transport) (hafter : next.host.transport = some after)
    (hcalls : next.calls = calls)
    (hstep : SessionStep world transport (.handle request fault trailersFault) calls after) :
    ((∃ error, requestHead world.host request = .error error) ∧ Idle next after) ∨
      ∃ head call, requestHead world.host request = .ok head ∧
        Active next after world.calls.length head call ∧ call.batches = [] ∧
        call.trailers = none := by
  cases hstep with
  | quiet hlabel => cases hlabel
  | refused error hhead =>
      refine Or.inl ⟨⟨error, hhead⟩, hafter, hidle.out, hidle.inbound, fun index call hget => ?_⟩
      rw [hcalls] at hget
      rcases getElem?_append_one hget with hold | ⟨-, rfl⟩
      · exact hidle.calls index call hold
      · exact ⟨rfl, error, rfl⟩
  | @started _ _ _ head await call _ hhead hsection =>
      obtain ⟨hheaded, hbatches, htrailers, hinbound, htaken⟩ := section_fields hsection
      refine Or.inr ⟨head, call, hhead, ?_, hbatches, htrailers⟩
      have hsending : Sending head { head := some head, inbound := transport.inbound, await }
          (sendHead transport head).out := by
        refine ⟨rfl, ?_⟩
        simp [sendHead, hidle.out, callFrames, sessionFrames]
      refine ⟨hafter, htaken, ?_, hheaded, hinbound.trans hidle.inbound,
        logged_section hsending hidle.inbound hsection, fun other found hother hget => ?_⟩
      · rw [hcalls]
        exact List.getElem?_concat_length
      · rw [hcalls] at hget
        rcases getElem?_append_one hget with hold | ⟨hlast, -⟩
        · exact hidle.calls other found hold
        · exact absurd hlast hother

/-- Updating the sending call leaves the others refused. -/
theorem Active.update {changed : Call} (hactive : Active world transport index head call)
    (hafter : next.host.transport = some after) (htaken : after.inbound = transport.inbound)
    (hcalls : next.calls = world.calls.set index changed) (hheaded : changed.head = call.head)
    (hreceiver : changed.inbound = call.inbound) (hlogged : Logged head changed after.out) :
    Active next after index head changed where
  bridge := hafter
  taken := htaken.trans hactive.taken
  present := by
    have hlt : index < world.calls.length := by
      obtain ⟨hlt, -⟩ := List.getElem?_eq_some_iff.mp hactive.present
      exact hlt
    rw [hcalls, List.getElem?_set_self hlt]
  headed := hheaded.trans hactive.headed
  receiver := hreceiver.trans hactive.receiver
  logged := hlogged
  others other found hother hget := by
    rw [hcalls, List.getElem?_set_ne (Ne.symm hother)] at hget
    exact hactive.others other found hother hget

/-- Only the sending call waits for anything. -/
theorem Active.of_await {other : Nat} {found : Call} {await : Await}
    (hactive : Active world transport index head call) (hget : world.calls[other]? = some found)
    (hawait : found.await = await) (hwaits : ∀ result, await ≠ .done result) :
    other = index ∧ found = call := by
  by_cases hother : other = index
  · subst hother
    exact ⟨rfl, Option.some.inj (hget.symm.trans hactive.present)⟩
  · exact ((hactive.others other found hother hget).not_await hawait hwaits).elim

theorem Active.sending_of_body {trailers : Option TrailersFuture}
    (hactive : Active world transport index head call) (hawait : call.await = .body trailers) :
    Sending head call transport.out := by
  have hlogged := hactive.logged
  rwa [Logged, hawait] at hlogged

theorem Active.sending_of_trailers (hactive : Active world transport index head call)
    (hawait : call.await = .trailers) : Sending head call transport.out := by
  have hlogged := hactive.logged
  rwa [Logged, hawait] at hlogged

/-- A step of a session in which one call has the receiver: it goes on, or it is
not concerned; another call that would send its head is excluded. -/
theorem active_step (hactive : Active world transport index head call)
    (hafter : next.host.transport = some after) (hcalls : next.calls = calls)
    (hsole : ∀ request fault trailersFault, label = .handle request fault trailersFault →
      ∃ error, requestHead world.host request = .error error)
    (hstep : SessionStep world transport label calls after) :
    ∃ changed, Active next after index head changed ∧
      changed.batches = call.batches ++ (batchOf label).toList ∧
      changed.trailers = trailersBehind world call.trailers label := by
  cases hstep with
  | quiet hlabel =>
      refine ⟨call, ⟨hafter, hactive.taken, hcalls ▸ hactive.present, hactive.headed,
        hactive.receiver, hactive.logged, hcalls ▸ hactive.others⟩, ?_,
        (trailersBehind_of_quiet hlabel).symm⟩
      rw [batchOf_of_quiet hlabel]
      exact (List.append_nil _).symm
  | refused error hhead =>
      have hlt : index < world.calls.length := (List.getElem?_eq_some_iff.mp hactive.present).1
      refine ⟨call, ⟨hafter, hactive.taken, ?_, hactive.headed, hactive.receiver, hactive.logged,
        fun other found hother hget => ?_⟩, (List.append_nil _).symm, rfl⟩
      · rw [hcalls, List.getElem?_append_left hlt]
        exact hactive.present
      · rw [hcalls] at hget
        rcases getElem?_append_one hget with hold | ⟨-, rfl⟩
        · exact hactive.others other found hother hold
        · exact ⟨rfl, error, rfl⟩
  | started head await hhead hsection =>
      obtain ⟨error, herror⟩ := hsole _ _ _ rfl
      rw [hhead] at herror
      cases herror
  | @batch _ chunk found trailers hcall hawait =>
      obtain ⟨rfl, rfl⟩ := hactive.of_await hcall hawait (by simp)
      have hsending := hactive.sending_of_body hawait
      refine ⟨_, hactive.update hafter ?_ hcalls rfl rfl ?_, rfl, rfl⟩
      · split <;> rfl
      · have hbatch := sending_batch hsending chunk
        simpa only [Logged, hawait] using hbatch
  | drained trailers hcall hawait hsection =>
      obtain ⟨rfl, rfl⟩ := hactive.of_await hcall hawait (by simp)
      obtain ⟨hhead, hbatches, htrailers, hinbound, htaken⟩ := section_fields hsection
      exact ⟨_, hactive.update hafter htaken hcalls hhead hinbound
        (logged_section (hactive.sending_of_body hawait) hactive.receiver hsection),
        hbatches.trans (List.append_nil _).symm, htrailers⟩
  | @resolved _ resolved found hcall hawait =>
      obtain ⟨rfl, rfl⟩ := hactive.of_await hcall hawait (by simp)
      have hsending := hactive.sending_of_trailers hawait
      obtain ⟨hhead, hbatches, htrailers, hinbound⟩ :=
        ended_fields { found with trailers := trailersEntries world.host resolved }
      refine ⟨_, hactive.update hafter rfl hcalls hhead hinbound ?_,
        hbatches.trans (List.append_nil _).symm, htrailers⟩
      have hreceiver : ({ found with
          trailers := trailersEntries world.host resolved } : Call).inbound = some .receiver :=
        hactive.receiver
      rw [ended_receiver hreceiver]
      simp only [Logged, Ended, hsending.2, callFrames, sessionFrames, hsending.1,
        trailersPayload_eq]
      cases (trailersEntries world.host resolved).bind formatRequestTrailersValue <;> simp
  | @answered _ _ _ _ found result hcall hawait =>
      obtain ⟨rfl, rfl⟩ := hactive.of_await hcall hawait (by simp)
      have hlogged := hactive.logged
      rw [Logged, hawait] at hlogged
      exact ⟨_, hactive.update hafter rfl hcalls rfl rfl (Or.inr hlogged),
        (List.append_nil _).symm, rfl⟩

end HellohqRuntime.Http.OutLog

import HellohqRuntime.Foundation.Runs
import HellohqRuntime.Http.Handle

/-!
# A guest, its host and the caller

The state of a whole session: the host, the handles the guest owns, the field
handles inside trailers futures, the calls of `handle` in flight, and the frames
the caller has pushed.  A label is one host function the guest calls, one event
a call in flight is waiting for, or one push of the caller.  A label is enabled
only where the guest owns the handles it names.
-/

namespace HellohqRuntime.Http.System

open HellohqRuntime.Foundation.Runs
open HellohqRuntime.Foundation.Strings
open HellohqRuntime.Http.Handle
open HellohqRuntime.Http.Resources
open HellohqRuntime.Http.Types

/-- The reps of the handles the guest owns, once for each handle. -/
structure Guest where
  fields : List Rep := []
  requests : List Rep := []
  responses : List Rep := []
  options : List Rep := []
  deriving DecidableEq, Repr

structure World where
  host : WasiHttpHost
  guest : Guest := {}
  /-- Field handles that were written to a trailers future and not read yet. -/
  inFlight : List Rep := []
  calls : List Call := []
  /-- Frames pushed and not read yet. -/
  inbound : List Bytes := []
  inboundOpen : Bool := true

/-- A session before its first step, with or without a transport. -/
def World.start (host : WasiHttpHost) : World := { host }

/-! ## Labels -/

inductive FieldsChange where
  | set (name : FieldName) (value : List FieldValue)
  | delete (name : FieldName)
  | getAndDelete (name : FieldName)
  | append (name : FieldName) (value : FieldValue)
  deriving DecidableEq, Repr

def FieldsChange.apply (host : WasiHttpHost) (rep : Rep) : FieldsChange → WasiHttpHost
  | .set name value => (HostFields.set host rep name value).2
  | .delete name => (HostFields.delete host rep name).2
  | .getAndDelete name => (HostFields.getAndDelete host rep name).2
  | .append name value => (HostFields.append host rep name value).2

inductive RequestChange where
  | method (value : Method)
  | pathWithQuery (value : Option Text)
  | scheme (value : Option Scheme)
  | authority (value : Option Text)
  deriving DecidableEq, Repr

def RequestChange.apply (host : WasiHttpHost) (rep : Rep) : RequestChange → WasiHttpHost
  | .method value => (HostRequest.setMethod host rep value).2
  | .pathWithQuery value => (HostRequest.setPathWithQuery host rep value).2
  | .scheme value => (HostRequest.setScheme host rep value).2
  | .authority value => (HostRequest.setAuthority host rep value).2

inductive OptionsChange where
  | connectTimeout (duration : Option Duration)
  | firstByteTimeout (duration : Option Duration)
  | betweenBytesTimeout (duration : Option Duration)
  deriving DecidableEq, Repr

def OptionsChange.apply (host : WasiHttpHost) (rep : Rep) : OptionsChange → WasiHttpHost
  | .connectTimeout duration => (HostRequestOptions.setConnectTimeout host rep duration).2
  | .firstByteTimeout duration => (HostRequestOptions.setFirstByteTimeout host rep duration).2
  | .betweenBytesTimeout duration =>
      (HostRequestOptions.setBetweenBytesTimeout host rep duration).2

/-- What a mutator leaves of the data it may write. -/
def FieldsChange.write (data : FieldsData) : FieldsChange → FieldsData
  | .set name value => data.set name value
  | .delete name => data.delete name
  | .getAndDelete name => (data.getAndDelete name).2
  | .append name value => data.append name value

def RequestChange.write (data : RequestData) : RequestChange → RequestData
  | .method value => { data with method := value }
  | .pathWithQuery value => { data with pathWithQuery := value }
  | .scheme value => { data with scheme := value }
  | .authority value => { data with authority := value }

def OptionsChange.write (data : RequestOptionsData) : OptionsChange → RequestOptionsData
  | .connectTimeout duration => { data with connectTimeout := duration }
  | .firstByteTimeout duration => { data with firstByteTimeout := duration }
  | .betweenBytesTimeout duration => { data with betweenBytesTimeout := duration }

theorem FieldsChange.apply_cases (host : WasiHttpHost) (rep : Rep) (change : FieldsChange) :
    change.apply host rep = host ∨
      ∃ data, host.fields.get rep = some data ∧ data.immutable = false ∧
        change.apply host rep =
          { host with fields := host.fields.modify rep fun data => change.write data } := by
  cases change with
  | set name value => exact HostFields.mutate_cases host rep fun data => ((), data.set name value)
  | delete name => exact HostFields.mutate_cases host rep fun data => ((), data.delete name)
  | getAndDelete name => exact HostFields.mutate_cases host rep fun data => data.getAndDelete name
  | append name value =>
      exact HostFields.mutate_cases host rep fun data => ((), data.append name value)

/-- A setter of fields leaves the rest of the host alone. -/
theorem FieldsChange.apply_only (host : WasiHttpHost) (rep : Rep) (change : FieldsChange) :
    change.apply host rep = { host with fields := (change.apply host rep).fields } := by
  obtain hafter | ⟨_, _, _, hafter⟩ := change.apply_cases host rep
  · rw [hafter]
  · rw [hafter]

theorem RequestChange.apply_eq (host : WasiHttpHost) (rep : Rep) (change : RequestChange) :
    change.apply host rep = (HostRequest.write host rep fun data => change.write data).2 := by
  cases change <;> rfl

theorem RequestChange.apply_only (host : WasiHttpHost) (rep : Rep) (change : RequestChange) :
    change.apply host rep = { host with requests := (change.apply host rep).requests } := by
  rw [change.apply_eq]
  obtain hafter | hafter := HostRequest.write_cases host rep fun data => change.write data
  · rw [hafter]
  · rw [hafter]

/-- A request setter leaves the headers and the options of its request alone. -/
theorem RequestChange.write_keeps (data : RequestData) (change : RequestChange) :
    (change.write data).headers = data.headers ∧ (change.write data).options = data.options := by
  cases change <;> exact ⟨rfl, rfl⟩

theorem OptionsChange.apply_eq (host : WasiHttpHost) (rep : Rep) (change : OptionsChange) :
    change.apply host rep =
      (HostRequestOptions.write host rep fun data => change.write data).2 := by
  cases change <;> rfl

theorem OptionsChange.apply_only (host : WasiHttpHost) (rep : Rep) (change : OptionsChange) :
    change.apply host rep = { host with options := (change.apply host rep).options } := by
  rw [change.apply_eq]
  obtain hafter | ⟨_, _, _, hafter⟩ :=
    HostRequestOptions.write_cases host rep fun data => change.write data
  · rw [hafter]
  · rw [hafter]

inductive Label where
  | fieldsNew
  | fieldsFromList (entries : List (FieldName × FieldValue))
  /-- `get`, `has` or `copy-all`. -/
  | fieldsRead (rep : Rep)
  | fieldsChange (rep : Rep) (change : FieldsChange)
  | fieldsClone (rep : Rep)
  | fieldsDrop (rep : Rep)
  | requestNew (headers : Rep) (contents : Option BodyReader) (trailers : TrailersFuture)
      (options : Option Rep)
  | requestRead (rep : Rep)
  | requestChange (rep : Rep) (change : RequestChange)
  | requestGetOptions (rep : Rep)
  | requestGetHeaders (rep : Rep)
  | requestConsumeBody (rep : Rep)
  | requestDrop (rep : Rep)
  | responseNew (headers : Rep) (contents : Option BodyReader) (trailers : TrailersFuture)
  | responseRead (rep : Rep)
  | responseSetStatusCode (rep : Rep) (statusCode : UInt16)
  | responseGetHeaders (rep : Rep)
  | responseConsumeBody (rep : Rep)
  | responseDrop (rep : Rep)
  | optionsNew
  | optionsRead (rep : Rep)
  | optionsChange (rep : Rep) (change : OptionsChange)
  | optionsClone (rep : Rep)
  | optionsDrop (rep : Rep)
  /-- The guest moves a fields handle into a trailers future. -/
  | writeTrailers (rep : Rep)
  /-- The guest reads a fields handle out of a trailers future. -/
  | readTrailers (rep : Rep)
  | handle (request : Rep) (fault trailersFault : Option Text)
  | bodyBatch (call : Nat) (chunk : Bytes)
  | bodyEnd (call : Nat) (fault : Option Text)
  | trailersResolved (call : Nat) (resolved : TrailersOutcome)
  | responseHead (call : Nat) (shown : Text) (bodyFault trailersFault : Option Text)
  | push (chunk : Bytes)
  | pushEnd

/-! ## Steps -/

namespace World

/-- Only the named options are looked up, never every id there could be. -/
instance (options : Option Rep) (held : List Rep) : Decidable (∀ rep ∈ options, rep ∈ held) :=
  Option.decidableForallMem (p := fun rep => rep ∈ held) options

/-- The next state where the guest owns what the label names. -/
def whenOwned (owned : Prop) [Decidable owned] (next : World) : Option World :=
  if owned then some next else none

def gainFields (world : World) (minted : Rep × WasiHttpHost) : World :=
  { world with
    host := minted.2
    guest := { world.guest with fields := minted.1 :: world.guest.fields } }

def gainRequest (world : World) (minted : Rep × WasiHttpHost) : World :=
  { world with
    host := minted.2
    guest := { world.guest with requests := minted.1 :: world.guest.requests } }

def gainResponse (world : World) (minted : Rep × WasiHttpHost) : World :=
  { world with
    host := minted.2
    guest := { world.guest with responses := minted.1 :: world.guest.responses } }

def gainOptions (world : World) (minted : Rep × WasiHttpHost) : World :=
  { world with
    host := minted.2
    guest := { world.guest with options := minted.1 :: world.guest.options } }

def loseFields (world : World) (rep : Rep) : World :=
  { world with guest := { world.guest with fields := world.guest.fields.erase rep } }

def loseRequest (world : World) (rep : Rep) : World :=
  { world with guest := { world.guest with requests := world.guest.requests.erase rep } }

def loseResponse (world : World) (rep : Rep) : World :=
  { world with guest := { world.guest with responses := world.guest.responses.erase rep } }

def loseOptions (world : World) (rep : Option Rep) : World :=
  { world with
    guest := { world.guest with
      options := match rep with
        | none => world.guest.options
        | some rep => world.guest.options.erase rep } }

def withHost (world : World) (host : WasiHttpHost) : World := { world with host }

/-- The trailers of a response the host built, which its future holds. -/
def builtTrailers (host : WasiHttpHost) (response : Rep) : Option Rep :=
  match (host.responses.get response).bind ResponseData.trailers with
  | some (.ready (.ok rep)) => rep
  | _ => none

/-- The result of a call reaches the guest. -/
def deliver (world : World) (result : Except ErrorCode Rep) : World :=
  match result with
  | .error _ => world
  | .ok response =>
      { world.gainResponse (response, world.host) with
        inFlight := (builtTrailers world.host response).toList ++ world.inFlight }

/-- A call made a section of progress. -/
def progress (world : World) (index : Nat) (result : Call × WasiHttpHost) : World :=
  { world with host := result.2, calls := world.calls.set index result.1 }

/-- The trailers handle the wait gave is the host's now. -/
def takeTrailers (world : World) : TrailersOutcome → Option World
  | some (.ok (.ok (some rep))) =>
      if rep ∈ world.inFlight then some { world with inFlight := world.inFlight.erase rep } else none
  | _ => some world

/-- Start a call, over the transport if there is one. -/
def startHandle (world : World) (request : Rep) (fault trailersFault : Option Text) : World :=
  let world := world.loseRequest request
  match world.host.transport with
  | none =>
      let built := handleSynthetic world.host request fault trailersFault
      let ended : Call := { await := .done built.1 }
      deliver { world with host := built.2, calls := world.calls ++ [ended] } built.1
  | some _ =>
      let started := startCall world.host request fault
      { world with host := started.2, calls := world.calls ++ [started.1] }

/-- The caller's first frame, or the end of the inbound stream, reaches a call. -/
def receiveHeadAt (world : World) (index : Nat) (call : Call) (shown : Text)
    (bodyFault trailersFault : Option Text) : Option World :=
  match world.inbound, world.inboundOpen with
  | [], true => none
  | [], false =>
      some (world.progress index
        (receiveHead world.host call shown none bodyFault trailersFault))
  | frame :: rest, _ =>
      let result := receiveHead world.host call shown (some frame) bodyFault trailersFault
      let world := { world.progress index result with inbound := rest }
      match result.1.await with
      | .done built => some (world.deliver built)
      | _ => some world

/-- One step of the session. -/
def step (world : World) : Label → Option World
  | .fieldsNew => some (world.gainFields (HostFields.new world.host))
  | .fieldsFromList entries => some (world.gainFields (HostFields.fromList world.host entries))
  | .fieldsRead rep => whenOwned (rep ∈ world.guest.fields) world
  | .fieldsChange rep change =>
      whenOwned (rep ∈ world.guest.fields) (world.withHost (change.apply world.host rep))
  | .fieldsClone rep =>
      whenOwned (rep ∈ world.guest.fields) (world.gainFields (HostFields.clone world.host rep))
  | .fieldsDrop rep =>
      whenOwned (rep ∈ world.guest.fields)
        ((world.loseFields rep).withHost (HostFields.drop world.host rep))
  | .requestNew headers contents trailers options =>
      whenOwned (headers ∈ world.guest.fields ∧ ∀ rep ∈ options, rep ∈ world.guest.options)
        (((world.loseFields headers).loseOptions options).gainRequest
          (HostRequest.new world.host headers contents trailers options))
  | .requestRead rep => whenOwned (rep ∈ world.guest.requests) world
  | .requestChange rep change =>
      whenOwned (rep ∈ world.guest.requests) (world.withHost (change.apply world.host rep))
  | .requestGetOptions rep =>
      let got := HostRequest.getOptions world.host rep
      whenOwned (rep ∈ world.guest.requests)
        (match got.1 with
          | none => world.withHost got.2
          | some optRep => world.gainOptions (optRep, got.2))
  | .requestGetHeaders rep =>
      whenOwned (rep ∈ world.guest.requests)
        (world.gainFields (HostRequest.getHeaders world.host rep))
  | .requestConsumeBody rep =>
      whenOwned (rep ∈ world.guest.requests)
        ((world.loseRequest rep).withHost (HostRequest.consumeBody world.host rep).2)
  | .requestDrop rep =>
      whenOwned (rep ∈ world.guest.requests)
        ((world.loseRequest rep).withHost (HostRequest.drop world.host rep))
  | .responseNew headers contents trailers =>
      whenOwned (headers ∈ world.guest.fields)
        ((world.loseFields headers).gainResponse
          (HostResponse.new world.host headers contents trailers))
  | .responseRead rep => whenOwned (rep ∈ world.guest.responses) world
  | .responseSetStatusCode rep statusCode =>
      whenOwned (rep ∈ world.guest.responses)
        (world.withHost (HostResponse.setStatusCode world.host rep statusCode).2)
  | .responseGetHeaders rep =>
      whenOwned (rep ∈ world.guest.responses)
        (world.gainFields (HostResponse.getHeaders world.host rep))
  | .responseConsumeBody rep =>
      whenOwned (rep ∈ world.guest.responses)
        ((world.loseResponse rep).withHost (HostResponse.consumeBody world.host rep).2)
  | .responseDrop rep =>
      whenOwned (rep ∈ world.guest.responses)
        ((world.loseResponse rep).withHost (HostResponse.drop world.host rep))
  | .optionsNew => some (world.gainOptions (HostRequestOptions.new world.host))
  | .optionsRead rep => whenOwned (rep ∈ world.guest.options) world
  | .optionsChange rep change =>
      whenOwned (rep ∈ world.guest.options) (world.withHost (change.apply world.host rep))
  | .optionsClone rep =>
      whenOwned (rep ∈ world.guest.options)
        (world.gainOptions (HostRequestOptions.clone world.host rep))
  | .optionsDrop rep =>
      whenOwned (rep ∈ world.guest.options)
        ((world.loseOptions (some rep)).withHost (HostRequestOptions.drop world.host rep))
  | .writeTrailers rep =>
      whenOwned (rep ∈ world.guest.fields)
        { world.loseFields rep with inFlight := rep :: world.inFlight }
  | .readTrailers rep =>
      whenOwned (rep ∈ world.inFlight)
        { world.gainFields (rep, world.host) with inFlight := world.inFlight.erase rep }
  | .handle request fault trailersFault =>
      whenOwned (request ∈ world.guest.requests) (world.startHandle request fault trailersFault)
  | .bodyBatch index chunk =>
      match world.calls[index]? with
      | none => none
      | some call =>
          match call.await with
          | .body _ => some (world.progress index (receiveBatch world.host call chunk))
          | _ => none
  | .bodyEnd index fault =>
      match world.calls[index]? with
      | none => none
      | some call =>
          match call.await with
          | .body trailers =>
              some (world.progress index (enterTrailers world.host call trailers fault))
          | _ => none
  | .trailersResolved index resolved =>
      match world.calls[index]? with
      | none => none
      | some call =>
          match call.await with
          | .trailers =>
              (world.takeTrailers resolved).map fun taken =>
                taken.progress index (receiveTrailers world.host call resolved)
          | _ => none
  | .responseHead index shown bodyFault trailersFault =>
      match world.calls[index]? with
      | none => none
      | some call =>
          match call.await with
          | .head => world.receiveHeadAt index call shown bodyFault trailersFault
          | _ => none
  | .push chunk =>
      some { world with
        inbound := if world.inboundOpen then world.inbound ++ [chunk] else world.inbound }
  | .pushEnd => some { world with inboundOpen := false }

/-! ## Steps taken apart -/

variable {world next : World}

@[simp] theorem whenOwned_eq_some {owned : Prop} [Decidable owned] {candidate : World} :
    whenOwned owned candidate = some next ↔ owned ∧ candidate = next := by
  simp [whenOwned]

@[simp] theorem deliver_host (result : Except ErrorCode Rep) :
    (world.deliver result).host = world.host := by
  cases result <;> rfl

@[simp] theorem deliver_calls (result : Except ErrorCode Rep) :
    (world.deliver result).calls = world.calls := by
  cases result <;> rfl

@[simp] theorem deliver_inbound (result : Except ErrorCode Rep) :
    (world.deliver result).inbound = world.inbound := by
  cases result <;> rfl

@[simp] theorem deliver_guest_fields (result : Except ErrorCode Rep) :
    (world.deliver result).guest.fields = world.guest.fields := by
  cases result <;> rfl

@[simp] theorem deliver_guest_options (result : Except ErrorCode Rep) :
    (world.deliver result).guest.options = world.guest.options := by
  cases result <;> rfl

/-- A call starts over the transport, or ends at once: with an error that leaves
the tables alone, or with a response that was built. -/
theorem startHandle_cases (world : World) (request : Rep) (fault trailersFault : Option Text) :
    (∃ transport, world.host.transport = some transport ∧
      world.startHandle request fault trailersFault =
        { world.loseRequest request with
          host := (startCall world.host request fault).2
          calls := world.calls ++ [(startCall world.host request fault).1] }) ∨
    (world.host.transport = none ∧ ∃ calls,
      (handleSynthetic world.host request fault trailersFault).1 = .error unknownRequest ∧
      world.startHandle request fault trailersFault =
        { world.loseRequest request with calls }) ∨
    (world.host.transport = none ∧ ∃ built calls, Built world.host syntheticEntries built ∧
      handleSynthetic world.host request fault trailersFault = built ∧
      world.startHandle request fault trailersFault =
        deliver { world.loseRequest request with host := built.2, calls } built.1) := by
  unfold startHandle
  cases htransport : world.host.transport with
  | some transport =>
      refine Or.inl ⟨transport, rfl, ?_⟩
      simp only [loseRequest, htransport]
  | none =>
      refine Or.inr ?_
      simp only [loseRequest, htransport, true_and]
      cases hreq : world.host.requests.get request with
      | none =>
          refine Or.inl ⟨world.calls ++ [{ await := .done (.error unknownRequest) }], ?_, ?_⟩
          · simp only [handleSynthetic, hreq]
          · simp only [handleSynthetic, hreq, deliver]
      | some req => exact Or.inr ⟨_, _, built_handleSynthetic hreq, rfl, rfl⟩

theorem bodyBatch_step {index : Nat} {chunk : Bytes}
    (hstep : world.step (.bodyBatch index chunk) = some next) :
    ∃ call trailers, world.calls[index]? = some call ∧ call.await = .body trailers ∧
      next = world.progress index (receiveBatch world.host call chunk) := by
  simp only [step] at hstep
  cases hcall : world.calls[index]? with
  | none => simp [hcall] at hstep
  | some call =>
      cases hawait : call.await with
      | body trailers =>
          simp only [hcall, hawait, Option.some.injEq] at hstep
          exact ⟨call, trailers, rfl, hawait, hstep.symm⟩
      | trailers => simp [hcall, hawait] at hstep
      | head => simp [hcall, hawait] at hstep
      | done result => simp [hcall, hawait] at hstep

theorem bodyEnd_step {index : Nat} {fault : Option Text}
    (hstep : world.step (.bodyEnd index fault) = some next) :
    ∃ call trailers, world.calls[index]? = some call ∧ call.await = .body trailers ∧
      next = world.progress index (enterTrailers world.host call trailers fault) := by
  simp only [step] at hstep
  cases hcall : world.calls[index]? with
  | none => simp [hcall] at hstep
  | some call =>
      cases hawait : call.await with
      | body trailers =>
          simp only [hcall, hawait, Option.some.injEq] at hstep
          exact ⟨call, trailers, rfl, hawait, hstep.symm⟩
      | trailers => simp [hcall, hawait] at hstep
      | head => simp [hcall, hawait] at hstep
      | done result => simp [hcall, hawait] at hstep

theorem trailersResolved_step {index : Nat} {resolved : TrailersOutcome}
    (hstep : world.step (.trailersResolved index resolved) = some next) :
    ∃ call taken, world.calls[index]? = some call ∧ call.await = .trailers ∧
      world.takeTrailers resolved = some taken ∧
      next = taken.progress index (receiveTrailers world.host call resolved) := by
  simp only [step] at hstep
  cases hcall : world.calls[index]? with
  | none => simp [hcall] at hstep
  | some call =>
      cases hawait : call.await with
      | trailers =>
          simp only [hcall, hawait, Option.map_eq_some_iff] at hstep
          obtain ⟨taken, htaken, rfl⟩ := hstep
          exact ⟨call, taken, rfl, hawait, htaken, rfl⟩
      | body trailers => simp [hcall, hawait] at hstep
      | head => simp [hcall, hawait] at hstep
      | done result => simp [hcall, hawait] at hstep

/-- The trailers wait takes at most a handle out of flight. -/
theorem takeTrailers_eq {resolved : TrailersOutcome} {taken : World}
    (htaken : world.takeTrailers resolved = some taken) :
    ∃ inFlight, inFlight.Sublist world.inFlight ∧ taken = { world with inFlight } := by
  unfold takeTrailers at htaken
  split at htaken
  · split at htaken
    · exact ⟨_, List.erase_sublist, (Option.some.inj htaken).symm⟩
    · cases htaken
  · exact ⟨_, List.Sublist.refl _, (Option.some.inj htaken).symm⟩

theorem responseHead_step {index : Nat} {shown : Text} {bodyFault trailersFault : Option Text}
    (hstep : world.step (.responseHead index shown bodyFault trailersFault) = some next) :
    ∃ call, world.calls[index]? = some call ∧ call.await = .head ∧
      world.receiveHeadAt index call shown bodyFault trailersFault = some next := by
  simp only [step] at hstep
  cases hcall : world.calls[index]? with
  | none => simp [hcall] at hstep
  | some call =>
      cases hawait : call.await with
      | head =>
          simp only [hcall, hawait] at hstep
          exact ⟨call, rfl, hawait, hstep⟩
      | body trailers => simp [hcall, hawait] at hstep
      | trailers => simp [hcall, hawait] at hstep
      | done result => simp [hcall, hawait] at hstep

/-- The response head ends the call: it fails and leaves the tables alone, or a
response is built from the first frame. -/
theorem receiveHeadAt_cases {index : Nat} {call : Call} {shown : Text}
    {bodyFault trailersFault : Option Text}
    (hreceive : world.receiveHeadAt index call shown bodyFault trailersFault = some next) :
    ((∀ frame ∈ world.inbound.head?, ∃ error, parseResponseHead shown frame = .error error) ∧
      ∃ error inbound,
        next = { world.progress index (call.fail error, world.host) with inbound }) ∨
    ∃ frame rest head built, world.inbound = frame :: rest ∧
      parseResponseHead shown frame = .ok head ∧
      buildResponse world.host head .receiver bodyFault trailersFault = built ∧
      next = deliver { world.progress index
        ({ call with await := .done built.1 }, built.2) with inbound := rest } built.1 := by
  unfold receiveHeadAt at hreceive
  cases hinbound : world.inbound with
  | nil =>
      cases hopen : world.inboundOpen with
      | true => simp [hinbound, hopen] at hreceive
      | false =>
          simp only [hinbound, hopen, Option.some.injEq] at hreceive
          refine Or.inl ⟨by simp, inboundClosed, [], ?_⟩
          rw [← hreceive, ← hinbound]
          rfl
  | cons frame rest =>
      simp only [hinbound] at hreceive
      cases hparse : parseResponseHead shown frame with
      | error error =>
          simp only [receiveHead, hparse, Call.fail, deliver, Option.some.injEq] at hreceive
          exact Or.inl ⟨by simpa using ⟨error, hparse⟩, error, rest, hreceive.symm⟩
      | ok head =>
          simp only [receiveHead, hparse, Option.some.injEq] at hreceive
          exact Or.inr ⟨frame, rest, head, _, rfl, hparse, rfl, hreceive.symm⟩

end World

end HellohqRuntime.Http.System

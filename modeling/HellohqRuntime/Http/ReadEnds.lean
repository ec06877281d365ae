import HellohqRuntime.Foundation.Custody
import HellohqRuntime.Http.System

/-!
# Reading ends

The body streams and trailers futures of a guest, and the inbound receiver of the
session, have one reading end each.  The guest passes its ends to a request or a
response and gets them back with `consume-body`; a call takes those of its request,
and a response body takes the receiver of its call.  An end that is dropped is closed.
-/

namespace HellohqRuntime.Http.ReadEnds

open HellohqRuntime.Foundation.Custody
open HellohqRuntime.Http.Handle
open HellohqRuntime.Http.Resources
open HellohqRuntime.Http.System
open HellohqRuntime.Http.Tables
open HellohqRuntime.Http.Types

/-! ## Reading ends -/

inductive ReadEnd where
  | body (id : Nat)
  | trailers (id : Nat)
  | inbound
  deriving DecidableEq, Repr

/-- A buffered body has no end that something else could have. -/
def readerEnds : BodyReader → List ReadEnd
  | .guest id => [.body id]
  | .buffered _ => []
  | .responseBody _ => [.inbound]

def futureEnds : TrailersFuture → List ReadEnd
  | .guest id => [.trailers id]
  | .ready _ => []

def stashedEnds (body : Option BodyReader) (trailers : Option TrailersFuture) : List ReadEnd :=
  body.toList.flatMap readerEnds ++ trailers.toList.flatMap futureEnds

def requestEnds (data : RequestData) : List ReadEnd := stashedEnds data.body data.trailers

def responseEnds (data : ResponseData) : List ReadEnd := stashedEnds data.body data.trailers

def receiverEnds (inbound : Option P3sIn) : List ReadEnd := inbound.toList.map fun _ => .inbound

/-- The receiver of a call that is not over. -/
def callEnds (call : Call) : List ReadEnd :=
  match call.await with
  | .done _ => []
  | _ => receiverEnds call.inbound

/-- The receiver of a call that has failed goes with the call. -/
def failedEnds (call : Call) : List ReadEnd :=
  match call.await with
  | .done (.error _) => receiverEnds call.inbound
  | _ => []

/-- The ends in one entry of a table. -/
def endsAt {α : Type} (ends : α → List ReadEnd) (table : Table α) (rep : Rep) : List ReadEnd :=
  ((table.get rep).map ends).getD []

/-! ## A session with its ends -/

inductive Place where
  | guest
  | request (rep : Rep)
  | response (rep : Rep)
  | transport
  | call (index : Nat)
  | closed
  deriving DecidableEq, Repr

/-- A session with the ends in the hands of the guest, those that a call took out of its
request, those that are closed, and all there are. -/
structure Tracked where
  world : World
  guest : List ReadEnd := []
  taken : List (ReadEnd × Nat) := []
  closed : List ReadEnd := []
  made : List ReadEnd := []

def transportEnds (host : WasiHttpHost) : List ReadEnd :=
  receiverEnds (host.transport.bind HttpTransport.inbound)

/-- The ends that call number `index` has. -/
def endsOfCall (taken : List (ReadEnd × Nat)) (calls : List Call) (index : Nat) : List ReadEnd :=
  (taken.filter fun entry => entry.2 == index).map Prod.fst ++ ((calls[index]?).map callEnds).getD []

namespace Tracked

def start (transport : Option HttpTransport) : Tracked :=
  let host : WasiHttpHost := { transport }
  { world := .start host, made := transportEnds host }

def held (tracked : Tracked) : Place → List ReadEnd
  | .guest => tracked.guest
  | .request rep => endsAt requestEnds tracked.world.host.requests rep
  | .response rep => endsAt responseEnds tracked.world.host.responses rep
  | .transport => transportEnds tracked.world.host
  | .call index => endsOfCall tracked.taken tracked.world.calls index
  | .closed => tracked.closed

end Tracked

/-! ## Steps -/

/-- The ends that the guest passes with a call of the host. -/
def passed : Label → List ReadEnd
  | .requestNew _ contents trailers _ | .responseNew _ contents trailers =>
      stashedEnds contents (some trailers)
  | _ => []

/-- The ends that `consume-body` gives to the guest. -/
def gained (host : WasiHttpHost) : Label → List ReadEnd
  | .requestConsumeBody rep =>
      let streams := (HostRequest.consumeBody host rep).1
      stashedEnds (some streams.1) (some streams.2)
  | .responseConsumeBody rep =>
      let streams := (HostResponse.consumeBody host rep).1
      stashedEnds (some streams.1) (some streams.2)
  | _ => []

/-- The ends that a call over the transport takes when it starts. -/
def takenBy (host : WasiHttpHost) : Label → List ReadEnd
  | .handle request _ _ =>
      match host.transport, requestHead host request with
      | some _, .ok _ =>
          let streams := (HostRequest.takeStreams host request).1
          stashedEnds streams.1 streams.2
      | _, _ => []
  | _ => []

/-- The entry that an insertion replaced, which is there once the ids have wrapped. -/
def replaced {α : Type} (ends : α → List ReadEnd) (table after : Table α) : List ReadEnd :=
  if after.next = table.next then [] else endsAt ends table table.next

/-- The ends that are dropped: with an entry, or with a call that fails. -/
def dropped (world next : World) (label : Label) : List ReadEnd :=
  replaced requestEnds world.host.requests next.host.requests ++
    replaced responseEnds world.host.responses next.host.responses ++
    match label with
    | .requestDrop rep => endsAt requestEnds world.host.requests rep
    | .responseDrop rep => endsAt responseEnds world.host.responses rep
    | .handle _ _ _ => ((next.calls[world.calls.length]?).map failedEnds).getD []
    | .bodyEnd index _ | .responseHead index _ _ _ => ((next.calls[index]?).map failedEnds).getD []
    | _ => []

inductive Action where
  /-- The guest makes a stream or a future, whose reading end is its own. -/
  | make (own : ReadEnd)
  | discard (own : ReadEnd)
  | act (label : Label)

namespace Tracked

/-- The ends after a call of the host that left the session at `next`. -/
def after (tracked : Tracked) (label : Label) (next : World) : Tracked :=
  { tracked with
    world := next
    guest := gained tracked.world.host label ++
      tracked.guest.filter fun own => !(passed label).contains own
    taken := tracked.taken ++
      (takenBy tracked.world.host label).map fun own => (own, tracked.world.calls.length)
    closed := dropped tracked.world next label ++ tracked.closed }

/-- A guest passes only ends that it has. -/
def step (tracked : Tracked) : Action → Option Tracked
  | .make own =>
      if own ∈ tracked.made ∨ own = .inbound then none
      else some { tracked with guest := own :: tracked.guest, made := tracked.made ++ [own] }
  | .discard own =>
      if own ∈ tracked.guest then
        some { tracked with guest := tracked.guest.erase own, closed := own :: tracked.closed }
      else none
  | .act label =>
      match tracked.world.step label with
      | none => none
      | some next =>
          if ∀ given ∈ passed label, given ∈ tracked.guest then some (tracked.after label next) else none

end Tracked

/-! ## Entries of a table -/

section Tables

variable {α : Type} {ends : α → List ReadEnd} {table : Table α} {rep : Rep} {change : α → α} {value : α}

theorem endsAt_insert :
    endsAt ends (table.insert value).2 = Function.update (endsAt ends table) table.next (ends value) := by
  funext other
  by_cases hsame : other = table.next
  · subst hsame
    rw [Function.update_self, endsAt, Table.get_insert_self]
    rfl
  · rw [Function.update_of_ne hsame, endsAt, Table.get_insert_ne hsame, endsAt]

theorem endsAt_modify :
    endsAt ends (table.modify rep change) =
      Function.update (endsAt ends table) rep (endsAt (fun data => ends (change data)) table rep) := by
  funext other
  by_cases hsame : other = rep
  · subst hsame
    rw [Function.update_self, endsAt, Table.get_modify_self, Option.map_map]
    rfl
  · rw [Function.update_of_ne hsame, endsAt, Table.get_modify_ne hsame, endsAt]

/-- A change that keeps the ends of its entry keeps them all. -/
theorem endsAt_modify_eq (hkeeps : ∀ data, ends (change data) = ends data) :
    endsAt ends (table.modify rep change) = endsAt ends table := by
  rw [endsAt_modify, funext hkeeps]
  exact Function.update_eq_self rep (endsAt ends table)

/-- A change that takes the ends of its entry leaves none there. -/
theorem endsAt_modify_nil (htakes : ∀ data, ends (change data) = []) :
    endsAt ends (table.modify rep change) = Function.update (endsAt ends table) rep [] := by
  rw [endsAt_modify, funext htakes]
  congr 1
  rw [endsAt]
  cases table.get rep <;> rfl

theorem endsAt_remove :
    endsAt ends (table.remove rep) = Function.update (endsAt ends table) rep [] := by
  funext other
  by_cases hsame : other = rep
  · subst hsame
    rw [Function.update_self, endsAt, Table.get_remove_self]
    rfl
  · rw [Function.update_of_ne hsame, endsAt, Table.get_remove_ne hsame, endsAt]

theorem replaced_of_eq {after : Table α} (hnext : after.next = table.next) :
    replaced ends table after = [] := if_pos hnext

theorem replaced_insert : replaced ends table (table.insert value).2 = endsAt ends table table.next := by
  refine if_neg ?_
  rw [Table.insert_next]
  exact fun hnext => ne_succ _ hnext.symm

end Tables

/-! ## Moves -/

section Moves

variable {held later : Place → List ReadEnd} {made moved : List ReadEnd}

/-- All that a place has goes to another. -/
theorem inCustody_take (place target : Place) (hcustody : InCustody held made) (hapart : place ≠ target)
    (hsource : later place = []) (htarget : later target = held place ++ held target)
    (hothers : ∀ other, other ≠ place → other ≠ target → later other = held other) :
    InCustody later made := by
  have hhandover : Handover held later place target (held place) := by
    refine ⟨hapart, ?_, ?_, hothers⟩
    · rw [hsource, List.append_nil]
    · rw [htarget]
  exact hcustody.handover hhandover

/-- What the guest has apart from what it passes. -/
theorem perm_passed {guest : List ReadEnd} (hguest : guest.Nodup) (hmoved : moved.Nodup)
    (hown : ∀ given ∈ moved, given ∈ guest) :
    guest.Perm (moved ++ guest.filter fun own => !moved.contains own) := by
  refine (List.perm_ext_iff_of_nodup hguest ?_).mpr fun own => ?_
  · refine List.nodup_append.mpr ⟨hmoved, hguest.filter _, ?_⟩
    rintro own hleft other hright rfl
    simp [hleft] at hright
  · constructor
    · intro hmem
      by_cases hpassed : own ∈ moved
      · exact List.mem_append_left _ hpassed
      · exact List.mem_append_right _ (List.mem_filter.mpr ⟨hmem, by simp [hpassed]⟩)
    · intro hmem
      rcases List.mem_append.mp hmem with hpassed | hrest
      · exact hown own hpassed
      · exact (List.mem_filter.mp hrest).1

/-- Ends go to a new entry, and what the entry replaces is closed. -/
theorem inCustody_put (source place : Place) (hcustody : InCustody held made) (hapart : source ≠ place)
    (hplace : place ≠ .closed) (hsource : source ≠ .closed)
    (hgiven : (held source).Perm (moved ++ later source)) (hat : later place = moved)
    (hclosed : later .closed = held place ++ held .closed)
    (hothers : ∀ other, other ≠ source → other ≠ place → other ≠ .closed → later other = held other) :
    InCustody later made := by
  have hwhole : (held place).Perm (held place ++ []) := by rw [List.append_nil]
  have hfreed := hcustody.handedOver place .closed hplace hwhole
  have hput := hfreed.handedOver source place hapart
    (by
      rw [handedOver, Function.update_of_ne hsource, Function.update_of_ne hapart]
      exact hgiven)
  refine hput.of_perm fun other => ?_
  by_cases hother : other = place
  · subst hother
    rw [hat, handedOver, Function.update_self, handedOver, Function.update_of_ne hplace,
      Function.update_self, List.append_nil]
  · rw [handedOver, Function.update_of_ne hother]
    by_cases hgave : other = source
    · subst hgave
      rw [Function.update_self]
    · rw [Function.update_of_ne hgave, handedOver]
      by_cases hlast : other = .closed
      · subst hlast
        rw [hclosed, Function.update_self]
      · rw [Function.update_of_ne hlast, Function.update_of_ne hother, hothers other hgave hother hlast]

end Moves

/-! ## The invariant -/

/-- A call that waits for the head has the receiver. -/
def WaitsWithReceiver (call : Call) : Prop := call.await = .head → call.inbound ≠ none

structure Inv (tracked : Tracked) : Prop where
  custody : InCustody tracked.held tracked.made
  waiting : ∀ call ∈ tracked.world.calls, WaitsWithReceiver call
  taken : ∀ entry ∈ tracked.taken, entry.2 < tracked.world.calls.length

variable {world next : World} {tracked later : Tracked} {label : Label} {call changed : Call}
  {index : Nat}

/-- The ends stay where they are. -/
structure SameEnds (world next : World) : Prop where
  requests : endsAt requestEnds next.host.requests = endsAt requestEnds world.host.requests
  responses : endsAt responseEnds next.host.responses = endsAt responseEnds world.host.responses
  requestIds : next.host.requests.next = world.host.requests.next
  responseIds : next.host.responses.next = world.host.responses.next
  transport : transportEnds next.host = transportEnds world.host
  calls : ∀ taken index, endsOfCall taken next.calls index = endsOfCall taken world.calls index
  count : world.calls.length ≤ next.calls.length
  waiting : (∀ call ∈ world.calls, WaitsWithReceiver call) → ∀ call ∈ next.calls, WaitsWithReceiver call

theorem sameEnds_of_eq (hrequests : next.host.requests = world.host.requests)
    (hresponses : next.host.responses = world.host.responses)
    (htransport : next.host.transport = world.host.transport) (hcalls : next.calls = world.calls) :
    SameEnds world next where
  requests := by rw [hrequests]
  responses := by rw [hresponses]
  requestIds := by rw [hrequests]
  responseIds := by rw [hresponses]
  transport := by rw [transportEnds, htransport, transportEnds]
  calls := by simp [hcalls]
  count := Nat.le_of_eq (by rw [hcalls])
  waiting := fun hwaiting => hcalls ▸ hwaiting

/-- A label that moves no end. -/
theorem inv_same (hinv : Inv tracked) (hsame : SameEnds tracked.world next) (hpassed : passed label = [])
    (hgained : gained tracked.world.host label = []) (htaken : takenBy tracked.world.host label = [])
    (hdropped : dropped tracked.world next label = []) : Inv (tracked.after label next) := by
  constructor
  case custody =>
    have hheld : (tracked.after label next).held = tracked.held := by
      funext place
      cases place with
      | guest => simp [Tracked.held, Tracked.after, hpassed, hgained]
      | request rep => exact congrFun hsame.requests rep
      | response rep => exact congrFun hsame.responses rep
      | transport => exact hsame.transport
      | call index =>
          simp only [Tracked.held, Tracked.after, htaken, List.map_nil, List.append_nil]
          exact hsame.calls tracked.taken index
      | closed => simp [Tracked.held, Tracked.after, hdropped]
    rw [hheld]
    exact hinv.custody
  case waiting => exact hsame.waiting hinv.waiting
  case taken =>
    intro entry hentry
    simp only [Tracked.after, htaken, List.map_nil, List.append_nil] at hentry
    exact Nat.lt_of_lt_of_le (hinv.taken entry hentry) hsame.count

end HellohqRuntime.Http.ReadEnds

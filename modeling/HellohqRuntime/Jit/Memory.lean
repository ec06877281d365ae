import HellohqRuntime.Foundation.Buckets
import HellohqRuntime.Foundation.Custody

/-!
# `MAP_JIT` code memory

A load maps memory, queues the mapping where every engine's publish hook can find it,
and lets the runtime deserialize the code.  A publish takes the mapping out of the
queue and hands it to the engine; what is still queued when the runtime returns is
unmapped by the load.  An engine that is dropped unmaps what it owns.  Each label is
one action of one thread under at most one lock, so a list of labels is an interleaving.
-/

namespace HellohqRuntime.Jit.Memory

open HellohqRuntime.Foundation.Buckets (swapRemove swapRemove_perm)

def usizeMax : Nat := 2 ^ 64 - 1

def saturatingAdd (left right : Nat) : Nat := min (left + right) usizeMax

/-- One mapping.  The number tells it from earlier ones at the same address; the source
does not keep it. -/
structure Region where
  id : Nat
  base : Nat
  len : Nat
  deriving DecidableEq, Repr

namespace Region

def contains (region : Region) (ptr len : Nat) : Bool :=
  decide (region.base ≤ ptr) && decide (saturatingAdd ptr len ≤ region.base + region.len)

/-- The two ranges have no address in common. -/
def disjoint (left right : Region) : Bool :=
  decide (left.base + left.len ≤ right.base) || decide (right.base + right.len ≤ left.base)

end Region

/-- The bytes of an artifact rounded up to whole pages. -/
def mappingLen (page : ℕ+) (bytesLen : Nat) : Nat := (max bytesLen 1 + page - 1) / page * page

/-- Take the first mapping of the queue that passes the test. -/
def takePending (test : Region → Bool) (pending : List Region) : Option (Region × List Region) :=
  match pending.findIdx? test with
  | none => none
  | some i => (pending[i]?).map fun region => (region, swapRemove pending i)

/-! ## State -/

/-- Where a load stands, with the mapping that is in its hands. -/
inductive Stage where
  /-- Mapped and filled, not queued. -/
  | mapped (region : Region)
  /-- Queued; `deserialize_raw` runs. -/
  | raw
  /-- The publish hook has taken a mapping out of the queue. -/
  | publishing (region : Region)
  /-- `deserialize_raw` has returned and the mapping was still queued. -/
  | unclaimed (region : Region) (ok : Bool)
  deriving DecidableEq, Repr

def Stage.hands : Stage → List Region
  | mapped region => [region]
  | raw => []
  | publishing region => [region]
  | unclaimed region _ => [region]

/-- A load under way on an engine, with the mapping it made and the bytes it loads; the
source keeps the base of the mapping. -/
structure Load where
  engine : Nat
  region : Region
  bytesLen : Nat
  stage : Stage
  deriving DecidableEq, Repr

/-- The publish hook of an engine, and whether its last reference is gone. -/
structure MapJitCodeMemory where
  owned : List Region := []
  dropped : Bool := false
  deriving DecidableEq, Repr

/-- Why a mapping was unmapped. -/
inductive Cause where
  | loadFailed | neverPublished
  | engineDropped (engine : Nat)
  deriving DecidableEq, Repr

/-- The queue, the hooks and the loads under way, each load under the number of the
mapping it made.  The last four fields are records of what has happened. -/
structure State where
  pending : List Region := []
  engines : Nat → Option MapJitCodeMemory := fun _ => none
  loads : Nat → Option Load := fun _ => none
  made : List Region := []
  claims : List (Region × Nat) := []
  returned : List (Region × Bool) := []
  gone : List (Region × Cause) := []

namespace State

def setLoad (state : State) (id : Nat) (load : Option Load) : State :=
  { state with loads := Function.update state.loads id load }

def setEngine (state : State) (engine : Nat) (hook : MapJitCodeMemory) : State :=
  { state with engines := Function.update state.engines engine (some hook) }

/-- The mappings that are not unmapped. -/
def live (state : State) : List Region :=
  state.made.filter fun region => !(state.gone.any fun entry => entry.1 == region)

/-- No load is under way on the engine. -/
def idle (state : State) (engine : Nat) : Bool :=
  (List.range state.made.length).all fun id =>
    match state.loads id with
    | some load => load.engine != engine
    | none => true

end State

/-! ## Steps -/

inductive Label where
  | openEngine (engine : Nat)
  | map (engine base bytesLen : Nat)
  | queue (load : Nat)
  | publish (load addr len : Nat)
  | claim (load : Nat)
  | finish (load : Nat) (ok : Bool)
  | unmap (load : Nat)
  | dropEngine (engine : Nat)
  | unmapOwned (engine : Nat)
  deriving DecidableEq, Repr

/-- The text lies inside the memory that the load passed to `deserialize_raw`; an empty
text is not published. -/
def Load.textInside (load : Load) (addr len : Nat) : Bool :=
  decide (0 < len) && decide (load.region.base ≤ addr) &&
    decide (addr + len ≤ load.region.base + load.bytesLen)

/-- `mmap` gives a range apart from the live ones. -/
def mapRegion (page : ℕ+) (state : State) (engine base bytesLen : Nat) : Option State :=
  let region : Region := { id := state.made.length, base, len := mappingLen page bytesLen }
  match state.engines engine with
  | none => none
  | some hook =>
      if !hook.dropped && decide (region.base + region.len ≤ usizeMax) &&
          state.live.all region.disjoint then
        some { state.setLoad region.id (some { engine, region, bytesLen, stage := .mapped region }) with
          made := state.made ++ [region] }
      else none

/-- The hook looks for the mapping that contains the text.  Where there is none, the
stock call changes the protection of the pages and no mapping changes hands. -/
def publishExecutable (state : State) (id addr len : Nat) (load : Load) : State :=
  match takePending (fun region => region.contains addr len) state.pending with
  | none => state
  | some (region, rest) =>
      { state.setLoad id (some { load with stage := .publishing region }) with pending := rest }

/-- `deserialize_raw` has returned: look for the mapping by its base. -/
def recheck (state : State) (id : Nat) (ok : Bool) (load : Load) : State :=
  match takePending (fun region => region.base == load.region.base) state.pending with
  | none =>
      { state.setLoad id none with returned := state.returned ++ [(load.region, ok)] }
  | some (region, rest) =>
      { state.setLoad id (some { load with stage := .unclaimed region ok }) with pending := rest }

def step (page : ℕ+) (state : State) : Label → Option State
  | .openEngine engine =>
      match state.engines engine with
      | some _ => none
      | none => some (state.setEngine engine {})
  | .map engine base bytesLen => mapRegion page state engine base bytesLen
  | .queue id =>
      match state.loads id with
      | none => none
      | some load =>
          match load.stage with
          | .mapped region =>
              some { state.setLoad id (some { load with stage := .raw }) with
                pending := state.pending ++ [region] }
          | _ => none
  | .publish id addr len =>
      match state.loads id with
      | none => none
      | some load =>
          match load.stage with
          | .raw =>
              if load.textInside addr len then some (publishExecutable state id addr len load)
              else none
          | _ => none
  | .claim id =>
      match state.loads id with
      | none => none
      | some load =>
          match load.stage, state.engines load.engine with
          | .publishing region, some hook =>
              some { (state.setLoad id (some { load with stage := .raw })).setEngine load.engine
                  { hook with owned := hook.owned ++ [region] } with
                claims := state.claims ++ [(region, load.engine)] }
          | _, _ => none
  | .finish id ok =>
      match state.loads id with
      | none => none
      | some load =>
          match load.stage with
          | .raw => some (recheck state id ok load)
          | _ => none
  -- what was loaded without a text is dropped first, and loaded again the stock way
  | .unmap id =>
      match state.loads id with
      | none => none
      | some load =>
          match load.stage with
          | .unclaimed region ok =>
              some { state.setLoad id none with
                returned := state.returned ++ [(load.region, ok)]
                gone := state.gone ++ [(region, if ok then .neverPublished else .loadFailed)] }
          | _ => none
  -- an engine outlives its loads
  | .dropEngine engine =>
      match state.engines engine with
      | none => none
      | some hook =>
          if !hook.dropped && state.idle engine then
            some (state.setEngine engine { hook with dropped := true })
          else none
  | .unmapOwned engine =>
      match state.engines engine with
      | none => none
      | some hook =>
          match hook.dropped, hook.owned with
          | true, region :: rest =>
              some { state.setEngine engine { hook with owned := rest } with
                gone := state.gone ++ [(region, .engineDropped engine)] }
          | _, _ => none

/-! ## Where a mapping is -/

inductive Place where
  | load (id : Nat)
  | pending
  | engine (engine : Nat)
  | gone
  deriving DecidableEq, Repr

/-- The mappings in the hands of a load, in the queue, in the list of an engine, and
those that were unmapped. -/
def State.held (state : State) : Place → List Region
  | .load id =>
      match state.loads id with
      | some load => load.stage.hands
      | none => []
  | .pending => state.pending
  | .engine engine =>
      match state.engines engine with
      | some hook => hook.owned
      | none => []
  | .gone => state.gone.map Prod.fst

end HellohqRuntime.Jit.Memory

import Mathlib
import HellohqRuntime.Foundation.Runs

/-!
# The memory of a guest store

A guest asks for linear memories and grows them.  The limiter of a store looks at one
memory at a time and at how many there are, and two entrypoints make a store without a
limiter.  The main result is which guests the limiter keeps below the cap.
-/

namespace HellohqRuntime.Limits.MemoryCap

open HellohqRuntime.Foundation.Runs

/-- Default linear-memory cap: 256 MiB. -/
def DEFAULT_MEMORY_BYTES : Nat := 256 * 1024 * 1024

def DEFAULT_TABLE_ELEMENTS : Nat := 100000

def DEFAULT_INSTANCES : Nat := 64

def DEFAULT_TABLES : Nat := 64

def DEFAULT_MEMORIES : Nat := 8

structure StoreLimits where
  memorySize : Nat
  tableElements : Nat
  instances : Nat
  tables : Nat
  memories : Nat
  deriving DecidableEq, Repr

/-- The per-store resource limiter. -/
def storeLimits : StoreLimits where
  memorySize := DEFAULT_MEMORY_BYTES
  tableElements := DEFAULT_TABLE_ELEMENTS
  instances := DEFAULT_INSTANCES
  tables := DEFAULT_TABLES
  memories := DEFAULT_MEMORIES

/-- A WebAssembly page. -/
def PAGE_BYTES : Nat := 65536

/-- A store with the sizes of its linear memories, in the order of their creation. -/
structure Store where
  limiter : Option StoreLimits
  memories : List Nat := []
  deriving DecidableEq, Repr

/-! ## Entrypoints -/

/-- The functions of the C ABI that create a guest store. -/
inductive Entrypoint where
  | instanceNew | instanceNewPrecompiled
  | p3Start | p3StartCompile
  | p3StartWorkspace | p3StartWorkspaceCompile
  | p3StartStorageEvents | p3StartStorageEventsCompile
  | p3StartPlugin | p3StartPluginCompile
  | p3sStartHttp | p3sStartHttpPrecompiled
  | p3sStartInference | p3sStartInferencePrecompiled
  deriving DecidableEq, Repr

/-- The store that an entrypoint, or the driver it starts, instantiates the guest in. -/
def Entrypoint.newStore : Entrypoint → Store
  | .instanceNew | .instanceNewPrecompiled => { limiter := none }
  -- `p3_drive`
  | .p3Start | .p3StartCompile => { limiter := some storeLimits }
  -- `drive_workspace_run`
  | .p3StartWorkspace | .p3StartWorkspaceCompile => { limiter := some storeLimits }
  -- `drive_storage_events_run`
  | .p3StartStorageEvents | .p3StartStorageEventsCompile => { limiter := some storeLimits }
  -- `drive_plugin_run`
  | .p3StartPlugin | .p3StartPluginCompile => { limiter := some storeLimits }
  -- `p3s_http_session`
  | .p3sStartHttp | .p3sStartHttpPrecompiled => { limiter := some storeLimits }
  -- `p3s_inference_session`
  | .p3sStartInference | .p3sStartInferencePrecompiled => { limiter := some storeLimits }

/-! ## Requests of the guest -/

inductive Request where
  | create (pages : Nat)
  | grow (index : Nat) (pages : Nat)
  deriving DecidableEq, Repr

/-- What a request would add. -/
def Request.bytes : Request → Nat
  | create pages => pages * PAGE_BYTES
  | grow _ pages => pages * PAGE_BYTES

namespace Store

def total (store : Store) : Nat := store.memories.sum

/-- The limiter refuses a memory that would be too large and one memory too many. -/
def admits (store : Store) (request : Request) : Bool :=
  match store.limiter with
  | none => true
  | some limits =>
      match request with
      | .create _ =>
          decide (request.bytes ≤ limits.memorySize) &&
            decide (store.memories.length < limits.memories)
      | .grow index _ =>
          decide (store.memories.getD index 0 + request.bytes ≤ limits.memorySize)

/-- A refused request leaves the memories alone; only a memory that exists can grow. -/
def step (store : Store) (request : Request) : Option Store :=
  match request with
  | .create _ =>
      if store.admits request then
        some { store with memories := store.memories ++ [request.bytes] }
      else some store
  | .grow index _ =>
      match store.memories[index]? with
      | none => none
      | some memory =>
          if store.admits request then
            some { store with memories := store.memories.set index (memory + request.bytes) }
          else some store

end Store

/-! ## One request -/

/-- The memories stay together below the cap. -/
def Capped (store : Store) : Prop := store.total ≤ DEFAULT_MEMORY_BYTES

/-- What a request does: nothing, or a memory more, or a memory that is larger. -/
inductive Served (store : Store) : Request → Store → Prop where
  | refused {request : Request} : Served store request store
  | created {pages : Nat} (hadmits : store.admits (.create pages)) :
      Served store (.create pages)
        { store with memories := store.memories ++ [(Request.create pages).bytes] }
  | grown {index pages memory : Nat} (hmemory : store.memories[index]? = some memory)
      (hadmits : store.admits (.grow index pages)) :
      Served store (.grow index pages)
        { store with
          memories := store.memories.set index (memory + (Request.grow index pages).bytes) }

theorem served_of_step {store next : Store} {request : Request}
    (hstep : store.step request = some next) : Served store request next := by
  cases request with
  | create pages =>
      rw [Store.step] at hstep
      split_ifs at hstep with hadmits
      · obtain rfl := Option.some.inj hstep
        exact .created hadmits
      · obtain rfl := Option.some.inj hstep
        exact .refused
  | grow index pages =>
      rw [Store.step] at hstep
      cases hmemory : store.memories[index]? with
      | none =>
          rw [hmemory] at hstep
          cases hstep
      | some memory =>
          simp only [hmemory] at hstep
          split_ifs at hstep with hadmits
          · obtain rfl := Option.some.inj hstep
            exact .grown hmemory hadmits
          · obtain rfl := Option.some.inj hstep
            exact .refused

/-! ## Runs -/

/-- What the limiter does keep: a size of each memory, and their number. -/
structure Limited (store : Store) : Prop where
  limiter : store.limiter = some storeLimits
  size : ∀ memory ∈ store.memories, memory ≤ DEFAULT_MEMORY_BYTES
  count : store.memories.length ≤ DEFAULT_MEMORIES

theorem Limited.step {store next : Store} {request : Request} (hlimited : Limited store)
    (hstep : store.step request = some next) : Limited next := by
  cases served_of_step hstep with
  | refused => exact hlimited
  | created hadmits =>
      simp only [Store.admits, hlimited.limiter, Bool.and_eq_true, decide_eq_true_iff] at hadmits
      refine ⟨hlimited.limiter, ?_, ?_⟩
      · intro memory hmemory
        rcases List.mem_append.mp hmemory with hbefore | hnew
        · exact hlimited.size memory hbefore
        · obtain rfl := List.mem_singleton.mp hnew
          exact hadmits.1
      · rw [List.length_append]
        exact hadmits.2
  | grown hmemory hadmits =>
      simp only [Store.admits, hlimited.limiter, decide_eq_true_iff,
        List.getD_eq_getElem?_getD, hmemory, Option.getD_some] at hadmits
      refine ⟨hlimited.limiter, ?_, ?_⟩
      · intro other hother
        rcases List.mem_or_eq_of_mem_set hother with hbefore | rfl
        · exact hlimited.size other hbefore
        · exact hadmits
      · rw [List.length_set]
        exact hlimited.count

theorem Limited.of_run {store final : Store} {requests : List Request} (hlimited : Limited store)
    (hrun : run Store.step store requests = some final) : Limited final :=
  run_preserves (fun _ _ _ hlimited hstep => hlimited.step hstep) hlimited hrun

/-- The bound that follows is one cap for each memory. -/
theorem Limited.total_le {store : Store} (hlimited : Limited store) :
    store.total ≤ store.memories.length * DEFAULT_MEMORY_BYTES := by
  have hsum := List.sum_le_card_nsmul store.memories DEFAULT_MEMORY_BYTES hlimited.size
  rwa [smul_eq_mul] at hsum

/-- A guest with one memory stays below the cap. -/
theorem Limited.capped_of_single {store : Store} (hlimited : Limited store)
    (hsingle : store.memories.length ≤ 1) : Capped store := by
  calc
    store.total ≤ store.memories.length * DEFAULT_MEMORY_BYTES := hlimited.total_le
    _ ≤ 1 * DEFAULT_MEMORY_BYTES := Nat.mul_le_mul_right _ hsingle
    _ = DEFAULT_MEMORY_BYTES := Nat.one_mul _

/-- A store begins without a memory, and without a limiter or with the one of the host. -/
theorem newStore_cases (entry : Entrypoint) :
    entry.newStore = { limiter := none } ∨ entry.newStore = { limiter := some storeLimits } := by
  cases entry <;> first | exact Or.inl rfl | exact Or.inr rfl

theorem limited_empty : Limited { limiter := some storeLimits } where
  limiter := rfl
  size := by
    rintro memory ⟨⟩
  count := Nat.zero_le _

theorem capped_of_no_memories {store : Store} (hnone : store.memories.length = 0) :
    Capped store := by
  rw [Capped, Store.total, List.length_eq_zero_iff.mp hnone]
  exact Nat.zero_le _

/-- Without a limiter one memory is enough to be past the cap. -/
theorem exists_one_past_cap : ∃ final : Store,
    run Store.step { limiter := none } [.create 4097] = some final ∧
      final.memories.length = 1 ∧ ¬Capped final :=
  ⟨{ limiter := none, memories := [4097 * PAGE_BYTES] }, by decide, rfl, by unfold Capped; decide⟩

/-- With the limiter two memories are, together. -/
theorem exists_two_past_cap : ∃ final : Store,
    run Store.step { limiter := some storeLimits } [.create 4096, .create 1] = some final ∧
      final.memories.length = 2 ∧ ¬Capped final :=
  ⟨{ limiter := some storeLimits, memories := [4096 * PAGE_BYTES, PAGE_BYTES] }, by decide, rfl,
    by unfold Capped; decide⟩

/-- The guests that make at most so many memories are all kept below the cap exactly
where they make none, or where the store of the entrypoint has the limiter and they
make one. -/
theorem capped_iff_limited (entry : Entrypoint) (n : Nat) :
    (∀ requests final, run Store.step entry.newStore requests = some final →
        final.memories.length ≤ n → Capped final) ↔
      n = 0 ∨ (entry.newStore.limiter = some storeLimits ∧ n ≤ 1) := by
  constructor
  · intro hcapped
    rcases newStore_cases entry with hstore | hstore
    · obtain ⟨final, hrun, hcount, hpast⟩ := exists_one_past_cap
      rw [← hstore] at hrun
      left
      by_contra hsome
      exact hpast (hcapped _ final hrun (by omega))
    · obtain ⟨final, hrun, hcount, hpast⟩ := exists_two_past_cap
      rw [← hstore] at hrun
      right
      refine ⟨by rw [hstore], ?_⟩
      by_contra hmore
      exact hpast (hcapped _ final hrun (by omega))
  · rintro (rfl | ⟨hlimiter, hsingle⟩) requests final hrun hcount
    · exact capped_of_no_memories (Nat.le_zero.mp hcount)
    · rcases newStore_cases entry with hstore | hstore
      · rw [hstore] at hlimiter
        cases hlimiter
      · rw [hstore] at hrun
        exact (limited_empty.of_run hrun).capped_of_single (hcount.trans hsingle)

/-- A store without a limiter takes one memory past the cap, and a store with the
limiter takes two memories that are past it together. -/
theorem not_capped :
    (∃ final, run Store.step Entrypoint.instanceNew.newStore [.create 4097] = some final ∧
        ¬Capped final) ∧
      ∃ final, run Store.step Entrypoint.p3Start.newStore [.create 4096, .create 1] =
          some final ∧ ¬Capped final := by
  constructor
  · obtain ⟨final, hrun, -, hpast⟩ := exists_one_past_cap
    exact ⟨final, hrun, hpast⟩
  · obtain ⟨final, hrun, -, hpast⟩ := exists_two_past_cap
    exact ⟨final, hrun, hpast⟩

end HellohqRuntime.Limits.MemoryCap

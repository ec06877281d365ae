import HellohqRuntime.Plugin.StorageEvents
import HellohqRuntime.Plugin.StorageGuest

/-!
# The two storage hosts agree

A plugin's storage is kept in the host's memory, or in an app at the other end of a
session that keeps base64.  Both answer as a plain map, and a plain map leaves no
choice but the order of a listing.  So a guest that lists no keys cannot tell them
apart while the quota of the first has room.
-/

namespace HellohqRuntime.Plugin.StorageAgreement

open HellohqRuntime.Foundation.KeyValue
open HellohqRuntime.Foundation.Programs
open HellohqRuntime.Foundation.Runs
open HellohqRuntime.Foundation.Strings
open HellohqRuntime.Bridge.Reporting
open HellohqRuntime.Bridge.Session
open HellohqRuntime.Bridge.ServedSession
open HellohqRuntime.Plugin.Types
open HellohqRuntime.Plugin.TransportHosts
open HellohqRuntime.Plugin.ByteStorage
open HellohqRuntime.Plugin.StorageGuest
open HellohqRuntime.Plugin.StorageEvents (Conforms StorageEventsHost Within)

/-! ## A plain map leaves no choice -/

abbrev Exchanges := List (Call Text Bytes × Reply Text Bytes)

/-- What a guest is told of calls that all went through. -/
def answered (exchanges : Exchanges) : List (Call Text Bytes × Except ApiError (Reply Text Bytes)) :=
  exchanges.map fun exchange => (exchange.1, .ok exchange.2)

theorem serves_unique {store after other : Store Text Bytes} {call : Call Text Bytes}
    {reply otherReply : Reply Text Bytes} (hcall : call ≠ .listKeys)
    (hserves : Serves store call reply after) (hother : Serves store call otherReply other) :
    otherReply = reply ∧ other = after := by
  cases hserves with
  | listKeys => exact absurd rfl hcall
  | get key => cases hother; exact ⟨rfl, rfl⟩
  | set key value => cases hother; exact ⟨rfl, rfl⟩
  | delete key => cases hother; exact ⟨rfl, rfl⟩
  | clear => cases hother; exact ⟨rfl, rfl⟩

/-- From one store a guest that lists no keys has one conversation. -/
theorem conversation_unique {guest : TypedGuest} {store after other : Store Text Bytes}
    {exchanges others : Exchanges} {result otherResult : Except Text Bytes}
    (hlists : ∀ exchange ∈ exchanges, exchange.1 ≠ .listKeys)
    (hmakes : Program.Makes guest (answered exchanges) result)
    (htrace : Trace Serves store exchanges after)
    (hother : Program.Makes guest (answered others) otherResult)
    (hotherTrace : Trace Serves store others other) :
    others = exchanges ∧ otherResult = result ∧ other = after := by
  induction exchanges generalizing guest store others with
  | nil =>
      obtain rfl := eq_of_trace_nil htrace
      cases hmakes with
      | done =>
          cases others with
          | nil =>
              obtain rfl := eq_of_trace_nil hotherTrace
              cases hother with
              | done => exact ⟨rfl, rfl, rfl⟩
          | cons first rest => cases hother
  | cons exchange rest ih =>
      obtain ⟨call, reply⟩ := exchange
      obtain ⟨middle, hserves, hrest⟩ := trace_cons_iff.mp htrace
      rw [List.forall_mem_cons] at hlists
      cases hmakes with
      | ask hmore =>
          cases others with
          | nil => cases hother
          | cons first more =>
              obtain ⟨otherCall, otherReply⟩ := first
              rw [answered, List.map_cons] at hother
              obtain ⟨otherMiddle, hotherServes, hotherRest⟩ := trace_cons_iff.mp hotherTrace
              cases hother with
              | ask hotherMore =>
                  obtain ⟨rfl, rfl⟩ := serves_unique hlists.1 hserves hotherServes
                  obtain ⟨rfl, hresult, hstore⟩ := ih hlists.2 hmore hrest hotherMore hotherRest
                  exact ⟨rfl, hresult, hstore⟩

/-! ## The host in memory -/

/-- A storage call of a guest on the in-memory host. -/
def kept : Trapping StorageEventsHost (Call Text Bytes) (Except ApiError (Reply Text Bytes)) :=
  fun host call => host.perform (.storage call)

/-- What every storage call keeps of a granted host, and what it does on the plain one. -/
theorem kept_conforms (host : StorageEventsHost) (call : Call Text Bytes)
    (hhost : host.granted = true ∧ Within host.plain) :
    ∃ answer next, kept host call = some (answer, next) ∧
      (next.granted = true ∧ Within next.plain) ∧
      Conforms host.plain (.storage call) answer next.plain := by
  obtain ⟨answer, next, hperform, hgranted, hconforms⟩ :=
    StorageEventsHost.perform_conforms hhost.1 hhost.2 (.storage call)
  exact ⟨answer, next, hperform, ⟨hgranted, hconforms.within hhost.2⟩, hconforms⟩

/-- Calls that all go through are calls of the plain map. -/
theorem serves_of_conforms {host final : StorageEventsHost}
    {calls : List (Call Text Bytes × Except ApiError (Reply Text Bytes))}
    (htrace : Trace (fun host call answer next =>
      Conforms host.plain (.storage call) answer next.plain) host calls final)
    (hfits : ∀ call ∈ calls, ∃ reply, call.2 = .ok reply) :
    ∃ exchanges : Exchanges, calls = answered exchanges ∧
      Trace Serves host.plain.store exchanges final.plain.store := by
  induction htrace with
  | nil => exact ⟨[], rfl, .nil⟩
  | @snoc calls middle next call answer htrace hconforms ih =>
      obtain ⟨exchanges, rfl, hserves⟩ := ih fun earlier hearlier =>
        hfits earlier (List.mem_append_left _ hearlier)
      obtain ⟨reply, hreply⟩ := hfits (call, answer) (by simp)
      obtain rfl : answer = .ok reply := hreply
      refine ⟨exchanges ++ [(call, reply)], ?_, ?_⟩
      · simp [answered]
      · apply hserves.snoc
        generalize next.plain = after at hconforms ⊢
        cases hconforms with
        | served hcall hquota => exact hcall

/-! ## Agreement -/

/-- A guest that lists no keys and stays within the quota of the in-memory host cannot
tell it from the app behind the session: when the end of the session is known, the session
has the result that the guest has in memory, and the app holds what the memory holds. -/
theorem hosts_agree (json : Serde) (listing : Listing) (guest : TypedGuest) (drive : Drive)
    (hlossless : ∀ value ∈ documents listing guest ∅, Survives json value) (turns : List Turn)
    (final : ServedRun App)
    (hrun : run (ServedRun.step (serveStorage json listing))
      (ServedRun.start drive (guest.via (hosted json)) ∅) turns = some final)
    (hfinished : final.run.session.finished = true) :
    ∃ talk, guest.attempt kept (.new true) = some talk ∧
      ((∀ exchange ∈ talk.exchanges, ∃ reply, exchange.2 = .ok reply) →
        (∀ exchange ∈ talk.exchanges, exchange.1 ≠ .listKeys) →
        final.run.session.result = resultOf (.done talk.result) ∧
        (endings final.run.transcript).head? = some (ended talk.result) ∧
        Encodes final.app talk.state.kv.toFinmap) := by
  obtain ⟨talk, htalk, -, hmakes, htrace⟩ := Program.exists_attempt kept_conforms guest
    ⟨(rfl : (StorageEventsHost.new true).granted = true), StorageEvents.within_start⟩
  refine ⟨talk, htalk, ?_⟩
  intro hfits hlists
  obtain ⟨exchanges, hexchanges, hserves⟩ := serves_of_conforms htrace hfits
  rw [hexchanges] at hmakes hlists
  obtain ⟨-, happ, hresult, htold⟩ := (inTalk_run hrun).holds.told hfinished
  obtain ⟨hsame, hstate⟩ :=
    Program.converse_via (answering (serveStorage json listing)) (hosted json) guest ∅
  obtain ⟨others, store, hothers, hotherTrace, hencodes⟩ :=
    converse_simulates encodes_empty guest hlossless
  have hnone : ∀ exchange ∈ exchanges, exchange.1 ≠ .listKeys := by
    intro exchange hmem
    exact hlists (exchange.1, .ok exchange.2) (List.mem_map_of_mem hmem)
  obtain ⟨-, hunique, rfl⟩ := conversation_unique hnone hmakes hserves hothers hotherTrace
  refine ⟨?_, ?_, ?_⟩
  · rw [hresult, hsame, hunique]
  · rw [htold, hsame, hunique]
  · rw [happ, hstate]
    exact hencodes

/-- The guest that returns what it stored, in memory. -/
theorem keeper_kept : ∃ talk, keeper.attempt kept (.new true) = some talk ∧
    talk.exchanges = [(.set ['k'] [0xFF], .ok .done), (.get ['k'], .ok (.value (some [0xFF])))] ∧
    talk.result = .ok [0xFF] := ⟨_, rfl, rfl, rfl⟩

theorem hosts_agree_example :
    let json := sampleSerde (documents plainListing keeper ∅)
    ∃ turns final, run (ServedRun.step (serveStorage json plainListing))
        (ServedRun.start .sync (keeper.via (hosted json)) ∅) turns = some final ∧
      final.run.session.result = resultOf (.done (.ok [0xFF])) := by
  intro json
  have hlossless : ∀ value ∈ documents plainListing keeper ∅, Survives json value := by
    simp only [keeper, documents, List.forall_mem_cons]
    exact ⟨⟨_, rfl, rfl⟩, ⟨_, rfl, rfl⟩, ⟨_, rfl, rfl⟩, ⟨_, rfl, rfl⟩, by simp⟩
  obtain ⟨turns, final, hrun, hfinished⟩ := (inTalk_start .sync (keeper.via (hosted json)) ∅ :
    InTalk (serveStorage json plainListing) _ _ _).exists_finished
  obtain ⟨talk, htalk, hagree⟩ :=
    hosts_agree json plainListing keeper .sync hlossless turns final hrun hfinished
  obtain ⟨known, hknown, hexchanges, hresult⟩ := keeper_kept
  obtain rfl := Option.some.inj (htalk.symm.trans hknown)
  refine ⟨turns, final, hrun, hresult ▸ (hagree ?_ ?_).1⟩
  · rw [hexchanges]
    simp
  · rw [hexchanges]
    simp

end HellohqRuntime.Plugin.StorageAgreement

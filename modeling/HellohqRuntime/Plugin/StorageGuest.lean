import HellohqRuntime.Bridge.ServedSession
import HellohqRuntime.Plugin.ByteStorage

/-!
# A storage guest over the session

A typed guest decides each of its storage calls by the results of those before.  The
typed host turns a call into a host call on the session, and the app that keeps
strings services it.  The whole stack, with whatever order of the threads, gives the
guest what a plain map from keys to bytes would.
-/

namespace HellohqRuntime.Plugin.StorageGuest

open HellohqRuntime.Foundation.Strings
open HellohqRuntime.Foundation.Json
open HellohqRuntime.Foundation.KeyValue
open HellohqRuntime.Foundation.Programs
open HellohqRuntime.Foundation.Runs
open HellohqRuntime.Bridge.Reporting
open HellohqRuntime.Bridge.Session
open HellohqRuntime.Bridge.ServedSession
open HellohqRuntime.Plugin.Types
open HellohqRuntime.Plugin.TransportHosts
open HellohqRuntime.Plugin.ByteStorage

/-! ## Typed calls as host calls -/

/-- What a host call came to, as the typed host takes it. -/
def outcomeOf : Option Bytes → Outcome
  | some resp => .replied resp
  | none => .closedBeforeReply

/-- A typed call on the worker thread: it puts its request on the channel, if it has
one, and blocks for the response. -/
def blocking {α : Type} (called : (Bytes → Outcome) → Called α) :
    Program Bytes (Option Bytes) (Except ApiError α) :=
  match (called fun _ => .closedBeforeSend).sent with
  | none => .done (called fun _ => .closedBeforeSend).result
  | some request => .ask request fun response => .done (called fun _ => outcomeOf response).result

/-- A call without a request is over at once. -/
theorem blocking_of_silent {α : Type} {called : (Bytes → Outcome) → Called α}
    (hsent : (called fun _ => .closedBeforeSend).sent = none) :
    blocking called = .done (called fun _ => .closedBeforeSend).result := by
  rw [blocking, hsent]

theorem blocking_of_sent {α : Type} {called : (Bytes → Outcome) → Called α} {request : Bytes}
    (hsent : (called fun _ => .closedBeforeSend).sent = some request) :
    blocking called = .ask request fun response =>
      .done (called fun _ => outcomeOf response).result := by
  rw [blocking, hsent]

/-- A guest of the typed storage interface. -/
abbrev TypedGuest :=
  Program (Call Text Bytes) (Except ApiError (Reply Text Bytes)) (Except Text Bytes)

/-- A storage call of the guest, as the worker makes it. -/
def hosted (json : Serde) (call : Call Text Bytes) :
    Program Bytes (Option Bytes) (Except ApiError (Reply Text Bytes)) :=
  blocking fun roundTrip => ask json roundTrip call

/-- The app in its loop.  What it cannot read or write it answers with no bytes. -/
def serveStorage (json : Serde) (listing : Listing) : Server App Bytes Bytes :=
  fun app bytes => (app.handle json listing bytes).getD ([], app)

/-- The documents that the guest and the app exchange. -/
def documents (listing : Listing) : TypedGuest → App → List Value
  | .done _, _ => []
  | .ask call next, app =>
      let served := app.service listing (requestOf call)
      requestOf call :: served.1 ::
        documents listing (next (decodeData call ((served.1.get "data".toList).getD .null))) served.2

variable {json : Serde} {listing : Listing} {app : App} {call : Call Text Bytes}

/-- A typed call is the answer to its request. -/
theorem serveVia_hosted (hrequest : Survives json (requestOf call))
    (hreply : Survives json (app.service listing (requestOf call)).1)
    (hok : (app.service listing (requestOf call)).1.get "ok".toList = some (.bool true)) :
    Program.serveVia (answering (serveStorage json listing)) (hosted json) app call =
      (decodeData call (((app.service listing (requestOf call)).1.get "data".toList).getD .null),
        (app.service listing (requestOf call)).2) := by
  obtain ⟨bytes, hwritten, hread⟩ := hrequest
  obtain ⟨resp, hrespWritten, hrespRead⟩ := hreply
  have hserve : serveStorage json listing app bytes =
      (resp, (app.service listing (requestOf call)).2) := by
    rw [serveStorage, App.handle, hread]
    simp only [hrespWritten, Option.getD_some]
  have hsent : (ask json (fun _ => .closedBeforeSend) call).sent = some bytes := by
    rw [ask_eq, forward_of_closed hwritten rfl]
    rfl
  have hresult : (ask json (fun _ => outcomeOf (some resp)) call).result = decodeData call
      (((app.service listing (requestOf call)).1.get "data".toList).getD .null) := by
    have hforward : TransportPluginHost.forward json (fun _ => outcomeOf (some resp))
        (requestOf call) = _ :=
      @forward_of_ok json _ _ bytes resp hwritten rfl _ hrespRead hok
    rw [ask_eq, hforward]
    rfl
  have hprogram : hosted json call = .ask bytes fun response =>
      .done (ask json (fun _ => outcomeOf response) call).result := blocking_of_sent hsent
  rw [Program.serveVia, hprogram]
  simp only [Program.converse, answering, hserve, hresult, Conversation.after_result,
    Conversation.after_state]

/-! ## Simulation -/

/-- With the typed calls served, the guest makes the exchanges of a plain map. -/
theorem converse_simulates {store : Store Text Bytes} (hencodes : Encodes app store)
    (guest : TypedGuest) (hlossless : ∀ value ∈ documents listing guest app, Survives json value) :
    ∃ exchanges after,
      Program.Makes guest (exchanges.map fun exchange => (exchange.1, .ok exchange.2))
        (guest.converse (Program.serveVia (answering (serveStorage json listing)) (hosted json))
          app).result ∧
      Trace Serves store exchanges after ∧
      Encodes (guest.converse (Program.serveVia (answering (serveStorage json listing))
        (hosted json)) app).state after := by
  induction guest generalizing app store with
  | done result => exact ⟨[], store, .done result, .nil, hencodes⟩
  | ask call next ih =>
      simp only [documents, List.forall_mem_cons] at hlossless
      obtain ⟨hrequest, hreply, hrest⟩ := hlossless
      obtain ⟨hok, reply, middle, hdecode, hserves, hmiddle⟩ :=
        service_simulates listing hencodes call
      have hserved := serveVia_hosted hrequest hreply hok
      rw [hdecode] at hserved hrest
      obtain ⟨exchanges, after, hmakes, htrace, hafter⟩ := ih (.ok reply) hmiddle hrest
      refine ⟨(call, reply) :: exchanges, after, ?_, Trace.cons hserves htrace, ?_⟩
      · rw [Program.converse, hserved]
        exact .ask hmakes
      · rw [Program.converse, hserved]
        exact hafter

/-! ## The whole stack -/

/-- When the end of a typed storage session is known, the guest has had of each call the
answer of a plain map from keys to bytes, what was told is what it returned, and the
app holds the map. -/
theorem storage_session (json : Serde) (listing : Listing) (guest : TypedGuest) (drive : Drive)
    (hlossless : ∀ value ∈ documents listing guest ∅, Survives json value) (turns : List Turn)
    (final : ServedRun App)
    (hrun : run (ServedRun.step (serveStorage json listing))
      (ServedRun.start drive (guest.via (hosted json)) ∅) turns = some final)
    (hfinished : final.run.session.finished = true) :
    ∃ exchanges result store,
      Program.Makes guest (exchanges.map fun exchange => (exchange.1, .ok exchange.2)) result ∧
      Trace Serves ∅ exchanges store ∧ Encodes final.app store ∧
      final.run.session.result = resultOf (.done result) ∧
      (endings final.run.transcript).head? = some (ended result) := by
  obtain ⟨-, happ, hresult, htold⟩ := (inTalk_run hrun).holds.told hfinished
  obtain ⟨hsame, hstate⟩ :=
    Program.converse_via (answering (serveStorage json listing)) (hosted json) guest ∅
  obtain ⟨exchanges, store, hmakes, htrace, hencodes⟩ :=
    converse_simulates encodes_empty guest hlossless
  refine ⟨exchanges, _, store, hmakes, htrace, ?_, ?_, ?_⟩
  · rw [happ, hstate]
    exact hencodes
  · rw [hresult, hsame]
  · rw [htold, hsame]

/-- What a guest returns that reads a value back. -/
def readBack : Except ApiError (Reply Text Bytes) → Except Text Bytes
  | .ok (.value (some bytes)) => .ok bytes
  | _ => .error []

/-- A guest that returns what it stored. -/
def keeper : TypedGuest :=
  .ask (.set ['k'] [0xFF]) fun _ => .ask (.get ['k']) fun found => .done (readBack found)

theorem storage_session_example :
    let json := sampleSerde (documents plainListing keeper ∅)
    ∃ turns final, run (ServedRun.step (serveStorage json plainListing))
        (ServedRun.start .sync (keeper.via (hosted json)) ∅) turns = some final ∧
      ∃ exchanges result store,
        Program.Makes keeper (exchanges.map fun exchange => (exchange.1, .ok exchange.2)) result ∧
        Trace Serves ∅ exchanges store ∧ Encodes final.app store ∧
        final.run.session.result = resultOf (.done result) ∧
        (endings final.run.transcript).head? = some (ended result) := by
  intro json
  have hlossless : ∀ value ∈ documents plainListing keeper ∅, Survives json value := by
    simp only [keeper, documents, List.forall_mem_cons]
    exact ⟨⟨_, rfl, rfl⟩, ⟨_, rfl, rfl⟩, ⟨_, rfl, rfl⟩, ⟨_, rfl, rfl⟩, by simp⟩
  obtain ⟨turns, final, hrun, hfinished⟩ := (inTalk_start .sync (keeper.via (hosted json)) ∅ :
    InTalk (serveStorage json plainListing) _ _ _).exists_finished
  exact ⟨turns, final, hrun,
    storage_session json plainListing keeper .sync hlossless turns final hrun hfinished⟩

end HellohqRuntime.Plugin.StorageGuest

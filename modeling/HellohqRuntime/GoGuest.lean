import HellohqRuntime.Gate.Hiding
import HellohqRuntime.Plugin.Capstone

/-!
# A guest with everything

The store of a guest holds the capability harness and the gated hooks, and the guest
calls on both in any order it likes, each call decided by the answers so far.  Whatever
it does, each interface answers as if it were alone, nothing traps, and two worlds
behind the hooks that answer vetted requests alike, but for what the host takes off the
responses, are the same to the guest.
-/

namespace HellohqRuntime.GoGuest

open HellohqRuntime.Foundation.Programs
open HellohqRuntime.Foundation.Runs
open HellohqRuntime.Foundation.Strings
open HellohqRuntime.Gate.FetchGate
open HellohqRuntime.Gate.GatedHooks
open HellohqRuntime.Gate.Hiding
open HellohqRuntime.Gate.RequestPolicy
open HellohqRuntime.Http.Types
open HellohqRuntime.Plugin.Capstone
open HellohqRuntime.Plugin.PluginGuest (PluginCall PluginReply)
open HellohqRuntime.Plugin.StorageEvents (Capped)
open HellohqRuntime.Plugin.Types

variable {σ τ RequestParts Options ResponseParts Frame Result : Type}

/-! ## The store of a guest -/

structure GoGuestState (σ : Type) where
  httpHooks : GatedHttpHooks σ
  harness : CapstoneHarness

def GoGuestState.withOriginsAndSender (granted : Bool) (allowlist : List Text) (send : σ) :
    GoGuestState σ where
  httpHooks := .withSender allowlist send
  harness := .new granted

inductive GuestCall (RequestParts Options : Type) where
  | plugin (call : PluginCall)
  | sendRequest (request : Request RequestParts) (options : Option Options)

inductive GuestReply (ResponseParts Frame : Type) where
  | plugin (answer : Except ApiError PluginReply)
  | returned (result : SendResult ResponseParts Frame)

/-- A guest that imports `hellohq:plugin` and `wasi:http@0.2`. -/
abbrev Guest (RequestParts Options ResponseParts Frame Result : Type) :=
  Program (GuestCall RequestParts Options) (GuestReply ResponseParts Frame) Result

/-- The full linker: the capabilities go to the harness, requests to the hooks. -/
def linked (sender : SendFn σ RequestParts Options ResponseParts Frame) :
    Trapping (GoGuestState σ) (GuestCall RequestParts Options) (GuestReply ResponseParts Frame)
  | guest, .plugin call =>
      (guest.harness.perform call).map fun served =>
        (.plugin served.1, { guest with harness := served.2 })
  | guest, .sendRequest request options =>
      let exchange := sendRequest sender guest.httpHooks request options
      some (.returned exchange.returned, { guest with httpHooks := exchange.after })

/-! ## Each interface by itself -/

/-- A call of the hooks that keeps their policy. -/
def Sends (sender : SendFn σ RequestParts Options ResponseParts Frame) (allowlist : List Text)
    (hooks : GatedHttpHooks σ) (asked : Request RequestParts × Option Options)
    (result : SendResult ResponseParts Frame) (after : GatedHttpHooks σ) : Prop :=
  ∃ exchange : Exchange σ RequestParts Options ResponseParts Frame,
    Policed sender allowlist exchange ∧ exchange.before = hooks ∧
      (exchange.request, exchange.options) = asked ∧ exchange.returned = result ∧
      exchange.after = after

/-- A call on one interface, which leaves the other as it was. -/
def Serves (sender : SendFn σ RequestParts Options ResponseParts Frame) (granted : Bool)
    (allowlist : List Text) (guest : GoGuestState σ) :
    GuestCall RequestParts Options → GuestReply ResponseParts Frame → GoGuestState σ → Prop
  | .plugin call, .plugin answer, next =>
      Performs granted guest.harness.desk call answer next.harness.desk ∧
        next.httpHooks = guest.httpHooks
  | .sendRequest request options, .returned result, next =>
      Sends sender allowlist guest.httpHooks (request, options) result next.httpHooks ∧
        next.harness = guest.harness
  | _, _, _ => False

def pluginCallOf : GuestCall RequestParts Options × GuestReply ResponseParts Frame →
    Option (PluginCall × Except ApiError PluginReply)
  | (.plugin call, .plugin answer) => some (call, answer)
  | _ => none

def sendOf : GuestCall RequestParts Options × GuestReply ResponseParts Frame →
    Option ((Request RequestParts × Option Options) × SendResult ResponseParts Frame)
  | (.sendRequest request options, .returned result) => some ((request, options), result)
  | _ => none

/-- The calls of the plugin interfaces in a conversation. -/
def pluginCalls
    (talk : Conversation (GoGuestState σ) (GuestCall RequestParts Options)
      (GuestReply ResponseParts Frame) Result) : List (PluginCall × Except ApiError PluginReply) :=
  talk.exchanges.filterMap pluginCallOf

/-- The requests that a conversation hands to the hooks. -/
def sends
    (talk : Conversation (GoGuestState σ) (GuestCall RequestParts Options)
      (GuestReply ResponseParts Frame) Result) :
    List ((Request RequestParts × Option Options) × SendResult ResponseParts Frame) :=
  talk.exchanges.filterMap sendOf

/-! ## Containment -/

/-- What the store of a guest has been through when the guest is done. -/
structure Contained (sender : SendFn σ RequestParts Options ResponseParts Frame) (granted : Bool)
    (allowlist : List Text) (send : σ)
    (talk : Conversation (GoGuestState σ) (GuestCall RequestParts Options)
      (GuestReply ResponseParts Frame) Result) : Prop where
  /-- The capabilities answered as they do without the hooks. -/
  plugin : Trace (Performs granted) {} (pluginCalls talk) talk.state.harness.desk
  /-- The hooks answered as they do without the capabilities. -/
  http : Trace (Sends sender allowlist) (.withSender allowlist send) (sends talk)
    talk.state.httpHooks
  capped : Capped talk.state.harness.store
  logs : talk.state.harness.capturedLogs = (pluginCalls talk).filterMap lineOf
  events : talk.state.harness.capturedEvents =
    ((pluginCalls talk).filterMap eventOf).map fun e => (e.kind, e.payload)
  /-- Without the permission every gated call was denied and nothing is stored. -/
  ungranted : granted = false →
    (∀ call answer, (call, answer) ∈ pluginCalls talk → Gated call →
      ∃ err, answer = .error err ∧ err.code = "permission-denied".toList) ∧
    ∀ key, talk.state.harness.storedValue key = none
  /-- Without an origin every request was denied and the sender was never invoked. -/
  unreachable : allowlist = [] →
    (∀ asked result, (asked, result) ∈ sends talk → result = .error (.code .httpRequestDenied)) ∧
    talk.state.httpHooks = .withSender [] send

/-- What the guest cannot change. -/
structure Locked (granted : Bool) (allowlist : List Text) (guest : GoGuestState σ) : Prop where
  harness : CapstoneHarness.Sound granted guest.harness
  allowlist : guest.httpHooks.allowlist = allowlist

variable {sender : SendFn σ RequestParts Options ResponseParts Frame} {granted : Bool}
variable {allowlist : List Text} {send : σ} {guest : GoGuestState σ}

/-- Every call of the guest is answered, by the one interface it is on. -/
theorem linked_serves (sender : SendFn σ RequestParts Options ResponseParts Frame)
    (guest : GoGuestState σ) (call : GuestCall RequestParts Options)
    (hlocked : Locked granted allowlist guest) :
    ∃ reply next, linked sender guest call = some (reply, next) ∧ Locked granted allowlist next ∧
      Serves sender granted allowlist guest call reply next := by
  cases call with
  | plugin call =>
      obtain ⟨answer, harness, hperform, hsound, hperforms⟩ :=
        CapstoneHarness.perform_sound hlocked.harness call
      refine ⟨.plugin answer, { guest with harness }, ?_, ⟨hsound, hlocked.allowlist⟩, hperforms, rfl⟩
      rw [linked, hperform]
      rfl
  | sendRequest request options =>
      obtain ⟨hrequest, hoptions, hbefore⟩ :=
        sendRequest_fields sender guest.httpHooks request options
      have hpoliced := policed_sendRequest sender guest.httpHooks request options
      have hkept := allowlist_sendRequest sender guest.httpHooks request options
      rw [hlocked.allowlist] at hpoliced hkept
      refine ⟨_, _, rfl, ⟨hlocked.harness, hkept⟩, ⟨_, hpoliced, hbefore, ?_, rfl, rfl⟩, rfl⟩
      rw [hrequest, hoptions]

section Views

variable {calls : List (GuestCall RequestParts Options × GuestReply ResponseParts Frame)}
variable {before after : GoGuestState σ}

theorem trace_pluginCalls (htrace : Trace (Serves sender granted allowlist) before calls after) :
    Trace (Performs granted) before.harness.desk (calls.filterMap pluginCallOf)
      after.harness.desk := by
  refine htrace.project (fun guest => guest.harness.desk) pluginCallOf ?_ ?_
  · intro guest call reply next hhidden hserves
    cases call with
    | plugin call =>
        cases reply with
        | plugin answer => cases hhidden
        | returned result => cases hserves
    | sendRequest request options =>
        cases reply with
        | plugin answer => cases hserves
        | returned result => exact congrArg _ hserves.2
  · intro guest call reply next asked answer hshown hserves
    cases call with
    | plugin call =>
        cases reply with
        | plugin served =>
            cases hshown
            exact hserves.1
        | returned result => cases hserves
    | sendRequest request options => cases reply <;> cases hshown

theorem trace_sends (htrace : Trace (Serves sender granted allowlist) before calls after) :
    Trace (Sends sender allowlist) before.httpHooks (calls.filterMap sendOf) after.httpHooks := by
  refine htrace.project (fun guest => guest.httpHooks) sendOf ?_ ?_
  · intro guest call reply next hhidden hserves
    cases call with
    | plugin call =>
        cases reply with
        | plugin answer => exact hserves.2
        | returned result => cases hserves
    | sendRequest request options =>
        cases reply with
        | plugin answer => cases hserves
        | returned result => cases hhidden
  · intro guest call reply next asked answer hshown hserves
    cases call with
    | plugin call => cases reply <;> cases hshown
    | sendRequest request options =>
        cases reply with
        | plugin answer => cases hserves
        | returned result =>
            cases hshown
            exact hserves.1

end Views

theorem not_passes_nil (request : Request RequestParts) : ¬Passes [] request := by
  intro hpasses
  obtain ⟨-, horigin, -⟩ := checkRequest_eq_ok.mp hpasses.1
  simp [originAllowed] at horigin

/-- Without an origin the hooks deny every request and stay as they are. -/
theorem denied_of_sends {hooks : GatedHttpHooks σ}
    {calls : List ((Request RequestParts × Option Options) × SendResult ResponseParts Frame)}
    (htrace : Trace (Sends sender []) (.withSender [] send) calls hooks) :
    (∀ asked result, (asked, result) ∈ calls → result = .error (.code .httpRequestDenied)) ∧
      hooks = .withSender [] send := by
  induction htrace with
  | nil => exact ⟨by simp, rfl⟩
  | @snoc calls hooks next asked result htrace hsends ih =>
      obtain ⟨exchange, hpoliced, hbefore, -, hreturned, hafter⟩ := hsends
      have hsent : exchange.sent = none := by
        cases hsent : exchange.sent with
        | none => rfl
        | some sent =>
            have hpasses := hpoliced.invoked.mp (by rw [hsent]; rfl)
            exact absurd hpasses (not_passes_nil exchange.request)
      obtain ⟨hdenied, hsame⟩ := hpoliced.refused hsent
      constructor
      · intro other otherResult hmem
        rcases List.mem_append.mp hmem with hbefore | hlast
        · exact ih.1 other otherResult hbefore
        · obtain ⟨-, rfl⟩ := Prod.mk.inj (List.mem_singleton.mp hlast)
          exact hreturned.symm.trans hdenied
      · rw [← hafter, hsame, hbefore, ih.2]

/-- Whatever a guest does, in whatever order, every call is answered and the store has
kept the guest to its permission, its quotas and its origins. -/
theorem guest_contained (sender : SendFn σ RequestParts Options ResponseParts Frame)
    (granted : Bool) (allowlist : List Text) (send : σ)
    (guest : Guest RequestParts Options ResponseParts Frame Result) :
    ∃ talk, guest.attempt (linked sender) (.withOriginsAndSender granted allowlist send) =
        some talk ∧
      Program.Makes guest talk.exchanges talk.result ∧
      Contained sender granted allowlist send talk := by
  have hstart : Locked granted allowlist (.withOriginsAndSender granted allowlist send) :=
    ⟨CapstoneHarness.sound_new granted, rfl⟩
  obtain ⟨talk, hattempt, hlocked, hmakes, htrace⟩ :=
    Program.exists_attempt (linked_serves sender) guest hstart
  have hplugin : Trace (Performs granted) {} (pluginCalls talk) talk.state.harness.desk :=
    trace_pluginCalls htrace
  have hhttp : Trace (Sends sender allowlist) (.withSender allowlist send) (sends talk)
      talk.state.httpHooks := trace_sends htrace
  refine ⟨talk, hattempt, hmakes, hplugin, hhttp, hlocked.harness.within.capped,
    (desk_of_trace hplugin).1, ?_, ?_, ?_⟩
  · exact congrArg (List.map _) (desk_of_trace hplugin).2
  · rintro rfl
    refine ⟨denied_of_trace hplugin, fun key => ?_⟩
    rw [CapstoneHarness.storedValue, hlocked.harness.empty rfl]
    rfl
  · rintro rfl
    exact denied_of_sends hhttp

/-! ## What the guest learns of the world -/

/-- The request passed the gate and has only headers that a plugin may set. -/
structure Vetted (allowlist : List Text) (request : Request RequestParts) : Prop where
  passes : Passes allowlist request
  headers : ∀ name ∈ request.headers.keys, isAllowedRequestHeader name.text = true

/-- Two senders in related states give a vetted request results that differ only in what
the host takes off: the headers that set cookies, and the texts that are blanked. -/
structure Alike (allowlist : List Text)
    (sender : SendFn σ RequestParts Options ResponseParts Frame)
    (other : SendFn τ RequestParts Options ResponseParts Frame) (Rel : σ → τ → Prop) : Prop where
  responses : ∀ send echo request options, Rel send echo → Vetted allowlist request →
    AlikeSends (sender send request options).1 (other echo request options).1
  states : ∀ send echo request options, Rel send echo → Vetted allowlist request →
    Rel (sender send request options).2 (other echo request options).2

/-- Two stores that differ only in the world behind their hooks. -/
structure SameRoom (granted : Bool) (allowlist : List Text) (Rel : σ → τ → Prop)
    (guest : GoGuestState σ) (echo : GoGuestState τ) : Prop where
  locked : Locked granted allowlist guest
  harness : echo.harness = guest.harness
  allowlist : echo.httpHooks.allowlist = allowlist
  dropped : echo.httpHooks.droppedRequestHeaders = guest.httpHooks.droppedRequestHeaders
  worlds : Rel guest.httpHooks.send echo.httpHooks.send

/-- What the sender is handed is vetted. -/
theorem vetted_retain {request : Request RequestParts} (hpasses : Passes allowlist request) :
    Vetted allowlist
      { request with headers := (retainAllowedRequestHeaders request.headers).2 } where
  passes := by
    refine ⟨hpasses.1, fun name hname => hpasses.2 name ?_⟩
    exact ((mem_keys_retainAllowedRequestHeaders _ _).mp hname).1
  headers := fun name hname => ((mem_keys_retainAllowedRequestHeaders _ _).mp hname).2

variable {other : SendFn τ RequestParts Options ResponseParts Frame} {Rel : σ → τ → Prop}

theorem sendRequest_alike (halike : Alike allowlist sender other Rel) {hooks : GatedHttpHooks σ}
    {mirror : GatedHttpHooks τ} (hallowlist : hooks.allowlist = allowlist)
    (hmirror : mirror.allowlist = allowlist)
    (hdropped : mirror.droppedRequestHeaders = hooks.droppedRequestHeaders)
    (hworlds : Rel hooks.send mirror.send) (request : Request RequestParts)
    (options : Option Options) :
    (sendRequest other mirror request options).returned =
        (sendRequest sender hooks request options).returned ∧
      (sendRequest other mirror request options).after.droppedRequestHeaders =
        (sendRequest sender hooks request options).after.droppedRequestHeaders ∧
      Rel (sendRequest sender hooks request options).after.send
        (sendRequest other mirror request options).after.send := by
  have hsame : gate mirror request = gate hooks request := by
    rw [gate, gate, hallowlist, hmirror]
  rcases gate_cases hooks request with ⟨hgate, hpasses⟩ | ⟨hgate, -⟩
  · rw [hallowlist] at hpasses
    rw [sendRequest, sendRequest, hsame, hgate]
    have hvetted := vetted_retain hpasses
    refine ⟨(halike.responses _ _ _ options hworlds hvetted).sanitizeSend_eq.symm, ?_,
      halike.states _ _ _ options hworlds hvetted⟩
    simp only [sendSanitized, hdropped]
  · rw [sendRequest, sendRequest, hsame, hgate]
    exact ⟨rfl, hdropped, hworlds⟩

/-- One call does not tell the two stores apart. -/
theorem linked_indistinguishable (granted : Bool) (halike : Alike allowlist sender other Rel) :
    Program.Indistinguishable (linked sender) (linked other) (SameRoom granted allowlist Rel) := by
  intro guest echo call hroom
  cases call with
  | plugin call =>
      obtain ⟨answer, harness, hperform, hsound, -⟩ :=
        CapstoneHarness.perform_sound hroom.locked.harness call
      refine ⟨.plugin answer, { guest with harness }, { echo with harness }, ?_, ?_, ?_⟩
      · rw [linked, hperform]
        rfl
      · rw [linked, hroom.harness, hperform]
        rfl
      · exact ⟨⟨hsound, hroom.locked.allowlist⟩, rfl, hroom.allowlist, hroom.dropped, hroom.worlds⟩
  | sendRequest request options =>
      obtain ⟨hreturned, hdropped, hworlds⟩ := sendRequest_alike halike hroom.locked.allowlist
        hroom.allowlist hroom.dropped hroom.worlds request options
      refine ⟨_, _, { echo with httpHooks := (sendRequest other echo.httpHooks request options).after },
        rfl, ?_, ⟨?_, hroom.harness, ?_, hdropped, hworlds⟩⟩
      · rw [linked, hreturned]
      · exact ⟨hroom.locked.harness, (allowlist_sendRequest _ _ _ _).trans hroom.locked.allowlist⟩
      · exact (allowlist_sendRequest _ _ _ _).trans hroom.allowlist

/-- Of the world behind the hooks a guest learns nothing by cookies and by the texts that
are blanked: under two senders whose results for vetted requests differ in these only, it
makes the same calls, has the same answers and the same result, and the host captures the
same. -/
theorem guest_blind (granted : Bool) (halike : Alike allowlist sender other Rel) {send : σ}
    {echo : τ} (hworlds : Rel send echo)
    (guest : Guest RequestParts Options ResponseParts Frame Result) :
    ∃ talk mirrored,
      guest.attempt (linked sender) (.withOriginsAndSender granted allowlist send) = some talk ∧
      guest.attempt (linked other) (.withOriginsAndSender granted allowlist echo) =
        some mirrored ∧
      mirrored.exchanges = talk.exchanges ∧ mirrored.result = talk.result ∧
      mirrored.state.harness = talk.state.harness ∧
      mirrored.state.httpHooks.droppedRequestHeaders =
        talk.state.httpHooks.droppedRequestHeaders ∧
      Rel talk.state.httpHooks.send mirrored.state.httpHooks.send := by
  have hstart : SameRoom granted allowlist Rel (.withOriginsAndSender granted allowlist send)
      (.withOriginsAndSender granted allowlist echo) :=
    ⟨⟨CapstoneHarness.sound_new granted, rfl⟩, rfl, rfl, rfl, hworlds⟩
  obtain ⟨talk, mirrored, htalk, hmirrored, hexchanges, hresult, hroom⟩ :=
    (linked_indistinguishable granted halike).attempt guest hstart
  exact ⟨talk, mirrored, htalk, hmirrored, hexchanges, hresult, hroom.harness, hroom.dropped,
    hroom.worlds⟩

def setCookie : HeaderName where
  text := "set-cookie".toList
  token := by decide
  lower := by decide

/-- A world that sets a cookie, and breaks the body off with a message of its own. -/
def tellingSender (cookie : FieldValue) (message : Text) : SendFn Unit Unit Unit Unit Unit :=
  fun _ _ _ =>
    (.ok ({ headers := ⟨[(setCookie, [cookie])], by simp⟩
            body := [.ok (), .error (.code (.internalError (some message)))]
            parts := () }, .ok ()), ())

/-- A world that sets no cookie, and says nothing of what went wrong. -/
def silentSender : SendFn Unit Unit Unit Unit Unit :=
  fun _ _ _ =>
    (.ok ({ headers := ⟨[], List.nodup_nil⟩
            body := [.ok (), .error (.code (.internalError none))]
            parts := () }, .ok ()), ())

theorem alike_tellingSender (allowlist : List Text) (cookie : FieldValue) (message : Text) :
    Alike allowlist (tellingSender cookie message) silentSender fun _ _ => True where
  responses := by
    intro _ _ request options _ _
    have hcookie : AlikeHeaders ⟨[(setCookie, [cookie])], by simp⟩ ⟨[], List.nodup_nil⟩ := by
      refine @AlikeHeaders.behind _ _ [] [(setCookie, [cookie])] [] rfl rfl (by simp) ?_
      intro bucket hbucket
      obtain rfl := List.mem_singleton.mp hbucket
      exact (by decide : isStrippedResponseHeader setCookie.text = true)
    refine .ok hcookie (.cons (.ok ()) (.cons (.error ?_) .nil)) rfl (.ok ())
    exact .inr ⟨rfl, rfl, rfl⟩
  states := fun _ _ _ _ _ _ => trivial

/-- A guest that logs a line if it has a response. -/
def fetcher : Guest Unit Unit Unit Unit Bool :=
  .ask (.sendRequest (requestTo "a.com".toList) none) fun reply =>
    match reply with
    | .returned (.ok _) => .ask (.plugin (.write .info "ok".toList)) fun _ => .done true
    | _ => .done false

theorem guest_blind_example :
    ∃ talk mirrored,
      fetcher.attempt (linked (tellingSender [0x61] "token".toList))
          (.withOriginsAndSender false ["a.com".toList] ()) = some talk ∧
      fetcher.attempt (linked silentSender)
          (.withOriginsAndSender false ["a.com".toList] ()) = some mirrored ∧
      mirrored.exchanges = talk.exchanges ∧ mirrored.result = talk.result ∧
      mirrored.state.harness = talk.state.harness ∧
      mirrored.state.httpHooks.droppedRequestHeaders =
        talk.state.httpHooks.droppedRequestHeaders ∧ True :=
  guest_blind false (alike_tellingSender ["a.com".toList] [0x61] "token".toList) trivial fetcher

end HellohqRuntime.GoGuest

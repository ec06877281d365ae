import HellohqRuntime.Http.OutLog
import HellohqRuntime.Inference

/-!
# The session grammar

The OUT events of an http session should be a prefix of one word
`HEAD BODY* TRAILERS? OUT_END`, and those of an inference session one head and
the end.  Both hosts send before they look for the inbound stream, so the
grammar holds exactly of the sessions whose calls all find it.
-/

namespace HellohqRuntime.Http.SessionGrammar

open HellohqRuntime.Foundation.Runs
open HellohqRuntime.Foundation.Strings
open HellohqRuntime.Foundation.Utf8
open HellohqRuntime.Http.Frames
open HellohqRuntime.Http.Handle
open HellohqRuntime.Http.OutLog
open HellohqRuntime.Http.Resources
open HellohqRuntime.Http.System
open HellohqRuntime.Http.Types

/-- The events of a session whose one call ran to the end of its stream. -/
def sessionWord (head : Bytes) (bodies : List Bytes) (trailers : Option Bytes) : List OutEvent :=
  (sessionFrames head bodies trailers).map .out ++ [.outEnd]

/-- What was sent is a prefix of one session word. -/
def Grammatical (world : World) : Prop :=
  ∃ head bodies trailers, sent world <+: sessionWord head bodies trailers

/-- A call that finds the inbound stream taken sends nothing: not even its head. -/
def FailsSilently (world : World) : Prop :=
  ∀ call ∈ world.calls, call.inbound = none → call.head = none

/-- The request that a label hands to `handle`. -/
def handled : Label → Option Rep
  | .handle request _ _ => some request
  | _ => none

/-- A call whose head encodes finds the inbound stream in the host. -/
def FindsInbound (world : World) (label : Label) : Prop :=
  ∀ request ∈ handled label, (requestHead world.host request).isOk = true →
    (world.host.transport.bind HttpTransport.inbound).isSome = true

instance (world : World) (label : Label) : Decidable (FindsInbound world label) :=
  show Decidable (∀ request ∈ handled label, (requestHead world.host request).isOk = true →
      (world.host.transport.bind HttpTransport.inbound).isSome = true) from
    Option.decidableForallMem (handled label)

variable {world next final : World} {label : Label} {transport after : HttpTransport}
variable {calls : List Call}

/-! ## Words -/

/-- Behind its first event a word has no head. -/
theorem not_second_head {events : List OutEvent} {head other : Bytes} {bodies : List Bytes}
    {trailers : Option Bytes} (hsome : events ≠ []) :
    ¬events ++ [.out (encode .head other)] <+: sessionWord head bodies trailers := by
  intro hprefix
  cases events with
  | nil => exact hsome rfl
  | cons event rest =>
      have htail : rest ++ [.out (encode .head other)] <+:
          (bodies.map (encode .body) ++ trailers.toList.map (encode .trailers)).map .out ++
            [.outEnd] := by
        simpa [sessionWord, sessionFrames] using (List.cons_prefix_cons.mp hprefix).2
      have hmem := htail.subset (List.mem_append_right rest List.mem_cons_self)
      simp [encode_inj] at hmem

/-! ## What stays sent -/

theorem prefix_of_section {call changed : Call} (hsection : Section transport call changed after) :
    transport.out <+: after.out := by
  cases hsection with
  | body trailers => exact List.prefix_rfl
  | trailers => exact List.prefix_rfl
  | fails error => exact List.prefix_rfl
  | ends => exact List.prefix_append _ _

/-- A step only appends to what was sent. -/
theorem sessionStep_prefix (hstep : SessionStep world transport label calls after) :
    transport.out <+: after.out := by
  cases hstep with
  | quiet hlabel => exact List.prefix_rfl
  | refused error hhead => exact List.prefix_rfl
  | started head await hhead hsection =>
      exact (List.prefix_append _ _).trans (prefix_of_section hsection)
  | @batch _ chunk _ trailers hcall hawait =>
      split
      · exact List.prefix_rfl
      · exact List.prefix_append _ _
  | drained trailers hcall hawait hsection => exact prefix_of_section hsection
  | resolved hcall hawait =>
      simp only [List.append_assoc]
      exact List.prefix_append _ _
  | answered result hcall hawait => exact List.prefix_rfl

/-- The session has a transport; where its receiver is gone, something was sent. -/
def Opened (world : World) : Prop :=
  ∃ transport, world.host.transport = some transport ∧
    (transport.inbound = none → transport.out ≠ [])

theorem sessionStep_taken (hopened : transport.inbound = none → transport.out ≠ [])
    (hstep : SessionStep world transport label calls after) :
    after.inbound = none → after.out ≠ [] := by
  cases hstep with
  | quiet hlabel => exact hopened
  | refused error hhead => exact hopened
  | started head await hhead hsection =>
      intro _ hnil
      have hprefix := prefix_of_section hsection
      rw [hnil, List.prefix_nil] at hprefix
      simp [sendHead] at hprefix
  | @batch _ chunk _ trailers hcall hawait =>
      split
      · exact hopened
      · exact fun _ => List.append_ne_nil_of_right_ne_nil _ (List.cons_ne_nil _ _)
  | drained trailers hcall hawait hsection =>
      obtain ⟨-, -, -, -, hinbound⟩ := section_fields hsection
      intro htaken hnil
      have hprefix := prefix_of_section hsection
      rw [hnil, List.prefix_nil] at hprefix
      exact hopened (hinbound.symm.trans htaken) hprefix
  | resolved hcall hawait => exact fun _ => by simp
  | answered result hcall hawait => exact hopened

theorem opened_step (hopened : Opened world) (hstep : world.step label = some next) :
    Opened next := by
  obtain ⟨transport, htransport, htaken⟩ := hopened
  obtain ⟨after, hafter, hsession⟩ := session_step htransport hstep
  exact ⟨after, hafter, sessionStep_taken htaken hsession⟩

theorem prefix_of_step (hopened : Opened world) (hstep : world.step label = some next) :
    sent world <+: sent next := by
  obtain ⟨transport, htransport, -⟩ := hopened
  obtain ⟨after, hafter, hsession⟩ := session_step htransport hstep
  rw [sent_eq htransport, sent_eq hafter]
  exact sessionStep_prefix hsession

/-- A word that was left is not found again. -/
theorem not_grammatical_step (hopened : Opened world) (hleft : ¬Grammatical world)
    (hstep : world.step label = some next) : ¬Grammatical next := by
  rintro ⟨head, bodies, trailers, hprefix⟩
  exact hleft ⟨head, bodies, trailers, (prefix_of_step hopened hstep).trans hprefix⟩

/-- A call that does not find the stream sends a second head. -/
theorem not_grammatical_of_not_findsInbound (hopened : Opened world)
    (hlate : ¬FindsInbound world label) (hstep : world.step label = some next) :
    ¬Grammatical next := by
  obtain ⟨transport, htransport, htaken⟩ := hopened
  obtain ⟨after, hafter, hsession⟩ := session_step htransport hstep
  rintro ⟨head, bodies, trailers, hprefix⟩
  rw [sent_eq hafter] at hprefix
  generalize next.calls = calls at hsession
  cases hsession with
  | refused error hhead =>
      refine hlate fun request hrequest hok => ?_
      obtain rfl := Option.some.inj hrequest
      rw [hhead] at hok
      cases hok
  | started other await hhead hsection =>
      have hnone : transport.inbound = none := by
        simpa [FindsInbound, handled, hhead, htransport, Except.isOk, Except.toBool] using hlate
      exact not_second_head (htaken hnone) ((prefix_of_section hsection).trans hprefix)
  | quiet hlabel =>
      cases label with
      | handle request fault trailersFault => cases hlabel
      | _ => exact hlate nofun
  | batch trailers hcall hawait => exact hlate nofun
  | drained trailers hcall hawait hsection => exact hlate nofun
  | resolved hcall hawait => exact hlate nofun
  | answered result hcall hawait => exact hlate nofun

/-! ## Sessions with one sender -/

/-- Nobody has sent yet, or one call has. -/
def Sole (world : World) : Prop :=
  ∃ transport, Idle world transport ∨ ∃ index head call, Active world transport index head call

theorem sole_step (hsole : Sole world) (hfinds : FindsInbound world label)
    (hstep : world.step label = some next) : Sole next := by
  obtain ⟨transport, hidle | ⟨index, head, call, hactive⟩⟩ := hsole
  · obtain ⟨after, hafter, hsession⟩ := session_step hidle.bridge hstep
    cases hhandle : isHandle label with
    | false => exact ⟨after, Or.inl (idle_quiet hidle hafter hhandle rfl hsession)⟩
    | true =>
        cases label with
        | handle request fault trailersFault =>
            rcases idle_handle hidle hafter rfl hsession with
              ⟨-, hstill⟩ | ⟨head, call, -, hactive, -, -⟩
            · exact ⟨after, Or.inl hstill⟩
            · exact ⟨after, Or.inr ⟨_, head, call, hactive⟩⟩
        | _ => cases hhandle
  · obtain ⟨after, hafter, hsession⟩ := session_step hactive.bridge hstep
    have hrefused : ∀ request fault trailersFault, label = .handle request fault trailersFault →
        ∃ error, requestHead world.host request = .error error := by
      rintro request fault trailersFault rfl
      cases hhead : requestHead world.host request with
      | error error => exact ⟨error, rfl⟩
      | ok other =>
          have hpresent := hfinds request rfl (by rw [hhead]; rfl)
          simp [hactive.bridge, hactive.taken] at hpresent
    obtain ⟨changed, hchanged, -, -⟩ := active_step hactive hafter rfl hrefused hsession
    exact ⟨after, Or.inr ⟨index, head, changed, hchanged⟩⟩

/-- What a call has logged is a prefix of its word. -/
theorem prefix_of_logged {head : Bytes} {call : Call} {out : List OutEvent}
    (hlogged : Logged head call out) :
    out <+: sessionWord head (call.batches.filter fun chunk => !chunk.isEmpty)
      ((call.trailers.bind Trailers.formatRequestTrailersValue).map Foundation.Utf8.asBytes) := by
  have hsending : Sending head call out → out <+: (callFrames head call).map .out ++ [.outEnd] :=
    fun hsending => hsending.2 ▸ List.prefix_append _ _
  have hended : Ended head call out → out <+: (callFrames head call).map .out ++ [.outEnd] :=
    fun hended => hended ▸ List.prefix_rfl
  unfold Logged at hlogged
  split at hlogged
  · exact hsending hlogged
  · exact hsending hlogged
  · exact hended hlogged
  · exact hlogged.elim hsending hended

theorem grammatical_of_sole (hsole : Sole world) : Grammatical world ∧ FailsSilently world := by
  obtain ⟨transport, hidle | ⟨index, head, call, hactive⟩⟩ := hsole
  · refine ⟨⟨[], [], none, ?_⟩, fun call hcall _ => ?_⟩
    · rw [sent_eq hidle.bridge, hidle.out]
      exact List.nil_prefix
    · obtain ⟨index, hget⟩ := List.mem_iff_getElem?.mp hcall
      exact (hidle.calls index call hget).1
  · have hprefix := prefix_of_logged hactive.logged
    rw [← sent_eq hactive.bridge] at hprefix
    refine ⟨⟨_, _, _, hprefix⟩, fun other hother hnone => ?_⟩
    obtain ⟨position, hget⟩ := List.mem_iff_getElem?.mp hother
    by_cases hsame : position = index
    · subst hsame
      obtain rfl := Option.some.inj (hget.symm.trans hactive.present)
      cases hnone.symm.trans hactive.receiver
    · exact (hactive.others position other hsame hget).1

/-- An http session is grammatical, and its late calls are silent, exactly where
every call whose head encodes finds the inbound stream. -/
theorem session_iff_findsInbound {labels : List Label}
    (hrun : run World.step (World.start .withTransport) labels = some final) :
    (Grammatical final ∧ FailsSilently final) ↔
      EachStep World.step FindsInbound (World.start .withTransport) labels := by
  constructor
  · rintro ⟨hgrammatical, -⟩
    exact eachStep_of_unmarked (fun _ _ _ => opened_step)
      (fun _ _ _ => not_grammatical_of_not_findsInbound) (fun _ _ _ => not_grammatical_step)
      ⟨{}, rfl, fun hnone => by cases hnone⟩ hrun (not_not_intro hgrammatical)
  · intro hfinds
    have hstart : Sole (World.start .withTransport) :=
      ⟨{}, Or.inl ⟨rfl, rfl, rfl, fun index call hget => by simp [World.start] at hget⟩⟩
    exact grammatical_of_sole
      (run_preserves_of_eachStep (fun _ _ _ => sole_step) hstart hfinds hrun)

/-! ## Both bridges -/

/-- Sessions of either kind keep their grammar exactly where every call finds
the inbound stream. -/
theorem grammatical_iff_findsInbound {Temperature : Type} [ToString Temperature]
    {labels : List Label} {completions : List (Inference.Label Temperature)}
    {ended : Inference.Session}
    (hrun : run World.step (World.start .withTransport) labels = some final)
    (hcompletions : run Inference.Session.step Inference.Session.start completions = some ended) :
    ((Grammatical final ∧ FailsSilently final) ↔
        EachStep World.step FindsInbound (World.start .withTransport) labels) ∧
      ((Inference.Session.Grammatical ended.sent ∧
          EachStep Inference.Session.step Inference.Session.FailsSilently
            Inference.Session.start completions) ↔
        EachStep Inference.Session.step Inference.Session.FindsInbound
          Inference.Session.start completions) :=
  ⟨session_iff_findsInbound hrun, Inference.Session.session_iff_findsInbound hcompletions⟩

/-- The guest's fields, a request over them, and a call on it. -/
def oneCall (rep : Rep) : List Label :=
  [.fieldsNew, .requestNew rep none (.guest 0) none, .handle rep none none]

def oneCompletion : Inference.Label Nat :=
  .complete [{ role := "user".toList, content := "hello".toList }]
    { maxTokens := 64, temperature := none } none

/-- One call, a trailers wait that gives nothing and the response; one
completion whose stream is read to its end. -/
theorem grammatical_iff_findsInbound_example :
    ∃ final ended,
      run World.step (World.start .withTransport) (oneCall 1 ++
        [.trailersResolved 0 none, .push [0x32, 0x30, 0x30], .responseHead 0 [] none none]) =
          some final ∧
      run Inference.Session.step Inference.Session.start
        [oneCompletion, .push [0x78], .pollProduce, .pushEnd, .pollProduce] = some ended ∧
      (Grammatical final ∧ FailsSilently final) ∧
      Inference.Session.Grammatical ended.sent := by
  refine ⟨_, _, rfl, rfl, ?_⟩
  obtain ⟨hhttp, hinference⟩ := @grammatical_iff_findsInbound _ Nat _
    (oneCall 1 ++
      [.trailersResolved 0 none, .push [0x32, 0x30, 0x30], .responseHead 0 [] none none])
    [oneCompletion, .push [0x78], .pollProduce, .pushEnd, .pollProduce] _ rfl rfl
  refine ⟨hhttp.mpr (by decide), (hinference.mpr ⟨?_, trivial, trivial, trivial, trivial, trivial⟩).1⟩
  exact fun transport htransport => Option.some.inj htransport ▸ rfl

/-- Two calls of `handle` send two heads, and two completions send four events. -/
theorem not_grammatical_after_second_call :
    ∃ final ended,
      run World.step (World.start .withTransport) (oneCall 1 ++ oneCall 2) = some final ∧
      run Inference.Session.step Inference.Session.start [oneCompletion, oneCompletion] =
        some ended ∧
      ¬Grammatical final ∧ ¬FailsSilently final ∧
      ¬Inference.Session.Grammatical ended.sent := by
  let head := encode .head (asBytes "GET https:///".toList)
  have hsent : (run World.step (World.start .withTransport) (oneCall 1 ++ oneCall 2)).map sent =
      some ([.out head] ++ [.out head]) := by
    decide
  have hlength : (run Inference.Session.step Inference.Session.start
      [oneCompletion, oneCompletion]).map (fun ended => ended.sent.length) = some 4 := by
    decide
  obtain ⟨ended, hended⟩ : ∃ ended, run Inference.Session.step Inference.Session.start
      [oneCompletion, oneCompletion] = some ended := ⟨_, rfl⟩
  rw [hended] at hlength
  have hlong : ended.sent.length = 4 := Option.some.inj hlength
  refine ⟨_, ended, rfl, hended, ?_, ?_, ?_⟩
  · rintro ⟨other, bodies, trailers, hprefix⟩
    rw [Option.some.inj hsent] at hprefix
    exact not_second_head (List.cons_ne_nil _ _) hprefix
  · intro hsilent
    cases hsilent _ (List.mem_cons_of_mem _ List.mem_cons_self) rfl
  · rintro (hnil | ⟨other, hone⟩)
    · simp [hnil] at hlong
    · simp [hone] at hlong

end HellohqRuntime.Http.SessionGrammar

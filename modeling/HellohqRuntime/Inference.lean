import HellohqRuntime.Foundation.Runs
import HellohqRuntime.Foundation.Utf8
import HellohqRuntime.Http.Resources

/-!
# `inference.complete`

The inference host sends the request head, ends the outbound stream at once and
hands the inbound stream to a token producer.  A session is any sequence of
calls of the guest, reads of its token stream and pushes of the caller.
-/

namespace HellohqRuntime.Inference

open HellohqRuntime.Foundation.Runs
open HellohqRuntime.Foundation.Strings
open HellohqRuntime.Foundation.Utf8
open HellohqRuntime.Http.Resources

variable {Temperature : Type}

structure ChatMessage where
  role : Text
  content : Text
  deriving DecidableEq, Repr

/-- The temperature is a float of the host language, shown by its `to_string`. -/
structure InferenceOpts (Temperature : Type) where
  maxTokens : UInt32
  temperature : Option Temperature

structure ApiError where
  code : Text
  message : Text
  deriving DecidableEq, Repr

structure InferenceTransport where
  out : List OutEvent := []
  inbound : Option P3sIn := some .receiver

structure InferenceHost where
  transport : Option InferenceTransport := none

def InferenceHost.withTransport : InferenceHost := { transport := some {} }

/-- The producer behind the guest's `stream<string>`. -/
structure TokenProducer where
  inbound : P3sIn
  deriving DecidableEq, Repr

/-! ## The request head -/

def pushMessage (head : Text) (m : ChatMessage) : Text :=
  head ++ m.role ++ "\n".toList ++ m.content ++ "\n---\n".toList

def requestHead [ToString Temperature] (messages : List ChatMessage)
    (opts : InferenceOpts Temperature) : Text :=
  let temperature := match opts.temperature with
    | some t => (toString t).toList
    | none => "default".toList
  messages.foldl pushMessage
    ("opts: max-tokens=".toList ++ Nat.toDigits 10 opts.maxTokens.toNat ++ " temperature=".toList ++
      temperature ++ "\n".toList)

/-! ## The call -/

def notFound (message : Text) : ApiError := { code := "not-found".toList, message }

def transportMissing : ApiError := notFound "inference: transport missing".toList

def inboundConsumed : ApiError := notFound "inference: inbound stream already consumed".toList

def mintFailed (e : Text) : ApiError :=
  notFound ("inference: failed to mint token stream: ".toList ++ e)

/-- The head and the end go out before the inbound stream is looked at; minting
the token stream can fail, with the message in `fault`. -/
def complete [ToString Temperature] (host : InferenceHost) (messages : List ChatMessage)
    (opts : InferenceOpts Temperature) (fault : Option Text) :
    Except ApiError TokenProducer × InferenceHost :=
  match host.transport with
  | none => (.error transportMissing, host)
  | some transport =>
      let head := requestHead messages opts
      let sent : InferenceTransport :=
        { out := transport.out ++ [.out (asBytes head), .outEnd], inbound := none }
      match transport.inbound, fault with
      | none, _ => (.error inboundConsumed, { transport := some sent })
      | some _, some e => (.error (mintFailed e), { transport := some sent })
      | some inbound, none => (.ok { inbound }, { transport := some sent })

/-! ## Sessions -/

structure Session where
  host : InferenceHost
  /-- The producer of the stream the guest holds. -/
  producer : Option TokenProducer := none
  tokens : List Text := []
  /-- Frames pushed and not read yet. -/
  inbound : List Bytes := []
  inboundOpen : Bool := true

def Session.start : Session := { host := .withTransport }

inductive Label (Temperature : Type) where
  | complete (messages : List ChatMessage) (opts : InferenceOpts Temperature) (fault : Option Text)
  /-- The runtime asks the producer for the next token. -/
  | pollProduce
  | push (frame : Bytes)
  | pushEnd

namespace Session

/-- One frame is one token; a closed stream drops the producer. -/
def pollProduce (session : Session) : Option Session :=
  match session.inbound, session.inboundOpen with
  | frame :: rest, _ =>
      some { session with tokens := session.tokens ++ [fromUtf8Lossy frame], inbound := rest }
  | [], false => some { session with producer := none }
  | [], true => none

def step [ToString Temperature] (session : Session) : Label Temperature → Option Session
  | .complete messages opts fault =>
      let completed := Inference.complete session.host messages opts fault
      some { session with
        host := completed.2
        producer := match completed.1 with
          | .ok producer => some producer
          | .error _ => session.producer }
  | .pollProduce => if session.producer.isSome then session.pollProduce else none
  | .push frame =>
      some { session with
        inbound := if session.inboundOpen then session.inbound ++ [frame] else session.inbound }
  | .pushEnd => some { session with inboundOpen := false }

/-- The OUT events of the session so far. -/
def sent (session : Session) : List OutEvent :=
  (session.host.transport.map InferenceTransport.out).getD []

/-- The call finds the inbound stream in the host. -/
def FindsInbound (session : Session) : Label Temperature → Prop
  | .complete _ _ _ => ∀ transport ∈ session.host.transport, transport.inbound.isSome = true
  | _ => True

/-- A call that fails because the inbound stream is gone sends nothing. -/
def FailsSilently [ToString Temperature] (session : Session) : Label Temperature → Prop
  | .complete messages opts fault =>
      (Inference.complete session.host messages opts fault).1 = .error inboundConsumed →
        (Inference.complete session.host messages opts fault).2.transport = session.host.transport
  | _ => True

/-- At most one head frame, followed by the end. -/
def Grammatical (events : List OutEvent) : Prop :=
  events = [] ∨ ∃ head, events = [.out head, .outEnd]

variable [ToString Temperature] {session next final : Session} {label : Label Temperature}

/-- Only `complete` touches the transport. -/
theorem step_cases (hstep : session.step label = some next) :
    next.host = session.host ∨
      ∃ messages opts fault, label = .complete messages opts fault ∧
        next.host = (Inference.complete session.host messages opts fault).2 := by
  cases label with
  | complete messages opts fault =>
      obtain rfl := Option.some.inj hstep
      exact Or.inr ⟨messages, opts, fault, rfl, rfl⟩
  | pollProduce =>
      refine Or.inl ?_
      simp only [step, Option.ite_none_right_eq_some] at hstep
      obtain ⟨-, hpoll⟩ := hstep
      unfold pollProduce at hpoll
      split at hpoll
      · exact Option.some.inj hpoll ▸ rfl
      · exact Option.some.inj hpoll ▸ rfl
      · cases hpoll
  | push frame => exact Or.inl (Option.some.inj hstep ▸ rfl)
  | pushEnd => exact Or.inl (Option.some.inj hstep ▸ rfl)

/-- A call over a transport sends a head and the end, and leaves no receiver. -/
theorem complete_transport {host : InferenceHost} {transport : InferenceTransport}
    (htransport : host.transport = some transport) (messages : List ChatMessage)
    (opts : InferenceOpts Temperature) (fault : Option Text) :
    (Inference.complete host messages opts fault).2.transport =
      some { out := transport.out ++ [.out (asBytes (requestHead messages opts)), .outEnd]
             inbound := none } := by
  simp only [Inference.complete, htransport]
  cases transport.inbound with
  | none => rfl
  | some inbound => cases fault <;> rfl

/-- The error of a failed mint is not the one of a missing stream. -/
theorem mintFailed_ne_inboundConsumed (e : Text) : mintFailed e ≠ inboundConsumed := by
  intro heq
  have hmessage := (ApiError.mk.inj heq).2
  simp at hmessage

/-- A call that finds the stream does not fail for want of it. -/
theorem failsSilently_of_findsInbound (hfinds : FindsInbound session label) :
    FailsSilently session label := by
  cases label with
  | complete messages opts fault =>
      intro hfails
      unfold Inference.complete at hfails ⊢
      cases htransport : session.host.transport with
      | none => simp [htransport]
      | some transport =>
          have hsome := hfinds transport htransport
          obtain ⟨inbound, hinbound⟩ := Option.isSome_iff_exists.mp hsome
          rw [htransport] at hfails
          simp only [hinbound] at hfails
          cases fault with
          | none => cases hfails
          | some e => exact absurd (Except.error.inj hfails) (mintFailed_ne_inboundConsumed e)
  | pollProduce => exact trivial
  | push frame => exact trivial
  | pushEnd => exact trivial

/-- Nothing was sent while the stream is there; behind that, at least one head
and its end. -/
def Opened (session : Session) : Prop :=
  ∃ transport, session.host.transport = some transport ∧
    ((transport.inbound.isSome = true ∧ transport.out = []) ∨
      (transport.inbound = none ∧ 2 ≤ transport.out.length))

theorem opened_start : Opened Session.start := ⟨{}, rfl, Or.inl ⟨rfl, rfl⟩⟩

theorem opened_step (hopened : session.Opened) (hstep : session.step label = some next) :
    next.Opened := by
  obtain ⟨transport, htransport, hbefore⟩ := hopened
  rcases step_cases hstep with hsame | ⟨messages, opts, fault, -, hnext⟩
  · exact ⟨transport, hsame ▸ htransport, hbefore⟩
  · exact ⟨_, hnext ▸ complete_transport htransport messages opts fault,
      Or.inr ⟨rfl, by simp⟩⟩

/-- What was sent stays sent. -/
theorem length_sent_step (hopened : session.Opened) (hstep : session.step label = some next) :
    session.sent.length ≤ next.sent.length := by
  obtain ⟨transport, htransport, -⟩ := hopened
  rcases step_cases hstep with hsame | ⟨messages, opts, fault, -, hnext⟩
  · rw [sent, sent, hsame]
  · rw [sent, sent, htransport, hnext, complete_transport htransport messages opts fault]
    simp

/-- A call without the stream sends a second head. -/
theorem length_sent_of_not_findsInbound (hopened : session.Opened)
    (hlate : ¬FindsInbound session label) (hstep : session.step label = some next) :
    2 < next.sent.length := by
  obtain ⟨transport, htransport, hbefore⟩ := hopened
  cases label with
  | complete messages opts fault =>
      obtain rfl := Option.some.inj hstep
      rcases hbefore with ⟨hsome, -⟩ | ⟨-, hlength⟩
      · refine absurd (fun other hother => ?_) hlate
        obtain rfl := Option.some.inj (htransport.symm.trans hother)
        exact hsome
      · rw [sent, complete_transport htransport messages opts fault]
        simp only [Option.map_some, Option.getD_some, List.length_append, List.length_cons,
          List.length_nil]
        omega
  | pollProduce => exact absurd trivial hlate
  | push frame => exact absurd trivial hlate
  | pushEnd => exact absurd trivial hlate

/-- What a session has sent while every call found the stream. -/
def OnceSent (session : Session) : Prop :=
  ∃ transport, session.host.transport = some transport ∧ Grammatical transport.out ∧
    (transport.inbound.isSome = true → transport.out = [])

theorem onceSent_step (honce : session.OnceSent) (hfinds : FindsInbound session label)
    (hstep : session.step label = some next) : next.OnceSent := by
  obtain ⟨transport, htransport, hgrammatical, hempty⟩ := honce
  rcases step_cases hstep with hsame | ⟨messages, opts, fault, rfl, hnext⟩
  · exact ⟨transport, hsame ▸ htransport, hgrammatical, hempty⟩
  · refine ⟨_, hnext ▸ complete_transport htransport messages opts fault, ?_, by simp⟩
    rw [hempty (hfinds transport htransport)]
    exact Or.inr ⟨_, rfl⟩

/-- Exactly where every call finds the inbound stream, a session sends at most
one head with its end, and a call that fails for want of the stream is silent. -/
theorem session_iff_findsInbound {labels : List (Label Temperature)}
    (hrun : run step Session.start labels = some final) :
    (Grammatical final.sent ∧ EachStep step FailsSilently Session.start labels) ↔
      EachStep step FindsInbound Session.start labels := by
  constructor
  · rintro ⟨hgrammatical, -⟩
    refine eachStep_of_unmarked (fun _ _ _ => opened_step)
      (fun _ _ _ => length_sent_of_not_findsInbound)
      (fun _ _ _ hopened hmarked hstep => hmarked.trans_le (length_sent_step hopened hstep))
      opened_start hrun ?_
    rcases hgrammatical with hnil | ⟨head, hone⟩
    · simp [hnil]
    · simp [hone]
  · intro hfinds
    obtain ⟨transport, htransport, hgrammatical, -⟩ : final.OnceSent :=
      run_preserves_of_eachStep (fun _ _ _ => onceSent_step)
        ⟨{}, rfl, Or.inl rfl, fun _ => rfl⟩ hfinds hrun
    refine ⟨?_, hfinds.mono fun _ _ => failsSilently_of_findsInbound⟩
    rw [sent, htransport]
    exact hgrammatical

end Session

end HellohqRuntime.Inference

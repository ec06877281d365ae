import Mathlib.Data.List.Basic

/-!
# Channels

An unbounded first-in first-out channel with a sending and a receiving side.
A receiver waits while the channel is empty and somebody can still send; a sender
learns that nobody receives.  Dropping the receiving side discards what is queued.
A oneshot carries one value, from a responder to one waiter.
-/

namespace HellohqRuntime.Foundation.Channels

variable {α β : Type*}

structure Channel (α : Type*) where
  queue : List α := []
  /-- The sending side is alive. -/
  sending : Bool := true
  /-- The receiving side is alive. -/
  receiving : Bool := true

inductive Received (α : Type*) where
  | value (value : α) (channel : Channel α)
  | pending
  | disconnected

def Received.map (f : α → β) : Received α → Received β
  | .value first rest => .value (f first) { rest with queue := rest.queue.map f }
  | .pending => .pending
  | .disconnected => .disconnected

namespace Channel

/-- Queue a value; where nobody receives the value stays with the sender. -/
def send (channel : Channel α) (value : α) : Option (Channel α) :=
  if channel.receiving then some { channel with queue := channel.queue ++ [value] } else none

def receive (channel : Channel α) : Received α :=
  match channel.queue, channel.sending with
  | value :: rest, _ => .value value { channel with queue := rest }
  | [], true => .pending
  | [], false => .disconnected

def dropSender (channel : Channel α) : Channel α := { channel with sending := false }

def dropReceiver (channel : Channel α) : Channel α :=
  { channel with queue := [], receiving := false }

/-- The channel with every value behind a function. -/
def map (f : α → β) (channel : Channel α) : Channel β :=
  { channel with queue := channel.queue.map f }

variable {channel next : Channel α} {value : α}

@[simp] theorem dropSender_queue : channel.dropSender.queue = channel.queue := rfl

@[simp] theorem dropSender_sending : channel.dropSender.sending = false := rfl

@[simp] theorem dropSender_receiving : channel.dropSender.receiving = channel.receiving := rfl

@[simp] theorem dropReceiver_queue : channel.dropReceiver.queue = [] := rfl

@[simp] theorem dropReceiver_sending : channel.dropReceiver.sending = channel.sending := rfl

@[simp] theorem dropReceiver_receiving : channel.dropReceiver.receiving = false := rfl

theorem send_eq_some :
    channel.send value = some next ↔
      channel.receiving = true ∧ next = { channel with queue := channel.queue ++ [value] } := by
  rw [send, Option.ite_none_right_eq_some, Option.some.injEq, @eq_comm _ next]

theorem send_eq_none : channel.send value = none ↔ channel.receiving = false := by
  cases hreceiving : channel.receiving <;> simp [send, hreceiving]

/-- The oldest value is received. -/
theorem receive_eq_value :
    channel.receive = .value value next ↔
      ∃ rest, channel.queue = value :: rest ∧ next = { channel with queue := rest } := by
  obtain ⟨queue, sending, receiving⟩ := channel
  cases queue with
  | nil => cases sending <;> simp [receive]
  | cons first more => simp [receive, eq_comm]

theorem receive_eq_pending :
    channel.receive = .pending ↔ channel.queue = [] ∧ channel.sending = true := by
  obtain ⟨queue, sending, receiving⟩ := channel
  cases queue <;> cases sending <;> simp [receive]

theorem receive_eq_disconnected :
    channel.receive = .disconnected ↔ channel.queue = [] ∧ channel.sending = false := by
  obtain ⟨queue, sending, receiving⟩ := channel
  cases queue <;> cases sending <;> simp [receive]

@[simp] theorem map_queue (f : α → β) : (channel.map f).queue = channel.queue.map f := rfl

@[simp] theorem map_sending (f : α → β) : (channel.map f).sending = channel.sending := rfl

@[simp] theorem map_receiving (f : α → β) : (channel.map f).receiving = channel.receiving := rfl

theorem map_dropSender (f : α → β) : channel.dropSender.map f = (channel.map f).dropSender := rfl

theorem map_send (f : α → β) :
    (channel.send value).map (map f) = (channel.map f).send (f value) := by
  cases hreceiving : channel.receiving <;> simp [send, map, hreceiving]

/-- Whether or not somebody receives. -/
theorem map_getD_send (f : α → β) :
    ((channel.send value).getD channel).map f =
      ((channel.map f).send (f value)).getD (channel.map f) := by
  rw [← map_send, Option.getD_map]

theorem map_receive (f : α → β) : (channel.map f).receive = channel.receive.map f := by
  obtain ⟨queue, sending, receiving⟩ := channel
  cases queue <;> cases sending <;> rfl

end Channel

inductive Oneshot (α : Type*) where
  | pending
  | answered (value : α)
  /-- The responder was dropped. -/
  | cancelled
  /-- The waiter was dropped before the answer. -/
  | abandoned
  deriving DecidableEq, Repr

namespace Oneshot

variable {oneshot : Oneshot α} {value : α}

def send (value : α) : Oneshot α → Oneshot α
  | .pending => .answered value
  | other => other

def dropSender : Oneshot α → Oneshot α
  | .pending => .cancelled
  | other => other

def dropReceiver : Oneshot α → Oneshot α
  | .pending => .abandoned
  | other => other

/-- What a waiter is woken with: the answer, or that there will be none. -/
def outcome : Oneshot α → Option (Option α)
  | .answered value => some (some value)
  | .cancelled => some none
  | _ => none

theorem send_of_settled (hsettled : oneshot ≠ .pending) : oneshot.send value = oneshot := by
  cases oneshot <;> first | rfl | exact (hsettled rfl).elim

theorem dropSender_of_settled (hsettled : oneshot ≠ .pending) : oneshot.dropSender = oneshot := by
  cases oneshot <;> first | rfl | exact (hsettled rfl).elim

theorem outcome_eq_answer : oneshot.outcome = some (some value) ↔ oneshot = .answered value := by
  cases oneshot <;> simp [outcome]

theorem dropSender_ne_pending : oneshot.dropSender ≠ .pending := by
  cases oneshot <;> nofun

theorem dropReceiver_ne_pending : oneshot.dropReceiver ≠ .pending := by
  cases oneshot <;> nofun

end Oneshot

end HellohqRuntime.Foundation.Channels

import WirelessCharging.Request
/-!
The bounded queue in which a module receives its envelopes. It takes envelopes until it is closed; a closed
inbox keeps what it holds until it is discarded. That it is closed is told before that it is full.
-/
namespace WirelessCharging

inductive InboxState where
  | receiving
  | closed
  | discarded
  deriving DecidableEq, Repr

structure Inbox where
  capacity : Nat
  state : InboxState := .receiving
  queue : List Envelope := []
  deriving DecidableEq, Repr

namespace Inbox

/-- No inbox can be made larger: one less than the sixty-first power of two. -/
def greatestCapacity : Nat := 2305843009213693951

/-- Room for one envelope is the least that is made. -/
def ofCapacity? (requested : Nat) : Option Inbox :=
  let capacity := max 1 requested
  if capacity ≤ greatestCapacity then some { capacity } else none

def isReceiving (inbox : Inbox) : Bool := inbox.state == .receiving

def post (inbox : Inbox) (envelope : Envelope) : Except Refusal Inbox :=
  if !inbox.isReceiving then .error .moduleStopped
  else if inbox.capacity ≤ inbox.queue.length then .error .inboxFull
  else .ok { inbox with queue := inbox.queue ++ [envelope] }

def take? (inbox : Inbox) : Option (Envelope × Inbox) :=
  match inbox.queue with
  | [] => none
  | envelope :: queue => some (envelope, { inbox with queue })

def close (inbox : Inbox) : Inbox := { inbox with state := .closed }

def discard (inbox : Inbox) : Inbox := { inbox with state := .discarded, queue := [] }

/-- The subscribers that waiting enable requests hold on to. -/
def holds (inbox : Inbox) (subscriber : SubscriberRef) : Bool :=
  inbox.queue.contains (.request (.enable subscriber))

theorem eq_of_ofCapacity? {requested : Nat} {inbox : Inbox} (made : ofCapacity? requested = some inbox) :
    inbox = { capacity := max 1 requested } := by
  unfold ofCapacity? at made
  dsimp only at made
  split at made
  · exact (Option.some.inj made).symm
  · simp at made

theorem post_eq_ok {inbox after : Inbox} {envelope : Envelope} :
    inbox.post envelope = .ok after ↔ inbox.isReceiving = true ∧ inbox.queue.length < inbox.capacity ∧
      after = { inbox with queue := inbox.queue ++ [envelope] } := by
  unfold post
  cases shut : inbox.isReceiving with
  | false => simp
  | true =>
    by_cases full : inbox.capacity ≤ inbox.queue.length
    · simp [full, Nat.not_lt.2 full]
    · simp only [Bool.not_true, Bool.false_eq_true, if_false, full, Except.ok.injEq, true_and]
      exact ⟨fun h => ⟨Nat.lt_of_not_le full, h.symm⟩, fun h => h.2.symm⟩

theorem take?_eq_some {inbox after : Inbox} {envelope : Envelope} :
    inbox.take? = some (envelope, after) ↔ inbox = { after with queue := envelope :: after.queue } := by
  obtain ⟨capacity, state, queue⟩ := inbox
  obtain ⟨capacity', state', queue'⟩ := after
  cases queue with
  | nil => simp [take?]
  | cons first rest =>
    simp only [take?, Option.some.injEq, Prod.mk.injEq, Inbox.mk.injEq, List.cons.injEq]
    constructor
    · rintro ⟨rfl, rfl, rfl, rfl⟩
      exact ⟨rfl, rfl, rfl, rfl⟩
    · rintro ⟨rfl, rfl, rfl, rfl⟩
      exact ⟨rfl, rfl, rfl, rfl⟩

theorem length_post (inbox : Inbox) {envelope : Envelope} {after : Inbox}
    (h : inbox.post envelope = .ok after) : after.queue.length = inbox.queue.length + 1 := by
  unfold post at h
  split at h
  · simp at h
  · split at h
    · simp at h
    · simp only [Except.ok.injEq] at h
      simp [← h]

theorem length_take (inbox : Inbox) {envelope : Envelope} {after : Inbox}
    (h : inbox.take? = some (envelope, after)) :
    inbox.queue.length = after.queue.length + 1 := by
  unfold take? at h
  split at h
  · simp at h
  · rename_i queue waiting
    simp only [Option.some.injEq, Prod.mk.injEq] at h
    simp [← h.2, waiting]

end Inbox

end WirelessCharging

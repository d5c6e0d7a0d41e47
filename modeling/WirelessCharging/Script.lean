import WirelessCharging.Radio
import WirelessCharging.Request
/-!
What callers, subscribers, devices and hooks do: the actions of the public interface, in finite scripts.
An action may itself install scripts, so scripts nest, but no script runs another one.
-/
namespace WirelessCharging

/-- A recorder hears every event and reacts to some; the others hear starts only, or nothing. -/
inductive SubscriberKind where
  | recorder
  | startsOnly
  | silent
  deriving DecidableEq, Repr

def SubscriberKind.hears : SubscriberKind → EventKind → Bool
  | .recorder, _ => true
  | .startsOnly, kind => kind == .startResult
  | .silent, _ => false

/-- New readings of a device; what is not given stays. -/
structure ReadingsChange where
  flags : Option DeviceFlags := none
  state : Option DiscoveryState := none
  discoveryFlags : Option DiscoveryFlags := none
  readerBusy : Option Bool := none
  protocol : Option (Option RfProtocol) := none
  deriving DecidableEq, Repr

def Readings.changed (readings : Readings) (change : ReadingsChange) : Readings where
  flags := change.flags.getD readings.flags
  discovery :=
    { state := change.state.getD readings.discovery.state
      flags := change.discoveryFlags.getD readings.discovery.flags }
  readerBusy := change.readerBusy.getD readings.readerBusy
  protocol := change.protocol.getD readings.protocol

inductive Action where
  | enable (module : String) (subscriber : Option String)
  | start (module : String) (mode : UInt8)
  | transfer (module : String) (power duration : UInt8)
  | notify (module : String) (notification : Notification)
  | reply (transfer : Nat) (notification : Notification)
  | setDevice (device : String) (change : ReadingsChange) (onTransfer : Option (List (List Action)))
  | subscribe (subscriber : String) (kind : SubscriberKind)
      (reactions : List (EventKind × List Action))
  | release (subscriber : String)
  | query (module runtime : String) (id : ModuleId)

abbrev Script := List Action

abbrev Reaction := EventKind × Script

mutual

/-- How many envelopes an action may post, now or through the scripts that it installs. -/
def Action.posts : Action → Nat
  | .enable _ _ => 1
  | .start _ _ => 1
  | .transfer _ _ _ => 1
  | .notify _ _ => 1
  | .reply _ _ => 1
  | .setDevice _ _ none => 0
  | .setDevice _ _ (some scripts) => scriptsPosts scripts
  | .subscribe _ _ reactions => reactionsPosts reactions
  | .release _ => 0
  | .query _ _ _ => 0

def scriptPosts : List Action → Nat
  | [] => 0
  | action :: actions => action.posts + scriptPosts actions

def scriptsPosts : List (List Action) → Nat
  | [] => 0
  | script :: scripts => scriptPosts script + scriptsPosts scripts

def reactionsPosts : List (EventKind × List Action) → Nat
  | [] => 0
  | (_, script) :: reactions => scriptPosts script + reactionsPosts reactions

end

inductive Tag where
  | absent
  | number (value : Int)
  | text (value : String)
  deriving DecidableEq, Repr

/-- A hook runs its script on being called and then takes its time, in milliseconds. -/
structure Hook where
  tag : Tag := .absent
  script : Script := []
  delay : Nat := 0

inductive HookKind where
  | beforeStart
  | afterStop
  deriving DecidableEq, Repr

/-- The first reaction to an event of this kind, taken out of the others. -/
def takeReaction (kind : EventKind) : List Reaction → Option (Script × List Reaction)
  | [] => none
  | reaction :: rest =>
    if reaction.1 = kind then some (reaction.2, rest)
    else (takeReaction kind rest).map fun (script, others) => (script, reaction :: others)

theorem takeReaction_posts {kind : EventKind} {reactions others : List Reaction} {script : Script}
    (h : takeReaction kind reactions = some (script, others)) :
    reactionsPosts reactions = scriptPosts script + reactionsPosts others := by
  induction reactions generalizing others with
  | nil => simp [takeReaction] at h
  | cons reaction rest ih =>
    unfold takeReaction at h
    split at h
    · simp only [Option.some.injEq, Prod.mk.injEq] at h
      obtain ⟨rfl, rfl⟩ := h
      rfl
    · obtain ⟨⟨taken, left⟩, found, eq⟩ := Option.map_eq_some_iff.1 h
      simp only [Prod.mk.injEq] at eq
      obtain ⟨rfl, rfl⟩ := eq
      have := ih found
      simp only [reactionsPosts]
      omega

end WirelessCharging

import WirelessCharging.Text.Digits
import WirelessCharging.Text.Shape
/-!
What a subscriber hears: the outcome of an enable, of a start or of the start of a power transfer, and
the condition under which a transfer ended. The last two begin as notifications of the device.
-/
namespace WirelessCharging

inductive Outcome where
  | ok
  | failed
  | invalidParam
  deriving DecidableEq, Repr

namespace Outcome

def isOk : Outcome → Bool
  | .ok => true
  | .failed => false
  | .invalidParam => false

def label : Outcome → String
  | .ok => "Ok"
  | .failed => "Failed"
  | .invalidParam => "InvalidParam"

end Outcome

inductive EventKind where
  | enableResult
  | startResult
  | transferResult
  | chargingResult
  deriving DecidableEq, Repr

namespace EventKind

def label : EventKind → String
  | .enableResult => "EnableResult"
  | .startResult => "StartResult"
  | .transferResult => "StartWptResult"
  | .chargingResult => "ChargingResult"

def name : EventKind → String
  | .enableResult => "NFA_WLC_ENABLE_RESULT_EVT"
  | .startResult => "NFA_WLC_START_RESULT_EVT"
  | .transferResult => "NFA_WLC_START_WPT_RESULT_EVT"
  | .chargingResult => "NFA_WLC_CHARGING_RESULT_EVT"

end EventKind

inductive Event where
  | enableResult (outcome : Outcome)
  | startResult (outcome : Outcome)
  | transferResult (outcome : Outcome)
  | chargingResult (condition : UInt8)
  deriving DecidableEq, Repr

namespace Event

def kind : Event → EventKind
  | .enableResult _ => .enableResult
  | .startResult _ => .startResult
  | .transferResult _ => .transferResult
  | .chargingResult _ => .chargingResult

/-- The outcome that an event reports, or the end condition of a transfer. -/
def detail : Event → Outcome ⊕ UInt8
  | .enableResult outcome => .inl outcome
  | .startResult outcome => .inl outcome
  | .transferResult outcome => .inl outcome
  | .chargingResult condition => .inr condition

def text (event : Event) : String :=
  event.kind.name ++ " (" ++
    (match event.detail with
      | .inl outcome => outcome.label
      | .inr condition => "end condition " ++ hex 2 condition.toNat) ++ ")"

def shape (event : Event) : Shape :=
  .tuple event.kind.label
    [.word (match event.detail with
      | .inl outcome => outcome.label
      | .inr condition => toString condition.toNat)]

end Event

inductive Notification where
  | started (outcome : Outcome)
  | ended (condition : UInt8)
  deriving DecidableEq, Repr

def Notification.event : Notification → Event
  | .started outcome => .transferResult outcome
  | .ended condition => .chargingResult condition

end WirelessCharging

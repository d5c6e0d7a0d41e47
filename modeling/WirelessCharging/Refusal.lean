import WirelessCharging.Event
import WirelessCharging.Mode
import WirelessCharging.ModuleId
/-!
Why a call is turned down at once. A refusal is known when the call returns; what becomes of an accepted
request is told by events.
-/
namespace WirelessCharging

inductive Refusal where
  | missingSubscriber
  | unsupportedMode (mode : ChargingMode)
  | unknownMode (raw : UInt8)
  | invalidPower (raw : UInt8)
  | invalidDuration (raw : UInt8)
  | unknownEvent (code : UInt16)
  | inboxFull
  | moduleStopped
  | alreadyRegistered (id : ModuleId)
  deriving DecidableEq, Repr

/-- What is at fault: the arguments, the room in the inbox, or the capability asked for. -/
inductive RefusalKind where
  | validation
  | resourceExhaustion
  | unsupported
  deriving DecidableEq, Repr

def RefusalKind.label : RefusalKind → String
  | .validation => "Validation"
  | .resourceExhaustion => "ResourceExhaustion"
  | .unsupported => "Unsupported"

namespace Refusal

def kind : Refusal → RefusalKind
  | .missingSubscriber => .validation
  | .unsupportedMode _ => .unsupported
  | .unknownMode _ => .validation
  | .invalidPower _ => .validation
  | .invalidDuration _ => .validation
  | .unknownEvent _ => .validation
  | .inboxFull => .resourceExhaustion
  | .moduleStopped => .resourceExhaustion
  | .alreadyRegistered _ => .validation

def outcome : Refusal → Outcome
  | .missingSubscriber => .failed
  | .unsupportedMode _ => .invalidParam
  | .unknownMode _ => .invalidParam
  | .invalidPower _ => .invalidParam
  | .invalidDuration _ => .invalidParam
  | .unknownEvent _ => .invalidParam
  | .inboxFull => .failed
  | .moduleStopped => .failed
  | .alreadyRegistered _ => .failed

def label : Refusal → String
  | .missingSubscriber => "MissingSubscriber"
  | .unsupportedMode _ => "UnsupportedMode"
  | .unknownMode _ => "UnknownMode"
  | .invalidPower _ => "InvalidPowerAdjust"
  | .invalidDuration _ => "InvalidWptDuration"
  | .unknownEvent _ => "UnknownEvent"
  | .inboxFull => "InboxFull"
  | .moduleStopped => "ModuleStopped"
  | .alreadyRegistered _ => "AlreadyRegistered"

def message : Refusal → String
  | .missingSubscriber => "no subscriber supplied"
  | .unsupportedMode mode => "wireless charging mode " ++ mode.label ++ " not supported"
  | .unknownMode raw => "unknown wireless charging mode " ++ hex 2 raw.toNat
  | .invalidPower raw => "invalid POWER_ADJ_REQ value " ++ hex 2 raw.toNat
  | .invalidDuration raw => "invalid WPT_DURATION_INT value " ++ hex 2 raw.toNat
  | .unknownEvent code => "unhandled event " ++ hex 4 code.toNat
  | .inboxFull => "request inbox full"
  | .moduleStopped => "module is not running"
  | .alreadyRegistered id => "module " ++ id.text ++ " already registered"

def shape (refusal : Refusal) : Shape :=
  match refusal with
  | .missingSubscriber => .word refusal.label
  | .unsupportedMode mode => .tuple refusal.label [.word mode.label]
  | .unknownMode raw => .tuple refusal.label [.word (toString raw.toNat)]
  | .invalidPower raw => .tuple refusal.label [.word (toString raw.toNat)]
  | .invalidDuration raw => .tuple refusal.label [.word (toString raw.toNat)]
  | .unknownEvent code => .tuple refusal.label [.word (toString code.toNat)]
  | .inboxFull => .word refusal.label
  | .moduleStopped => .word refusal.label
  | .alreadyRegistered id => .tuple refusal.label [id.shape]

end Refusal

def Outcome.ofResult {α : Type} : Except Refusal α → Outcome
  | .ok _ => .ok
  | .error refusal => refusal.outcome

end WirelessCharging

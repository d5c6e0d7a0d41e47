import WirelessCharging.Power
import WirelessCharging.Refusal
/-!
Requests and notifications, which travel to a module in the same envelopes. A request is built from the
raw arguments of a call, and the first argument at fault decides why the call is refused.
-/
namespace WirelessCharging

/-- The n-th thing that was made under a name. -/
structure Ref where
  name : String
  generation : Nat
  deriving DecidableEq, Repr

abbrev SubscriberRef := Ref

inductive RequestKind where
  | enable
  | start
  | transfer
  deriving DecidableEq, Repr

namespace RequestKind

def index : RequestKind → UInt16
  | .enable => 0
  | .start => 1
  | .transfer => 2

def code (kind : RequestKind) : UInt16 := ModuleId.wlc.firstEvent ||| kind.index

def ofCode? (code : UInt16) : Option RequestKind :=
  [enable, start, transfer].find? (·.code == code)

def label : RequestKind → String
  | .enable => "ApiEnable"
  | .start => "ApiStart"
  | .transfer => "ApiNonAutoStartWpt"

def name : RequestKind → String
  | .enable => "NFA_WLC_API_ENABLE_EVT"
  | .start => "NFA_WLC_API_START_EVT"
  | .transfer => "NFA_WLC_API_NON_AUTO_START_WPT_EVT"

end RequestKind

inductive Request where
  | enable (subscriber : SubscriberRef)
  | start (mode : ChargingMode)
  | transfer (power : PowerAdjustment) (duration : TransferDuration)
  deriving DecidableEq, Repr

namespace Request

def kind : Request → RequestKind
  | .enable _ => .enable
  | .start _ => .start
  | .transfer _ _ => .transfer

def text (request : Request) : String :=
  request.kind.name ++ " (" ++ hex 4 request.kind.code.toNat ++ ")"

def shape : Request → Shape
  | .enable _ => .record "Enable" [] true
  | .start mode => .record "Start" [("mode", .word mode.label)] false
  | .transfer power duration =>
    .record "StartWpt" [("power_adjust", power.shape), ("duration", duration.shape)] false

end Request

inductive Envelope where
  | request (request : Request)
  | notification (notification : Notification)
  deriving DecidableEq, Repr

def readMode (raw : UInt8) : Except Refusal ChargingMode :=
  match ChargingMode.ofByte? raw with
  | some mode => .ok mode
  | none => .error (.unknownMode raw)

def readPower (raw : UInt8) : Except Refusal PowerAdjustment :=
  match PowerAdjustment.ofByte? raw with
  | some power => .ok power
  | none => .error (.invalidPower raw)

def readDuration (raw : UInt8) : Except Refusal TransferDuration :=
  match TransferDuration.ofByte? raw with
  | some duration => .ok duration
  | none => .error (.invalidDuration raw)

def readEvent (code : UInt16) : Except Refusal RequestKind :=
  match RequestKind.ofCode? code with
  | some kind => .ok kind
  | none => .error (.unknownEvent code)

namespace Request

/-- A caller has to name a subscriber to be enabled for. -/
def ofEnable : Option SubscriberRef → Except Refusal Request
  | some subscriber => .ok (.enable subscriber)
  | none => .error .missingSubscriber

def ofMode (mode : ChargingMode) : Except Refusal Request :=
  if mode.isSupported then .ok (.start mode) else .error (.unsupportedMode mode)

def ofStart (raw : UInt8) : Except Refusal Request :=
  (readMode raw).bind ofMode

/-- The power is looked at before the duration. -/
def ofTransfer (rawPower rawDuration : UInt8) : Except Refusal Request :=
  (readPower rawPower).bind fun power =>
    (readDuration rawDuration).map fun duration => .transfer power duration

end Request

end WirelessCharging

/-!
Charging modes and the bytes that select them. Only the mode in which the host drives every step is
supported.
-/
namespace WirelessCharging

inductive ChargingMode where
  | nonAutonomous
  | semiAutonomous
  | autonomous
  deriving DecidableEq, Repr

namespace ChargingMode

def toByte : ChargingMode → UInt8
  | .nonAutonomous => 0
  | .semiAutonomous => 1
  | .autonomous => 2

def ofByte? : UInt8 → Option ChargingMode
  | 0 => some .nonAutonomous
  | 1 => some .semiAutonomous
  | 2 => some .autonomous
  | _ => none

def isSupported : ChargingMode → Bool
  | .nonAutonomous => true
  | .semiAutonomous => false
  | .autonomous => false

def label : ChargingMode → String
  | .nonAutonomous => "NonAutonomous"
  | .semiAutonomous => "SemiAutonomous"
  | .autonomous => "Autonomous"

end ChargingMode

end WirelessCharging

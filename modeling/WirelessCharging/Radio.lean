import WirelessCharging.Flags
/-!
What the module reads off the rest of the chip: the flags of the device manager, how far radio discovery
has come, and the protocol and occupation of the reader.
-/
namespace WirelessCharging

/-- The protocol of the endpoint in the field. An unknown one keeps its byte, and stays unknown even where
the byte belongs to a known protocol. -/
inductive RfProtocol where
  | t1t
  | t2t
  | t3t
  | isoDep
  | nfcDep
  | t5t
  | mifare
  | unknown (raw : UInt8)
  deriving DecidableEq, Repr

namespace RfProtocol

def toByte : RfProtocol → UInt8
  | .t1t => 0x01
  | .t2t => 0x02
  | .t3t => 0x03
  | .isoDep => 0x04
  | .nfcDep => 0x05
  | .t5t => 0x06
  | .mifare => 0x80
  | .unknown raw => raw

def ofByte : UInt8 → RfProtocol
  | 0x01 => .t1t
  | 0x02 => .t2t
  | 0x03 => .t3t
  | 0x04 => .isoDep
  | 0x05 => .nfcDep
  | 0x06 => .t5t
  | 0x80 => .mifare
  | raw => .unknown raw

def allowsCharging : RfProtocol → Bool
  | .t2t | .t3t | .t5t | .isoDep => true
  | .t1t | .nfcDep | .mifare | .unknown _ => false

def shape : RfProtocol → Shape
  | .t1t => .word "T1T"
  | .t2t => .word "T2T"
  | .t3t => .word "T3T"
  | .isoDep => .word "IsoDep"
  | .nfcDep => .word "NfcDep"
  | .t5t => .word "T5T"
  | .mifare => .word "Mifare"
  | .unknown raw => .tuple "Unknown" [.word (toString raw.toNat)]

def text (protocol : RfProtocol) : String :=
  protocol.shape.compact ++ " (" ++ hex 2 protocol.toByte.toNat ++ ")"

end RfProtocol

inductive DiscoveryState where
  | idle
  | discovery
  | awaitingAllDiscoveries
  | awaitingHostSelect
  | pollActive
  | listenActive
  | listenSleep
  | lowPowerListen
  | lowPowerActive
  deriving DecidableEq, Repr

namespace DiscoveryState

def all : List DiscoveryState :=
  [idle, discovery, awaitingAllDiscoveries, awaitingHostSelect, pollActive, listenActive, listenSleep,
    lowPowerListen, lowPowerActive]

def label : DiscoveryState → String
  | .idle => "Idle"
  | .discovery => "Discovery"
  | .awaitingAllDiscoveries => "W4AllDiscoveries"
  | .awaitingHostSelect => "W4HostSelect"
  | .pollActive => "PollActive"
  | .listenActive => "ListenActive"
  | .listenSleep => "ListenSleep"
  | .lowPowerListen => "LpListen"
  | .lowPowerActive => "LpActive"

end DiscoveryState

structure Discovery where
  state : DiscoveryState := .idle
  flags : DiscoveryFlags := ∅
  deriving DecidableEq, Repr

def Discovery.shape (discovery : Discovery) : Shape :=
  .record "DiscoveryStatus"
    [("state", .word discovery.state.label), ("flags", discovery.flags.shape)] false

structure Readings where
  flags : DeviceFlags
  discovery : Discovery
  readerBusy : Bool
  protocol : Option RfProtocol
  deriving DecidableEq, Repr

/-- An enable is taken while the device manager is up and neither coming up nor going down. -/
def Readings.acceptsEnable (readings : Readings) : Bool :=
  readings.flags.contains DeviceFlags.active &&
    !readings.flags.intersects (DeviceFlags.enablePending ||| DeviceFlags.disabling)

end WirelessCharging

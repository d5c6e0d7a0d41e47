import WirelessCharging.Context
import WirelessCharging.Radio
/-!
The conditions under which the charging extension may start, checked in a fixed order. A start that fails
one of them is dropped without a word to the subscriber, and the first condition that fails is the reason.
-/
namespace WirelessCharging

inductive Rejection where
  | unsupportedMode (mode : ChargingMode)
  | alreadyStarted
  | notPollActive (state : DiscoveryState)
  | protocolNotAllowed (protocol : Option RfProtocol)
  | readerBusy
  | discoveryBusy (flags : DiscoveryFlags)
  deriving DecidableEq, Repr

namespace Rejection

def text : Rejection → String
  | .unsupportedMode mode => "wireless charging mode " ++ mode.label ++ " not supported"
  | .alreadyStarted => "WLC-P Non-Autonomous extension not in stopped state"
  | .notPollActive state => "controller not in POLL_ACTIVE state (currently " ++ state.label ++ ")"
  | .protocolNotAllowed (some protocol) => "invalid RF protocol activated: " ++ protocol.text
  | .protocolNotAllowed none => "no RF protocol activated"
  | .readerBusy => "reader/writer API already busy"
  | .discoveryBusy flags =>
    "discovery awaiting controller or shutting down: " ++ flags.shape.compact

def shape : Rejection → Shape
  | .unsupportedMode mode => .tuple "UnsupportedMode" [.word mode.label]
  | .alreadyStarted => .word "AlreadyStarted"
  | .notPollActive state => .tuple "NotPollActive" [.word state.label]
  | .protocolNotAllowed protocol =>
    .tuple "ProtocolNotAllowed" [optionShape (protocol.map RfProtocol.shape)]
  | .readerBusy => .word "ReaderWriterBusy"
  | .discoveryBusy flags => .tuple "DiscoveryBusy" [flags.shape]

end Rejection

/-- Transitions of discovery during which nothing may start. -/
def DiscoveryFlags.unsettled : DiscoveryFlags :=
  DiscoveryFlags.awaitingResponse ||| DiscoveryFlags.awaitingNotification |||
    DiscoveryFlags.stopping ||| DiscoveryFlags.disabling

def startRejection? (context : Context) (readings : Readings) (mode : ChargingMode) :
    Option Rejection :=
  if !mode.isSupported then some (.unsupportedMode mode)
  else if context.flags.contains ModuleFlags.nonAutonomousEnabled then some .alreadyStarted
  else if readings.discovery.state ≠ .pollActive then
    some (.notPollActive readings.discovery.state)
  else if !readings.protocol.any RfProtocol.allowsCharging then
    some (.protocolNotAllowed readings.protocol)
  else if readings.readerBusy then some .readerBusy
  else if readings.discovery.flags.intersects DiscoveryFlags.unsettled then
    some (.discoveryBusy readings.discovery.flags)
  else none

end WirelessCharging

import WirelessCharging.Flags
import WirelessCharging.Request
/-!
What a module remembers between envelopes: its flags, the mode it was started in and the subscriber it was
last enabled for. The subscriber is remembered without being kept: whether it is still there is for the
world to say, so the texts take that as an argument.
-/
namespace WirelessCharging

structure Context where
  flags : ModuleFlags := ∅
  storedMode : Option ChargingMode := none
  registered : Option SubscriberRef := none
  deriving DecidableEq, Repr

namespace Context

/-- The mode counts only while the extension is enabled. -/
def mode (context : Context) : Option ChargingMode :=
  if context.flags.contains ModuleFlags.nonAutonomousEnabled then context.storedMode else none

def modeShape (mode : Option ChargingMode) : Shape :=
  optionShape (mode.map fun mode => .word mode.label)

def boolShape (b : Bool) : Shape := .word (if b then "true" else "false")

def shape (context : Context) (subscribed : Bool) : Shape :=
  .record "WlcContext"
    [("flags", context.flags.shape), ("mode", modeShape context.storedMode),
      ("subscriber", .record "SubscriberSlot" [("registered", boolShape subscribed)] false)] false

def snapshotShape (context : Context) (subscribed : Bool) : Shape :=
  .record "ContextSnapshot"
    [("flags", context.flags.shape), ("mode", modeShape context.mode),
      ("subscriber_registered", boolShape subscribed)] false

def enabledFor (context : Context) (subscriber : SubscriberRef) : Context :=
  { context with registered := some subscriber }

def startedIn (context : Context) (mode : ChargingMode) : Context :=
  { context with
    storedMode := some mode
    flags := context.flags.insert ModuleFlags.nonAutonomousEnabled }

end Context

end WirelessCharging

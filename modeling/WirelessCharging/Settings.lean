import WirelessCharging.Text.Duration
import WirelessCharging.Text.Shape
/-!
The two settings of a module: how many envelopes its inbox takes, and how long a stop waits for its
dispatcher.
-/
namespace WirelessCharging

structure Settings where
  inboxCapacity : Nat := 255
  /-- In milliseconds. -/
  stopLimit : Nat := 10000
  deriving DecidableEq, Repr

namespace Settings

def stopLimitText (settings : Settings) : String := durationText settings.stopLimit

def shape (settings : Settings) : Shape :=
  .record "WlcConfig"
    [("limits", .record "LimitsConfig"
        [("inbox_capacity", .word (toString settings.inboxCapacity))] false),
      ("timeouts", .record "TimeoutConfig"
        [("module_shutdown_timeout_ms", .word (toString settings.stopLimit))] false)] false

end Settings

end WirelessCharging

/-!
How long a wait lasts, in milliseconds: as long as was asked for, but never longer than thirty years of 365
days. Hooks that take their time wait in this way, and so does a caller that lets time pass. The limit of a
stop is a different thing and may be longer.
-/
namespace WirelessCharging

def longestWait : Nat := 946080000000

def waitFor (asked : Nat) : Nat := min asked longestWait

end WirelessCharging

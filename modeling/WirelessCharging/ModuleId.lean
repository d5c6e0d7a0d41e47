import WirelessCharging.Text.Digits
import WirelessCharging.Text.Shape
/-!
Identifiers of protocol modules. A module owns the event codes whose high byte is its identifier.
-/
namespace WirelessCharging

structure ModuleId where
  raw : UInt8
  deriving DecidableEq, Repr

namespace ModuleId

def wlc : ModuleId := ⟨0x07⟩

def firstEvent (id : ModuleId) : UInt16 := id.raw.toUInt16 <<< 8

def text (id : ModuleId) : String :=
  if id = wlc then "wlc" else "module-" ++ hex 2 id.raw.toNat

/-- A single word: the long layout keeps it on one line. -/
def shape (id : ModuleId) : Shape := .word ("ModuleId(" ++ id.text ++ ")")

instance : Ord ModuleId := ⟨fun a b => compare a.raw b.raw⟩

def sort (ids : List ModuleId) : List ModuleId :=
  ids.mergeSort fun a b => a.raw ≤ b.raw

end ModuleId

end WirelessCharging

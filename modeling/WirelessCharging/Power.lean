import WirelessCharging.Text.Shape
/-!
The two parameters of a power transfer. A power adjustment asks the listener for more power in its lower
range of bytes and for less in its upper one; a duration is a small number whose two top bits are reserved.
The bytes between and beyond are no parameters at all.
-/
namespace WirelessCharging

inductive PowerDirection where
  | increase
  | decrease
  deriving DecidableEq, Repr

def PowerDirection.label : PowerDirection → String
  | .increase => "Increase"
  | .decrease => "Decrease"

def PowerAdjustment.greatestIncrease : UInt8 := 0x14

def PowerAdjustment.leastDecrease : UInt8 := 0xF6

structure PowerAdjustment where
  raw : UInt8
  in_range : raw ≤ PowerAdjustment.greatestIncrease ∨ PowerAdjustment.leastDecrease ≤ raw
  deriving DecidableEq, Repr

namespace PowerAdjustment

def ofByte? (raw : UInt8) : Option PowerAdjustment :=
  if h : raw ≤ greatestIncrease ∨ leastDecrease ≤ raw then some ⟨raw, h⟩ else none

def direction (power : PowerAdjustment) : PowerDirection :=
  if power.raw ≤ greatestIncrease then .increase else .decrease

def shape (power : PowerAdjustment) : Shape :=
  .tuple "PowerAdjust" [.word (toString power.raw.toNat)]

end PowerAdjustment

def TransferDuration.greatest : UInt8 := 0x13

/-- The bits that a duration leaves clear. -/
def TransferDuration.reserved : UInt8 := 0xC0

structure TransferDuration where
  raw : UInt8
  in_range : raw ≤ TransferDuration.greatest
  reserved_clear : raw &&& TransferDuration.reserved = 0
  deriving DecidableEq, Repr

namespace TransferDuration

def ofByte? (raw : UInt8) : Option TransferDuration :=
  if h : raw ≤ greatest ∧ raw &&& reserved = 0 then some ⟨raw, h.1, h.2⟩ else none

def shape (duration : TransferDuration) : Shape :=
  .tuple "WptDuration" [.word (toString duration.raw.toNat)]

end TransferDuration

end WirelessCharging

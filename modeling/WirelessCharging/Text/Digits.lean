/-!
Numerals in a base up to sixteen, as lists of digit characters, and the hexadecimal form that the
protocol texts use: a leading 0x, lower-case digits, and zeros in front up to a least width. A number
that needs more digits keeps them all.
-/
namespace WirelessCharging

/-- The number a digit stands for, in either case; no digit above nine is read as a decimal one. -/
def digitValue? (c : Char) : Option Nat :=
  if '0' ≤ c ∧ c ≤ '9' then some (c.toNat - '0'.toNat)
  else if 'a' ≤ c ∧ c ≤ 'f' then some (c.toNat - 'a'.toNat + 10)
  else if 'A' ≤ c ∧ c ≤ 'F' then some (c.toNat - 'A'.toNat + 10)
  else none

def isDigitIn (base : Nat) (c : Char) : Bool :=
  (digitValue? c).any (· < base)

def ofDigits (base : Nat) (digits : List Char) : Nat :=
  digits.foldl (fun n c => n * base + (digitValue? c).getD 0) 0

def hexDigits (width n : Nat) : List Char :=
  (Nat.toDigits 16 n).leftpad width '0'

def hex (width n : Nat) : String :=
  "0x" ++ String.ofList (hexDigits width n)

end WirelessCharging

import WirelessCharging.Text.Digits
import WirelessCharging.Toml.Value
/-!
Numbers, each given as all the characters that it is written with. Digits may be grouped by single
underscores between them. Integers fit into 64 bits with a sign; a fraction that is too large for a double is
refused, unless it is negative.
-/
namespace WirelessCharging.Toml

/-- The digits of a grouped numeral without the underscores. -/
def groupedDigits? (base : Nat) : List Char → Option (List Char)
  | [] => none
  | [c] => if isDigitIn base c then some [c] else none
  | c :: '_' :: rest =>
    if isDigitIn base c then (groupedDigits? base rest).map (c :: ·) else none
  | c :: rest => if isDigitIn base c then (groupedDigits? base rest).map (c :: ·) else none

/-- A decimal numeral that begins with a zero is the zero alone. -/
def decimalDigits? (cs : List Char) : Option (List Char) :=
  (groupedDigits? 10 cs).filter fun digits => digits.length == 1 || digits.head? != some '0'

def takeSign : List Char → Bool × List Char
  | '-' :: rest => (true, rest)
  | '+' :: rest => (false, rest)
  | cs => (false, cs)

def signed (negative : Bool) (n : Nat) : Int := if negative then -(n : Int) else n

def fitsInteger (n : Int) : Bool := -9223372036854775808 ≤ n && n ≤ 9223372036854775807

def integer? (cs : List Char) : Option Int :=
  (match cs with
    | '0' :: 'x' :: digits => (groupedDigits? 16 digits).map fun ds => (ofDigits 16 ds : Int)
    | '0' :: 'o' :: digits => (groupedDigits? 8 digits).map fun ds => (ofDigits 8 ds : Int)
    | '0' :: 'b' :: digits => (groupedDigits? 2 digits).map fun ds => (ofDigits 2 ds : Int)
    | _ =>
      let (negative, digits) := takeSign cs
      (decimalDigits? digits).map fun ds => signed negative (ofDigits 10 ds)).filter fitsInteger

/-- The least number that a double no longer holds: half a step beyond the greatest double. -/
def doubleLimit : Nat := Nat.pow 2 1024 - Nat.pow 2 970

def exceedsDouble (digits : List Char) (exponent : Int) : Bool :=
  let n := ofDigits 10 digits
  if n = 0 then false
  else if 400 < exponent then true
  else if exponent < -(digits.length : Int) then false
  else decide (doubleLimit * Nat.pow 10 (-exponent).toNat ≤ n * Nat.pow 10 exponent.toNat)

def exponent? (cs : List Char) : Option Int :=
  let (negative, digits) := takeSign cs
  (groupedDigits? 10 digits).map fun ds => signed negative (ofDigits 10 ds)

def isExponentMark (c : Char) : Bool := c == 'e' || c == 'E'

def isFraction (cs : List Char) : Bool :=
  let (negative, unsigned) := takeSign cs
  let mantissa := unsigned.takeWhile (!isExponentMark ·)
  let power := unsigned.dropWhile (!isExponentMark ·)
  let whole := mantissa.takeWhile (· != '.')
  let point := mantissa.dropWhile (· != '.')
  let fits (digits : List Char) (exponent : Int) : Bool := negative || !exceedsDouble digits exponent
  match decimalDigits? whole, point, power with
  | some ws, _ :: fraction, [] =>
    (groupedDigits? 10 fraction).any fun fs => fits (ws ++ fs) (-(fs.length : Int))
  | some ws, [], _ :: exponent => (exponent? exponent).any fun e => fits ws e
  | some ws, _ :: fraction, _ :: exponent =>
    (groupedDigits? 10 fraction).any fun fs =>
      (exponent? exponent).any fun e => fits (ws ++ fs) (e - fs.length)
  | _, _, _ => false

def isSpecial (cs : List Char) : Bool :=
  let unsigned := (takeSign cs).2
  unsigned == ['i', 'n', 'f'] || unsigned == ['n', 'a', 'n']

def number? (cs : List Char) : Option Value :=
  match integer? cs with
  | some n => some (.integer n)
  | none => if isFraction cs || isSpecial cs then some (.fraction (String.ofList cs)) else none

end WirelessCharging.Toml

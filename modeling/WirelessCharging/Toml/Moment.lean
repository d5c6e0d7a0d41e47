import WirelessCharging.Text.Digits
/-!
Dates and times of day. A date is a day of the calendar, a time goes up to a leap second and may have
decimals, and only a date and a time together may have an offset.
-/
namespace WirelessCharging.Toml

def isLeapYear (year : Nat) : Bool := year % 4 == 0 && (year % 100 != 0 || year % 400 == 0)

def daysInMonth (year month : Nat) : Nat :=
  if month = 2 then if isLeapYear year then 29 else 28
  else if month ∈ [4, 6, 9, 11] then 30
  else 31

def decimal? (digits : List Char) : Option Nat :=
  if digits.all (isDigitIn 10) then some (ofDigits 10 digits) else none

def isDay (year month day : Nat) : Bool :=
  1 ≤ month && month ≤ 12 && 1 ≤ day && day ≤ daysInMonth year month

def isTimeOfDay (hour minute second : Nat) : Bool := hour ≤ 23 && minute ≤ 59 && second ≤ 60

def date? : List Char → Option (List Char)
  | y₁ :: y₂ :: y₃ :: y₄ :: '-' :: m₁ :: m₂ :: '-' :: d₁ :: d₂ :: rest =>
    match decimal? [y₁, y₂, y₃, y₄], decimal? [m₁, m₂], decimal? [d₁, d₂] with
    | some year, some month, some day => if isDay year month day then some rest else none
    | _, _, _ => none
  | _ => none

/-- What follows the decimals of a second; a point needs at least one of them. -/
def decimals? : List Char → Option (List Char)
  | '.' :: c :: rest => if isDigitIn 10 c then some (rest.dropWhile (isDigitIn 10)) else none
  | ['.'] => none
  | cs => some cs

def time? : List Char → Option (List Char)
  | h₁ :: h₂ :: ':' :: m₁ :: m₂ :: ':' :: s₁ :: s₂ :: rest =>
    match decimal? [h₁, h₂], decimal? [m₁, m₂], decimal? [s₁, s₂] with
    | some hour, some minute, some second =>
      if isTimeOfDay hour minute second then decimals? rest else none
    | _, _, _ => none
  | _ => none

def isOffset : List Char → Bool
  | [] => true
  | [c] => c == 'Z' || c == 'z'
  | [sign, h₁, h₂, ':', m₁, m₂] =>
    (sign == '+' || sign == '-') &&
      match decimal? [h₁, h₂], decimal? [m₁, m₂] with
      | some hour, some minute => isTimeOfDay hour minute 0
      | _, _ => false
  | _ => false

def isDate (cs : List Char) : Bool := date? cs == some []

def isZonedTime (cs : List Char) : Bool := (time? cs).any isOffset

def isMoment (cs : List Char) : Bool :=
  match date? cs with
  | some [] => true
  | some (mark :: time) => (mark == 'T' || mark == 't') && isZonedTime time
  | none => time? cs == some []

end WirelessCharging.Toml

/-!
A span of whole milliseconds as text, in the largest unit that leaves a whole part: milliseconds below
a second, seconds with the shortest fraction from there on, and nothing at all as zero nanoseconds.
-/
namespace WirelessCharging

/-- Three decimals of a second without the zeros at their end. -/
def fractionDigits (thousandths : Nat) : List Char :=
  (((Nat.toDigits 10 thousandths).leftpad 3 '0').reverse.dropWhile (· == '0')).reverse

def durationText (milliseconds : Nat) : String :=
  if milliseconds = 0 then "0ns"
  else if milliseconds < 1000 then toString milliseconds ++ "ms"
  else
    let fraction := fractionDigits (milliseconds % 1000)
    toString (milliseconds / 1000) ++
      (if fraction.isEmpty then "" else "." ++ String.ofList fraction) ++ "s"

end WirelessCharging

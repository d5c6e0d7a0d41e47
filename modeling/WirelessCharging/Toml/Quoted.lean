import WirelessCharging.Text.Digits
import WirelessCharging.Toml.Scan
/-!
Strings, which are basic, with escapes, or literal, and stand on one line or on several. A string on several
lines ends with three quotes, and up to two more in front of those belong to it; the line break right after
its opening does not.
-/
namespace WirelessCharging.Toml

/-- The character that a number stands for, unless the number is a surrogate or too large. -/
def scalar? (digits : List Char) : Option Char :=
  if digits.all (isDigitIn 16) && (ofDigits 16 digits).isValidChar then
    some (Char.ofNat (ofDigits 16 digits))
  else none

def escape? : Reader Char
  | 'b' :: rest => some ('\x08', rest)
  | 't' :: rest => some ('\t', rest)
  | 'n' :: rest => some ('\n', rest)
  | 'f' :: rest => some ('\x0c', rest)
  | 'r' :: rest => some ('\r', rest)
  | '\x22' :: rest => some ('\x22', rest)
  | '\\' :: rest => some ('\\', rest)
  | 'u' :: a :: b :: c :: d :: rest => (scalar? [a, b, c, d]).map (·, rest)
  | 'U' :: a :: b :: c :: d :: e :: f :: g :: h :: rest =>
    (scalar? [a, b, c, d, e, f, g, h]).map (·, rest)
  | _ => none

/-- A backslash at the end of a line takes the blanks and line breaks behind it along. -/
def continuation? (cs : List Char) : Option (List Char) :=
  (lineBreak? (skipBlanks cs)).map skipEmptyLines

/-- A piece of a string on one line: an escape, if there are escapes, or a character. -/
def linePiece? (escapes : Bool) : Reader (List Char)
  | [] => none
  | c :: rest =>
    if escapes && c == '\\' then (escape? rest).map fun (e, rest) => ([e], rest)
    else if isPrintable c then some ([c], rest)
    else none

/-- A piece of a string on several lines, where line breaks are pieces too. -/
def blockPiece? (escapes : Bool) (cs : List Char) : Option (List Char × List Char) :=
  match lineBreak? cs with
  | some rest => some (['\n'], rest)
  | none =>
    match cs with
    | '\\' :: rest =>
      match if escapes then continuation? rest else none with
      | some rest => some ([], rest)
      | none => linePiece? escapes cs
    | _ => linePiece? escapes cs

def lineClose? (quote : Char) : Reader (List Char)
  | c :: rest => if c == quote then some ([], rest) else none
  | [] => none

def blockClose? (quote : Char) : Reader (List Char)
  | a :: b :: c :: rest =>
    if a == quote && b == quote && c == quote then
      match rest with
      | d :: e :: more =>
        if d == quote && e == quote then some ([quote, quote], more)
        else if d == quote then some ([quote], e :: more)
        else some ([], rest)
      | [d] => if d == quote then some ([quote], []) else some ([], rest)
      | [] => some ([], rest)
    else none
  | _ => none

def readBody (close? piece? : Reader (List Char)) (cs : List Char) : Option (List Char × List Char) :=
  match close? cs with
  | some closing => some closing
  | none =>
    match piece? cs with
    | none => none
    | some (piece, rest) =>
      if rest.length < cs.length then
        (readBody close? piece? rest).map fun (body, rest) => (piece ++ body, rest)
      else none
termination_by cs.length

def readLineString (quote : Char) (cs : List Char) : Option (String × List Char) :=
  (readBody (lineClose? quote) (linePiece? (quote == '\x22')) cs).map fun (body, rest) =>
    (String.ofList body, rest)

def readBlockString (quote : Char) (cs : List Char) : Option (String × List Char) :=
  (readBody (blockClose? quote) (blockPiece? (quote == '\x22')) ((lineBreak? cs).getD cs)).map
    fun (body, rest) => (String.ofList body, rest)

end WirelessCharging.Toml

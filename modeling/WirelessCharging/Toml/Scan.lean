/-!
Characters, blanks, comments and line ends of a TOML document. A reader takes something off the front of a
text and leaves the rest.
-/
namespace WirelessCharging.Toml

abbrev Reader (α : Type) := List Char → Option (α × List Char)

def isBlank (c : Char) : Bool := c == ' ' || c == '\t'

/-- Everything but control characters; a tab is no control character here. -/
def isPrintable (c : Char) : Bool := c == '\t' || (0x20 ≤ c.toNat && c.toNat != 0x7F)

def skipBlanks (cs : List Char) : List Char := cs.dropWhile isBlank

def lineBreak? : List Char → Option (List Char)
  | '\n' :: rest => some rest
  | '\r' :: '\n' :: rest => some rest
  | _ => none

def skipEmptyLines : List Char → List Char
  | '\n' :: rest => skipEmptyLines rest
  | '\r' :: '\n' :: rest => skipEmptyLines rest
  | c :: rest => if isBlank c then skipEmptyLines rest else c :: rest
  | [] => []

def skipComment : List Char → List Char
  | '#' :: rest => rest.dropWhile isPrintable
  | cs => cs

/-- What follows a line of which only blanks and a comment are left. -/
def lineEnd? (cs : List Char) : Option (List Char) :=
  match skipComment (skipBlanks cs) with
  | [] => some []
  | rest => lineBreak? rest

def skipFillerIn : (inComment : Bool) → List Char → List Char
  | _, [] => []
  | _, '\n' :: rest => skipFillerIn false rest
  | _, '\r' :: '\n' :: rest => skipFillerIn false rest
  | true, c :: rest => if isPrintable c then skipFillerIn true rest else c :: rest
  | false, '#' :: rest => skipFillerIn true rest
  | false, c :: rest => if isBlank c then skipFillerIn false rest else c :: rest

def skipFiller (cs : List Char) : List Char := skipFillerIn false cs

end WirelessCharging.Toml

import WirelessCharging.Toml.Moment
import WirelessCharging.Toml.Number
import WirelessCharging.Toml.Quoted
import WirelessCharging.Toml.Table
/-!
The statements of a document: headers of tables and of series of tables, and keys with their values. Values
stand inside each other, and keys lead into each other, less than eighty deep.
-/
namespace WirelessCharging.Toml

/-- How deep arrays and tables on one line may stand inside each other, and how many keys a path has. -/
def deepest : Nat := 79

def isKeyChar (c : Char) : Bool := c.isAlphanum || c == '_' || c == '-'

def readKey : Reader String
  | '\x22' :: rest => readLineString '\x22' rest
  | '\x27' :: rest => readLineString '\x27' rest
  | cs =>
    match cs.takeWhile isKeyChar with
    | [] => none
    | key => some (String.ofList key, cs.dropWhile isKeyChar)

def readKeys (cs : List Char) : Option (List String × List Char) :=
  match readKey (skipBlanks cs) with
  | none => none
  | some (key, rest) =>
    match skipBlanks rest with
    | '.' :: more =>
      if more.length < cs.length then (readKeys more).map fun (keys, rest) => (key :: keys, rest)
      else none
    | rest => some ([key], rest)
termination_by cs.length

def readPath (cs : List Char) : Option (Path × List Char) :=
  (readKeys cs).bind fun (keys, rest) =>
    if keys.length ≤ deepest then
      keys.getLast?.map fun key => ({ parents := keys.dropLast, key }, rest)
    else none

def isTokenChar (c : Char) : Bool :=
  c.isAlphanum || c == '_' || c == '+' || c == '-' || c == '.' || c == ':'

def token? (cs : List Char) : Option Value :=
  if cs == ['t', 'r', 'u', 'e'] then some (.boolean true)
  else if cs == ['f', 'a', 'l', 's', 'e'] then some (.boolean false)
  else if isMoment cs then some (.moment (String.ofList cs))
  else number? cs

/-- A value without quotes or brackets. One space may stand between a date and a time. -/
def readToken (cs : List Char) : Option (Value × List Char) :=
  let token := cs.takeWhile isTokenChar
  let rest := cs.dropWhile isTokenChar
  match rest with
  | ' ' :: c :: more =>
    if isDate token && isDigitIn 10 c then
      let time := (c :: more).takeWhile isTokenChar
      if isZonedTime time then
        some (.moment (String.ofList (token ++ ' ' :: time)), (c :: more).dropWhile isTokenChar)
      else none
    else (token? token).map (·, rest)
  | _ => (token? token).map (·, rest)

def readItems (item : Reader Value) (cs : List Char) : Option (List Value × List Char) :=
  match skipFiller cs with
  | ']' :: rest => some ([], rest)
  | start =>
    match item start with
    | none => none
    | some (value, rest) =>
      match skipFiller rest with
      | ']' :: rest => some ([value], rest)
      | ',' :: more =>
        if more.length < cs.length then
          (readItems item more).map fun (values, rest) => (value :: values, rest)
        else none
      | _ => none
termination_by cs.length

def readPair (item : Reader Value) (cs : List Char) : Option ((Path × Value) × List Char) :=
  match readPath cs with
  | some (path, '=' :: rest) =>
    (item (skipBlanks rest)).map fun (value, rest) => ((path, value), rest)
  | _ => none

def readPairs (item : Reader Value) (cs : List Char) :
    Option (List (Path × Value) × List Char) :=
  match readPair item cs with
  | none => none
  | some (pair, rest) =>
    match skipBlanks rest with
    | '\x7d' :: rest => some ([pair], rest)
    | ',' :: more =>
      if more.length < cs.length then
        (readPairs item more).map fun (pairs, rest) => (pair :: pairs, rest)
      else none
    | _ => none
termination_by cs.length

def ofPairs (pairs : List (Path × Value)) : Option Value :=
  (pairs.foldlM (fun entries (path, value) => assign path value .header entries) []).map
    fun entries => .table (entryValues entries)

def readInlineTable (item : Reader Value) (cs : List Char) : Option (Value × List Char) :=
  match skipBlanks cs with
  | '\x7d' :: rest => some (.table [], rest)
  | start =>
    (readPairs item start).bind fun (pairs, rest) => (ofPairs pairs).map (·, rest)

/-- A value that stands at most `depth` brackets above its innermost one. -/
def readValue (depth : Nat) : Reader Value
  | '\x22' :: '\x22' :: '\x22' :: rest =>
    (readBlockString '\x22' rest).map fun (text, rest) => (.text text, rest)
  | '\x22' :: rest => (readLineString '\x22' rest).map fun (text, rest) => (.text text, rest)
  | '\x27' :: '\x27' :: '\x27' :: rest =>
    (readBlockString '\x27' rest).map fun (text, rest) => (.text text, rest)
  | '\x27' :: rest => (readLineString '\x27' rest).map fun (text, rest) => (.text text, rest)
  | '[' :: rest =>
    match depth with
    | 0 => none
    | depth + 1 => (readItems (readValue depth) rest).map fun (items, rest) => (.array items, rest)
  | '\x7b' :: rest =>
    match depth with
    | 0 => none
    | depth + 1 => readInlineTable (readValue depth) rest
  | cs => readToken cs

inductive Statement where
  | header (path : Path)
  | seriesHeader (path : Path)
  | pair (path : Path) (value : Value)

def readStatement : Reader Statement
  | '[' :: '[' :: rest =>
    match readPath rest with
    | some (path, ']' :: ']' :: rest) => some (.seriesHeader path, rest)
    | _ => none
  | '[' :: rest =>
    match readPath rest with
    | some (path, ']' :: rest) => some (.header path, rest)
    | _ => none
  | cs => (readPair (readValue deepest) cs).map fun ((path, value), rest) => (.pair path value, rest)

/-- One statement a line, between empty lines and comments. -/
def readStatements (cs : List Char) : Option (List Statement) :=
  match skipBlanks cs with
  | [] => some []
  | start =>
    match lineEnd? start with
    | some rest => if rest.length < cs.length then readStatements rest else none
    | none =>
      match readStatement start with
      | none => none
      | some (statement, rest) =>
        match lineEnd? rest with
        | none => none
        | some rest =>
          if rest.length < cs.length then (readStatements rest).map (statement :: ·) else none
termination_by cs.length

end WirelessCharging.Toml

/-!
The printed structure of a value and its two layouts: one line, or one part a line, indented by four
columns a level. A record may say that it holds more than it shows, and a set of names is the same
whether or not a layout breaks it.
-/
namespace WirelessCharging

inductive Shape where
  | word (text : String)
  | record (name : String) (fields : List (String × Shape)) (more : Bool)
  | tuple (name : String) (items : List Shape)
  | set (name : String) (members : List String)

def indent (depth : Nat) : String := String.ofList (List.replicate (4 * depth) ' ')

mutual

def Shape.compact : Shape → String
  | .word text => text
  | .record name [] more => name ++ if more then " \x7b .. \x7d" else ""
  | .record name (field :: fields) more =>
    name ++ " \x7b " ++
      ", ".intercalate (compactFields (field :: fields) ++ if more then [".."] else []) ++ " \x7d"
  | .tuple name items => name ++ "(" ++ ", ".intercalate (compactItems items) ++ ")"
  | .set name members => name ++ "\x7b" ++ ", ".intercalate members ++ "\x7d"

def compactFields : List (String × Shape) → List String
  | [] => []
  | (label, value) :: fields => (label ++ ": " ++ value.compact) :: compactFields fields

def compactItems : List Shape → List String
  | [] => []
  | item :: items => item.compact :: compactItems items

end

def partLines (depth : Nat) (parts : List String) : String :=
  String.join (parts.map fun part => indent depth ++ part ++ ",\n")

mutual

/-- The layout of a value whose first line stands at `depth`. -/
def Shape.prettyAt (depth : Nat) : Shape → String
  | .word text => text
  | .record name [] more => name ++ if more then " \x7b .. \x7d" else ""
  | .record name (field :: fields) more =>
    name ++ " \x7b\n" ++ partLines (depth + 1) (prettyFields (depth + 1) (field :: fields)) ++
      (if more then indent (depth + 1) ++ "..\n" else "") ++ indent depth ++ "\x7d"
  | .tuple name items =>
    name ++ "(\n" ++ partLines (depth + 1) (prettyItems (depth + 1) items) ++ indent depth ++ ")"
  | .set name [] => name ++ "\x7b\x7d"
  | .set name (member :: members) =>
    name ++ "\x7b\n" ++ partLines (depth + 1) (member :: members) ++ indent depth ++ "\x7d"

def prettyFields (depth : Nat) : List (String × Shape) → List String
  | [] => []
  | (label, value) :: fields => (label ++ ": " ++ value.prettyAt depth) :: prettyFields depth fields

def prettyItems (depth : Nat) : List Shape → List String
  | [] => []
  | item :: items => item.prettyAt depth :: prettyItems depth items

end

def Shape.pretty (shape : Shape) : String := shape.prettyAt 0

def optionShape : Option Shape → Shape
  | none => .word "None"
  | some shape => .tuple "Some" [shape]

end WirelessCharging

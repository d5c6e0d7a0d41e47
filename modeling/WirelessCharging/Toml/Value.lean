/-!
The values of a TOML document. Fractional numbers and points in time are kept as they are written, since
nothing is ever computed from them.
-/
namespace WirelessCharging.Toml

inductive Value where
  | text (value : String)
  | integer (value : Int)
  | fraction (numeral : String)
  | boolean (value : Bool)
  | moment (numeral : String)
  | array (items : List Value)
  | table (entries : List (String × Value))

def lookup (entries : List (String × Value)) (key : String) : Option Value := entries.lookup key

end WirelessCharging.Toml

import WirelessCharging.Settings
import WirelessCharging.Toml.Document
/-!
Settings as a TOML document: a section for each of the two numbers, which are whole and not negative. A
section or a number that is missing leaves the default, and what is not known is passed over. A section may
also be an array, whose first item is then the number. A point in time is a section with nothing in it.
-/
namespace WirelessCharging.Settings

open Toml (Value)

def natural? : Value → Option Nat
  | .integer n => if 0 ≤ n then some n.toNat else none
  | _ => none

def sectionValue? (key : String) (default : Nat) : Option Value → Option Nat
  | none => some default
  | some (.table entries) =>
    match Toml.lookup entries key with
    | none => some default
    | some value => natural? value
  | some (.array []) => some default
  | some (.array (value :: _)) => natural? value
  | some (.moment _) => some default
  | some _ => none

def ofTable? (entries : List (String × Value)) : Option Settings :=
  let default : Settings := {}
  (sectionValue? "inbox_capacity" default.inboxCapacity (Toml.lookup entries "limits")).bind
    fun inboxCapacity =>
      (sectionValue? "module_shutdown_timeout_ms" default.stopLimit
        (Toml.lookup entries "timeouts")).map fun stopLimit => { inboxCapacity, stopLimit }

def read? (document : String) : Option Settings := (Toml.read document).bind ofTable?

def document (settings : Settings) : String :=
  "[limits]\ninbox_capacity = " ++ toString settings.inboxCapacity ++
    "\n\n[timeouts]\nmodule_shutdown_timeout_ms = " ++ toString settings.stopLimit ++ "\n"

end WirelessCharging.Settings

import WirelessCharging.Settings.Document
/-!
Where the settings come from. The file in the user's own directory comes first and those in the shared
directories follow in order; the first one that exists decides. If it cannot be used, the defaults are, and no
other file is looked at.
-/
namespace WirelessCharging.Settings

inductive Place where
  | vacant
  | unreadable
  | file (content : ByteArray)

def Place.isVacant : Place → Bool
  | .vacant => true
  | .unreadable => false
  | .file _ => false

/-- How the environment names the user's directory. Only an absolute path counts. -/
inductive HomeVariable where
  | absolute
  | relative
  | unset
  deriving DecidableEq, Repr

structure Surroundings where
  homeVariable : HomeVariable := .absolute
  /-- Below the directory that the variable names. -/
  named : Place := .vacant
  /-- Below the directory that is used without the variable. -/
  fallback : Place := .vacant
  shared : List Place := []

inductive LogLevel where
  | info
  | error
  deriving DecidableEq, Repr

def LogLevel.label : LogLevel → String
  | .info => "INFO"
  | .error => "ERROR"

def Surroundings.places (around : Surroundings) : List Place :=
  (match around.homeVariable with
    | .absolute => around.named
    | .relative => around.fallback
    | .unset => around.fallback) :: around.shared

def Place.settings? : Place → Option Settings
  | .vacant => none
  | .unreadable => none
  | .file content => (String.fromUTF8? content).bind read?

def search (around : Surroundings) : Settings × List LogLevel :=
  match around.places.find? (!·.isVacant) with
  | none => ({}, [.info])
  | some place =>
    match place.settings? with
    | some settings => (settings, [.info])
    | none => ({}, [.info, .error])

end WirelessCharging.Settings

import WirelessCharging.Text.Digits
import WirelessCharging.Text.Shape
/-!
Words of flags. A vocabulary names some of the bits of a word; a set of flags over it is the whole word,
unnamed bits included, which take part in every operation and in the numeral but have no name to list.
-/
namespace WirelessCharging

structure Vocabulary (width : Nat) where
  name : String
  flags : List (String × BitVec width)

structure Flags {width : Nat} (vocabulary : Vocabulary width) where
  bits : BitVec width
  deriving DecidableEq, Repr

namespace Flags

variable {width : Nat} {vocabulary : Vocabulary width}

def empty : Flags vocabulary := ⟨0⟩

instance : EmptyCollection (Flags vocabulary) := ⟨empty⟩

instance : Inhabited (Flags vocabulary) := ⟨empty⟩

def isEmpty (flags : Flags vocabulary) : Bool := flags.bits == 0

def contains (flags other : Flags vocabulary) : Bool := flags.bits &&& other.bits == other.bits

def intersects (flags other : Flags vocabulary) : Bool := flags.bits &&& other.bits != 0

def union (flags other : Flags vocabulary) : Flags vocabulary := ⟨flags.bits ||| other.bits⟩

instance : OrOp (Flags vocabulary) := ⟨union⟩

def insert (flags other : Flags vocabulary) : Flags vocabulary := ⟨flags.bits ||| other.bits⟩

def remove (flags other : Flags vocabulary) : Flags vocabulary := ⟨flags.bits &&& ~~~other.bits⟩

def names (flags : Flags vocabulary) : List String :=
  (vocabulary.flags.filter fun flag => flags.contains ⟨flag.2⟩).map (·.1)

def numeral (flags : Flags vocabulary) : String := hex 4 flags.bits.toNat

def shape (flags : Flags vocabulary) : Shape := .set vocabulary.name flags.names

end Flags

/-- The ways of changing a word. A union and a join give a new word, which takes the place of the old one. -/
inductive FlagEdit {width : Nat} (vocabulary : Vocabulary width) where
  | insert (other : Flags vocabulary)
  | remove (other : Flags vocabulary)
  | union (other : Flags vocabulary)
  | join (other : Flags vocabulary)
  | joinInto (other : Flags vocabulary)
  | replace (other : Flags vocabulary)

def FlagEdit.apply {width : Nat} {vocabulary : Vocabulary width} (flags : Flags vocabulary) :
    FlagEdit vocabulary → Flags vocabulary
  | .insert other => flags.insert other
  | .remove other => flags.remove other
  | .union other => flags.union other
  | .join other => flags ||| other
  | .joinInto other => flags.insert other
  | .replace other => other

inductive FlagQuery {width : Nat} (vocabulary : Vocabulary width) where
  | contains (other : Flags vocabulary)
  | intersects (other : Flags vocabulary)
  | equals (other : Flags vocabulary)
  | isEmpty

def FlagQuery.answer {width : Nat} {vocabulary : Vocabulary width} (flags : Flags vocabulary) :
    FlagQuery vocabulary → Bool
  | .contains other => flags.contains other
  | .intersects other => flags.intersects other
  | .equals other => flags == other
  | .isEmpty => flags.isEmpty

inductive FlagStep {width : Nat} (vocabulary : Vocabulary width) where
  | edit (change : FlagEdit vocabulary)
  | ask (query : FlagQuery vocabulary)

/-- The word that a step leaves, and the answer if it asks for one. -/
def FlagStep.take {width : Nat} {vocabulary : Vocabulary width} (flags : Flags vocabulary) :
    FlagStep vocabulary → Flags vocabulary × Option Bool
  | .edit change => (change.apply flags, none)
  | .ask query => (flags, some (query.answer flags))

def Flags.after {width : Nat} {vocabulary : Vocabulary width} (flags : Flags vocabulary)
    (steps : List (FlagStep vocabulary)) : Flags vocabulary :=
  steps.foldl (fun flags step => (step.take flags).1) flags

def moduleVocabulary : Vocabulary 32 :=
  ⟨"WlcFlags", [("NON_AUTO_MODE_ENABLED", 0x01), ("WPT_NTF_PENDING", 0x02)]⟩

def deviceVocabulary : Vocabulary 32 :=
  ⟨"DmFlags", [("DM_IS_ACTIVE", 0x01), ("ENABLE_EVT_PEND", 0x10), ("DM_DISABLING_NFC", 0x80)]⟩

def discoveryVocabulary : Vocabulary 16 :=
  ⟨"DiscoveryFlags",
    [("ENABLED", 0x01), ("STOPPING", 0x02), ("DISABLING", 0x04), ("CHECKING", 0x08), ("NOTIFY", 0x10),
      ("W4_RSP", 0x20), ("W4_NTF", 0x40)]⟩

/-- What the charging module keeps about itself. -/
abbrev ModuleFlags := Flags moduleVocabulary

/-- What the device manager reports about itself. -/
abbrev DeviceFlags := Flags deviceVocabulary

/-- Transitions that radio discovery is going through. -/
abbrev DiscoveryFlags := Flags discoveryVocabulary

def ModuleFlags.nonAutonomousEnabled : ModuleFlags := ⟨0x01⟩
def ModuleFlags.transferPending : ModuleFlags := ⟨0x02⟩

def DeviceFlags.active : DeviceFlags := ⟨0x01⟩
def DeviceFlags.enablePending : DeviceFlags := ⟨0x10⟩
def DeviceFlags.disabling : DeviceFlags := ⟨0x80⟩

def DiscoveryFlags.enabled : DiscoveryFlags := ⟨0x01⟩
def DiscoveryFlags.stopping : DiscoveryFlags := ⟨0x02⟩
def DiscoveryFlags.disabling : DiscoveryFlags := ⟨0x04⟩
def DiscoveryFlags.awaitingResponse : DiscoveryFlags := ⟨0x20⟩
def DiscoveryFlags.awaitingNotification : DiscoveryFlags := ⟨0x40⟩

end WirelessCharging

import WirelessCharging.Proofs.Lines
import WirelessCharging.Proofs.Sections
/-!
What is written for some settings is read as them again. It is a plain document with a line for each of the two
numbers, and no document gives a number that could not be written.
-/
namespace WirelessCharging.Settings

open Toml (Value Line greatestInteger)

def lines (settings : Settings) : List Line :=
  [.heading "limits", .number "inbox_capacity" settings.inboxCapacity, .empty,
    .heading "timeouts", .number "module_shutdown_timeout_ms" settings.stopLimit]

theorem document_eq_lines (settings : Settings) :
    settings.document.toList = settings.lines.flatMap Line.text := by
  unfold document
  simp only [lines, List.flatMap_cons, Line.text, Nat.toString_eq_ofList_toDigits]
  -- The numerals stay as they are; only the texts around them are compared.
  generalize Nat.toDigits 10 settings.inboxCapacity = inbox
  generalize Nat.toDigits 10 settings.stopLimit = stop
  simp only [String.toList_append, String.toList_ofList]
  simp

theorem lines_plain {settings : Settings} (inbox : settings.inboxCapacity ≤ greatestInteger)
    (stop : settings.stopLimit ≤ greatestInteger) : ∀ line ∈ settings.lines, line.Plain := by
  rw [lines]
  simp only [List.forall_mem_cons, Line.Plain]
  exact ⟨by decide, ⟨by decide, inbox⟩, trivial, by decide, ⟨by decide, stop⟩, List.forall_mem_nil _⟩

theorem ofStatements_lines (settings : Settings) :
    Toml.ofStatements (settings.lines.flatMap Line.statements) =
      some [("limits", .table [("inbox_capacity", .integer settings.inboxCapacity)]),
        ("timeouts", .table [("module_shutdown_timeout_ms", .integer settings.stopLimit)])] := by
  rfl

theorem ofTable?_given (inboxCapacity stopLimit : Nat) :
    ofTable? [("limits", .table [("inbox_capacity", .integer inboxCapacity)]),
      ("timeouts", .table [("module_shutdown_timeout_ms", .integer stopLimit)])] =
      some { inboxCapacity, stopLimit } := by
  rfl

theorem read?_document {settings : Settings} (inbox : settings.inboxCapacity ≤ greatestInteger)
    (stop : settings.stopLimit ≤ greatestInteger) : read? settings.document = some settings := by
  rw [read?, Toml.read_lines (lines_plain inbox stop) settings.document_eq_lines, ofStatements_lines,
    Option.bind_some, ofTable?_given]

theorem natural?_fits {value : Value} (proper : value.Proper) {n : Nat} (h : natural? value = some n) :
    n ≤ greatestInteger := by
  obtain rfl := natural?_eq_some_iff.1 h
  cases proper with
  | integer fits => exact Toml.fitsInteger_natCast.1 fits

theorem sectionValue?_fits {key : String} {default : Nat} {found : Option Value} (small : default ≤ greatestInteger)
    (proper : ∀ value, found = some value → value.Proper) {n : Nat} (h : sectionValue? key default found = some n) :
    n ≤ greatestInteger := by
  unfold sectionValue? at h
  split at h
  · exact Option.some.inj h ▸ small
  · split at h
    · exact Option.some.inj h ▸ small
    · exact natural?_fits ((proper _ rfl).inside.found ‹_›) h
  · exact Option.some.inj h ▸ small
  · cases proper _ rfl with
    | array each => exact natural?_fits (each _ List.mem_cons_self) h
  · exact Option.some.inj h ▸ small
  · cases h

theorem read?_fits {document : String} {settings : Settings} (h : read? document = some settings) :
    settings.inboxCapacity ≤ greatestInteger ∧ settings.stopLimit ≤ greatestInteger := by
  obtain ⟨entries, read, -⟩ := Option.bind_eq_some_iff.1 h
  have orderly := Toml.read_orderly read
  obtain ⟨inbox, stop⟩ := read?_parts read h
  exact ⟨sectionValue?_fits (by decide) (fun _ => orderly.found) inbox,
    sectionValue?_fits (by decide) (fun _ => orderly.found) stop⟩

/-- What is written for settings that fit is read as them again, and so a document that has been accepted can be
replaced by what is written for the settings in it. -/
theorem document_round_trip :
    (∀ settings : Settings, settings.inboxCapacity ≤ greatestInteger → settings.stopLimit ≤ greatestInteger →
      read? settings.document = some settings) ∧
    ∀ (document : String) (settings : Settings), read? document = some settings →
      read? settings.document = some settings := by
  constructor
  · intro settings inbox stop
    exact read?_document inbox stop
  · intro document settings accepted
    obtain ⟨inbox, stop⟩ := read?_fits accepted
    exact read?_document inbox stop

theorem round_trip_of_dotted_document :
    read? "limits.inbox_capacity = 0x1_0 # sixteen\n" = some { inboxCapacity := 16 } ∧
      read? ({ inboxCapacity := 16 } : Settings).document = some { inboxCapacity := 16 } ∧
      read? ({ inboxCapacity := 0, stopLimit := greatestInteger } : Settings).document =
        some { inboxCapacity := 0, stopLimit := greatestInteger } := by
  have accepted : read? "limits.inbox_capacity = 0x1_0 # sixteen\n" = some { inboxCapacity := 16 } := by
    decide +kernel
  exact ⟨accepted, document_round_trip.2 _ _ accepted, document_round_trip.1 _ (by decide) (by decide)⟩

end WirelessCharging.Settings

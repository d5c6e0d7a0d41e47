import Mathlib.Logic.Relation
import WirelessCharging.Proofs.Lines
import WirelessCharging.Proofs.Orderly
import WirelessCharging.Settings.Document
/-!
Which documents are settings, and which settings they are. Of each section only the one number counts that it is
there for, so that nothing else in a document can make a difference, whatever it is and wherever it stands.
-/
namespace WirelessCharging.Settings

open Toml (Orderly Value)

/-- What a document gives for the number of a section: the number, or nothing where it may be left out. Where
neither is the case, the document is none of settings. -/
inductive Gives (place key : String) (entries : List (String × Value)) : Option Nat → Prop where
  | absent (missing : place ∉ entries.map (·.1)) : Gives place key entries none
  | unset {inner : List (String × Value)} (there : (place, .table inner) ∈ entries)
      (missing : key ∉ inner.map (·.1)) : Gives place key entries none
  | set {inner : List (String × Value)} {n : Nat} (there : (place, .table inner) ∈ entries)
      (number : (key, .integer n) ∈ inner) : Gives place key entries (some n)
  | emptyArray (there : (place, .array []) ∈ entries) : Gives place key entries none
  | array {n : Nat} {rest : List Value} (there : (place, .array (.integer n :: rest)) ∈ entries) :
      Gives place key entries (some n)

theorem natural?_eq_some_iff {value : Value} {n : Nat} : natural? value = some n ↔ value = .integer n := by
  constructor
  · intro h
    cases value with
    | integer m =>
      obtain ⟨positive, same⟩ := Option.ite_none_right_eq_some.1 h
      rw [← Option.some.inj same, Int.toNat_of_nonneg positive]
    | _ => cases h
  · rintro rfl
    rfl

variable {entries : List (String × Value)} {place key : String}

theorem Gives.sectionValue?_eq {given : Option Nat} (gives : Gives place key entries given)
    (orderly : Orderly Value.Proper entries) (default : Nat) :
    sectionValue? key default (Toml.lookup entries place) = some (given.getD default) := by
  have found : ∀ {value : Value}, (place, value) ∈ entries → Toml.lookup entries place = some value :=
    (Toml.lookup_eq_some_iff orderly.1).2
  cases gives with
  | absent missing =>
    rw [Toml.lookup, Toml.lookup_eq_none_iff.2 missing]
    rfl
  | @unset inner there missing =>
    have left_out : Toml.lookup inner key = none := Toml.lookup_eq_none_iff.2 missing
    rw [found there, sectionValue?, left_out]
    rfl
  | @set inner n there number =>
    have given : Toml.lookup inner key = some (.integer n) :=
      (Toml.lookup_eq_some_iff (orderly.2 _ there).inside.1).2 number
    rw [found there, sectionValue?, given]
    rfl
  | emptyArray there =>
    rw [found there]
    rfl
  | array there =>
    rw [found there]
    rfl

theorem gives_of_sectionValue? (moment : ∀ numeral, (place, .moment numeral) ∉ entries) {default n : Nat}
    (h : sectionValue? key default (Toml.lookup entries place) = some n) : ∃ given, Gives place key entries given := by
  unfold sectionValue? at h
  split at h
  · exact ⟨none, .absent (Toml.lookup_eq_none_iff.1 ‹_›)⟩
  · rename_i inner found
    have there := Toml.mem_of_lookup found
    split at h
    · exact ⟨none, .unset there (Toml.lookup_eq_none_iff.1 ‹_›)⟩
    · rename_i value number
      rw [natural?_eq_some_iff] at h
      exact ⟨some n, .set there (Toml.mem_of_lookup (h ▸ number))⟩
  · exact ⟨none, .emptyArray (Toml.mem_of_lookup ‹_›)⟩
  · rename_i value rest found
    rw [natural?_eq_some_iff] at h
    exact ⟨some n, .array (Toml.mem_of_lookup (h ▸ found))⟩
  · exact absurd (Toml.mem_of_lookup ‹_›) (moment _)
  · cases h

section Read

variable {document : String} {settings : Settings}

theorem read?_eq (read : Toml.read document = some entries) :
    read? document =
      (sectionValue? "inbox_capacity" 255 (Toml.lookup entries "limits")).bind fun inboxCapacity =>
        (sectionValue? "module_shutdown_timeout_ms" 10000 (Toml.lookup entries "timeouts")).map fun stopLimit =>
          { inboxCapacity, stopLimit } := by
  rw [read?, read]
  rfl

/-- Each of the two settings comes from a section of its own. -/
theorem read?_parts (read : Toml.read document = some entries) (accepted : read? document = some settings) :
    sectionValue? "inbox_capacity" 255 (Toml.lookup entries "limits") = some settings.inboxCapacity ∧
      sectionValue? "module_shutdown_timeout_ms" 10000 (Toml.lookup entries "timeouts") = some settings.stopLimit := by
  rw [read?_eq read] at accepted
  obtain ⟨inboxCapacity, inbox, made⟩ := Option.bind_eq_some_iff.1 accepted
  obtain ⟨stopLimit, stop, rfl⟩ := Option.map_eq_some_iff.1 made
  exact ⟨inbox, stop⟩

theorem read?_of_gives (read : Toml.read document = some entries) {inbox stop : Option Nat}
    (limits : Gives "limits" "inbox_capacity" entries inbox)
    (timeouts : Gives "timeouts" "module_shutdown_timeout_ms" entries stop) :
    read? document = some { inboxCapacity := inbox.getD 255, stopLimit := stop.getD 10000 } := by
  have orderly := Toml.read_orderly read
  rw [read?_eq read, limits.sectionValue?_eq orderly, timeouts.sectionValue?_eq orderly]
  rfl

theorem accepted_iff_gives (read : Toml.read document = some entries)
    (limits : ∀ numeral, ("limits", .moment numeral) ∉ entries)
    (timeouts : ∀ numeral, ("timeouts", .moment numeral) ∉ entries) :
    (read? document).isSome = true ↔
      (∃ inbox, Gives "limits" "inbox_capacity" entries inbox) ∧
        ∃ stop, Gives "timeouts" "module_shutdown_timeout_ms" entries stop := by
  constructor
  · intro accepted
    obtain ⟨settings, accepted⟩ := Option.isSome_iff_exists.1 accepted
    obtain ⟨inbox, stop⟩ := read?_parts read accepted
    exact ⟨gives_of_sectionValue? limits inbox, gives_of_sectionValue? timeouts stop⟩
  · rintro ⟨⟨inbox, inbox_gives⟩, stop, stop_gives⟩
    rw [read?_of_gives read inbox_gives stop_gives]
    rfl

end Read

/-- Where in a document a table stands: it is the whole document, or one of the two sections, or another one. -/
inductive Role where
  | document
  | part (number : String)
  | other

def Role.known : Role → List String
  | .document => ["limits", "timeouts"]
  | .part number => [number]
  | .other => []

def Role.under : Role → String → Role
  | .document, "limits" => .part "inbox_capacity"
  | .document, "timeouts" => .part "module_shutdown_timeout_ms"
  | _, _ => .other

/-- One change that touches nothing known, at any depth of a document. -/
inductive Edit : Role → Value → Value → Prop where
  | add {role : Role} {before after : List (String × Value)} {key : String} {value : Value}
      (unknown : key ∉ role.known) :
      Edit role (.table (before ++ after)) (.table (before ++ (key, value) :: after))
  | remove {role : Role} {before after : List (String × Value)} {key : String} {value : Value}
      (unknown : key ∉ role.known) :
      Edit role (.table (before ++ (key, value) :: after)) (.table (before ++ after))
  | change {role : Role} {before after : List (String × Value)} {key : String} {value new : Value}
      (unknown : key ∉ role.known) :
      Edit role (.table (before ++ (key, value) :: after)) (.table (before ++ (key, new) :: after))
  | reorder {role : Role} {entries others : List (String × Value)} (same : entries.Perm others) :
      Edit role (.table entries) (.table others)
  | inside {role : Role} {before after : List (String × Value)} {key : String} {value new : Value}
      (edit : Edit (role.under key) value new) :
      Edit role (.table (before ++ (key, value) :: after)) (.table (before ++ (key, new) :: after))
  | first {role : Role} {value new : Value} {rest : List Value} (edit : Edit .other value new) :
      Edit role (.array (value :: rest)) (.array (new :: rest))
  | behind {role : Role} {value : Value} {rest others : List Value} :
      Edit role (.array (value :: rest)) (.array (value :: others))

def Edited (document new : String) : Prop :=
  ∃ entries others, Toml.read document = some entries ∧ Toml.read new = some others ∧
    Edit .document (.table entries) (.table others)

theorem lookup_middle (before after : List (String × Value)) (value : Value) {other : String}
    (different : other ≠ key) :
    Toml.lookup (before ++ (key, value) :: after) other = Toml.lookup (before ++ after) other := by
  rw [Toml.lookup, Toml.lookup, List.lookup_append, List.lookup_append, List.lookup_cons,
    beq_eq_false_iff_ne.2 different]

/-- An edit of a table leaves what is known, or goes on inside of it. -/
theorem Edit.lookup {role : Role} {others : List (String × Value)} (edit : Edit role (.table entries) (.table others))
    (distinct : (entries.map (·.1)).Nodup) (known : key ∈ role.known) :
    Toml.lookup entries key = Toml.lookup others key ∨
      ∃ value new, Toml.lookup entries key = some value ∧ Toml.lookup others key = some new ∧
        Edit (role.under key) value new := by
  cases edit with
  | @add _ before after added value unknown =>
    exact .inl (lookup_middle before after value (ne_of_mem_of_not_mem known unknown)).symm
  | @remove _ before after removed value unknown =>
    exact .inl (lookup_middle before after value (ne_of_mem_of_not_mem known unknown))
  | @change _ before after changed value new unknown =>
    have different := ne_of_mem_of_not_mem known unknown
    exact .inl ((lookup_middle before after value different).trans (lookup_middle before after new different).symm)
  | reorder same => exact .inl (Toml.lookup_perm distinct same)
  | @inside _ before after inner value new edit =>
    -- An edit inside of an unknown table is one more way to change what stands under an unknown key.
    by_cases here : key = inner
    · subst here
      have distinct_new : ((before ++ (key, new) :: after).map (·.1)).Nodup := by
        rwa [List.map_append, List.map_cons] at distinct ⊢
      have found := (Toml.lookup_eq_some_iff distinct).2 (List.mem_append_right before List.mem_cons_self)
      have found_new := (Toml.lookup_eq_some_iff distinct_new).2 (List.mem_append_right before List.mem_cons_self)
      exact .inr ⟨value, new, found, found_new, edit⟩
    · exact .inl ((lookup_middle before after value here).trans (lookup_middle before after new here).symm)

theorem natural?_edit {role : Role} {value new : Value} (edit : Edit role value new) :
    natural? value = none ∧ natural? new = none := by
  cases edit <;> exact ⟨rfl, rfl⟩

theorem Edit.shape {role : Role} {value new : Value} (edit : Edit role value new) :
    (∃ entries others, value = .table entries ∧ new = .table others) ∨
      ∃ first rest first_new rest_new, value = .array (first :: rest) ∧ new = .array (first_new :: rest_new) ∧
        natural? first = natural? first_new := by
  cases edit with
  | first edit =>
    obtain ⟨unset, unset_new⟩ := natural?_edit edit
    exact .inr ⟨_, _, _, _, rfl, rfl, unset.trans unset_new.symm⟩
  | behind => exact .inr ⟨_, _, _, _, rfl, rfl, rfl⟩
  | _ => exact .inl ⟨_, _, rfl, rfl⟩

theorem sectionValue?_edit {value new : Value} (proper : value.Proper) (edit : Edit (.part key) value new)
    (default : Nat) : sectionValue? key default (some value) = sectionValue? key default (some new) := by
  rcases edit.shape with ⟨entries, others, rfl, rfl⟩ | ⟨first, rest, first_new, rest_new, rfl, rfl, same⟩
  · have known : key ∈ (Role.part key).known := List.mem_singleton_self key
    rw [sectionValue?, sectionValue?]
    rcases edit.lookup proper.inside.1 known with same | ⟨value, new, found, found_new, inner⟩
    · rw [same]
    · obtain ⟨unset, unset_new⟩ := natural?_edit inner
      simp only [found, found_new, unset, unset_new]
  · exact same

theorem found_edit {others : List (String × Value)} (orderly : Orderly Value.Proper entries)
    (edit : Edit .document (.table entries) (.table others)) (known : place ∈ Role.document.known)
    (part : Role.document.under place = .part key) (default : Nat) :
    sectionValue? key default (Toml.lookup entries place) = sectionValue? key default (Toml.lookup others place) := by
  rcases edit.lookup orderly.1 known with same | ⟨value, new, found, found_new, inner⟩
  · rw [same]
  · rw [part] at inner
    rw [found, found_new]
    exact sectionValue?_edit (orderly.found found) inner default

theorem read?_edited {document new : String} (edited : Edited document new) : read? document = read? new := by
  obtain ⟨entries, others, read, read_new, edit⟩ := edited
  have orderly := Toml.read_orderly read
  rw [read?_eq read, read?_eq read_new, found_edit orderly edit List.mem_cons_self rfl,
    found_edit orderly edit (List.mem_cons_of_mem _ List.mem_cons_self) rfl]

theorem read?_edits {document new : String} (edited : Relation.EqvGen Edited document new) :
    read? document = read? new := by
  induction edited with
  | rel document new edited => exact read?_edited edited
  | refl document => rfl
  | symm document new _ ih => exact ih.symm
  | trans document between new _ _ first second => exact first.trans second

/-- A document is accepted if each of the two sections is, whatever else there is in it. Each number is the one that
its own section gives or else its default, and no change to what is unknown, nor any other order, makes another
number of it. -/
theorem sections_decide :
    (∀ (document : String) (entries : List (String × Value)), Toml.read document = some entries →
      (∀ numeral, ("limits", .moment numeral) ∉ entries) → (∀ numeral, ("timeouts", .moment numeral) ∉ entries) →
      ((read? document).isSome = true ↔
        (∃ inbox, Gives "limits" "inbox_capacity" entries inbox) ∧
          ∃ stop, Gives "timeouts" "module_shutdown_timeout_ms" entries stop) ∧
      ∀ inbox stop, Gives "limits" "inbox_capacity" entries inbox →
        Gives "timeouts" "module_shutdown_timeout_ms" entries stop →
        read? document = some { inboxCapacity := inbox.getD 255, stopLimit := stop.getD 10000 }) ∧
    (∀ (document other : String) (entries others : List (String × Value)) (settings different : Settings),
      Toml.read document = some entries → Toml.read other = some others →
      read? document = some settings → read? other = some different →
      (Toml.lookup entries "limits" = Toml.lookup others "limits" →
        settings.inboxCapacity = different.inboxCapacity) ∧
      (Toml.lookup entries "timeouts" = Toml.lookup others "timeouts" →
        settings.stopLimit = different.stopLimit)) ∧
    ∀ document new, Relation.EqvGen Edited document new → read? document = read? new := by
  refine ⟨?_, ?_, fun document new edited => read?_edits edited⟩
  · intro document entries read limits timeouts
    exact ⟨accepted_iff_gives read limits timeouts, fun inbox stop => read?_of_gives read⟩
  · intro document other entries others settings different read read_other accepted accepted_other
    obtain ⟨inbox, stop⟩ := read?_parts read accepted
    obtain ⟨inbox_other, stop_other⟩ := read?_parts read_other accepted_other
    constructor
    · intro same
      rw [same] at inbox
      exact Option.some.inj (inbox.symm.trans inbox_other)
    · intro same
      rw [same] at stop
      exact Option.some.inj (stop.symm.trans stop_other)

theorem spare_key_makes_no_difference :
    (read? "[limits]\nspare = 1\ninbox_capacity = 4\n").isSome = true ∧
      read? "[limits]\nspare = 1\ninbox_capacity = 4\n" = some { inboxCapacity := 4, stopLimit := 10000 } ∧
      read? "[limits]\nspare = 1\ninbox_capacity = 4\n" = read? "[limits]\ninbox_capacity = 4\n" := by
  let spare : String × Value := ("spare", .integer 1)
  let capacity : String × Value := ("inbox_capacity", .integer 4)
  let lines : List Toml.Line := [.heading "limits", .number "spare" 1, .number "inbox_capacity" 4]
  let short : List Toml.Line := [.heading "limits", .number "inbox_capacity" 4]
  have read : Toml.read "[limits]\nspare = 1\ninbox_capacity = 4\n" = some [("limits", .table [spare, capacity])] :=
    @Toml.read_lines _ lines (by decide) (by decide)
  have read_short : Toml.read "[limits]\ninbox_capacity = 4\n" = some [("limits", .table [capacity])] :=
    @Toml.read_lines _ short (by decide) (by decide)
  have limits : Gives "limits" "inbox_capacity" [("limits", .table [spare, capacity])] (some 4) :=
    .set List.mem_cons_self (List.mem_cons_of_mem _ List.mem_cons_self)
  have timeouts : Gives "timeouts" "module_shutdown_timeout_ms" [("limits", .table [spare, capacity])] none :=
    .absent (by decide)
  obtain ⟨accepted, given⟩ := sections_decide.1 _ _ read (by simp) (by simp)
  have shortened : Edited "[limits]\nspare = 1\ninbox_capacity = 4\n" "[limits]\ninbox_capacity = 4\n" :=
    ⟨_, _, read, read_short, @Edit.inside _ [] [] "limits" _ _ (@Edit.remove _ [] _ "spare" _ (by decide))⟩
  exact ⟨accepted.2 ⟨⟨_, limits⟩, _, timeouts⟩, given _ _ limits timeouts,
    sections_decide.2.2 _ _ (.rel _ _ shortened)⟩

end WirelessCharging.Settings

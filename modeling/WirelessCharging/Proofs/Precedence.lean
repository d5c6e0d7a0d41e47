import WirelessCharging.Settings.Search
/-!
Which file decides about the settings. The search stops at the first place where there is anything, and neither what
stands behind it nor the directory that the environment passes over can be noticed, not even in the log.
-/
namespace WirelessCharging.Settings

/-- What is in the user's own directory, which is the named one only if its path is absolute. -/
def Surroundings.home (around : Surroundings) : Place :=
  if around.homeVariable = .absolute then around.named else around.fallback

/-- The first place where there is anything, the user's own directory before the shared ones. -/
def Surroundings.Finds (around : Surroundings) (place : Place) : Prop :=
  place ≠ .vacant ∧ ∃ before after, around.home :: around.shared = before ++ place :: after ∧
    ∀ earlier ∈ before, earlier = .vacant

/-- A file that can be read, that is text, and whose text is a document of settings. -/
def Place.Holds (place : Place) (settings : Settings) : Prop :=
  ∃ content document, place = .file content ∧ String.fromUTF8? content = some document ∧
    read? document = some settings

def Place.IsUseless (place : Place) : Prop := ∀ settings, ¬place.Holds settings

namespace Place

variable {place : Place} {settings : Settings}

theorem isVacant_iff : place.isVacant = true ↔ place = .vacant := by
  cases place with
  | vacant => exact iff_of_true rfl rfl
  | unreadable => exact iff_of_false nofun nofun
  | file content => exact iff_of_false nofun nofun

theorem settings?_eq_some_iff : place.settings? = some settings ↔ place.Holds settings := by
  constructor
  · intro h
    cases place with
    | file content =>
      obtain ⟨document, decoded, read⟩ := Option.bind_eq_some_iff.1 h
      exact ⟨content, document, rfl, decoded, read⟩
    | vacant => cases h
    | unreadable => cases h
  · rintro ⟨content, document, rfl, decoded, read⟩
    exact Option.bind_eq_some_iff.2 ⟨document, decoded, read⟩

theorem settings?_eq_none_iff : place.settings? = none ↔ place.IsUseless := by
  rw [Option.eq_none_iff_forall_ne_some]
  exact forall_congr' fun settings => not_congr settings?_eq_some_iff

end Place

namespace Surroundings

variable {around other : Surroundings} {place : Place}

theorem places_eq (around : Surroundings) : around.places = around.home :: around.shared := by
  rw [places, home]
  cases around.homeVariable <;> rfl

theorem finds_iff : around.Finds place ↔ around.places.find? (!·.isVacant) = some place := by
  rw [List.find?_eq_some_iff_append, places_eq, Finds]
  simp only [Bool.not_eq_true', Bool.not_not, Place.isVacant_iff, ← Bool.not_eq_true]

theorem search_of_nothing (nothing : ∀ place, ¬around.Finds place) : search around = ({}, [.info]) := by
  have unfound : around.places.find? (!·.isVacant) = none :=
    Option.eq_none_iff_forall_ne_some.2 fun place found => nothing place (finds_iff.2 found)
  rw [search, unfound]

theorem search_of_holds (finds : around.Finds place) {settings : Settings} (holds : place.Holds settings) :
    search around = (settings, [.info]) := by
  simp only [search, finds_iff.1 finds, Place.settings?_eq_some_iff.2 holds]

theorem search_of_useless (finds : around.Finds place) (useless : place.IsUseless) :
    search around = ({}, [.info, .error]) := by
  simp only [search, finds_iff.1 finds, Place.settings?_eq_none_iff.2 useless]

theorem ends (around : Surroundings) :
    (∀ place, ¬around.Finds place) ∨
      ∃ place, around.Finds place ∧ ((∃ settings, place.Holds settings) ∨ place.IsUseless) := by
  cases found : around.places.find? (!·.isVacant) with
  | none =>
    refine .inl fun place finds => ?_
    rw [finds_iff.1 finds] at found
    cases found
  | some place =>
    refine .inr ⟨place, finds_iff.2 found, ?_⟩
    cases held : place.settings? with
    | none => exact .inr (Place.settings?_eq_none_iff.1 held)
    | some settings => exact .inl ⟨settings, Place.settings?_eq_some_iff.1 held⟩

theorem error_iff : .error ∈ (search around).2 ↔ ∃ place, around.Finds place ∧ place.IsUseless := by
  constructor
  · intro logged
    rcases around.ends with nothing | ⟨place, finds, ⟨settings, holds⟩ | useless⟩
    · rw [search_of_nothing nothing] at logged
      exact absurd logged (by decide)
    · rw [search_of_holds finds holds] at logged
      exact absurd logged (by simp)
    · exact ⟨place, finds, useless⟩
  · rintro ⟨place, finds, useless⟩
    rw [search_of_useless finds useless]
    exact List.mem_cons_of_mem _ List.mem_cons_self

theorem search_behind {before after others : List Place} (solid : place ≠ .vacant)
    (here : around.home :: around.shared = before ++ place :: after)
    (there : other.home :: other.shared = before ++ place :: others) : search other = search around := by
  have stops : (!place.isVacant) = true := by
    rw [Bool.not_eq_true', ← Bool.not_eq_true, Place.isVacant_iff]
    exact solid
  have same : other.places.find? (!·.isVacant) = around.places.find? (!·.isVacant) := by
    rw [places_eq, places_eq, here, there, List.find?_append, List.find?_append, List.find?_cons, List.find?_cons,
      stops]
  rw [search, search, same]

theorem search_congr (home : other.home = around.home) (shared : other.shared = around.shared) :
    search other = search around := by
  rw [search, search, places_eq, places_eq, home, shared]

end Surroundings

/-- The first place where there is anything decides, and only that place. -/
theorem search_decides (around : Surroundings) :
    ((∀ place, ¬around.Finds place) → search around = ({}, [.info])) ∧
    (∀ place settings, around.Finds place → place.Holds settings → search around = (settings, [.info])) ∧
    (∀ place, around.Finds place → place.IsUseless → search around = ({}, [.info, .error])) ∧
    (.error ∈ (search around).2 ↔ ∃ place, around.Finds place ∧ place.IsUseless) ∧
    (∀ (other : Surroundings) (before : List Place) (place : Place) (after others : List Place), place ≠ .vacant →
      around.home :: around.shared = before ++ place :: after →
      other.home :: other.shared = before ++ place :: others → search other = search around) ∧
    (∀ place, around.homeVariable = .absolute → search { around with fallback := place } = search around) ∧
    ∀ place, around.homeVariable ≠ .absolute → search { around with named := place } = search around := by
  refine ⟨Surroundings.search_of_nothing, ?_, ?_, Surroundings.error_iff, ?_, ?_, ?_⟩
  · intro place settings finds holds
    exact Surroundings.search_of_holds finds holds
  · intro place finds useless
    exact Surroundings.search_of_useless finds useless
  · intro other before place after others solid here there
    exact Surroundings.search_behind solid here there
  · intro place named
    refine Surroundings.search_congr ?_ rfl
    rw [Surroundings.home, Surroundings.home, if_pos named, if_pos named]
  · intro place unnamed
    refine Surroundings.search_congr ?_ rfl
    rw [Surroundings.home, Surroundings.home, if_neg unnamed, if_neg unnamed]

theorem unreadable_file_decides :
    search { named := .unreadable, shared := [.file "limits.inbox_capacity = 4".toUTF8] } = ({}, [.info, .error]) ∧
      search { homeVariable := .relative, named := .unreadable,
               shared := [.file "limits.inbox_capacity = 4".toUTF8] } = ({ inboxCapacity := 4 }, [.info]) ∧
      search { homeVariable := .relative, named := .vacant,
               shared := [.file "limits.inbox_capacity = 4".toUTF8] } = ({ inboxCapacity := 4 }, [.info]) := by
  let file : Place := .file "limits.inbox_capacity = 4".toUTF8
  let passed : Surroundings := { homeVariable := .relative, named := .unreadable, shared := [file] }
  have stopped : ({ named := .unreadable, shared := [file] } : Surroundings).Finds .unreadable :=
    ⟨nofun, [], [file], rfl, List.forall_mem_nil _⟩
  have useless : Place.unreadable.IsUseless := by
    rintro settings ⟨content, document, same, -⟩
    cases same
  have finds : passed.Finds file := ⟨nofun, [.vacant], [], rfl, List.forall_mem_singleton.2 rfl⟩
  have holds : file.Holds { inboxCapacity := 4 } :=
    ⟨_, "limits.inbox_capacity = 4", rfl, by decide +kernel, by decide +kernel⟩
  have taken := (search_decides passed).2.1 file _ finds holds
  have unseen := (search_decides passed).2.2.2.2.2.2 .vacant nofun
  exact ⟨(search_decides _).2.2.1 .unreadable stopped useless, taken, unseen.trans taken⟩

end WirelessCharging.Settings

import WirelessCharging.Text.Shape
/-!
The names of a set read off its text. Whatever the layout, the names are the words behind the opening brace: all that
stands between them are separators, which no name has in it.
-/
namespace WirelessCharging

def isNameChar (c : Char) : Bool := c.isAlphanum || c == '_'

def words (cs : List Char) : List String :=
  ((cs.splitOnP fun c => !isNameChar c).filter fun run => !run.isEmpty).map String.ofList

def listedNames (text : String) : List String := words (text.toList.dropWhile (· != '\x7b'))

def isName (name : String) : Bool := !name.toList.isEmpty && name.toList.all isNameChar

theorem words_append_cons (before after : List Char) {sep : Char} (breaks : isNameChar sep = false) :
    words (before ++ sep :: after) = words before ++ words after := by
  have parts : (before ++ sep :: after).splitOnP (fun c => !isNameChar c) =
      before.splitOnP (fun c => !isNameChar c) ++ after.splitOnP (fun c => !isNameChar c) :=
    List.splitOnP_append_cons before after (by rw [breaks]; rfl)
  rw [words, parts, List.filter_append, List.map_append]
  rfl

theorem words_cons {sep : Char} (breaks : isNameChar sep = false) (after : List Char) :
    words (sep :: after) = words after :=
  words_append_cons [] after breaks

theorem words_separators {separators : List Char} (breaks : ∀ c ∈ separators, isNameChar c = false)
    (after : List Char) : words (separators ++ after) = words after := by
  induction separators with
  | nil => rfl
  | cons sep separators ih =>
    obtain ⟨first, others⟩ := List.forall_mem_cons.1 breaks
    rw [List.cons_append, words_cons first, ih others]

variable {name title : String} {members : List String}

theorem words_name (named : isName name = true) : words name.toList = [name] := by
  obtain ⟨filled, each⟩ := Bool.and_eq_true_iff.1 named
  have whole : name.toList.splitOnP (fun c => !isNameChar c) = [name.toList] := by
    apply List.splitOnP_eq_singleton
    intro c member
    rw [List.all_eq_true.1 each c member]
    rfl
  have kept : [name.toList].filter (fun run => !run.isEmpty) = [name.toList] := List.filter_cons_of_pos filled
  rw [words, whole, kept, List.map_singleton, String.ofList_toList]

theorem words_name_append (named : isName name = true) {sep : Char} (breaks : isNameChar sep = false)
    (after : List Char) : words (name.toList ++ sep :: after) = name :: words after := by
  rw [words_append_cons _ _ breaks, words_name named]
  rfl

theorem words_intercalate (names : ∀ member ∈ members, isName member = true) {sep : Char} (breaks : isNameChar sep = false)
    (after : List Char) : words ((", ".intercalate members).toList ++ sep :: after) = members ++ words after := by
  induction members with
  | nil => exact words_cons breaks after
  | cons member members ih =>
    obtain ⟨first, others⟩ := List.forall_mem_cons.1 names
    cases members with
    | nil =>
      rw [String.intercalate_singleton]
      exact words_name_append first breaks after
    | cons next members =>
      rw [String.intercalate_cons_cons, String.toList_append, String.toList_append, List.append_assoc, List.append_assoc]
      calc words (member.toList ++ ',' :: ' ' :: ((", ".intercalate (next :: members)).toList ++ sep :: after))
        _ = member :: words (' ' :: ((", ".intercalate (next :: members)).toList ++ sep :: after)) :=
          words_name_append first rfl _
        _ = member :: words ((", ".intercalate (next :: members)).toList ++ sep :: after) := by rw [words_cons rfl]
        _ = member :: (next :: members ++ words after) := by rw [ih others]

theorem isNameChar_indent {depth : Nat} : ∀ c ∈ (indent depth).toList, isNameChar c = false := by
  intro c column
  rw [indent, String.toList_ofList] at column
  rw [List.eq_of_mem_replicate column]
  rfl

theorem words_partLines (names : ∀ member ∈ members, isName member = true) (depth : Nat) (after : List Char) :
    words ((partLines depth members).toList ++ after) = members ++ words after := by
  induction members with
  | nil => rfl
  | cons member members ih =>
    obtain ⟨first, others⟩ := List.forall_mem_cons.1 names
    have line : (partLines depth (member :: members)).toList ++ after =
        (indent depth).toList ++ (member.toList ++ ',' :: '\n' :: ((partLines depth members).toList ++ after)) := by
      simp [partLines, String.join_cons]
    rw [line, words_separators isNameChar_indent, words_name_append first rfl, words_cons rfl, ih others]
    rfl

theorem listedNames_of_brace {text : String} {rest : List Char} (opens : text.toList = title.toList ++ '\x7b' :: rest)
    (untitled : '\x7b' ∉ title.toList) : listedNames text = words rest := by
  have before : ∀ c ∈ title.toList, (c != '\x7b') = true := by
    intro c member
    exact bne_iff_ne.2 fun same => untitled (same ▸ member)
  rw [listedNames, opens, List.dropWhile_append_of_pos before, List.dropWhile_cons_of_neg (by decide), words_cons rfl]

theorem listedNames_compact (untitled : '\x7b' ∉ title.toList) (names : ∀ member ∈ members, isName member = true) :
    listedNames (Shape.set title members).compact = members := by
  have opens : (Shape.set title members).compact.toList =
      title.toList ++ '\x7b' :: ((", ".intercalate members).toList ++ ['\x7d']) := by
    simp [Shape.compact]
  rw [listedNames_of_brace opens untitled, words_intercalate names rfl]
  exact List.append_nil members

theorem listedNames_prettyAt (untitled : '\x7b' ∉ title.toList) (names : ∀ member ∈ members, isName member = true)
    (depth : Nat) : listedNames ((Shape.set title members).prettyAt depth) = members := by
  cases members with
  | nil =>
    have opens : ((Shape.set title []).prettyAt depth).toList = title.toList ++ '\x7b' :: ['\x7d'] := by
      simp [Shape.prettyAt]
    rw [listedNames_of_brace opens untitled]
    rfl
  | cons member members =>
    have opens : ((Shape.set title (member :: members)).prettyAt depth).toList = title.toList ++ '\x7b' ::
        '\n' :: ((partLines (depth + 1) (member :: members)).toList ++ ((indent depth).toList ++ ['\x7d'])) := by
      simp [Shape.prettyAt]
    rw [listedNames_of_brace opens untitled, words_cons rfl, words_partLines names, words_separators isNameChar_indent]
    exact List.append_nil (member :: members)

end WirelessCharging

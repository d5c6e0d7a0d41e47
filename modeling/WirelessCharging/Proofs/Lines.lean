import WirelessCharging.Proofs.Numerals
import WirelessCharging.Toml.Document
/-!
Plain documents, in which a line is empty, the header of a table or a bare key with a number. Reading takes one line
off after the other.
-/
namespace WirelessCharging.Toml

inductive Line where
  | empty
  | heading (key : String)
  | number (key : String) (n : Nat)

namespace Line

def text : Line → List Char
  | .empty => ['\n']
  | .heading key => '[' :: (key.toList ++ [']', '\n'])
  | .number key n => key.toList ++ (' ' :: '=' :: ' ' :: (Nat.toDigits 10 n ++ ['\n']))

def statements : Line → List Statement
  | .empty => []
  | .heading key => [.header { parents := [], key }]
  | .number key n => [.pair { parents := [], key } (.integer n)]

end Line

def IsBare (key : String) : Prop := key.toList ≠ [] ∧ ∀ c ∈ key.toList, isKeyChar c = true

def Line.Plain : Line → Prop
  | .empty => True
  | .heading key => IsBare key
  | .number key n => IsBare key ∧ n ≤ greatestInteger

theorem IsBare.cons {key : String} (bare : IsBare key) :
    ∃ first others, key.toList = first :: others ∧ isKeyChar first = true := by
  obtain ⟨first, others, same⟩ := List.exists_cons_of_ne_nil bare.1
  exact ⟨first, others, same, bare.2 first (same ▸ List.mem_cons_self)⟩

instance (key : String) : Decidable (IsBare key) :=
  decidable_of_iff ((!key.toList.isEmpty && key.toList.all isKeyChar) = true) (by simp [IsBare])

instance (line : Line) : Decidable line.Plain :=
  match line with
  | .empty => .isTrue trivial
  | .heading key => inferInstanceAs (Decidable (IsBare key))
  | .number key n => inferInstanceAs (Decidable (IsBare key ∧ n ≤ greatestInteger))

theorem isKeyChar_ne {c mark : Char} (h : isKeyChar c = true) (other : isKeyChar mark = false) : c ≠ mark := by
  rintro rfl
  rw [h] at other
  cases other

theorem skipBlanks_of_not {c : Char} (h : isBlank c = false) (rest : List Char) :
    skipBlanks (c :: rest) = c :: rest := List.dropWhile_cons_of_neg (by simp [h])

theorem isKeyChar_of_isDigit {c : Char} (h : c.isDigit = true) : isKeyChar c = true := by
  simp only [isKeyChar, Char.isAlphanum, h, Bool.or_true, Bool.true_or]

theorem isBlank_of_isKeyChar {c : Char} (h : isKeyChar c = true) : isBlank c = false := by
  rw [isBlank, Bool.or_eq_false_iff, beq_eq_false_iff_ne, beq_eq_false_iff_ne]
  exact ⟨isKeyChar_ne h (by decide), isKeyChar_ne h (by decide)⟩

theorem readKey_bare {key : String} (bare : IsBare key) {mark : Char} (other : isKeyChar mark = false)
    (rest : List Char) : readKey (key.toList ++ mark :: rest) = some (key, mark :: rest) := by
  have taken : (key.toList ++ mark :: rest).takeWhile isKeyChar = key.toList := by
    rw [List.takeWhile_append_of_pos bare.2, List.takeWhile_cons_of_neg (by simp [other]), List.append_nil]
  have left : (key.toList ++ mark :: rest).dropWhile isKeyChar = mark :: rest := by
    rw [List.dropWhile_append_of_pos bare.2, List.dropWhile_cons_of_neg (by simp [other])]
  obtain ⟨first, others, same, key_char⟩ := bare.cons
  rw [readKey, taken, left]
  · split
    · exact absurd ‹_› bare.1
    · rw [String.ofList_toList]
  all_goals
    rw [same]
    rintro rest ⟨⟩
    exact absurd key_char (by decide)

theorem readPath_bare {key : String} (bare : IsBare key) {mark : Char} (other : isKeyChar mark = false)
    {rest : List Char} (ends : ∀ more, skipBlanks (mark :: rest) ≠ '.' :: more) :
    readPath (key.toList ++ mark :: rest) = some ({ parents := [], key }, skipBlanks (mark :: rest)) := by
  have unskipped : skipBlanks (key.toList ++ mark :: rest) = key.toList ++ mark :: rest := by
    obtain ⟨first, others, same, key_char⟩ := bare.cons
    rw [same, List.cons_append, skipBlanks_of_not (isBlank_of_isKeyChar key_char)]
  have keys : readKeys (key.toList ++ mark :: rest) = some ([key], skipBlanks (mark :: rest)) := by
    rw [readKeys, unskipped, readKey_bare bare other]
    dsimp only
    split
    · exact absurd ‹_› (ends _)
    · rfl
  rw [readPath, keys]
  rfl

structure Opens (c : Char) : Prop where
  solid : isBlank c = false
  comment : c ≠ '#'
  newline : c ≠ '\n'
  carriage : c ≠ '\r'

theorem opens_of_isKeyChar {c : Char} (h : isKeyChar c = true) : Opens c where
  solid := isBlank_of_isKeyChar h
  comment := isKeyChar_ne h (by decide)
  newline := isKeyChar_ne h (by decide)
  carriage := isKeyChar_ne h (by decide)

theorem lineEnd?_of_opens {c : Char} (opens : Opens c) (cs : List Char) : lineEnd? (c :: cs) = none := by
  have uncommented : skipComment (c :: cs) = c :: cs := by
    rw [skipComment]
    rintro rest ⟨⟩
    exact opens.comment rfl
  rw [lineEnd?, skipBlanks_of_not opens.solid, uncommented]
  dsimp only
  rw [lineBreak?]
  · rintro rest ⟨⟩
    exact opens.newline rfl
  · rintro rest ⟨⟩
    exact opens.carriage rfl

/-- A statement that fills its line is read, and then what stands on the lines behind it. -/
theorem readStatements_line {c : Char} {cs rest : List Char} {statement : Statement}
    (opens : Opens c) (line : readStatement (c :: cs) = some (statement, '\n' :: rest))
    (shorter : rest.length < cs.length) :
    readStatements (c :: cs) = (readStatements rest).map (statement :: ·) := by
  have ended : lineEnd? ('\n' :: rest) = some rest := rfl
  have less : rest.length < (c :: cs).length := by
    rw [List.length_cons]
    omega
  rw [readStatements, skipBlanks_of_not opens.solid]
  simp only [lineEnd?_of_opens opens, line, ended, if_pos less]

theorem readStatements_empty (rest : List Char) : readStatements ('\n' :: rest) = readStatements rest := by
  have ended : lineEnd? ('\n' :: rest) = some rest := rfl
  have less : rest.length < ('\n' :: rest).length := by
    rw [List.length_cons]
    omega
  rw [readStatements, skipBlanks_of_not (by decide)]
  simp only [ended, if_pos less]

theorem readStatements_heading {key : String} (bare : IsBare key) (rest : List Char) :
    readStatements ('[' :: (key.toList ++ ']' :: '\n' :: rest)) =
      (readStatements rest).map (.header { parents := [], key } :: ·) := by
  have path : readPath (key.toList ++ ']' :: '\n' :: rest) = some ({ parents := [], key }, ']' :: '\n' :: rest) :=
    readPath_bare bare (by decide) (by rintro more ⟨⟩)
  refine readStatements_line ⟨by decide, by decide, by decide, by decide⟩ ?_ ?_
  · obtain ⟨first, others, same, key_char⟩ := bare.cons
    rw [readStatement, path]
    · rfl
    · intro more other
      rw [same] at other
      exact isKeyChar_ne key_char (by decide) (List.cons.inj other).1
  · rw [List.length_append, List.length_cons, List.length_cons]
    omega

theorem skipBlanks_numeral (n : Nat) (rest : List Char) :
    skipBlanks (' ' :: (Nat.toDigits 10 n ++ rest)) = Nat.toDigits 10 n ++ rest := by
  obtain ⟨first, others, same, digit⟩ := numeral_cons n
  have solid : isBlank first = false := isBlank_of_isKeyChar (isKeyChar_of_isDigit digit)
  rw [same]
  exact skipBlanks_of_not solid _

theorem readPair_bare {key : String} (bare : IsBare key) {n : Nat} (fits : n ≤ greatestInteger) (depth : Nat)
    (rest : List Char) :
    readPair (readValue depth) (key.toList ++ ' ' :: '=' :: ' ' :: (Nat.toDigits 10 n ++ '\n' :: rest)) =
      some (({ parents := [], key }, .integer n), '\n' :: rest) := by
  have path : readPath (key.toList ++ ' ' :: '=' :: ' ' :: (Nat.toDigits 10 n ++ '\n' :: rest)) =
      some ({ parents := [], key }, '=' :: ' ' :: (Nat.toDigits 10 n ++ '\n' :: rest)) :=
    readPath_bare bare (by decide) (by rintro more ⟨⟩)
  rw [readPair, path]
  simp only [skipBlanks_numeral, readValue_numeral fits, Option.map_some]

theorem readStatements_number {key : String} (bare : IsBare key) {n : Nat} (fits : n ≤ greatestInteger)
    (rest : List Char) :
    readStatements (key.toList ++ ' ' :: '=' :: ' ' :: (Nat.toDigits 10 n ++ '\n' :: rest)) =
      (readStatements rest).map (.pair { parents := [], key } (.integer n) :: ·) := by
  have pair := readPair_bare bare fits deepest rest
  obtain ⟨first, others, same, key_char⟩ := bare.cons
  rw [same, List.cons_append] at pair ⊢
  refine readStatements_line (opens_of_isKeyChar key_char) ?_ ?_
  · rw [readStatement, pair, Option.map_some]
    all_goals
      intro more other
      exact isKeyChar_ne key_char (by decide) (List.cons.inj other).1
  · simp only [List.length_append, List.length_cons]
    omega

theorem readStatements_lines {lines : List Line} (plain : ∀ line ∈ lines, line.Plain) :
    readStatements (lines.flatMap Line.text) = some (lines.flatMap Line.statements) := by
  induction lines with
  | nil =>
    rw [List.flatMap_nil, readStatements]
    rfl
  | cons line lines ih =>
    obtain ⟨here, there⟩ := List.forall_mem_cons.1 plain
    rw [List.flatMap_cons, List.flatMap_cons]
    cases line with
    | empty => exact (readStatements_empty _).trans (ih there)
    | heading key =>
      have read := readStatements_heading here (lines.flatMap Line.text)
      rw [ih there] at read
      simpa [Line.text, Line.statements] using read
    | number key n =>
      have read := readStatements_number here.1 here.2 (lines.flatMap Line.text)
      rw [ih there] at read
      simpa [Line.text, Line.statements] using read

theorem withoutMark_lines {lines : List Line} (plain : ∀ line ∈ lines, line.Plain) :
    withoutMark (lines.flatMap Line.text) = lines.flatMap Line.text := by
  cases lines with
  | nil => rfl
  | cons line lines =>
    have here := (List.forall_mem_cons.1 plain).1
    rw [List.flatMap_cons]
    cases line with
    | empty => rfl
    | heading key => rfl
    | number key n =>
      obtain ⟨first, others, same, key_char⟩ := here.1.cons
      rw [Line.text, same, List.cons_append, List.cons_append, withoutMark]
      intro more other
      exact isKeyChar_ne key_char (by decide) (List.cons.inj other).1

theorem read_lines {document : String} {lines : List Line} (plain : ∀ line ∈ lines, line.Plain)
    (written : document.toList = lines.flatMap Line.text) :
    read document = ofStatements (lines.flatMap Line.statements) := by
  rw [read, written, withoutMark_lines plain, readStatements_lines plain, Option.bind_some]

end WirelessCharging.Toml

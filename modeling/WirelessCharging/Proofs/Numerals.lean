import WirelessCharging.Proofs.Digits
import WirelessCharging.Toml.Statement
/-!
Whole numbers written with decimal digits: each is read back as the number that it was written for, as long as it
fits into 64 bits with a sign.
-/
namespace WirelessCharging.Toml

def greatestInteger : Nat := 9223372036854775807

theorem fitsInteger_natCast {n : Nat} : fitsInteger n = true ↔ n ≤ greatestInteger := by
  simp only [fitsInteger, greatestInteger, Bool.and_eq_true, decide_eq_true_eq]
  omega

variable {c : Char} {digits : List Char}

theorem digitValue?_of_isDigit (h : c.isDigit = true) : digitValue? c = some (c.toNat - '0'.toNat) := by
  obtain ⟨least, greatest⟩ := Char.isDigit_iff_toNat.1 h
  exact if_pos ⟨least, greatest⟩

theorem isDigitIn_of_isDigit (h : c.isDigit = true) : isDigitIn 10 c = true := by
  obtain ⟨least, greatest⟩ := Char.isDigit_iff_toNat.1 h
  have top : '9'.toNat = 57 := rfl
  have bottom : '0'.toNat = 48 := rfl
  rw [isDigitIn, digitValue?_of_isDigit h, Option.any_some, decide_eq_true_eq]
  omega

theorem isTokenChar_of_isDigit (h : c.isDigit = true) : isTokenChar c = true := by
  simp only [isTokenChar, Char.isAlphanum, h, Bool.or_true, Bool.true_or]

theorem groupedDigits?_digits (some_digit : digits ≠ []) (each : ∀ c ∈ digits, c.isDigit = true) :
    groupedDigits? 10 digits = some digits := by
  fun_induction groupedDigits? 10 digits with
  | case1 => exact absurd rfl some_digit
  | case2 => rfl
  | case4 => exact absurd (each '_' (List.mem_cons_of_mem _ List.mem_cons_self)) (by decide)
  | case6 c rest more _ _ ih => rw [ih more fun c member => each c (List.mem_cons_of_mem _ member), Option.map_some]
  | case3 _ no_digit | case5 _ _ no_digit | case7 _ _ _ _ no_digit =>
    exact absurd (isDigitIn_of_isDigit (each _ List.mem_cons_self)) no_digit

theorem isDigit_of_mem_numeral {n : Nat} : ∀ c ∈ Nat.toDigits 10 n, c.isDigit = true := by
  intro c member
  exact Nat.isDigit_of_mem_toDigits (by decide) (by decide) member

theorem numeral_cons (n : Nat) : ∃ first others, Nat.toDigits 10 n = first :: others ∧ first.isDigit = true := by
  obtain ⟨first, others, same⟩ := List.exists_cons_of_ne_nil (Nat.toDigits_ne_nil (n := n) (b := 10))
  exact ⟨first, others, same, isDigit_of_mem_numeral first (same ▸ List.mem_cons_self)⟩

theorem numeral_head_ne_zero {n : Nat} (positive : 0 < n) : (Nat.toDigits 10 n).head? ≠ some '0' := by
  have leads : 0 < n → ∃ first others, Nat.toDigits 10 n = first :: others ∧ first ≠ '0' := by
    refine toDigits_induction (P := fun n digits => 0 < n → ∃ first others, digits = first :: others ∧ first ≠ '0')
      (by decide) ?single ?longer n
    case single =>
      intro n _ positive
      refine ⟨n.digitChar, [], rfl, ?_⟩
      intro zero
      exact Nat.ne_of_gt positive (Nat.digitChar_eq_zero.1 zero)
    case longer =>
      intro rest digits last more _ front _
      obtain ⟨first, others, rfl, leading⟩ := front more
      exact ⟨first, others ++ [last.digitChar], rfl, leading⟩
  obtain ⟨first, others, same, leading⟩ := leads positive
  rw [same, List.head?_cons]
  exact fun zero => leading (Option.some.inj zero)

theorem decimalDigits?_numeral (n : Nat) : decimalDigits? (Nat.toDigits 10 n) = some (Nat.toDigits 10 n) := by
  rw [decimalDigits?, groupedDigits?_digits Nat.toDigits_ne_nil isDigit_of_mem_numeral, Option.filter_eq_some_iff]
  refine ⟨rfl, ?_⟩
  rcases Nat.eq_zero_or_pos n with rfl | positive
  · rfl
  · rw [bne_iff_ne.2 (numeral_head_ne_zero positive), Bool.or_true]

theorem takeSign_digits (each : ∀ c ∈ digits, c.isDigit = true) : takeSign digits = (false, digits) := by
  unfold takeSign
  split
  · exact absurd (each _ List.mem_cons_self) (by decide)
  · exact absurd (each _ List.mem_cons_self) (by decide)
  · rfl

theorem integer?_numeral {n : Nat} (fits : n ≤ greatestInteger) : integer? (Nat.toDigits 10 n) = some (n : Int) := by
  have each := isDigit_of_mem_numeral (n := n)
  have second : ∀ {b : Char} {rest : List Char}, Nat.toDigits 10 n = '0' :: b :: rest → b.isDigit = true := by
    intro b rest same
    exact each b (same ▸ List.mem_cons_of_mem _ List.mem_cons_self)
  have value : ofDigits 10 (Nat.toDigits 10 n) = n := ofDigits_toDigits (by decide) (by decide) n
  rw [integer?, takeSign_digits each, Option.filter_eq_some_iff]
  · constructor
    · simp only [decimalDigits?_numeral, Option.map_some, signed, value, Bool.false_eq_true, if_false]
    · exact fitsInteger_natCast.2 fits
  · exact fun _ same => absurd (second same) (by decide)
  · exact fun _ same => absurd (second same) (by decide)
  · exact fun _ same => absurd (second same) (by decide)

theorem isMoment_digits (each : ∀ c ∈ digits, c.isDigit = true) : isMoment digits = false := by
  have date : date? digits = none := by
    unfold date?
    split
    · exact absurd (each '-' (by simp)) (by decide)
    · rfl
  have time : time? digits = none := by
    unfold time?
    split
    · exact absurd (each ':' (by simp)) (by decide)
    · rfl
  rw [isMoment, date, time]
  rfl

theorem token?_numeral {n : Nat} (fits : n ≤ greatestInteger) : token? (Nat.toDigits 10 n) = some (.integer n) := by
  have each := isDigit_of_mem_numeral (n := n)
  have word : ∀ {c : Char} {cs : List Char}, c.isDigit = false → (Nat.toDigits 10 n == c :: cs) = false := by
    intro c cs letter
    rw [beq_eq_false_iff_ne]
    intro same
    rw [each c (same ▸ List.mem_cons_self)] at letter
    cases letter
  rw [token?, word (by decide), word (by decide), isMoment_digits each, number?, integer?_numeral fits]
  rfl

theorem readValue_of_isTokenChar (h : isTokenChar c = true) (depth : Nat) (rest : List Char) :
    readValue depth (c :: rest) = readToken (c :: rest) := by
  rw [readValue]
  all_goals
    rintro rest ⟨⟩
    exact absurd h (by decide)

theorem readValue_numeral {n : Nat} (fits : n ≤ greatestInteger) (depth : Nat) (rest : List Char) :
    readValue depth (Nat.toDigits 10 n ++ '\n' :: rest) = some (.integer n, '\n' :: rest) := by
  have token : ∀ c ∈ Nat.toDigits 10 n, isTokenChar c = true :=
    fun c member => isTokenChar_of_isDigit (isDigit_of_mem_numeral c member)
  have plain : readToken (Nat.toDigits 10 n ++ '\n' :: rest) = some (.integer n, '\n' :: rest) := by
    rw [readToken, List.takeWhile_append_of_pos token, List.dropWhile_append_of_pos token,
      List.takeWhile_cons_of_neg (by decide), List.dropWhile_cons_of_neg (by decide), List.append_nil,
      token?_numeral fits]
    rfl
  obtain ⟨first, others, same, digit⟩ := numeral_cons n
  rw [← plain, same, List.cons_append]
  exact readValue_of_isTokenChar (isTokenChar_of_isDigit digit) depth _

end WirelessCharging.Toml

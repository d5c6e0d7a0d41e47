import WirelessCharging.Text.Digits
/-!
Numbers written in a base up to sixteen are read back from their digits, with or without zeros in front. So the
hexadecimal texts of two numbers with one least width are the same only if the numbers are.
-/
namespace WirelessCharging

def readHex? (text : String) : Option Nat :=
  match text.toList with
  | '0' :: 'x' :: digits =>
    if !digits.isEmpty && digits.all (isDigitIn 16) then some (ofDigits 16 digits) else none
  | _ => none

variable {base n : Nat}

theorem digitValue?_digitChar (small : n < 16) : digitValue? n.digitChar = some n := by
  revert n
  decide

theorem isDigitIn_digitChar (small : n < base) (most : base ≤ 16) : isDigitIn base n.digitChar = true := by
  rw [isDigitIn, digitValue?_digitChar (Nat.lt_of_lt_of_le small most), Option.any_some]
  exact decide_eq_true small

theorem ofDigits_append_digitChar (digits : List Char) (small : n < 16) :
    ofDigits base (digits ++ [n.digitChar]) = ofDigits base digits * base + n := by
  rw [ofDigits, List.foldl_append, List.foldl_cons, List.foldl_nil, digitValue?_digitChar small, Option.getD_some]
  rfl

/-- The digits of a number are one digit, or those of a smaller number, which is not zero, and a last one. -/
theorem toDigits_induction {P : Nat → List Char → Prop} (least : 1 < base) (single : ∀ n < base, P n [n.digitChar])
    (longer : ∀ rest digits last, 0 < rest → last < base → P rest digits →
      P (rest * base + last) (digits ++ [last.digitChar])) (n : Nat) : P n (Nat.toDigits base n) := by
  induction n using Nat.strongRecOn with
  | ind n ih =>
    rw [Nat.toDigits_eq_if least]
    split
    · rename_i small
      exact single n small
    · rename_i large
      have positive : 0 < n / base := Nat.div_pos (Nat.le_of_not_lt large) (by omega)
      have shorter : n / base < n := Nat.div_lt_self (by omega) least
      have whole := longer (n / base) _ (n % base) positive (Nat.mod_lt n (by omega)) (ih (n / base) shorter)
      rwa [Nat.div_add_mod'] at whole

theorem ofDigits_toDigits (least : 1 < base) (most : base ≤ 16) (n : Nat) :
    ofDigits base (Nat.toDigits base n) = n := by
  refine toDigits_induction (P := fun n digits => ofDigits base digits = n) least ?single ?longer n
  case single =>
    intro n small
    have value : ofDigits base [n.digitChar] = 0 * base + n :=
      ofDigits_append_digitChar [] (Nat.lt_of_lt_of_le small most)
    rw [value, Nat.zero_mul, Nat.zero_add]
  case longer =>
    intro rest digits last _ small value
    rw [ofDigits_append_digitChar _ (Nat.lt_of_lt_of_le small most), value]

theorem isDigitIn_of_mem_toDigits (least : 1 < base) (most : base ≤ 16) (n : Nat) :
    ∀ c ∈ Nat.toDigits base n, isDigitIn base c = true := by
  refine toDigits_induction (P := fun _ digits => ∀ c ∈ digits, isDigitIn base c = true) least ?single ?longer n
  case single =>
    intro n small
    exact List.forall_mem_singleton.2 (isDigitIn_digitChar small most)
  case longer =>
    intro rest digits last _ small each
    exact List.forall_mem_append.2 ⟨each, List.forall_mem_singleton.2 (isDigitIn_digitChar small most)⟩

theorem ofDigits_leftpad (width : Nat) (digits : List Char) :
    ofDigits base (digits.leftpad width '0') = ofDigits base digits := by
  have zeros : ∀ count, (List.replicate count '0').foldl (fun n c => n * base + (digitValue? c).getD 0) 0 = 0 := by
    intro count
    induction count with
    | zero => rfl
    | succ count ih => simpa [List.replicate_succ, digitValue?] using ih
  rw [List.leftpad, ofDigits, List.foldl_append, zeros]
  rfl

theorem all_isDigitIn_hexDigits (width n : Nat) : (hexDigits width n).all (isDigitIn 16) = true := by
  rw [List.all_eq_true]
  intro c member
  rcases List.mem_append.1 member with zero | digit
  · rw [List.eq_of_mem_replicate zero]
    rfl
  · exact isDigitIn_of_mem_toDigits (by decide) (by decide) n c digit

theorem hexDigits_ne_nil (width n : Nat) : hexDigits width n ≠ [] :=
  List.append_ne_nil_of_right_ne_nil _ Nat.toDigits_ne_nil

theorem readHex?_hex (width n : Nat) : readHex? (hex width n) = some n := by
  have text : (hex width n).toList = '0' :: 'x' :: hexDigits width n := by
    rw [hex, String.toList_append]
    exact congrArg (fun digits => '0' :: 'x' :: digits) String.toList_ofList
  have accepted : (!(hexDigits width n).isEmpty && (hexDigits width n).all (isDigitIn 16)) = true := by
    rw [all_isDigitIn_hexDigits, Bool.and_true, Bool.not_eq_true', List.isEmpty_eq_false_iff]
    exact hexDigits_ne_nil width n
  rw [readHex?, text]
  refine (if_pos accepted).trans ?_
  rw [hexDigits, ofDigits_leftpad, ofDigits_toDigits (by decide) (by decide)]

theorem hex_inj {width a b : Nat} : hex width a = hex width b ↔ a = b := by
  constructor
  · intro same
    have read := congrArg readHex? same
    rw [readHex?_hex, readHex?_hex] at read
    exact Option.some.inj read
  · exact congrArg (hex width)

end WirelessCharging

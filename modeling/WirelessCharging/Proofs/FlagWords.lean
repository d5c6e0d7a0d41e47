import WirelessCharging.Flags
/-!
Words of flags as sets of bits. The steps taken with a word decide on each bit by itself: the last of them that adds or
removes a word with the bit, as far as it comes after the last replacement. Questions in between change nothing, and what
they answer is what a change would do: a word contains another exactly if a union with it changes nothing, and intersects
it exactly if removing it changes something.
-/
namespace WirelessCharging

variable {width : Nat} {vocabulary : Vocabulary width} {bit : Nat}

namespace Flags

variable {flags other : Flags vocabulary}

instance : Membership Nat (Flags vocabulary) := ⟨fun flags bit => flags.bits.getLsbD bit = true⟩

instance (bit : Nat) (flags : Flags vocabulary) : Decidable (bit ∈ flags) :=
  inferInstanceAs (Decidable (flags.bits.getLsbD bit = true))

theorem mem_def : bit ∈ flags ↔ flags.bits.getLsbD bit = true := Iff.rfl

theorem lt_of_mem (raised : bit ∈ flags) : bit < width := BitVec.lt_of_getLsbD raised

theorem bits_eq_iff {bits mask : BitVec width} :
    bits = mask ↔ ∀ bit, bits.getLsbD bit = true ↔ mask.getLsbD bit = true := by
  constructor
  · rintro rfl bit
    exact Iff.rfl
  · intro same
    apply BitVec.eq_of_getLsbD_eq
    intro bit _
    exact Bool.eq_iff_iff.2 (same bit)

theorem eq_iff : flags = other ↔ ∀ bit, bit ∈ flags ↔ bit ∈ other := by
  cases flags
  cases other
  rw [Flags.mk.injEq]
  exact bits_eq_iff

theorem mem_union : bit ∈ flags.union other ↔ bit ∈ flags ∨ bit ∈ other := by
  rw [mem_def, union, BitVec.getLsbD_or, Bool.or_eq_true, mem_def, mem_def]

theorem mem_remove : bit ∈ flags.remove other ↔ bit ∈ flags ∧ bit ∉ other := by
  rw [mem_def, remove, BitVec.getLsbD_and, BitVec.getLsbD_not, Bool.and_eq_true, Bool.and_eq_true, decide_eq_true_eq,
    Bool.not_eq_true', ← Bool.not_eq_true]
  constructor
  · rintro ⟨raised, -, absent⟩
    exact ⟨raised, absent⟩
  · rintro ⟨raised, absent⟩
    exact ⟨raised, lt_of_mem raised, absent⟩

theorem contains_iff : flags.contains other = true ↔ ∀ bit ∈ other, bit ∈ flags := by
  rw [contains, beq_iff_eq, bits_eq_iff]
  simp only [BitVec.getLsbD_and, Bool.and_eq_true, and_iff_right_iff_imp, mem_def]

theorem intersects_eq_false_iff : flags.intersects other = false ↔ ∀ bit ∈ other, bit ∉ flags := by
  rw [intersects, bne_eq_false_iff_eq, bits_eq_iff]
  simp only [BitVec.getLsbD_and, Bool.and_eq_true, BitVec.ofNat_eq_ofNat, BitVec.getLsbD_zero, Bool.false_eq_true,
    iff_false, not_and, mem_def]
  exact forall_congr' fun _ => imp_not_comm

theorem mem_twoPow (small : bit < width) {other : Nat} :
    other ∈ (⟨BitVec.twoPow width bit⟩ : Flags vocabulary) ↔ other = bit := by
  rw [mem_def, BitVec.getLsbD_twoPow, Bool.and_eq_true, decide_eq_true_eq, decide_eq_true_eq]
  constructor
  · rintro ⟨-, rfl⟩
    rfl
  · rintro rfl
    exact ⟨small, rfl⟩

theorem contains_twoPow (small : bit < width) : flags.contains ⟨BitVec.twoPow width bit⟩ = true ↔ bit ∈ flags := by
  rw [contains_iff]
  simp only [mem_twoPow small, forall_eq]

theorem intersects_listed {bits : List Nat} (below : ∀ bit ∈ bits, bit < width)
    (listed : ∀ bit < width, bit ∈ other ↔ bit ∈ bits) :
    flags.intersects other = false ↔ ∀ bit ∈ bits, flags.bits.getLsbD bit = false := by
  rw [intersects_eq_false_iff]
  constructor
  · intro clear bit member
    exact Bool.eq_false_iff.2 (clear bit ((listed bit (below bit member)).2 member))
  · intro clear bit given
    exact Bool.eq_false_iff.1 (clear bit ((listed bit (lt_of_mem given)).1 given))

theorem union_eq_self_iff : flags.union other = flags ↔ ∀ bit ∈ other, bit ∈ flags := by
  simp only [eq_iff, mem_union, or_iff_left_iff_imp]

theorem remove_eq_self_iff : flags.remove other = flags ↔ ∀ bit ∈ other, bit ∉ flags := by
  simp only [eq_iff, mem_remove, and_iff_left_iff_imp]
  exact forall_congr' fun _ => imp_not_comm

end Flags

namespace FlagEdit

def adding (other : Flags vocabulary) : List (FlagEdit vocabulary) :=
  [.insert other, .union other, .join other, .joinInto other]

theorem apply_adding {flags other : Flags vocabulary} : ∀ edit ∈ adding other, edit.apply flags = flags.union other := by
  intro edit way
  simp only [adding, List.mem_cons, List.not_mem_nil, or_false] at way
  rcases way with rfl | rfl | rfl | rfl <;> rfl

end FlagEdit

namespace FlagStep

def Touches (bit : Nat) : FlagStep vocabulary → Prop
  | .edit (.insert other) | .edit (.union other) | .edit (.join other) | .edit (.joinInto other)
  | .edit (.remove other) => bit ∈ other
  | .edit (.replace _) | .ask _ => False

def IsRemoval : FlagStep vocabulary → Prop
  | .edit (.remove _) => True
  | _ => False

def IsReplacement : FlagStep vocabulary → Prop
  | .edit (.replace _) => True
  | _ => False

def isEdit : FlagStep vocabulary → Bool
  | .edit _ => true
  | .ask _ => false

variable {flags : Flags vocabulary} {step : FlagStep vocabulary}

theorem mem_take (kept : ¬ step.IsReplacement) : bit ∈ (step.take flags).1 ↔
    step.Touches bit ∧ ¬ step.IsRemoval ∨ ¬ step.Touches bit ∧ bit ∈ flags := by
  cases step with
  | ask query => simp only [take, Touches, false_and, not_false_eq_true, true_and, false_or]
  | edit change =>
    cases change with
    | insert other | union other | join other | joinInto other =>
      -- whichever way it goes, what is left is the union
      have added : bit ∈ flags.union other ↔ bit ∈ flags ∨ bit ∈ other := Flags.mem_union
      simp only [Touches, IsRemoval, not_false_eq_true, and_true]
      refine added.trans ?_
      by_cases given : bit ∈ other <;> simp [given]
    | remove other =>
      simp only [take, FlagEdit.apply, Flags.mem_remove, Touches, IsRemoval, not_true_eq_false, and_false, false_or]
      exact and_comm
    | replace other => exact absurd trivial kept

def Untouched (bit : Nat) (steps : List (FlagStep vocabulary)) : Prop := ∀ step ∈ steps, ¬ step.Touches bit

/-- The last of the steps that touch the bit. -/
def LastTouch (bit : Nat) (steps : List (FlagStep vocabulary)) (last : FlagStep vocabulary) : Prop :=
  ∃ before after, steps = before ++ last :: after ∧ last.Touches bit ∧ Untouched bit after

/-- What steps without a replacement leave of a word has the bit: the last step that touches it is no removal, or no
step touches it and it was there. -/
def Leaves (bit : Nat) (base : Flags vocabulary) (steps : List (FlagStep vocabulary)) : Prop :=
  (∃ last, LastTouch bit steps last ∧ ¬ last.IsRemoval) ∨ Untouched bit steps ∧ bit ∈ base

/-- The steps after the last replacement, and the word that it has put there; where nothing is replaced, all steps and
the word at the start. -/
def GoesOnFrom (start : Flags vocabulary) (steps : List (FlagStep vocabulary)) (base : Flags vocabulary)
    (since : List (FlagStep vocabulary)) : Prop :=
  (∀ step ∈ since, ¬ step.IsReplacement) ∧
    (steps = since ∧ base = start ∨ ∃ before, steps = before ++ .edit (.replace base) :: since)

variable {steps since : List (FlagStep vocabulary)} {start base : Flags vocabulary}

theorem untouched_cons : Untouched bit (step :: steps) ↔ ¬ step.Touches bit ∧ Untouched bit steps :=
  List.forall_mem_cons

theorem lastTouch_cons {last : FlagStep vocabulary} : LastTouch bit (step :: steps) last ↔
    LastTouch bit steps last ∨ last = step ∧ step.Touches bit ∧ Untouched bit steps := by
  constructor
  · rintro ⟨before, after, split, touches, still⟩
    cases before with
    | nil =>
      obtain ⟨rfl, rfl⟩ := List.cons.inj split
      exact Or.inr ⟨rfl, touches, still⟩
    | cons first before =>
      obtain ⟨rfl, rfl⟩ := List.cons.inj split
      exact Or.inl ⟨before, after, rfl, touches, still⟩
  · rintro (⟨before, after, rfl, touches, still⟩ | ⟨rfl, touches, still⟩)
    · exact ⟨step :: before, after, rfl, touches, still⟩
    · exact ⟨[], steps, rfl, touches, still⟩

theorem Untouched.not_lastTouch (still : Untouched bit steps) (last : FlagStep vocabulary) :
    ¬ LastTouch bit steps last := by
  rintro ⟨before, after, rfl, touches, -⟩
  exact still last (List.mem_append_right before List.mem_cons_self) touches

theorem leaves_cons (kept : ¬ step.IsReplacement) :
    Leaves bit base (step :: steps) ↔ Leaves bit (step.take base).1 steps := by
  by_cases still : Untouched bit steps
  · have first : (∃ last, (last = step ∧ step.Touches bit) ∧ ¬ last.IsRemoval) ↔ step.Touches bit ∧ ¬ step.IsRemoval := by
      simp only [and_assoc, exists_eq_left]
    simp only [Leaves, lastTouch_cons, untouched_cons, still.not_lastTouch, still, false_and, exists_false, false_or,
      and_true, true_and, mem_take kept, first]
  · simp only [Leaves, lastTouch_cons, untouched_cons, still, and_false, or_false, false_and]

theorem mem_after (kept : ∀ step ∈ since, ¬ step.IsReplacement) : bit ∈ base.after since ↔ Leaves bit base since := by
  induction since generalizing base with
  | nil => simp [Flags.after, Leaves, LastTouch, Untouched]
  | cons step since ih =>
    obtain ⟨first, others⟩ := List.forall_mem_cons.1 kept
    rw [leaves_cons first]
    exact ih others

theorem eq_replace (replaces : step.IsReplacement) : ∃ word, step = .edit (.replace word) := by
  unfold IsReplacement at replaces
  split at replaces
  · exact ⟨_, rfl⟩
  · cases replaces

theorem exists_goesOnFrom (start : Flags vocabulary) (steps : List (FlagStep vocabulary)) :
    ∃ base since, GoesOnFrom start steps base since := by
  induction steps with
  | nil => exact ⟨start, [], by simp, Or.inl ⟨rfl, rfl⟩⟩
  | cons step steps ih =>
    obtain ⟨base, since, kept, ⟨rfl, rfl⟩ | ⟨before, rfl⟩⟩ := ih
    · by_cases replaces : step.IsReplacement
      · obtain ⟨word, rfl⟩ := eq_replace replaces
        exact ⟨word, steps, kept, Or.inr ⟨[], rfl⟩⟩
      · exact ⟨base, step :: steps, List.forall_mem_cons.2 ⟨replaces, kept⟩, Or.inl ⟨rfl, rfl⟩⟩
    · exact ⟨base, since, kept, Or.inr ⟨step :: before, rfl⟩⟩

theorem GoesOnFrom.after_eq (goesOn : GoesOnFrom start steps base since) : start.after steps = base.after since := by
  obtain ⟨-, ⟨rfl, rfl⟩ | ⟨before, rfl⟩⟩ := goesOn
  · rfl
  · rw [Flags.after, List.foldl_append]
    rfl

theorem after_filter (start : Flags vocabulary) (steps : List (FlagStep vocabulary)) :
    start.after (steps.filter isEdit) = start.after steps := by
  induction steps generalizing start with
  | nil => rfl
  | cons step steps ih =>
    cases step with
    | edit change => exact ih (change.apply start)
    | ask query => exact ih start

end FlagStep

/-- What the questions tell of a word, and that the ways of adding are one. -/
structure Flags.ActsAsSet (flags : Flags vocabulary) : Prop where
  contains : ∀ other, flags.contains other = true ↔ flags.union other = flags
  intersects : ∀ other, flags.intersects other = true ↔ flags.remove other ≠ flags
  asked : ∀ query, (FlagStep.ask query).take flags = (flags, some (query.answer flags))
  added : ∀ other, ∀ one ∈ FlagEdit.adding other, ∀ another ∈ FlagEdit.adding other,
    one.apply flags = another.apply flags

theorem Flags.actsAsSet (flags : Flags vocabulary) : flags.ActsAsSet := by
  constructor
  case contains =>
    intro other
    exact contains_iff.trans union_eq_self_iff.symm
  case intersects =>
    intro other
    rw [← Bool.not_eq_false, intersects_eq_false_iff, Ne, remove_eq_self_iff]
  case asked =>
    intro query
    rfl
  case added =>
    intro other one way another way'
    rw [FlagEdit.apply_adding one way, FlagEdit.apply_adding another way']

/-- A bit is raised in the end exactly if the last step that touches it after the last replacement does not remove it,
or none touches it and the word put there by the replacement has it. Questions may be left out of the steps, and at every
moment they are answered as a set would answer them. -/
theorem Flags.last_step_decides_each_bit (start : Flags vocabulary) (steps : List (FlagStep vocabulary)) :
    (∀ bit, bit ∈ start.after steps ↔
      ∃ base since, FlagStep.GoesOnFrom start steps base since ∧ FlagStep.Leaves bit base since) ∧
    start.after (steps.filter FlagStep.isEdit) = start.after steps ∧
    ∀ count, (start.after (steps.take count)).ActsAsSet := by
  refine ⟨?_, FlagStep.after_filter start steps, fun count => Flags.actsAsSet _⟩
  intro bit
  constructor
  · intro raised
    obtain ⟨base, since, goesOn⟩ := FlagStep.exists_goesOnFrom start steps
    rw [goesOn.after_eq] at raised
    exact ⟨base, since, goesOn, (FlagStep.mem_after goesOn.1).1 raised⟩
  · rintro ⟨base, since, goesOn, leaves⟩
    rw [goesOn.after_eq]
    exact (FlagStep.mem_after goesOn.1).2 leaves

example : (⟨0x03⟩ : ModuleFlags).after [.edit (.replace ⟨0x80⟩), .edit (.join ⟨0x41⟩), .ask (.contains ⟨0x80⟩),
    .edit (.remove ⟨0x03⟩)] = ⟨0xc0⟩ := by decide

end WirelessCharging

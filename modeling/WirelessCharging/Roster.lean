import WirelessCharging.Request
/-!
Things kept under keys, in the order in which they were added. Looking up finds the first entry of a key
and adjusting changes that entry alone. Entries of one name are told apart by their generation, and the
last of them is the one that the name stands for.
-/
namespace WirelessCharging

abbrev Roster (κ α : Type) := List (κ × α)

namespace Roster

variable {κ α : Type}

def add (roster : Roster κ α) (key : κ) (a : α) : Roster κ α := roster ++ [(key, a)]

def keys (roster : Roster κ α) : List κ := roster.map (·.1)

def total (roster : Roster κ α) (weight : α → Nat) : Nat :=
  match roster with
  | [] => 0
  | (_, a) :: rest => weight a + total rest weight

theorem total_add (roster : Roster κ α) (key : κ) (a : α) (weight : α → Nat) :
    (roster.add key a).total weight = roster.total weight + weight a := by
  induction roster with
  | nil => simp [add, total]
  | cons entry rest ih =>
    simp only [add, total, List.cons_append] at ih ⊢
    omega

@[simp] theorem keys_add (roster : Roster κ α) (key : κ) (a : α) :
    (roster.add key a).keys = roster.keys ++ [key] := by
  simp [keys, add]

variable [DecidableEq κ]

def get? (roster : Roster κ α) (key : κ) : Option α :=
  match roster with
  | [] => none
  | (k, a) :: rest => if k = key then some a else get? rest key

def adjust (roster : Roster κ α) (key : κ) (f : α → α) : Roster κ α :=
  match roster with
  | [] => []
  | (k, a) :: rest => if k = key then (k, f a) :: rest else (k, a) :: adjust rest key f

def remove (roster : Roster κ α) (key : κ) : Roster κ α := roster.filter (·.1 ≠ key)

def named (roster : Roster Ref α) (name : String) : Roster Ref α := roster.filter (·.1.name = name)

def nextRef (roster : Roster Ref α) (name : String) : Ref := ⟨name, (roster.named name).length⟩

def latest? (roster : Roster Ref α) (name : String) : Option Ref :=
  (roster.named name).getLast?.map (·.1)

@[simp] theorem get?_adjust_self (roster : Roster κ α) (key : κ) (f : α → α) :
    (roster.adjust key f).get? key = (roster.get? key).map f := by
  induction roster with
  | nil => rfl
  | cons entry rest ih =>
    by_cases h : entry.1 = key <;> simp [adjust, get?, h, ih]

theorem get?_adjust_of_ne (roster : Roster κ α) {key other : κ} (f : α → α) (h : other ≠ key) :
    (roster.adjust key f).get? other = roster.get? other := by
  induction roster with
  | nil => rfl
  | cons entry rest ih =>
    by_cases hk : entry.1 = key
    · have ho : key ≠ other := fun e => h e.symm
      simp [adjust, get?, hk, ho]
    · by_cases ho : entry.1 = other <;> simp [adjust, get?, hk, ho, h, ih]

theorem get?_adjust (roster : Roster κ α) (key other : κ) (f : α → α) :
    (roster.adjust key f).get? other = (roster.get? other).map fun a => if other = key then f a else a := by
  by_cases same : other = key
  · subst same
    simp only [get?_adjust_self, if_true]
  · simp only [roster.get?_adjust_of_ne f same, if_neg same, Option.map_id_fun', id_eq]

theorem total_adjust (roster : Roster κ α) (key : κ) (f : α → α) (weight : α → Nat) {a : α}
    (found : roster.get? key = some a) :
    (roster.adjust key f).total weight + weight a = roster.total weight + weight (f a) := by
  induction roster with
  | nil => simp [get?] at found
  | cons entry rest ih =>
    by_cases h : entry.1 = key
    · simp only [get?, h, if_true, Option.some.injEq] at found
      subst found
      simp only [adjust, h, if_true, total]
      omega
    · simp only [get?, h, if_false] at found
      have := ih found
      simp only [adjust, h, if_false, total]
      omega

theorem adjust_of_get?_none (roster : Roster κ α) (key : κ) (f : α → α)
    (missing : roster.get? key = none) : roster.adjust key f = roster := by
  induction roster with
  | nil => rfl
  | cons entry rest ih =>
    by_cases h : entry.1 = key
    · simp [get?, h] at missing
    · simp only [get?, h, if_false] at missing
      simp [adjust, h, ih missing]

theorem adjust_eq_self (roster : Roster κ α) {key : κ} {f : α → α} {a : α}
    (found : roster.get? key = some a) (same : f a = a) : roster.adjust key f = roster := by
  induction roster with
  | nil => rfl
  | cons entry rest ih =>
    by_cases h : entry.1 = key
    · simp only [get?, h, if_true, Option.some.injEq] at found
      subst found
      simp only [adjust, h, if_true, same]
      rw [← h]
    · simp only [get?, h, if_false] at found
      simp only [adjust, h, if_false, ih found]

theorem any_adjust (roster : Roster κ α) (key : κ) (f : α → α) (test : α → Bool)
    (same : ∀ a, test (f a) = test a) :
    (roster.adjust key f).any (test ·.2) = roster.any (test ·.2) := by
  induction roster with
  | nil => rfl
  | cons entry rest ih => by_cases h : entry.1 = key <;> simp [adjust, h, same, ih]

/-- If one of them passes a test after a change, one did before or it is the one that has changed. -/
theorem any_adjust_cases (roster : Roster κ α) {key : κ} {f : α → α} (test : α → Bool)
    (some_does : (roster.adjust key f).any (test ·.2) = true) :
    roster.any (test ·.2) = true ∨ ∃ a, roster.get? key = some a ∧ test (f a) = true := by
  induction roster with
  | nil => exact Or.inl some_does
  | cons entry rest ih =>
    by_cases h : entry.1 = key
    · simp only [adjust, if_pos h, List.any_cons, Bool.or_eq_true] at some_does
      rcases some_does with here | later
      · exact Or.inr ⟨entry.2, if_pos h, here⟩
      · exact Or.inl (by rw [List.any_cons, later, Bool.or_true])
    · simp only [adjust, if_neg h, List.any_cons, Bool.or_eq_true] at some_does
      rcases some_does with here | later
      · exact Or.inl (by rw [List.any_cons, here, Bool.true_or])
      · rcases ih later with there | found
        · exact Or.inl (by rw [List.any_cons, there, Bool.or_true])
        · exact Or.inr (by rwa [get?, if_neg h])

theorem adjust_adjust_self (roster : Roster κ α) (key : κ) (f g : α → α) :
    (roster.adjust key f).adjust key g = roster.adjust key (g ∘ f) := by
  induction roster with
  | nil => rfl
  | cons entry rest ih => by_cases h : entry.1 = key <;> simp [adjust, h, ih]

theorem adjust_adjust_of_ne (roster : Roster κ α) {key other : κ} (f g : α → α) (h : key ≠ other) :
    (roster.adjust key f).adjust other g = (roster.adjust other g).adjust key f := by
  induction roster with
  | nil => rfl
  | cons entry rest ih =>
    by_cases first : entry.1 = key
    · have second : entry.1 ≠ other := fun same => h (first.symm.trans same)
      simp only [adjust, if_pos first, if_neg second]
    · by_cases second : entry.1 = other
      · simp only [adjust, if_neg first, if_pos second]
      · simp only [adjust, if_neg first, if_neg second, ih]

theorem adjust_congr (roster : Roster κ α) {key : κ} {f g : α → α} {a : α} (found : roster.get? key = some a)
    (same : f a = g a) : roster.adjust key f = roster.adjust key g := by
  induction roster with
  | nil => rfl
  | cons entry rest ih =>
    by_cases h : entry.1 = key
    · simp only [get?, if_pos h, Option.some.injEq] at found
      subst found
      simp only [adjust, if_pos h, same]
    · simp only [get?, if_neg h] at found
      simp only [adjust, if_neg h, ih found]

theorem adjust_add (roster : Roster κ α) {key other : κ} {a b : α} (f : α → α) (found : roster.get? key = some a) :
    (roster.add other b).adjust key f = (roster.adjust key f).add other b := by
  induction roster with
  | nil => cases found
  | cons entry rest ih =>
    by_cases h : entry.1 = key
    · simp only [add, List.cons_append, adjust, if_pos h]
    · simp only [get?, if_neg h] at found
      have later := ih found
      simp only [add] at later
      simp only [add, List.cons_append, adjust, if_neg h, later]

theorem any_adjust_found (roster : Roster κ α) {key : κ} {f : α → α} {a : α} (test : α → Bool)
    (found : roster.get? key = some a) (same : test (f a) = test a) :
    (roster.adjust key f).any (test ·.2) = roster.any (test ·.2) := by
  induction roster with
  | nil => rfl
  | cons entry rest ih =>
    by_cases h : entry.1 = key
    · simp only [get?, if_pos h, Option.some.injEq] at found
      subst found
      simp only [adjust, if_pos h, List.any_cons, same]
    · simp only [get?, if_neg h] at found
      simp only [adjust, if_neg h, List.any_cons, ih found]

theorem filterMap_adjust {β : Type} (roster : Roster κ α) (key : κ) {f : α → α} {g : κ × α → Option β}
    (same : ∀ key a, g (key, f a) = g (key, a)) : (roster.adjust key f).filterMap g = roster.filterMap g := by
  induction roster with
  | nil => rfl
  | cons entry rest ih =>
    by_cases h : entry.1 = key
    · simp only [adjust, if_pos h, List.filterMap_cons, same]
    · simp only [adjust, if_neg h, List.filterMap_cons, ih]

theorem get?_add (roster : Roster κ α) (key other : κ) (a : α) :
    (roster.add key a).get? other =
      (roster.get? other).or (if key = other then some a else none) := by
  induction roster with
  | nil => simp [add, get?]
  | cons entry rest ih =>
    by_cases h : entry.1 = other
    · simp [add, get?, h]
    · simp only [add] at ih
      simp [add, get?, h, ih]

theorem get?_add_of_some {roster : Roster κ α} {key other : κ} {a b : α}
    (found : roster.get? other = some b) : (roster.add key a).get? other = some b := by
  simp [get?_add, found]

theorem remove_cons_of_eq (roster : Roster κ α) {entry : κ × α} {key : κ} (h : entry.1 = key) :
    remove (entry :: roster) key = roster.remove key := List.filter_cons_of_neg (by simp [h])

theorem remove_cons_of_ne (roster : Roster κ α) {entry : κ × α} {key : κ} (h : entry.1 ≠ key) :
    remove (entry :: roster) key = entry :: roster.remove key := List.filter_cons_of_pos (by simp [h])

theorem get?_remove_self (roster : Roster κ α) (key : κ) : (roster.remove key).get? key = none := by
  induction roster with
  | nil => rfl
  | cons entry rest ih =>
    by_cases h : entry.1 = key
    · rw [remove_cons_of_eq rest h]
      exact ih
    · simpa only [remove_cons_of_ne rest h, get?, h, if_false] using ih

theorem get?_remove_of_ne (roster : Roster κ α) {key other : κ} (h : other ≠ key) :
    (roster.remove key).get? other = roster.get? other := by
  induction roster with
  | nil => rfl
  | cons entry rest ih =>
    by_cases hk : entry.1 = key
    · have ho : entry.1 ≠ other := fun e => h (e.symm.trans hk)
      simpa only [remove_cons_of_eq rest hk, get?, ho, if_false] using ih
    · simp only [remove_cons_of_ne rest hk, get?, ih]

theorem get?_replace (roster : Roster κ α) (key other : κ) (a : α) :
    ((roster.remove key).add key a).get? other = if key = other then some a else roster.get? other := by
  rw [get?_add]
  by_cases same : key = other
  · rw [if_pos same, same, get?_remove_self, Option.none_or, if_pos rfl]
  · have different : other ≠ key := fun e => same e.symm
    rw [if_neg same, get?_remove_of_ne _ different, if_neg same, Option.or_none]

theorem mem_of_get? {roster : Roster κ α} {key : κ} {a : α} (found : roster.get? key = some a) :
    (key, a) ∈ roster := by
  induction roster with
  | nil => simp [get?] at found
  | cons entry rest ih =>
    by_cases h : entry.1 = key
    · simp only [get?, h, if_true, Option.some.injEq] at found
      simp [← found, ← h]
    · simp only [get?, h, if_false] at found
      exact List.mem_cons_of_mem _ (ih found)

theorem mem_keys_of_get? {roster : Roster κ α} {key : κ} {a : α} (found : roster.get? key = some a) :
    key ∈ roster.keys := List.mem_map.2 ⟨_, mem_of_get? found, rfl⟩

theorem get?_of_mem_keys {roster : Roster κ α} {key : κ} (member : key ∈ roster.keys) :
    ∃ a, roster.get? key = some a := by
  induction roster with
  | nil => cases member
  | cons entry rest ih =>
    by_cases h : entry.1 = key
    · exact ⟨entry.2, if_pos h⟩
    · rcases List.mem_cons.1 member with same | later
      · exact absurd same.symm h
      · simp only [get?, h, if_false]
        exact ih later

@[simp] theorem keys_adjust (roster : Roster κ α) (key : κ) (f : α → α) :
    (roster.adjust key f).keys = roster.keys := by
  induction roster with
  | nil => rfl
  | cons entry rest ih =>
    simp only [keys] at ih
    by_cases h : entry.1 = key <;> simp [adjust, keys, h, ih]

theorem get?_of_mem {roster : Roster κ α} (distinct : roster.keys.Nodup) {key : κ} {a : α}
    (member : (key, a) ∈ roster) : roster.get? key = some a := by
  induction roster with
  | nil => simp at member
  | cons entry rest ih =>
    obtain ⟨absent, distinct⟩ := List.nodup_cons.1 distinct
    rcases List.mem_cons.1 member with rfl | later
    · simp [get?]
    · have other : entry.1 ≠ key := by
        rintro rfl
        exact absent (List.mem_map.2 ⟨_, later, rfl⟩)
      simp only [get?, other, if_false]
      exact ih distinct later

/-- No reference occurs twice, and those of one name have the first numbers. -/
def Numbered (roster : Roster Ref α) : Prop :=
  roster.keys.Nodup ∧
    ∀ ref ∈ roster.keys, ref.generation < (roster.keys.filter (·.name = ref.name)).length

theorem numbered_nil : Numbered ([] : Roster Ref α) := by
  refine ⟨List.nodup_nil, ?_⟩
  intro ref member
  cases member

theorem nextRef_eq (roster : Roster Ref α) (name : String) :
    roster.nextRef name = ⟨name, (roster.keys.filter (·.name = name)).length⟩ := by
  simp only [nextRef, named, keys, List.filter_map, List.length_map, Function.comp_def]

theorem latest?_eq (roster : Roster Ref α) (name : String) :
    roster.latest? name = (roster.keys.filter (·.name = name)).getLast? := by
  simp only [latest?, named, keys, List.filter_map, List.getLast?_map, Function.comp_def]

theorem latest?_adjust (roster : Roster Ref α) (key : Ref) (f : α → α) (name : String) :
    (roster.adjust key f).latest? name = roster.latest? name := by
  rw [latest?_eq, latest?_eq, keys_adjust]

theorem nextRef_notMem {roster : Roster Ref α} (numbered : roster.Numbered) (name : String) :
    roster.nextRef name ∉ roster.keys := by
  intro member
  have below := numbered.2 _ member
  rw [nextRef_eq] at below
  exact Nat.lt_irrefl _ below

theorem numbered_add {roster : Roster Ref α} (numbered : roster.Numbered) (name : String) (a : α) :
    (roster.add (roster.nextRef name) a).Numbered := by
  have absent := nextRef_notMem numbered name
  constructor
  · rw [keys_add]
    exact List.nodup_append.2 ⟨numbered.1, List.pairwise_singleton _ _, by
      intro ref member other next same
      obtain rfl := List.mem_singleton.1 next
      exact absent (same ▸ member)⟩
  · intro ref member
    rw [keys_add, List.filter_append, List.length_append]
    rw [keys_add, List.mem_append, List.mem_singleton] at member
    rcases member with earlier | rfl
    · have below := numbered.2 ref earlier
      omega
    · rw [nextRef_eq]
      simp

theorem get?_add_nextRef {roster : Roster Ref α} (numbered : roster.Numbered) (name : String) (a : α) :
    (roster.add (roster.nextRef name) a).get? (roster.nextRef name) = some a := by
  cases there : roster.get? (roster.nextRef name) with
  | none => rw [get?_add, there, Option.none_or, if_pos rfl]
  | some b => exact absurd (mem_keys_of_get? there) (nextRef_notMem numbered name)

theorem latest?_add_nextRef (roster : Roster Ref α) (name : String) (a : α) :
    (roster.add (roster.nextRef name) a).latest? name = some (roster.nextRef name) := by
  have last : named [(roster.nextRef name, a)] name = [(roster.nextRef name, a)] := by simp [named, nextRef]
  have split : (roster.add (roster.nextRef name) a).named name = roster.named name ++ [(roster.nextRef name, a)] := by
    rw [← last]
    exact List.filter_append _ _
  rw [latest?, split, List.getLast?_append, List.getLast?_singleton]
  rfl

theorem numbered_of_keys {roster other : Roster Ref α} (numbered : roster.Numbered)
    (same : other.keys = roster.keys) : other.Numbered := by
  simpa only [Numbered, same] using numbered

theorem numbered_adjust {roster : Roster Ref α} (numbered : roster.Numbered) (ref : Ref) (f : α → α) :
    (roster.adjust ref f).Numbered := numbered_of_keys numbered (keys_adjust roster ref f)

end Roster

end WirelessCharging

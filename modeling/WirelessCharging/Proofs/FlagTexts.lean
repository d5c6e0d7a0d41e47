import Mathlib.Data.List.Nodup
import WirelessCharging.Proofs.FlagWords
import WirelessCharging.Proofs.Digits
import WirelessCharging.Proofs.Listing
/-!
The texts of words of flags. The numeral tells the whole word, unnamed bits included. The two structure texts list the
names of the flags that are raised, and so tell just the bits that have a name.
-/
namespace WirelessCharging

variable {width : Nat} {vocabulary : Vocabulary width}

/-- Every name stands for one bit and can be told from the others in a text. -/
structure Vocabulary.IsLegible (vocabulary : Vocabulary width) : Prop where
  untitled : '\x7b' ∉ vocabulary.name.toList
  names : ∀ flag ∈ vocabulary.flags, isName flag.1 = true
  distinct : (vocabulary.flags.map (·.1)).Nodup
  single : ∀ flag ∈ vocabulary.flags, ∃ bit < width, flag.2 = BitVec.twoPow width bit

theorem moduleVocabulary_isLegible : moduleVocabulary.IsLegible := by
  constructor <;> decide

theorem deviceVocabulary_isLegible : deviceVocabulary.IsLegible := by
  constructor <;> decide

theorem discoveryVocabulary_isLegible : discoveryVocabulary.IsLegible := by
  constructor <;> decide

namespace Flags

variable {flags a b : Flags vocabulary} {name : String}

/-- The two words agree on all bits that have a name. -/
def AgreeOnNames (a b : Flags vocabulary) : Prop :=
  ∀ flag ∈ vocabulary.flags, ∀ bit ∈ (⟨flag.2⟩ : Flags vocabulary), bit ∈ a ↔ bit ∈ b

structure AreListed (flags : Flags vocabulary) (names : List String) : Prop where
  raised : ∀ name, name ∈ names ↔ ∃ mask, (name, mask) ∈ vocabulary.flags ∧ flags.contains ⟨mask⟩ = true
  once : names.Nodup
  ordered : names.Sublist (vocabulary.flags.map (·.1))

theorem mem_names : name ∈ flags.names ↔ ∃ mask, (name, mask) ∈ vocabulary.flags ∧ flags.contains ⟨mask⟩ = true := by
  simp only [names, List.mem_map, List.mem_filter]
  constructor
  · rintro ⟨⟨name, mask⟩, raised, rfl⟩
    exact ⟨mask, raised⟩
  · rintro ⟨mask, raised⟩
    exact ⟨(name, mask), raised, rfl⟩

theorem names_sublist (flags : Flags vocabulary) : flags.names.Sublist (vocabulary.flags.map (·.1)) :=
  List.filter_sublist.map _

theorem areListed_names (legible : vocabulary.IsLegible) (flags : Flags vocabulary) : flags.AreListed flags.names where
  raised _ := mem_names
  once := flags.names_sublist.nodup legible.distinct
  ordered := flags.names_sublist

theorem isName_of_mem_names (legible : vocabulary.IsLegible) : ∀ name ∈ flags.names, isName name = true := by
  intro name member
  obtain ⟨mask, named, -⟩ := mem_names.1 member
  exact legible.names (name, mask) named

theorem fst_mem_names (legible : vocabulary.IsLegible) {flag : String × BitVec width} (named : flag ∈ vocabulary.flags) :
    flag.1 ∈ flags.names ↔ flags.contains ⟨flag.2⟩ = true := by
  rw [mem_names]
  constructor
  · rintro ⟨mask, also, raised⟩
    have same : (flag.1, mask) = flag := List.inj_on_of_nodup_map legible.distinct also named rfl
    rwa [← same]
  · intro raised
    exact ⟨flag.2, named, raised⟩

theorem names_eq_iff (legible : vocabulary.IsLegible) : a.names = b.names ↔
    ∀ flag ∈ vocabulary.flags, a.contains ⟨flag.2⟩ = true ↔ b.contains ⟨flag.2⟩ = true := by
  constructor
  · intro same flag named
    rw [← fst_mem_names legible named, ← fst_mem_names legible named, same]
  · intro same
    have kept : vocabulary.flags.filter (fun flag => a.contains ⟨flag.2⟩) =
        vocabulary.flags.filter (fun flag => b.contains ⟨flag.2⟩) :=
      List.filter_congr fun flag named => Bool.eq_iff_iff.2 (same flag named)
    rw [names, names, kept]

theorem agreeOnNames_iff (legible : vocabulary.IsLegible) : a.AgreeOnNames b ↔
    ∀ flag ∈ vocabulary.flags, a.contains ⟨flag.2⟩ = true ↔ b.contains ⟨flag.2⟩ = true := by
  apply forall₂_congr
  intro flag named
  obtain ⟨bit, small, one⟩ := legible.single flag named
  simp only [one, mem_twoPow small, forall_eq, contains_twoPow small]

theorem numeral_eq_iff : a.numeral = b.numeral ↔ a = b := by
  cases a
  cases b
  rw [numeral, numeral, hex_inj, BitVec.toNat_inj, Flags.mk.injEq]

/-- A layout from which the names can be read off tells two words apart exactly by their named bits. -/
theorem layout_eq_iff (legible : vocabulary.IsLegible) {layout : Shape → String}
    (lists : ∀ flags : Flags vocabulary, listedNames (layout flags.shape) = flags.names) :
    layout a.shape = layout b.shape ↔ a.AgreeOnNames b := by
  rw [agreeOnNames_iff legible, ← names_eq_iff legible]
  constructor
  · intro same
    rw [← lists a, ← lists b, same]
  · intro same
    rw [shape, shape, same]

theorem listedNames_compact_shape (legible : vocabulary.IsLegible) (flags : Flags vocabulary) :
    listedNames flags.shape.compact = flags.names :=
  listedNames_compact legible.untitled (isName_of_mem_names legible)

theorem listedNames_pretty_shape (legible : vocabulary.IsLegible) (flags : Flags vocabulary) :
    listedNames flags.shape.pretty = flags.names :=
  listedNames_prettyAt legible.untitled (isName_of_mem_names legible) 0

end Flags

structure Vocabulary.HasFaithfulTexts (vocabulary : Vocabulary width) : Prop where
  numeral : ∀ a b : Flags vocabulary, a.numeral = b.numeral ↔ a = b
  read : ∀ flags : Flags vocabulary, readHex? flags.numeral = some flags.bits.toNat
  compact : ∀ a b : Flags vocabulary, a.shape.compact = b.shape.compact ↔ a.AgreeOnNames b
  pretty : ∀ a b : Flags vocabulary, a.shape.pretty = b.shape.pretty ↔ a.AgreeOnNames b
  compactNames : ∀ flags : Flags vocabulary, flags.AreListed (listedNames flags.shape.compact)
  prettyNames : ∀ flags : Flags vocabulary, flags.AreListed (listedNames flags.shape.pretty)

theorem Vocabulary.IsLegible.hasFaithfulTexts (legible : vocabulary.IsLegible) : vocabulary.HasFaithfulTexts := by
  have compactLists := Flags.listedNames_compact_shape legible
  have prettyLists := Flags.listedNames_pretty_shape legible
  constructor
  case numeral =>
    intro a b
    exact Flags.numeral_eq_iff
  case read =>
    intro flags
    exact readHex?_hex 4 flags.bits.toNat
  case compact =>
    intro a b
    exact Flags.layout_eq_iff legible compactLists
  case pretty =>
    intro a b
    exact Flags.layout_eq_iff legible prettyLists
  case compactNames =>
    intro flags
    rw [compactLists]
    exact Flags.areListed_names legible flags
  case prettyNames =>
    intro flags
    rw [prettyLists]
    exact Flags.areListed_names legible flags

/-- For every vocabulary there is, the numeral of a word tells the whole word and can be read back, and both layouts of
its structure tell exactly its named bits and list their names. -/
theorem flag_texts_are_faithful : moduleVocabulary.HasFaithfulTexts ∧ deviceVocabulary.HasFaithfulTexts ∧
    discoveryVocabulary.HasFaithfulTexts :=
  ⟨moduleVocabulary_isLegible.hasFaithfulTexts, deviceVocabulary_isLegible.hasFaithfulTexts,
    discoveryVocabulary_isLegible.hasFaithfulTexts⟩

example : (⟨0x183⟩ : DeviceFlags).numeral = "0x0183" ∧
    (⟨0x183⟩ : DeviceFlags).shape.compact = "DmFlags\x7bDM_IS_ACTIVE, DM_DISABLING_NFC\x7d" := by decide

end WirelessCharging

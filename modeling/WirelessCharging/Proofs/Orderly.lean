import WirelessCharging.Toml.Document
/-!
What holds of everything that is read from a document: an integer fits into 64 bits with a sign, and no table has a
key twice, however deep it stands.
-/
namespace WirelessCharging.Toml

inductive Value.Proper : Value → Prop where
  | text (value : String) : Proper (.text value)
  | integer {value : Int} (fits : fitsInteger value = true) : Proper (.integer value)
  | fraction (numeral : String) : Proper (.fraction numeral)
  | boolean (value : Bool) : Proper (.boolean value)
  | moment (numeral : String) : Proper (.moment numeral)
  | array {items : List Value} (each : ∀ item ∈ items, item.Proper) : Proper (.array items)
  | table {entries : List (String × Value)} (distinct : (entries.map (·.1)).Nodup)
      (each : ∀ entry ∈ entries, entry.2.Proper) : Proper (.table entries)

inductive Node.Proper : Node → Prop where
  | leaf {value : Value} (proper : value.Proper) : Proper (.leaf value)
  | branch {origin : Origin} {entries : Entries} (distinct : (entries.map (·.1)).Nodup)
      (each : ∀ entry ∈ entries, entry.2.Proper) : Proper (.branch origin entries)
  | series {earlier : List Entries} {last : Entries} (distinct : ∀ entries ∈ earlier, (entries.map (·.1)).Nodup)
      (each : ∀ entries ∈ earlier, ∀ entry ∈ entries, entry.2.Proper) (lastDistinct : (last.map (·.1)).Nodup)
      (lastEach : ∀ entry ∈ last, entry.2.Proper) : Proper (.series earlier last)

/-- Every key stands once, and what stands under it is proper. -/
def Orderly {α : Type} (proper : α → Prop) (entries : List (String × α)) : Prop :=
  (entries.map (·.1)).Nodup ∧ ∀ entry ∈ entries, proper entry.2

section Lookup

variable {α : Type} {entries : List (String × α)} {key : String} {a : α}

theorem lookup_eq_none_iff : entries.lookup key = none ↔ key ∉ entries.map (·.1) := by
  rw [List.lookup_eq_none_iff]
  constructor
  · intro different member
    obtain ⟨entry, listed, rfl⟩ := List.mem_map.1 member
    simpa using different entry listed
  · intro missing entry listed
    rw [bne_iff_ne]
    rintro rfl
    exact missing (List.mem_map_of_mem listed)

theorem mem_of_lookup (found : entries.lookup key = some a) : (key, a) ∈ entries := by
  obtain ⟨before, after, rfl, -⟩ := List.lookup_eq_some_iff.1 found
  exact List.mem_append_right _ List.mem_cons_self

theorem lookup_eq_some_iff (distinct : (entries.map (·.1)).Nodup) :
    entries.lookup key = some a ↔ (key, a) ∈ entries := by
  refine ⟨mem_of_lookup, ?_⟩
  intro member
  obtain ⟨before, after, rfl⟩ := List.append_of_mem member
  rw [List.map_append, List.map_cons, List.nodup_append] at distinct
  refine List.lookup_eq_some_iff.2 ⟨before, after, rfl, ?_⟩
  intro entry earlier
  rw [bne_iff_ne]
  rintro rfl
  exact distinct.2.2 _ (List.mem_map_of_mem earlier) _ List.mem_cons_self rfl

theorem lookup_perm {others : List (String × α)} (distinct : (entries.map (·.1)).Nodup) (same : entries.Perm others) :
    entries.lookup key = others.lookup key := by
  have distinct_others : (others.map (·.1)).Nodup := (same.map _).nodup_iff.1 distinct
  refine Option.ext fun a => ?_
  rw [lookup_eq_some_iff distinct, lookup_eq_some_iff distinct_others, same.mem_iff]

end Lookup

namespace Orderly

variable {α : Type} {proper : α → Prop} {entries : List (String × α)}

theorem nil : Orderly proper [] := ⟨List.nodup_nil, List.forall_mem_nil _⟩

theorem found (h : Orderly proper entries) {key : String} {a : α} (found : entries.lookup key = some a) :
    proper a := h.2 _ (mem_of_lookup found)

theorem append (h : Orderly proper entries) {key : String} (missing : entries.lookup key = none) {a : α}
    (last : proper a) : Orderly proper (entries ++ [(key, a)]) := by
  constructor
  · rw [List.map_append]
    refine List.nodup_append.2 ⟨h.1, List.pairwise_singleton _ _, ?_⟩
    intro earlier member other new
    obtain rfl := List.mem_singleton.1 new
    rintro rfl
    exact lookup_eq_none_iff.1 missing member
  · intro entry member
    rcases List.mem_append.1 member with earlier | new
    · exact h.2 entry earlier
    · obtain rfl := List.mem_singleton.1 new
      exact last

end Orderly

theorem orderly_replace {entries : Entries} (h : Orderly Node.Proper entries) (key : String) {node : Node}
    (proper : node.Proper) : Orderly Node.Proper (replaceEntry entries key node) := by
  constructor
  · have keys : (replaceEntry entries key node).map (·.1) = entries.map (·.1) := by
      rw [replaceEntry, List.map_map]
      apply List.map_congr_left
      intro entry _
      simp only [Function.comp_apply]
      split
      · exact Eq.symm ‹_›
      · rfl
    rw [keys]
    exact h.1
  · intro entry member
    obtain ⟨before, listed, rfl⟩ := List.mem_map.1 member
    split
    · exact proper
    · exact h.2 before listed

theorem Value.Proper.inside {entries : List (String × Value)} (h : (Value.table entries).Proper) :
    Orderly Value.Proper entries := by
  cases h with
  | table distinct each => exact ⟨distinct, each⟩

theorem Node.Proper.inside {origin : Origin} {entries : Entries} (h : (Node.branch origin entries).Proper) :
    Orderly Node.Proper entries := by
  cases h with
  | branch distinct each => exact ⟨distinct, each⟩

theorem Node.Proper.last {earlier : List Entries} {last : Entries} (h : (Node.series earlier last).Proper) :
    Orderly Node.Proper last := by
  cases h with
  | series distinct each lastDistinct lastEach => exact ⟨lastDistinct, lastEach⟩

theorem proper_branch (origin : Origin) {entries : Entries} (h : Orderly Node.Proper entries) :
    (Node.branch origin entries).Proper := .branch h.1 h.2

theorem Node.Proper.withLast {earlier : List Entries} {last after : Entries} (h : (Node.series earlier last).Proper)
    (orderly : Orderly Node.Proper after) : (Node.series earlier after).Proper := by
  cases h with
  | series distinct each => exact .series distinct each orderly.1 orderly.2

/-- What keeps a table in order keeps the tables around it in order. -/
theorem within_orderly {dotted : Bool} {change : Origin → Entries → Option Entries}
    (keeps : ∀ {origin : Origin} {entries after : Entries}, Orderly Node.Proper entries →
      change origin entries = some after → Orderly Node.Proper after)
    {keys : List String} {origin : Origin} {entries after : Entries} (start : Orderly Node.Proper entries)
    (h : within dotted change keys origin entries = some after) : Orderly Node.Proper after := by
  induction keys generalizing origin entries after with
  | nil => exact keeps start h
  | cons key keys ih =>
    unfold within at h
    split at h
    · rename_i missing
      obtain ⟨inner, made, rfl⟩ := Option.map_eq_some_iff.1 h
      exact start.append missing (proper_branch _ (ih .nil made))
    · cases h
    · rename_i earlier last found
      obtain ⟨inner, changed, rfl⟩ := Option.map_eq_some_iff.1 h
      have there := start.found found
      exact orderly_replace start key (there.withLast (ih there.last changed))
    · rename_i inside inner found
      split at h
      · cases h
      · obtain ⟨after, changed, rfl⟩ := Option.map_eq_some_iff.1 h
        exact orderly_replace start key (proper_branch _ (ih (start.found found).inside changed))

theorem assign_orderly {path : Path} {value : Value} (proper : value.Proper) {origin : Origin}
    {entries after : Entries} (start : Orderly Node.Proper entries) (h : assign path value origin entries = some after) :
    Orderly Node.Proper after := by
  refine within_orderly ?_ start h
  intro origin entries after start changed
  split at changed
  · cases changed
  · split at changed
    · cases changed
    · rename_i missing
      simp only [Bool.not_eq_true, Option.isSome_eq_false_iff, Option.isNone_iff_eq_none] at missing
      exact Option.some.inj changed ▸ start.append missing (.leaf proper)

theorem openTable_orderly {path : Path} {origin : Origin} {entries after : Entries}
    (start : Orderly Node.Proper entries) (h : openTable path origin entries = some after) :
    Orderly Node.Proper after := by
  refine within_orderly ?_ start h
  intro origin entries after start changed
  split at changed
  · rename_i missing
    exact Option.some.inj changed ▸ start.append missing (proper_branch _ .nil)
  · rename_i inner found
    exact Option.some.inj changed ▸ orderly_replace start _ (proper_branch _ (start.found found).inside)
  · cases changed

theorem openSeries_orderly {path : Path} {origin : Origin} {entries after : Entries}
    (start : Orderly Node.Proper entries) (h : openSeries path origin entries = some after) :
    Orderly Node.Proper after := by
  refine within_orderly ?_ start h
  intro origin entries after start changed
  split at changed
  · rename_i missing
    exact Option.some.inj changed ▸ start.append missing (.series nofun nofun List.nodup_nil nofun)
  · rename_i earlier last found
    refine Option.some.inj changed ▸ orderly_replace start _ ?_
    cases start.found found with
    | series distinct each lastDistinct lastEach =>
      refine .series ?_ ?_ List.nodup_nil nofun
      · exact List.forall_mem_append.2 ⟨distinct, List.forall_mem_singleton.2 lastDistinct⟩
      · exact List.forall_mem_append.2 ⟨each, List.forall_mem_singleton.2 lastEach⟩
  · cases changed

theorem entryValues_eq (entries : Entries) :
    entryValues entries = entries.map fun entry => (entry.1, entry.2.value) := by
  induction entries with
  | nil => rfl
  | cons entry rest ih => rw [entryValues, ih, List.map_cons]

theorem seriesValues_eq (earlier : List Entries) :
    seriesValues earlier = earlier.map fun entries => .table (entryValues entries) := by
  induction earlier with
  | nil => rfl
  | cons entries rest ih => rw [seriesValues, ih, List.map_cons]

theorem proper_entryValues {entries : Entries} (distinct : (entries.map (·.1)).Nodup)
    (each : ∀ entry ∈ entries, entry.2.value.Proper) : (Value.table (entryValues entries)).Proper := by
  rw [entryValues_eq]
  refine .table ?_ ?_
  · rw [List.map_map]
    exact distinct
  · exact List.forall_mem_map.2 each

theorem Node.Proper.value {node : Node} (h : node.Proper) : node.value.Proper := by
  induction h with
  | leaf proper => exact proper
  | branch distinct each ih => exact proper_entryValues distinct ih
  | series distinct each lastDistinct lastEach ih lastIh =>
    refine .array ?_
    rw [seriesValues_eq]
    refine List.forall_mem_append.2 ⟨?_, List.forall_mem_singleton.2 (proper_entryValues lastDistinct lastIh)⟩
    exact List.forall_mem_map.2 fun entries member => proper_entryValues (distinct entries member) (ih entries member)

theorem Orderly.values {entries : Entries} (h : Orderly Node.Proper entries) :
    (Value.table (entryValues entries)).Proper := proper_entryValues h.1 fun entry member => (h.2 entry member).value

theorem integer?_fits {cs : List Char} {n : Int} (h : integer? cs = some n) : fitsInteger n = true :=
  (Option.filter_eq_some_iff.1 h).2

theorem number?_proper {cs : List Char} {value : Value} (h : number? cs = some value) : value.Proper := by
  unfold number? at h
  split at h
  · rename_i n made
    exact Option.some.inj h ▸ .integer (integer?_fits made)
  · split at h
    · exact Option.some.inj h ▸ .fraction _
    · cases h

theorem token?_proper {cs : List Char} {value : Value} (h : token? cs = some value) : value.Proper := by
  unfold token? at h
  split at h
  · exact Option.some.inj h ▸ .boolean _
  · split at h
    · exact Option.some.inj h ▸ .boolean _
    · split at h
      · exact Option.some.inj h ▸ .moment _
      · exact number?_proper h

def Yields {α : Type} (P : α → Prop) (reader : Reader α) : Prop :=
  ∀ {cs : List Char} {a : α} {rest : List Char}, reader cs = some (a, rest) → P a

theorem map_fst_eq_some {α β : Type} {taken : Option (α × List Char)} {f : α → β} {b : β} {rest : List Char}
    (h : taken.map (fun (a, rest) => (f a, rest)) = some (b, rest)) : ∃ a, taken = some (a, rest) ∧ f a = b := by
  obtain ⟨⟨a, left⟩, read, same⟩ := Option.map_eq_some_iff.1 h
  obtain ⟨rfl, rfl⟩ := Prod.mk.inj same
  exact ⟨a, read, rfl⟩

theorem readToken_proper : Yields Value.Proper readToken := by
  intro cs value rest h
  have plain : ∀ {token left : List Char}, (token? token).map (·, left) = some (value, rest) → value.Proper := by
    intro token left read
    obtain ⟨made, found, same⟩ := Option.map_eq_some_iff.1 read
    obtain ⟨rfl, rfl⟩ := Prod.mk.inj same
    exact token?_proper found
  unfold readToken at h
  dsimp only at h
  split at h
  · split at h
    · split at h
      · obtain ⟨rfl, rfl⟩ := Prod.mk.inj (Option.some.inj h)
        exact .moment _
      · cases h
    · exact plain h
  · exact plain h

theorem readItems_proper {item : Reader Value} (yields : Yields Value.Proper item) :
    Yields (∀ value ∈ ·, value.Proper) (readItems item) := by
  intro cs items rest h
  fun_induction readItems item cs generalizing items rest with
  | case1 =>
    obtain ⟨rfl, -⟩ := Prod.mk.inj (Option.some.inj h)
    exact List.forall_mem_nil _
  | case3 _ value _ _ _ _ first =>
    obtain ⟨rfl, -⟩ := Prod.mk.inj (Option.some.inj h)
    exact List.forall_mem_singleton.2 (yields first)
  | case4 _ value _ _ _ _ _ first ih =>
    obtain ⟨values, others, rfl⟩ := map_fst_eq_some h
    exact List.forall_mem_cons.2 ⟨yields first, ih others⟩
  | case2 | case5 | case6 => cases h

theorem readPair_proper {item : Reader Value} (yields : Yields Value.Proper item) :
    Yields (fun pair => pair.2.Proper) (readPair item) := by
  intro cs pair rest h
  unfold readPair at h
  split at h
  · obtain ⟨value, read, rfl⟩ := map_fst_eq_some h
    exact yields read
  · cases h

theorem readPairs_proper {item : Reader Value} (yields : Yields Value.Proper item) :
    Yields (∀ pair ∈ ·, pair.2.Proper) (readPairs item) := by
  intro cs pairs rest h
  fun_induction readPairs item cs generalizing pairs rest with
  | case2 _ pair _ first =>
    obtain ⟨rfl, -⟩ := Prod.mk.inj (Option.some.inj h)
    exact List.forall_mem_singleton.2 (readPair_proper yields first)
  | case3 _ pair _ first _ _ _ ih =>
    obtain ⟨others, read, rfl⟩ := map_fst_eq_some h
    exact List.forall_mem_cons.2 ⟨readPair_proper yields first, ih read⟩
  | case1 | case4 | case5 => cases h

theorem foldlM_keeps {σ α : Type} {P : σ → Prop} {Q : α → Prop} {step : σ → α → Option σ}
    (keeps : ∀ {s : σ} {a : α} {after : σ}, P s → Q a → step s a = some after → P after)
    {items : List α} (each : ∀ a ∈ items, Q a) {start after : σ} (first : P start)
    (h : items.foldlM step start = some after) : P after := by
  induction items generalizing start with
  | nil => exact Option.some.inj h ▸ first
  | cons a items ih =>
    rw [List.foldlM_cons] at h
    obtain ⟨next, stepped, others⟩ := Option.bind_eq_some_iff.1 h
    obtain ⟨here, there⟩ := List.forall_mem_cons.1 each
    exact ih there (keeps first here stepped) others

theorem ofPairs_proper {pairs : List (Path × Value)} (each : ∀ pair ∈ pairs, pair.2.Proper) {value : Value}
    (h : ofPairs pairs = some value) : value.Proper := by
  obtain ⟨entries, assigned, rfl⟩ := Option.map_eq_some_iff.1 h
  have orderly : Orderly Node.Proper entries :=
    foldlM_keeps (fun start proper changed => assign_orderly proper start changed) each .nil assigned
  exact orderly.values

theorem readInlineTable_proper {item : Reader Value} (yields : Yields Value.Proper item) :
    Yields Value.Proper (readInlineTable item) := by
  intro cs value rest h
  unfold readInlineTable at h
  split at h
  · obtain ⟨rfl, -⟩ := Prod.mk.inj (Option.some.inj h)
    exact .table List.nodup_nil nofun
  · obtain ⟨⟨pairs, left⟩, read, made⟩ := Option.bind_eq_some_iff.1 h
    obtain ⟨table, built, same⟩ := Option.map_eq_some_iff.1 made
    obtain ⟨rfl, rfl⟩ := Prod.mk.inj same
    exact ofPairs_proper (readPairs_proper yields read) built

theorem readValue_proper (depth : Nat) : Yields Value.Proper (readValue depth) := by
  -- What stands inside of brackets is read with less depth.
  induction depth using Nat.strongRecOn with
  | ind depth inside =>
    intro cs value rest h
    unfold readValue at h
    split at h
    · obtain ⟨text, -, rfl⟩ := map_fst_eq_some h
      exact .text text
    · obtain ⟨text, -, rfl⟩ := map_fst_eq_some h
      exact .text text
    · obtain ⟨text, -, rfl⟩ := map_fst_eq_some h
      exact .text text
    · obtain ⟨text, -, rfl⟩ := map_fst_eq_some h
      exact .text text
    · split at h
      · cases h
      · obtain ⟨items, read, rfl⟩ := map_fst_eq_some h
        exact .array (readItems_proper (inside _ (Nat.lt_succ_self _)) read)
    · split at h
      · cases h
      · exact readInlineTable_proper (inside _ (Nat.lt_succ_self _)) h
    · exact readToken_proper h

def Statement.Proper : Statement → Prop
  | .header _ => True
  | .seriesHeader _ => True
  | .pair _ value => value.Proper

theorem readStatement_proper : Yields Statement.Proper readStatement := by
  intro cs statement rest h
  unfold readStatement at h
  split at h
  · split at h
    · obtain ⟨rfl, -⟩ := Prod.mk.inj (Option.some.inj h)
      trivial
    · cases h
  · split at h
    · obtain ⟨rfl, -⟩ := Prod.mk.inj (Option.some.inj h)
      trivial
    · cases h
  · obtain ⟨⟨⟨path, value⟩, left⟩, read, same⟩ := Option.map_eq_some_iff.1 h
    obtain ⟨rfl, rfl⟩ := Prod.mk.inj same
    exact readPair_proper (readValue_proper _) read

theorem readStatements_proper {cs : List Char} {statements : List Statement}
    (h : readStatements cs = some statements) : ∀ statement ∈ statements, statement.Proper := by
  fun_induction readStatements cs generalizing statements with
  | case1 => exact Option.some.inj h ▸ List.forall_mem_nil _
  | case2 _ _ _ _ _ ih => exact ih h
  | case6 _ _ _ _ _ _ _ _ first ih =>
    obtain ⟨others, read, rfl⟩ := Option.map_eq_some_iff.1 h
    exact List.forall_mem_cons.2 ⟨readStatement_proper first, ih read⟩
  | case3 | case4 | case5 | case7 => cases h

theorem Draft.add_orderly {draft after : Draft} {statement : Statement} (start : Orderly Node.Proper draft.entries)
    (proper : statement.Proper) (h : draft.add statement = some after) : Orderly Node.Proper after.entries := by
  cases statement with
  | header path =>
    obtain ⟨entries, opened, rfl⟩ := Option.map_eq_some_iff.1 h
    exact openTable_orderly start opened
  | seriesHeader path =>
    obtain ⟨entries, opened, rfl⟩ := Option.map_eq_some_iff.1 h
    exact openSeries_orderly start opened
  | pair path value =>
    obtain ⟨entries, assigned, rfl⟩ := Option.map_eq_some_iff.1 h
    exact within_orderly (fun start changed => assign_orderly proper start changed) start assigned

/-- However a document is laid out, what is read from it has each key once and integers of 64 bits only. -/
theorem read_orderly {document : String} {entries : List (String × Value)} (h : read document = some entries) :
    Orderly Value.Proper entries := by
  obtain ⟨statements, parsed, built⟩ := Option.bind_eq_some_iff.1 h
  obtain ⟨draft, added, rfl⟩ := Option.map_eq_some_iff.1 built
  have orderly : Orderly Node.Proper draft.entries :=
    foldlM_keeps (P := fun draft => Orderly Node.Proper draft.entries)
      (fun start proper changed => Draft.add_orderly start proper changed) (readStatements_proper parsed) .nil added
  exact orderly.values.inside

end WirelessCharging.Toml

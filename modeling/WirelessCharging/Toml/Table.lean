import WirelessCharging.Toml.Value
/-!
Tables as a document builds them up. A table is written under a header of its own, or it is only implied by
the header of a table inside it, or it comes from a dotted key; which of these decides what may be added to it
later. A series of tables is open at its last table, and everything else that is written out is closed.
-/
namespace WirelessCharging.Toml

inductive Origin where
  | header
  | implied
  | dotted
  deriving DecidableEq, Repr

inductive Node where
  | leaf (value : Value)
  | branch (origin : Origin) (entries : List (String × Node))
  | series (earlier : List (List (String × Node))) (last : List (String × Node))

abbrev Entries := List (String × Node)

structure Path where
  parents : List String
  key : String
  deriving DecidableEq, Repr

def replaceEntry (entries : Entries) (key : String) (node : Node) : Entries :=
  entries.map fun entry => if entry.1 = key then (key, node) else entry

/-- Changes the table that some keys lead to from a table of the given origin. Tables that are missing on
the way are made. Dotted keys do not lead through a table that has a header of its own. -/
def within (dotted : Bool) (change : Origin → Entries → Option Entries) :
    (keys : List String) → (origin : Origin) → Entries → Option Entries
  | [], origin, entries => change origin entries
  | key :: keys, _, entries =>
    match entries.lookup key with
    | none =>
      let origin := if dotted then .dotted else .implied
      (within dotted change keys origin []).map fun inner => entries ++ [(key, .branch origin inner)]
    | some (.leaf _) => none
    | some (.series earlier last) =>
      (within dotted change keys .header last).map fun last =>
        replaceEntry entries key (.series earlier last)
    | some (.branch origin inner) =>
      if dotted && origin == .header then none
      else
        (within dotted change keys origin inner).map fun inner =>
          replaceEntry entries key (.branch origin inner)

/-- Gives a key its value. A dotted key ends in a table made by dotted keys, and a plain one does not. -/
def assign (path : Path) (value : Value) : Origin → Entries → Option Entries :=
  within true (fun origin entries =>
    if (origin == .dotted) == path.parents.isEmpty then none
    else if (entries.lookup path.key).isSome then none
    else some (entries ++ [(path.key, .leaf value)])) path.parents

/-- Opens a table under its own header, which has to be the first one. -/
def openTable (path : Path) : Origin → Entries → Option Entries :=
  within false (fun _ entries =>
    match entries.lookup path.key with
    | none => some (entries ++ [(path.key, .branch .header [])])
    | some (.branch .implied inner) => some (replaceEntry entries path.key (.branch .header inner))
    | some _ => none) path.parents

def openSeries (path : Path) : Origin → Entries → Option Entries :=
  within false (fun _ entries =>
    match entries.lookup path.key with
    | none => some (entries ++ [(path.key, .series [] [])])
    | some (.series earlier last) =>
      some (replaceEntry entries path.key (.series (earlier ++ [last]) []))
    | some _ => none) path.parents

mutual

def Node.value : Node → Value
  | .leaf value => value
  | .branch _ entries => .table (entryValues entries)
  | .series earlier last => .array (seriesValues earlier ++ [.table (entryValues last)])

def entryValues : List (String × Node) → List (String × Value)
  | [] => []
  | (key, node) :: entries => (key, node.value) :: entryValues entries

def seriesValues : List (List (String × Node)) → List Value
  | [] => []
  | entries :: rest => .table (entryValues entries) :: seriesValues rest

end

end WirelessCharging.Toml

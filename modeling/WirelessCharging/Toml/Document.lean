import WirelessCharging.Toml.Statement
/-!
Documents. Pairs go into the table whose header was written last, which is the outermost table at first.
-/
namespace WirelessCharging.Toml

structure Draft where
  entries : Entries := []
  current : List String := []

namespace Draft

def add (draft : Draft) : Statement → Option Draft
  | .header path =>
    (openTable path .header draft.entries).map fun entries =>
      { entries, current := path.parents ++ [path.key] }
  | .seriesHeader path =>
    (openSeries path .header draft.entries).map fun entries =>
      { entries, current := path.parents ++ [path.key] }
  | .pair path value =>
    (within false (assign path value) draft.current .header draft.entries).map fun entries =>
      { draft with entries }

end Draft

/-- A byte order mark in front is no part of the document. -/
def withoutMark : List Char → List Char
  | '\ufeff' :: cs => cs
  | cs => cs

def ofStatements (statements : List Statement) : Option (List (String × Value)) :=
  (statements.foldlM Draft.add {}).map fun draft => entryValues draft.entries

def read (document : String) : Option (List (String × Value)) :=
  (readStatements (withoutMark document.toList)).bind ofStatements

end WirelessCharging.Toml

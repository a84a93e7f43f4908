import LayeredConfig.Assoc
import LayeredConfig.Number.Binary64
import LayeredConfig.Toml.Datetime

/-!
TOML data, and how a document builds its tables.

A header names the table that the following lines fill, and keys may be dotted.
`Node` remembers how a table came about, since that decides what may still be added:
a table of its own header cannot be named again, one that dotted keys made can only
grow by dotted keys, and one that exists only because a longer header passed through
it can still get a header, which moves it behind its neighbours.
-/

namespace LayeredConfig.Toml

inductive Value where
  | string (s : String)
  | integer (i : Int64)
  | float (x : Binary64)
  | bool (b : Bool)
  | datetime (d : Datetime)
  | array (items : List Value)
  | table (entries : List (String × Value))

instance : Inhabited Value := ⟨.bool false⟩

/-- How a table came about. -/
inductive TableKind where
  /-- By its own header, or as a whole document or inline table. -/
  | header
  /-- On the way to the table of a longer header. -/
  | implied
  /-- By dotted keys. -/
  | dotted
  deriving DecidableEq, Repr

/-- An entry of a table that is being built. -/
inductive Node where
  | value (v : Value)
  | table (kind : TableKind) (entries : List (String × Node))
  /-- An array of tables; each has had a header of its own. -/
  | tables (elements : List (List (String × Node)))

instance : Inhabited Node := ⟨.value default⟩

/-- The entries of a table that is being built. -/
abbrev Entries := Assoc Node

/-- Change the table at a path. Tables that are missing are made; in an array of tables
the last one is meant. Dotted keys cannot pass through a table that has a header. -/
def within (dotted : Bool) (change : TableKind → Entries → Option Entries) :
    (path : List String) → TableKind → Entries → Option Entries
  | [], kind, entries => change kind entries
  | key :: path, _, entries =>
    match Assoc.get? entries key with
    | none => do
      let kind := if dotted then .dotted else .implied
      let inner ← within dotted change path kind []
      some (Assoc.insert entries key (.table kind inner))
    | some (.table kind inner) =>
      if dotted ∧ kind = .header then none
      else do
        let inner ← within dotted change path kind inner
        some (Assoc.insert entries key (.table kind inner))
    | some (.tables elements) => do
      let last ← within dotted change path .header (← elements.getLast?)
      some (Assoc.insert entries key (.tables (elements.dropLast ++ [last])))
    | some (.value _) => none

/-- Set a key, perhaps dotted, of a table. The last table on the way must have been made by
dotted keys too, and the key must be new. -/
def setKey (path : List String) (key : String) (v : Value) (kind : TableKind)
    (entries : Entries) : Option Entries :=
  within true (fun kind entries =>
    if (kind = .dotted) = (path = []) ∨ Assoc.contains entries key then none
    else some (Assoc.insert entries key (.value v))) path kind entries

/-- Open the table of a header. -/
def openTable (path : List String) (key : String) (root : Entries) : Option Entries :=
  within false (fun _ entries =>
    match Assoc.get? entries key with
    | none => some (Assoc.insert entries key (.table .header []))
    | some (.table .implied inner) => some (Assoc.insertLast entries key (.table .header inner))
    | some _ => none) path .header root

/-- Open the next table of an array. -/
def openElement (path : List String) (key : String) (root : Entries) : Option Entries :=
  within false (fun _ entries =>
    match Assoc.get? entries key with
    | none => some (Assoc.insert entries key (.tables [[]]))
    | some (.tables elements) => some (Assoc.insert entries key (.tables (elements ++ [[]])))
    | some _ => none) path .header root

mutual
/-- What has been built, as data. -/
def Node.toValue : Node → Value
  | .value v => v
  | .table _ entries => .table (entryValues entries)
  | .tables elements => .array (elementValues elements)

def entryValues : List (String × Node) → List (String × Value)
  | [] => []
  | (key, n) :: rest => (key, n.toValue) :: entryValues rest

def elementValues : List (List (String × Node)) → List Value
  | [] => []
  | entries :: rest => .table (entryValues entries) :: elementValues rest
end

end LayeredConfig.Toml

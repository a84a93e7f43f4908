import LayeredConfig.Diagnostic.Basic
import LayeredConfig.Value.Basic

/-!
Composing a map from entries and spreads.

The entries are applied in declaration order: a keyed entry writes its key and a
spread writes every key of its map, over whatever was there. A key that is written
again moves to its latest place. A spread of a reference is left to the caller,
who may keep a state between calls.
-/

namespace LayeredConfig

/-- Why a map cannot be composed. -/
inductive SpreadError where
  /-- The spread value is no map. -/
  | notAMap (found : Value.Kind) (origin : Origin)
  /-- The spread is a reference that nobody has resolved. -/
  | unresolved (reference : String) (origin : Origin)
  deriving DecidableEq, Repr

namespace SpreadError

def message : SpreadError → String
  | .notAMap found origin => s!"cannot spread a {found.word} into a map at {origin.text}"
  | .unresolved reference origin =>
    s!"spread reference `{reference}` was not resolved before composition at {origin.text}"

def origin : SpreadError → Origin
  | .notAMap _ origin => origin
  | .unresolved _ origin => origin

def code : SpreadError → String
  | .notAMap .. => "C-3-1"
  | .unresolved .. => "C-3-2"

def diagnostic (e : SpreadError) : Diagnostic :=
  let d : Diagnostic := match e with
    | .notAMap found _ => {
        title := "Spread target is not a map"
        problem := some s!"A spread must produce a map, but this one produced a {found.word}"
        hints := ["Use a wildcard reference such as `alias:path.*` to spread provider data"] }
    | .unresolved reference _ => {
        title := "Unresolved spread"
        problem := some s!"`{reference}` must be resolved before its map can be composed" }
  (d.withCode e.code).withOrigin (some e.origin)

end SpreadError

/-- Composition with a caller's state of type `σ`. -/
abbrev Composing (σ : Type) := ExceptT SpreadError (StateM σ)

/-- Write every field at the end, in order. -/
def writeLast (m : Fields) (fields : Fields) : Fields :=
  fields.foldl (fun m f => Assoc.insertLast m f.1 f.2) m

mutual
/-- Apply entries to the map composed so far. -/
def composeOnto {σ : Type} (resolve : Reference → Composing σ Fields) (m : Fields) :
    List (Entry Value) → Composing σ Fields
  | [] => pure m
  | ⟨some key, v, _⟩ :: rest => composeOnto resolve (Assoc.insertLast m key v) rest
  | ⟨none, v, origin⟩ :: rest => do
    let fields ← spreadFields resolve origin v
    composeOnto resolve (writeLast m fields) rest

/-- The fields that a spread contributes. A map with spreads is composed first, and a
secret makes each of its fields secret. -/
def spreadFields {σ : Type} (resolve : Reference → Composing σ Fields) (origin : Origin) :
    Value → Composing σ Fields
  | .map fields => pure fields
  | .ordered entries => composeOnto resolve [] entries
  | .reference r => resolve r
  | .secret inner => do
    return Assoc.mapValues .secret (← spreadFields resolve origin inner)
  | .scalar s => throw (.notAMap (Value.scalar s).kind origin)
  | .list _ => throw (.notAMap .list origin)
end

/-- The plain map that entries make. -/
def compose {σ : Type} (resolve : Reference → Composing σ Fields) (entries : List (Entry Value)) :
    Composing σ Fields :=
  composeOnto resolve [] entries

/-- The caller's part for entries that must hold no unresolved spread any more. -/
def rejectReference {σ : Type} (r : Reference) : Composing σ Fields :=
  throw (.unresolved r.text r.origin)

/-- Compose entries whose spreads are all resolved. -/
def composeResolved (entries : List (Entry Value)) : Except SpreadError Fields :=
  ((compose (σ := Unit) rejectReference entries).run.run ()).1

end LayeredConfig

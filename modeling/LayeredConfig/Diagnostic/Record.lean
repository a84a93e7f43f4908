import LayeredConfig.Diagnostic.Basic
import LayeredConfig.Json.Reader

/-!
Origins and diagnostics as JSON records.

`toJson` writes a record with its fields in a fixed order, leaving out what is
absent; `ofParsed?` reads it back and passes over fields that it does not know.
`Diagnostic.summary` is the flat form for other tools, with line and column
counted from one.
-/

namespace LayeredConfig

namespace Json

def ofNat (n : Nat) : Json := .integer n

/-- A field that is left out when there is nothing to write. -/
def optionalField {α : Type} (name : String) (encode : α → Json) :
    Option α → List (String × Json)
  | some a => [(name, encode a)]
  | none => []

end Json

namespace Position

def toJson (p : Position) : Json :=
  .object [("offset", .ofNat p.offset), ("row", .ofNat p.row), ("column", .ofNat p.column)]

def ofParsed? (v : Json.Parsed) : Option Position := do
  match ← v.record? ["offset", "row", "column"] with
  | [some offset, some row, some column] =>
    some { offset := ← offset.nat?, row := ← row.nat?, column := ← column.nat? }
  | _ => none

end Position

namespace Range

def toJson (r : Range) : Json :=
  .object [("start", r.start.toJson), ("end", r.stop.toJson)]

def ofParsed? (v : Json.Parsed) : Option Range := do
  match ← v.record? ["start", "end"] with
  | [some start, some stop] =>
    some { start := ← Position.ofParsed? start, stop := ← Position.ofParsed? stop }
  | _ => none

end Range

namespace Origin

def toJson (o : Origin) : Json :=
  .object [("filename", .string o.file), ("range", o.range.toJson)]

def ofParsed? (v : Json.Parsed) : Option Origin := do
  match ← v.record? ["filename", "range"] with
  | [some file, some range] =>
    some { file := ← file.string?, range := ← Range.ofParsed? range }
  | _ => none

/-- Read an origin from JSON text. -/
def read? (text : String) : Option Origin := do ofParsed? (← Json.read? text)

end Origin

namespace Severity

/-- A severity is written as its word; an object with that word as its only key, and null
under it, says the same. -/
def ofParsed? : Json.Parsed → Option Severity
  | .string word => ofWord? word
  | .object [(some word, .null)] => ofWord? word
  | _ => none

end Severity

namespace Diagnostic

def toJson (d : Diagnostic) : Json :=
  .object (
    Json.optionalField "code" .string d.code ++
    [("title", .string d.title), ("kind", .string d.severity.word)] ++
    Json.optionalField "problem" .string d.problem ++
    (if d.hints.isEmpty then [] else [("hints", .array (d.hints.map .string))]) ++
    Json.optionalField "location" Origin.toJson d.origin)

/-- The texts of a list of hints. -/
def hintsOfParsed? : Json.Parsed → Option (List String)
  | .array items => items.mapM Json.Parsed.string?
  | _ => none

def ofParsed? (v : Json.Parsed) : Option Diagnostic := do
  match ← v.record? ["code", "title", "kind", "problem", "hints", "location"] with
  | [code, some title, some kind, problem, hints, location] =>
    some {
      code := ← Json.optional? Json.Parsed.string? code
      title := ← title.string?
      severity := ← Severity.ofParsed? kind
      problem := ← Json.optional? Json.Parsed.string? problem
      hints := ← (match hints with
        | some hints => hintsOfParsed? hints
        | none => some [])
      origin := ← Json.optional? Origin.ofParsed? location }
  | _ => none

/-- Read a diagnostic from JSON text. -/
def read? (text : String) : Option Diagnostic := do ofParsed? (← Json.read? text)

/-- The place of a diagnostic for other tools. -/
def placeJson (o : Origin) : Json :=
  .object [("filename", .string o.file), ("line", .ofNat o.line), ("column", .ofNat o.column)]

/-- The flat form for other tools. -/
def summary (d : Diagnostic) : Json :=
  .object (
    [("kind", .string d.severity.word), ("title", .string d.title)] ++
    Json.optionalField "code" .string d.code ++
    Json.optionalField "problem" .string d.problem ++
    (if d.hints.isEmpty then [] else [("hints", .array (d.hints.map .string))]) ++
    Json.optionalField "location" placeJson d.origin)

end Diagnostic

end LayeredConfig

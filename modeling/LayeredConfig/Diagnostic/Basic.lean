import LayeredConfig.Source.Origin

/-!
Diagnostics: what is wrong, how badly, where, and what may help.

A diagnostic is data for whoever shows it. `Diagnostic.text` is the plain
rendering; the JSON renderings are in `LayeredConfig.Diagnostic.Record`.
-/

namespace LayeredConfig

/-- How serious a diagnostic is. -/
inductive Severity where
  /-- Nothing can be produced. -/
  | error
  /-- Something was tolerated. -/
  | warning
  /-- Something worth knowing. -/
  | info
  deriving DecidableEq, Repr

namespace Severity

/-- The word that begins a rendered diagnostic. -/
def label : Severity → String
  | .error => "Error"
  | .warning => "Warning"
  | .info => "Info"

/-- The word that stands for a severity in data. -/
def word : Severity → String
  | .error => "error"
  | .warning => "warning"
  | .info => "info"

/-- The severity that a word stands for. -/
def ofWord? : String → Option Severity
  | "error" => some .error
  | "warning" => some .warning
  | "info" => some .info
  | _ => none

theorem ofWord?_word (s : Severity) : ofWord? s.word = some s := by
  cases s <;> rfl

end Severity

/-- A message with its parts kept apart. -/
structure Diagnostic where
  /-- A code of the catalog, such as `C-2-1`. -/
  code : Option String := none
  title : String
  severity : Severity := .error
  problem : Option String := none
  hints : List String := []
  origin : Option Origin := none
  deriving DecidableEq, Repr

namespace Diagnostic

def withCode (d : Diagnostic) (code : String) : Diagnostic := { d with code := some code }

def withProblem (d : Diagnostic) (problem : String) : Diagnostic :=
  { d with problem := some problem }

/-- Add a hint after those given before. -/
def addHint (d : Diagnostic) (hint : String) : Diagnostic :=
  { d with hints := d.hints ++ [hint] }

/-- Set where the problem is, or that nobody knows. -/
def withOrigin (d : Diagnostic) (origin : Option Origin) : Diagnostic := { d with origin }

/-- The lines of the plain rendering: code and title, place, problem, one line a hint. -/
def lines (d : Diagnostic) : List String :=
  let head := match d.code with
    | some code => s!"{d.severity.label} [{code}]: {d.title}"
    | none => s!"{d.severity.label}: {d.title}"
  head ::
    ((d.origin.map fun o => s!"  --> {o.text}").toList ++ d.problem.toList ++
      d.hints.map fun hint => s!"? {hint}")

/-- The plain rendering. -/
def text (d : Diagnostic) : String := "\n".intercalate d.lines

end Diagnostic

end LayeredConfig

import LayeredConfig.Proofs.Document.Conversion
import LayeredConfig.Proofs.Text.Segments

/-!
# Which texts name variables

A dotted name stands for a variable if it begins with `var` and goes on with segments of which
none is empty. Whether it is written as a text or as bare words makes no difference, and nothing
is lost on the way to the reference: its path, joined behind `var`, is the text again
(`Expr.convert_dotted`).
-/

namespace LayeredConfig

/-- Segments that lead to a variable: there is one at least, and each is neither empty nor has a
point in it. -/
def IsVariablePath (path : List String) : Prop :=
  path ≠ [] ∧ ∀ s ∈ path, s ≠ "" ∧ Text.IsDotFree s

theorem variablePath?_eq_some_iff {names path : List String} :
    variablePath? names = some path ↔
      names = variablesAlias :: path ∧ path ≠ [] ∧ ∀ s ∈ path, s ≠ "" := by
  cases names with
  | nil => simp [variablePath?]
  | cons first rest =>
    rw [variablePath?]
    constructor
    · intro found
      split at found
      · rename_i fine
        cases found
        obtain ⟨rfl, some, filled⟩ := fine
        exact ⟨rfl, some, by simpa using filled⟩
      · cases found
    · rintro ⟨same, some, filled⟩
      cases same
      exact if_pos ⟨rfl, some, by simpa using filled⟩

/-- `var` and a path, with a point between them. -/
theorem dotted_variable {path : List String} (some : path ≠ []) :
    Text.dotted (variablesAlias :: path) = "var." ++ Text.dotted path := by
  rw [Text.dotted, String.intercalate_cons_of_ne_nil some]
  rfl

theorem variablePath?_segments_eq_some_iff {s : String} {path : List String} :
    variablePath? (Text.segments s) = some path ↔
      IsVariablePath path ∧ s = "var." ++ Text.dotted path := by
  rw [variablePath?_eq_some_iff]
  constructor
  · rintro ⟨cut, some, filled⟩
    have free : ∀ segment ∈ path, Text.IsDotFree segment := by
      intro segment inside
      apply Text.isDotFree_of_mem_segments (s := s)
      rw [cut]
      exact List.mem_cons_of_mem _ inside
    refine ⟨⟨some, fun segment inside => ⟨filled segment inside, free segment inside⟩⟩, ?_⟩
    rw [← dotted_variable some, ← cut, Text.dotted_segments]
  · rintro ⟨⟨some, fine⟩, rfl⟩
    refine ⟨?_, some, fun segment inside => (fine segment inside).1⟩
    rw [← dotted_variable some]
    refine Text.segments_dotted (List.cons_ne_nil _ _) fun segment inside => ?_
    rcases List.mem_cons.mp inside with rfl | later
    · decide
    · exact (fine segment later).2

/-- Bare words are as good as the text that they make. -/
theorem variablePath?_segments_dotted {path : List String}
    (free : ∀ s ∈ path, Text.IsDotFree s) :
    variablePath? (Text.segments (Text.dotted path)) = variablePath? path := by
  by_cases some : path = []
  · subst some
    rfl
  · rw [Text.segments_dotted some free]

theorem Atom.value_string (origin : Origin) (s : String) (v : Value) :
    (Atom.string s).value origin = v ↔
      (∃ path, (IsVariablePath path ∧ s = "var." ++ Text.dotted path) ∧
        v = .reference { «alias» := "var", path, origin }) ∨
      (¬ ∃ path, IsVariablePath path ∧ s = "var." ++ Text.dotted path) ∧ v = .string s := by
  rw [value, dottedValue]
  simp only [← variablePath?_segments_eq_some_iff]
  cases variablePath? (Text.segments s) with
  | none => simp [eq_comm]
  | some path => simp [eq_comm, variablesAlias]

/-- A text at an admissible depth becomes a reference exactly if it is `var.` and, with points
between them, segments of which none is empty or has a point; the reference then has just these
segments for its path, and the origin of the expression. Every other text stays as it is. And
bare words without points become what the text becomes that joins them with points. -/
theorem Expr.convert_dotted (inConfig : Bool) (depth : Nat) (origin : Origin) :
    (∀ s r, (Expr.atom origin (.string s)).convert inConfig depth = .ok (.reference r) ↔
      depth ≤ maxDepth ∧ ∃ path, (IsVariablePath path ∧ s = "var." ++ Text.dotted path) ∧
        r = { «alias» := "var", path, origin }) ∧
    (∀ s, (Expr.atom origin (.string s)).convert inConfig depth = .ok (.string s) ↔
      depth ≤ maxDepth ∧ ¬ ∃ path, IsVariablePath path ∧ s = "var." ++ Text.dotted path) ∧
    ∀ words, (∀ word ∈ words, Text.IsDotFree word) →
      (Expr.atom origin (.path words)).convert inConfig depth
        = (Expr.atom origin (.string (Text.dotted words))).convert inConfig depth := by
  refine ⟨fun s r => ?_, fun s => ?_, fun words free => ?_⟩
  · rw [convert_atom_eq_ok_iff, Atom.value_string]
    simp
  · rw [convert_atom_eq_ok_iff, Atom.value_string]
    simp
  · have same : (Atom.path words).value origin
        = (Atom.string (Text.dotted words)).value origin := by
      rw [Atom.value, Atom.value, dottedValue, dottedValue, variablePath?_segments_dotted free]
    rw [convert, convert, same]

theorem Expr.convert_dotted_zone :
    (∀ word ∈ ["var", "aws", "zone"], Text.IsDotFree word) ∧
      (Expr.atom {} (.path ["var", "aws", "zone"])).convert false 1
        = (Expr.atom {} (.string (Text.dotted ["var", "aws", "zone"]))).convert false 1 := by
  have free : ∀ word ∈ ["var", "aws", "zone"], Text.IsDotFree word := by decide
  exact ⟨free, (convert_dotted false 1 {}).2.2 _ free⟩

/-- A point too many makes a text of it. -/
example : (Atom.string "var.aws..zone").value {} = .string "var.aws..zone" := rfl

end LayeredConfig

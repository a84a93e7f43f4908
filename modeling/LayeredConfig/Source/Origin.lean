import LayeredConfig.Source.Position

/-!
Where a value was written: a file and a range in it.
-/

namespace LayeredConfig

/-- A file name with a range. Values that no file holds come from `<anonymous>`. -/
structure Origin where
  file : String := "<anonymous>"
  range : Range := {}
  deriving DecidableEq, Repr, Inhabited

namespace Origin

/-- The line on which the range starts, counted from one. -/
def line (o : Origin) : Nat := o.range.start.row + 1

/-- The column at which the range starts, counted from one. -/
def column (o : Origin) : Nat := o.range.start.column + 1

/-- The form that messages use: file, line and column. -/
def text (o : Origin) : String := s!"{o.file}:{o.line}:{o.column}"

/-- The origin of the bytes between two offsets of a file's text. -/
def ofOffsets (file text : String) (start stop : Nat) : Origin :=
  { file, range := Range.ofOffsets text start stop }

/-- Another range of the same file. -/
def withRange (o : Origin) (range : Range) : Origin := { o with range }

end Origin

end LayeredConfig

import LayeredConfig.Document.Expr

/-!
Documents: the statements of one file.
-/

namespace LayeredConfig

/-- What a section assigns to its name. -/
inductive Body where
  /-- An expression after an equals sign. -/
  | inline (e : Expr)
  /-- Entries in braces. -/
  | block (entries : List (RawEntry Expr))

/-- A source declaration as written. -/
structure SourceStatement where
  «alias» : String
  providerType : String
  config : List (RawEntry Expr)
  origin : Origin := {}

inductive Statement where
  /-- A section: a top-level key with its value. -/
  | define (name : String) (body : Body) (origin : Origin)
  | source (s : SourceStatement)
  /-- A spread at top level. -/
  | spread (e : Expr) (origin : Origin)

def Statement.origin : Statement → Origin
  | .define _ _ origin => origin
  | .source s => s.origin
  | .spread _ origin => origin

/-- A source declaration, if the statement is one. -/
def Statement.source? : Statement → Option SourceStatement
  | .source s => some s
  | _ => none

/-- One file. Its origin spans the file and names it. -/
structure Document where
  statements : List Statement
  origin : Origin := {}

namespace Document

def file (d : Document) : String := d.origin.file

/-- The source declarations, in order. -/
def sources (d : Document) : List SourceStatement := d.statements.filterMap Statement.source?

end Document

end LayeredConfig

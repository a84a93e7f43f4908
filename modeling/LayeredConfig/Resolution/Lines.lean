/-!
Standing in line.

The references in a value stand at addresses. Where several of them want the same
thing, such as the data under one key, they stand in line for it: the first one
gets it for all, and if it goes away before it has it, the next one takes over.
-/

namespace LayeredConfig

/-- A step from a value to one of its parts, which may take turns with the others. -/
structure Step where
  inTurns : Bool
  index : Nat
  deriving DecidableEq, Repr

/-- The step to the following part. -/
def Step.next (s : Step) : Step := { s with index := s.index + 1 }

/-- Where something stands in a value: the steps to it, the innermost first. -/
abbrev Address := List Step

instance : LawfulBEq Address := inferInstance

/-- Who stands in line for what, in the order of arrival. -/
abbrev Lines := List (String × Address)

namespace Lines

/-- Who is in front of a line. -/
def first? (l : Lines) (name : String) : Option Address := l.lookup name

def isFirst (l : Lines) (name : String) (a : Address) : Bool := l.first? name == some a

/-- Join a line at its end. Who stands in it already keeps the place. -/
def join (l : Lines) (name : String) (a : Address) : Lines :=
  if (name, a) ∈ l then l else l ++ [(name, a)]

def leave (l : Lines) (name : String) (a : Address) : Lines := l.erase (name, a)

/-- Who takes over when somebody leaves a line. -/
def heir? (l : Lines) (name : String) (a : Address) : Option Address :=
  if l.isFirst name a then (l.leave name a).first? name else none

/-- All who stand in a line, in order. -/
def members (l : Lines) (name : String) : List Address :=
  (l.filter (·.1 = name)).map (·.2)

/-- Send everybody in a line away. -/
def dissolve (l : Lines) (name : String) : Lines := l.filter (·.1 ≠ name)

end Lines

end LayeredConfig

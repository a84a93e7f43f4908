/-!
Positions in a source text.

An offset counts UTF-8 bytes, a row counts line breaks and a column counts
characters since the last one; all three start at zero. `Position.ofOffset?`
finds the row and column of an offset.
-/

namespace LayeredConfig

/-- A place in a text. -/
structure Position where
  offset : Nat := 0
  row : Nat := 0
  column : Nat := 0
  deriving DecidableEq, Repr, Inhabited

/-- The text from `start` up to `stop`. -/
structure Range where
  start : Position := {}
  stop : Position := {}
  deriving DecidableEq, Repr, Inhabited

namespace Position

/-- Row and column after one more character. -/
def step (row column : Nat) (c : Char) : Nat × Nat :=
  if c = '\n' then (row + 1, 0) else (row, column + 1)

/-- Row and column after the characters that start before `offset`, where the first
of `chars` starts at `start`. -/
def walk (offset : Nat) : List Char → (start row column : Nat) → Nat × Nat
  | [], _, row, column => (row, column)
  | c :: rest, start, row, column =>
    if offset ≤ start then (row, column)
    else
      let (row, column) := step row column c
      walk offset rest (start + c.utf8Size) row column

/-- The position at a byte offset; none past the end of the text. An offset inside a
character counts that character as passed. -/
def ofOffset? (text : String) (offset : Nat) : Option Position :=
  if text.utf8ByteSize < offset then none
  else
    let (row, column) := walk offset text.toList 0 0 0
    some { offset, row, column }

/-- Positions are ordered by offset, then row, then column. -/
def order (p q : Position) : Ordering :=
  (compare p.offset q.offset).then ((compare p.row q.row).then (compare p.column q.column))

end Position

namespace Range

/-- Length in bytes; a range that ends before it starts has none. -/
def length (r : Range) : Nat := r.stop.offset - r.start.offset

/-- Whether the range covers no byte. -/
def isEmpty (r : Range) : Bool := r.length == 0

/-- The range between two byte offsets of a text. Offsets past the end stand for the
end, and a range that would end before its start ends there. -/
def ofOffsets (text : String) (start stop : Nat) : Range :=
  let locate (offset : Nat) : Position :=
    (Position.ofOffset? text (min offset text.utf8ByteSize)).getD {}
  { start := locate start, stop := locate (max stop start) }

end Range

end LayeredConfig

/-!
Dotted text and its segments.

`segments` cuts a text at every point, so that a text without a point is one
segment and neighbouring points have an empty segment between them; `dotted` puts
the points back.
-/

namespace LayeredConfig.Text

/-- Cut a list of characters at every `sep`. -/
def splitChars (sep : Char) : List Char → List (List Char)
  | [] => [[]]
  | c :: rest =>
    if c = sep then [] :: splitChars sep rest
    else
      match splitChars sep rest with
      | [] => [[c]]
      | segment :: others => (c :: segment) :: others

/-- The segments between points. -/
def segments (s : String) : List String := (splitChars '.' s.toList).map String.ofList

/-- Segments with points between them. -/
def dotted (path : List String) : String := ".".intercalate path

end LayeredConfig.Text

import LayeredConfig.Toml.Basic

/-!
Reading TOML 1.0.

`Toml.read?` gives the top-level entries of a document, in order, or nothing if the
text is no TOML document. A byte order mark in front is passed over. Arrays and
inline tables may be nested 79 deep, and a dotted key may have 79 segments. Every
step returns what it read with the rest of the text.
-/

namespace LayeredConfig.Toml

/-- The first depth of nesting, and number of segments, that is refused. -/
def nestingLimit : Nat := 80

/-! ### Blanks and comments -/

def isBlank (c : Char) : Bool := c = ' ' ∨ c = '\t'

def skipBlank (cs : List Char) : List Char := cs.dropWhile isBlank

/-- A character that text may hold as it is: no control other than the tab. -/
def isText (c : Char) : Bool := c = '\t' ∨ (0x20 ≤ c.toNat ∧ c.toNat ≠ 0x7F)

/-- A line end. -/
def lineEnd? : List Char → Option (List Char)
  | '\n' :: rest => some rest
  | '\r' :: '\n' :: rest => some rest
  | _ => none

/-- A line end, or the end of the text. -/
def lineEndOrEnd? : List Char → Option (List Char)
  | [] => some []
  | cs => lineEnd? cs

/-- A comment without its line end, if there is one. -/
def skipComment : List Char → List Char
  | '#' :: rest => rest.dropWhile isText
  | cs => cs

/-- What may follow on a line: blanks, a comment, and the line end. -/
def lineRest? (cs : List Char) : Option (List Char) := lineEndOrEnd? (skipComment (skipBlank cs))

/-- Blanks, comments and line ends, as between the items of an array. -/
def skipLines : (fuel : Nat) → List Char → Option (List Char)
  | 0, _ => none
  | fuel + 1, cs =>
    match skipBlank cs with
    | '#' :: rest => do skipLines fuel (← lineEnd? (rest.dropWhile isText))
    | '\n' :: rest => skipLines fuel rest
    | '\r' :: rest => do skipLines fuel (← lineEnd? ('\r' :: rest))
    | cs => some cs

/-! ### Strings -/

def isHex (c : Char) : Bool :=
  isDigit c ∨ ('a' ≤ c ∧ c ≤ 'f') ∨ ('A' ≤ c ∧ c ≤ 'F')

/-- The character that hexadecimal digits name. -/
def charOfHex? (digits : List Char) : Option Char :=
  let n := valueOfDigits 16 digits
  if digits.all isHex ∧ n.isValidChar then some (Char.ofNat n) else none

/-- The character of an escape, after its backslash. -/
def escape? : List Char → Option (Char × List Char)
  | 'b' :: rest => some ('\x08', rest)
  | 'f' :: rest => some ('\x0c', rest)
  | 'n' :: rest => some ('\n', rest)
  | 'r' :: rest => some ('\r', rest)
  | 't' :: rest => some ('\t', rest)
  | '\\' :: rest => some ('\\', rest)
  | '"' :: rest => some ('"', rest)
  | 'u' :: rest =>
    if rest.length < 4 then none else (charOfHex? (rest.take 4)).map (·, rest.drop 4)
  | 'U' :: rest =>
    if rest.length < 8 then none else (charOfHex? (rest.take 8)).map (·, rest.drop 8)
  | _ => none

/-- The characters of a string of one line, after its opening quote. -/
def basicChars : (fuel : Nat) → List Char → Option (List Char × List Char)
  | 0, _ => none
  | fuel + 1, cs =>
    match cs with
    | '"' :: rest => some ([], rest)
    | '\\' :: rest => do
      let (c, rest) ← escape? rest
      let (s, rest) ← basicChars fuel rest
      some (c :: s, rest)
    | c :: rest =>
      if isText c then do
        let (s, rest) ← basicChars fuel rest
        some (c :: s, rest)
      else none
    | [] => none

/-- The characters of a string without escapes, after its opening quote. -/
def literalChars (cs : List Char) : Option (List Char × List Char) :=
  let s := cs.takeWhile fun c => isText c && c ≠ '\''
  match cs.dropWhile fun c => isText c && c ≠ '\'' with
  | '\'' :: rest => some (s, rest)
  | _ => none

/-- The end of a string of several lines: three quotes, with up to two more in front that
belong to the string. -/
def closing? (quote : Char) (cs : List Char) : Option (List Char × List Char) :=
  let quotes := (cs.takeWhile (· = quote)).length
  if quotes < 3 then none
  else some (List.replicate (min quotes 5 - 3) quote, cs.drop (min quotes 5))

/-- After a backslash: a line end, perhaps after blanks, with all blanks and line ends
that follow. -/
def foldedLines? (fuel : Nat) (cs : List Char) : Option (List Char) := do
  let rest ← lineEnd? (skipBlank cs)
  skip fuel rest
where
  skip : Nat → List Char → Option (List Char)
    | 0, _ => none
    | fuel + 1, cs =>
      match lineEnd? (skipBlank cs) with
      | some rest => skip fuel rest
      | none => some (skipBlank cs)

/-- The characters of a string of several lines, after its opening quotes. A line end
counts as a line feed; `escapes` tells whether backslashes mean anything. -/
def multilineChars (quote : Char) (escapes : Bool) :
    (fuel : Nat) → List Char → Option (List Char × List Char)
  | 0, _ => none
  | fuel + 1, cs =>
    match closing? quote cs with
    | some end_ => some end_
    | none =>
      let continueWith (c : Char) (rest : List Char) : Option (List Char × List Char) :=
        (multilineChars quote escapes fuel rest).map fun (s, rest) => (c :: s, rest)
      match cs with
      | '\n' :: rest => continueWith '\n' rest
      | '\r' :: '\n' :: rest => continueWith '\n' rest
      | c :: rest =>
        if c = '\\' ∧ escapes then
          match foldedLines? fuel rest with
          | some rest => multilineChars quote escapes fuel rest
          | none => do
            let (c, rest) ← escape? rest
            continueWith c rest
        else if isText c then continueWith c rest
        else none
      | [] => none

/-- A line end right after the opening quotes does not count. -/
def skipFirstLineEnd (cs : List Char) : List Char := (lineEnd? cs).getD cs

/-- A string of any of the four sorts. -/
def string? (fuel : Nat) (cs : List Char) : Option (String × List Char) :=
  let chars := match cs with
    | '"' :: '"' :: '"' :: rest => multilineChars '"' true fuel (skipFirstLineEnd rest)
    | '"' :: rest => basicChars fuel rest
    | '\'' :: '\'' :: '\'' :: rest => multilineChars '\'' false fuel (skipFirstLineEnd rest)
    | '\'' :: rest => literalChars rest
    | _ => none
  chars.map fun (s, rest) => (String.ofList s, rest)

/-! ### Keys -/

def isBareKey (c : Char) : Bool :=
  isDigit c ∨ ('a' ≤ c ∧ c ≤ 'z') ∨ ('A' ≤ c ∧ c ≤ 'Z') ∨ c = '-' ∨ c = '_'

/-- A segment of a key: a bare word or a string of one line. -/
def segment? (fuel : Nat) (cs : List Char) : Option (String × List Char) :=
  match cs with
  | '"' :: rest => (basicChars fuel rest).map fun (s, rest) => (String.ofList s, rest)
  | '\'' :: rest => (literalChars rest).map fun (s, rest) => (String.ofList s, rest)
  | cs =>
    let word := cs.takeWhile isBareKey
    if word.isEmpty then none else some (String.ofList word, cs.dropWhile isBareKey)

/-- The segments of a key, with points between them. -/
def segments? : (fuel : Nat) → List Char → Option (List String × List Char)
  | 0, _ => none
  | fuel + 1, cs => do
    let (segment, rest) ← segment? fuel (skipBlank cs)
    match skipBlank rest with
    | '.' :: rest => (segments? fuel rest).map fun (path, rest) => (segment :: path, rest)
    | rest => some ([segment], rest)

/-- A key as the path to its table and its last segment. -/
def key? (fuel : Nat) (cs : List Char) : Option ((List String × String) × List Char) := do
  let (path, rest) ← segments? fuel cs
  let last ← path.getLast?
  if path.length < nestingLimit then some ((path.dropLast, last), rest) else none

/-! ### Numbers -/

/-- More digits, each perhaps after an underscore. -/
def moreDigits (isDigit : Char → Bool) : List Char → Option (List Char × List Char)
  | [] => some ([], [])
  | '_' :: c :: rest =>
    if isDigit c then (moreDigits isDigit rest).map fun (ds, rest) => (c :: ds, rest) else none
  | c :: rest =>
    if isDigit c then (moreDigits isDigit rest).map fun (ds, rest) => (c :: ds, rest)
    else if c = '_' then none
    else some ([], c :: rest)

/-- One digit or more; single underscores may stand between them. -/
def digits? (isDigit : Char → Bool) : List Char → Option (List Char × List Char)
  | c :: rest =>
    if isDigit c then (moreDigits isDigit rest).map fun (ds, rest) => (c :: ds, rest) else none
  | [] => none

/-- A sign, if there is one; tells whether it is a minus. -/
def sign : List Char → Bool × List Char
  | '+' :: rest => (false, rest)
  | '-' :: rest => (true, rest)
  | cs => (false, cs)

/-- A decimal number: its sign and its digits. A zero in front stands alone. -/
def decimal? (cs : List Char) : Option ((Bool × List Char) × List Char) := do
  let (negative, cs) := sign cs
  let (digits, rest) ← match cs with
    | '0' :: rest => some (['0'], rest)
    | cs => digits? isDigit cs
  some ((negative, digits), rest)

/-- An integer that 64 bits with a sign can hold. -/
def integer64? (negative : Bool) (n : Nat) : Option Value :=
  if (if negative then n ≤ Nat.pow 2 63 else n < Nat.pow 2 63) then
    some (.integer (Int64.ofInt (if negative then -(n : Int) else n)))
  else none

/-- An integer in another base, after the zero and the letter. -/
def based? (base : Nat) (isDigit : Char → Bool) (cs : List Char) : Option (Value × List Char) := do
  let (digits, rest) ← digits? isDigit cs
  some (← integer64? false (valueOfDigits base digits), rest)

def integer? : List Char → Option (Value × List Char)
  | '0' :: 'x' :: rest => based? 16 isHex rest
  | '0' :: 'o' :: rest => based? 8 (fun c => '0' ≤ c && c ≤ '7') rest
  | '0' :: 'b' :: rest => based? 2 (fun c => c = '0' || c = '1') rest
  | cs => do
    let ((negative, digits), rest) ← decimal? cs
    some (← integer64? negative (valueOfDigits 10 digits), rest)

/-- A power of ten after its letter. -/
def power? (cs : List Char) : Option (Int × List Char) := do
  let (negative, cs) := sign cs
  let (digits, rest) ← digits? isDigit cs
  let n : Int := valueOfDigits 10 digits
  some (if negative then -n else n, rest)

/-- A power of ten, if a letter says that there is one. -/
def optionalPower? : List Char → Option (Int × List Char)
  | 'e' :: rest => power? rest
  | 'E' :: rest => power? rest
  | cs => some (0, cs)

/-- Infinity or no number, after the sign. -/
def special? (negative : Bool) : List Char → Option (Value × List Char)
  | 'i' :: 'n' :: 'f' :: rest => some (.float (.infinity negative), rest)
  | 'n' :: 'a' :: 'n' :: rest => some (.float .nan, rest)
  | _ => none

/-- A number with a fraction, a power of ten or both, as the nearest double. A positive
number must not be beyond every double. -/
def decimalFloat? (cs : List Char) : Option (Value × List Char) := do
  let ((negative, whole), rest) ← decimal? cs
  let (fraction, rest) ← match rest with
    | '.' :: rest => digits? isDigit rest
    | 'e' :: rest => some ([], 'e' :: rest)
    | 'E' :: rest => some ([], 'E' :: rest)
    | _ => none
  let (power, rest) ← optionalPower? rest
  let x := Binary64.ofDecimal negative (valueOfDigits 10 (whole ++ fraction))
    (power - fraction.length)
  if x = .infinity false then none else some (.float x, rest)

def float? (cs : List Char) : Option (Value × List Char) :=
  match decimalFloat? cs with
  | some r => some r
  | none =>
    let (negative, rest) := sign cs
    special? negative rest

/-- A date, a time or a number. -/
def numeric? (cs : List Char) : Option (Value × List Char) :=
  match datetime? cs with
  | some (d, rest) => some (.datetime d, rest)
  | none =>
    match float? cs with
    | some r => some r
    | none => integer? cs

/-! ### Values -/

/-- The table that the keys of an inline table make. -/
def inlineTable? (keyed : List ((List String × String) × Value)) : Option Value := do
  let entries ← keyed.foldlM (fun (entries : Entries) ((path, key), v) =>
    setKey path key v .header entries) []
  some (.table (entryValues entries))

mutual
/-- One value inside so many arrays and inline tables. -/
def value? : (fuel : Nat) → (depth : Nat) → List Char → Option (Value × List Char)
  | 0, _, _ => none
  | fuel + 1, depth, cs =>
    match cs with
    | 't' :: 'r' :: 'u' :: 'e' :: rest => some (.bool true, rest)
    | 'f' :: 'a' :: 'l' :: 's' :: 'e' :: rest => some (.bool false, rest)
    | '[' :: rest => do
      if nestingLimit ≤ depth + 1 then none
      else
        let (items, rest) ← items? fuel (depth + 1) rest
        some (.array items, rest)
    | '\x7b' :: rest => do
      if nestingLimit ≤ depth + 1 then none
      else
        match skipBlank rest with
        | '\x7d' :: rest => some (.table [], rest)
        | rest =>
          let (keyed, rest) ← keyed? fuel (depth + 1) rest
          some (← inlineTable? keyed, rest)
    | c :: _ =>
      if c = '"' ∨ c = '\'' then (string? fuel cs).map fun (s, rest) => (.string s, rest)
      else if c = '+' ∨ c = '-' ∨ isDigit c then numeric? cs
      else special? false cs
    | [] => none

/-- The items of an array up to its closing bracket; a comma may follow the last one. -/
def items? : (fuel : Nat) → (depth : Nat) → List Char → Option (List Value × List Char)
  | 0, _, _ => none
  | fuel + 1, depth, cs => do
    match ← skipLines fuel cs with
    | ']' :: rest => some ([], rest)
    | cs =>
      let (v, rest) ← value? fuel depth cs
      match ← skipLines fuel rest with
      | ',' :: rest => (items? fuel depth rest).map fun (vs, rest) => (v :: vs, rest)
      | ']' :: rest => some ([v], rest)
      | _ => none

/-- The keys and values of an inline table up to its closing brace. -/
def keyed? : (fuel : Nat) → (depth : Nat) → List Char →
    Option (List ((List String × String) × Value) × List Char)
  | 0, _, _ => none
  | fuel + 1, depth, cs => do
    let (key, rest) ← key? fuel cs
    let (v, rest) ← value? fuel depth (skipBlank (← char? '=' rest))
    match skipBlank rest with
    | ',' :: rest => (keyed? fuel depth rest).map fun (kvs, rest) => ((key, v) :: kvs, rest)
    | '\x7d' :: rest => some ([(key, v)], rest)
    | _ => none
end

/-! ### Documents -/

/-- What has been read: the tables so far, and the path of the one that is being filled. -/
structure Building where
  root : Entries := []
  current : List String := []

/-- A header, after its opening brackets. -/
def header? (fuel : Nat) (b : Building) (element : Bool) (cs : List Char) :
    Option (Building × List Char) := do
  let ((path, key), rest) ← key? fuel cs
  let rest ← char? ']' rest
  let rest ← if element then char? ']' rest else some rest
  let root ← if element then openElement path key b.root else openTable path key b.root
  some ({ root, current := path ++ [key] }, ← lineRest? rest)

/-- A key with its value, for the current table. -/
def assignment? (fuel : Nat) (b : Building) (cs : List Char) : Option (Building × List Char) := do
  let ((path, key), rest) ← key? fuel cs
  let (v, rest) ← value? fuel 0 (skipBlank (← char? '=' rest))
  let root ← within false (setKey path key v) b.current .header b.root
  some ({ b with root }, ← lineRest? rest)

/-- The lines of a document. -/
def lines? : (fuel : Nat) → Building → List Char → Option Building
  | 0, _, _ => none
  | fuel + 1, b, cs =>
    match skipBlank cs with
    | [] => some b
    | '#' :: rest => do lines? fuel b (← lineRest? ('#' :: rest))
    | '\n' :: rest => lines? fuel b rest
    | '\r' :: rest => do lines? fuel b (← lineEnd? ('\r' :: rest))
    | '[' :: '[' :: rest => do
      let (b, rest) ← header? fuel b true rest
      lines? fuel b rest
    | '[' :: rest => do
      let (b, rest) ← header? fuel b false rest
      lines? fuel b rest
    | cs => do
      let (b, rest) ← assignment? fuel b cs
      lines? fuel b rest

/-- The top-level entries of a document. Every step of the reader passes a character or
goes one level down, so the fuel suffices. -/
def read? (text : String) : Option (Assoc Value) := do
  let cs := match text.toList with
    | '\ufeff' :: rest => rest
    | cs => cs
  let b ← lines? (2 * cs.length + 2) {} cs
  some (entryValues b.root)

end LayeredConfig.Toml

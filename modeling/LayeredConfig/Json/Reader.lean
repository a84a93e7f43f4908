import LayeredConfig.Json.Basic

/-!
Reading JSON text.

`Json.read?` accepts exactly the texts of the JSON grammar, with blanks around
their tokens. What it returns keeps as much as records ask for: natural numbers,
strings and structure. Other numbers are recognised without a value, and so are
strings that escape half of a surrogate pair, which no Unicode text can hold. A
step returns what it read with the rest of the text.
-/

namespace LayeredConfig.Json

/-- What a JSON text says. -/
inductive Parsed where
  | null
  | bool (b : Bool)
  | natural (n : Nat)
  | otherNumber
  | string (s : String)
  | brokenString
  | array (items : List Parsed)
  /-- Fields in order; a field whose key is no Unicode text has none. -/
  | object (fields : List (Option String × Parsed))

def isBlank (c : Char) : Bool := c = ' ' ∨ c = '\t' ∨ c = '\n' ∨ c = '\r'

def skipBlank (cs : List Char) : List Char := cs.dropWhile isBlank

/-! ### Strings -/

/-- A unit of a string: a character, or half of a surrogate pair given by an escape. -/
inductive StringUnit where
  | char (c : Char)
  | half (n : Nat)

def hexValue? (c : Char) : Option Nat :=
  if '0' ≤ c ∧ c ≤ '9' then some (c.toNat - '0'.toNat)
  else if 'a' ≤ c ∧ c ≤ 'f' then some (c.toNat - 'a'.toNat + 10)
  else if 'A' ≤ c ∧ c ≤ 'F' then some (c.toNat - 'A'.toNat + 10)
  else none

/-- The unit that four hexadecimal digits name. -/
def unitOfHex? (a b c d : Char) : Option StringUnit := do
  let n := ((← hexValue? a) * 16 + (← hexValue? b)) * 256 + (← hexValue? c) * 16 + (← hexValue? d)
  if 0xD800 ≤ n ∧ n < 0xE000 then some (.half n) else some (.char (Char.ofNat n))

/-- The character that a backslash and a letter stand for. -/
def escaped? : Char → Option Char
  | '"' => some '"'
  | '\\' => some '\\'
  | '/' => some '/'
  | 'b' => some '\x08'
  | 'f' => some '\x0c'
  | 'n' => some '\n'
  | 'r' => some '\r'
  | 't' => some '\t'
  | _ => none

/-- The units of a string up to its closing quote, which is passed. -/
def stringUnits : List Char → Option (List StringUnit × List Char)
  | [] => none
  | '"' :: rest => some ([], rest)
  | '\\' :: 'u' :: a :: b :: c :: d :: rest => do
    let unit ← unitOfHex? a b c d
    let (units, rest) ← stringUnits rest
    some (unit :: units, rest)
  | '\\' :: e :: rest => do
    let c ← escaped? e
    let (units, rest) ← stringUnits rest
    some (.char c :: units, rest)
  | c :: rest =>
    if c.toNat < 0x20 then none
    else do
      let (units, rest) ← stringUnits rest
      some (.char c :: units, rest)

/-- The characters of units; the halves of a pair make one character. None when a half
stands alone. -/
def join? : List StringUnit → Option (List Char)
  | [] => some []
  | .char c :: rest => (join? rest).map (c :: ·)
  | .half high :: .half low :: rest =>
    if high < 0xDC00 ∧ 0xDC00 ≤ low then
      (join? rest).map (Char.ofNat (0x10000 + (high - 0xD800) * 0x400 + (low - 0xDC00)) :: ·)
    else none
  | .half _ :: _ => none

/-- The text of a string after its opening quote, if it is one. -/
def stringBody (cs : List Char) : Option (Option String × List Char) := do
  let (units, rest) ← stringUnits cs
  some ((join? units).map String.ofList, rest)

/-! ### Numbers -/

def isDigit (c : Char) : Bool := '0' ≤ c ∧ c ≤ '9'

/-- A number by its decimal digits. -/
def valueOfDigits (digits : List Char) : Nat :=
  digits.foldl (fun n c => n * 10 + (c.toNat - '0'.toNat)) 0

/-- One digit or more. -/
def digits1 (cs : List Char) : Option (List Char × List Char) :=
  let digits := cs.takeWhile isDigit
  if digits.isEmpty then none else some (digits, cs.dropWhile isDigit)

/-- Digits without a superfluous zero in front. -/
def integerPart (cs : List Char) : Option (List Char × List Char) := do
  let (digits, rest) ← digits1 cs
  if digits.head? = some '0' ∧ 1 < digits.length then none else some (digits, rest)

/-- A point and digits, or nothing; tells whether there was one. -/
def fractionPart : List Char → Option (Bool × List Char)
  | '.' :: rest => (digits1 rest).map fun r => (true, r.2)
  | cs => some (false, cs)

/-- An exponent, or nothing; tells whether there was one. -/
def exponentPart : List Char → Option (Bool × List Char)
  | c :: rest =>
    if c = 'e' ∨ c = 'E' then
      let unsigned := match rest with
        | '+' :: r => r
        | '-' :: r => r
        | r => r
      (digits1 unsigned).map fun r => (true, r.2)
    else some (false, c :: rest)
  | [] => some (false, [])

/-- A number; digits alone make a natural number. -/
def number (cs : List Char) : Option (Parsed × List Char) := do
  let (negative, unsigned) := match cs with
    | '-' :: rest => (true, rest)
    | cs => (false, cs)
  let (digits, rest) ← integerPart unsigned
  let (fraction, rest) ← fractionPart rest
  let (power, rest) ← exponentPart rest
  if negative ∨ fraction ∨ power then some (.otherNumber, rest)
  else some (.natural (valueOfDigits digits), rest)

/-! ### Data -/

/-- A string that need not be Unicode text. -/
def stringValue : Option String → Parsed
  | some s => .string s
  | none => .brokenString

mutual
/-- One value, with blanks before it. -/
def value : (fuel : Nat) → List Char → Option (Parsed × List Char)
  | 0, _ => none
  | fuel + 1, cs =>
    match skipBlank cs with
    | 'n' :: 'u' :: 'l' :: 'l' :: rest => some (.null, rest)
    | 't' :: 'r' :: 'u' :: 'e' :: rest => some (.bool true, rest)
    | 'f' :: 'a' :: 'l' :: 's' :: 'e' :: rest => some (.bool false, rest)
    | '"' :: rest => (stringBody rest).map fun r => (stringValue r.1, r.2)
    | '[' :: rest =>
      match skipBlank rest with
      | ']' :: rest => some (.array [], rest)
      | rest => (items fuel rest).map fun r => (.array r.1, r.2)
    | '\x7b' :: rest =>
      match skipBlank rest with
      | '\x7d' :: rest => some (.object [], rest)
      | rest => (fields fuel rest).map fun r => (.object r.1, r.2)
    | rest => number rest

/-- Items up to the closing bracket. -/
def items : (fuel : Nat) → List Char → Option (List Parsed × List Char)
  | 0, _ => none
  | fuel + 1, cs => do
    let (v, rest) ← value fuel cs
    match skipBlank rest with
    | ',' :: rest => (items fuel rest).map fun r => (v :: r.1, r.2)
    | ']' :: rest => some ([v], rest)
    | _ => none

/-- Fields up to the closing brace. -/
def fields : (fuel : Nat) → List Char → Option (List (Option String × Parsed) × List Char)
  | 0, _ => none
  | fuel + 1, cs =>
    match skipBlank cs with
    | '"' :: rest => do
      let (key, rest) ← stringBody rest
      match skipBlank rest with
      | ':' :: rest => do
        let (v, rest) ← value fuel rest
        match skipBlank rest with
        | ',' :: rest => (fields fuel rest).map fun r => ((key, v) :: r.1, r.2)
        | '\x7d' :: rest => some ([(key, v)], rest)
        | _ => none
      | _ => none
    | _ => none
end

/-- What a whole text says; none if it is not JSON. Every step of the reader passes a
character or goes one level down, so the fuel suffices. -/
def read? (text : String) : Option Parsed := do
  let cs := text.toList
  let (v, rest) ← value (2 * cs.length + 2) cs
  if (skipBlank rest).isEmpty then some v else none

/-! ### Records -/

/-- The field of a given name: none if it is missing, and no answer at all if it is
written twice. -/
def field? (fields : List (Option String × Parsed)) (name : String) :
    Option (Option Parsed) :=
  match fields.filter (·.1 = some name) with
  | [] => some none
  | [(_, v)] => some (some v)
  | _ => none

/-- The named fields of a record. A record is written as an object, where other fields
are passed over, or as the array of all its fields. -/
def Parsed.record? (names : List String) : Parsed → Option (List (Option Parsed))
  | .object fields =>
    if fields.any (·.1.isNone) then none else names.mapM (field? fields)
  | .array items => if items.length = names.length then some (items.map some) else none
  | _ => none

/-- A natural number of 64 bits. -/
def Parsed.nat? : Parsed → Option Nat
  | .natural n => if n < UInt64.size then some n else none
  | _ => none

def Parsed.string? : Parsed → Option String
  | .string s => some s
  | _ => none

/-- A field that may be missing or null. -/
def optional? {α : Type} (decode : Parsed → Option α) : Option Parsed → Option (Option α)
  | none => some none
  | some .null => some none
  | some v => (decode v).map some

end LayeredConfig.Json

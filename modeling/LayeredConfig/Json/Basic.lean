import LayeredConfig.Assoc
import LayeredConfig.Number.Shortest

/-!
JSON data and its compact text.

An object keeps its fields in the order in which they are written. Numbers are
integers of any size or finite doubles, the only doubles that JSON can write.
`Json.chars` is the text as a list of characters, which `Json.Reader` reads back.
-/

namespace LayeredConfig

/-- JSON data. -/
inductive Json where
  | null
  | bool (b : Bool)
  | integer (i : Int)
  | float (x : Binary64) (finite : x.isFinite = true)
  | string (s : String)
  | array (items : List Json)
  | object (fields : List (String × Json))

namespace Json

instance : Inhabited Json := ⟨.null⟩

/-- A double as JSON data: one that is not finite has no number and becomes null. -/
def ofBinary64 (x : Binary64) : Json :=
  if finite : x.isFinite = true then .float x finite else .null

/-! ### Numbers -/

def natChars (n : Nat) : List Char := Nat.toDigits 10 n

def intChars : Int → List Char
  | .ofNat n => natChars n
  | .negSucc n => '-' :: natChars (n + 1)

/-- When a double is written with a plain point, and how it is written otherwise. -/
structure FloatLayout where
  /-- The least and the greatest power of ten of a number in positional notation. -/
  positional : Int × Int
  /-- Whether a positive exponent shows its sign. -/
  plusSign : Bool

/-- Positional from `0.00001` up to sixteen digits before the point; `1e-6` and `1.5e+16`
beyond. -/
def floatLayout : FloatLayout := { positional := (-5, 15), plusSign := true }

/-- Digits with a point after the first `point` of them; digits that are missing on
either side are zeros, and at least one digit follows the point. -/
def positionalChars (digits : List Char) (point : Int) : List Char :=
  let whole := digits.take point.toNat
  let padded := whole ++ List.replicate (point.toNat - digits.length) '0'
  let fraction := List.replicate (-point).toNat '0' ++ digits.drop point.toNat
  (if padded.isEmpty then ['0'] else padded) ++ '.' ::
    (if fraction.isEmpty then ['0'] else fraction)

/-- One digit, the others after a point if there are any, and a power of ten. -/
def scientificChars (layout : FloatLayout) (digits : List Char) (power : Int) : List Char :=
  let sign := if power < 0 then ['-'] else if layout.plusSign then ['+'] else []
  digits.take 1 ++ (if digits.length ≤ 1 then [] else '.' :: digits.drop 1) ++
    'e' :: sign ++ natChars power.natAbs

/-- A finite double by its shortest digits. -/
def floatChars (x : Binary64) : List Char :=
  let d := x.shortest
  let digits := natChars d.digits
  let point : Int := digits.length + d.exponent
  let power := point - 1
  let magnitude :=
    if floatLayout.positional.1 ≤ power ∧ power ≤ floatLayout.positional.2 then
      positionalChars digits point
    else scientificChars floatLayout digits power
  if x.isNegative then '-' :: magnitude else magnitude

/-! ### Strings -/

/-- A digit of a hexadecimal number, in lower case. -/
def hexDigit (n : Nat) : Char := Nat.digitChar (n % 16)

/-- How one character is written inside a string: quotes, backslashes and controls are
escaped, all else stands for itself. -/
def charChars (c : Char) : List Char :=
  match c with
  | '"' => ['\\', '"']
  | '\\' => ['\\', '\\']
  | '\x08' => ['\\', 'b']
  | '\x0c' => ['\\', 'f']
  | '\n' => ['\\', 'n']
  | '\r' => ['\\', 'r']
  | '\t' => ['\\', 't']
  | c =>
    if c.toNat < 0x20 then
      ['\\', 'u', '0', '0', hexDigit (c.toNat / 16), hexDigit c.toNat]
    else [c]

def stringChars (s : String) : List Char :=
  '"' :: s.toList.flatMap charChars ++ ['"']

/-! ### Data -/

mutual
/-- The compact text, character by character. -/
def chars : Json → List Char
  | .null => ['n', 'u', 'l', 'l']
  | .bool true => ['t', 'r', 'u', 'e']
  | .bool false => ['f', 'a', 'l', 's', 'e']
  | .integer i => intChars i
  | .float x _ => floatChars x
  | .string s => stringChars s
  | .array items => '[' :: itemChars items ++ [']']
  | .object fields => '\x7b' :: fieldChars fields ++ ['\x7d']

/-- Items with commas between them. -/
def itemChars : List Json → List Char
  | [] => []
  | [j] => chars j
  | j :: rest => chars j ++ ',' :: itemChars rest

/-- Fields with commas between them. -/
def fieldChars : List (String × Json) → List Char
  | [] => []
  | [(key, j)] => stringChars key ++ ':' :: chars j
  | (key, j) :: rest => stringChars key ++ ':' :: chars j ++ ',' :: fieldChars rest
end

/-- The compact text. -/
def text (j : Json) : String := String.ofList (chars j)

end Json

end LayeredConfig

/-!
Dates and times of TOML.

A date-time has a date, a time or both, and with both perhaps an offset from UTC.
Reading checks that every part is in its range; writing gives one canonical text.
-/

namespace LayeredConfig.Toml

structure Date where
  year : Nat
  month : Nat
  day : Nat
  deriving DecidableEq, Repr

structure Time where
  hour : Nat
  minute : Nat
  /-- Up to 60, which is a leap second. -/
  second : Nat
  nanosecond : Nat := 0
  deriving DecidableEq, Repr

/-- The difference from UTC. -/
inductive Offset where
  | utc
  | minutes (m : Int)
  deriving DecidableEq, Repr

structure Datetime where
  date : Option Date := none
  time : Option Time := none
  offset : Option Offset := none
  deriving DecidableEq, Repr

/-! ### Text -/

/-- A number with zeros in front up to a width. -/
def padded (width n : Nat) : String :=
  let digits := Nat.toDigits 10 n
  String.ofList (List.replicate (width - digits.length) '0' ++ digits)

def Date.text (d : Date) : String :=
  padded 4 d.year ++ "-" ++ padded 2 d.month ++ "-" ++ padded 2 d.day

/-- The fraction of a second is written without trailing zeros, and not at all if it is
zero. -/
def Time.text (t : Time) : String :=
  let fraction :=
    if t.nanosecond = 0 then ""
    else "." ++ String.ofList
      ((padded 9 t.nanosecond).toList.reverse.dropWhile (· = '0')).reverse
  padded 2 t.hour ++ ":" ++ padded 2 t.minute ++ ":" ++ padded 2 t.second ++ fraction

def Offset.text : Offset → String
  | .utc => "Z"
  | .minutes m =>
    (if m < 0 then "-" else "+") ++ padded 2 (m.natAbs / 60) ++ ":" ++ padded 2 (m.natAbs % 60)

def Datetime.text (d : Datetime) : String :=
  (d.date.map Date.text).getD "" ++
    (if d.date.isSome ∧ d.time.isSome then "T" else "") ++
    (d.time.map Time.text).getD "" ++ (d.offset.map Offset.text).getD ""

/-! ### Reading -/

def isDigit (c : Char) : Bool := '0' ≤ c ∧ c ≤ '9'

/-- A number by its digits in a base; letters are the digits from ten on. -/
def valueOfDigits (base : Nat) (digits : List Char) : Nat :=
  let digit (c : Char) : Nat :=
    if isDigit c then c.toNat - '0'.toNat else c.toLower.toNat - 'a'.toNat + 10
  digits.foldl (fun n c => n * base + digit c) 0

/-- Exactly so many digits, as a number. -/
def fixedDigits? (count : Nat) (cs : List Char) : Option (Nat × List Char) :=
  let digits := cs.take count
  if digits.length = count ∧ digits.all isDigit then
    some (valueOfDigits 10 digits, cs.drop count)
  else none

/-- Two digits with a value in a range. -/
def part? (low high : Nat) (cs : List Char) : Option (Nat × List Char) := do
  let (n, rest) ← fixedDigits? 2 cs
  if low ≤ n ∧ n ≤ high then some (n, rest) else none

/-- A given character. -/
def char? (c : Char) : List Char → Option (List Char)
  | d :: rest => if c = d then some rest else none
  | [] => none

def isLeapYear (year : Nat) : Bool :=
  year % 4 = 0 ∧ (year % 100 ≠ 0 ∨ year % 400 = 0)

def daysIn (year month : Nat) : Nat :=
  match month with
  | 2 => if isLeapYear year then 29 else 28
  | 4 | 6 | 9 | 11 => 30
  | _ => 31

def date? (cs : List Char) : Option (Date × List Char) := do
  let (year, cs) ← fixedDigits? 4 cs
  let cs ← char? '-' cs
  let (month, cs) ← part? 1 12 cs
  let cs ← char? '-' cs
  let (day, cs) ← part? 1 31 cs
  if day ≤ daysIn year month then some ({ year, month, day }, cs) else none

/-- A point and digits as nanoseconds, or nothing; what is finer than that is cut off. -/
def nanoseconds (cs : List Char) : Nat × List Char :=
  match cs with
  | '.' :: rest =>
    let digits := rest.takeWhile isDigit
    if digits.isEmpty then (0, cs)
    else
      let kept := digits.take 9
      (valueOfDigits 10 (kept ++ List.replicate (9 - kept.length) '0'), rest.dropWhile isDigit)
  | _ => (0, cs)

def time? (cs : List Char) : Option (Time × List Char) := do
  let (hour, cs) ← part? 0 23 cs
  let cs ← char? ':' cs
  let (minute, cs) ← part? 0 59 cs
  let cs ← char? ':' cs
  let (second, cs) ← part? 0 60 cs
  let (nanosecond, cs) := nanoseconds cs
  some ({ hour, minute, second, nanosecond }, cs)

/-- An offset after its sign. -/
def signedOffset? (negative : Bool) (cs : List Char) : Option (Offset × List Char) := do
  let (hour, cs) ← part? 0 23 cs
  let cs ← char? ':' cs
  let (minute, cs) ← part? 0 59 cs
  let total : Int := hour * 60 + minute
  some (.minutes (if negative then -total else total), cs)

def offset? : List Char → Option (Offset × List Char)
  | 'Z' :: rest => some (.utc, rest)
  | 'z' :: rest => some (.utc, rest)
  | '+' :: rest => signedOffset? false rest
  | '-' :: rest => signedOffset? true rest
  | _ => none

/-- What follows a date: a time with an optional offset, if there is one. -/
def afterDate (date : Date) (cs : List Char) : Datetime × List Char :=
  let timed : Option (Time × List Char) :=
    match cs with
    | c :: rest => if c = 'T' ∨ c = 't' ∨ c = ' ' then time? rest else none
    | [] => none
  match timed with
  | none => ({ date := some date }, cs)
  | some (time, rest) =>
    match offset? rest with
    | some (offset, rest) => ({ date := some date, time := some time, offset := some offset }, rest)
    | none => ({ date := some date, time := some time }, rest)

/-- A date, a time or both. -/
def datetime? (cs : List Char) : Option (Datetime × List Char) :=
  match date? cs with
  | some (date, rest) => some (afterDate date rest)
  | none => (time? cs).map fun (time, rest) => ({ time := some time }, rest)

end LayeredConfig.Toml

/-!
Spans of time, as messages show them.
-/

namespace LayeredConfig.Text

/-- The three digits of a number of thousandths, without trailing zeros. -/
def thousandths (n : Nat) : String :=
  let digits := (toString (1000 + n % 1000)).toList.drop 1
  String.ofList (digits.reverse.dropWhile (· = '0')).reverse

/-- A span of milliseconds: in whole milliseconds below a second, otherwise in seconds
with as many decimals as it needs. -/
def duration (ms : Nat) : String :=
  if ms = 0 then "0ns"
  else if ms < 1000 then s!"{ms}ms"
  else if ms % 1000 = 0 then s!"{ms / 1000}s"
  else s!"{ms / 1000}.{thousandths ms}s"

end LayeredConfig.Text

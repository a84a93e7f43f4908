import LayeredConfig.Json.Reader
import LayeredConfig.Proofs.Text.Numerals

/-!
# The text of numbers

A number is written as the grammar of JSON says (`Json.IsNumber`): a sign, digits without a
superfluous zero in front, a fraction, and an exponent, each of which but the digits may be missing.
The reader takes such a text for a number as a whole, whatever follows that does not continue it
(`Json.number_append`), and for the natural number that it says if it is digits alone.

Integers are written in this way (`Json.number_natChars`, `Json.isNumber_negSucc`), and so are
doubles (`Json.isNumber_floatChars`). Of the shortest decimal of a double it takes one fact to see
this: its digits are zero for the double zero alone, since the reals that round to any other one
lie on one side of zero (`Binary64.exponent_shortest`).
-/

namespace LayeredConfig

/-! ### The digits of doubles -/

namespace Binary64

open Decimal

variable {value : Fraction} {interval : RoundingInterval} {unit : Int} {n : Nat}

/-- An interval whose lower end is above zero. -/
def RoundingInterval.IsPositive (i : RoundingInterval) : Prop := 0 < i.low.num

theorem num_dyadic_pos {m : Nat} (positive : 0 < m) (e : Int) : 0 < (Fraction.dyadic m e).num := by
  rw [Fraction.dyadic]
  split
  · exact Nat.mul_pos positive (Nat.pow_pos (by decide))
  · exact positive

theorem isPositive_roundingInterval {x : Binary64} (nonzero : x.significand ≠ 0) :
    x.roundingInterval.IsPositive := by
  rw [RoundingInterval.IsPositive, roundingInterval]
  dsimp only
  split <;> exact num_dyadic_pos (by omega) _

theorem RoundingInterval.IsPositive.not_contains_zero (positive : interval.IsPositive) :
    interval.contains (Fraction.scaleDown ⟨0, 1⟩ unit) = false := by
  have zero : (Fraction.scaleDown ⟨0, 1⟩ unit).num = 0 ∧
      0 < (Fraction.scaleDown ⟨0, 1⟩ unit).den := by
    rw [Fraction.scaleDown]
    split
    · exact ⟨rfl, Nat.mul_pos Nat.one_pos (Nat.pow_pos (by decide))⟩
    · exact ⟨Nat.zero_mul _, Nat.one_pos⟩
  have low : ¬ interval.low.num * (Fraction.scaleDown ⟨0, 1⟩ unit).den ≤ 0 :=
    Nat.not_le.mpr (Nat.mul_pos positive zero.2)
  have strict : ¬ interval.low.num * (Fraction.scaleDown ⟨0, 1⟩ unit).den < 0 := Nat.not_lt_zero _
  simp only [RoundingInterval.contains, Fraction.le, Fraction.lt, zero.1, Nat.zero_mul]
  split
  · rw [decide_eq_false low, Bool.false_and]
  · rw [decide_eq_false strict, Bool.false_and]

theorem onGrid?_pos (positive : interval.IsPositive) (hit : onGrid? value interval unit = some n) :
    0 < n := by
  rw [onGrid?] at hit
  dsimp only at hit
  generalize (value.scaleDown unit).num / (value.scaleDown unit).den = below at hit
  have nonzero : interval.contains (Fraction.scaleDown ⟨below, 1⟩ (-unit)) = true → 0 < below := by
    intro reads
    refine Nat.pos_of_ne_zero ?_
    rintro rfl
    rw [positive.not_contains_zero] at reads
    cases reads
  split at hit
  · rename_i reads _
    have := nonzero reads
    split at hit
    · cases hit
      exact this
    · split at hit <;> cases hit <;> omega
  · rename_i reads _
    cases hit
    exact nonzero reads
  · cases hit
    exact Nat.succ_pos below
  · cases hit

/-- A search that ends without a hit gives zero; a hit is not zero. -/
theorem search_pos (positive : interval.IsPositive) (top : Int) (fuel count : Nat) :
    0 < (search value interval top fuel count).digits ∨
      search value interval top fuel count = ⟨0, 0⟩ := by
  induction fuel generalizing count with
  | zero => exact .inr rfl
  | succ fuel ih =>
    rw [search]
    split
    · rename_i digits hit
      exact .inl (onGrid?_pos positive hit)
    · exact ih (count + 1)

theorem digits_trim_pos {d : Decimal} (positive : 0 < d.digits) (fuel : Nat) :
    0 < (trim fuel d).digits := by
  induction fuel generalizing d with
  | zero => exact positive
  | succ fuel ih =>
    rw [trim]
    split
    · exact ih (by dsimp only; omega)
    · exact positive

theorem trim_zero (fuel : Nat) : trim fuel ⟨0, 0⟩ = ⟨0, 0⟩ := by
  cases fuel <;> rfl

/-- Only zero has no digits but zeros, and it is written without a power of ten. -/
theorem exponent_shortest {x : Binary64} (zero : x.shortest.digits = 0) :
    x.shortest.exponent = 0 := by
  rw [shortest] at zero ⊢
  split
  · rfl
  · rename_i nonzero
    rw [if_neg nonzero] at zero
    dsimp only at zero ⊢
    rcases search_pos (isPositive_roundingInterval nonzero) _ 17 1 with positive | nothing
    · exact absurd zero (Nat.ne_of_gt (digits_trim_pos positive 20))
    · rw [nothing, trim_zero]

end Binary64

namespace Json

/-! ### The grammar of numbers -/

/-- Digits without a superfluous zero in front. -/
def IsWhole (cs : List Char) : Prop :=
  Text.IsNumeral cs ∧ (cs.head? = some '0' → cs.length = 1)

/-- A fraction, or nothing; the mark tells whether there is one. -/
inductive IsFraction : Bool → List Char → Prop where
  | missing : IsFraction false []
  | digits {cs : List Char} (numeral : Text.IsNumeral cs) : IsFraction true ('.' :: cs)

/-- An exponent, or nothing; the mark tells whether there is one. -/
inductive IsExponent : Bool → List Char → Prop where
  | missing : IsExponent false []
  | digits {sign cs : List Char} (signed : sign = [] ∨ sign = ['+'] ∨ sign = ['-'])
      (numeral : Text.IsNumeral cs) : IsExponent true ('e' :: sign ++ cs)

/-- A number without a sign; the mark tells whether it is more than digits. -/
inductive IsUnsigned : Bool → List Char → Prop where
  | parts {whole fraction exponent : List Char} {point power : Bool} (digits : IsWhole whole)
      (behind : IsFraction point fraction) (scaled : IsExponent power exponent) :
      IsUnsigned (point || power) (whole ++ (fraction ++ exponent))

/-- A number that is more than digits. -/
inductive IsNumber : List Char → Prop where
  | plain {cs : List Char} (unsigned : IsUnsigned true cs) : IsNumber cs
  | negative {cs : List Char} {more : Bool} (unsigned : IsUnsigned more cs) : IsNumber ('-' :: cs)

/-- What follows a number does not continue it. -/
def EndsNumber (rest : List Char) : Prop :=
  ∀ c ∈ rest.head?, c.isDigit = false ∧ c ≠ '.' ∧ c ≠ 'e' ∧ c ≠ 'E'

/-! ### Reading them -/

section Reading

variable {digits cs rest : List Char} {present : Bool}

theorem isDigit_eq_isDigit (c : Char) : isDigit c = c.isDigit := Text.isDigit_eq c

theorem digits1_append (numeral : Text.IsNumeral digits)
    (ends : ∀ c ∈ rest.head?, c.isDigit = false) :
    digits1 (digits ++ rest) = some (digits, rest) := by
  have all : ∀ c ∈ digits, isDigit c = true := fun c inside => by
    rw [isDigit_eq_isDigit, numeral.2 c inside]
  have none : rest.takeWhile isDigit = [] ∧ rest.dropWhile isDigit = rest := by
    cases rest with
    | nil => exact ⟨rfl, rfl⟩
    | cons c rest =>
      have other : isDigit c = false := by rw [isDigit_eq_isDigit, ends c rfl]
      exact ⟨List.takeWhile_cons_of_neg (by simp [other]),
        List.dropWhile_cons_of_neg (by simp [other])⟩
  rw [digits1, List.takeWhile_append_of_pos all, List.dropWhile_append_of_pos all, none.1, none.2,
    List.append_nil]
  exact if_neg (by simpa using numeral.1)

theorem integerPart_append (whole : IsWhole digits) (ends : ∀ c ∈ rest.head?, c.isDigit = false) :
    integerPart (digits ++ rest) = some (digits, rest) := by
  have short : ¬ (digits.head? = some '0' ∧ 1 < digits.length) := by
    rintro ⟨zero, long⟩
    have := whole.2 zero
    omega
  rw [integerPart, digits1_append whole.1 ends]
  exact if_neg short

theorem fractionPart_append (fraction : IsFraction present cs)
    (ends : ∀ c ∈ rest.head?, c.isDigit = false ∧ c ≠ '.') :
    fractionPart (cs ++ rest) = some (present, rest) := by
  cases fraction with
  | missing =>
    rw [List.nil_append, fractionPart.eq_def]
    split
    · exact absurd rfl (ends '.' rfl).2
    · rfl
  | digits numeral =>
    rw [List.cons_append, fractionPart, digits1_append numeral fun c first => (ends c first).1]
    rfl

theorem exponentPart_append (exponent : IsExponent present cs)
    (ends : ∀ c ∈ rest.head?, c.isDigit = false ∧ c ≠ 'e' ∧ c ≠ 'E') :
    exponentPart (cs ++ rest) = some (present, rest) := by
  cases exponent with
  | missing =>
    cases rest with
    | nil => rfl
    | cons c rest =>
      obtain ⟨-, lower, upper⟩ := ends c rfl
      exact if_neg (by simp [lower, upper])
  | @digits sign cs signed numeral =>
    have read := digits1_append numeral fun c first => (ends c first).1
    rcases signed with rfl | rfl | rfl
    · -- Without a sign the first digit is looked at, which is no sign.
      obtain ⟨c, more, same⟩ := List.exists_cons_of_ne_nil numeral.1
      have digit : c.isDigit = true := numeral.2 c (same ▸ List.mem_cons_self)
      rw [same] at read ⊢
      simp only [List.cons_append, List.nil_append] at read ⊢
      rw [exponentPart, if_pos (.inl rfl)]
      · dsimp only
        rw [read]
        rfl
      · rintro _ ⟨⟩
        cases digit
      · rintro _ ⟨⟩
        cases digit
    · simp [exponentPart, read]
    · simp [exponentPart, read]

/-- The parts of a number are read one after the other. -/
theorem parts_append {whole fraction exponent : List Char} {point power : Bool}
    (digits : IsWhole whole) (behind : IsFraction point fraction)
    (scaled : IsExponent power exponent) (ends : EndsNumber rest) :
    integerPart (whole ++ (fraction ++ (exponent ++ rest)))
        = some (whole, fraction ++ (exponent ++ rest)) ∧
      fractionPart (fraction ++ (exponent ++ rest)) = some (point, exponent ++ rest) ∧
      exponentPart (exponent ++ rest) = some (power, rest) := by
  have behindFraction : ∀ c ∈ (exponent ++ rest).head?, c.isDigit = false ∧ c ≠ '.' := by
    cases scaled with
    | missing => exact fun c first => ⟨(ends c first).1, (ends c first).2.1⟩
    | digits signed numeral =>
      rintro c ⟨⟩
      exact ⟨rfl, by decide⟩
  have behindWhole : ∀ c ∈ (fraction ++ (exponent ++ rest)).head?, c.isDigit = false := by
    cases behind with
    | missing => exact fun c first => (behindFraction c first).1
    | digits numeral =>
      rintro c ⟨⟩
      rfl
  exact ⟨integerPart_append digits behindWhole, fractionPart_append behind behindFraction,
    exponentPart_append scaled fun c first => ⟨(ends c first).1, (ends c first).2.2⟩⟩

/-- A number that begins with a digit is not negative. -/
theorem number_of_digits (digits : Text.IsNumeral cs) (more : List Char) :
    number (cs ++ more) = (do
      let (digits, rest) ← integerPart (cs ++ more)
      let (fraction, rest) ← fractionPart rest
      let (power, rest) ← exponentPart rest
      if fraction ∨ power then some (.otherNumber, rest)
      else some (.natural (valueOfDigits digits), rest)) := by
  obtain ⟨c, others, rfl⟩ := List.exists_cons_of_ne_nil digits.1
  have digit : c.isDigit = true := digits.2 c List.mem_cons_self
  rw [List.cons_append, number]
  · simp
  · rintro rest ⟨⟩
    cases digit

/-- What the grammar calls a number is read as one. -/
theorem number_append (number : IsNumber cs) (ends : EndsNumber rest) :
    Json.number (cs ++ rest) = some (.otherNumber, rest) := by
  cases number with
  | plain unsigned =>
    generalize marked : true = more at unsigned
    obtain ⟨digits, behind, scaled⟩ := unsigned
    obtain ⟨whole, fraction, exponent⟩ := parts_append digits behind scaled ends
    rw [List.append_assoc, List.append_assoc, number_of_digits digits.1]
    simp only [whole, fraction, exponent, Option.bind_eq_bind, Option.bind_some,
      ← Bool.or_eq_true, ← marked, if_true]
  | negative unsigned =>
    obtain ⟨digits, behind, scaled⟩ := unsigned
    obtain ⟨whole, fraction, exponent⟩ := parts_append digits behind scaled ends
    rw [List.cons_append, List.append_assoc, List.append_assoc, Json.number]
    simp only [whole, fraction, exponent, Option.bind_eq_bind, Option.bind_some, true_or, if_true]

end Reading

/-! ### Writing them -/

section Writing

variable {rest : List Char}

theorem isWhole_natChars (n : Nat) : IsWhole (natChars n) := by
  refine ⟨Text.isNumeral_toDigits n, fun zero => ?_⟩
  have nothing : n = 0 :=
    Nat.eq_zero_of_not_pos fun positive => Text.head?_toDigits_ne_zero positive zero
  rw [natChars, nothing]
  rfl

/-- The digits of a natural number are read as that number. -/
theorem number_natChars (n : Nat) (ends : EndsNumber rest) :
    number (natChars n ++ rest) = some (.natural n, rest) := by
  obtain ⟨whole, fraction, exponent⟩ := parts_append (isWhole_natChars n) .missing .missing ends
  rw [List.nil_append, List.nil_append] at whole
  rw [List.nil_append, List.nil_append] at fraction
  rw [List.nil_append] at exponent
  have value : valueOfDigits (natChars n) = n := by
    rw [valueOfDigits, Text.foldl_digits, natChars, Nat.ofDigitChars_ten_toDigits]
  rw [number_of_digits (isWhole_natChars n).1]
  simp [whole, fraction, exponent, value]

theorem isNumber_negSucc (n : Nat) : IsNumber (intChars (.negSucc n)) := by
  have digits := IsUnsigned.parts (isWhole_natChars (n + 1)) .missing .missing
  rw [List.append_nil, List.append_nil] at digits
  exact .negative digits

/-- A zero in place of no digits at all. -/
def orZero (cs : List Char) : List Char := if cs.isEmpty then ['0'] else cs

theorem isNumeral_orZero {cs : List Char} (all : ∀ c ∈ cs, c.isDigit = true) :
    Text.IsNumeral (orZero cs) := by
  rw [orZero]
  split
  · exact ⟨List.cons_ne_nil _ _, fun c zero => List.mem_singleton.mp zero ▸ rfl⟩
  · rename_i filled
    exact ⟨by simpa using filled, all⟩

theorem isDigit_replicate {n : Nat} : ∀ c ∈ List.replicate n '0', c.isDigit = true :=
  fun _ zero => (List.mem_replicate.mp zero).2 ▸ rfl

section Positional

variable {digits : List Char} {point : Int}

/-- A zero in front of the point stands alone: it is put there, or it is the one digit there. -/
theorem isWhole_beforePoint (numeral : Text.IsNumeral digits)
    (zero : digits.head? = some '0' → point ≤ 1) :
    IsWhole (orZero
      (digits.take point.toNat ++ List.replicate (point.toNat - digits.length) '0')) := by
  obtain ⟨filled, all⟩ := numeral
  refine ⟨isNumeral_orZero fun c inside => ?_, fun first => ?_⟩
  · rcases List.mem_append.mp inside with before | padding
    · exact all c (List.mem_of_mem_take before)
    · exact isDigit_replicate c padding
  · obtain ⟨c, others, rfl⟩ := List.exists_cons_of_ne_nil filled
    cases before : point.toNat with
    | zero => simp [orZero]
    | succ n =>
      simp only [before, orZero] at first ⊢
      have isZero : c = '0' := by simpa using first
      have one : n = 0 := by
        have := zero (congrArg some isZero)
        omega
      simp [one]

theorem isNumeral_behindPoint (numeral : Text.IsNumeral digits) (point : Int) :
    Text.IsNumeral
      (orZero (List.replicate (-point).toNat '0' ++ digits.drop point.toNat)) := by
  refine isNumeral_orZero fun c inside => ?_
  rcases List.mem_append.mp inside with padding | behind
  · exact isDigit_replicate c padding
  · exact numeral.2 c (List.mem_of_mem_drop behind)

/-- Positional notation has digits on both sides of the point. -/
theorem isUnsigned_positionalChars (numeral : Text.IsNumeral digits)
    (zero : digits.head? = some '0' → point ≤ 1) :
    IsUnsigned true (positionalChars digits point) := by
  have whole := IsUnsigned.parts (isWhole_beforePoint numeral zero)
    (.digits (isNumeral_behindPoint numeral point)) .missing
  rwa [List.append_nil] at whole

end Positional

/-- Scientific notation has one digit in front of the point, and an exponent. -/
theorem isUnsigned_scientificChars {digits : List Char} (numeral : Text.IsNumeral digits)
    (power : Int) : IsUnsigned true (scientificChars floatLayout digits power) := by
  obtain ⟨filled, all⟩ := numeral
  obtain ⟨c, others, rfl⟩ := List.exists_cons_of_ne_nil filled
  have front : IsWhole [c] :=
    ⟨⟨List.cons_ne_nil c [], fun d inside => all d (List.mem_singleton.mp inside ▸ .head _)⟩,
      fun _ => rfl⟩
  have back : ∃ point, IsFraction point
      (if (c :: others).length ≤ 1 then [] else '.' :: (c :: others).drop 1) := by
    split
    · exact ⟨false, .missing⟩
    · rename_i long
      refine ⟨true, .digits ⟨fun empty => long ?_, fun d inside => all d (.tail _ inside)⟩⟩
      exact Nat.le_of_eq (congrArg (·.length + 1) empty)
  have scale : IsExponent true
      ('e' :: (if power < 0 then ['-'] else ['+']) ++ natChars power.natAbs) := by
    refine .digits ?_ (Text.isNumeral_toDigits _)
    split
    · exact .inr (.inr rfl)
    · exact .inr (.inl rfl)
  obtain ⟨point, back⟩ := back
  have whole := IsUnsigned.parts front back scale
  rw [Bool.or_true] at whole
  simpa [scientificChars, floatLayout] using whole

theorem isNumber_floatChars (x : Binary64) : IsNumber (floatChars x) := by
  have whole := isWhole_natChars x.shortest.digits
  have zero : (natChars x.shortest.digits).head? = some '0' →
      ((natChars x.shortest.digits).length : Int) + x.shortest.exponent ≤ 1 := by
    intro first
    have nothing : x.shortest.digits = 0 :=
      Nat.eq_zero_of_not_pos fun positive => Text.head?_toDigits_ne_zero positive first
    rw [whole.2 first, Binary64.exponent_shortest nothing]
    decide
  rw [floatChars]
  split <;> split
  · exact .negative (isUnsigned_positionalChars whole.1 zero)
  · exact .negative (isUnsigned_scientificChars whole.1 _)
  · exact .plain (isUnsigned_positionalChars whole.1 zero)
  · exact .plain (isUnsigned_scientificChars whole.1 _)

end Writing

end Json

end LayeredConfig

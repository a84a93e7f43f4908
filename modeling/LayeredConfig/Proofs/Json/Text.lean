import LayeredConfig.Proofs.Json.Data
import LayeredConfig.Proofs.Json.Numbers

/-!
# Reading what was written

The text of JSON data is read back as what it says (`Json.read?_text`): `Json.said` is that of the
data which a reader of records keeps, all but the values of numbers that are not natural. Strings
come back character by character, since every escape stands for the character that it was made of
(`Json.stringUnits_charChars`). The reader is given fuel for as many steps as the text has
characters, and this is always enough (`Json.isRead`).
-/

namespace LayeredConfig.Json

/-! ### What data say -/

mutual
/-- What the text of data says to a reader. -/
def said : Json → Parsed
  | .null => .null
  | .bool b => .bool b
  | .integer (.ofNat n) => .natural n
  | .integer (.negSucc _) => .otherNumber
  | .float _ _ => .otherNumber
  | .string s => .string s
  | .array items => .array (saidItems items)
  | .object fields => .object (saidFields fields)

def saidItems : List Json → List Parsed
  | [] => []
  | j :: rest => said j :: saidItems rest

def saidFields : List (String × Json) → List (Option String × Parsed)
  | [] => []
  | (key, j) :: rest => (some key, said j) :: saidFields rest
end

theorem saidItems_eq_map (items : List Json) : saidItems items = items.map said := by
  induction items with
  | nil => rfl
  | cons j rest ih => rw [saidItems, ih, List.map_cons]

theorem saidFields_eq_map (fields : List (String × Json)) :
    saidFields fields = fields.map fun f => (some f.1, said f.2) := by
  induction fields with
  | nil => rfl
  | cons f rest ih => rw [saidFields, ih, List.map_cons]

/-! ### Strings -/

/-- A hexadecimal digit is read as what it was written for. -/
theorem hexValue?_hexDigit (n : Nat) : hexValue? (hexDigit n) = some (n % 16) := by
  have all : ∀ d, d < 16 → hexValue? (Nat.digitChar d) = some d := by decide
  exact all (n % 16) (Nat.mod_lt n (by decide))

/-- A control is named by two digits behind two zeros. -/
theorem unitOfHex?_control {c : Char} (control : c.toNat < 0x20) :
    unitOfHex? '0' '0' (hexDigit (c.toNat / 16)) (hexDigit c.toNat) = some (.char c) := by
  have zero : hexValue? '0' = some 0 := rfl
  have value : c.toNat / 16 % 16 * 16 + c.toNat % 16 = c.toNat := by omega
  simp only [unitOfHex?, zero, hexValue?_hexDigit, Option.bind_eq_bind, Option.bind_some,
    Nat.zero_mul, Nat.zero_add, value]
  rw [if_neg (by omega), Char.ofNat_toNat]

/-- A character is read back, however it is written. -/
theorem stringUnits_charChars (c : Char) (rest : List Char) :
    stringUnits (charChars c ++ rest)
      = (stringUnits rest).bind fun r => some (.char c :: r.1, r.2) := by
  rw [charChars.eq_def]
  split
  iterate 7 rfl
  · rename_i quote backslash _ _ _ _ _
    split
    · rename_i control
      simp only [List.cons_append, List.nil_append]
      rw [stringUnits, unitOfHex?_control control]
      rfl
    · rename_i other
      rw [List.cons_append, List.nil_append, stringUnits, if_neg other]
      · rfl
      · exact quote
      · exact fun _ _ _ _ _ same _ => backslash same
      · exact fun _ _ same _ => backslash same

/-- The characters of a string are read up to the quote that ends it, whatever comes behind. -/
theorem stringUnits_append (cs rest : List Char) :
    stringUnits (cs.flatMap charChars ++ '"' :: rest) = some (cs.map .char, rest) := by
  induction cs with
  | nil => rfl
  | cons c cs ih =>
    rw [List.flatMap_cons, List.append_assoc, stringUnits_charChars, ih]
    rfl

theorem join?_chars (cs : List Char) : join? (cs.map .char) = some cs := by
  induction cs with
  | nil => rfl
  | cons c cs ih =>
    rw [List.map_cons, join?, ih]
    rfl

/-- A string is read back behind its opening quote. -/
theorem stringBody_append (s : String) (rest : List Char) :
    stringBody (s.toList.flatMap charChars ++ '"' :: rest) = some (some s, rest) := by
  simp [stringBody, stringUnits_append, join?_chars]

theorem stringChars_append (s : String) (rest : List Char) :
    stringChars s ++ rest = '"' :: (s.toList.flatMap charChars ++ '"' :: rest) := by
  rw [stringChars, List.cons_append, List.cons_append, List.append_assoc]
  rfl

/-! ### First characters -/

section First

variable {c : Char} {cs rest : List Char} {fuel : Nat}

/-- Where no blank stands, none is skipped. -/
theorem skipBlank_cons (solid : isBlank c = false) (cs : List Char) :
    skipBlank (c :: cs) = c :: cs :=
  List.dropWhile_cons_of_neg (by simp [solid])

theorem endsNumber_cons (c : Char)
    (other : c.isDigit = false ∧ c ≠ '.' ∧ c ≠ 'e' ∧ c ≠ 'E') (rest : List Char) :
    EndsNumber (c :: rest) := by
  rintro d ⟨⟩
  exact other

/-- A number begins with a digit or a sign. -/
def BeginsNumber (cs : List Char) : Prop :=
  ∃ c others, cs = c :: others ∧ (c = '-' ∨ c.isDigit = true)

theorem IsWhole.beginsNumber (whole : IsWhole cs) (more : List Char) :
    BeginsNumber (cs ++ more) := by
  obtain ⟨c, others, rfl⟩ := List.exists_cons_of_ne_nil whole.1.1
  exact ⟨c, others ++ more, rfl, .inr (whole.1.2 c List.mem_cons_self)⟩

theorem IsNumber.beginsNumber (number : IsNumber cs) (more : List Char) :
    BeginsNumber (cs ++ more) := by
  cases number with
  | plain unsigned =>
    generalize true = mark at unsigned
    obtain ⟨digits, behind, scaled⟩ := unsigned
    rw [List.append_assoc]
    exact digits.beginsNumber _
  | negative unsigned => exact ⟨'-', _, rfl, .inl rfl⟩

/-- A digit or a sign is not blank, nor is it a bracket or a quote. -/
theorem solid_of_beginsNumber {c : Char} (signed : c = '-' ∨ c.isDigit = true) :
    isBlank c = false ∧ c ≠ ']' := by
  constructor
  · rw [Bool.eq_false_iff]
    intro blank
    have spaces : c = ' ' ∨ c = '\t' ∨ c = '\n' ∨ c = '\r' := of_decide_eq_true blank
    rcases spaces with rfl | rfl | rfl | rfl <;> exact absurd signed (by decide)
  · rintro rfl
    exact absurd signed (by decide)

/-- What begins like a number is read as a number. -/
theorem value_of_beginsNumber (begins : BeginsNumber cs) (fuel : Nat) :
    value (fuel + 1) cs = number cs := by
  obtain ⟨c, others, rfl, signed⟩ := begins
  rw [value, skipBlank_cons (solid_of_beginsNumber signed).1]
  split
  -- No other value begins with a digit or a sign.
  iterate 6
    · rename_i same
      cases same
      exact absurd signed (by decide)
  · rfl

/-- The text of data begins with a character that is neither blank nor a closing bracket. -/
theorem exists_chars (j : Json) (more : List Char) :
    ∃ c others, chars j ++ more = c :: others ∧ isBlank c = false ∧ c ≠ ']' := by
  have ofNumber : ∀ {cs}, BeginsNumber cs →
      ∃ c others, cs = c :: others ∧ isBlank c = false ∧ c ≠ ']' := by
    rintro _ ⟨c, others, rfl, signed⟩
    exact ⟨c, others, rfl, solid_of_beginsNumber signed⟩
  cases j with
  | null => exact ⟨_, _, rfl, by decide, by decide⟩
  | bool b => cases b <;> exact ⟨_, _, rfl, by decide, by decide⟩
  | integer i =>
    cases i with
    | ofNat n => exact ofNumber ((isWhole_natChars n).beginsNumber more)
    | negSucc n => exact ofNumber ((isNumber_negSucc n).beginsNumber more)
  | float x finite => exact ofNumber ((isNumber_floatChars x).beginsNumber more)
  | string s => exact ⟨_, _, rfl, by decide, by decide⟩
  | array items => exact ⟨_, _, rfl, by decide, by decide⟩
  | object fields => exact ⟨_, _, rfl, by decide, by decide⟩

end First

/-! ### Data -/

/-- Data are read from every text that begins with theirs, in as many steps as they have
characters. -/
def IsRead (j : Json) : Prop :=
  ∀ fuel rest, (chars j).length ≤ fuel + 1 → EndsNumber rest →
    value (fuel + 1) (chars j ++ rest) = some (said j, rest)

section Values

variable {c : Char} {j : Json} {cs rest : List Char} {fuel : Nat}

/-- What is read back alone is read back in front of other text, if a number ends there. -/
theorem IsRead.append (read : IsRead j) (enough : (chars j).length ≤ fuel)
    (ends : EndsNumber rest) : value fuel (chars j ++ rest) = some (said j, rest) := by
  obtain ⟨c, others, begins, -⟩ := exists_chars j []
  have filled : 0 < (chars j).length := by
    rw [← List.append_nil (chars j), begins]
    exact Nat.succ_pos _
  obtain ⟨fuel, rfl⟩ : ∃ n, fuel = n + 1 := ⟨fuel - 1, by omega⟩
  exact read fuel rest enough ends

theorem value_number (number : IsNumber cs) (ends : EndsNumber rest) :
    value (fuel + 1) (cs ++ rest) = some (.otherNumber, rest) :=
  (value_of_beginsNumber (number.beginsNumber rest) fuel).trans (number_append number ends)

theorem value_quote (cs : List Char) :
    value (fuel + 1) ('"' :: cs) = (stringBody cs).map fun r => (stringValue r.1, r.2) := rfl

theorem value_bracket (solid : isBlank c = false) (other : c ≠ ']') :
    value (fuel + 1) ('[' :: c :: cs) = (items fuel (c :: cs)).map fun r => (.array r.1, r.2) := by
  rw [value, skipBlank_cons (by decide)]
  simp only [skipBlank_cons solid]
  split
  · rename_i same
    cases same
    exact absurd rfl other
  · rfl

theorem value_brace (cs : List Char) :
    value (fuel + 1) ('\x7b' :: '"' :: cs)
      = (fields fuel ('"' :: cs)).map fun r => (.object r.1, r.2) := rfl

theorem itemChars_cons_cons (j k : Json) (others : List Json) :
    itemChars (j :: k :: others) = chars j ++ ',' :: itemChars (k :: others) := by
  rw [itemChars]
  exact List.cons_ne_nil k others

theorem fieldChars_cons_cons (key : String) (j : Json) (f : String × Json)
    (others : List (String × Json)) :
    fieldChars ((key, j) :: f :: others)
      = stringChars key ++ ':' :: chars j ++ ',' :: fieldChars (f :: others) := by
  rw [fieldChars]
  exact List.cons_ne_nil f others

/-- The text of an array begins with that of its first item. -/
theorem exists_itemChars (j : Json) (others : List Json) :
    ∃ more, itemChars (j :: others) = chars j ++ more := by
  cases others with
  | nil => exact ⟨[], (List.append_nil _).symm⟩
  | cons k others => exact ⟨_, itemChars_cons_cons j k others⟩

theorem exists_fieldChars (f : String × Json) (others : List (String × Json)) :
    ∃ more, fieldChars (f :: others) = '"' :: more := by
  obtain ⟨key, j⟩ := f
  cases others with
  | nil => exact ⟨_, rfl⟩
  | cons g others => exact ⟨_, fieldChars_cons_cons key j g others⟩

/-- The items of an array are read back one by one, up to the bracket that ends it. -/
theorem items_append {items : List Json} (filled : items ≠ []) (all : ∀ j ∈ items, IsRead j)
    (enough : (itemChars items).length < fuel) (rest : List Char) :
    Json.items fuel (itemChars items ++ ']' :: rest) = some (saidItems items, rest) := by
  induction items generalizing fuel with
  | nil => exact absurd rfl filled
  | cons j others ih =>
    obtain ⟨fuel, rfl⟩ : ∃ n, fuel = n + 1 := ⟨fuel - 1, by omega⟩
    have here := all j List.mem_cons_self
    cases others with
    | nil =>
      rw [itemChars] at enough ⊢
      rw [Json.items, here.append (by omega) (endsNumber_cons ']' (by decide) rest)]
      rfl
    | cons k others =>
      rw [itemChars_cons_cons, List.length_append, List.length_cons] at enough
      have short : (itemChars (k :: others)).length < fuel := by omega
      have behind := ih (List.cons_ne_nil k others)
        (fun j inside => all j (List.mem_cons_of_mem _ inside)) short
      rw [itemChars_cons_cons, List.append_assoc, List.cons_append, Json.items,
        here.append (by omega) (endsNumber_cons ',' (by decide) _)]
      simp [skipBlank_cons, isBlank, behind, saidItems]

/-- So are the fields of an object, up to the brace that ends it. -/
theorem fields_append {fields : List (String × Json)} (filled : fields ≠ [])
    (all : ∀ f ∈ fields, IsRead f.2) (enough : (fieldChars fields).length < fuel)
    (rest : List Char) :
    Json.fields fuel (fieldChars fields ++ '\x7d' :: rest) = some (saidFields fields, rest) := by
  induction fields generalizing fuel with
  | nil => exact absurd rfl filled
  | cons f others ih =>
    obtain ⟨key, j⟩ := f
    obtain ⟨fuel, rfl⟩ : ∃ n, fuel = n + 1 := ⟨fuel - 1, by omega⟩
    have here : IsRead j := all (key, j) List.mem_cons_self
    have quote : isBlank '"' = false := by decide
    have colon : isBlank ':' = false := by decide
    cases others with
    | nil =>
      rw [fieldChars, List.length_append, List.length_cons] at enough
      rw [fieldChars, List.append_assoc, stringChars_append, Json.fields, skipBlank_cons quote]
      simp only [stringBody_append, Option.bind_eq_bind, Option.bind_some, List.cons_append,
        skipBlank_cons colon]
      rw [here.append (by omega) (endsNumber_cons '\x7d' (by decide) rest)]
      rfl
    | cons g others =>
      rw [fieldChars_cons_cons] at enough
      simp only [List.length_append, List.length_cons] at enough
      have short : (fieldChars (g :: others)).length < fuel := by omega
      have behind := ih (List.cons_ne_nil g others)
        (fun f inside => all f (List.mem_cons_of_mem _ inside)) short
      rw [fieldChars_cons_cons]
      simp only [List.append_assoc, List.cons_append]
      rw [stringChars_append, Json.fields, skipBlank_cons quote]
      simp only [stringBody_append, Option.bind_eq_bind, Option.bind_some, skipBlank_cons colon]
      rw [here.append (by omega) (endsNumber_cons ',' (by decide) _)]
      simp [skipBlank_cons, isBlank, behind, saidFields]

theorem isRead_array {items : List Json} (all : ∀ j ∈ items, IsRead j) :
    IsRead (.array items) := by
  intro fuel rest enough _
  cases items with
  | nil => rfl
  | cons j others =>
    simp only [chars, List.cons_append, List.length_cons, List.length_append, List.append_assoc,
      List.nil_append] at enough ⊢
    have short : (itemChars (j :: others)).length < fuel := by omega
    have inside := items_append (List.cons_ne_nil j others) all short rest
    -- The first item keeps the array from being taken for an empty one.
    obtain ⟨c, begin, first, solid, other⟩ : ∃ c cs,
        itemChars (j :: others) ++ ']' :: rest = c :: cs ∧ isBlank c = false ∧ c ≠ ']' := by
      obtain ⟨more, begins⟩ := exists_itemChars j others
      rw [begins, List.append_assoc]
      exact exists_chars j _
    rw [first] at inside ⊢
    rw [value_bracket solid other, inside]
    rfl

theorem isRead_object {fields : List (String × Json)} (all : ∀ f ∈ fields, IsRead f.2) :
    IsRead (.object fields) := by
  intro fuel rest enough _
  cases fields with
  | nil => rfl
  | cons f others =>
    simp only [chars, List.cons_append, List.length_cons, List.length_append, List.append_assoc,
      List.nil_append] at enough ⊢
    have short : (fieldChars (f :: others)).length < fuel := by omega
    have inside := fields_append (List.cons_ne_nil f others) all short rest
    obtain ⟨cs, first⟩ : ∃ cs, fieldChars (f :: others) ++ '\x7d' :: rest = '"' :: cs := by
      obtain ⟨more, begins⟩ := exists_fieldChars f others
      rw [begins]
      exact ⟨_, rfl⟩
    rw [first] at inside ⊢
    rw [value_brace, inside]
    rfl

/-- All data is read back. -/
theorem isRead (j : Json) : IsRead j := by
  induction j using Json.induct with
  | null => exact fun fuel rest _ _ => rfl
  | bool b => cases b <;> exact fun fuel rest _ _ => rfl
  | integer i =>
    intro fuel rest _ ends
    cases i with
    | ofNat n =>
      have begins : BeginsNumber (natChars n ++ rest) := (isWhole_natChars n).beginsNumber rest
      exact (value_of_beginsNumber begins fuel).trans (number_natChars n ends)
    | negSucc n => exact value_number (isNumber_negSucc n) ends
  | float x finite => exact fun fuel rest _ ends => value_number (isNumber_floatChars x) ends
  | string s =>
    intro fuel rest _ _
    rw [chars, stringChars_append, value_quote, stringBody_append]
    rfl
  | array items ih => exact isRead_array ih
  | object fields ih => exact isRead_object ih

/-- A text says what the data say that it was written for. -/
theorem read?_text (j : Json) : read? j.text = some j.said := by
  have whole := isRead j (2 * (chars j).length + 1) [] (by omega) (fun _ first => nomatch first)
  rw [List.append_nil] at whole
  rw [read?, text, String.toList_ofList]
  dsimp only
  rw [whole]
  rfl

end Values

end LayeredConfig.Json

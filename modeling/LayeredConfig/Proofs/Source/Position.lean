import Mathlib.Data.List.Induction
import Mathlib.Data.Prod.Lex
import LayeredConfig.Source.Position

/-!
# Rows and columns of offsets

`Position.ofOffset?` passes over the characters that start before an offset and counts as it
goes. `starts` says where each character of a text starts, and with it rows and columns are said
without a walk: a row is a number of line breaks, and a column is a number of characters between
the end of the last one and the offset (`walk_eq`).

Of two offsets the greater one passes over the same characters and perhaps more
(`startsBefore_prefix`), and each of them moves the place on, to the right or to the next row
(`place_lt_step`). So places do not decrease, and no two boundaries between characters share one
(`Position.ofOffset?_faithful`).
-/

namespace LayeredConfig

/-! ### Where characters start -/

/-- Characters with the offsets at which they start, where the first one starts at `start`. -/
def startsFrom (start : Nat) : List Char → List (Nat × Char)
  | [] => []
  | c :: rest => (start, c) :: startsFrom (start + c.utf8Size) rest

/-- The characters of a text with the offsets at which they start. -/
def starts (text : String) : List (Nat × Char) := startsFrom 0 text.toList

/-- The characters that start before an offset. -/
def startsBefore (text : String) (offset : Nat) : List (Nat × Char) :=
  (starts text).filter (·.1 < offset)

/-- The line breaks among some characters. -/
def breaks (passed : List (Nat × Char)) : List (Nat × Char) := passed.filter (·.2 = '\n')

/-- The end of the last line break among some characters, or else the start of the text. -/
def lineStart (passed : List (Nat × Char)) : Nat :=
  (breaks passed).getLast?.elim 0 fun m => m.1 + m.2.utf8Size

/-- An offset at which a character starts or the text ends. -/
def IsBoundary (text : String) (offset : Nat) : Prop := String.Pos.Raw.IsValid text ⟨offset⟩

section Starts

variable {start offset offset' : Nat} {chars : List Char} {m : Nat × Char}

theorem le_of_mem_startsFrom (inside : m ∈ startsFrom start chars) : start ≤ m.1 := by
  induction chars generalizing start with
  | nil => cases inside
  | cons c rest ih =>
    rcases List.mem_cons.mp inside with rfl | later
    · exact Nat.le_refl start
    · have := ih later
      omega

/-- A character ends before the next one starts. -/
theorem pairwise_startsFrom (start : Nat) (chars : List Char) :
    (startsFrom start chars).Pairwise fun m m' => m.1 + m.2.utf8Size ≤ m'.1 := by
  induction chars generalizing start with
  | nil => exact .nil
  | cons c rest ih => exact .cons (fun _ later => le_of_mem_startsFrom later) (ih _)

theorem filter_startsFrom_eq_nil (past : offset ≤ start) :
    (startsFrom start chars).filter (·.1 < offset) = [] := by
  refine List.filter_eq_nil_iff.mpr fun m inside => ?_
  have := le_of_mem_startsFrom inside
  simp only [decide_eq_true_eq]
  omega

theorem filter_startsFrom_prefix (le : offset ≤ offset') (start : Nat) (chars : List Char) :
    (startsFrom start chars).filter (·.1 < offset)
      <+: (startsFrom start chars).filter (·.1 < offset') := by
  induction chars generalizing start with
  | nil => exact List.prefix_refl _
  | cons c rest ih =>
    by_cases past : offset ≤ start
    · rw [filter_startsFrom_eq_nil past]
      exact List.nil_prefix
    · have before : start < offset := Nat.lt_of_not_le past
      have before' : start < offset' := Nat.lt_of_lt_of_le before le
      simp only [startsFrom, List.filter_cons, before, before', decide_true, if_true]
      exact (List.prefix_cons_inj _).mpr (ih _)

theorem startsFrom_append (start : Nat) (front back : List Char) :
    startsFrom start (front ++ back)
      = startsFrom start front
        ++ startsFrom (start + (String.ofList front).utf8ByteSize) back := by
  induction front generalizing start with
  | nil => rfl
  | cons c front ih =>
    have size : (String.ofList (c :: front)).utf8ByteSize
        = c.utf8Size + (String.ofList front).utf8ByteSize := by
      rw [String.ofList_cons, String.utf8ByteSize_append, String.utf8ByteSize_singleton]
    rw [List.cons_append, startsFrom, startsFrom, ih, size, Nat.add_assoc, List.cons_append]

end Starts

section Boundaries

variable {text : String} {offset offset' : Nat}

/-- What is passed on the way to an offset is passed on the way to a greater one. -/
theorem startsBefore_prefix (text : String) (le : offset ≤ offset') :
    startsBefore text offset <+: startsBefore text offset' :=
  filter_startsFrom_prefix le 0 text.toList

/-- At a boundary before the end a character starts. -/
theorem IsBoundary.exists_start (boundary : IsBoundary text offset)
    (inside : offset < text.utf8ByteSize) : ∃ c, (offset, c) ∈ starts text := by
  obtain ⟨front, back, rfl, at_front⟩ := String.Pos.Raw.isValid_iff_exists_append.mp boundary
  have here : offset = front.utf8ByteSize := congrArg String.Pos.Raw.byteIdx at_front
  rw [String.utf8ByteSize_append] at inside
  have filled : back.toList ≠ [] := by
    intro empty
    rw [String.toList_eq_nil_iff.mp empty, String.utf8ByteSize_empty] at inside
    omega
  obtain ⟨c, rest, next⟩ := List.exists_cons_of_ne_nil filled
  refine ⟨c, ?_⟩
  rw [starts, String.toList_append, startsFrom_append, next, String.ofList_toList, here]
  simp [startsFrom]

/-- The character at a boundary is passed on the way to a greater offset only. -/
theorem IsBoundary.startsBefore_ne (boundary : IsBoundary text offset) (lt : offset < offset')
    (inside : offset' ≤ text.utf8ByteSize) :
    startsBefore text offset ≠ startsBefore text offset' := by
  intro same
  obtain ⟨c, there⟩ := boundary.exists_start (Nat.lt_of_lt_of_le lt inside)
  have passed : (offset, c) ∈ startsBefore text offset' :=
    List.mem_filter.mpr ⟨there, decide_eq_true lt⟩
  rw [← same] at passed
  exact Nat.lt_irrefl offset (of_decide_eq_true (List.mem_filter.mp passed).2)

end Boundaries

namespace Position

/-! ### Counting -/

/-- The row and column of a position, rows first. -/
def place (p : Position) : ℕ ×ₗ ℕ := toLex (p.row, p.column)

/-- Row and column after some characters. -/
def pass (passed : List (Nat × Char)) (place : Nat × Nat) : Nat × Nat :=
  passed.foldl (fun place m => step place.1 place.2 m.2) place

theorem pass_append (passed more : List (Nat × Char)) (place : Nat × Nat) :
    pass (passed ++ more) place = pass more (pass passed place) := List.foldl_append

theorem walk_eq_pass (offset : Nat) (chars : List Char) (start row column : Nat) :
    walk offset chars start row column
      = pass ((startsFrom start chars).filter (·.1 < offset)) (row, column) := by
  induction chars generalizing start row column with
  | nil => rfl
  | cons c rest ih =>
    rw [walk]
    split
    · rename_i past
      rw [filter_startsFrom_eq_nil past]
      rfl
    · rename_i before
      rw [startsFrom, List.filter_cons_of_pos (by simpa using before)]
      exact ih _ _ _

/-- Of characters in their order, rows are counted by line breaks, and columns by what stands
behind the last one. -/
theorem pass_eq {passed : List (Nat × Char)}
    (inOrder : passed.Pairwise fun m m' => m.1 + m.2.utf8Size ≤ m'.1) :
    pass passed (0, 0) = ((breaks passed).length, passed.countP (lineStart passed ≤ ·.1)) := by
  induction passed using List.reverseRecOn with
  | nil => rfl
  | append_singleton passed m ih =>
    obtain ⟨before, -, last⟩ := List.pairwise_append.mp inOrder
    have ends : ∀ m' ∈ passed, m'.1 + m'.2.utf8Size ≤ m.1 :=
      fun m' inside => last m' inside m List.mem_cons_self
    have passes : pass (passed ++ [m]) (0, 0)
        = step (breaks passed).length (passed.countP (lineStart passed ≤ ·.1)) m.2 := by
      rw [pass_append, ih before]
      rfl
    by_cases newline : m.2 = '\n'
    · -- Nothing that was passed stands behind the new line break.
      have broken : breaks (passed ++ [m]) = breaks passed ++ [m] := by
        simp [breaks, newline]
      have here : lineStart (passed ++ [m]) = m.1 + m.2.utf8Size := by
        simp [lineStart, broken]
      have behind : (passed ++ [m]).countP (lineStart (passed ++ [m]) ≤ ·.1) = 0 := by
        rw [here, List.countP_eq_zero]
        intro m' inside
        have filled := m.2.utf8Size_pos
        simp only [decide_eq_true_eq]
        rcases List.mem_append.mp inside with earlier | same
        · have := ends m' earlier
          omega
        · rw [List.mem_singleton.mp same]
          omega
      rw [passes, behind, broken, step, if_pos newline, List.length_append, List.length_singleton]
    · have kept : breaks (passed ++ [m]) = breaks passed := by
        simp [breaks, newline]
      have same : lineStart (passed ++ [m]) = lineStart passed := by
        rw [lineStart, kept, lineStart]
      have behind : lineStart passed ≤ m.1 := by
        rw [lineStart]
        cases found : (breaks passed).getLast? with
        | none => exact Nat.zero_le m.1
        | some m' =>
          exact ends m' (List.mem_filter.mp (List.mem_of_getLast? found)).1
      rw [passes, kept, same, step, if_neg newline, List.countP_append, List.countP_singleton,
        if_pos (decide_eq_true behind)]

/-- Row and column of an offset, counted without a walk. -/
theorem walk_eq (text : String) (offset : Nat) :
    walk offset text.toList 0 0 0
      = ((breaks (startsBefore text offset)).length,
        (startsBefore text offset).countP (lineStart (startsBefore text offset) ≤ ·.1)) := by
  have inOrder := (pairwise_startsFrom 0 text.toList).filter (·.1 < offset)
  rw [walk_eq_pass]
  exact pass_eq inOrder

theorem ofOffset?_eq (text : String) (offset : Nat) :
    ofOffset? text offset =
      if text.utf8ByteSize < offset then none
      else some
        { offset
          row := (breaks (startsBefore text offset)).length
          column :=
            (startsBefore text offset).countP (lineStart (startsBefore text offset) ≤ ·.1) } := by
  rw [ofOffset?]
  split
  · rfl
  · rw [walk_eq]

/-! ### Places of two offsets -/

section Places

variable {text : String} {offset offset' : Nat} {p q : Position}

/-- One more character moves the place to the right or to the next row. -/
theorem place_lt_step (place : Nat × Nat) (c : Char) :
    toLex place < toLex (step place.1 place.2 c) := by
  rw [step, Prod.Lex.toLex_lt_toLex]
  split
  · exact .inl (Nat.lt_succ_self place.1)
  · exact .inr ⟨rfl, Nat.lt_succ_self place.2⟩

theorem place_le_pass (passed : List (Nat × Char)) (place : Nat × Nat) :
    toLex place ≤ toLex (pass passed place) := by
  induction passed generalizing place with
  | nil => exact le_refl _
  | cons m passed ih => exact (place_lt_step place m.2).le.trans (ih _)

theorem place_lt_pass {passed : List (Nat × Char)} (some : passed ≠ []) (place : Nat × Nat) :
    toLex place < toLex (pass passed place) := by
  cases passed with
  | nil => exact absurd rfl some
  | cons m passed => exact (place_lt_step place m.2).trans_le (place_le_pass passed _)

/-- A position that was found is inside the text, and its place is what was passed. -/
theorem of_ofOffset? (found : ofOffset? text offset = some p) :
    offset ≤ text.utf8ByteSize ∧ p.offset = offset ∧
      p.place = toLex (pass (startsBefore text offset) (0, 0)) := by
  rw [ofOffset?] at found
  split at found
  · cases found
  · rename_i inside
    cases found
    refine ⟨Nat.le_of_not_lt inside, rfl, ?_⟩
    rw [place, walk_eq_pass]
    rfl

theorem place_le_place (found : ofOffset? text offset = some p)
    (found' : ofOffset? text offset' = some q) (le : offset ≤ offset') : p.place ≤ q.place := by
  obtain ⟨more, grown⟩ := startsBefore_prefix text le
  rw [(of_ofOffset? found).2.2, (of_ofOffset? found').2.2, ← grown, pass_append]
  exact place_le_pass more _

theorem place_lt_place (found : ofOffset? text offset = some p)
    (found' : ofOffset? text offset' = some q) (boundary : IsBoundary text offset)
    (lt : offset < offset') : p.place < q.place := by
  obtain ⟨more, grown⟩ := startsBefore_prefix text (Nat.le_of_lt lt)
  have new : more ≠ [] := by
    rintro rfl
    rw [List.append_nil] at grown
    exact boundary.startsBefore_ne lt (of_ofOffset? found').1 grown
  rw [(of_ofOffset? found).2.2, (of_ofOffset? found').2.2, ← grown, pass_append]
  exact place_lt_pass new _

end Places

/-- An offset has a position exactly if it is not past the end of the text. Its row is the
number of line breaks that start before it, and its column the number of characters that start
before it and not before the end of the last of these. So a greater offset has no lesser place,
a greater one than a boundary has a greater place, and no two boundaries share a place. -/
theorem ofOffset?_faithful (text : String) :
    (∀ offset, ofOffset? text offset =
      if text.utf8ByteSize < offset then none
      else some
        { offset
          row := (breaks (startsBefore text offset)).length
          column :=
            (startsBefore text offset).countP
              (lineStart (startsBefore text offset) ≤ ·.1) }) ∧
      ∀ offset offset' p q, ofOffset? text offset = some p → ofOffset? text offset' = some q →
        (offset ≤ offset' → p.place ≤ q.place) ∧
          (IsBoundary text offset → offset < offset' → p.place < q.place) ∧
          (IsBoundary text offset → IsBoundary text offset' → offset ≠ offset' →
            p.place ≠ q.place) := by
  refine ⟨ofOffset?_eq text, fun offset offset' p q found found' => ?_⟩
  refine ⟨place_le_place found found', place_lt_place found found', ?_⟩
  intro boundary boundary' other
  rcases Nat.lt_or_gt_of_ne other with lt | gt
  · exact (place_lt_place found found' boundary lt).ne
  · exact (place_lt_place found' found boundary' gt).ne'

theorem ofOffset?_faithful_accented :
    (ofOffset? "é\nab" 2 = some { offset := 2, row := 0, column := 1 } ∧
        ofOffset? "é\nab" 4 = some { offset := 4, row := 1, column := 1 } ∧
        IsBoundary "é\nab" 2 ∧ IsBoundary "é\nab" 4) ∧
      place { offset := 2, row := 0, column := 1 } ≤ place { offset := 4, row := 1, column := 1 } ∧
      place { offset := 2, row := 0, column := 1 } < place { offset := 4, row := 1, column := 1 } ∧
      place { offset := 2, row := 0, column := 1 } ≠
        place { offset := 4, row := 1, column := 1 } := by
  have found : ofOffset? "é\nab" 2 = some { offset := 2, row := 0, column := 1 } := by decide
  have found' : ofOffset? "é\nab" 4 = some { offset := 4, row := 1, column := 1 } := by decide
  have boundary : IsBoundary "é\nab" 2 :=
    String.Pos.Raw.isValid_iff_exists_append.mpr ⟨"é", "\nab", by decide, by decide⟩
  have boundary' : IsBoundary "é\nab" 4 :=
    String.Pos.Raw.isValid_iff_exists_append.mpr ⟨"é\na", "b", by decide, by decide⟩
  obtain ⟨le, lt, ne⟩ := (ofOffset?_faithful "é\nab").2 2 4 _ _ found found'
  exact ⟨⟨found, found', boundary, boundary'⟩, le (by decide), lt boundary (by decide),
    ne boundary boundary' (by decide)⟩

/-- Inside a character an offset has the place of its end. -/
example : (ofOffset? "é\nab" 1).map place = (ofOffset? "é\nab" 2).map place := by decide

end Position

end LayeredConfig

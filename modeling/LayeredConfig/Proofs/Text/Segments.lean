import LayeredConfig.Text.Segments

/-!
# Cutting and joining dotted text

A text is the joining of its segments (`dotted_segments`), and these hold no point
(`isDotFree_of_mem_segments`). Segments without points are what their joining is cut into
(`segments_dotted`), unless there is none: the empty text has one empty segment.
-/

namespace LayeredConfig.Text

/-- A segment that has no point in it. -/
def IsDotFree (segment : String) : Prop := '.' ∉ segment.toList

instance (segment : String) : Decidable (IsDotFree segment) := by
  unfold IsDotFree; infer_instance

theorem splitChars_eq_splitOn (sep : Char) (chars : List Char) :
    splitChars sep chars = chars.splitOn sep := by
  induction chars with
  | nil => rfl
  | cons c rest ih =>
    rw [splitChars, List.splitOn_cons_eq_if_modifyHead, ih]
    by_cases cut : c = sep
    · simp [cut]
    · obtain ⟨segment, others, pieces⟩ :=
        List.exists_cons_of_ne_nil (List.splitOn_ne_nil sep rest)
      simp [cut, pieces]

theorem not_mem_of_mem_splitChars {sep : Char} {chars segment : List Char}
    (piece : segment ∈ splitChars sep chars) : sep ∉ segment := by
  induction chars generalizing segment with
  | nil =>
    rw [splitChars, List.mem_singleton] at piece
    rw [piece]
    exact List.not_mem_nil
  | cons c rest ih =>
    rw [splitChars] at piece
    split at piece
    · rcases List.mem_cons.mp piece with rfl | later
      · exact List.not_mem_nil
      · exact ih later
    · rename_i other
      split at piece
      · rw [List.mem_singleton.mp piece, List.mem_singleton]
        exact Ne.symm other
      · rename_i first others cut
        rw [cut] at ih
        rcases List.mem_cons.mp piece with rfl | later
        · rw [List.mem_cons, not_or]
          exact ⟨Ne.symm other, ih List.mem_cons_self⟩
        · exact ih (List.mem_cons_of_mem _ later)

theorem isDotFree_of_mem_segments {s segment : String} (piece : segment ∈ segments s) :
    IsDotFree segment := by
  obtain ⟨chars, inside, rfl⟩ := List.mem_map.mp piece
  rw [IsDotFree, String.toList_ofList]
  exact not_mem_of_mem_splitChars inside

theorem toList_dotted (path : List String) :
    (dotted path).toList = ['.'].intercalate (path.map String.toList) := by
  rw [dotted, String.toList_intercalate]
  rfl

/-- A text is its segments with points between them. -/
theorem dotted_segments (s : String) : dotted (segments s) = s := by
  have back : String.toList ∘ String.ofList = id := funext fun _ => String.toList_ofList
  rw [← String.toList_inj, toList_dotted, segments, List.map_map, back, List.map_id,
    splitChars_eq_splitOn, List.intercalate_splitOn]

/-- Segments without points are found again. -/
theorem segments_dotted {path : List String} (some : path ≠ [])
    (free : ∀ s ∈ path, IsDotFree s) : segments (dotted path) = path := by
  have back : String.ofList ∘ String.toList = id := funext fun _ => String.ofList_toList
  have apart : ∀ l ∈ path.map String.toList, '.' ∉ l := by
    intro l piece
    obtain ⟨s, inside, rfl⟩ := List.mem_map.mp piece
    exact free s inside
  rw [segments, toList_dotted, splitChars_eq_splitOn,
    List.splitOn_intercalate _ apart (by simpa using some), List.map_map, back, List.map_id]

end LayeredConfig.Text

import LayeredConfig.Proofs.Source.Position
import LayeredConfig.Source.Origin

/-!
# Ranges between offsets

Whatever two offsets are asked for, the range between them is one of the text. An offset that is
clamped to the length of the text has a position (`Position.ofOffset?_clamped`), and clamping keeps
the order of offsets. Positions of ordered offsets are ordered in both ways, by offset and by place
(`Position.isLE_order`). So both ends are found, the range does not end before it starts, and
nothing is cut off when its length is told (`Origin.ofOffsets_wellFormed`).
-/

namespace LayeredConfig

namespace Position

variable {text : String} {offset offset' : Nat} {p q : Position}

theorem exists_ofOffset? (inside : offset ≤ text.utf8ByteSize) :
    ∃ p, ofOffset? text offset = some p := by
  rw [ofOffset?_eq, if_neg (Nat.not_lt.mpr inside)]
  exact ⟨_, rfl⟩

/-- A clamped offset has a position of its own, so the default never stands in for it. -/
theorem ofOffset?_clamped (text : String) (offset : Nat) :
    ofOffset? text (min offset text.utf8ByteSize)
      = some ((ofOffset? text (min offset text.utf8ByteSize)).getD {}) := by
  obtain ⟨p, found⟩ := exists_ofOffset? (Nat.min_le_right offset text.utf8ByteSize)
  rw [found, Option.getD_some]

/-- The order of positions looks at the offsets first and then at the places. -/
theorem isLE_order_iff :
    (order p q).isLE ↔ p.offset < q.offset ∨ p.offset = q.offset ∧ p.place ≤ q.place := by
  rw [order, Ordering.isLE_then_iff_or, Ordering.isLE_then_iff_or, place, place,
    Prod.Lex.toLex_le_toLex]
  simp only [Nat.compare_eq_lt, Nat.compare_eq_eq, Nat.isLE_compare]

/-- The positions of ordered offsets are ordered. -/
theorem isLE_order (found : ofOffset? text offset = some p)
    (found' : ofOffset? text offset' = some q) (le : offset ≤ offset') : (order p q).isLE := by
  obtain ⟨-, at_offset, -⟩ := of_ofOffset? found
  obtain ⟨-, at_offset', -⟩ := of_ofOffset? found'
  rw [isLE_order_iff, at_offset, at_offset']
  rcases Nat.lt_or_eq_of_le le with lt | same
  · exact .inl lt
  · exact .inr ⟨same, place_le_place found found' le⟩

end Position

namespace Range

/-- The ends of a range are positions of offsets that are clamped to the text. -/
theorem ofOffsets_ends (text : String) (start stop : Nat) :
    Position.ofOffset? text (min start text.utf8ByteSize)
        = some (ofOffsets text start stop).start ∧
      Position.ofOffset? text (min (max start stop) text.utf8ByteSize)
        = some (ofOffsets text start stop).stop := by
  rw [ofOffsets, Nat.max_comm stop start]
  exact ⟨Position.ofOffset?_clamped text start, Position.ofOffset?_clamped text (max start stop)⟩

theorem isEmpty_iff {r : Range} : r.isEmpty = true ↔ r.stop.offset ≤ r.start.offset := by
  rw [isEmpty, length, beq_iff_eq, Nat.sub_eq_zero_iff_le]

end Range

/-- The range between two offsets starts at the position of the first one, clamped to the length
of the text, and ends at the position of the greater one, clamped likewise. Its start does not
come after its end, neither in the order of positions nor by row and column; its length is the
difference of the offsets, which is not negative; and it is empty exactly if the second offset is
not behind the first one or the first one is at the end of the text or past it. -/
theorem Origin.ofOffsets_wellFormed (file text : String) (start stop : Nat) :
    let range := (ofOffsets file text start stop).range
    Position.ofOffset? text (min start text.utf8ByteSize) = some range.start ∧
      Position.ofOffset? text (min (max start stop) text.utf8ByteSize) = some range.stop ∧
      (Position.order range.start range.stop).isLE ∧
      range.start.place ≤ range.stop.place ∧
      (range.length : ℤ) = range.stop.offset - range.start.offset ∧
      (range.isEmpty = true ↔ stop ≤ start ∨ text.utf8ByteSize ≤ start) := by
  intro range
  obtain ⟨found, found'⟩ : _ ∧ _ := Range.ofOffsets_ends text start stop
  have le : min start text.utf8ByteSize ≤ min (max start stop) text.utf8ByteSize := by
    omega
  have at_start : range.start.offset = min start text.utf8ByteSize :=
    (Position.of_ofOffset? found).2.1
  have at_stop : range.stop.offset = min (max start stop) text.utf8ByteSize :=
    (Position.of_ofOffset? found').2.1
  refine ⟨found, found', Position.isLE_order found found' le,
    Position.place_le_place found found' le, ?_, ?_⟩
  · rw [← at_start, ← at_stop] at le
    exact Int.ofNat_sub le
  · rw [Range.isEmpty_iff, at_start, at_stop]
    omega

/-- Backwards and past the end at once: the range is empty and stands at the end of the text. -/
example : (Range.ofOffsets "é\nab" 9 3).isEmpty = true ∧
    (Range.ofOffsets "é\nab" 9 3).start = { offset := 5, row := 1, column := 2 } := by decide

end LayeredConfig

import Mathlib.Data.Multiset.Filter
import LayeredConfig.Resolution.Lines

/-!
Lines serve those who stand in them.

`Lines.Serves` says that lines and those who take part in them agree: exactly the
participants stand in line, each once, and whoever works on the thing that a line is
for is in front. A line is open while its thing is not there yet; once it is, nobody
stands in line for it any more. Each way of changing a line keeps this up:
`Lines.Serves.join` for whoever gets in line, `Lines.Serves.toWork` for the one in front who goes to
work, `Lines.Serves.leave` and `Lines.Serves.forget` for those who go, and `Lines.Serves.dissolve`
for the end of the line. In every open line somebody is in front (`Lines.Serves.exists_first`).
-/

namespace LayeredConfig

/-- Who takes part in a line, and whether the participant is at work. -/
structure Seat where
  name : String
  address : Address
  atWork : Bool
  deriving DecidableEq

namespace Lines

variable {l : Lines} {name other : String} {a b : Address}

theorem isFirst_iff : l.isFirst name a = true ↔ l.lookup name = some a := by
  simp [isFirst, first?]

/-- Only one can be in front. -/
theorem isFirst_unique (h : l.isFirst name a) (h' : l.isFirst name b) : a = b :=
  Option.some.inj ((isFirst_iff.mp h).symm.trans (isFirst_iff.mp h'))

/-- Whoever is in front of a line stands in it. -/
theorem mem_of_isFirst (first : l.isFirst name a) : (name, a) ∈ l := by
  obtain ⟨front, back, rfl, -⟩ := List.lookup_eq_some_iff.mp (isFirst_iff.mp first)
  exact List.mem_append_right _ List.mem_cons_self

/-- A line in which somebody stands has a front. -/
theorem exists_isFirst (h : (name, a) ∈ l) : ∃ b, l.isFirst name b := by
  have some : (l.lookup name).isSome := List.lookup_isSome_iff.mpr ⟨(name, a), h, by simp⟩
  obtain ⟨b, hb⟩ := Option.isSome_iff_exists.mp some
  exact ⟨b, isFirst_iff.mpr hb⟩

theorem mem_join {x : String × Address} : x ∈ l.join name a ↔ x ∈ l ∨ x = (name, a) := by
  unfold join
  split
  · rename_i inside
    exact ⟨.inl, fun h => h.elim id fun e => e ▸ inside⟩
  · simp

/-- Joining changes nothing for whoever is in front. -/
theorem isFirst_join (first : l.isFirst other b) : (l.join name a).isFirst other b := by
  unfold join
  split
  · exact first
  · rw [isFirst_iff, List.lookup_append, isFirst_iff.mp first]
    rfl

theorem nodup_join (nodup : l.Nodup) : (l.join name a).Nodup := by
  unfold join
  split
  · exact nodup
  · rename_i outside
    exact List.nodup_append.mpr ⟨nodup, List.nodup_singleton _, by
      intro x hx y hy e
      rw [List.mem_singleton] at hy
      exact outside (hy ▸ e ▸ hx)⟩

/-- Who leaves does not bring down another one who is in front. -/
theorem isFirst_leave (first : l.isFirst other b) (apart : (other, b) ≠ (name, a)) :
    (l.leave name a).isFirst other b := by
  obtain ⟨front, back, rfl, before⟩ := List.lookup_eq_some_iff.mp (isFirst_iff.mp first)
  refine isFirst_iff.mpr (List.lookup_eq_some_iff.mpr ?_)
  unfold leave
  by_cases inFront : (name, a) ∈ front
  · exact ⟨front.erase (name, a), back, List.erase_append_left _ inFront,
      fun p hp => before p (List.mem_of_mem_erase hp)⟩
  · refine ⟨front, back.erase (name, a), ?_, before⟩
    rw [List.erase_append_right _ inFront, List.erase_cons_tail (by simpa using apart)]

theorem mem_dissolve {x : String × Address} : x ∈ l.dissolve name ↔ x ∈ l ∧ x.1 ≠ name := by
  simp [dissolve]

/-- A line that is sent away leaves the others as they are. -/
theorem isFirst_dissolve (first : l.isFirst other b) (apart : other ≠ name) :
    (l.dissolve name).isFirst other b := by
  obtain ⟨front, back, rfl, before⟩ := List.lookup_eq_some_iff.mp (isFirst_iff.mp first)
  refine isFirst_iff.mpr (List.lookup_eq_some_iff.mpr
    ⟨front.filter (·.1 ≠ name), back.filter (·.1 ≠ name), ?_, ?_⟩)
  · simp [dissolve, List.filter_append, apart]
  · intro p hp
    exact before p (List.mem_of_mem_filter hp)

/-! ### Serving -/

/-- Lines and their participants agree. -/
structure Serves (l : Lines) (isOpen : String → Bool) (seats : Multiset Seat) : Prop where
  mem_iff : ∀ name a, (name, a) ∈ l ↔
    isOpen name = true ∧ ∃ s ∈ seats, s.name = name ∧ s.address = a
  nodup : l.Nodup
  /-- Whoever is at work is in front of a line that is open. -/
  atWork : ∀ s ∈ seats, s.atWork = true → isOpen s.name = true ∧ l.isFirst s.name s.address

namespace Serves

variable {isOpen : String → Bool} {seats : Multiset Seat} {work : Bool}

/-- Nobody stands in the lines of no participants. -/
theorem eq_nil (serves : l.Serves isOpen 0) : l = [] := by
  apply List.eq_nil_iff_forall_not_mem.mpr
  intro x hx
  obtain ⟨-, s, hs, -⟩ := (serves.mem_iff x.1 x.2).mp hx
  exact Multiset.notMem_zero s hs

theorem nil (isOpen : String → Bool) : Serves [] isOpen 0 :=
  ⟨by simp, List.nodup_nil, by simp⟩

/-- Somebody new gets in line. -/
theorem join (serves : l.Serves isOpen seats) (isUp : isOpen name = true) :
    (l.join name a).Serves isOpen (⟨name, a, false⟩ ::ₘ seats) where
  mem_iff n b := by
    rw [mem_join, serves.mem_iff]
    simp only [Multiset.mem_cons, exists_eq_or_imp, Prod.mk.injEq]
    constructor
    · rintro (⟨up, there⟩ | ⟨rfl, rfl⟩)
      · exact ⟨up, .inr there⟩
      · exact ⟨isUp, .inl ⟨rfl, rfl⟩⟩
    · rintro ⟨up, ⟨rfl, rfl⟩ | there⟩
      · exact .inr ⟨rfl, rfl⟩
      · exact .inl ⟨up, there⟩
  nodup := nodup_join serves.nodup
  atWork s hs busy := by
    rcases Multiset.mem_cons.mp hs with rfl | hs
    · cases busy
    · exact ⟨(serves.atWork s hs busy).1, isFirst_join (serves.atWork s hs busy).2⟩

/-- Whoever is in front goes to work, or goes on working. -/
theorem toWork (serves : l.Serves isOpen (⟨name, a, work⟩ ::ₘ seats))
    (isUp : isOpen name = true) (first : l.isFirst name a) :
    l.Serves isOpen (⟨name, a, true⟩ ::ₘ seats) where
  mem_iff n b := by
    rw [serves.mem_iff]
    simp only [Multiset.mem_cons, exists_eq_or_imp]
  nodup := serves.nodup
  atWork s hs busy := by
    rcases Multiset.mem_cons.mp hs with rfl | hs
    · exact ⟨isUp, first⟩
    · exact serves.atWork s (Multiset.mem_cons_of_mem hs) busy

/-- Somebody leaves the line. -/
theorem leave (serves : l.Serves isOpen (⟨name, a, work⟩ ::ₘ seats))
    (alone : ∀ s ∈ seats, s.address ≠ a) : (l.leave name a).Serves isOpen seats where
  mem_iff n b := by
    unfold Lines.leave
    rw [serves.nodup.mem_erase_iff, serves.mem_iff]
    simp only [Multiset.mem_cons, exists_eq_or_imp, ne_eq, Prod.mk.injEq]
    constructor
    · rintro ⟨apart, up, ⟨rfl, rfl⟩ | there⟩
      · exact absurd ⟨rfl, rfl⟩ apart
      · exact ⟨up, there⟩
    · rintro ⟨up, s, hs, rfl, rfl⟩
      exact ⟨fun e => alone s hs e.2, up, .inr ⟨s, hs, rfl, rfl⟩⟩
  nodup := serves.nodup.erase _
  atWork s hs busy := by
    obtain ⟨up, first⟩ := serves.atWork s (Multiset.mem_cons_of_mem hs) busy
    exact ⟨up, isFirst_leave first fun e => alone s hs (Prod.mk.inj e).2⟩

/-- Whoever waits in a line that is not open any more does not stand in it. -/
theorem forget (serves : l.Serves isOpen (⟨name, a, work⟩ ::ₘ seats))
    (isDown : isOpen name = false) : l.Serves isOpen seats where
  mem_iff n b := by
    rw [serves.mem_iff]
    simp only [Multiset.mem_cons, exists_eq_or_imp]
    constructor
    · rintro ⟨up, ⟨rfl, rfl⟩ | there⟩
      · exact absurd up (by simp [isDown])
      · exact ⟨up, there⟩
    · rintro ⟨up, there⟩
      exact ⟨up, .inr there⟩
  nodup := serves.nodup
  atWork s hs busy := serves.atWork s (Multiset.mem_cons_of_mem hs) busy

/-- The work is done: the line is sent away. -/
theorem dissolve {isOpen' : String → Bool}
    (serves : l.Serves isOpen (⟨name, a, work⟩ ::ₘ seats)) (first : l.isFirst name a)
    (alone : ∀ s ∈ seats, s.address ≠ a)
    (closes : ∀ n, isOpen' n = (isOpen n && decide (n ≠ name))) :
    (l.dissolve name).Serves isOpen' seats where
  mem_iff n b := by
    rw [mem_dissolve, serves.mem_iff, closes]
    simp only [Multiset.mem_cons, exists_eq_or_imp, Bool.and_eq_true, decide_eq_true_eq, ne_eq]
    constructor
    · rintro ⟨⟨up, ⟨rfl, -⟩ | there⟩, apart⟩
      · exact absurd rfl apart
      · exact ⟨⟨up, apart⟩, there⟩
    · rintro ⟨⟨up, apart⟩, there⟩
      exact ⟨⟨up, .inr there⟩, apart⟩
  nodup := serves.nodup.filter _
  atWork s hs busy := by
    obtain ⟨up, front⟩ := serves.atWork s (Multiset.mem_cons_of_mem hs) busy
    have apart : s.name ≠ name := by
      rintro rfl
      exact alone s hs (isFirst_unique front first)
    exact ⟨by simp [closes, up, apart], isFirst_dissolve front apart⟩

/-- Whoever waits in an open line has somebody in front, perhaps itself. -/
theorem exists_first (serves : l.Serves isOpen seats) {s : Seat} (hs : s ∈ seats)
    (isUp : isOpen s.name = true) :
    ∃ s' ∈ seats, s'.name = s.name ∧ l.isFirst s'.name s'.address := by
  obtain ⟨b, first⟩ :=
    exists_isFirst ((serves.mem_iff s.name s.address).mpr ⟨isUp, s, hs, rfl, rfl⟩)
  obtain ⟨-, s', hs', same, rfl⟩ := (serves.mem_iff s.name b).mp (mem_of_isFirst first)
  exact ⟨s', hs', same, same ▸ first⟩

end Serves

end Lines

end LayeredConfig

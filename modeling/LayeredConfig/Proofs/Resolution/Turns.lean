import Mathlib.Data.List.Basic
import LayeredConfig.Proofs.Resolution.Headway
import LayeredConfig.Proofs.Resolution.Motion

/-!
Whoever can move gets to move.

Where parts take turns, a part is looked at only once it has been woken. `Task.IsAwake`
says that everything that can move within a task has been woken, together with all that
is around it; `Agenda.rouse` sees to that (`Task.isAwake_rouse`). A look at a task that is awake and
can move leads on (`Task.pollWithin_agile`), and a look at one that cannot move does nothing but
put off turns (`Task.pollWithin_idle`).
-/

namespace LayeredConfig

namespace Agenda

variable {g : Agenda} {a b outer : Address} {s : Step}

/-! ### Who is woken -/

theorem mem_woken_enlist : b ∈ (g.enlist s outer).woken ↔ b ∈ g.woken ∨ b = s :: outer := by
  simp [enlist]

theorem woken_subset_wake (h : b ∈ g.woken) : b ∈ (g.wake a).woken := by
  induction a generalizing g with
  | nil => exact h
  | cons s outer ih =>
    rw [wake]
    split
    · exact ih h
    · split
      · exact h
      · split
        · exact mem_woken_enlist.mpr (.inl h)
        · exact ih (mem_woken_enlist.mpr (.inl h))

theorem woken_subset_summon (h : b ∈ g.woken) : b ∈ (g.summon a).woken := by
  induction a generalizing g with
  | nil => exact h
  | cons s outer ih =>
    rw [summon]
    apply ih
    split
    · exact mem_woken_enlist.mpr (.inl h)
    · exact h

/-- Summoning wakes what stands at an address and all that is around it. -/
theorem mem_woken_summon (inTurns : s.inTurns = true) (around : s :: outer <:+ a) :
    s :: outer ∈ (g.summon a).woken := by
  induction a generalizing g with
  | nil => simp at around
  | cons t rest ih =>
    rw [summon]
    rcases List.suffix_cons_iff.mp around with same | around
    · apply woken_subset_summon
      cases same
      split
      · exact mem_woken_enlist.mpr (.inr rfl)
      · rename_i h
        simpa [inTurns] using h
    · exact ih around

theorem woken_subset_foldl_summon {as : List Address} (h : b ∈ g.woken) :
    b ∈ (as.foldl summon g).woken := by
  induction as generalizing g with
  | nil => exact h
  | cons a as ih => exact ih (woken_subset_summon h)

/-- Everything around those who are roused is awake. -/
theorem mem_woken_rouse {ready : List Address} (ha : a ∈ ready) (inTurns : s.inTurns = true)
    (around : s :: outer <:+ a) : s :: outer ∈ (g.rouse ready).woken := by
  unfold rouse
  rw [List.foldl_append]
  generalize (g.watching.filter (· ∈ ready)).foldl summon g = g'
  induction ready generalizing g' with
  | nil => cases ha
  | cons a' rest ih =>
    rw [List.foldl_cons]
    rcases List.mem_cons.mp ha with rfl | ha
    · exact woken_subset_foldl_summon (mem_woken_summon inTurns around)
    · exact ih ha _

theorem woken_foldl_call (as : List Address) :
    (as.foldl call g).woken = as.foldl List.erase g.woken := by
  induction as generalizing g with
  | nil => rfl
  | cons a as ih => exact ih

theorem count_foldl_erase (as l : List Address) :
    (as.foldl List.erase l).count b = l.count b - as.count b := by
  induction as generalizing l with
  | nil => simp
  | cons a as ih =>
    rw [List.foldl_cons, ih, List.count_erase, List.count_cons]
    by_cases same : a = b
    · simp [same]
      omega
    · simp [same]

/-- What is settled does not wait for a turn any more, and everything else still does. -/
theorem mem_woken_settle : b ∈ (g.settle a).woken ↔ b ∈ g.woken ∧ ¬ a <:+ b := by
  have count : ((g.settle a).woken).count b
      = g.woken.count b - (g.woken.filter (a.isSuffixOf ·)).count b := by
    rw [← count_foldl_erase, ← woken_foldl_call]
    rfl
  rw [← List.count_pos_iff, count, ← List.count_pos_iff]
  by_cases within : a <:+ b
  · rw [List.count_filter (by simpa using within)]
    simp [within]
  · have none : (g.woken.filter (a.isSuffixOf ·)).count b = 0 :=
      List.count_eq_zero.mpr (by simp [within])
    simp [none, within]

theorem mem_woken_call (h : b ∈ g.woken) (apart : b ≠ a) : b ∈ (g.call a).woken :=
  (List.mem_erase_of_ne apart).mpr h

/-- If an open part has been woken, somebody has the next turn. -/
theorem exists_next? (isOpen : Nat → Bool) {i : Nat} (woken : ⟨true, i⟩ :: outer ∈ g.woken)
    (up : isOpen i = true) : ∃ k, g.next? outer isOpen = some k := by
  cases found : g.next? outer isOpen with
  | none =>
    rw [next?, List.findSome?_eq_none_iff] at found
    have here := found _ woken
    simp [up] at here
  | some k => exact ⟨k, rfl⟩

/-- The next turn goes to an open part that has been woken. -/
theorem isOpen_of_next? {isOpen : Nat → Bool} {k : Nat} (next : g.next? outer isOpen = some k) :
    isOpen k = true ∧ ⟨true, k⟩ :: outer ∈ g.woken := by
  obtain ⟨a, ha, chosen⟩ := List.exists_of_findSome?_eq_some next
  cases a with
  | nil => cases chosen
  | cons s up =>
    simp only [Option.ite_none_right_eq_some, Bool.and_eq_true, decide_eq_true_eq,
      Option.some.injEq] at chosen
    obtain ⟨⟨⟨inTurns, rfl⟩, isOpen⟩, rfl⟩ := chosen
    refine ⟨isOpen, ?_⟩
    rw [← inTurns]
    exact ha

end Agenda

namespace Task

variable {parallel : Bool}

/-! ### Who can move -/

/-- Where the same references are ready, the same can move. -/
theorem ready_congr {w w' : World}
    (same : ∀ r here stage, Site.isReady r here w' stage = Site.isReady r here w stage) (t : Task) :
    ∀ here, ready parallel w' here t = ready parallel w here t := by
  induction t using induct with
  | leaf v => simp [ready]
  | finished v => simp [ready]
  | failed e => simp [ready]
  | site inSpread r stage => simp [ready, same]
  | secret inner ih => simpa [ready] using ih
  | join shape parts ih =>
    intro here
    rw [ready, ready]
    generalize (⟨takeTurns parallel parts, 0⟩ : Step) = step
    induction parts generalizing step with
    | nil => rfl
    | cons t rest inner =>
      rw [readyParts, readyParts, ih t List.mem_cons_self,
        inner (fun t ht => ih t (List.mem_cons_of_mem _ ht))]

/-- Turns have no part in who can move. -/
theorem ready_plan (w : World) (f : Agenda → Agenda) (t : Task) (here : Address) :
    ready parallel (w.plan f) here t = ready parallel w here t :=
  ready_congr (fun _ _ _ => by rfl) t here

theorem readyParts_plan (w : World) (f : Agenda → Agenda) (outer : Address) (parts : List Task)
    (s : Step) :
    readyParts parallel (w.plan f) outer s parts = readyParts parallel w outer s parts := by
  induction parts generalizing s with
  | nil => rfl
  | cons t rest ih => rw [readyParts, readyParts, ready_plan, ih]

/-- Whoever can move stands at or below the address of the task. -/
theorem suffix_of_mem_ready {w : World} {t : Task} :
    ∀ {here a : Address}, a ∈ ready parallel w here t → here <:+ a := by
  induction t using induct with
  | leaf v => simp [ready]
  | finished v => simp [ready]
  | failed e => simp [ready]
  | site inSpread r stage =>
    intro here a ha
    rw [ready] at ha
    split at ha
    · rw [List.mem_singleton] at ha
      exact ha ▸ List.suffix_rfl
    · cases ha
  | secret inner ih => simpa [ready] using @ih
  | join shape parts ih =>
    intro here a ha
    rw [ready] at ha
    generalize (⟨takeTurns parallel parts, 0⟩ : Step) = step at ha
    induction parts generalizing step with
    | nil => simp [readyParts] at ha
    | cons t rest inner =>
      rw [readyParts, List.mem_append] at ha
      rcases ha with ha | ha
      · exact (List.suffix_cons step here).trans (ih t List.mem_cons_self ha)
      · split at ha
        · exact inner (fun t ht => ih t (List.mem_cons_of_mem _ ht)) step.next ha
        · cases ha

theorem ready_of_isOver {t : Task} (atEnd : t.isOver = true) (w : World) (here : Address) :
    ready parallel w here t = [] := by
  cases t <;> simp_all [isOver, isFinished, error?, ready]

theorem isReady_iff {w : World} {here : Address} {t : Task} :
    t.isReady parallel w here = true ↔ ready parallel w here t ≠ [] := by
  simp [isReady]

/-- Side by side, whoever can move within a part can move within the whole. -/
theorem mem_readyParts {w : World} {parts : List Task} (side : parallel = true) {i : Nat} {t : Task}
    (found : parts[i]? = some t) (outer : Address) (s : Step) {a : Address}
    (ha : a ∈ ready parallel w (⟨s.inTurns, s.index + i⟩ :: outer) t) :
    a ∈ readyParts parallel w outer s parts := by
  induction parts generalizing i s with
  | nil => simp at found
  | cons p rest ih =>
    rw [readyParts, List.mem_append]
    cases i with
    | zero =>
      simp only [List.getElem?_cons_zero, Option.some.injEq] at found
      exact .inl (found ▸ ha)
    | succ i =>
      refine .inr ?_
      rw [if_pos (by simp [side])]
      apply ih (by simpa using found) s.next
      rw [Step.next_index_add]
      exact ha

/-- Whoever can move within the whole can move within one of the parts. -/
theorem part_of_mem_readyParts {w : World} {parts : List Task} {outer : Address} {s : Step}
    {a : Address} (ha : a ∈ readyParts parallel w outer s parts) :
    ∃ i t, parts[i]? = some t ∧ a ∈ ready parallel w (⟨s.inTurns, s.index + i⟩ :: outer) t := by
  induction parts generalizing s with
  | nil => simp [readyParts] at ha
  | cons p rest ih =>
    rw [readyParts, List.mem_append] at ha
    rcases ha with ha | ha
    · exact ⟨0, p, rfl, ha⟩
    · split at ha
      · obtain ⟨i, t, found, within⟩ := ih ha
        rw [Step.next_index_add] at within
        exact ⟨i + 1, t, by simpa using found, within⟩
      · cases ha

/-! ### Who is awake -/

/-- Whoever can move within a task has been woken, with all that is around it there. -/
def IsAwake (parallel : Bool) (here : Address) (t : Task) (w : World) : Prop :=
  ∀ a ∈ ready parallel w here t, ∀ s outer, s.inTurns = true → here <:+ outer →
    s :: outer <:+ a → s :: outer ∈ w.agenda.woken

/-- All are awake once those who can move have been roused. -/
theorem isAwake_rouse (parallel : Bool) (t : Task) (here : Address) (w : World) :
    IsAwake parallel here t (w.plan (·.rouse (t.ready parallel w here))) := by
  intro a ha s outer inTurns _ around
  rw [ready_plan] at ha
  exact Agenda.mem_woken_rouse ha inTurns around

/-- Turns that are put off elsewhere leave a task awake. -/
theorem IsAwake.plan {here : Address} {t : Task} {w : World} (awake : IsAwake parallel here t w)
    {f : Agenda → Agenda}
    (keeps : ∀ b, here <:+ b → b ≠ here → b ∈ w.agenda.woken → b ∈ (f w.agenda).woken) :
    IsAwake parallel here t (w.plan f) := by
  intro a ha s outer inTurns within around
  rw [ready_plan] at ha
  refine keeps _ (within.trans (List.suffix_cons s outer)) ?_
    (awake a ha s outer inTurns within around)
  intro same
  have length := within.length_le
  rw [← same, List.length_cons] at length
  omega

/-! ### Looks in vain -/

/-- A change of turns that puts off nobody but those below an address. -/
def PutsOffBelow (here : Address) (w w' : World) : Prop :=
  ∃ f, w' = w.plan f ∧ ∀ b, ¬ here <:+ b → b ∈ w.agenda.woken → b ∈ w'.agenda.woken

namespace PutsOffBelow

variable {here outer : Address} {w w' w'' : World} {s : Step}

theorem refl (here : Address) (w : World) : PutsOffBelow here w w := ⟨id, rfl, fun _ _ h => h⟩

theorem trans (first : PutsOffBelow here w w') (next : PutsOffBelow here w' w'') :
    PutsOffBelow here w w'' := by
  obtain ⟨f, rfl, keeps⟩ := first
  obtain ⟨g, rfl, keeps'⟩ := next
  exact ⟨g ∘ f, rfl, fun b apart h => keeps' b apart (keeps b apart h)⟩

theorem of_part (h : PutsOffBelow (s :: outer) w w') : PutsOffBelow outer w w' := by
  obtain ⟨f, rfl, keeps⟩ := h
  refine ⟨f, rfl, ?_⟩
  intro b apart
  exact keeps b fun within => apart ((List.suffix_cons s outer).trans within)

theorem interruption?_eq (h : PutsOffBelow here w w') : w'.interruption? = w.interruption? := by
  obtain ⟨f, rfl, -⟩ := h
  rfl

end PutsOffBelow

/-- A way of moving tasks that does nothing to one that cannot move. -/
def IsIdle (parallel : Bool) (move : Mover) : Prop :=
  ∀ here t w, t.Tidy parallel → ready parallel w here t = [] →
    (move here t w).1 = t ∧ PutsOffBelow here w (move here t w).2

section Parts

variable {move : Mover} {here : Address}

theorem pollInOrder_of_not_ready (idle : IsIdle parallel move) (parts : List Task) :
    ∀ i w, (∀ t ∈ parts, t.Tidy parallel) →
      readyParts parallel w here ⟨false, i⟩ parts = [] →
      (pollInOrder parallel move here i parts w).1 = parts ∧
        PutsOffBelow here w (pollInOrder parallel move here i parts w).2 := by
  induction parts with
  | nil =>
    intro i w _ _
    exact ⟨rfl, .refl here w⟩
  | cons t rest ih =>
    intro i w tidy waits
    rw [readyParts, List.append_eq_nil_iff] at waits
    obtain ⟨same, put⟩ := idle (⟨false, i⟩ :: here) t w (tidy t List.mem_cons_self) waits.1
    rw [pollInOrder]
    generalize move (⟨false, i⟩ :: here) t w = moved at same put ⊢
    obtain ⟨t', w'⟩ := moved
    obtain rfl : t' = t := same
    dsimp only
    split
    · rename_i goOn
      have restWaits : readyParts parallel w here ⟨false, i + 1⟩ rest = [] := by
        have behind := waits.2
        rw [if_pos (by cases h : t'.isFinished <;> simp_all)] at behind
        exact behind
      obtain ⟨f, rfl, keeps⟩ := put
      have next := ih (i + 1) (w.plan f) (fun p hp => tidy p (List.mem_cons_of_mem _ hp))
        (by rw [readyParts_plan, restWaits])
      exact ⟨by rw [next.1], (PutsOffBelow.of_part ⟨f, rfl, keeps⟩).trans next.2⟩
    · exact ⟨rfl, put.of_part⟩

/-- A part that cannot move has its turn in vain. -/
theorem giveTurn_of_not_ready {t : Task} {w : World} (waits : ready parallel w here t = []) :
    giveTurn parallel move here t w = (t, (w.plan (·.call here)).plan (·.settle here)) := by
  simp [giveTurn, isReady, ready_plan, waits]

theorem putsOffBelow_inVain (s : Step) (outer : Address) (w : World) :
    PutsOffBelow outer w ((w.plan (·.call (s :: outer))).plan (·.settle (s :: outer))) := by
  refine .of_part (s := s) ⟨fun g => (g.call (s :: outer)).settle (s :: outer), rfl, ?_⟩
  intro b apart woken
  refine Agenda.mem_woken_settle.mpr ⟨Agenda.mem_woken_call woken ?_, apart⟩
  rintro rfl
  exact apart List.suffix_rfl

/-- Where no part can move, a round of turns comes to nothing. -/
theorem pollRound_of_not_ready (turns : Nat) : ∀ again parts w,
    (∀ (i : Nat) t, parts[i]? = some t → ready parallel w (⟨true, i⟩ :: here) t = []) →
    ∃ w', pollRound parallel move here turns again parts w = (false, parts, w') ∧
      PutsOffBelow here w w' := by
  induction turns with
  | zero =>
    intro again parts w _
    exact ⟨w.wake here, rfl, (·.wake here), rfl, fun b _ woken => Agenda.woken_subset_wake woken⟩
  | succ turns ih =>
    intro again parts w waits
    rw [pollRound]
    split
    · exact ⟨w, rfl, .refl here w⟩
    · rename_i i t chosen
      obtain ⟨next, found⟩ := chosen_eq_some chosen
      obtain ⟨bound, there⟩ := List.getElem?_eq_some_iff.mp found
      have same : parts.set i t = parts := by rw [← there, List.set_getElem_self bound]
      have isOpen : t.isOver = false := by
        simpa [found] using (Agenda.isOpen_of_next? next).1
      have put := putsOffBelow_inVain ⟨true, i⟩ here w
      dsimp only
      rw [giveTurn_of_not_ready (waits i t found)]
      generalize (w.plan (·.call (⟨true, i⟩ :: here))).plan (·.settle (⟨true, i⟩ :: here)) = w'
        at put ⊢
      dsimp only
      rw [same, isOpen]
      simp only [Bool.false_eq_true, if_false]
      generalize (if ⟨true, i⟩ :: here ∈ w'.agenda.woken then again + 1 else again) = again'
      split
      · refine ⟨w'.wake here, rfl, put.trans ⟨(·.wake here), rfl, ?_⟩⟩
        intro b _ woken
        exact Agenda.woken_subset_wake woken
      · obtain ⟨f, rfl, -⟩ := id put
        obtain ⟨w'', came, put'⟩ := ih again' parts (w.plan f) fun i t found => by
          rw [ready_plan, waits i t found]
        exact ⟨w'', came, put.trans put'⟩

theorem pollInTurns_of_not_ready (rounds : Nat) (parts : List Task) (w : World)
    (waits : ∀ (i : Nat) t, parts[i]? = some t → ready parallel w (⟨true, i⟩ :: here) t = []) :
    (pollInTurns parallel move here rounds parts w).1 = parts ∧
      PutsOffBelow here w (pollInTurns parallel move here rounds parts w).2 := by
  cases rounds with
  | zero => exact ⟨rfl, .refl here w⟩
  | succ rounds =>
    obtain ⟨w', came, put⟩ := pollRound_of_not_ready (parts.countP (!·.isOver)) 0
      parts (w.plan (·.attend here)) fun i t found => by rw [ready_plan, waits i t found]
    rw [pollInTurns, came]
    exact ⟨rfl, PutsOffBelow.trans ⟨(·.attend here), rfl, fun b _ woken => woken⟩ put⟩

/-- Moving the parts of a task that cannot move does nothing but put off turns below it. -/
theorem pollParts_of_not_ready (idle : IsIdle parallel move) {shape : Shape} {parts : List Task}
    {w : World} (tidy : ∀ t ∈ parts, t.Tidy parallel)
    (waits : ready parallel w here (.join shape parts) = []) :
    (pollParts parallel move here parts w).1 = parts ∧
      PutsOffBelow here w (pollParts parallel move here parts w).2 := by
  unfold pollParts
  rw [ready] at waits
  cases turns : takeTurns parallel parts with
  | true =>
    apply pollInTurns_of_not_ready
    intro i t found
    apply List.eq_nil_iff_forall_not_mem.mpr
    intro a ha
    have side := parallel_of_takeTurns turns
    have within := mem_readyParts (s := ⟨true, 0⟩) side found here (by simpa using ha)
    rw [turns] at waits
    rw [waits] at within
    cases within
  | false =>
    rw [turns] at waits
    exact pollInOrder_of_not_ready idle parts 0 w tidy waits

end Parts

/-- A look at a task that cannot move does nothing but put off turns below it. -/
theorem pollWithin_idle (parallel : Bool) (height : Nat) :
    IsIdle parallel (pollWithin parallel height) := by
  induction height with
  | zero =>
    intro here t w _ _
    exact ⟨rfl, .refl here w⟩
  | succ height ih =>
    intro here t w tidy waits
    cases tidy with
    | leaf v => simp [ready] at waits
    | finished v => exact ⟨rfl, .refl here w⟩
    | failed e => exact ⟨rfl, .refl here w⟩
    | site inSpread r stage =>
      have unready : Site.isReady r here w stage = false := by
        simpa [ready] using waits
      rw [pollWithin, Site.poll_of_not_ready unready]
      exact ⟨rfl, .refl here w⟩
    | @secret inner isOpen tidy =>
      obtain ⟨same, put⟩ := ih here inner w tidy (by simpa [ready] using waits)
      rw [pollWithin]
      dsimp only
      rw [same]
      refine ⟨?_, put⟩
      cases inner with
      | finished v => cases isOpen
      | failed e => cases isOpen
      | _ => rfl
    | @join shape parts unfinished calm tidy =>
      have still := pollParts_of_not_ready ih tidy waits
      rw [pollWithin]
      generalize pollParts parallel (pollWithin parallel height) here parts w = moved at still ⊢
      obtain ⟨parts', w'⟩ := moved
      obtain ⟨rfl, put⟩ := still
      dsimp only
      rw [calm]
      exact ⟨ofPolled_of_unfinished unfinished, put⟩

/-! ### Looks that lead on -/

/-- A way of moving tasks that leads on wherever it can, as long as they are not too high. -/
def IsAgile (parallel : Bool) (height : Nat) (move : Mover) : Prop :=
  ∀ here t w, t.height ≤ height → t.Tidy parallel → IsAwake parallel here t w →
    ready parallel w here t ≠ [] → (move here t w).1.remaining < t.remaining

/-- How many open parts wait for a turn. -/
def waitingCount (here : Address) (parts : List Task) (w : World) : Nat :=
  parts.zipIdx.countP fun p => !p.1.isOver && decide (⟨true, p.2⟩ :: here ∈ w.agenda.woken)

theorem waitingCount_le (here : Address) (parts : List Task) (w : World) :
    waitingCount here parts w ≤ parts.countP (!·.isOver) := by
  have count : parts.countP (!·.isOver) = parts.zipIdx.countP (fun p => !p.1.isOver) := by
    conv_lhs => rw [← List.zipIdx_map_fst 0 parts]
    rw [List.countP_map]
    rfl
  rw [count]
  exact List.countP_mono_left fun p _ h => by simp_all

/-- Fewer elements have a property that fewer have, and one of them no more. -/
theorem countP_lt {α : Type} {p q : α → Bool} {l : List α} (le : ∀ x ∈ l, p x = true → q x = true)
    {x : α} (hx : x ∈ l) (now : p x = false) (before : q x = true) : l.countP p < l.countP q := by
  induction l with
  | nil => cases hx
  | cons y rest ih =>
    have le' : ∀ x ∈ rest, p x = true → q x = true := fun x hx => le x (List.mem_cons_of_mem _ hx)
    have behind := List.countP_mono_left le'
    have here := le y List.mem_cons_self
    rw [List.countP_cons, List.countP_cons]
    rcases List.mem_cons.mp hx with rfl | hx
    · simp only [now, before, Bool.false_eq_true, if_false, if_true]
      omega
    · have lt := ih le' hx
      cases hp : p y with
      | true => simp only [here hp, if_true]; omega
      | false => simp only [Bool.false_eq_true, if_false]; omega

section Parts

variable {move : Mover} {here : Address} {height : Nat}

/-- Whoever can move within parts that move in order has been woken, with all that is around it
in the whole. -/
def IsAwakeFrom (parallel : Bool) (here : Address) (i : Nat) (parts : List Task) (w : World) :
    Prop :=
  ∀ a ∈ readyParts parallel w here ⟨false, i⟩ parts, ∀ s outer, s.inTurns = true →
    here <:+ outer → s :: outer <:+ a → s :: outer ∈ w.agenda.woken

namespace IsAwakeFrom

variable {i : Nat} {t : Task} {rest : List Task} {w w' : World}

theorem head (awake : IsAwakeFrom parallel here i (t :: rest) w) :
    IsAwake parallel (⟨false, i⟩ :: here) t w := by
  intro a ha s outer inTurns below around
  exact awake a (List.mem_append_left _ ha) s outer inTurns ((List.suffix_cons _ here).trans below)
    around

/-- A part that puts off nobody but its own leaves those behind it awake. -/
theorem tail (awake : IsAwakeFrom parallel here i (t :: rest) w)
    (goOn : (parallel || t.isFinished) = true) (put : PutsOffBelow (⟨false, i⟩ :: here) w w') :
    IsAwakeFrom parallel here (i + 1) rest w' := by
  obtain ⟨f, rfl, keeps⟩ := put
  intro a ha s outer inTurns below around
  rw [readyParts_plan] at ha
  have there : a ∈ readyParts parallel w here ⟨false, i⟩ (t :: rest) := by
    apply List.mem_append_right
    rw [if_pos goOn]
    exact ha
  apply keeps
  · intro within
    obtain ⟨k, p, -, ha⟩ := part_of_mem_readyParts ha
    have same := step_eq_of_suffix (within.trans around) (suffix_of_mem_ready ha)
    simp at same
    omega
  · exact awake a there s outer inTurns below around

end IsAwakeFrom

theorem pollInOrder_lt (agile : IsAgile parallel height move) (idle : IsIdle parallel move)
    (tame : IsTame move) (parts : List Task) :
    ∀ i w, (∀ t ∈ parts, t.height ≤ height) → (∀ t ∈ parts, t.Tidy parallel) →
      (∀ t ∈ parts, t.error? = none) → IsAwakeFrom parallel here i parts w →
      readyParts parallel w here ⟨false, i⟩ parts ≠ [] →
      remainingOf (pollInOrder parallel move here i parts w).1 < remainingOf parts := by
  induction parts with
  | nil =>
    intro i w _ _ _ _ moving
    exact absurd rfl moving
  | cons t rest ih =>
    intro i w low tidy calm awake moving
    have behind : ∀ w, remainingOf (pollInOrder parallel move here (i + 1) rest w).1
        ≤ remainingOf rest := fun w => (tame.covers.pollInOrder (i + 1) rest w).1
    by_cases waits : ready parallel w (⟨false, i⟩ :: here) t = []
    · -- This part cannot move, so one of the others can.
      obtain ⟨same, put⟩ := idle (⟨false, i⟩ :: here) t w (tidy t List.mem_cons_self) waits
      rw [readyParts, waits, List.nil_append] at moving
      split at moving
      · rename_i goOn
        have awake' := awake.tail goOn put
        obtain ⟨f, planned, -⟩ := put
        rw [pollInOrder]
        generalize move (⟨false, i⟩ :: here) t w = moved at same planned awake' ⊢
        obtain ⟨t', w'⟩ := moved
        obtain rfl : t' = t := same
        obtain rfl : w' = w.plan f := planned
        have error : t'.error? = none := calm t' List.mem_cons_self
        dsimp only
        rw [if_pos (by cases h : t'.isFinished <;> simp_all [isOver])]
        have next := ih (i + 1) (w.plan f) (fun p hp => low p (List.mem_cons_of_mem _ hp))
          (fun p hp => tidy p (List.mem_cons_of_mem _ hp))
          (fun p hp => calm p (List.mem_cons_of_mem _ hp)) awake'
          (by rw [readyParts_plan]; exact moving)
        simp only [remainingOf]
        omega
      · exact absurd rfl moving
    · have lt := agile (⟨false, i⟩ :: here) t w (low t List.mem_cons_self)
        (tidy t List.mem_cons_self) awake.head waits
      rw [pollInOrder]
      dsimp only
      split
      · have le := behind (move (⟨false, i⟩ :: here) t w).2
        simp only [remainingOf]
        omega
      · simp only [remainingOf]
        omega

/-- Every part that can move has been woken, with all that is around it in the part. -/
def AreAwake (parallel : Bool) (here : Address) (parts : List Task) (w : World) : Prop :=
  ∀ (i : Nat) t, parts[i]? = some t → ready parallel w (⟨true, i⟩ :: here) t ≠ [] →
    ⟨true, i⟩ :: here ∈ w.agenda.woken ∧ IsAwake parallel (⟨true, i⟩ :: here) t w

/-- A turn in vain is one turn less, and takes nothing from those who can move. -/
theorem inVain_waitingCount {parts : List Task} {i : Nat} {t : Task} {w : World}
    (found : parts[i]? = some t) (isOpen : t.isOver = false)
    (woken : ⟨true, i⟩ :: here ∈ w.agenda.woken) :
    waitingCount here parts
      ((w.plan (·.call (⟨true, i⟩ :: here))).plan (·.settle (⟨true, i⟩ :: here)))
      < waitingCount here parts w := by
  refine countP_lt (x := (t, i)) (fun p _ h => ?_) (List.mk_mem_zipIdx_iff_getElem?.mpr found)
    ?_ (by simp [isOpen, woken])
  · simp only [Bool.and_eq_true, decide_eq_true_eq] at h ⊢
    exact ⟨h.1, List.mem_of_mem_erase (Agenda.mem_woken_settle.mp h.2).1⟩
  · simp only [Bool.and_eq_false_imp, decide_eq_false_iff_not]
    intro _ h
    exact (Agenda.mem_woken_settle.mp h).2 List.suffix_rfl

theorem AreAwake.inVain {parts : List Task} {i : Nat} {t : Task} {w : World}
    (awake : AreAwake parallel here parts w) (found : parts[i]? = some t)
    (waits : ready parallel w (⟨true, i⟩ :: here) t = []) :
    AreAwake parallel here parts
      ((w.plan (·.call (⟨true, i⟩ :: here))).plan (·.settle (⟨true, i⟩ :: here))) := by
  intro k p there moving
  rw [ready_plan, ready_plan] at moving
  have apart : i ≠ k := by
    rintro rfl
    rw [found] at there
    cases there
    exact moving waits
  obtain ⟨woken, within⟩ := awake k p there moving
  have keeps : ∀ b, ⟨true, k⟩ :: here <:+ b → b ∈ w.agenda.woken →
      b ∈ ((w.agenda.call (⟨true, i⟩ :: here)).settle (⟨true, i⟩ :: here)).woken := by
    intro b below woken
    have elsewhere : ¬ ⟨true, i⟩ :: here <:+ b := fun below' =>
      apart (congrArg Step.index (step_eq_of_suffix below' below))
    refine Agenda.mem_woken_settle.mpr ⟨Agenda.mem_woken_call woken ?_, elsewhere⟩
    rintro rfl
    exact elsewhere List.suffix_rfl
  exact ⟨keeps _ List.suffix_rfl woken, within.plan
    (f := fun g => (g.call (⟨true, i⟩ :: here)).settle (⟨true, i⟩ :: here))
    fun b below _ => keeps b below⟩

/-- If an open part has been woken, an open part that has been woken is chosen for the next
turn. -/
theorem exists_chosen {parts : List Task} {i : Nat} {t : Task} {w : World}
    (woken : ⟨true, i⟩ :: here ∈ w.agenda.woken) (found : parts[i]? = some t)
    (isOpen : t.isOver = false) :
    ∃ k p, ((w.agenda.next? here fun i => parts[i]?.any (!·.isOver)).bind fun i =>
        parts[i]?.map (i, ·)) = some (k, p) ∧
      parts[k]? = some p ∧ p.isOver = false ∧ ⟨true, k⟩ :: here ∈ w.agenda.woken := by
  obtain ⟨k, next⟩ := Agenda.exists_next? (fun i => parts[i]?.any (!·.isOver)) woken
    (by simp [found, isOpen])
  obtain ⟨up, woken'⟩ := Agenda.isOpen_of_next? next
  obtain ⟨p, there, isOpen'⟩ : ∃ p, parts[k]? = some p ∧ p.isOver = false := by
    simpa [Option.any_eq_true] using up
  exact ⟨k, p, by simp [next, there], there, isOpen', woken'⟩

/-- A turn of a part that can move leads on. -/
theorem giveTurn_lt (agile : IsAgile parallel height move) {parts : List Task} {i : Nat} {t : Task}
    {w : World} (awake : AreAwake parallel here parts w) (found : parts[i]? = some t)
    (low : t.height ≤ height) (tidy : t.Tidy parallel)
    (moving : ready parallel w (⟨true, i⟩ :: here) t ≠ []) :
    (giveTurn parallel move (⟨true, i⟩ :: here) t w).1.remaining < t.remaining := by
  have moving' : ready parallel (w.plan (·.call (⟨true, i⟩ :: here))) (⟨true, i⟩ :: here) t
      ≠ [] := by
    rwa [ready_plan]
  rw [giveTurn, if_pos (isReady_iff.mpr moving')]
  refine agile _ t _ low tidy ?_ moving'
  exact (awake i t found moving).2.plan fun b _ apart woken => Agenda.mem_woken_call woken apart

/-- A round of turns leads on as soon as a part can move: turns in vain use up fewer turns
than there are. -/
theorem pollRound_lt (agile : IsAgile parallel height move) (tame : IsTame move) (turns : Nat) :
    ∀ again parts w, (∀ t ∈ parts, t.height ≤ height) → (∀ t ∈ parts, t.Tidy parallel) →
      AreAwake parallel here parts w → waitingCount here parts w ≤ turns → again ≠ 2 →
      (∃ (i : Nat) (t : Task), parts[i]? = some t ∧ ready parallel w (⟨true, i⟩ :: here) t ≠ []) →
      remainingOf (pollRound parallel move here turns again parts w).2.1 < remainingOf parts := by
  induction turns with
  | zero =>
    intro again parts w low tidy awake few _ ⟨i, t, found, moving⟩
    have isOpen : t.isOver = false := Bool.eq_false_iff.mpr fun atEnd =>
      moving (ready_of_isOver atEnd _ _)
    have pos : 0 < waitingCount here parts w := by
      refine List.countP_pos_iff.mpr ⟨(t, i), List.mk_mem_zipIdx_iff_getElem?.mpr found, ?_⟩
      simp [isOpen, (awake i t found moving).1]
    omega
  | succ turns ih =>
    intro again parts w low tidy awake few notYet ⟨i, t, found, moving⟩
    have isOpen : t.isOver = false := Bool.eq_false_iff.mpr fun atEnd =>
      moving (ready_of_isOver atEnd _ _)
    obtain ⟨k, p, chosen, there, isOpen', woken⟩ :=
      exists_chosen (awake i t found moving).1 found isOpen
    rw [pollRound, chosen]
    dsimp only
    by_cases waits : ready parallel w (⟨true, k⟩ :: here) p = []
    · -- A turn in vain: the part is off the agenda, and the others go on.
      obtain ⟨bound, same⟩ := List.getElem?_eq_some_iff.mp there
      rw [giveTurn_of_not_ready waits]
      have fewer := inVain_waitingCount there isOpen' woken
      have awake' := awake.inVain there waits
      have settled : ⟨true, k⟩ :: here ∉ ((w.plan (·.call (⟨true, k⟩ :: here))).plan
          (·.settle (⟨true, k⟩ :: here))).agenda.woken :=
        fun h => (Agenda.mem_woken_settle.mp h).2 List.suffix_rfl
      have still : ready parallel ((w.plan (·.call (⟨true, k⟩ :: here))).plan
          (·.settle (⟨true, k⟩ :: here))) (⟨true, i⟩ :: here) t ≠ [] := by
        rwa [ready_plan, ready_plan]
      generalize (w.plan (·.call (⟨true, k⟩ :: here))).plan (·.settle (⟨true, k⟩ :: here)) = w'
        at fewer awake' settled still ⊢
      dsimp only
      rw [isOpen', if_neg Bool.false_ne_true, if_neg settled, if_neg notYet, ← same,
        List.set_getElem_self bound]
      exact ih again parts w' low tidy awake' (by omega) notYet ⟨i, t, found, still⟩
    · have lt := giveTurn_lt agile awake there (low p (List.mem_of_getElem? there))
        (tidy p (List.mem_of_getElem? there)) waits
      generalize giveTurn parallel move (⟨true, k⟩ :: here) p w = moved at lt ⊢
      obtain ⟨p', w'⟩ := moved
      have count := remainingOf_set there p'
      have less : remainingOf (parts.set k p') < remainingOf parts := by
        dsimp only at lt
        omega
      dsimp only
      split
      · exact less
      · generalize (if ⟨true, k⟩ :: here ∈ w'.agenda.woken then again + 1 else again) = again'
        split
        · exact less
        · exact (tame.covers.pollRound turns again' (parts.set k p') w').1.trans_lt less

theorem pollInTurns_lt (agile : IsAgile parallel height move) (tame : IsTame move)
    {parts : List Task} {w : World} (low : ∀ t ∈ parts, t.height ≤ height)
    (tidy : ∀ t ∈ parts, t.Tidy parallel) (awake : AreAwake parallel here parts w)
    (moving : ∃ (i : Nat) (t : Task), parts[i]? = some t ∧
      ready parallel w (⟨true, i⟩ :: here) t ≠ []) :
    remainingOf (pollInTurns parallel move here (parts.countP (!·.isOver)) parts w).1
      < remainingOf parts := by
  obtain ⟨i, t, found, can⟩ := moving
  have isOpen : t.isOver = false := Bool.eq_false_iff.mpr fun atEnd =>
    can (ready_of_isOver atEnd _ _)
  have pos : 0 < parts.countP (!·.isOver) :=
    List.countP_pos_iff.mpr ⟨t, List.mem_of_getElem? found, by simp [isOpen]⟩
  have round := pollRound_lt agile tame (parts.countP (!·.isOver)) 0 parts
    (w.plan (·.attend here)) low tidy
    (fun k p there can => by
      rw [ready_plan] at can
      obtain ⟨woken, within⟩ := awake k p there can
      exact ⟨woken, within.plan fun b _ _ woken => woken⟩)
    (waitingCount_le here parts _) (by decide) ⟨i, t, found, by rwa [ready_plan]⟩
  obtain ⟨rounds, count⟩ := Nat.exists_eq_succ_of_ne_zero pos.ne'
  rw [count] at round ⊢
  rw [pollInTurns]
  simp only [count]
  generalize pollRound parallel move here _ 0 parts (w.plan (·.attend here)) = reached at round ⊢
  obtain ⟨ended, parts', w'⟩ := reached
  cases ended with
  | false => exact round
  | true =>
    dsimp only
    split
    · exact round
    · exact (tame.covers.pollInTurns rounds parts' w').1.trans_lt round

/-- Where parts take turns, those of a task that is awake are awake. -/
theorem IsAwake.areAwake {shape : Shape} {parts : List Task} {w : World}
    (awake : IsAwake parallel here (.join shape parts) w)
    (turns : takeTurns parallel parts = true) : AreAwake parallel here parts w := by
  intro i t found can
  have within : ∀ a ∈ ready parallel w (⟨true, i⟩ :: here) t,
      a ∈ ready parallel w here (.join shape parts) := by
    intro a ha
    rw [ready, turns]
    exact mem_readyParts (parallel_of_takeTurns turns) found here ⟨true, 0⟩ (by simpa using ha)
  constructor
  · obtain ⟨a, ha⟩ := List.exists_mem_of_ne_nil _ can
    exact awake a (within a ha) ⟨true, i⟩ here rfl List.suffix_rfl (suffix_of_mem_ready ha)
  · intro a ha s outer inTurns below around
    exact awake a (within a ha) s outer inTurns ((List.suffix_cons _ here).trans below) around

/-- Moving the parts of a task that is awake and can move leads on. -/
theorem pollParts_lt (agile : IsAgile parallel height move) (idle : IsIdle parallel move)
    (tame : IsTame move) {shape : Shape} {parts : List Task} {w : World}
    (low : ∀ t ∈ parts, t.height ≤ height)
    (calm : surfaced? (takeTurns parallel parts) parts = none)
    (tidy : ∀ t ∈ parts, t.Tidy parallel) (awake : IsAwake parallel here (.join shape parts) w)
    (moving : ready parallel w here (.join shape parts) ≠ []) :
    remainingOf (pollParts parallel move here parts w).1 < remainingOf parts := by
  unfold pollParts
  rw [ready] at moving
  cases turns : takeTurns parallel parts with
  | true =>
    rw [turns] at moving
    obtain ⟨a, ha⟩ := List.exists_mem_of_ne_nil _ moving
    obtain ⟨i, t, found, ha⟩ := part_of_mem_readyParts ha
    exact pollInTurns_lt agile tame low tidy (awake.areAwake turns)
      ⟨i, t, found, List.ne_nil_of_mem (by simpa using ha)⟩
  | false =>
    rw [turns] at moving
    rw [IsAwake, ready, turns] at awake
    exact pollInOrder_lt agile idle tame parts 0 w low tidy
      (surfaced?_eq_none_iff.mp (turns ▸ calm)) awake moving

end Parts

/-- Looking at a task that is awake and can move leads on. -/
theorem pollWithin_agile (parallel : Bool) (height : Nat) :
    IsAgile parallel height (pollWithin parallel height) := by
  induction height with
  | zero =>
    intro here t w low
    exact absurd (height_pos t) (by omega)
  | succ height ih =>
    intro here t w low tidy awake moving
    cases tidy with
    | leaf v =>
      rw [pollWithin]
      split <;> exact Nat.one_pos
    | finished v => exact absurd (ready_of_isOver rfl _ _) moving
    | failed e => exact absurd (ready_of_isOver rfl _ _) moving
    | site inSpread r stage =>
      have can : Site.isReady r here w stage = true := by
        cases unready : Site.isReady r here w stage with
        | true => rfl
        | false => simp [ready, unready] at moving
      rw [pollWithin, remaining_ofProgress]
      exact Site.poll_remaining_lt can
    | @secret inner isOpen tidy =>
      rw [Task.height] at low
      have awake' : IsAwake parallel here inner w := by simpa [IsAwake, ready] using awake
      have lt := ih here inner w (by omega) tidy awake' (by simpa [ready] using moving)
      rw [pollWithin]
      dsimp only
      rw [remaining_inSecret]
      exact lt
    | @join shape parts unfinished calm tidy =>
      have low' := height_le_of_join low
      have lt := pollParts_lt ih (pollWithin_idle parallel height) (pollWithin_tame parallel height)
        low' calm tidy awake moving
      rw [pollWithin]
      dsimp only
      split
      · exact Nat.zero_lt_of_lt lt
      · exact (remaining_ofPolled_le _ _).trans_lt lt

end Task

end LayeredConfig

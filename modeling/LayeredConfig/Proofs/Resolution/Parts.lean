import Mathlib.Data.List.Forall2
import LayeredConfig.Resolution.Poll

/-!
# The parts of a task

A task of several parts goes on by replacing one of them, and what is true of the others stays
true (`forall_mem_set`, `forall₂_set`). After a look a reference, a secret or a task of parts is one
still, or has come to its end (`Task.ofProgress_cases`, `Task.inSecret_cases`,
`Task.ofPolled_cases`). What moving one part brings about, moving all of them does, in whatever
order their turns come (`Task.Covers.pollParts`). When all parts have finished, their values make
one value. Of a map with spreads they do so exactly if the entries that they make compose
(`Shape.close_ordered_eq_ok_iff`); nothing else can go wrong there (`Shape.eq_spread_of_close`).
-/

namespace LayeredConfig

/-! ### Replacing one part -/

section Replacing

variable {α β : Type} {l : List α} {m : List β} {k : Nat} {a : α}

theorem forall_mem_set {P : α → Prop} (all : ∀ b ∈ l, P b) (new : P a) : ∀ b ∈ l.set k a, P b := by
  intro b hb
  rcases List.mem_or_eq_of_mem_set hb with hb | rfl
  · exact all b hb
  · exact new

/-- Where two lists are related, one element may be replaced by another that is related too. -/
theorem forall₂_set {R : α → β → Prop} (all : List.Forall₂ R l m) (found : l[k]? = some a) :
    ∃ b, m[k]? = some b ∧ R a b ∧ ∀ a', R a' b → List.Forall₂ R (l.set k a') m := by
  induction all generalizing k with
  | nil => simp at found
  | @cons c d l m first others ih =>
    cases k with
    | zero =>
      cases found
      exact ⟨d, rfl, first, fun a' h => .cons h others⟩
    | succ k =>
      obtain ⟨b, there, related, replace⟩ := ih (by simpa using found)
      exact ⟨b, by simpa using there, related, fun a' h => .cons first (replace a' h)⟩

end Replacing

/-- When an open part comes to its end, one less is open. -/
theorem Task.countP_isOpen_set {parts : List Task} {k : Nat} {t : Task} (t' : Task)
    (found : parts[k]? = some t) (isOpen : t.isOver = false) (atEnd : t'.isOver = true) :
    (parts.set k t').countP (!·.isOver) + 1 = parts.countP (!·.isOver) := by
  obtain ⟨bound, there⟩ := List.getElem?_eq_some_iff.mp found
  have positive : 0 < parts.countP (!·.isOver) :=
    List.countP_pos_iff.mpr ⟨t, List.mem_of_getElem? found, by simp [isOpen]⟩
  rw [List.countP_set bound, there]
  simp only [isOpen, atEnd, Bool.not_false, Bool.not_true, if_true, Bool.false_eq_true, if_false]
  omega

/-! ### What has been looked at -/

section Cases

variable {P : Task → Prop}

/-- A reference that has been looked at is a reference still, or has finished or failed. -/
theorem Task.ofProgress_cases {inSpread : Bool} {r : Reference} {p : Progress} {w : World}
    (site : ∀ stage, P (.site inSpread r stage)) (finished : ∀ v, P (.finished v))
    (failed : ∀ e, P (.failed e)) : P (ofProgress inSpread r p w).1 := by
  unfold ofProgress
  split
  · exact site _
  · exact finished _
  · split
    · exact finished _
    · exact failed _

/-- A secret whose content has been looked at is a secret still, or over with its content. -/
theorem Task.inSecret_cases {t : Task} (secret : t.isOver = false → P (.secret t))
    (finished : ∀ v, P (.finished v)) (failed : ∀ e, t = .failed e → P (.failed e)) :
    P (inSecret t) := by
  cases t with
  | finished v => exact finished _
  | failed e => exact failed e rfl
  | leaf v => exact secret rfl
  | site inSpread r stage => exact secret rfl
  | secret inner => exact secret rfl
  | join shape parts => exact secret rfl

/-- Parts that have been looked at stand where they stood, or make one value, or fail to. -/
theorem Task.ofPolled_cases {shape : Shape} {parts : List Task}
    (join : values? parts = none → P (.join shape parts)) (finished : ∀ v, P (.finished v))
    (failed : ∀ e, P (.failed e)) : P (ofPolled shape parts) := by
  unfold ofPolled
  split
  · rename_i unfinished
    exact join unfinished
  · split
    · exact finished _
    · exact failed _

end Cases

/-! ### Moving parts -/

namespace Task

/-- What a round begins with: the part that has the next turn, if there is one. -/
theorem chosen_eq_some {parts : List Task} {next : Option Nat} {i : Nat} {t : Task}
    (chosen : (next.bind fun i => parts[i]?.map (i, ·)) = some (i, t)) :
    next = some i ∧ parts[i]? = some t := by
  simp only [Option.bind_eq_some_iff, Option.map_eq_some_iff] at chosen
  obtain ⟨j, found, t', there, same⟩ := chosen
  cases same
  exact ⟨found, there⟩

/-- A relation between parts before and after that covers every move of a single part, and moves
one after the other. -/
structure Covers (move : Mover) (R : List Task → List Task → Prop) : Prop where
  refl : ∀ parts, R parts parts
  trans : ∀ {parts parts' parts''}, R parts parts' → R parts' parts'' → R parts parts''
  set : ∀ {parts : List Task} {i : Nat} {t : Task} (here : Address) (w : World),
    parts[i]? = some t → R parts (parts.set i (move here t w).1)

namespace Covers

variable {parallel : Bool} {move : Mover} {R : List Task → List Task → Prop} {outer : Address}

/-- In order, where `front` are the parts that have had their chance. -/
theorem pollInOrder_append (covers : Covers move R) (parts : List Task) : ∀ front i w,
    R (front ++ parts) (front ++ (pollInOrder parallel move outer i parts w).1) := by
  induction parts with
  | nil => exact fun front i w => covers.refl _
  | cons t rest ih =>
    intro front i w
    have first := covers.set (⟨false, i⟩ :: outer) w
      (show (front ++ t :: rest)[front.length]? = some t by simp)
    rw [pollInOrder]
    generalize move (⟨false, i⟩ :: outer) t w = moved at first ⊢
    obtain ⟨t', w'⟩ := moved
    rw [List.set_append_right _ _ (Nat.le_refl _), Nat.sub_self, List.set_cons_zero] at first
    dsimp only
    split
    · refine covers.trans first ?_
      simpa using ih (front ++ [t']) (i + 1) w'
    · exact first

theorem pollInOrder (covers : Covers move R) (i : Nat) (parts : List Task) (w : World) :
    R parts (pollInOrder parallel move outer i parts w).1 :=
  covers.pollInOrder_append parts [] i w

theorem giveTurn (covers : Covers move R) {parts : List Task} {i : Nat} {t : Task}
    (found : parts[i]? = some t) (here : Address) (w : World) :
    R parts (parts.set i (giveTurn parallel move here t w).1) := by
  unfold Task.giveTurn
  dsimp only
  split
  · exact covers.set _ _ found
  · obtain ⟨bound, same⟩ := List.getElem?_eq_some_iff.mp found
    rw [← same, List.set_getElem_self bound]
    exact covers.refl parts

theorem pollRound (covers : Covers move R) (turns : Nat) : ∀ again parts w,
    R parts (pollRound parallel move outer turns again parts w).2.1 := by
  induction turns with
  | zero => exact fun again parts w => covers.refl parts
  | succ turns ih =>
    intro again parts w
    rw [Task.pollRound]
    split
    · exact covers.refl parts
    · rename_i i t chosen
      have first : R parts (parts.set i
          (Task.giveTurn parallel move (⟨true, i⟩ :: outer) t w).1) :=
        covers.giveTurn (chosen_eq_some chosen).2 _ w
      dsimp only
      generalize Task.giveTurn parallel move (⟨true, i⟩ :: outer) t w = moved at first ⊢
      obtain ⟨t', w'⟩ := moved
      dsimp only at first ⊢
      split
      · exact first
      · generalize (if ⟨true, i⟩ :: outer ∈ w'.agenda.woken then again + 1 else again) = again'
        split
        · exact first
        · exact covers.trans first (ih again' (parts.set i t') w')

theorem pollInTurns (covers : Covers move R) (rounds : Nat) : ∀ parts w,
    R parts (pollInTurns parallel move outer rounds parts w).1 := by
  induction rounds with
  | zero => exact fun parts w => covers.refl parts
  | succ rounds ih =>
    intro parts w
    have round : R parts (Task.pollRound parallel move outer (parts.countP (!·.isOver)) 0 parts
        (w.plan (·.attend outer))).2.1 := covers.pollRound _ 0 parts _
    rw [Task.pollInTurns]
    generalize Task.pollRound parallel move outer _ 0 parts (w.plan (·.attend outer)) = reached
      at round ⊢
    obtain ⟨ended, parts', w'⟩ := reached
    cases ended with
    | false => exact round
    | true =>
      dsimp only
      split
      · exact round
      · exact covers.trans round (ih parts' w')

/-- What covers the move of a single part covers those of all parts. -/
theorem pollParts (covers : Covers move R) (parts : List Task) (w : World) :
    R parts (pollParts parallel move outer parts w).1 := by
  unfold Task.pollParts
  split
  · exact covers.pollInTurns _ parts w
  · exact covers.pollInOrder 0 parts w

end Covers

/-- Moving parts leaves as many as there were. -/
theorem covers_length (move : Mover) :
    Covers move fun parts parts' => parts'.length = parts.length where
  refl _ := rfl
  trans first next := next.trans first
  set _ _ _ := List.length_set

end Task

/-! ### Drawing parts together -/

/-- What the entries of a map with spreads come to: those that are not given up. -/
def Task.assemble (heads : List (Option String × Origin)) (vs : List (Option Value)) :
    List (Entry Value) :=
  (heads.zip vs).filterMap fun (head, v) =>
    v.map fun v => { key := head.1, value := v, origin := head.2 }

namespace Shape

variable {heads : List (Option String × Origin)} {vs : List (Option Value)}

theorem mem_of_mem_assemble {e : Entry Value} (he : e ∈ Task.assemble heads vs) :
    some e.value ∈ vs := by
  obtain ⟨⟨head, v⟩, pair, found⟩ := List.mem_filterMap.mp he
  obtain ⟨v, rfl, rfl⟩ := Option.map_eq_some_iff.mp found
  exact (List.of_mem_zip pair).2

theorem close_ordered (heads : List (Option String × Origin)) (vs : List (Option Value)) :
    (ordered heads).close vs
      = ((composeResolved (Task.assemble heads vs)).map Value.map).mapError .spread := rfl

theorem toOption_close_ordered (heads : List (Option String × Origin))
    (vs : List (Option Value)) : ((ordered heads).close vs).toOption
      = (composeResolved (Task.assemble heads vs)).toOption.map Value.map := by
  rw [close_ordered]
  cases composeResolved (Task.assemble heads vs) <;> rfl

/-- A map with spreads makes a plain map, if its entries compose. -/
theorem close_ordered_eq_ok_iff {u : Value} : (ordered heads).close vs = .ok u ↔
    ∃ fields, composeResolved (Task.assemble heads vs) = .ok fields ∧ .map fields = u := by
  rw [close_ordered]
  cases composeResolved (Task.assemble heads vs) with
  | error e => simp [Except.map, Except.mapError]
  | ok fields => simp [Except.map, Except.mapError]

/-- A map of no parts is empty. -/
theorem close_map_nil (keys : List String) : (map keys).close [] = .ok (.map []) := by
  simp [close]

theorem close_ordered_nil (heads : List (Option String × Origin)) :
    (ordered heads).close [] = .ok (.map []) := by
  rw [close_ordered, Task.assemble, List.zip_nil_right]
  rfl

/-- Only spreads keep parts that have finished from making a value. -/
theorem eq_spread_of_close {shape : Shape} {e : ResolveError}
    (failed : shape.close vs = .error e) : ∃ e', e = .spread e' := by
  cases shape with
  | list => cases failed
  | map keys => cases failed
  | ordered heads =>
    rw [close_ordered] at failed
    cases composed : composeResolved (Task.assemble heads vs) with
    | ok fields => rw [composed] at failed; cases failed
    | error e' =>
      rw [composed] at failed
      cases failed
      exact ⟨e', rfl⟩

end Shape

end LayeredConfig

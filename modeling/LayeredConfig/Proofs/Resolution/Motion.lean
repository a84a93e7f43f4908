import LayeredConfig.Proofs.Resolution.Census
import LayeredConfig.Proofs.Resolution.Parts
import LayeredConfig.Resolution.Poll

/-!
How a task moves.

`Task.Moves` lists what may happen to a task while it is looked at, whoever has the next
turn: one of its references moves, a part of it moves, and a task whose parts have come
to an end comes to its own. One after another, no part moves before those in front of it
have finished, and no part moves once an error has come up.

A task is tidy (`Task.Tidy`) where nothing is left to be drawn together. What every move
of a single reference keeps, and every drop, holds on along all moves of a task
(`Task.Moves.keeps`). Where an error drops what still fetches, less may hold until the
error has come up to the top; `Task.Prompt` says for which tasks nothing happens in the
meantime.
-/

namespace LayeredConfig

namespace Task

variable {parallel : Bool}

/-! ### Parts that have come to an end -/

theorem error?_eq_some_iff {t : Task} {e : ResolveError} : t.error? = some e ↔ t = .failed e := by
  cases t <;> simp [error?]

/-- The parts have values exactly when all of them have finished. -/
theorem values?_eq_some_iff {parts : List Task} {vs : List (Option Value)} :
    values? parts = some vs ↔ parts = vs.map .finished := by
  induction parts generalizing vs with
  | nil => cases vs <;> simp [values?]
  | cons t rest ih =>
    cases t with
    | finished v =>
      cases vs with
      | nil => simp [values?]
      | cons u us => simp [values?, ih]; grind
    | _ => cases vs <;> simp [values?]

theorem values?_eq_none_iff {parts : List Task} :
    values? parts = none ↔ ∃ t ∈ parts, t.isFinished = false := by
  induction parts with
  | nil => simp [values?]
  | cons t rest ih => cases t <;> simp [values?, isFinished, ih]

/-- Without turns, an error has come up as soon as a part has failed. -/
theorem surfaced?_eq_none_iff {parts : List Task} :
    surfaced? false parts = none ↔ ∀ t ∈ parts, t.error? = none := by
  simp [surfaced?, List.findSome?_eq_none_iff]

/-- An error that comes up is that of a part. -/
theorem exists_of_surfaced {inTurns : Bool} {parts : List Task} {e : ResolveError}
    (found : surfaced? inTurns parts = some e) : ∃ t ∈ parts, t.error? = some e := by
  unfold surfaced? at found
  split at found
  · obtain ⟨t, first, failed⟩ := Option.bind_eq_some_iff.mp found
    exact ⟨t, List.mem_of_find?_eq_some first, failed⟩
  · exact List.exists_of_findSome?_eq_some found

/-- A part that is not over brings up no error. -/
theorem surfaced?_set {inTurns : Bool} {parts : List Task} {i : Nat} {t t' : Task}
    (found : parts[i]? = some t) (isOpen : t'.isOver = false)
    (calm : surfaced? inTurns parts = none) : surfaced? inTurns (parts.set i t') = none := by
  simp only [isOver, Bool.or_eq_false_iff] at isOpen
  have error' : t'.error? = none := by simpa using isOpen.2
  cases inTurns with
  | false =>
    rw [surfaced?_eq_none_iff] at calm ⊢
    exact forall_mem_set calm error'
  | true =>
    simp only [surfaced?, if_true] at calm ⊢
    induction parts generalizing i with
    | nil => simp
    | cons p rest ih =>
      cases i with
      | zero =>
        simp [isOpen.1, error']
      | succ i =>
        rw [List.set_cons_succ]
        cases finished : p.isFinished with
        | false => simpa [finished] using calm
        | true =>
          simp only [List.find?_cons, finished, Bool.not_true] at calm ⊢
          exact ih (by simpa using found) calm

/-! ### Tidy tasks -/

/-- A task in which nothing is left to be drawn together. -/
inductive Tidy (parallel : Bool) : Task → Prop where
  | leaf (v : Value) : Tidy parallel (.leaf v)
  | finished (v : Option Value) : Tidy parallel (.finished v)
  | failed (e : ResolveError) : Tidy parallel (.failed e)
  | site (inSpread : Bool) (r : Reference) (stage : Stage) : Tidy parallel (.site inSpread r stage)
  | secret {inner : Task} (isOpen : inner.isOver = false) (tidy : Tidy parallel inner) :
      Tidy parallel (.secret inner)
  | join {shape : Shape} {parts : List Task} (unfinished : values? parts = none)
      (calm : surfaced? (takeTurns parallel parts) parts = none)
      (tidy : ∀ t ∈ parts, Tidy parallel t) : Tidy parallel (.join shape parts)

/-- The first part that has not finished, in a tidy task, is not over. -/
theorem Tidy.exists_open {shape : Shape} {parts : List Task}
    (tidy : (Task.join shape parts).Tidy parallel) :
    ∃ front p back, parts = front ++ p :: back ∧ (∀ q ∈ front, q.isFinished = true) ∧
      p.isOver = false := by
  cases tidy with
  | join unfinished calm tidy =>
    obtain ⟨t, ht, open'⟩ := values?_eq_none_iff.mp unfinished
    obtain ⟨p, found⟩ : ∃ p, parts.find? (!·.isFinished) = some p :=
      Option.isSome_iff_exists.mp (List.find?_isSome.mpr ⟨t, ht, by simp [open']⟩)
    obtain ⟨unfinished, front, back, same, finished⟩ := List.find?_eq_some_iff_append.mp found
    refine ⟨front, p, back, same, by simpa using finished, ?_⟩
    have error : p.error? = none := by
      cases turns : takeTurns parallel parts with
      | false => exact surfaced?_eq_none_iff.mp (turns ▸ calm) p (by simp [same])
      | true => simpa [turns, surfaced?, found] using calm
    simpa [isOver, error] using unfinished

theorem Tidy.inSecret {inner : Task} (tidy : inner.Tidy parallel) :
    (inSecret inner).Tidy parallel :=
  inSecret_cases (fun isOpen => .secret isOpen tidy) .finished fun e _ => .failed e

theorem Tidy.ofPolled {shape : Shape} {parts : List Task}
    (calm : surfaced? (takeTurns parallel parts) parts = none)
    (tidy : ∀ t ∈ parts, Tidy parallel t) : (ofPolled shape parts).Tidy parallel :=
  ofPolled_cases (fun unfinished => .join unfinished calm tidy) .finished .failed

theorem Tidy.ofProgress (inSpread : Bool) (r : Reference) (p : Progress) (w : World) :
    (ofProgress inSpread r p w).1.Tidy parallel :=
  ofProgress_cases (.site inSpread r) .finished .failed

/-! ### Moves -/

/-- What may happen to a task at an address. -/
inductive Moves (parallel : Bool) : Address → Task → World → Task → World → Prop where
  | rest (here : Address) (t : Task) (w : World) : Moves parallel here t w t w
  | trans {here : Address} {t t' t'' : Task} {w w' w'' : World}
      (first : Moves parallel here t w t' w') (next : Moves parallel here t' w' t'' w'') :
      Moves parallel here t w t'' w''
  /-- Others are woken, or put off. -/
  | turn (here : Address) (t : Task) (w : World) (f : Agenda → Agenda) :
      Moves parallel here t w t (w.plan f)
  | leaf {here : Address} {v : Value} {w : World} (live : w.interruption? = none) :
      Moves parallel here (.leaf v) w (.finished (some v)) w
  | stop {here : Address} {v : Value} {w : World} {i : Interruption}
      (interrupted : w.interruption? = some i) :
      Moves parallel here (.leaf v) w (.failed (.interrupted i)) w
  | site {here : Address} {inSpread : Bool} {r : Reference} {stage : Stage} {w w' : World}
      {p : Progress} (move : Site.Move r here stage w p w') :
      Moves parallel here (.site inSpread r stage) w (ofProgress inSpread r p w').1
        (ofProgress inSpread r p w').2
  | secret {here : Address} {inner inner' : Task} {w w' : World}
      (moves : Moves parallel here inner w inner' w') (tidy : inner'.Tidy parallel) :
      Moves parallel here (.secret inner) w (inSecret inner') w'
  /-- A part moves. -/
  | part {here : Address} {shape : Shape} {parts : List Task} {i : Nat} {t t' : Task} {w w' : World}
      (found : parts[i]? = some t)
      (calm : surfaced? (takeTurns parallel parts) parts = none)
      (turn : parallel = true ∨ ∀ p ∈ parts.take i, p.isFinished = true)
      (isOpen : t.isOver = false)
      (moves : Moves parallel (⟨takeTurns parallel parts, i⟩ :: here) t w t' w')
      (tidy : t'.Tidy parallel) :
      Moves parallel here (.join shape parts) w (.join shape (parts.set i t')) w'
  /-- The parts that have finished are drawn together. -/
  | close {here : Address} {shape : Shape} {parts : List Task} {w : World}
      (calm : surfaced? (takeTurns parallel parts) parts = none) :
      Moves parallel here (.join shape parts) w (ofPolled shape parts) w
  /-- An error comes up, and all that is still on its way is dropped. -/
  | fail {here : Address} {shape : Shape} {parts : List Task} {w : World} {e : ResolveError}
      (found : surfaced? (takeTurns parallel parts) parts = some e) :
      Moves parallel here (.join shape parts) w (.failed e)
        (release parallel here (.join shape parts) w)

namespace Moves

/-- The moves of a reference are moves of its task. -/
theorem of_site {here : Address} {r : Reference} {stage : Stage} {w w' : World} {p : Progress}
    (moves : Site.Moves r here stage w p w') (inSpread : Bool) :
    Moves parallel here (.site inSpread r stage) w (ofProgress inSpread r p w').1
      (ofProgress inSpread r p w').2 := by
  induction moves with
  | rest stage w => exact .rest _ _ _
  | last move => exact .site move
  | more move _ ih => exact .trans (.site move) ih

end Moves

/-! ### Doom -/

/-- Whether a task has failed, or an error has come up in it. -/
def isDoomed (parallel : Bool) : Task → Bool
  | .failed _ => true
  | .join _ parts => (surfaced? (takeTurns parallel parts) parts).isSome
  | _ => false

/-- Whether a task has parts of its own that an error would drop. -/
def hasParts : Task → Bool
  | .secret inner => inner.hasParts
  | .join _ _ => true
  | _ => false

/-- Where parts take turns, none of them has parts of its own. Everywhere else an error comes
up to the top at once. -/
inductive Prompt (parallel : Bool) : Task → Prop where
  | leaf (v : Value) : Prompt parallel (.leaf v)
  | finished (v : Option Value) : Prompt parallel (.finished v)
  | failed (e : ResolveError) : Prompt parallel (.failed e)
  | site (inSpread : Bool) (r : Reference) (stage : Stage) :
      Prompt parallel (.site inSpread r stage)
  | secret {inner : Task} (prompt : Prompt parallel inner) : Prompt parallel (.secret inner)
  | join {shape : Shape} {parts : List Task}
      (flat : takeTurns parallel parts = true → ∀ t ∈ parts, t.hasParts = false)
      (prompt : ∀ t ∈ parts, Prompt parallel t) : Prompt parallel (.join shape parts)

/-- One after another, no parts take turns. -/
theorem prompt_of_sequential (t : Task) : t.Prompt false := by
  induction t using induct with
  | leaf v => exact .leaf v
  | finished v => exact .finished v
  | failed e => exact .failed e
  | site inSpread r stage => exact .site inSpread r stage
  | secret inner ih => exact .secret ih
  | join shape parts ih => exact .join (fun turns => by cases turns) ih

theorem hasParts_inSecret (t : Task) : (inSecret t).hasParts = t.hasParts := by
  cases t <;> rfl

theorem takeTurns_set (parts : List Task) (i : Nat) (t : Task) :
    takeTurns parallel (parts.set i t) = takeTurns parallel parts := by
  simp [takeTurns]

/-- A part with parts of its own that fails is an error that comes up at once. -/
theorem Prompt.isSome_surfaced? {shape : Shape} {parts : List Task} {i : Nat} {t : Task}
    (prompt : (Task.join shape parts).Prompt parallel) (found : parts[i]? = some t)
    (has : t.hasParts = true) (e : ResolveError) :
    (surfaced? (takeTurns parallel parts) (parts.set i (.failed e))).isSome = true := by
  cases prompt with
  | join flat prompt =>
    cases turns : takeTurns parallel parts with
    | true => simp [flat turns t (List.mem_of_getElem? found)] at has
    | false =>
      rw [Option.isSome_iff_ne_none]
      intro calm
      have inside : Task.failed e ∈ parts.set i (.failed e) :=
        List.mem_set (List.getElem?_eq_some_iff.mp found).1 _
      simpa [error?] using surfaced?_eq_none_iff.mp calm _ inside

/-- In a tidy task every error has come up to the top. -/
theorem Tidy.exists_failed {t : Task} (tidy : t.Tidy parallel)
    (doomed : t.isDoomed parallel = true) : ∃ e, t = .failed e := by
  cases tidy with
  | failed e => exact ⟨e, rfl⟩
  | join unfinished calm tidy => simp [isDoomed, calm] at doomed
  | _ => simp [isDoomed] at doomed

theorem parallel_of_takeTurns {parts : List Task} (turns : takeTurns parallel parts = true) :
    parallel = true := by
  simp only [takeTurns, Bool.and_eq_true] at turns
  exact turns.1

theorem ofPolled_of_unfinished {shape : Shape} {parts : List Task} (h : values? parts = none) :
    ofPolled shape parts = .join shape parts := by
  simp [ofPolled, h]

theorem isOver_ofPolled {shape : Shape} {parts : List Task} {vs : List (Option Value)}
    (h : values? parts = some vs) : (ofPolled shape parts).isOver = true := by
  simp only [ofPolled, h]
  split <;> rfl

namespace Moves

variable {here : Address} {t t' : Task} {w w' : World}

/-- A task without parts never comes to have any. -/
theorem hasParts_le (moves : Moves parallel here t w t' w') (has : t'.hasParts = true) :
    t.hasParts = true := by
  induction moves with
  | rest => exact has
  | turn => exact has
  | trans _ _ ih ih' => exact ih (ih' has)
  | leaf => cases has
  | stop => cases has
  | @site here inSpread r stage w w' p move =>
    have none : (ofProgress inSpread r p w').1.hasParts = false :=
      ofProgress_cases (P := (·.hasParts = false)) (fun _ => rfl) (fun _ => rfl) fun _ => rfl
    rw [none] at has
    cases has
  | secret _ _ ih =>
    rw [hasParts_inSecret] at has
    exact ih has
  | part => rfl
  | close => rfl
  | fail => cases has

/-- What is true of every reference and of whatever is over, of a secret just if it is true of its
content, and of a task of parts still when one of them has kept it, every move keeps. -/
theorem preserves {P : Task → Prop} (moves : Moves parallel here t w t' w')
    (site : ∀ inSpread r stage, P (.site inSpread r stage)) (finished : ∀ v, P (.finished v))
    (failed : ∀ e, P (.failed e))
    (secret : ∀ {inner}, P (.secret inner) ↔ P inner)
    (part : ∀ {here shape parts i t t' w w'}, parts[i]? = some t →
      (parallel = true ∨ ∀ p ∈ parts.take i, p.isFinished = true) → t.isOver = false →
      Moves parallel (⟨takeTurns parallel parts, i⟩ :: here) t w t' w' →
      P (.join shape parts) → (P t → P t') → P (.join shape (parts.set i t')))
    (before : P t) : P t' := by
  induction moves with
  | rest => exact before
  | turn => exact before
  | trans _ _ ih ih' => exact ih' (ih before)
  | leaf => exact finished _
  | stop => exact failed _
  | site => exact ofProgress_cases (site _ _) finished failed
  | secret _ _ ih =>
    exact inSecret_cases (fun _ => secret.mpr (ih (secret.mp before))) finished fun e _ => failed e
  | part found calm turn isOpen moves tidy ih => exact part found turn isOpen moves before ih
  | close => exact ofPolled_cases (fun _ => before) finished failed
  | fail => exact failed _

theorem prompt (moves : Moves parallel here t w t' w') (prompt : t.Prompt parallel) :
    t'.Prompt parallel := by
  refine moves.preserves .site .finished .failed ⟨?_, .secret⟩ ?_ prompt
  · intro whole
    cases whole with
    | secret prompt => exact prompt
  · intro here shape parts i t t' w w' found turn isOpen moves whole within
    cases whole with
    | join flat prompt =>
      have old : t ∈ parts := List.mem_of_getElem? found
      constructor
      · intro turns
        rw [takeTurns_set] at turns
        exact forall_mem_set (flat turns) (Bool.eq_false_iff.mpr fun has =>
          Bool.eq_false_iff.mp (flat turns t old) (moves.hasParts_le has))
      · exact forall_mem_set prompt (within (prompt t old))

end Moves

/-! ### What moves keep -/

/-- What a single move keeps, about those who stand somewhere and the world: `I` as long as
no error has dropped anything, `J` always. -/
structure Keeps (I J : Multiset Standing → World → Prop) : Prop where
  turn : ∀ S w f, I S w → I S (World.plan w f)
  turnDropped : ∀ S w f, J S w → J S (World.plan w f)
  move : ∀ {C here r stage w p w'}, I (⟨here, r, stage⟩ ::ₘ C) w →
    Site.Move r here stage w p w' → I (p.among here r C) w'
  warn : ∀ S w e, I S w → I S (World.log w (.downgraded e w.now))
  weaken : ∀ S w, I S w → J S w
  drop : ∀ C here r stage w, J (⟨here, r, stage⟩ ::ₘ C) w →
    J C (Site.surrender r here stage w)

/-- Where the references of a site stand after it has moved. -/
theorem sites_ofProgress (parallel : Bool) {I : Multiset Standing → World → Prop}
    (warn : ∀ S w e, I S w → I S (World.log w (.downgraded e w.now))) {here : Address}
    {r : Reference} {p : Progress} {C : Multiset Standing} {w : World} (inSpread : Bool)
    (h : I (p.among here r C) w) :
    I (C + sites parallel here (ofProgress inSpread r p w).1) (ofProgress inSpread r p w).2 := by
  cases p with
  | waiting stage =>
    rw [ofProgress, sites_site, add_comm, Multiset.singleton_add]
    exact h
  | settled result =>
    cases result with
    | ok v =>
      rw [ofProgress, sites_finished, add_zero]
      exact h
    | error e =>
      simp only [ofProgress]
      split
      · rw [sites_finished, add_zero]
        exact warn _ _ _ h
      · rw [sites_failed, add_zero]
        exact h

theorem sites_inSecret (here : Address) (t : Task) :
    sites parallel here (inSecret t) = sites parallel here t := by
  cases t <;> simp [inSecret]

theorem sites_ofPolled {shape : Shape} {parts : List Task} (here : Address) :
    sites parallel here (ofPolled shape parts) = sites parallel here (.join shape parts) := by
  cases h : values? parts with
  | none => rw [ofPolled_of_unfinished h]
  | some vs =>
    rw [sites_of_isOver (isOver_ofPolled h), sites_join, values?_eq_some_iff.mp h]
    generalize (⟨_, 0⟩ : Step) = step
    clear h
    induction vs generalizing step with
    | nil => simp
    | cons v vs ih => simpa using ih step.next

namespace Moves

variable {here : Address} {t t' : Task} {w w' : World} {I J : Multiset Standing → World → Prop}

/-- Nothing but its own end happens to a task in which an error has come up. -/
theorem of_doomed (keeps : Keeps I J) (moves : Moves parallel here t w t' w')
    (doomed : t.isDoomed parallel = true) {C : Multiset Standing}
    (before : J (C + t.sites parallel here) w) :
    t'.isDoomed parallel = true ∧ J (C + t'.sites parallel here) w' := by
  induction moves with
  | rest => exact ⟨doomed, before⟩
  | turn => exact ⟨doomed, keeps.turnDropped _ _ _ before⟩
  | trans _ _ ih ih' =>
    obtain ⟨doomed', after⟩ := ih doomed before
    exact ih' doomed' after
  | leaf => cases doomed
  | stop => cases doomed
  | site => cases doomed
  | secret => cases doomed
  | part found calm => simp [isDoomed, calm] at doomed
  | close calm => simp [isDoomed, calm] at doomed
  | fail =>
    refine ⟨rfl, ?_⟩
    rw [sites_failed, add_zero]
    exact release_drops keeps.turnDropped keeps.drop _ _ _ _ before

/-- What every move of a reference keeps, every run of moves of a task keeps: the weaker
part of it always, and all of it as long as no error has come up that drops something. -/
theorem keeps (keeps : Keeps I J)
    (robust : (∀ S w, J S w → I S w) ∨ t.Prompt parallel)
    (moves : Moves parallel here t w t' w') {C : Multiset Standing}
    (before : I (C + t.sites parallel here) w) :
    J (C + t'.sites parallel here) w' ∧
      ((t.hasParts = true → t'.isDoomed parallel = false) → I (C + t'.sites parallel here) w') := by
  induction moves generalizing C with
  | rest => exact ⟨keeps.weaken _ _ before, fun _ => before⟩
  | turn _ _ _ f =>
    have after := keeps.turn _ _ f before
    exact ⟨keeps.weaken _ _ after, fun _ => after⟩
  | @trans here t t' t'' w w' w'' first next ih ih' =>
    obtain ⟨dropped, kept⟩ := ih robust before
    by_cases doomed : t.hasParts = true ∧ t'.isDoomed parallel = true
    · obtain ⟨doomed', after⟩ := next.of_doomed keeps doomed.2 dropped
      exact ⟨after, fun calm => absurd (calm doomed.1) (by simp [doomed'])⟩
    · have middle := kept fun has => Bool.eq_false_iff.mpr fun h => doomed ⟨has, h⟩
      obtain ⟨dropped', kept'⟩ := ih' (robust.imp_right first.prompt) middle
      exact ⟨dropped', fun calm => kept' fun has => calm (first.hasParts_le has)⟩
  | leaf =>
    rw [sites_leaf] at before
    rw [sites_finished]
    exact ⟨keeps.weaken _ _ before, fun _ => before⟩
  | stop =>
    rw [sites_leaf] at before
    rw [sites_failed]
    exact ⟨keeps.weaken _ _ before, fun _ => before⟩
  | @site here inSpread r stage w w' p move =>
    rw [sites_site, add_comm, Multiset.singleton_add] at before
    have after := sites_ofProgress parallel keeps.warn inSpread
      (keeps.move before move)
    exact ⟨keeps.weaken _ _ after, fun _ => after⟩
  | @secret here inner inner' w w' moves tidy ih =>
    rw [sites_secret] at before
    rw [sites_inSecret]
    obtain ⟨dropped, kept⟩ := ih (robust.imp_right fun | .secret prompt => prompt) before
    refine ⟨dropped, fun unharmed => kept ?_⟩
    intro has
    have unharmed := unharmed has
    cases tidy with
    | failed e => cases unharmed
    | join unfinished calm tidy => simp [isDoomed, calm]
    | _ => rfl
  | @part here shape parts i t t' w w' found calm turn isOpen moves tidy ih =>
    obtain ⟨F, census, census'⟩ := sites_join_set found here
    rw [census] at before
    rw [census']
    have old : t ∈ parts := List.mem_of_getElem? found
    obtain ⟨dropped, kept⟩ := ih (robust.imp_right fun | .join _ prompt => prompt t old) before
    refine ⟨dropped, ?_⟩
    intro unharmed
    by_cases doomed : t.hasParts = true ∧ t'.isDoomed parallel = true
    · -- The part has failed; either that comes up at once, or it has dropped nothing.
      rcases robust with robust | prompt
      · exact robust _ _ dropped
      · obtain ⟨e, rfl⟩ := tidy.exists_failed doomed.2
        have surfaced := prompt.isSome_surfaced? found doomed.1 e
        have calm' := unharmed rfl
        rw [isDoomed, takeTurns_set, surfaced] at calm'
        cases calm'
    · exact kept fun has => Bool.eq_false_iff.mpr fun h => doomed ⟨has, h⟩
  | close =>
    rw [sites_ofPolled]
    exact ⟨keeps.weaken _ _ before, fun _ => before⟩
  | fail =>
    have after := release_drops keeps.turnDropped keeps.drop _ _ _ _ (keeps.weaken _ _ before)
    rw [sites_failed, add_zero]
    exact ⟨after, fun calm => absurd (calm rfl) (by simp [isDoomed])⟩

/-- What moves and drops alike keep, every run of moves of a task keeps. -/
theorem keeps_all (keeps : Keeps I I) (moves : Moves parallel here t w t' w')
    {C : Multiset Standing} (before : I (C + t.sites parallel here) w) :
    I (C + t'.sites parallel here) w' :=
  (moves.keeps keeps (.inl fun _ _ h => h) before).1

/-- A task that is over does not move any more. -/
theorem of_isOver (moves : Moves parallel here t w t' w') (atEnd : t.isOver = true) :
    t' = t ∧ ∃ f, w' = w.plan f := by
  induction moves with
  | rest => exact ⟨rfl, id, rfl⟩
  | turn _ _ _ f => exact ⟨rfl, f, rfl⟩
  | trans _ _ ih ih' =>
    obtain ⟨rfl, f, rfl⟩ := ih atEnd
    obtain ⟨rfl, g, rfl⟩ := ih' atEnd
    exact ⟨rfl, g ∘ f, rfl⟩
  | _ => cases atEnd

end Moves

/-! ### Moves that end well -/

/-- A task in which nothing has failed. -/
inductive Sound : Task → Prop where
  | leaf (v : Value) : Sound (.leaf v)
  | finished (v : Option Value) : Sound (.finished v)
  | site (inSpread : Bool) (r : Reference) (stage : Stage) : Sound (.site inSpread r stage)
  | secret {inner : Task} (sound : Sound inner) : Sound (.secret inner)
  | join {shape : Shape} {parts : List Task} (sound : ∀ t ∈ parts, Sound t) :
      Sound (.join shape parts)

theorem Sound.of_inSecret {t : Task} (sound : (inSecret t).Sound) : t.Sound := by
  cases t with
  | finished v => exact .finished v
  | failed e => cases sound
  | _ =>
    cases sound with
    | secret sound => exact sound

theorem Sound.of_ofPolled {shape : Shape} {parts : List Task}
    (sound : (ofPolled shape parts).Sound) : ∀ t ∈ parts, t.Sound := by
  cases h : values? parts with
  | none =>
    rw [ofPolled_of_unfinished h] at sound
    cases sound with
    | join sound => exact sound
  | some vs =>
    intro t ht
    rw [values?_eq_some_iff.mp h] at ht
    obtain ⟨v, -, rfl⟩ := List.mem_map.mp ht
    exact .finished v

theorem Sound.of_set {shape : Shape} {parts : List Task} {i : Nat} {t t' : Task}
    (found : parts[i]? = some t) (sound : (Task.join shape (parts.set i t')).Sound)
    (back : t'.Sound → t.Sound) : (Task.join shape parts).Sound := by
  obtain ⟨bound, same⟩ := List.getElem?_eq_some_iff.mp found
  cases sound with
  | join sound =>
    refine .join ?_
    intro p hp
    obtain ⟨j, there, rfl⟩ := List.mem_iff_getElem.mp hp
    by_cases here : i = j
    · subst here
      rw [same]
      exact back (sound t' (List.mem_set bound _))
    · refine sound _ (List.mem_iff_getElem.mpr ⟨j, by simpa using there, ?_⟩)
      exact List.getElem_set_of_ne here t' (by simpa using there)

namespace Moves

variable {here : Address} {t t' : Task} {w w' : World} {I J : Multiset Standing → World → Prop}

/-- What has failed stays failed. -/
theorem sound (moves : Moves parallel here t w t' w') (well : t'.Sound) : t.Sound := by
  induction moves with
  | rest => exact well
  | turn => exact well
  | trans _ _ ih ih' => exact ih (ih' well)
  | leaf => exact .leaf _
  | stop => exact .leaf _
  | site => exact .site ..
  | secret _ _ ih => exact .secret (ih well.of_inSecret)
  | part found _ _ _ _ _ ih => exact well.of_set found ih
  | close => exact .join well.of_ofPolled
  | fail => cases well

/-- Nothing is dropped on the way to a task in which nothing has failed. -/
theorem keeps_of_sound (keeps : Keeps I J) (moves : Moves parallel here t w t' w') (well : t'.Sound)
    {C : Multiset Standing} (before : I (C + t.sites parallel here) w) :
    I (C + t'.sites parallel here) w' := by
  induction moves generalizing C with
  | rest => exact before
  | turn _ _ _ f => exact keeps.turn _ _ f before
  | trans first next ih ih' => exact ih' well (ih (next.sound well) before)
  | leaf =>
    rw [sites_leaf] at before
    rw [sites_finished]
    exact before
  | stop => cases well
  | site move =>
    rw [sites_site, add_comm, Multiset.singleton_add] at before
    exact sites_ofProgress parallel keeps.warn _ (keeps.move before move)
  | secret moves tidy ih =>
    rw [sites_secret] at before
    rw [sites_inSecret]
    exact ih well.of_inSecret before
  | @part here shape parts i t t' w w' found calm turn isOpen moves tidy ih =>
    obtain ⟨F, census, census'⟩ := sites_join_set found here
    rw [census] at before
    rw [census']
    refine ih ?_ before
    cases well with
    | join sound => exact sound t' (List.mem_set (List.getElem?_eq_some_iff.mp found).1 _)
  | close =>
    rw [sites_ofPolled]
    exact before
  | fail => cases well

end Moves

/-- The books stay balanced. -/
theorem balanced_keeps : Keeps Balanced Balanced where
  turn _ _ f balanced := balanced.plan f
  turnDropped _ _ f balanced := balanced.plan f
  move balanced move := balanced.move move
  warn _ _ _ balanced := balanced.log _
  weaken _ _ balanced := balanced
  drop _ _ _ _ _ balanced := balanced.surrender

end Task

end LayeredConfig

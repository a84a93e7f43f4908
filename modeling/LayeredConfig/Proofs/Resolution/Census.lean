import Mathlib.Algebra.Order.Group.Multiset
import LayeredConfig.Proofs.Resolution.Balance
import LayeredConfig.Resolution.Task

/-!
Where the references of a task stand.

`Task.sites` counts the references of a task that are still on their way, each with its
address and stage. Facts about a whole run are stated about this census and the world
beside it. No two references of a task stand at the same address (`Task.sites_apart`),
and one part of a task can be exchanged without a change for the others
(`Task.sites_join_set`). Dropping a task gives back what each of its references holds
(`Task.release_drops`).
-/

namespace LayeredConfig

theorem Step.next_index_add (s : Step) (i : Nat) : s.next.index + i = s.index + (i + 1) := by
  simp only [next]
  omega

namespace Task

/-! ### Induction -/

/-- Induction over a task: what holds of all parts holds of the whole. -/
@[elab_as_elim]
theorem induct {P : Task → Prop} (leaf : ∀ v, P (.leaf v)) (finished : ∀ v, P (.finished v))
    (failed : ∀ e, P (.failed e)) (site : ∀ inSpread r stage, P (.site inSpread r stage))
    (secret : ∀ inner, P inner → P (.secret inner))
    (join : ∀ shape parts, (∀ t ∈ parts, P t) → P (.join shape parts)) : ∀ t, P t
  | .leaf v => leaf v
  | .finished v => finished v
  | .failed e => failed e
  | .site inSpread r stage => site inSpread r stage
  | .secret inner => secret inner (induct leaf finished failed site secret join inner)
  | .join shape parts => join shape parts fun t _ => induct leaf finished failed site secret join t

/-! ### The census -/

mutual
/-- Where the references of a task at an address stand. -/
def sites (parallel : Bool) : Address → Task → Multiset Standing
  | _, .leaf _ => 0
  | _, .finished _ => 0
  | _, .failed _ => 0
  | here, .site _ r stage => {⟨here, r, stage⟩}
  | here, .secret inner => sites parallel here inner
  | here, .join _ parts => sitesOf parallel here ⟨takeTurns parallel parts, 0⟩ parts

def sitesOf (parallel : Bool) : Address → Step → List Task → Multiset Standing
  | _, _, [] => 0
  | outer, s, t :: rest => sites parallel (s :: outer) t + sitesOf parallel outer s.next rest
end

variable {parallel : Bool}

@[simp] theorem sites_leaf (here : Address) (v : Value) : sites parallel here (.leaf v) = 0 := by
  simp [sites]

@[simp] theorem sites_finished (here : Address) (v : Option Value) :
    sites parallel here (.finished v) = 0 := by
  simp [sites]

@[simp] theorem sites_failed (here : Address) (e : ResolveError) :
    sites parallel here (.failed e) = 0 := by
  simp [sites]

@[simp] theorem sites_site (here : Address) (inSpread : Bool) (r : Reference) (stage : Stage) :
    sites parallel here (.site inSpread r stage) = {⟨here, r, stage⟩} := by
  simp [sites]

@[simp] theorem sites_secret (here : Address) (inner : Task) :
    sites parallel here (.secret inner) = sites parallel here inner := by
  simp [sites]

@[simp] theorem sites_join (here : Address) (shape : Shape) (parts : List Task) :
    sites parallel here (.join shape parts)
      = sitesOf parallel here ⟨takeTurns parallel parts, 0⟩ parts := by
  simp [sites]

@[simp] theorem sitesOf_nil (outer : Address) (s : Step) : sitesOf parallel outer s [] = 0 := by
  simp [sitesOf]

@[simp] theorem sitesOf_cons (outer : Address) (s : Step) (t : Task) (rest : List Task) :
    sitesOf parallel outer s (t :: rest)
      = sites parallel (s :: outer) t + sitesOf parallel outer s.next rest := by
  simp [sitesOf]

/-- A task that is over has no references on their way. -/
theorem sites_of_isOver {t : Task} (atEnd : t.isOver = true) (here : Address) :
    sites parallel here t = 0 := by
  cases t <;> simp_all [isOver, isFinished, error?]

/-- Where the references of one part stand, and how the census changes when the part does. -/
theorem sitesOf_set (parallel : Bool) {parts : List Task} {t : Task} {i : Nat}
    (found : parts[i]? = some t) (outer : Address) (s : Step) :
    ∃ F, sitesOf parallel outer s parts
        = sites parallel (⟨s.inTurns, s.index + i⟩ :: outer) t + F ∧
      ∀ t', sitesOf parallel outer s (parts.set i t')
        = sites parallel (⟨s.inTurns, s.index + i⟩ :: outer) t' + F := by
  induction parts generalizing i s with
  | nil => simp at found
  | cons p rest ih =>
    cases i with
    | zero =>
      simp only [List.getElem?_cons_zero, Option.some.injEq] at found
      exact ⟨sitesOf parallel outer s.next rest, by simp [found], by simp⟩
    | succ i =>
      simp only [List.getElem?_cons_succ] at found
      obtain ⟨F, before, after⟩ := ih found s.next
      rw [Step.next_index_add] at before after
      refine ⟨sites parallel (s :: outer) p + F, ?_, fun t' => ?_⟩
      · rw [sitesOf_cons, before, add_left_comm]
        rfl
      · rw [List.set_cons_succ, sitesOf_cons, after, add_left_comm]
        rfl

/-- The references of a task are those of one part, and others whatever that part comes to. -/
theorem sites_join_set {shape : Shape} {parts : List Task} {t : Task} {i : Nat}
    (found : parts[i]? = some t) (here : Address) :
    ∃ F, (∀ C, C + sites parallel here (.join shape parts)
        = C + F + sites parallel (⟨takeTurns parallel parts, i⟩ :: here) t) ∧
      ∀ C t', C + sites parallel here (.join shape (parts.set i t'))
        = C + F + sites parallel (⟨takeTurns parallel parts, i⟩ :: here) t' := by
  obtain ⟨F, before, after⟩ := sitesOf_set parallel found here ⟨takeTurns parallel parts, 0⟩
  simp only [Nat.zero_add] at before after
  have same : ∀ t', takeTurns parallel (parts.set i t') = takeTurns parallel parts := by
    simp [takeTurns]
  refine ⟨F, ?_, ?_⟩
  · intro C
    rw [sites_join, before, add_comm (sites _ _ _), add_assoc]
  · intro C t'
    rw [sites_join, same, after, add_comm (sites _ _ _), add_assoc]

/-- A reference within a list of parts stands within one of them. -/
theorem part_of_mem_sitesOf {parts : List Task} {outer : Address} {step : Step} {s : Standing}
    (hs : s ∈ sitesOf parallel outer step parts) : ∃ (i : Nat) (t : Task), parts[i]? = some t ∧
      s ∈ sites parallel (⟨step.inTurns, step.index + i⟩ :: outer) t := by
  induction parts generalizing step with
  | nil => simp at hs
  | cons t rest ih =>
    rw [sitesOf_cons, Multiset.mem_add] at hs
    rcases hs with hs | hs
    · exact ⟨0, t, rfl, hs⟩
    · obtain ⟨i, p, found, within⟩ := ih hs
      rw [Step.next_index_add] at within
      exact ⟨i + 1, p, found, within⟩

/-! ### Addresses -/

/-- A reference within a task stands at or below its address. -/
theorem suffix_of_mem_sites {t : Task} : ∀ {here : Address} {s : Standing},
    s ∈ sites parallel here t → here <:+ s.address := by
  induction t using induct with
  | leaf v => simp
  | finished v => simp
  | failed e => simp
  | site inSpread r stage =>
    intro here s hs
    rw [sites_site, Multiset.mem_singleton] at hs
    exact hs ▸ List.suffix_rfl
  | secret inner ih => simpa using @ih
  | join shape parts ih =>
    intro here s hs
    rw [sites_join] at hs
    obtain ⟨i, t, found, within⟩ := part_of_mem_sitesOf hs
    exact (List.suffix_cons _ here).trans (ih t (List.mem_of_getElem? found) within)

/-- No address is below two steps from the same place. -/
theorem step_eq_of_suffix {a outer : Address} {s s' : Step} (h : s :: outer <:+ a)
    (h' : s' :: outer <:+ a) : s = s' := by
  have both := List.suffix_of_suffix_length_le h h' (by simp)
  exact (List.cons.inj (both.eq_of_length (by simp))).1

/-- No two references of a task stand at the same address. -/
theorem sites_apart (parallel : Bool) (t : Task) :
    ∀ here, ((sites parallel here t).map Standing.address).Nodup := by
  induction t using induct with
  | leaf v => simp
  | finished v => simp
  | failed e => simp
  | site inSpread r stage => simp
  | secret inner ih => simpa using ih
  | join shape parts ih =>
    intro here
    rw [sites_join]
    generalize (⟨takeTurns parallel parts, 0⟩ : Step) = step
    induction parts generalizing step with
    | nil => simp
    | cons t rest inner =>
      rw [sitesOf_cons, Multiset.map_add, Multiset.nodup_add]
      refine ⟨ih t List.mem_cons_self _,
        inner (fun t ht => ih t (List.mem_cons_of_mem _ ht)) step.next, ?_⟩
      rw [Multiset.disjoint_left]
      intro a first second
      obtain ⟨s, hs, rfl⟩ := Multiset.mem_map.mp first
      obtain ⟨s', hs', same⟩ := Multiset.mem_map.mp second
      obtain ⟨i, p, -, within⟩ := part_of_mem_sitesOf hs'
      have equal := step_eq_of_suffix (suffix_of_mem_sites hs) (same ▸ suffix_of_mem_sites within)
      have index : step.index = step.next.index + i := congrArg Step.index equal
      rw [Step.next_index_add] at index
      omega

/-! ### Dropping -/

/-- What the release of a list of parts gives back, whatever their order: `J` says what a
world needs to be like for those who stay. -/
inductive Drops (J : Multiset Standing → World → Prop) :
    List (Address × (World → World)) → Multiset Standing → Prop where
  | nil : Drops J [] 0
  | cons {a : Address} {drop : World → World} {S S' : Multiset Standing}
      {drops : List (Address × (World → World))}
      (keeps : ∀ C w, J (C + S) w → J C (drop w)) (rest : Drops J drops S') :
      Drops J ((a, drop) :: drops) (S + S')

namespace Drops

variable {J : Multiset Standing → World → Prop} {drops drops' : List (Address × (World → World))}
  {S : Multiset Standing}

theorem perm (h : Drops J drops S) (same : drops.Perm drops') : Drops J drops' S := by
  induction same generalizing S with
  | nil => exact h
  | cons x _ ih =>
    cases h with
    | cons keeps rest => exact .cons keeps (ih rest)
  | swap x y l =>
    cases h with
    | cons keeps rest =>
      cases rest with
      | cons keeps' rest' =>
        rw [add_left_comm]
        exact .cons keeps' (.cons keeps rest')
  | trans _ _ ih ih' => exact ih' (ih h)

/-- Dropping one after the other leaves the world in order for those who stay. -/
theorem fold (h : Drops J drops S) (C : Multiset Standing) (w : World) (before : J (C + S) w) :
    J C (drops.foldl (fun w drop => drop.2 w) w) := by
  induction h generalizing w with
  | nil => simpa using before
  | @cons a drop S S' drops keeps rest ih =>
    refine ih (drop w) (keeps (C + S') w ?_)
    rwa [add_assoc, add_comm S' S]

end Drops

theorem lastFirst_perm {α : Type} (g : Agenda) (parts : List (Address × α)) :
    (g.lastFirst parts).Perm parts := by
  unfold Agenda.lastFirst
  induction g.called generalizing parts with
  | nil => exact .refl _
  | cons a rest ih =>
    apply ((ih _).append_left _).trans
    simpa using List.filter_append_perm (fun p : Address × α => decide (p.1 = a)) parts

/-- Dropping a task takes its references out of the census, each of which surrenders what
it holds. -/
theorem release_drops {J : Multiset Standing → World → Prop}
    (turn : ∀ S w f, J S w → J S (World.plan w f))
    (drop : ∀ C here r stage w, J (⟨here, r, stage⟩ ::ₘ C) w →
      J C (Site.surrender r here stage w)) (t : Task) :
    ∀ here C w, J (C + sites parallel here t) w → J C (release parallel here t w) := by
  induction t using induct with
  | leaf v => simp [release]
  | finished v => simp [release]
  | failed e => simp [release]
  | site inSpread r stage =>
    intro here C w before
    obtain ⟨f, same⟩ := Site.release_eq r here w stage
    rw [release, same]
    refine drop C here r stage _ (turn _ _ f ?_)
    rwa [sites_site, add_comm, Multiset.singleton_add] at before
  | secret inner ih => simpa [release] using ih
  | join shape parts ih =>
    intro here C w before
    have drops : ∀ step, Drops J (releases parallel here step parts)
        (sitesOf parallel here step parts) := by
      clear before
      induction parts with
      | nil =>
        intro step
        simpa [releases] using Drops.nil
      | cons t rest inner =>
        intro step
        rw [releases, sitesOf_cons]
        exact .cons (ih t List.mem_cons_self _)
          (inner (fun t ht => ih t (List.mem_cons_of_mem _ ht)) step.next)
    rw [release]
    exact ((drops _).perm (lastFirst_perm w.agenda _).symm).fold C w (by simpa using before)

end Task

end LayeredConfig

import LayeredConfig.Proofs.Resolution.Moves
import LayeredConfig.Proofs.Resolution.Parts
import LayeredConfig.Resolution.Poll

/-!
A look never leads away from the end.

`Site.remaining` counts how many looks at a reference may still change its stage. A look
at a reference that can move lowers the count (`Site.poll_remaining_lt`), and no look at
a task raises its count or its height (`Task.pollWithin_tame`).
-/

namespace LayeredConfig

/-- How many looks may still lead on, once a reference has come so far. -/
def Progress.remaining : Progress → Nat
  | .waiting stage => Site.remaining stage
  | .settled _ => 0

namespace Site

variable {r : Reference} {here : Address} {p : Provider} {w : World} {stage : Stage}

/-- After a look at a fetch, at most the fetch is left. -/
theorem watchFetch_remaining (wake : Nat) (outcome : Except Failure Value) (limit : Option Nat) :
    (watchFetch r here wake outcome limit w).1.remaining ≤ 1 := by
  unfold watchFetch
  split
  · exact Nat.zero_le 1
  · split
    · exact Nat.zero_le 1
    · exact le_rfl

theorem launch_remaining (p : Provider) (w : World) : (launch p r here w).1.remaining ≤ 1 := by
  unfold launch
  dsimp only
  split
  · exact Nat.zero_le 1
  · exact watchFetch_remaining _ _ _

/-- In front of the line for an outcome there is a permit to wait for, and the fetch. -/
theorem acquire_remaining (p : Provider) (w : World) : (acquire p r here w).1.remaining ≤ 2 := by
  unfold acquire
  split
  · exact Nat.zero_le 2
  · split
    · exact Nat.le_succ_of_le (launch_remaining _ _)
    · exact le_rfl

/-- With a provider there is the line for the outcome to wait in besides. -/
theorem share_remaining (p : Provider) (w : World) : (share p r here w).1.remaining ≤ 3 := by
  unfold share
  split
  · exact Nat.zero_le 3
  · dsimp only
    split
    · exact Nat.le_succ_of_le (acquire_remaining _ _)
    · exact le_rfl

/-- Whoever is in front of the line for an outcome does not stay there. -/
theorem share_remaining_of_first (ready : Assoc.contains w.resolver.cache r.key = true ∨
    w.resolver.lines.isFirst r.key here = true) : (share p r here w).1.remaining ≤ 2 := by
  unfold share
  split
  · exact Nat.zero_le 2
  · rename_i uncached
    have first : (w.update (·.lineUp r.key here)).resolver.lines.isFirst r.key here = true :=
      Lines.isFirst_join (ready.resolve_left (by simp [Assoc.contains, uncached]))
    simp only [first, if_true]
    exact acquire_remaining _ _

theorem withProvider_remaining (result : Except SetupError Provider) (w : World) :
    (withProvider r here result w).1.remaining ≤ 3 := by
  cases result with
  | ok p => exact share_remaining p w
  | error e => exact Nat.zero_le 3

/-- The building of a provider comes before all that. -/
theorem build_remaining (providerType : String) (config : Fields) (w : World) :
    (build r here providerType config w).1.remaining ≤ 4 := by
  unfold build
  split
  · exact Nat.le_succ_of_le (withProvider_remaining _ _)
  · dsimp only
    split
    · exact Nat.le_succ_of_le (withProvider_remaining _ _)
    · exact le_rfl

/-- A reference without a provider has the line for it to wait in first of all. -/
theorem provide_remaining (w : World) : (provide r here w).1.remaining ≤ 5 := by
  unfold provide
  split
  · exact Nat.zero_le 5
  · exact (share_remaining _ _).trans (by decide)
  · exact (withProvider_remaining _ _).trans (by decide)
  · dsimp only
    split
    · exact Nat.le_succ_of_le (build_remaining _ _ _)
    · exact le_rfl

/-- Whoever is in front of the line for a provider does not stay there. -/
theorem provide_remaining_of_first (ready : w.registry.isUnbuilt r.alias = false ∨
    w.registry.lines.isFirst r.alias here = true) : (provide r here w).1.remaining ≤ 4 := by
  unfold provide
  split
  · exact Nat.zero_le 4
  · exact Nat.le_succ_of_le (share_remaining _ _)
  · exact Nat.le_succ_of_le (withProvider_remaining _ _)
  · rename_i providerType config unbuilt
    have first : (w.updateRegistry (·.lineUp r.alias here)).registry.lines.isFirst r.alias here
        = true :=
      Lines.isFirst_join (ready.resolve_left (by simp [Registry.isUnbuilt, unbuilt]))
    simp only [first, if_true]
    exact build_remaining _ _ _

theorem start_remaining (w : World) : (start r here w).1.remaining ≤ 5 := by
  unfold start
  split
  · exact Nat.zero_le 5
  · exact provide_remaining w

theorem remaining_pos (stage : Stage) : 0 < remaining stage := by
  cases stage <;> exact Nat.succ_pos _

/-- Whatever a site that can move does next brings it closer to its end. -/
theorem proceed_remaining_lt (live : (stage.isWatchful && w.interruption?.isSome) = false)
    (ready : isReady r here w stage = true) :
    (proceed r here w stage).1.remaining < remaining stage := by
  simp only [isReady, live, Bool.false_or] at ready
  cases stage with
  | fresh => exact Nat.lt_succ_of_le (start_remaining w)
  | awaitingProvider =>
    exact Nat.lt_succ_of_le (provide_remaining_of_first (by simpa using ready))
  | building wake outcome => exact Nat.lt_succ_of_le (withProvider_remaining _ _)
  | awaitingOutcome p => exact Nat.lt_succ_of_le (share_remaining_of_first (by simpa using ready))
  | queued p => exact Nat.lt_succ_of_le (launch_remaining _ _)
  | fetching wake outcome limit =>
    simp only [proceed, watchFetch]
    split
    · exact Nat.one_pos
    · rename_i early
      rw [if_pos (by simpa [early] using ready)]
      exact Nat.one_pos

/-- So does an interruption, which ends it. -/
theorem attempt_remaining_lt (ready : isReady r here w stage = true) :
    (attempt r here stage w).1.remaining < remaining stage := by
  unfold attempt
  split
  · exact remaining_pos stage
  · rename_i live
    refine proceed_remaining_lt ?_ ready
    cases watchful : stage.isWatchful with
    | true => simpa [watchful] using live
    | false => rfl

/-- A look at a reference that can move leads on. -/
theorem poll_remaining_lt (ready : isReady r here w stage = true) :
    (poll r here stage w).1.remaining < remaining stage := by
  have lt := attempt_remaining_lt (w := w.plan (·.unwatch here)) ready
  rw [poll_of_ready ready]
  generalize attempt r here stage (w.plan (·.unwatch here)) = reached at lt ⊢
  obtain ⟨p, w'⟩ := reached
  cases p <;> exact lt

theorem poll_remaining_le : (poll r here stage w).1.remaining ≤ remaining stage := by
  cases ready : isReady r here w stage with
  | true => exact (poll_remaining_lt ready).le
  | false =>
    rw [poll_of_not_ready ready]
    exact le_rfl

end Site

namespace Task

variable {parallel : Bool}

theorem remaining_ofProgress (inSpread : Bool) (r : Reference) (p : Progress) (w : World) :
    (ofProgress inSpread r p w).1.remaining = p.remaining := by
  unfold ofProgress
  split
  · rfl
  · rfl
  · split <;> rfl

theorem remaining_inSecret (t : Task) : (inSecret t).remaining = t.remaining := by
  cases t <;> rfl

/-- Parts that are drawn together have no more left than before. -/
theorem remaining_ofPolled_le (shape : Shape) (parts : List Task) :
    (ofPolled shape parts).remaining ≤ remainingOf parts :=
  ofPolled_cases (P := (·.remaining ≤ _)) (fun _ => le_rfl) (fun _ => Nat.zero_le _)
    fun _ => Nat.zero_le _

theorem height_pos (t : Task) : 0 < t.height := by
  cases t <;> simp [height]

theorem height_ofProgress (inSpread : Bool) (r : Reference) (p : Progress) (w : World) :
    (ofProgress inSpread r p w).1.height = 1 :=
  ofProgress_cases (P := (·.height = 1)) (fun _ => rfl) (fun _ => rfl) fun _ => rfl

theorem height_inSecret_le (t : Task) : (inSecret t).height ≤ t.height + 1 := by
  cases t <;> simp [inSecret, height]

theorem height_ofPolled_le (shape : Shape) (parts : List Task) :
    (ofPolled shape parts).height ≤ heightOf parts + 1 :=
  ofPolled_cases (P := (·.height ≤ _)) (fun _ => le_rfl) (fun _ => Nat.le_add_left 1 _)
    fun _ => Nat.le_add_left 1 _

/-- If one part is replaced, what is left changes by what that part has left. -/
theorem remainingOf_set {parts : List Task} {i : Nat} {t : Task} (found : parts[i]? = some t)
    (t' : Task) :
    remainingOf (parts.set i t') + t.remaining = remainingOf parts + t'.remaining := by
  induction parts generalizing i with
  | nil => simp at found
  | cons p rest ih =>
    cases i with
    | zero =>
      simp only [List.getElem?_cons_zero, Option.some.injEq] at found
      subst found
      simp only [List.set_cons_zero, remainingOf]
      omega
    | succ i =>
      have step := ih (by simpa using found)
      simp only [List.set_cons_succ, remainingOf]
      omega

theorem remaining_le_of_mem {parts : List Task} {t : Task} (ht : t ∈ parts) :
    t.remaining ≤ remainingOf parts := by
  induction parts with
  | nil => cases ht
  | cons p rest ih =>
    rw [remainingOf]
    rcases List.mem_cons.mp ht with rfl | ht
    · exact Nat.le_add_right _ _
    · exact (ih ht).trans (Nat.le_add_left _ _)

theorem height_le_of_mem {parts : List Task} {t : Task} (ht : t ∈ parts) :
    t.height ≤ heightOf parts := by
  induction parts with
  | nil => cases ht
  | cons p rest ih =>
    rw [heightOf]
    rcases List.mem_cons.mp ht with rfl | ht
    · exact Nat.le_max_left _ _
    · exact (ih ht).trans (Nat.le_max_right _ _)

/-- The parts of a task are not as high as the task. -/
theorem height_le_of_join {shape : Shape} {parts : List Task} {height : Nat}
    (low : (join shape parts).height ≤ height + 1) : ∀ t ∈ parts, t.height ≤ height := by
  intro t ht
  have le := height_le_of_mem ht
  rw [Task.height] at low
  omega

theorem heightOf_le {parts : List Task} {n : Nat} (h : ∀ t ∈ parts, t.height ≤ n) :
    heightOf parts ≤ n := by
  induction parts with
  | nil => exact Nat.zero_le n
  | cons p rest ih =>
    rw [heightOf]
    exact Nat.max_le.mpr ⟨h p List.mem_cons_self, ih fun t ht => h t (List.mem_cons_of_mem _ ht)⟩

/-- A part that is no higher than the others leaves the height as it was. -/
theorem heightOf_set_le {parts : List Task} {i : Nat} {t : Task} (h : t.height ≤ heightOf parts) :
    heightOf (parts.set i t) ≤ heightOf parts :=
  heightOf_le (forall_mem_set (fun _ hp => height_le_of_mem hp) h)

/-- A way of moving tasks that never leads away from their ends. -/
def IsTame (move : Mover) : Prop :=
  ∀ here t w, (move here t w).1.remaining ≤ t.remaining ∧ (move here t w).1.height ≤ t.height

/-- Nor does moving the parts of a task. -/
theorem IsTame.covers {move : Mover} (tame : IsTame move) : Covers move fun parts parts' =>
    remainingOf parts' ≤ remainingOf parts ∧ heightOf parts' ≤ heightOf parts where
  refl _ := ⟨le_rfl, le_rfl⟩
  trans first next := ⟨next.1.trans first.1, next.2.trans first.2⟩
  set {_ _ t} here w found := by
    obtain ⟨fewer, lower⟩ := tame here t w
    have count := remainingOf_set found (move here t w).1
    refine ⟨by omega, heightOf_set_le ?_⟩
    exact lower.trans (height_le_of_mem (List.mem_of_getElem? found))

/-- No look at a task leads away from its end. -/
theorem pollWithin_tame (parallel : Bool) (height : Nat) :
    IsTame (pollWithin parallel height) := by
  induction height with
  | zero =>
    intro here t w
    exact ⟨le_rfl, le_rfl⟩
  | succ height ih =>
    intro here t w
    cases t with
    | leaf v =>
      rw [pollWithin]
      split <;> exact ⟨Nat.zero_le _, le_rfl⟩
    | finished v => exact ⟨le_rfl, le_rfl⟩
    | failed e => exact ⟨le_rfl, le_rfl⟩
    | site inSpread r stage =>
      rw [pollWithin, remaining_ofProgress, height_ofProgress]
      exact ⟨Site.poll_remaining_le, le_rfl⟩
    | secret inner =>
      have step := ih here inner w
      rw [pollWithin]
      dsimp only
      rw [remaining_inSecret]
      refine ⟨step.1, (height_inSecret_le _).trans ?_⟩
      rw [Task.height]
      omega
    | join shape parts =>
      have step : remainingOf (pollParts parallel (pollWithin parallel height) here parts w).1
            ≤ remainingOf parts ∧
          heightOf (pollParts parallel (pollWithin parallel height) here parts w).1
            ≤ heightOf parts := ih.covers.pollParts parts w
      rw [pollWithin]
      dsimp only
      split
      · exact ⟨Nat.zero_le _, height_pos _⟩
      · refine ⟨(remaining_ofPolled_le _ _).trans step.1, (height_ofPolled_le _ _).trans ?_⟩
        rw [Task.height]
        omega

end Task

end LayeredConfig

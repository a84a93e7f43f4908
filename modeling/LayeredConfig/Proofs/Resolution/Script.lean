import Mathlib.Data.List.Induction
import LayeredConfig.Proofs.Resolution.DepthFirst
import LayeredConfig.Proofs.Resolution.Downgrading

/-!
# What is done on the way

`Reference.perform` says what is done about a reference that is met: the calls for it that nobody
has made yet, and a warning if it is given up. So the references that a walk meets tell all that
is done on it (`script`). The fetches are theirs, each the first time (`fetched_script`), a
provider is initialised right before the first of its own (`fetch_next_to_init`), and the warnings
are due for those that have no data (`warnings_script`).
-/

namespace LayeredConfig

/-! ### Calls and warnings -/

/-- What happens in a run, whenever it happens. -/
inductive Act where
  /-- The provider of an alias is initialised. -/
  | init (name : String)
  | fetch (name : String) (path : List String)
  /-- A reference without data is given up. -/
  | giveUp (e : ResolveError)
  deriving DecidableEq

namespace Act

def initialised? : Act → Option String
  | .init name => some name
  | _ => none

def fetched? : Act → Option (String × List String)
  | .fetch name path => some (name, path)
  | _ => none

/-- The text of a warning, if it is one. -/
def warning? : Act → Option String
  | .giveUp e => some (e.message ++ "; using null")
  | _ => none

end Act

/-- What is done with an event. A fetch that ends does nothing new. -/
def Event.act? : Event → Option Act
  | .initStarted name _ _ => some (.init name)
  | .fetchStarted name path _ => some (.fetch name path)
  | .fetchEnded .. => none
  | .downgraded e _ => some (.giveUp e)

/-- What has been done, in order. -/
def Trace.acts (t : Trace) : List Act := t.reverse.filterMap Event.act?

namespace Trace

/-- A kind of event is a kind of what has been done. -/
theorem filterMap_acts {β : Type} {f : Act → Option β} {f' : Event → Option β}
    (same : ∀ e, f' e = e.act?.bind f) (t : Trace) :
    t.acts.filterMap f = t.reverse.filterMap f' := by
  rw [acts, List.filterMap_filterMap]
  exact List.filterMap_congr fun e _ => (same e).symm

theorem fetched_eq (t : Trace) :
    t.reverse.filterMap Event.fetched? = t.acts.filterMap Act.fetched? :=
  (filterMap_acts (fun e => by cases e <;> rfl) t).symm

theorem startedAlias_eq (t : Trace) :
    t.reverse.filterMap Event.startedAlias? = t.acts.filterMap Act.initialised? :=
  (filterMap_acts (fun e => by cases e <;> rfl) t).symm

theorem warnings_eq (t : Trace) : t.warnings = t.acts.filterMap Act.warning? :=
  (filterMap_acts (fun e => by cases e <;> rfl) t).symm

end Trace

/-- Whether the provider of an alias has yet to be initialised, and can be. -/
def Registry.initialises (g : Registry) (name : String) : Bool :=
  match Assoc.get? g.bindings name with
  | some (.declared providerType _ none) => Assoc.contains g.types providerType
  | _ => false

/-- Whether there is a provider behind an alias. -/
def Answers.provides (answers : Answers) (name : String) : Bool :=
  match answers name with
  | some (.ok _) => true
  | _ => false

namespace Reference

/-- The calls that lead to the data behind a reference: first its provider is initialised, if
it has yet to be, and then asked. -/
def calls (g : Registry) (answers : Answers) (r : Reference) : List Act :=
  (if g.initialises r.alias then [.init r.alias] else []) ++
    if answers.provides r.alias then [.fetch r.alias r.requestPath] else []

/-- A reference without data is given up, where missing data is allowed. -/
def warnings (answers : Answers) (lenient : Bool) (r : Reference) : List Act :=
  match answers.lookup r with
  | .ok _ => []
  | .error e => if lenient then [.giveUp e] else []

/-- What has been done once a reference has been met: its calls, as far as they have not been
made before, and then it may be given up. -/
def perform (g : Registry) (answers : Answers) (lenient : Bool) (done : List Act)
    (r : Reference) : List Act :=
  done ++ (r.calls g answers).filter (· ∉ done) ++ r.warnings answers lenient

end Reference

/-- What has been done once references have been met, one after another. -/
def script (g : Registry) (answers : Answers) (lenient : Bool) (done : List Act)
    (met : List Reference) : List Act :=
  met.foldl (Reference.perform g answers lenient) done

section Script

variable {g : Registry} {answers : Answers} {lenient : Bool} {done : List Act} {r : Reference}

theorem script_append (met met' : List Reference) :
    script g answers lenient done (met ++ met')
      = script g answers lenient (script g answers lenient done met) met' :=
  List.foldl_append

/-! ### One call after another -/

/-- The next call for a reference may as well have been made before. -/
theorem Reference.perform_of_next (front back : List Act) {a : Act}
    (calls : r.calls g answers = front ++ a :: back) (made : ∀ b ∈ front, b ∈ done)
    (new : a ∉ done) (once : a ∉ back) :
    r.perform g answers lenient (done ++ [a]) = r.perform g answers lenient done := by
  have gone : front.filter (· ∉ done) = [] :=
    List.filter_eq_nil_iff.mpr fun b hb => by simp [made b hb]
  have gone' : front.filter (· ∉ done ++ [a]) = [] :=
    List.filter_eq_nil_iff.mpr fun b hb => by simp [made b hb]
  have same : back.filter (· ∉ done ++ [a]) = back.filter (· ∉ done) :=
    List.filter_congr fun b hb => by
      have other : b ≠ a := fun h => once (h ▸ hb)
      simp [other]
  rw [perform, perform, calls, List.filter_append, List.filter_append, gone, gone',
    List.filter_cons_of_neg (by simp), List.filter_cons_of_pos (by simpa using new), same]
  simp

theorem Reference.perform_init (initialises : g.initialises r.alias = true)
    (new : .init r.alias ∉ done) :
    r.perform g answers lenient (done ++ [.init r.alias]) = r.perform g answers lenient done := by
  refine perform_of_next []
    (if answers.provides r.alias then [.fetch r.alias r.requestPath] else []) ?_ (by simp) new ?_
  · rw [calls, initialises, if_pos rfl]
    rfl
  · split <;> simp

theorem Reference.perform_fetch (provides : answers.provides r.alias = true)
    (initialised : g.initialises r.alias = true → .init r.alias ∈ done)
    (new : .fetch r.alias r.requestPath ∉ done) :
    r.perform g answers lenient (done ++ [.fetch r.alias r.requestPath])
      = r.perform g answers lenient done := by
  refine perform_of_next (if g.initialises r.alias then [.init r.alias] else []) [] ?_ ?_ new
    (by simp)
  · rw [calls, provides, if_pos rfl]
  · intro b hb
    split at hb
    · rename_i first
      rw [List.mem_singleton.mp hb]
      exact initialised first
    · cases hb

/-- Nothing is left to do about a reference whose calls have been made but to give it up. -/
theorem Reference.perform_of_made
    (initialised : g.initialises r.alias = true → .init r.alias ∈ done)
    (fetched : answers.provides r.alias = true → .fetch r.alias r.requestPath ∈ done) :
    r.perform g answers lenient done = done ++ r.warnings answers lenient := by
  have made : ∀ a ∈ r.calls g answers, a ∈ done := by
    intro a ha
    rw [calls, List.mem_append] at ha
    rcases ha with ha | ha <;> split at ha
    · rename_i first
      rw [List.mem_singleton.mp ha]
      exact initialised first
    · cases ha
    · rename_i provides
      rw [List.mem_singleton.mp ha]
      exact fetched provides
    · cases ha
  rw [perform, List.filter_eq_nil_iff.mpr fun a ha => by simpa using made a ha, List.append_nil]

/-! ### In order -/

/-- The calls of one kind in a script are those that references make, each the first time. -/
theorem filterMap_script {β : Type} [BEq β] [LawfulBEq β] {f : Act → Option β}
    {p : Reference → Bool} {k : Reference → β}
    (own : ∀ r : Reference, (r.calls g answers).filterMap f = if p r then [k r] else [])
    (apart : ∀ a b x, f a = some x → f b = some x → a = b) (silent : ∀ e, f (.giveUp e) = none)
    (met : List Reference) :
    (script g answers lenient [] met).filterMap f = ((met.filter p).map k).eraseDups := by
  induction met using List.reverseRecOn with
  | nil => rfl
  | append_singleton met r ih =>
    have quiet : (r.warnings answers lenient).filterMap f = [] := by
      unfold Reference.warnings
      split
      · rfl
      · split
        · simp [silent]
        · rfl
    have once : ∀ done : List Act, ((r.calls g answers).filter (· ∉ done)).filterMap f
        = ((r.calls g answers).filterMap f).filter (· ∉ done.filterMap f) := by
      intro done
      rw [List.filterMap_filter, List.filter_filterMap]
      refine List.filterMap_congr fun a _ => ?_
      cases h : f a with
      | none => simp
      | some x =>
        have same : x ∈ done.filterMap f ↔ a ∈ done := by
          rw [List.mem_filterMap]
          exact ⟨fun ⟨b, hb, hx⟩ => apart b a x hx h ▸ hb, fun ha => ⟨a, ha, h⟩⟩
        simp [Option.filter, same]
    rw [script_append]
    show ((r.perform g answers lenient (script g answers lenient [] met)).filterMap f) = _
    rw [Reference.perform, List.filterMap_append, List.filterMap_append, quiet, List.append_nil,
      once, own, ih, List.filter_append, List.map_append, List.eraseDups_append]
    congr 1
    cases own : p r with
    | false => simp [own, List.removeAll]
    | true =>
      simp only [List.filter_cons_of_pos own, List.filter_nil, List.map_cons, List.map_nil,
        List.removeAll, List.filter_cons, List.mem_eraseDups, if_true]
      by_cases before : k r ∈ (met.filter p).map k <;> simp [before, List.eraseDups_cons]

/-- Every provider that a met reference has, and that is yet to be initialised, is initialised
once, in the order in which the aliases are first met. -/
theorem initialised_script (met : List Reference) :
    (script g answers lenient [] met).filterMap Act.initialised?
      = ((met.filter fun r => g.initialises r.alias).map Reference.alias).eraseDups := by
  refine filterMap_script (fun r => ?_) ?_ (fun _ => rfl) met
  · rw [Reference.calls]
    cases g.initialises r.alias <;> cases answers.provides r.alias <;> rfl
  · intro a b x ha hb
    cases a <;> cases ha
    cases b <;> cases hb
    rfl

/-- The data behind every met reference with a provider is fetched once, in the order in which
it is first met. -/
theorem fetched_script (met : List Reference) :
    (script g answers lenient [] met).filterMap Act.fetched?
      = ((met.filter fun r => answers.provides r.alias).map Reference.request).eraseDups := by
  refine filterMap_script (fun r => ?_) ?_ (fun _ => rfl) met
  · rw [Reference.calls]
    cases g.initialises r.alias <;> cases answers.provides r.alias <;> rfl
  · intro a b x ha hb
    cases a <;> cases ha
    cases b <;> cases hb
    rfl

/-- Whatever is fetched, its provider has been initialised if it had to be. -/
theorem init_mem_script {met : List Reference} {name : String} {path : List String}
    (initialises : g.initialises name = true)
    (fetched : .fetch name path ∈ script g answers lenient [] met) :
    .init name ∈ script g answers lenient [] met := by
  have asked : (name, path) ∈ (script g answers lenient [] met).filterMap Act.fetched? :=
    List.mem_filterMap.mpr ⟨_, fetched, rfl⟩
  rw [fetched_script, List.mem_eraseDups, List.mem_map] at asked
  obtain ⟨r, hr, same⟩ := asked
  cases same
  have begun : r.alias ∈ (script g answers lenient [] met).filterMap Act.initialised? := by
    rw [initialised_script, List.mem_eraseDups]
    exact List.mem_map.mpr
      ⟨r, List.mem_filter.mpr ⟨(List.mem_filter.mp hr).1, initialises⟩, rfl⟩
  obtain ⟨a, ha, init⟩ := List.mem_filterMap.mp begun
  cases a <;> cases init
  exact ha

/-- If a provider is initialised for a reference, then that comes first, and the fetch next. -/
theorem Reference.perform_of_init_mem {name : String} {made : List Act}
    (fetches : ∀ path, g.initialises name = true → .fetch name path ∈ done → .init name ∈ done)
    (perform : r.perform g answers lenient done = done ++ made) (init : .init name ∈ made) :
    ∃ rest, made = .init name :: rest ∧ .init name ∉ rest ∧
      (∀ path, .fetch name path ∉ done) ∧
      (answers.provides name = true → ∃ path rest', rest = .fetch name path :: rest') := by
  rw [Reference.perform, List.append_assoc, List.append_right_inj] at perform
  have quiet : ∀ name, .init name ∉ r.warnings answers lenient := by
    intro name h
    unfold warnings at h
    split at h
    · cases h
    · split at h <;> simp at h
  rw [← perform, List.mem_append, List.mem_filter] at init
  obtain ⟨asked, new⟩ := init.resolve_right (quiet name)
  obtain ⟨toDo, rfl⟩ : g.initialises r.alias = true ∧ name = r.alias := by
    rw [calls, List.mem_append] at asked
    rcases asked with h | h <;> split at h <;> simp_all
  have unfetched : ∀ path, .fetch r.alias path ∉ done :=
    fun path h => by simp [fetches path toDo h] at new
  rw [calls, toDo, if_pos rfl, List.singleton_append, List.filter_cons_of_pos (by exact new),
    List.cons_append] at perform
  refine ⟨_, perform.symm, ?_, unfetched, fun provides => ?_⟩
  · rw [List.mem_append, not_or]
    refine ⟨fun h => ?_, quiet _⟩
    have inside := List.mem_of_mem_filter h
    split at inside <;> simp at inside
  · rw [provides, if_pos rfl, List.filter_cons_of_pos (by simpa using unfetched _)]
    exact ⟨_, _, rfl⟩

/-- Right after a provider has been initialised comes the first fetch from it. -/
theorem fetch_next_to_init {met : List Reference} {front back : List Act} {name : String}
    (here : script g answers lenient [] met = front ++ .init name :: back) :
    (∀ path, .fetch name path ∉ front) ∧
      (answers.provides name = true → ∃ path rest, back = .fetch name path :: rest) := by
  induction met using List.reverseRecOn generalizing back with
  | nil => simp [script] at here
  | append_singleton met r ih =>
    have fetches : ∀ path, g.initialises name = true →
        .fetch name path ∈ script g answers lenient [] met →
        .init name ∈ script g answers lenient [] met := fun _ => init_mem_script
    rw [script_append] at here
    generalize script g answers lenient [] met = done at here ih fetches
    obtain ⟨made, performed⟩ : ∃ made, r.perform g answers lenient done = done ++ made :=
      ⟨_, List.append_assoc ..⟩
    have whole : done ++ made = front ++ .init name :: back := performed.symm.trans here
    rcases List.append_eq_append_iff.mp whole with ⟨before, rfl, split⟩ | ⟨after, rfl, split⟩
    · obtain ⟨rest, rfl, once, unfetched, next⟩ :=
        Reference.perform_of_init_mem fetches performed (by simp [split])
      cases before with
      | nil =>
        cases split
        exact ⟨by simpa using unfetched, next⟩
      | cons a before =>
        cases split
        simp at once
    · cases after with
      | nil =>
        obtain rfl : made = .init name :: back := split.symm
        obtain ⟨rest, same, -, unfetched, next⟩ :=
          Reference.perform_of_init_mem fetches performed List.mem_cons_self
        cases same
        exact ⟨by simpa using unfetched, next⟩
      | cons a after =>
        cases split
        obtain ⟨unfetched, next⟩ := ih rfl
        refine ⟨unfetched, fun provides => ?_⟩
        obtain ⟨path, rest, rfl⟩ := next provides
        exact ⟨path, rest ++ made, rfl⟩

/-- Where missing data is allowed, each met reference without data is given up. -/
theorem warnings_script (met : List Reference) :
    (script g answers lenient done met).filterMap Act.warning?
      = done.filterMap Act.warning? ++
        if lenient then Reference.dueWarnings answers.lookup met else [] := by
  induction met generalizing done with
  | nil =>
    rw [script, List.foldl_nil]
    cases lenient <;> exact (List.append_nil _).symm
  | cons r met ih =>
    have calls : (r.calls g answers).filterMap Act.warning? = [] := by
      rw [Reference.calls]
      cases g.initialises r.alias <;> cases answers.provides r.alias <;> rfl
    have silent : ((r.calls g answers).filter (· ∉ done)).filterMap Act.warning? = [] :=
      List.filterMap_eq_nil_iff.mpr fun a ha =>
        List.filterMap_eq_nil_iff.mp calls a (List.mem_of_mem_filter ha)
    rw [script, List.foldl_cons]
    refine ih.trans ?_
    rw [Reference.perform, List.filterMap_append, List.filterMap_append, silent, List.append_nil,
      List.append_assoc]
    congr 1
    rw [Reference.warnings, Reference.dueWarnings, Reference.dueWarnings, List.filterMap_cons]
    cases answers.lookup r <;> cases lenient <;> rfl

end Script

end LayeredConfig

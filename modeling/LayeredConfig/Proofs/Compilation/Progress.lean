import LayeredConfig.Proofs.Compilation.Passes
import LayeredConfig.Proofs.Resolution.Waiting

/-!
# Nothing ever gets stuck

A compilation is a sequence of runs, one for the configuration of every source and one for the
root of every document (`Compiling.Begins`). Each of them begins where nothing is under way and
comes to a result, after which nothing is under way again (`Compiling.Completes`). So no run is
ever stuck, neither alone nor within a compilation, and every compilation ends
(`no_deadlock`).
-/

namespace LayeredConfig

namespace Compiling

variable {α β : Type}

/-! ### Parts that come to a result -/

/-- A part of a compilation comes to a result, and leaves `Q` unless it fails. -/
def Completes (x : Compiling α) (w : World) (Q : α → World → Prop) : Prop :=
  ∃ result w', x.exec w = (some result, w') ∧ ∀ a, result = .ok a → Q a w'

variable {w w' : World} {Q : α → World → Prop} {Q' : β → World → Prop}

theorem Completes.pure {a : α} (holds : Q a w) : Completes (Pure.pure a) w Q :=
  ⟨.ok a, w, rfl, fun _ same => by cases same; exact holds⟩

theorem Completes.bind {x : Compiling α} {f : α → Compiling β} (first : Completes x w Q)
    (second : ∀ a w', Q a w' → Completes (f a) w' Q') : Completes (x >>= f) w Q' := by
  obtain ⟨result, w', ran, holds⟩ := first
  unfold Completes
  rw [exec_bind, ran]
  cases result with
  | error e => exact ⟨.error e, w', rfl, fun _ same => by cases same⟩
  | ok a => exact second a w' (holds a rfl)

/-- What a part that completes has left. -/
theorem Completes.of_exec {x : Compiling α} {a : α} (completes : Completes x w Q)
    (ran : x.exec w = (some (.ok a), w')) : Q a w' := by
  obtain ⟨result, w'', ran', holds⟩ := completes
  rw [ran] at ran'
  cases ran'
  exact holds a rfl

/-- A result that needs no world. -/
theorem completes_ofExcept {r : Except CompileError α} (holds : ∀ a, r = .ok a → Q a w) :
    Completes (ofExcept r) w Q :=
  ⟨r, w, rfl, holds⟩

theorem completes_fields (file : String) {t : Task}
    (fit : t.Fit w.resolver.policy.isParallel w) :
    Completes (fields file (·.runTask t)) w fun _ w' => w'.IsIdle := by
  obtain ⟨x, w', ran, idle⟩ := World.runTask_idle fit
  exact ⟨_, w', exec_fields file ran, fun _ _ => idle⟩

theorem completes_register (idle : w.IsIdle) (s : DeclaredSource) (config : Fields) :
    Completes (register s config) w fun _ w' => w'.IsIdle := by
  have registered := Registry.register_eq w.registry s.alias s.providerType config
  split at registered
  · exact ⟨_, _, exec_register registered, fun _ _ => idle⟩
  · split at registered
    · exact ⟨_, _, exec_register registered, fun _ _ => idle⟩
    · exact ⟨_, _, exec_register registered, fun _ _ =>
        ⟨idle.builders, idle.outcomes, idle.queue, idle.permits⟩⟩

/-! ### The passes -/

theorem completes_declareSource (idle : w.IsIdle) (file : String) (s : DeclaredSource) :
    Completes (declareSource file s) w fun _ w' => w'.IsIdle :=
  (completes_fields file (idle.fit_ofMap _ s.config)).bind fun config _ idle =>
    completes_register idle s config

theorem completes_sources (idle : w.IsIdle) (file : String) (sources : List DeclaredSource) :
    Completes (sources.forM (declareSource file)) w fun _ w' => w'.IsIdle := by
  induction sources generalizing w with
  | nil => exact .pure idle
  | cons s rest ih =>
    show Completes (declareSource file s >>= fun _ => rest.forM (declareSource file)) w _
    exact (completes_declareSource idle file s).bind fun _ _ idle => ih idle

theorem completes_roots (idle : w.IsIdle) (documents : List Document) :
    Completes (roots documents) w fun _ w' => w'.IsIdle := by
  induction documents generalizing w with
  | nil => exact .pure idle
  | cons d rest ih =>
    rw [roots]
    apply (completes_ofExcept (Q := fun _ w' => w'.IsIdle) fun _ _ => idle).bind
    intro c w' idle
    apply (completes_sources idle d.file c.sources).bind
    intro _ w' idle
    exact (ih idle).bind fun _ _ idle => .pure idle

theorem completes_layers (idle : w.IsIdle) (roots : List (String × Value)) :
    Completes (layers roots) w fun _ w' => w'.IsIdle := by
  induction roots generalizing w with
  | nil => exact .pure idle
  | cons p rest ih =>
    rw [layers]
    apply (completes_fields p.1 (idle.fit _ (.ofValue p.2))).bind
    intro _ w' idle
    exact (ih idle).bind fun _ _ idle => .pure idle

theorem completes_values (idle : w.IsIdle) (documents : List Document) :
    Completes (values documents) w fun _ w' => w'.IsIdle := by
  apply (completes_roots idle documents).bind
  intro rs w' idle
  exact (completes_layers idle rs).bind fun _ _ idle => .pure idle

/-! ### The runs of a compilation -/

/-- Which runs begin in a compilation, and where. -/
inductive Begins (documents : List Document) (w : World) : Task → World → Prop where
  /-- For the configuration of a source, once those in front of it have been declared. -/
  | source {before after : List Document} {d : Document} {c : Converted}
      {first rest : List DeclaredSource} {s : DeclaredSource} {rs : List (String × Value)}
      {w₁ w₂ : World} (place : documents = before ++ d :: after)
      (earlier : (roots before).exec w = (some (.ok rs), w₁)) (converts : d.convert = .ok c)
      (sources : c.sources = first ++ s :: rest)
      (declared : (first.forM (declareSource d.file)).exec w₁ = (some (.ok ()), w₂)) :
      Begins documents w (.ofMap s.config) w₂
  /-- For the root of a document, once all sources are declared and the roots in front of it
  have been resolved. -/
  | root {front back : List (String × Value)} {file : String} {root : Value}
      {ls : List Fields} {w₁ w₂ : World}
      (declared : (roots documents).exec w = (some (.ok (front ++ (file, root) :: back)), w₁))
      (resolved : (layers front).exec w₁ = (some (.ok ls), w₂)) :
      Begins documents w (.ofValue root) w₂

/-- Every run of a compilation begins where nothing is under way. -/
theorem Begins.fit {documents : List Document} {t : Task} (begins : Begins documents w t w')
    (idle : w.IsIdle) : t.Fit w'.resolver.policy.isParallel w' := by
  cases begins with
  | source place earlier converts sources declared =>
    have idle₁ := (completes_roots idle _).of_exec earlier
    have idle₂ := (completes_sources idle₁ _ _).of_exec declared
    exact idle₂.fit_ofMap _ _
  | root declared resolved =>
    have idle₁ := (completes_roots idle _).of_exec declared
    have idle₂ := (completes_layers idle₁ _).of_exec resolved
    exact idle₂.fit _ (.ofValue _)

end Compiling

/-- Every compilation comes to a result. -/
theorem compile_ends (types : Assoc ProviderType) (options : CompileOptions)
    (documents : List Document) (w : World) :
    ∃ result, (compile types options documents w).1 = some result := by
  obtain ⟨result, w', ran, -⟩ :=
    Compiling.completes_values (Compiling.agrees_prepare w types options).idle documents
  rw [Compiling.compile_of_exec ran]
  exact ⟨_, rfl⟩

/-- No run is ever stuck, and none of those of a compilation: in whatever order references move,
they never wait only for each other, and as long as a run is not over, something can move at
once or a call of a provider is under way. So every run and every compilation comes to a
result. -/
theorem no_deadlock :
    (∀ (w : World) (v : Value), w.IsIdle →
      (Task.ofValue v).RunsFreely w.resolver.policy.isParallel w ∧
        ∃ result, (w.resolve v).1 = some result) ∧
    (∀ (types : Assoc ProviderType) (options : CompileOptions) (documents : List Document)
        (w : World),
      (∀ t w', Compiling.Begins documents (w.prepare types options) t w' →
        t.RunsFreely w'.resolver.policy.isParallel w') ∧
      ∃ result, (compile types options documents w).1 = some result) := by
  constructor
  · intro w v idle
    have fit := idle.fit w.resolver.policy.isParallel (.ofValue v)
    obtain ⟨x, w', ran, -⟩ := World.runTask_idle fit
    exact ⟨fit.runsFreely, x, by rw [World.resolve, ran]⟩
  · intro types options documents w
    refine ⟨fun t w' begins => ?_, compile_ends types options documents w⟩
    exact (begins.fit (Compiling.agrees_prepare w types options).idle).runsFreely

/-- More data than two permits allow to be fetched at once, some of it wanted twice. -/
def crowded : Value :=
  .list [.reference { «alias» := "app", path := ["a"] },
    .reference { «alias» := "app", path := ["b"] }, .reference { «alias» := "app", path := ["c"] },
    .reference { «alias» := "app", path := ["a"] }]

/-- A resolver with two permits, and a provider that takes its time. -/
def twoPermits : World :=
  { registry := .only [] "app" (.echo 5), resolver := { policy := { maxConcurrent := 2 } } }

/-- While two fetches are under way, the third reference waits for a permit and the last one for
the first. -/
theorem no_deadlock_crowded :
    (∃ t w, Task.Steps true (.ofValue crowded) twoPermits t w ∧ t.isReady true w [] = false ∧
        (∃ s ∈ t.sites true [], s.IsAtWork w) ∧ NoDeadlock (t.sites true []) w) ∧
      (∃ result, (twoPermits.resolve crowded).1 = some result) ∧
      (∃ t w, Compiling.Begins sharedSource
        (World.prepare {} [("echo", .echo 5)] { maxConcurrent := 0 }) t w ∧
        t.isOver = false ∧ t.RunsFreely w.resolver.policy.isParallel w) ∧
      ∃ result, (compile [("echo", .echo 5)] { maxConcurrent := 0 } sharedSource {}).1
        = some result := by
  obtain ⟨resolves, compiles⟩ := no_deadlock
  obtain ⟨freely, ends⟩ := resolves twoPermits crowded ⟨rfl, rfl, rfl, rfl⟩
  obtain ⟨all, ends'⟩ := compiles [("echo", .echo 5)] { maxConcurrent := 0 } sharedSource {}
  refine ⟨?_, ends, ?_, ends'⟩
  · obtain ⟨t, w, step⟩ : ∃ t w, (Task.ofValue crowded).step? true twoPermits = some (t, w) :=
      ⟨_, _, rfl⟩
    have steps : Task.Steps true (.ofValue crowded) twoPermits t w := .next rfl step (.rest _ _)
    obtain ⟨runs, -⟩ := steps.runs_and_fit (World.IsIdle.fit ⟨rfl, rfl, rfl, rfl⟩ true (.ofValue _))
    have still : t.isReady true w [] = false := by
      cases step
      decide
    have isOpen : t.isOver = false := by
      cases step
      rfl
    exact ⟨t, w, steps, still,
      (freely.progress t w steps isOpen).resolve_left (Bool.eq_false_iff.mp still),
      freely.noDeadlock t w runs⟩
  · have declared : ∃ file root back w, (Compiling.roots sharedSource).exec
        (World.prepare {} [("echo", .echo 5)] { maxConcurrent := 0 })
          = (some (.ok ([] ++ (file, root) :: back)), w) ∧ (Task.ofValue root).isOver = false :=
      ⟨_, _, _, _, rfl, rfl⟩
    obtain ⟨file, root, back, w, declared, isOpen⟩ := declared
    have begins := Compiling.Begins.root declared rfl
    exact ⟨_, _, begins, isOpen, all _ _ begins⟩

end LayeredConfig

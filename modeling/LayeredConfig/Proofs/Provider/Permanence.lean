import LayeredConfig.Proofs.Provider.Traffic

/-!
An alias stands for one thing for good.

Whatever goes on at a registry, the first declaration or installation for an alias stays in
effect (`Traffic.BindsOnce`), at most one initialisation for it goes on at a time and
another one starts only where all before were left unfinished (`Traffic.InitsInTurn`),
and once there is an answer, it is the answer for ever, which nobody is called for any more
(`Traffic.Remembers`). `Traffic.permanent` says so of every state that any interleaving of
calls leads to, dropped and interrupted ones among them.
-/

namespace LayeredConfig

/-- What everybody is told who asks for the provider of an alias, once that is settled. -/
def Registry.answer? (g : Registry) (name : String) : Option (Except SetupError Provider) :=
  match Assoc.get? g.bindings name with
  | some (.installed p) => some (.ok p)
  | some (.declared _ _ built) => built
  | none => none

/-- An answer is told by a provider that is installed, or one whose building is over. -/
theorem Registry.bound_of_answer? {g : Registry} {name : String}
    {result : Except SetupError Provider} (answer : g.answer? name = some result) :
    (∃ p, Assoc.get? g.bindings name = some (.installed p) ∧ result = .ok p) ∨
      ∃ providerType config,
        Assoc.get? g.bindings name = some (.declared providerType config (some result)) := by
  unfold Registry.answer? at answer
  split at answer
  · rename_i p found
    cases answer
    exact .inl ⟨p, found, rfl⟩
  · rename_i providerType config built found
    subst answer
    exact .inr ⟨providerType, config, found⟩
  · cases answer

theorem Registry.Provides.answer? {g : Registry} {name : String} {p : Provider}
    (provides : g.Provides name p) : g.answer? name = some (.ok p) := by
  rcases provides with installed | ⟨providerType, config, built⟩
  · simp [Registry.answer?, installed]
  · simp [Registry.answer?, built]

theorem Registry.answer?_setBuilt {g : Registry} {name : String}
    (unbuilt : g.isUnbuilt name = true) (result : Except SetupError Provider) :
    (g.setBuilt name result).answer? name = some result := by
  obtain ⟨providerType, config, found⟩ := isUnbuilt_iff.mp unbuilt
  simp [Registry.answer?, Site.get?_setBuilt found result]

theorem isUnbuilt_of_isBuilt {g : Registry} {name : String} (built : g.isBuilt name = true) :
    g.isUnbuilt name = false := by
  obtain ⟨providerType, config, result, found⟩ := isBuilt_iff.mp built
  simp [Registry.isUnbuilt, found]

/-- What is settled is not to be built any more. -/
theorem Registry.not_isUnbuilt_of_answer? {g : Registry} {name : String}
    {result : Except SetupError Provider} (answer : g.answer? name = some result) :
    g.isUnbuilt name = false := by
  rcases Registry.bound_of_answer? answer with ⟨p, found, -⟩ | ⟨providerType, config, found⟩
  · simp [Registry.isUnbuilt, found]
  · simp [Registry.isUnbuilt, found]

/-- What is bound but not settled is yet to be built. -/
theorem Registry.isUnbuilt_of_not_answer? {g : Registry} {name : String} {b : Binding}
    (bound : Assoc.get? g.bindings name = some b) (unsettled : g.answer? name = none) :
    g.isUnbuilt name = true := by
  cases b with
  | installed p => simp [Registry.answer?, bound] at unsettled
  | declared providerType config built =>
    obtain rfl : built = none := by simpa [Registry.answer?, bound] using unsettled
    exact isUnbuilt_iff.mpr ⟨providerType, config, bound⟩

/-- An answer stays. -/
theorem World.Carries.answer? {w w' : World} (carries : w.Carries w') {name : String}
    {result : Except SetupError Provider} (answer : w.registry.answer? name = some result) :
    w'.registry.answer? name = some result := by
  rcases Registry.bound_of_answer? answer with ⟨p, found, rfl⟩ | ⟨providerType, config, found⟩
  · exact (carries.provides (.inl found)).answer?
  · obtain ⟨b, found, becomes⟩ := carries.bindings name _ found
    rw [becomes.finished] at found
    simp [Registry.answer?, found]

/-- Who asks for what is settled is told so, and changes nothing. -/
theorem World.obtainProvider_of_answer? {w : World} {name : String}
    {result : Except SetupError Provider} (answer : w.registry.answer? name = some result) :
    w.obtainProvider name = (result.map some, w) := by
  rcases Registry.bound_of_answer? answer with ⟨p, found, rfl⟩ | ⟨providerType, config, found⟩
  · simp only [World.obtainProvider, found]
    rfl
  · simp only [World.obtainProvider, found]

theorem Site.provide_of_answer? {r : Reference} {here : Address} {w : World}
    {result : Except SetupError Provider} (answer : w.registry.answer? r.alias = some result) :
    provide r here w = withProvider r here result w := by
  rcases Registry.bound_of_answer? answer with ⟨p, found, rfl⟩ | ⟨providerType, config, found⟩
  · simp only [provide, found]
    rfl
  · simp only [provide, found]

namespace Traffic

/-- How many initialisations for an alias have started. -/
def inits (t : Traffic) (name : String) : Nat := t.world.trace.inits name

/-! ### What is said of an alias -/

/-- The first to bind an alias binds it for good, and nobody else changes anything. -/
structure BindsOnce (t : Traffic) (name : String) : Prop where
  /-- A declaration is refused for an unknown type and for an alias that is taken. -/
  register_refused_iff : ∀ providerType config,
    (t.world.registry.register name providerType config).1 ≠ .ok true ↔
      (Assoc.get? t.world.registry.types providerType = none ∨
        Assoc.get? t.world.registry.bindings name ≠ none)
  register_refused : ∀ providerType config,
    (t.world.registry.register name providerType config).1 ≠ .ok true →
      (t.world.registry.register name providerType config).2 = t.world.registry
  registered : ∀ providerType config,
    (t.world.registry.register name providerType config).1 = .ok true →
      ∀ t', (t.withRegistry fun g => (g.register name providerType config).2).Reaches t' →
        ∃ built, Assoc.get? t'.world.registry.bindings name
          = some (.declared providerType config built)
  /-- An installation is refused for an alias that is taken. -/
  insert_refused_iff : ∀ p, (t.world.registry.insert name p).1 = false ↔
    Assoc.get? t.world.registry.bindings name ≠ none
  insert_refused : ∀ p, (t.world.registry.insert name p).1 = false →
    (t.world.registry.insert name p).2 = t.world.registry
  inserted : ∀ p, (t.world.registry.insert name p).1 = true →
    ∀ t', (t.withRegistry fun g => (g.insert name p).2).Reaches t' →
      Assoc.get? t'.world.registry.bindings name = some (.installed p)
  /-- All that may ever become of a binding is that a declared provider gets built. -/
  stays : ∀ b, Assoc.get? t.world.registry.bindings name = some b → ∀ t', t.Reaches t' →
    ∃ b', Assoc.get? t'.world.registry.bindings name = some b' ∧ b.Becomes b'

/-- Initialisations for an alias come one after the other, all from one declaration. -/
structure InitsInTurn (t : Traffic) (name : String) : Prop where
  one_at_a_time : t.building name ≤ 1
  /-- Every initialisation that has started was left unfinished, goes on, or has ended, which
  happens only once. -/
  accounted : t.inits name
    = t.abandoned.count name + t.building name + (t.world.registry.isBuilt name).toNat
  /-- An initialisation starts only if all before were left unfinished. -/
  starts : ∀ t', t.Step t' → t'.inits name ≠ t.inits name →
    t'.inits name = t.inits name + 1 ∧ t.inits name = t.abandoned.count name ∧
      t.building name = 0 ∧ t.world.registry.isUnbuilt name = true
  /-- It is given the configuration that the alias is declared with. -/
  declared : ∀ config time, .initStarted name config time ∈ t.world.trace →
    t.world.registry.Declares name config
  /-- What is to come of it is what its call comes to. -/
  called : ∀ s ∈ t.callers, s.reference.alias = name →
    ∀ wake outcome, s.stage = .building wake outcome → t.world.HasInit name outcome

/-- What an initialisation came to, or who was installed, is what everybody is told. -/
structure Remembers (t : Traffic) (name : String) : Prop where
  /-- A look at who builds the provider, when it is time and nothing interrupts, ends that. -/
  completes : ∀ here r wake outcome F, t.callers = ⟨here, r, .building wake outcome⟩ ::ₘ F →
    r.alias = name → wake ≤ t.world.now → t.world.interruption? = none →
      (Site.poll r here (.building wake outcome) t.world).2.registry.answer? name
        = some (outcome.mapError (.init name))
  /-- What is kept of a building is what the call of an initialisation came to. -/
  came : ∀ providerType config result,
    Assoc.get? t.world.registry.bindings name
        = some (.declared providerType config (some result)) →
      ∃ outcome, t.world.HasInit name outcome ∧ result = outcome.mapError (.init name)
  /-- Who has been given a provider has the one that everybody is given. -/
  shared : ∀ s ∈ t.callers, s.reference.alias = name → ∀ p,
    s.stage = .awaitingOutcome p ∨ s.stage = .queued p →
      t.world.registry.answer? name = some (.ok p)
  /-- Asking outside a run for what is bound settles the answer, if it was not settled. -/
  settles : ∀ b, Assoc.get? t.world.registry.bindings name = some b →
    ∃ result, (t.world.obtainProvider name).1 = result.map some ∧
      (t.world.obtainProvider name).2.registry.answer? name = some result
  /-- Once it is settled, everybody is told the same for ever, and no provider is called. -/
  answered : ∀ result, t.world.registry.answer? name = some result → ∀ t', t.Reaches t' →
    t'.world.registry.answer? name = some result ∧ t'.inits name = t.inits name ∧
      t'.building name = 0 ∧
      t'.world.obtainProvider name = (result.map some, t'.world) ∧
      ∀ r here, r.alias = name →
        Site.provide r here t'.world = Site.withProvider r here result t'.world

/-! ### Why it holds -/

namespace Sound

variable {t t' : Traffic} {name : String}

theorem bindsOnce (sound : t.Sound) (name : String) : t.BindsOnce name where
  register_refused_iff providerType config := by
    rcases Registry.register_cases t.world.registry name providerType config with
      ⟨type, known, free, same⟩ | ⟨why, refused, -⟩
    · simp [same, known, free]
    · refine ⟨fun _ => why, fun _ accepted => ?_⟩
      cases refused _ accepted
  register_refused providerType config refused := by
    rcases Registry.register_cases t.world.registry name providerType config with
      ⟨type, known, free, same⟩ | ⟨-, -, same⟩
    · rw [same] at refused
      exact absurd rfl refused
    · exact same
  registered providerType config accepted t' reaches := by
    rcases Registry.register_cases t.world.registry name providerType config with
      ⟨type, known, free, same⟩ | ⟨-, refused, -⟩
    · have after : Sound (t.withRegistry fun g => (g.register name providerType config).2) :=
        sound.step (.register t name providerType config)
      have bound : Assoc.get? (t.withRegistry fun g =>
          (g.register name providerType config).2).world.registry.bindings name
            = some (.declared providerType config none) := by
        simp [withRegistry, same, Registry.get?_bind]
      obtain ⟨b, bound, becomes⟩ := (reaches.carries after).bindings name _ bound
      obtain ⟨built, rfl⟩ := becomes.declared
      exact ⟨built, bound⟩
    · cases refused _ accepted
  insert_refused_iff p := by
    rcases Registry.insert_cases t.world.registry name p with ⟨free, same⟩ | ⟨taken, same⟩
    · simp [same, free]
    · simp [same, taken]
  insert_refused p refused := by
    rcases Registry.insert_cases t.world.registry name p with ⟨free, same⟩ | ⟨taken, same⟩
    · rw [same] at refused
      cases refused
    · rw [same]
  inserted p accepted t' reaches := by
    rcases Registry.insert_cases t.world.registry name p with ⟨free, same⟩ | ⟨taken, same⟩
    · have after : Sound (t.withRegistry fun g => (g.insert name p).2) :=
        sound.step (.install t name p)
      have bound : Assoc.get? (t.withRegistry fun g =>
          (g.insert name p).2).world.registry.bindings name = some (.installed p) := by
        simp [withRegistry, same, Registry.get?_bind]
      obtain ⟨b, bound, becomes⟩ := (reaches.carries after).bindings name _ bound
      rw [bound, becomes.installed]
    · rw [same] at accepted
      cases accepted
  stays b bound t' reaches := (reaches.carries sound).bindings name b bound

/-- An initialisation starts only where the provider is to be built, nobody builds it, and all
that have started before were left unfinished. -/
theorem starts (sound : t.Sound) (step : t.Step t') (changed : t'.inits name ≠ t.inits name) :
    t'.inits name = t.inits name + 1 ∧ t.building name = 0 ∧
      t.world.registry.isUnbuilt name = true := by
  -- After the step one reference at most builds the provider, and none does once it is built.
  -- So where one has just begun, or is done already, nobody did before.
  have after := sound.step step
  have once := after.balanced.buildingCount_le_one name
  have closed : t'.world.registry.isBuilt name = true → buildingCount t'.callers name = 0 :=
    fun built => after.balanced.buildingCount_eq_zero (isUnbuilt_of_isBuilt built)
  cases step with
  | @look here r stage F there =>
    have seen := Site.poll_look (sound.truthful.known r.alias) here stage
    obtain ⟨rfl, unbuilt, idle, one, busy⟩ := seen.starts changed
    refine ⟨one, ?_, unbuilt⟩
    simp only [building, there, buildingCount_cons, idle]
    simp only [look, buildingCount_among] at once closed
    rcases busy with building | built
    · simp only [building] at once
      simpa using once
    · have none := closed built
      simp only [Bool.false_eq_true, false_and, if_false]
      omega
  | obtain name' nobody =>
    rcases World.obtainProvider_cases sound.truthful name' with ⟨-, same⟩ | ⟨-, builds, -⟩
    · simp only [inits, same] at changed
      exact absurd rfl changed
    · have counted := builds.inits name
      by_cases same : name' = name
      · subst same
        have done := builds.isBuilt name'
        exact ⟨by simpa [inits] using counted, closed (by simpa using done), builds.isUnbuilt⟩
      · rw [if_neg same] at counted
        exact absurd counted changed
  | ask p name' path =>
    exact absurd ((World.fetch_calm t.world p name' path).1.inits name) changed
  | drop there => exact absurd ((Site.release_calm _ _ _ _).inits name) changed
  | warn e => exact absurd ((World.Calm.log t.world rfl).inits name) changed
  | _ => exact absurd rfl changed

theorem initsInTurn (sound : t.Sound) (name : String) : t.InitsInTurn name where
  one_at_a_time := sound.balanced.buildingCount_le_one name
  accounted := sound.ledger name
  starts t' step changed := by
    obtain ⟨one, idle, unbuilt⟩ := sound.starts step changed
    have before := sound.ledger name
    rw [idle, isBuilt_of_isUnbuilt unbuilt] at before
    exact ⟨one, by simpa [inits] using before, idle, unbuilt⟩
  declared := sound.truthful.started name
  called s hs same wake outcome building := by
    have attested := sound.attested s hs
    obtain ⟨here, r, stage⟩ := s
    obtain rfl : stage = .building wake outcome := building
    exact same ▸ attested

/-- Once the answer is there, nobody builds and no initialisation starts. -/
theorem answered (sound : t.Sound) {result : Except SetupError Provider}
    (answer : t.world.registry.answer? name = some result) (reaches : t.Reaches t') :
    t'.world.registry.answer? name = some result ∧ t'.inits name = t.inits name ∧
      t'.building name = 0 := by
  have lasts : t'.world.registry.answer? name = some result :=
    (reaches.carries sound).answer? answer
  refine ⟨lasts, ?_, (reaches.sound sound).balanced.buildingCount_eq_zero
    (Registry.not_isUnbuilt_of_answer? lasts)⟩
  clear lasts
  -- The answer is there before each step of the run, so none of them starts anything.
  induction reaches with
  | refl => rfl
  | tail reaches step ih =>
    have there : Sound _ := Reaches.sound reaches sound
    have carries : World.Carries _ _ := Reaches.carries reaches sound
    have settled := Registry.not_isUnbuilt_of_answer? (carries.answer? answer)
    by_contra changed
    obtain ⟨-, -, unbuilt⟩ := there.starts step (ih ▸ changed)
    rw [settled] at unbuilt
    cases unbuilt

theorem remembers (sound : t.Sound) (name : String) : t.Remembers name where
  completes here r wake outcome F there same due live := by
    subst same
    have balanced : Balanced (⟨here, r, .building wake outcome⟩ ::ₘ F) t.world :=
      there ▸ sound.balanced
    have ended := (Site.poll_due r here due live outcome).1
    exact (World.Carries.of_calm ended).answer?
      (Registry.answer?_setBuilt (balanced.builder_atWork rfl).1 _)
  came := sound.truthful.finished name
  shared s hs same p holds := by
    have attested := sound.attested s hs
    obtain ⟨here, r, stage⟩ := s
    subst same
    rcases holds with rfl | rfl
    · exact Registry.Provides.answer? attested
    · exact Registry.Provides.answer? attested
  settles b bound := by
    cases settled : t.world.registry.answer? name with
    | some result =>
      rw [World.obtainProvider_of_answer? settled]
      exact ⟨result, rfl, settled⟩
    | none =>
      rcases World.obtainProvider_cases sound.truthful name with
        ⟨done, -⟩ | ⟨unbuilt, -, ⟨result, told, registry⟩, -⟩
      · rw [Registry.isUnbuilt_of_not_answer? bound settled] at done
        cases done
      · exact ⟨result, told, registry ▸ Registry.answer?_setBuilt unbuilt result⟩
  answered result answer t' reaches := by
    obtain ⟨lasts, inits, building⟩ := sound.answered answer reaches
    refine ⟨lasts, inits, building, World.obtainProvider_of_answer? lasts, ?_⟩
    rintro r here rfl
    exact Site.provide_of_answer? lasts

end Sound

/-- An alias stands for one thing for good, whatever is done to its registry. -/
theorem permanent {types : Assoc ProviderType} {policy : Policy} {t : Traffic}
    (reached : (opening types policy).Reaches t) (name : String) :
    t.BindsOnce name ∧ t.InitsInTurn name ∧ t.Remembers name := by
  have sound : t.Sound := reached.sound (sound_opening types policy)
  exact ⟨sound.bindsOnce name, sound.initsInTurn name, sound.remembers name⟩

/-! ### A provider that is dropped while it is built -/

/-- Providers that take a while to initialise. -/
def slowly : ProviderType where
  init _ _ _ := { delay := 5, outcome := .ok { fetch := fun _ _ => { outcome := .ok .null } } }

def network : Reference := { «alias» := "net", path := ["vpc"] }

/-- Somebody new asks for a provider of the network, and begins to build it. -/
def begun (t : Traffic) : Traffic :=
  { t with callers := ⟨[], network, .fresh⟩ ::ₘ t.callers }.look [] network .fresh t.callers

def declared : Traffic :=
  (opening [("slow", slowly)] {}).withRegistry fun g => (g.register "net" "slow" []).2

/-- The first initialisation is dropped, and a second one begun. -/
def resumed : Traffic :=
  begun ((begun declared).drop [] network (.building 5 (slowly.init [] "net" []).outcome) 0)

/-- The second one ends. -/
def finished : Traffic :=
  { resumed with world.now := 5 }.look [] network
    (.building 5 (slowly.init [] "net" []).outcome) 0

theorem permanent_finished : (opening [("slow", slowly)] {}).Reaches finished ∧
    finished.abandoned = ["net"] ∧ finished.inits "net" = 2 ∧
    ∀ t', finished.Reaches t' → t'.inits "net" = 2 ∧ t'.building "net" = 0 := by
  have reached : (opening [("slow", slowly)] {}).Reaches finished := by
    have begins : ∀ t : Traffic, t.callers = 0 → t.Reaches (begun t) := by
      intro t empty
      refine (Relation.ReflTransGen.single (Step.call t [] network ?_)).tail (.look _ rfl)
      simp [empty]
    have dropped : (begun declared).Reaches
        ((begun declared).drop [] network (.building 5 (slowly.init [] "net" []).outcome) 0) :=
      .single (.drop _ rfl)
    have finishes : resumed.Reaches finished :=
      (Relation.ReflTransGen.single (Step.pass resumed 5 (by decide))).tail (.look _ rfl)
    exact (((Relation.ReflTransGen.single (.register _ "net" "slow" [])).trans
      (begins declared rfl)).trans dropped).trans ((begins _ rfl).trans finishes)
  refine ⟨reached, rfl, rfl, fun t' reaches => ?_⟩
  obtain ⟨-, -, remembers⟩ := permanent reached "net"
  obtain ⟨-, inits, building, -⟩ := remembers.answered _ rfl t' reaches
  exact ⟨inits, building⟩

end Traffic

end LayeredConfig

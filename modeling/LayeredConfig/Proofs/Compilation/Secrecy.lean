import LayeredConfig.Proofs.Compilation.Progress
import LayeredConfig.Proofs.Document.Masking
import LayeredConfig.Proofs.Resolution.Lockstep

/-!
# What redaction hides

Take two lists of documents that differ in nothing but literals beneath secret marks. Each part
of a compilation does the same to the world for both (`Compiling.Lockstep`), so both compilations
fail, or both yield snapshots that look the same once they are redacted
(`compile_redacted`).
-/

namespace LayeredConfig

namespace Compiling

variable {α β : Type}

/-- Two outcomes of a part of a compilation: neither has a result, both have failed, or both have
results that are related. -/
inductive Alike (R : α → α → Prop) :
    Option (Except CompileError α) → Option (Except CompileError α) → Prop where
  | stuck : Alike R none none
  | failed (e e' : CompileError) : Alike R (some (.error e)) (some (.error e'))
  | done {a a' : α} (related : R a a') : Alike R (some (.ok a)) (some (.ok a'))

/-- Two parts of a compilation do the same to every world, and come to outcomes that are alike. -/
def Lockstep (R : α → α → Prop) (x x' : Compiling α) : Prop :=
  ∀ w, Alike R (x.exec w).1 (x'.exec w).1 ∧ (x.exec w).2 = (x'.exec w).2

variable {R : α → α → Prop} {S : β → β → Prop}

theorem Lockstep.refl (x : Compiling α) : Lockstep Eq x x := by
  intro w
  refine ⟨?_, rfl⟩
  rcases (x.exec w).1 with _ | _ | _
  · exact .stuck
  · exact .failed _ _
  · exact .done rfl

theorem Lockstep.pure {a a' : α} (related : R a a') :
    Lockstep R (Pure.pure a) (Pure.pure a') :=
  fun _ => ⟨.done related, rfl⟩

/-- What follows related results in lockstep follows in lockstep. -/
theorem Lockstep.bind {x x' : Compiling α} {f f' : α → Compiling β} (first : Lockstep R x x')
    (next : ∀ a a', R a a' → Lockstep S (f a) (f' a')) : Lockstep S (x >>= f) (x' >>= f') := by
  intro w
  obtain ⟨alike, same⟩ := first w
  rw [exec_bind, exec_bind]
  generalize x.exec w = reached at alike same ⊢
  generalize x'.exec w = reached' at alike same ⊢
  obtain ⟨result, v⟩ := reached
  obtain ⟨result', v'⟩ := reached'
  obtain rfl : v = v' := same
  cases alike with
  | stuck => exact ⟨.stuck, rfl⟩
  | failed e e' => exact ⟨.failed e e', rfl⟩
  | done related => exact next _ _ related v

theorem Lockstep.ofExcept {r r' : Except CompileError α}
    (alike : Alike R (some r) (some r')) : Lockstep R (ofExcept r) (ofExcept r') :=
  fun _ => ⟨alike, rfl⟩

/-! ### Parts of a compilation -/

/-- Fields that differ in nothing but scalars beneath secrets. -/
def SameFields (fields fields' : Fields) : Prop :=
  Assoc.mapValues (Value.mask false) fields = Assoc.mapValues (Value.mask false) fields'

/-- Such fields look the same once they are redacted. -/
theorem SameFields.redact_eq {m m' : Fields} (same : SameFields m m') :
    (Value.map m).redact = (Value.map m').redact := by
  refine eq_of_mask_eq Value.redact_mask ?_
  rw [Value.mask_map, Value.mask_map]
  exact congrArg Value.map same

/-- Roots that differ in nothing but scalars beneath secrets are resolved in lockstep. -/
theorem lockstep_resolve (file : String) {v v' : Value} (same : v.mask false = v'.mask false) :
    Lockstep SameFields (fields file (·.resolve v)) (fields file (·.resolve v')) := by
  intro w
  obtain ⟨x, x', w', ran, ran', seen⟩ := World.resolve_blind same w
  have exec : ∀ v : Value, (fields file (·.resolve v)).exec w
      = ((w.resolve v).1.map fun r => (r.mapError (.resolution file)).map (·.asMap?.getD []),
        (w.resolve v).2) := fun v => rfl
  rw [exec, exec, ran, ran']
  refine ⟨?_, rfl⟩
  rcases x with _ | e | v <;> rcases x' with _ | e' | v'
  · exact .stuck
  · cases seen
  · cases seen
  · cases seen
  · exact .failed _ _
  · cases seen
  · cases seen
  · cases seen
  · have masked : v.mask false = v'.mask false := Option.some.inj (Option.some.inj seen)
    refine .done ?_
    have plain : ∀ v : Value, Assoc.mapValues (Value.mask false) (v.asMap?.getD [])
        = (v.mask false).asMap?.getD [] := by
      intro v
      rw [Value.asMap?_mask]
      cases v.asMap? <;> rfl
    show Assoc.mapValues _ _ = Assoc.mapValues _ _
    rw [plain, masked, plain]

/-- The files and roots that the first pass leaves, with the scalars beneath secrets blanked. -/
def maskRoots (roots : List (String × Value)) : List (String × Value) :=
  Assoc.mapValues (Value.mask false) roots

/-- The first pass over documents that differ in nothing but literals beneath secret marks. -/
theorem lockstep_roots {documents documents' : List Document}
    (same : documents.map Document.mask = documents'.map Document.mask) :
    Lockstep (fun r r' => maskRoots r = maskRoots r') (roots documents) (roots documents') := by
  induction documents generalizing documents' with
  | nil =>
    obtain rfl := List.map_eq_nil_iff.mp same.symm
    exact .pure rfl
  | cons d rest ih =>
    obtain ⟨d', rest', rfl, first, others⟩ := List.map_eq_cons_iff.mp same.symm
    have file : d.file = d'.file := by rw [← d.file_mask, ← first, d'.file_mask]
    have converted : d.convert.map Converted.mask = d'.convert.map Converted.mask := by
      rw [← d.convert_mask, ← first, d'.convert_mask]
    rw [roots, roots, file]
    refine (Lockstep.ofExcept (R := fun c c' => c.mask = c'.mask) ?_).bind ?_
    · cases here : d.convert with
      | error e =>
        cases here' : d'.convert with
        | error e' => exact .failed _ _
        | ok c' => rw [here, here'] at converted; cases converted
      | ok c =>
        cases here' : d'.convert with
        | error e' => rw [here, here'] at converted; cases converted
        | ok c' =>
          rw [here, here'] at converted
          exact .done (Except.ok.inj converted)
    · intro c c' masked
      obtain ⟨root, sources⟩ : c.root.mask false = c'.root.mask false ∧ c.sources = c'.sources :=
        Converted.mk.inj masked
      rw [sources]
      -- The sources are the same, so declaring them is.
      refine (Lockstep.refl _).bind fun _ _ _ => (ih others.symm).bind fun r r' left => .pure ?_
      simp only [maskRoots, Assoc.mapValues, List.map_cons, root] at left ⊢
      rw [left]

/-- The second pass over roots that differ in nothing but scalars beneath secrets. -/
theorem lockstep_layers {roots roots' : List (String × Value)}
    (same : maskRoots roots = maskRoots roots') :
    Lockstep (fun layers layers' => layers.map (Assoc.mapValues (Value.mask false))
        = layers'.map (Assoc.mapValues (Value.mask false))) (layers roots) (layers roots') := by
  induction roots generalizing roots' with
  | nil =>
    obtain rfl := List.map_eq_nil_iff.mp same.symm
    exact .pure rfl
  | cons p rest ih =>
    obtain ⟨p', rest', rfl, first, others⟩ := List.map_eq_cons_iff.mp same.symm
    obtain ⟨file, root⟩ := p
    obtain ⟨file', root'⟩ := p'
    obtain ⟨rfl, root⟩ := Prod.mk.inj first
    rw [layers, layers]
    refine (lockstep_resolve _ root.symm).bind fun layer layer' here =>
      (ih others.symm).bind fun left left' there => .pure ?_
    rw [List.map_cons, List.map_cons, there, show Assoc.mapValues _ layer = _ from here]

/-- Both passes. -/
theorem lockstep_values {documents documents' : List Document}
    (same : documents.map Document.mask = documents'.map Document.mask) :
    Lockstep SameFields (values documents) (values documents') := by
  refine (lockstep_roots same).bind fun r r' roots => (lockstep_layers roots).bind
    fun layers layers' same => .pure ?_
  show Assoc.mapValues _ _ = Assoc.mapValues _ _
  rw [← mergeLayers_mask, same, mergeLayers_mask]

end Compiling

/-! ### What is seen of the results -/

/-- The warnings are read off the world, which is the same after both compilations. -/
theorem redacted_compile (types : Assoc ProviderType) (options : CompileOptions)
    {documents documents' : List Document} (w : World)
    (same : documents.map Document.mask = documents'.map Document.mask) :
    ∃ x x' w', compile types options documents w = (some x, w') ∧
      compile types options documents' w = (some x', w') ∧
      (x.toOption.map fun s => (s.redacted, s.warnings))
        = x'.toOption.map fun s => (s.redacted, s.warnings) := by
  obtain ⟨alike, worlds⟩ := Compiling.lockstep_values same (w.prepare types options)
  obtain ⟨x, ended⟩ := compile_ends types options documents w
  generalize ran : (Compiling.values documents).exec (w.prepare types options) = reached
    at alike worlds
  generalize ran' : (Compiling.values documents').exec (w.prepare types options) = reached'
    at alike worlds
  obtain ⟨y, v⟩ := reached
  obtain ⟨y', v'⟩ := reached'
  obtain rfl : v = v' := worlds
  have compiled := Compiling.compile_of_exec ran
  have compiled' := Compiling.compile_of_exec ran'
  cases alike with
  | stuck =>
    rw [compiled] at ended
    cases ended
  | failed e e' => exact ⟨_, _, v, compiled, compiled', rfl⟩
  | done related =>
    exact ⟨_, _, v, compiled, compiled', congrArg some (Prod.ext related.redact_eq rfl)⟩

theorem World.redact_resolve (w : World) {v v' : Value} (same : v.mask false = v'.mask false) :
    (w.resolve v).2 = (w.resolve v').2 ∧
      ((w.resolve v).1.map fun x => x.toOption.map Value.redact)
        = (w.resolve v').1.map fun x => x.toOption.map Value.redact := by
  obtain ⟨x, x', w', ran, ran', seen⟩ := World.resolve_blind same w
  have hides : (fun x : Except ResolveError Value => x.toOption.map Value.redact)
      = Option.map Value.redact ∘ Task.seen false := by
    funext x
    simp only [Task.seen, Function.comp_apply, Option.map_map]
    congr 1
    funext u
    exact u.redact_mask.symm
  rw [ran, ran', hides, ← Option.map_map, seen, Option.map_map]
  exact ⟨rfl, rfl⟩

theorem redact_compose {σ : Type} (resolve : Reference → Composing σ Fields)
    {entries entries' : List (Entry Value)}
    (same : entries.map (Entry.map (Value.mask false))
      = entries'.map (Entry.map (Value.mask false)))
    (s : σ) : ((compose resolve entries).outcome s).2 = ((compose resolve entries').outcome s).2 ∧
      (((compose resolve entries).outcome s).1.toOption.map fun m => (Value.map m).redact)
        = ((compose resolve entries').outcome s).1.toOption.map fun m => (Value.map m).redact := by
  have composed := compose_seen resolve entries false s
  rw [same, compose_seen] at composed
  obtain ⟨fields, states⟩ := Prod.mk.inj composed
  refine ⟨states.symm, ?_⟩
  generalize ((compose resolve entries).outcome s).1.toOption = x at fields ⊢
  generalize ((compose resolve entries').outcome s).1.toOption = x' at fields ⊢
  cases x with
  | none =>
    obtain rfl : x' = none := Option.map_eq_none_iff.mp fields
    rfl
  | some m =>
    obtain ⟨m', rfl, related⟩ := Option.map_eq_some_iff.mp fields
    exact congrArg some (Compiling.SameFields.redact_eq related.symm)

theorem redact_mergeLayers {layers layers' : List Fields}
    (same : layers.map (Assoc.mapValues (Value.mask false))
      = layers'.map (Assoc.mapValues (Value.mask false))) :
    (Value.map (mergeLayers layers)).redact = (Value.map (mergeLayers layers')).redact := by
  apply Compiling.SameFields.redact_eq
  rw [Compiling.SameFields, ← mergeLayers_mask, same, mergeLayers_mask]

/-- Redaction hides secrets from end to end. Two compilations of documents that differ in nothing
but literals beneath secret marks do the same to the world; both fail, or both yield a snapshot,
and then the two look the same redacted, and have the same warnings. Values that differ in nothing
but scalars beneath secrets are resolved, composed (whoever resolves the references) and merged to
values that look the same redacted. -/
theorem compile_redacted (types : Assoc ProviderType) (options : CompileOptions)
    (documents documents' : List Document) (w : World)
    (same : documents.map Document.mask = documents'.map Document.mask) :
    (∃ x x' w', compile types options documents w = (some x, w') ∧
      compile types options documents' w = (some x', w') ∧
      (x.toOption.map fun s => (s.redacted, s.warnings))
        = x'.toOption.map fun s => (s.redacted, s.warnings)) ∧
    (∀ v v' : Value, v.mask false = v'.mask false →
      (w.resolve v).2 = (w.resolve v').2 ∧
        ((w.resolve v).1.map fun x => x.toOption.map Value.redact)
          = (w.resolve v').1.map fun x => x.toOption.map Value.redact) ∧
    (∀ (σ : Type) (resolve : Reference → Composing σ Fields)
        (entries entries' : List (Entry Value)),
      entries.map (Entry.map (Value.mask false)) = entries'.map (Entry.map (Value.mask false)) →
        ∀ s, ((compose resolve entries).outcome s).2 = ((compose resolve entries').outcome s).2 ∧
          (((compose resolve entries).outcome s).1.toOption.map fun m => (Value.map m).redact)
            = ((compose resolve entries').outcome s).1.toOption.map
              fun m => (Value.map m).redact) ∧
    ∀ layers layers' : List Fields, layers.map (Assoc.mapValues (Value.mask false))
        = layers'.map (Assoc.mapValues (Value.mask false)) →
      (Value.map (mergeLayers layers)).redact = (Value.map (mergeLayers layers')).redact :=
  ⟨redacted_compile types options w same, fun _ _ => w.redact_resolve,
    fun _ resolve _ _ => redact_compose resolve, fun _ _ => redact_mergeLayers⟩

/-- A key beneath secret marks, in a section and in a spread at top level, and data that nobody
has. -/
def credentials (key : String) : List Document :=
  [{ statements := [
      .define "vault" (.block [
        { key := some "key", value := some (.secret {} (.atom {} (.string key))) }]) {},
      .spread (.secret {} (.map {} [
        { key := some "token", value := some (.list {} [.atom {} (.string key)]) }])) {},
      .spread (.atom {} (.reference "gone" ["a"])) {}] }]

/-- A key in plain fields. -/
def lockedFields (key : String) : Fields := [("key", .secret (.string key)), ("size", .null)]

/-- Different keys make different snapshots, which redacted are the same and warn alike; and what is
resolved, composed or merged from them is redacted to the same. -/
theorem compile_redacted_credentials :
    (credentials "rose").map Document.mask = (credentials "tulip").map Document.mask ∧
    (∃ s s', (compile [] { allowMissing := true } (credentials "rose") {}).1 = some (.ok s) ∧
      (compile [] { allowMissing := true } (credentials "tulip") {}).1 = some (.ok s') ∧
      Assoc.get? s.values "token" = some (.secret (.list [.string "rose"])) ∧
      Assoc.get? s'.values "token" = some (.secret (.list [.string "tulip"])) ∧
      s.warnings.length = 1 ∧ s.redacted = s'.redacted ∧ s.warnings = s'.warnings) ∧
    ((World.resolve {} (.map (lockedFields "rose"))).1.map fun x => x.toOption.map Value.redact)
      = ((World.resolve {} (.map (lockedFields "tulip"))).1.map
        fun x => x.toOption.map Value.redact) ∧
    (((compose rejectReference [⟨none, .secret (.map (lockedFields "rose")), {}⟩]).outcome
        ()).1.toOption.map fun m => (Value.map m).redact)
      = (((compose rejectReference [⟨none, .secret (.map (lockedFields "tulip")), {}⟩]).outcome
        ()).1.toOption.map fun m => (Value.map m).redact) ∧
    (Value.map (mergeLayers [lockedFields "rose", [("size", .string "s")]])).redact
      = (Value.map (mergeLayers [lockedFields "tulip", [("size", .string "s")]])).redact := by
  have same : (credentials "rose").map Document.mask = (credentials "tulip").map Document.mask := by
    rfl
  obtain ⟨⟨x, x', w', ran, ran', alike⟩, resolved, composed, merged⟩ :=
    compile_redacted [] { allowMissing := true } _ _ {} same
  obtain ⟨s, ended, token, one⟩ : ∃ s,
      (compile [] { allowMissing := true } (credentials "rose") {}).1 = some (.ok s) ∧
        Assoc.get? s.values "token" = some (.secret (.list [.string "rose"])) ∧
        s.warnings.length = 1 := ⟨_, rfl, rfl, rfl⟩
  obtain ⟨s', ended', token'⟩ : ∃ s',
      (compile [] { allowMissing := true } (credentials "tulip") {}).1 = some (.ok s') ∧
        Assoc.get? s'.values "token" = some (.secret (.list [.string "tulip"])) := ⟨_, rfl, rfl⟩
  rw [ran] at ended
  rw [ran'] at ended'
  obtain rfl : x = .ok s := Option.some.inj ended
  obtain rfl : x' = .ok s' := Option.some.inj ended'
  obtain ⟨redacted, warnings⟩ := Prod.mk.inj (Option.some.inj alike)
  refine ⟨same, ⟨s, s', by rw [ran], by rw [ran'], token, token', one, redacted, warnings⟩,
    (resolved _ _ ?_).2, (composed Unit rejectReference _ _ ?_ ()).2, merged _ _ ?_⟩
  all_goals rfl

end LayeredConfig

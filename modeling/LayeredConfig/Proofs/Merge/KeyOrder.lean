import LayeredConfig.Proofs.Merge.Algebra
import LayeredConfig.Proofs.Merge.Composition
import LayeredConfig.Proofs.Value.KeyOrder

/-!
# The order of keys carries no meaning

Merging and composing go through maps in the order of their keys and move keys about. But what
is found under a key in the end depends only on what was found under that key before, so alike
layers merge to alike maps (`mergeLayer_alike`) and alike entries compose to alike maps, after
the same questions to the caller, or fail for the same reason (`compose_alike`). Together with
what holds of paths, wildcards and redaction, this is `alike_preserved`.
-/

namespace LayeredConfig

/-- Plain maps that differ in nothing but the order of keys, at any depth. -/
def Fields.Alike (m n : Fields) : Prop := (Value.map m).Alike (.map n)

/-! ### Layers -/

theorem Value.Alike.asMap?_eq_none {v v' : Value} (alike : v.Alike v') (other : v.asMap? = none) :
    v'.asMap? = none := by
  cases alike with
  | map => cases other
  | _ => rfl

/-- Alike values over alike values come to alike values: what merges, merges in both. -/
theorem Value.Alike.over {v v' lower lower' : Value} (above : v.Alike v')
    (below : lower.Alike lower') : (lower.over v).Alike (lower'.over v') := by
  induction above using induct generalizing lower lower' with
  | map overlay overlay' whole found =>
    cases plain : lower.asMap? with
    | none =>
      rwa [over_of_asMap?_eq_none (.inl plain),
        over_of_asMap?_eq_none (.inl (below.asMap?_eq_none plain))]
    | some base =>
      obtain rfl := asMap?_eq_some_iff.mp plain
      obtain ⟨base', rfl⟩ : ∃ base', lower' = .map base' := by
        cases below
        exact ⟨_, rfl⟩
      obtain ⟨keys, keys'⟩ := whole.distinct
      rw [map_over_map, map_over_map, alike_map_iff]
      refine ⟨nodup_keys_mergeLayer below.distinct.1 keys,
        nodup_keys_mergeLayer below.distinct.2 keys', fun key => ?_⟩
      rw [get?_mergeLayer keys, get?_mergeLayer keys']
      have upper := found key
      have under := below.get? key
      generalize Assoc.get? overlay key = x, Assoc.get? overlay' key = x' at upper
      generalize Assoc.get? base key = y, Assoc.get? base' key = y' at under
      cases upper with
      | none => exact under
      | some part =>
        obtain ⟨part, ih⟩ := part
        cases under with
        | none => exact .some part
        | some old => exact .some (ih old)
  | list items items' whole =>
    rwa [over_of_asMap?_eq_none (.inr rfl), over_of_asMap?_eq_none (.inr rfl)]
  | ordered entries entries' whole =>
    rwa [over_of_asMap?_eq_none (.inr rfl), over_of_asMap?_eq_none (.inr rfl)]
  | secret inner inner' part =>
    rw [over_of_asMap?_eq_none (.inr rfl), over_of_asMap?_eq_none (.inr rfl)]
    exact .secret part
  | scalar s => exact .scalar s
  | reference r => exact .reference r

theorem mergeLayer_alike {base base' overlay overlay' : Fields} (below : base.Alike base')
    (above : overlay.Alike overlay') :
    Fields.Alike (mergeLayer base overlay) (mergeLayer base' overlay') := by
  have laid := Value.Alike.over above below
  rwa [Value.map_over_map, Value.map_over_map] at laid

theorem mergeLayers_alike {layers layers' : List Fields}
    (alike : List.Forall₂ Fields.Alike layers layers') :
    (mergeLayers layers).Alike (mergeLayers layers') := by
  have onto : ∀ {base base' : Fields}, base.Alike base' →
      Fields.Alike (layers.foldl mergeLayer base) (layers'.foldl mergeLayer base') := by
    induction alike with
    | nil => exact id
    | cons first _ ih => exact fun below => ih (mergeLayer_alike below first)
  exact onto (.refl (by simp [Assoc.keys]))

/-! ### Writing keys at the end -/

section Writing

variable {m m' fields fields' : Fields} {key : String} {v v' : Value}

theorem nodup_keys_writeLast (distinct : (Assoc.keys m).Nodup) (fields : Fields) :
    (Assoc.keys (writeLast m fields)).Nodup := by
  induction fields generalizing m with
  | nil => exact distinct
  | cons f rest ih => exact ih (Assoc.nodup_keys_insertLast distinct f.1 f.2)

/-- Fields that are written at the end hide those that were there. -/
theorem get?_writeLast (distinct : (Assoc.keys fields).Nodup) (m : Fields) (key : String) :
    Assoc.get? (writeLast m fields) key = (Assoc.get? fields key).or (Assoc.get? m key) := by
  induction fields generalizing m with
  | nil => rfl
  | cons f rest ih =>
    obtain ⟨new, distinct⟩ := List.nodup_cons.mp distinct
    rw [writeLast, List.foldl_cons, ← writeLast, ih distinct, Assoc.get?_insertLast,
      Assoc.get?_cons]
    by_cases here : f.1 = key
    · subst here
      simp [Assoc.get?_eq_none_iff.mpr new]
    · simp [here]

theorem insertLast_alike (alike : m.Alike m') (key : String) (part : v.Alike v') :
    Fields.Alike (Assoc.insertLast m key v) (Assoc.insertLast m' key v') := by
  refine Value.alike_map_iff.mpr ⟨Assoc.nodup_keys_insertLast alike.distinct.1 key v,
    Assoc.nodup_keys_insertLast alike.distinct.2 key v', fun other => ?_⟩
  rw [Assoc.get?_insertLast, Assoc.get?_insertLast]
  split
  · exact .some part
  · exact alike.get? other

/-- Alike fields that are written at the end of alike maps leave alike maps. -/
theorem writeLast_alike (alike : m.Alike m') (new : fields.Alike fields') :
    (writeLast m fields).Alike (writeLast m' fields') := by
  refine Value.alike_map_iff.mpr ⟨nodup_keys_writeLast alike.distinct.1 fields,
    nodup_keys_writeLast alike.distinct.2 fields', fun key => ?_⟩
  rw [get?_writeLast new.distinct.1, get?_writeLast new.distinct.2]
  have found := new.get? key
  generalize Assoc.get? fields key = x, Assoc.get? fields' key = x' at found
  cases found with
  | some part => exact .some part
  | none => exact alike.get? key

theorem mapValues_secret_alike (alike : m.Alike m') :
    Fields.Alike (Assoc.mapValues .secret m) (Assoc.mapValues .secret m') := by
  rw [Fields.Alike, Value.alike_map_iff, Assoc.keys_mapValues, Assoc.keys_mapValues]
  refine ⟨alike.distinct.1, alike.distinct.2, fun key => ?_⟩
  rw [Assoc.get?_mapValues, Assoc.get?_mapValues]
  exact rel_map (alike.get? key) fun _ _ => .secret

end Writing

/-! ### Composition -/

section Composition

variable {σ : Type}

/-- Two compositions that come to alike maps, or fail for the same reason, and leave the caller
in the same state. -/
def Composing.Alike (c c' : Composing σ Fields) : Prop :=
  ∀ s, AgreeUpTo Fields.Alike (c.outcome s).1 (c'.outcome s).1 ∧ (c.outcome s).2 = (c'.outcome s).2

/-- Compositions go on alike from alike maps. -/
theorem Composing.Alike.bind {c c' : Composing σ Fields} {f f' : Fields → Composing σ Fields}
    (first : c.Alike c') (next : ∀ m m' : Fields, m.Alike m' → (f m).Alike (f' m')) :
    Composing.Alike (c >>= f) (c' >>= f') := by
  intro s
  obtain ⟨agree, states⟩ := first s
  cases ended : c.outcome s with
  | mk x t =>
    cases ended' : c'.outcome s with
    | mk x' t' =>
      rw [ended, ended'] at agree states
      obtain rfl : t = t' := states
      cases agree with
      | ok related =>
        rw [outcome_bind_of_ok ended, outcome_bind_of_ok ended']
        exact next _ _ related t
      | error e =>
        rw [outcome_bind_of_error ended, outcome_bind_of_error ended']
        exact ⟨.error e, rfl⟩

variable {resolve : Reference → Composing σ Fields}

/-- Alike entries are applied to alike maps with alike results, if alike spreads contribute
alike fields. -/
theorem composeOnto_alike {entries entries' : List (Entry Value)}
    (heads : entries.map (fun e => (e.key, e.origin)) = entries'.map fun e => (e.key, e.origin))
    (parts : List.Forall₂ (fun v v' => ∃ _ : v.Alike v', ∀ origin,
      (spreadFields resolve origin v).Alike (spreadFields resolve origin v'))
      (entries.map (·.value)) (entries'.map (·.value))) :
    ∀ m m' : Fields, m.Alike m' →
      (composeOnto resolve m entries).Alike (composeOnto resolve m' entries') := by
  induction entries generalizing entries' with
  | nil =>
    obtain rfl : entries' = [] := List.map_eq_nil_iff.mp heads.symm
    exact fun m m' alike s => ⟨.ok alike, rfl⟩
  | cons e entries ih =>
    obtain _ | ⟨e', entries'⟩ := entries'
    · cases heads
    obtain ⟨head, others⟩ := List.cons.inj heads
    obtain ⟨⟨part, contributes⟩, later⟩ := List.forall₂_cons.mp parts
    obtain ⟨key, v, origin⟩ := e
    obtain ⟨key', v', origin'⟩ := e'
    obtain ⟨rfl, rfl⟩ := Prod.mk.inj head
    intro m m' alike
    cases key with
    | none =>
      rw [composeOnto, composeOnto]
      exact (contributes origin).bind fun fields fields' new =>
        ih others later _ _ (writeLast_alike alike new)
    | some key =>
      rw [composeOnto, composeOnto]
      exact ih others later _ _ (insertLast_alike alike key part)

/-- Alike spreads contribute alike fields, if the caller gives maps with distinct keys. -/
theorem spreadFields_alike {v v' : Value}
    (answers : ∀ r s m s', (resolve r).outcome s = (.ok m, s') → (Value.map m).HasDistinctKeys)
    (alike : v.Alike v') : ∀ origin,
      (spreadFields resolve origin v).Alike (spreadFields resolve origin v') := by
  induction alike using Value.Alike.induct with
  | scalar s => exact fun origin _ => ⟨.error _, rfl⟩
  | list items items' => exact fun origin _ => ⟨.error _, rfl⟩
  | map fields fields' whole => exact fun origin _ => ⟨.ok whole, rfl⟩
  | ordered entries entries' whole heads parts =>
    intro origin
    rw [spreadFields, spreadFields]
    exact composeOnto_alike heads parts [] [] (.refl (by simp [Assoc.keys]))
  | reference r =>
    intro origin s
    rw [spreadFields]
    cases answered : (resolve r).outcome s with
    | mk x s' =>
      cases x with
      | error e => exact ⟨.error e, rfl⟩
      | ok m => exact ⟨.ok (.refl (answers r s m s' answered)), rfl⟩
  | secret inner inner' part ih =>
    intro origin
    rw [spreadFields, spreadFields]
    exact (ih origin).bind fun m m' alike _ => ⟨.ok (mapValues_secret_alike alike), rfl⟩

/-- Alike entries compose to alike maps, if the caller gives maps with distinct keys. -/
theorem compose_alike {entries entries' : List (Entry Value)}
    (answers : ∀ r s m s', (resolve r).outcome s = (.ok m, s') → (Value.map m).HasDistinctKeys)
    (alike : (Value.ordered entries).Alike (.ordered entries')) :
    (compose resolve entries).Alike (compose resolve entries') := by
  cases alike with
  | ordered heads parts =>
    exact composeOnto_alike heads
      (parts.imp fun _ _ part => ⟨part, spreadFields_alike answers part⟩) [] []
      (.refl (by simp [Assoc.keys]))

end Composition

/-- The order of keys carries no meaning. Of layers that are alike the merged maps are alike, and
so are the maps to which alike entries compose, whoever answers for references; or else both
compositions fail for the same reason, and in any case the caller has been asked the same. What a
path leads to in alike values is alike or absent from both, what a wildcard finds in their
entries is alike or a failure for the same reason, and so is what redaction leaves of them. -/
theorem alike_preserved :
    (∀ base base' overlay overlay' : Fields, base.Alike base' → overlay.Alike overlay' →
      Fields.Alike (mergeLayer base overlay) (mergeLayer base' overlay')) ∧
    (∀ layers layers' : List Fields, List.Forall₂ Fields.Alike layers layers' →
      (mergeLayers layers).Alike (mergeLayers layers')) ∧
    (∀ (σ : Type) (resolve : Reference → Composing σ Fields)
        (entries entries' : List (Entry Value)),
      (∀ r s m s', (resolve r).outcome s = (.ok m, s') → (Value.map m).HasDistinctKeys) →
      (Value.ordered entries).Alike (.ordered entries') → ∀ s,
        AgreeUpTo Fields.Alike ((compose resolve entries).outcome s).1
            ((compose resolve entries').outcome s).1 ∧
          ((compose resolve entries).outcome s).2 = ((compose resolve entries').outcome s).2) ∧
    ∀ v v' : Value, v.Alike v' →
      v.redact.Alike v'.redact ∧ ∀ path,
        Option.Rel Value.Alike (v.follow? path) (v'.follow? path) ∧
          AgreeUpTo Value.Alike (v.pick path) (v'.pick path) :=
  ⟨fun _ _ _ _ => mergeLayer_alike, fun _ _ => mergeLayers_alike,
    fun _ _ _ _ => compose_alike,
    fun _ _ alike => ⟨alike.redact, fun path => ⟨alike.follow? path, alike.pick path⟩⟩⟩

/-- The account of a database, and the same ones the other way round. -/
def account : Fields := [("user", .string "root"), ("password", .secret (.string "x"))]

theorem account_alike : Fields.Alike account account.reverse := by
  refine .of_perm (Value.hasDistinctKeys_map.mpr ⟨by decide, ?_⟩) (List.reverse_perm _).symm
  simp [account]

/-- An account and its reverse are spread into a map, merged over each other, looked through in
a list, and redacted. -/
theorem alike_preserved_account :
    AgreeUpTo Fields.Alike
        ((compose (σ := Unit) rejectReference
          [⟨some "user", .string "nobody", {}⟩, ⟨none, .map account, {}⟩]).outcome ()).1
        ((compose (σ := Unit) rejectReference
          [⟨some "user", .string "nobody", {}⟩, ⟨none, .map account.reverse, {}⟩]).outcome ()).1 ∧
      Fields.Alike (mergeLayers [account, account.reverse])
        (mergeLayers [account.reverse, account]) ∧
      AgreeUpTo Value.Alike ((Value.list [.map account]).pick ["password"])
        ((Value.list [.map account.reverse]).pick ["password"]) ∧
      (Value.map account).redact.Alike (Value.map account.reverse).redact := by
  obtain ⟨-, merges, composes, looks⟩ := alike_preserved
  refine ⟨(composes Unit rejectReference _ _ ?_ ?_ ()).1, merges _ _ ?_, ?_, ?_⟩
  · rintro r s m s' refused
    cases refused
  · exact .ordered rfl (.cons (.scalar _) (.cons account_alike .nil))
  · exact .cons account_alike (.cons account_alike.symm .nil)
  · exact ((looks _ _ (.list (.cons account_alike .nil))).2 _).2
  · exact (looks _ _ account_alike).1

end LayeredConfig

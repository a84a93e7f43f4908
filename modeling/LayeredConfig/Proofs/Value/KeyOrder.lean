import Mathlib.Data.List.Forall2
import LayeredConfig.Proofs.Value.DistinctKeys
import LayeredConfig.Proofs.Value.Masking
import LayeredConfig.Value.Path

/-!
# The order of keys

Two values are alike (`Value.Alike`) if they differ in nothing but the order in which plain maps
have their keys, at any depth. For two plain maps that is to say that a lookup finds alike
values in both, or nothing in either (`Value.alike_map_iff`), and this is how all that looks
into maps is compared: paths, wildcards and redaction come to something alike, or to nothing
and for the same reason.
-/

namespace LayeredConfig

/-- Maps with the same keys and related values have related values under every key. -/
theorem Assoc.rel_get? {α : Type} {m n : Assoc α} {R : α → α → Prop} (same : keys m = keys n)
    (values : List.Forall₂ R (m.map (·.2)) (n.map (·.2))) (key : String) :
    Option.Rel R (get? m key) (get? n key) := by
  induction m generalizing n with
  | nil =>
    obtain rfl : n = [] := List.map_eq_nil_iff.mp same.symm
    exact .none
  | cons p m ih =>
    obtain _ | ⟨q, n⟩ := n
    · cases same
    obtain ⟨first, rest⟩ : p.1 = q.1 ∧ keys m = keys n := List.cons.inj same
    obtain ⟨here, below⟩ := List.forall₂_cons.mp values
    rw [get?_cons, get?_cons, first]
    split
    · exact .some here
    · exact ih rest below

/-! ### Results that agree -/

/-- Two results that come to related values, or fail for the same reason. -/
inductive AgreeUpTo {ε α : Type} (R : α → α → Prop) : Except ε α → Except ε α → Prop where
  | ok {a b : α} (related : R a b) : AgreeUpTo R (.ok a) (.ok b)
  | error (e : ε) : AgreeUpTo R (.error e) (.error e)

theorem AgreeUpTo.map {ε α β : Type} {R : α → α → Prop} {S : β → β → Prop} {x y : Except ε α}
    (agree : AgreeUpTo R x y) {f : α → β} (keeps : ∀ a b, R a b → S (f a) (f b)) :
    AgreeUpTo S (x.map f) (y.map f) := by
  cases agree with
  | ok related => exact .ok (keeps _ _ related)
  | error e => exact .error e

section Found

variable {α β : Type} {R : α → α → Prop} {S : β → β → Prop} {x y : Option α}

theorem rel_bind (found : Option.Rel R x y) {f g : α → Option β}
    (next : ∀ a b, R a b → Option.Rel S (f a) (g b)) : Option.Rel S (x.bind f) (y.bind g) := by
  cases found with
  | some related => exact next _ _ related
  | none => exact .none

theorem rel_map (found : Option.Rel R x y) {f g : α → β} (keeps : ∀ a b, R a b → S (f a) (g b)) :
    Option.Rel S (x.map f) (y.map g) := by
  cases found with
  | some related => exact .some (keeps _ _ related)
  | none => exact .none

theorem rel_getElem? {l m : List α} (all : List.Forall₂ R l m) (i : Nat) :
    Option.Rel R l[i]? m[i]? := by
  induction all generalizing i with
  | nil => exact .none
  | cons first _ ih =>
    cases i with
    | zero => exact .some first
    | succ i => simpa using ih i

end Found

/-! ### Values alike -/

/-- Values that differ in nothing but the order of the keys of plain maps, which are distinct. -/
inductive Value.Alike : Value → Value → Prop where
  | scalar (s : Scalar) : Alike (.scalar s) (.scalar s)
  | list {items items' : List Value} (parts : List.Forall₂ Alike items items') :
      Alike (.list items) (.list items')
  /-- The fields of one map in another order, and then alike one by one. -/
  | map {fields moved fields' : Fields} (distinct : (Assoc.keys fields).Nodup)
      (order : fields.Perm moved) (keys : Assoc.keys moved = Assoc.keys fields')
      (parts : List.Forall₂ Alike (moved.map (·.2)) (fields'.map (·.2))) :
      Alike (.map fields) (.map fields')
  | ordered {entries entries' : List (Entry Value)}
      (heads : entries.map (fun e => (e.key, e.origin))
        = entries'.map fun e => (e.key, e.origin))
      (parts : List.Forall₂ Alike (entries.map (·.value)) (entries'.map (·.value))) :
      Alike (.ordered entries) (.ordered entries')
  | reference (r : Reference) : Alike (.reference r) (.reference r)
  | secret {inner inner' : Value} (part : Alike inner inner') :
      Alike (.secret inner) (.secret inner')

namespace Value

/-- Plain maps are alike if a lookup finds alike values in both, or nothing in either. -/
theorem alike_map_iff {fields fields' : Fields} :
    (map fields).Alike (.map fields') ↔
      (Assoc.keys fields).Nodup ∧ (Assoc.keys fields').Nodup ∧
        ∀ key, Option.Rel Alike (Assoc.get? fields key) (Assoc.get? fields' key) := by
  constructor
  · rintro (_ | _ | @⟨_, moved, _, distinct, order, keys, parts⟩)
    have distinct' : (Assoc.keys moved).Nodup := (order.map _).nodup_iff.mp distinct
    refine ⟨distinct, keys ▸ distinct', fun key => ?_⟩
    rw [(Assoc.perm_iff_get? distinct distinct').mp order]
    exact Assoc.rel_get? keys parts key
  · rintro ⟨distinct, distinct', found⟩
    -- The fields of the first map, in the order of the second.
    obtain ⟨moved, keys, parts, inside⟩ : ∃ moved : Fields, Assoc.keys moved = Assoc.keys fields' ∧
        List.Forall₂ Alike (moved.map (·.2)) (fields'.map (·.2)) ∧
        ∀ p ∈ moved, Assoc.get? fields p.1 = some p.2 := by
      have there : ∀ f ∈ fields', ∃ v, Assoc.get? fields f.1 = some v ∧ v.Alike f.2 := by
        rintro ⟨key, u⟩ hf
        have rel := found key
        rw [(Assoc.mem_iff_get? distinct').mp hf] at rel
        generalize Assoc.get? fields key = x at rel ⊢
        cases rel with
        | some alike => exact ⟨_, rfl, alike⟩
      clear found distinct'
      induction fields' with
      | nil => exact ⟨[], rfl, .nil, by simp⟩
      | cons f rest ih =>
        obtain ⟨v, first, alike⟩ := there f List.mem_cons_self
        obtain ⟨moved, keys, parts, inside⟩ := ih fun f hf => there f (List.mem_cons_of_mem _ hf)
        exact ⟨(f.1, v) :: moved, congrArg (f.1 :: ·) keys, .cons alike parts,
          List.forall_mem_cons.mpr ⟨first, inside⟩⟩
    have distinctMoved : (Assoc.keys moved).Nodup := keys ▸ distinct'
    refine .map distinct ((Assoc.perm_iff_get? distinct distinctMoved).mpr fun key => ?_) keys parts
    cases here : Assoc.get? moved key with
    | some v => rw [inside _ (Assoc.mem_of_get? here)]
    | none =>
      have rel := found key
      rw [Assoc.get?_eq_none_iff, keys, ← Assoc.get?_eq_none_iff] at here
      rw [here] at rel
      generalize Assoc.get? fields key = x at rel ⊢
      cases rel
      rfl

namespace Alike

variable {v v' : Value} {fields fields' : Fields}

theorem get? (alike : (Value.map fields).Alike (.map fields')) (key : String) :
    Option.Rel Alike (Assoc.get? fields key) (Assoc.get? fields' key) :=
  (alike_map_iff.mp alike).2.2 key

theorem distinct (alike : (Value.map fields).Alike (.map fields')) :
    (Assoc.keys fields).Nodup ∧ (Assoc.keys fields').Nodup :=
  ⟨(alike_map_iff.mp alike).1, (alike_map_iff.mp alike).2.1⟩

/-- Induction over values that are alike: what holds of all parts holds of the whole. -/
@[elab_as_elim]
theorem induct {P : ∀ v v' : Value, v.Alike v' → Prop}
    (scalar : ∀ s, P (.scalar s) (.scalar s) (.scalar s))
    (list : ∀ items items' whole,
      List.Forall₂ (fun v v' => ∃ part, P v v' part) items items' →
      P (.list items) (.list items') whole)
    (map : ∀ (fields fields' : Fields) whole,
      (∀ key, Option.Rel (fun v v' => ∃ part, P v v' part) (Assoc.get? fields key)
        (Assoc.get? fields' key)) → P (.map fields) (.map fields') whole)
    (ordered : ∀ (entries entries' : List (Entry Value)) whole,
      entries.map (fun e => (e.key, e.origin)) = entries'.map (fun e => (e.key, e.origin)) →
      List.Forall₂ (fun v v' => ∃ part, P v v' part) (entries.map (·.value))
        (entries'.map (·.value)) → P (.ordered entries) (.ordered entries') whole)
    (reference : ∀ r, P (.reference r) (.reference r) (.reference r))
    (secret : ∀ inner inner' part, P inner inner' part →
      P (.secret inner) (.secret inner') (.secret part)) (alike : v.Alike v') :
    P v v' alike := by
  have both : ∀ {items items' : List Value}, (∀ v ∈ items, ∀ v' alike, P v v' alike) →
      List.Forall₂ Alike items items' →
      List.Forall₂ (fun v v' => ∃ part, P v v' part) items items' := by
    intro items items' ih parts
    induction parts with
    | nil => exact .nil
    | cons first _ inner =>
      exact .cons ⟨first, ih _ List.mem_cons_self _ first⟩
        (inner fun v hv => ih v (List.mem_cons_of_mem _ hv))
  induction v using Value.induct generalizing v' with
  | scalar s =>
    cases alike
    exact scalar s
  | reference r =>
    cases alike
    exact reference r
  | secret inner ih =>
    cases alike with
    | secret part => exact secret _ _ part (ih part)
  | list items ih =>
    cases alike with
    | list parts => exact list _ _ _ (both (fun v hv v' => ih v hv) parts)
  | ordered entries ih =>
    cases alike with
    | ordered heads parts =>
      refine ordered _ _ _ heads (both (fun v hv v' => ?_) parts)
      obtain ⟨e, he, rfl⟩ := List.mem_map.mp hv
      exact ih e he
  | map fields ih =>
    obtain ⟨fields', rfl⟩ : ∃ fields', v' = .map fields' := by
      cases alike
      exact ⟨_, rfl⟩
    refine map _ _ alike fun key => ?_
    have found := alike.get? key
    have inside : ∀ u, Assoc.get? fields key = some u → ∀ u' part, P u u' part :=
      fun u here u' => ih _ (Assoc.mem_of_get? here)
    generalize Assoc.get? fields key = x, Assoc.get? fields' key = y at found inside ⊢
    cases found with
    | none => exact .none
    | some part => exact .some ⟨part, inside _ rfl _ part⟩

/-- A value whose maps have distinct keys is like itself. -/
theorem refl (distinct : v.HasDistinctKeys) : v.Alike v := by
  induction distinct with
  | scalar s => exact .scalar s
  | list _ ih => exact .list (List.forall₂_same.mpr ih)
  | map keys _ ih =>
    exact .map keys (.refl _) rfl (List.forall₂_same.mpr (List.forall_mem_map.mpr ih))
  | ordered _ ih => exact .ordered rfl (List.forall₂_same.mpr (List.forall_mem_map.mpr ih))
  | reference r => exact .reference r
  | secret _ ih => exact .secret ih

theorem symm (alike : v.Alike v') : v'.Alike v := by
  induction alike using induct with
  | scalar s => exact .scalar s
  | reference r => exact .reference r
  | secret inner inner' part ih => exact .secret ih
  | list items items' whole parts => exact .list (parts.imp fun _ _ ⟨_, back⟩ => back).flip
  | ordered entries entries' whole heads parts =>
    exact .ordered heads.symm (parts.imp fun _ _ ⟨_, back⟩ => back).flip
  | map fields fields' whole found =>
    refine alike_map_iff.mpr ⟨whole.distinct.2, whole.distinct.1, fun key => ?_⟩
    have here := found key
    generalize Assoc.get? fields key = x, Assoc.get? fields' key = y at here ⊢
    cases here with
    | none => exact .none
    | some part => exact .some part.2

/-- A map with the same fields in another order is like it. -/
theorem of_perm (distinct : (Value.map fields).HasDistinctKeys) (order : fields.Perm fields') :
    (Value.map fields).Alike (.map fields') := by
  obtain ⟨keys, parts⟩ := hasDistinctKeys_map.mp distinct
  refine .map keys order rfl (List.forall₂_same.mpr (List.forall_mem_map.mpr fun f hf => ?_))
  exact .refl (parts f (order.mem_iff.mpr hf))

/-! ### Looking into a value -/

theorem child? (alike : v.Alike v') (segment : String) :
    Option.Rel Alike (v.child? segment) (v'.child? segment) := by
  induction alike using induct with
  | list items items' whole parts =>
    rw [Value.child?, Value.child?]
    cases index? segment with
    | none => exact .none
    | some i => exact rel_getElem? (parts.imp fun _ _ ⟨part, _⟩ => part) i
  | map fields fields' whole => exact whole.get? segment
  | secret inner inner' part ih => rwa [Value.child?, Value.child?]
  | _ => exact .none

theorem follow? (alike : v.Alike v') (path : List String) :
    Option.Rel Alike (v.follow? path) (v'.follow? path) := by
  induction path generalizing v v' with
  | nil => exact .some alike
  | cons segment rest ih =>
    rw [Value.follow?, Value.follow?]
    exact rel_bind (alike.child? segment) fun _ _ part => ih part

/-- A wildcard finds alike entries in alike values. -/
theorem pickEach (alike : v.Alike v') (path : List String) :
    AgreeUpTo Alike (v.pickEach path) (v'.pickEach path) := by
  induction alike using induct with
  | list items items' whole parts =>
    rw [Value.pickEach, Value.pickEach]
    exact .ok (.list (List.rel_filterMap (fun _ _ ⟨part, _⟩ => part.follow? path) parts))
  | map fields fields' whole found =>
    obtain ⟨distinct, distinct'⟩ := whole.distinct
    rw [Value.pickEach, Value.pickEach]
    refine .ok (alike_map_iff.mpr ⟨Assoc.nodup_keys_filterMap distinct (·.follow? path),
      Assoc.nodup_keys_filterMap distinct' (·.follow? path), fun key => ?_⟩)
    rw [Assoc.get?_filterMap distinct (·.follow? path),
      Assoc.get?_filterMap distinct' (·.follow? path)]
    exact rel_bind (found key) fun _ _ ⟨part, _⟩ => part.follow? path
  | secret inner inner' part ih =>
    rw [Value.pickEach, Value.pickEach]
    exact ih.map fun _ _ => .secret
  | _ => exact .error _

theorem pick (alike : v.Alike v') (path : List String) :
    AgreeUpTo Alike (v.pick path) (v'.pick path) := by
  rw [Value.pick, Value.pick]
  split
  · exact .ok alike
  · exact alike.pickEach path

theorem redact (alike : v.Alike v') : v.redact.Alike v'.redact := by
  induction alike using induct with
  | list items items' whole parts =>
    rw [redact_list, redact_list]
    refine .list (List.forall₂_map_left_iff.mpr (List.forall₂_map_right_iff.mpr ?_))
    exact parts.imp fun _ _ ⟨_, part⟩ => part
  | map fields fields' whole found =>
    obtain ⟨distinct, distinct'⟩ := whole.distinct
    rw [redact_map, redact_map, alike_map_iff, Assoc.keys_mapValues, Assoc.keys_mapValues]
    refine ⟨distinct, distinct', fun key => ?_⟩
    rw [Assoc.get?_mapValues, Assoc.get?_mapValues]
    exact rel_map (found key) fun _ _ ⟨_, part⟩ => part
  | ordered entries entries' whole heads parts =>
    rw [redact_ordered, redact_ordered]
    refine .ordered (by simpa [Entry.map, Function.comp_def] using heads) ?_
    have redacted := parts.imp fun _ _ ⟨_, part⟩ => part
    simpa [Entry.map, Function.comp_def, List.forall₂_map_left_iff, List.forall₂_map_right_iff]
      using redacted
  | secret inner inner' part ih => exact .scalar _
  | scalar s => exact .scalar s
  | reference r => exact .reference r

end Alike

end Value

end LayeredConfig

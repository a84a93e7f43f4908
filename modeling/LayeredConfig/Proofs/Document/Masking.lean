import LayeredConfig.Proofs.Document.Grammar
import LayeredConfig.Proofs.Value.Masking

/-!
# Literals beneath a secret mark

`Document.mask` blanks every literal beneath a `@secret` mark in sections and root spreads, so
documents with the same mask differ in nothing but such literals. Dotted names of variables are
no literals, and the declarations of sources stay as they are. Conversion does not look at
literals: it refuses a masked document for the same reason, and else yields the same source
declarations and the masked root (`Document.convert_mask`).
-/

namespace LayeredConfig

/-! ### Masks -/

/-- Blank a literal. References and names of variables stay. -/
def Atom.blank : Atom → Atom
  | .string s => if (variablePath? (Text.segments s)).isNone then .null else .string s
  | .path segments => if (variablePath? segments).isNone then .null else .path segments
  | .reference «alias» segments => .reference «alias» segments
  | _ => .null

namespace Expr

mutual
/-- Blank every literal beneath a secret mark; `hidden` says whether the expression itself is
beneath one. -/
def mask (hidden : Bool) : Expr → Expr
  | .atom origin a => .atom origin (if hidden then a.blank else a)
  | .map origin entries => .map origin (maskEntries hidden entries)
  | .list origin items => .list origin (maskItems hidden items)
  | .secret origin inner => .secret origin (mask true inner)
  | .call origin name args => .call origin name (maskItems hidden args)

def maskItems (hidden : Bool) : List Expr → List Expr
  | [] => []
  | e :: rest => mask hidden e :: maskItems hidden rest

def maskEntries (hidden : Bool) : List (RawEntry Expr) → List (RawEntry Expr)
  | [] => []
  | ⟨key, value, spread, origin⟩ :: rest =>
    ⟨key, maskValue hidden value, spread, origin⟩ :: maskEntries hidden rest

def maskValue (hidden : Bool) : Option Expr → Option Expr
  | none => none
  | some e => some (mask hidden e)
end

end Expr

def Body.mask : Body → Body
  | .inline e => .inline (e.mask false)
  | .block entries => .block (Expr.maskEntries false entries)

def Statement.mask : Statement → Statement
  | .define name body origin => .define name body.mask origin
  | .source s => .source s
  | .spread e origin => .spread (e.mask false) origin

def Document.mask (d : Document) : Document :=
  { d with statements := d.statements.map Statement.mask }

theorem Document.file_mask (d : Document) : d.mask.file = d.file := rfl

/-! ### What conversion sees -/

/-- The value of a blank literal is a blank scalar. -/
theorem Atom.value_blank (a : Atom) (origin : Origin) :
    a.blank.value origin = (a.value origin).mask true := by
  have dotted : ∀ segments text, variablePath? segments = none →
      dottedValue origin segments text = .string text := by
    intro segments text literal
    rw [dottedValue, literal]
  have sugar : ∀ segments text path, variablePath? segments = some path →
      dottedValue origin segments text
        = .reference { «alias» := variablesAlias, path, origin } := by
    intro segments text path named
    rw [dottedValue, named]
  cases a with
  | string s =>
    cases named : variablePath? (Text.segments s) with
    | none => simp [blank, named, value, dotted _ s named, Value.mask]
    | some path => simp [blank, named, value, sugar _ s path named, Value.mask]
  | path segments =>
    cases named : variablePath? segments with
    | none => simp [blank, named, value, dotted _ _ named, Value.mask]
    | some path => simp [blank, named, value, sugar _ _ path named, Value.mask]
  | _ => rfl

/-- Nothing is blanked outside secrets. -/
theorem Atom.mask_value (a : Atom) (origin : Origin) :
    (a.value origin).mask false = a.value origin := by
  have dotted : ∀ segments text,
      (dottedValue origin segments text).mask false = dottedValue origin segments text := by
    intro segments text
    rw [dottedValue]
    split <;> rfl
  cases a with
  | string s => exact dotted _ s
  | path segments => exact dotted segments _
  | _ => rfl

namespace Expr

/-- A mask does not tell references from other expressions anew. -/
theorem wildcard?_mask (e : Expr) (hidden : Bool) : (e.mask hidden).wildcard? = e.wildcard? := by
  cases e with
  | atom origin a =>
    cases hidden with
    | false => rfl
    | true =>
      cases a with
      | string s =>
        rw [mask, if_pos rfl, Atom.blank]
        split <;> rfl
      | path segments =>
        rw [mask, if_pos rfl, Atom.blank]
        split <;> rfl
      | _ => rfl
  | _ => rfl

/-- An entry is a spread or not, whatever is hidden in it. -/
theorem isSpread_mask (key : Option String) (value : Option Expr) (spread : Bool) (origin : Origin)
    (hidden : Bool) : RawEntry.isSpread ⟨key, maskValue hidden value, spread, origin⟩
      = RawEntry.isSpread ⟨key, value, spread, origin⟩ := by
  cases value with
  | none => rfl
  | some e => simp [RawEntry.isSpread, maskValue, wildcard?_mask]

end Expr

section Conversion

variable {α β γ : Type}

theorem map_bind (x : Converting α) (f : α → Converting β) (g : β → γ) :
    (x >>= f).map g = x >>= fun a => (f a).map g := by
  cases x <;> rfl

theorem bind_map (x : Converting α) (f : α → β) (g : β → Converting γ) :
    x.map f >>= g = x >>= fun a => g (f a) := by
  cases x <;> rfl

theorem under_map (step : ConversionStep) (r : Converting α) (f : α → β) :
    under step (r.map f) = (under step r).map f := by
  cases r <;> rfl

variable {inConfig hidden : Bool}

/-- Items convert masked if each of them does. -/
theorem convertItems_mask {items : List Expr} {depth : Nat}
    (parts : ∀ e ∈ items, (e.mask hidden).convert inConfig depth
      = (e.convert inConfig depth).map (Value.mask hidden)) (index : Nat) :
    convertItems inConfig depth index (Expr.maskItems hidden items)
      = (convertItems inConfig depth index items).map (List.map (Value.mask hidden)) := by
  induction items generalizing index with
  | nil => rfl
  | cons e rest ih =>
    rw [Expr.maskItems, convertItems, convertItems, parts e List.mem_cons_self, under_map,
      ih fun e he => parts e (List.mem_cons_of_mem _ he), bind_map, map_bind]
    congr 1
    funext v
    rw [bind_map, map_bind]
    rfl

/-- An entry converts masked if its value does: its key, its marks and its faults stay. -/
theorem convertEntry_mask {e : RawEntry Expr} {depth : Nat}
    (part : ∀ v, e.value = some v → (v.mask hidden).convert inConfig depth
      = (v.convert inConfig depth).map (Value.mask hidden)) :
    convertEntry inConfig depth ⟨e.key, Expr.maskValue hidden e.value, e.spread, e.origin⟩
      = (convertEntry inConfig depth e).map (Entry.map (Value.mask hidden)) := by
  obtain ⟨key, value, spread, origin⟩ := e
  have inner : convertValue inConfig depth origin (Expr.maskValue hidden value)
      = (convertValue inConfig depth origin value).map (Value.mask hidden) := by
    cases value with
    | none => rfl
    | some e => exact part e rfl
  dsimp only
  rw [convertEntry.eq_def, convertEntry.eq_def]
  dsimp only
  rw [Expr.isSpread_mask, inner]
  -- What is wrong with an entry is told by its key and by whether it is a spread.
  cases key with
  | none =>
    cases spread
    all_goals
      dsimp only
      split
      · split
        · rfl
        · rw [bind_map, map_bind]
          rfl
      · rfl
  | some key =>
    cases spread with
    | true => rfl
    | false =>
      dsimp only
      split
      · split
        · rfl
        · rw [bind_map, map_bind]
          rfl
      · split
        · rfl
        · rw [under_map, bind_map, map_bind]
          rfl

/-- Entries convert masked if each of their values does. -/
theorem convertEntries_mask {entries : List (RawEntry Expr)} {depth : Nat}
    (parts : ∀ e ∈ entries, ∀ v, e.value = some v → (v.mask hidden).convert inConfig depth
      = (v.convert inConfig depth).map (Value.mask hidden)) :
    convertEntries inConfig depth (Expr.maskEntries hidden entries)
      = (convertEntries inConfig depth entries).map (List.map (Entry.map (Value.mask hidden))) := by
  induction entries with
  | nil => rfl
  | cons e rest ih =>
    have here := convertEntry_mask (parts e List.mem_cons_self)
    have ih := ih fun e he => parts e (List.mem_cons_of_mem _ he)
    obtain ⟨key, value, spread, origin⟩ := e
    dsimp only at here
    rw [Expr.maskEntries, convertEntries, convertEntries, here, ih, bind_map, map_bind]
    congr 1
    funext entry
    rw [bind_map, map_bind]
    rfl

/-- A masked expression is converted to the masked value. -/
theorem Expr.convert_mask (e : Expr) : ∀ inConfig hidden depth,
    (e.mask hidden).convert inConfig depth
      = (e.convert inConfig depth).map (Value.mask hidden) := by
  induction e using Expr.induct with
  | atom origin a =>
    intro inConfig hidden depth
    rw [mask, convert, convert, map_bind]
    congr 1
    funext _
    cases hidden with
    | false => exact congrArg Except.ok (a.mask_value origin).symm
    | true =>
      rw [if_pos rfl, Atom.value_blank]
      rfl
  | map origin entries ih =>
    intro inConfig hidden depth
    rw [mask, convert, convert, map_bind,
      convertEntries_mask fun e he v hv => ih e he v hv inConfig hidden (depth + 1)]
    congr 1
    funext _
    rw [bind_map, map_bind]
    congr 1
    funext entries
    exact congrArg Except.ok (Value.ofEntries_mask entries hidden).symm
  | list origin items ih =>
    intro inConfig hidden depth
    rw [mask, convert, convert, map_bind,
      convertItems_mask fun e he => ih e he inConfig hidden (depth + 1)]
    congr 1
    funext _
    rw [bind_map, map_bind]
    congr 1
    funext items
    exact congrArg Except.ok (Value.mask_list hidden items).symm
  | secret origin inner ih =>
    intro inConfig hidden depth
    rw [mask, convert, convert, map_bind, ih]
    congr 1
    funext _
    rw [bind_map, map_bind]
    rfl
  | call origin name args =>
    intro inConfig hidden depth
    rw [mask, convert, convert, map_bind]
    rfl

theorem Body.convert_mask (b : Body) : b.mask.convert = b.convert.map (Value.mask false) := by
  cases b with
  | inline e => exact e.convert_mask false false 1
  | block entries =>
    rw [mask, convert, convert, convertEntries_mask fun _ _ v _ => v.convert_mask false false 1,
      bind_map, map_bind]
    congr 1
    funext entries
    exact congrArg Except.ok (Value.ofEntries_mask entries false).symm

theorem convertSection_mask (name : String) (body : Body) (origin : Origin) :
    convertSection name body.mask origin
      = (convertSection name body origin).map (Entry.map (Value.mask false)) := by
  rw [convertSection, convertSection]
  split
  · rfl
  · rw [Body.convert_mask, under_map, bind_map, map_bind]
    rfl

/-- Statements convert masked, one by one. -/
theorem convertStatements_mask (statements : List Statement) :
    convertStatements (statements.map Statement.mask)
      = (convertStatements statements).map
        fun p => (p.1.map (Entry.map (Value.mask false)), p.2) := by
  induction statements with
  | nil => rfl
  | cons s rest ih =>
    rw [List.map_cons]
    cases s with
    | define name body origin =>
      rw [Statement.mask, convertStatements, convertStatements, convertSection_mask, ih, bind_map,
        map_bind]
      congr 1
      funext entry
      rw [bind_map, map_bind]
      rfl
    | source s =>
      rw [Statement.mask, convertStatements, convertStatements, ih, map_bind]
      congr 1
      funext declaration
      rw [bind_map, map_bind]
      rfl
    | spread e origin =>
      rw [Statement.mask, convertStatements, convertStatements, e.convert_mask, ih, bind_map,
        map_bind]
      congr 1
      funext value
      rw [bind_map, map_bind]
      rfl

/-- What a document declares, with the scalars of its root beneath secrets blanked. -/
def Converted.mask (c : Converted) : Converted := { c with root := c.root.mask false }

/-- A masked document is converted to the masked root and the same declarations, or refused for
the same reason. -/
theorem Document.convert_mask (d : Document) : d.mask.convert = d.convert.map Converted.mask := by
  rw [Document.convert, Document.convert, Document.mask, convertStatements_mask, bind_map, map_bind]
  congr 1
  funext p
  obtain ⟨entries, sources⟩ := p
  exact congrArg (fun root => Except.ok (Converted.mk root sources))
    (Value.ofEntries_mask entries false).symm

end Conversion

end LayeredConfig

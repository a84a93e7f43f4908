import LayeredConfig.Merge.Spread
import LayeredConfig.Proofs.Value.Induction
import Mathlib.Data.List.Dedup
import Mathlib.Data.List.Induction
import Mathlib.Logic.Function.Iterate

/-!
# A composed map is what its flattened entries write last

`flatten` writes out the entries of a map with every spread in its place: a keyed entry and
each field of a plain map is a field, a map with spreads is flattened where it stands, a
secret hides what its inner value contributes, a reference is left to be asked for, and any
other spread is a stray. `Ends` says how the entries end if they are worked off one after the
other: the caller is asked for each reference in turn, in the state that the last answer left,
and the first stray or refused reference ends it all.

`compose` does otherwise: it composes the inner maps first, each with its repeated keys
removed, and takes keys out and puts them back as it goes.

Main results:

* `compose_ends`: this makes no difference, neither for the fields and their order nor for the
  error nor for the questions to the caller. Whatever a composition comes to, the entries end so.
* `Ends.unique`: entries can end in one way only, so `compose_ends` leaves nothing open.
* `compose_eq`: a composition is one pass over the flattened entries, of which the last ones count.
-/

namespace LayeredConfig

/-! ### Pairs of which the last ones count -/

namespace Assoc

variable {α β : Type}

/-- The pairs whose key does not come again. -/
def lastOnly : List (String × α) → Assoc α
  | [] => []
  | (key, v) :: rest => if key ∈ keys rest then lastOnly rest else (key, v) :: lastOnly rest

theorem keys_lastOnly (m : Assoc α) : keys (lastOnly m) = (keys m).dedup := by
  induction m with
  | nil => rfl
  | cons p m ih =>
    obtain ⟨key, v⟩ := p
    have whole : keys ((key, v) :: m) = key :: keys m := rfl
    rw [lastOnly, whole]
    split
    · rename_i again
      rw [ih, List.dedup_cons_of_mem again]
    · rename_i last
      have here : keys ((key, v) :: lastOnly m) = key :: keys (lastOnly m) := rfl
      rw [here, ih, List.dedup_cons_of_notMem last]

theorem mem_keys_lastOnly (m : Assoc α) (key : String) :
    key ∈ keys (lastOnly m) ↔ key ∈ keys m := by
  rw [keys_lastOnly, List.mem_dedup]

/-- A lookup sees the last value of each key. -/
theorem get?_lastOnly (m : Assoc α) (key : String) :
    get? (lastOnly m) key = get? m.reverse key := by
  induction m with
  | nil => rfl
  | cons p m ih =>
    obtain ⟨k, v⟩ := p
    rw [lastOnly, List.reverse_cons, get?_append, ← ih]
    split
    · rename_i again
      by_cases same : k = key
      · obtain ⟨w, found⟩ := Option.isSome_iff_exists.mp
          ((get?_isSome_iff (lastOnly m) k).mpr ((mem_keys_lastOnly m k).mpr again))
        simp [← same, found]
      · simp [get?_cons, same]
    · rename_i last
      by_cases same : k = key
      · have new := get?_eq_none_iff.mpr fun there => last ((mem_keys_lastOnly m k).mp there)
        simp [get?_cons, ← same, new]
      · simp [get?_cons, same]

theorem lastOnly_append (m n : Assoc α) :
    lastOnly (m ++ n) = (lastOnly m).filter (·.1 ∉ keys n) ++ lastOnly n := by
  induction m with
  | nil => rfl
  | cons p m ih =>
    obtain ⟨key, v⟩ := p
    rw [List.cons_append, lastOnly, lastOnly, keys_append, ih]
    by_cases again : key ∈ keys m
    · simp [again]
    · by_cases later : key ∈ keys n <;> simp [again, later]

theorem lastOnly_lastOnly (m : Assoc α) : lastOnly (lastOnly m) = lastOnly m := by
  induction m with
  | nil => rfl
  | cons p m ih =>
    obtain ⟨key, v⟩ := p
    rw [lastOnly]
    split
    · exact ih
    · rename_i last
      rw [lastOnly, if_neg (mt (mem_keys_lastOnly m key).mp last), ih]

theorem lastOnly_append_lastOnly_append (l m n : Assoc α) :
    lastOnly (l ++ (lastOnly m ++ n)) = lastOnly (l ++ (m ++ n)) := by
  simp only [lastOnly_append, lastOnly_lastOnly, keys_append, List.mem_append, mem_keys_lastOnly]

theorem lastOnly_mapValues (f : α → β) (m : Assoc α) :
    lastOnly (mapValues f m) = mapValues f (lastOnly m) := by
  induction m with
  | nil => rfl
  | cons p m ih =>
    obtain ⟨key, v⟩ := p
    have whole : mapValues f ((key, v) :: m) = (key, f v) :: mapValues f m := rfl
    rw [whole, lastOnly, lastOnly, keys_mapValues, ih]
    split <;> rfl

theorem insertLast_lastOnly (m : Assoc α) (key : String) (v : α) :
    insertLast (lastOnly m) key v = lastOnly (m ++ [(key, v)]) := by
  have single : keys [(key, v)] = [key] := rfl
  rw [lastOnly_append, insertLast, erase_eq_filter, single]
  simp [lastOnly, keys]

end Assoc

theorem writeLast_lastOnly (m fields : Fields) :
    writeLast (Assoc.lastOnly m) fields = Assoc.lastOnly (m ++ fields) := by
  induction fields generalizing m with
  | nil => rw [writeLast, List.foldl_nil, List.append_nil]
  | cons f fields ih =>
    rw [writeLast, List.foldl_cons, Assoc.insertLast_lastOnly, ← writeLast, ih,
      List.append_assoc, List.singleton_append]

/-- The map that pairs make of which the last one for each key counts: the distinct keys stand
in the order in which they come last, each with its last value. -/
structure LastWins (pairs m : Fields) : Prop where
  keys : Assoc.keys m = (Assoc.keys pairs).dedup
  lookup : ∀ key, m.get? key = Assoc.get? pairs.reverse key

theorem lastWins_lastOnly (pairs : Fields) : LastWins pairs (Assoc.lastOnly pairs) :=
  ⟨Assoc.keys_lastOnly pairs, Assoc.get?_lastOnly pairs⟩

theorem LastWins.eq_lastOnly {pairs m : Fields} (last : LastWins pairs m) :
    m = Assoc.lastOnly pairs := by
  refine Assoc.eq_of_get?_eq ?_ ?_ fun key => ?_
  · rw [last.keys]
    exact List.nodup_dedup _
  · rw [last.keys, Assoc.keys_lastOnly]
  · rw [last.lookup, Assoc.get?_lastOnly]

/-! ### The entries, flattened -/

/-- What stands at one place of the flattened entries. -/
inductive Piece where
  | field (key : String) (v : Value)
  /-- The fields that the caller gives for a reference, each inside so many secrets. -/
  | ask (r : Reference) (secrets : Nat)
  /-- A spread that is no map, and the origin of the entry that holds it. -/
  | stray (found : Value.Kind) (origin : Origin)

/-- A piece of a map inside a secret. -/
def Piece.hide : Piece → Piece
  | .field key v => .field key (.secret v)
  | .ask r secrets => .ask r (secrets + 1)
  | .stray found origin => .stray found origin

mutual
/-- The entries with every spread written out where it stands. -/
def flatten : List (Entry Value) → List Piece
  | [] => []
  | ⟨some key, v, _⟩ :: rest => .field key v :: flatten rest
  | ⟨none, v, origin⟩ :: rest => flattenSpread origin v ++ flatten rest

/-- The pieces of one spread, held by an entry with this origin. -/
def flattenSpread (origin : Origin) : Value → List Piece
  | .map fields => fields.map fun f => .field f.1 f.2
  | .ordered entries => flatten entries
  | .reference r => [.ask r 0]
  | .secret inner => (flattenSpread origin inner).map Piece.hide
  | .scalar s => [.stray (Value.scalar s).kind origin]
  | .list _ => [.stray .list origin]
end

def Piece.reference? : Piece → Option Reference
  | .ask r _ => some r
  | _ => none

def Piece.isStray : Piece → Bool
  | .stray .. => true
  | _ => false

/-- The references that are asked for, in order. -/
def asked (ps : List Piece) : List Reference := ps.filterMap Piece.reference?

/-- The pairs that pieces stand for once the references are answered. -/
def fill : List Piece → List Fields → Fields
  | .field key v :: ps, answers => (key, v) :: fill ps answers
  | .ask _ secrets :: ps, fields :: answers =>
    Assoc.mapValues (Value.secret^[secrets]) fields ++ fill ps answers
  | .stray .. :: ps, answers => fill ps answers
  | _, _ => []

section Run

variable {σ α β : Type}

/-- The result of a composition that starts in a state, and the state it leaves. -/
def Composing.outcome (c : Composing σ α) (s : σ) : Except SpreadError α × σ := c.run.run s

variable (resolve : Reference → Composing σ Fields)

/-- The caller answers one reference after the other, each in the state that the answer before
it left. -/
inductive Answered : σ → List Reference → List Fields → σ → Prop
  | nil (s : σ) : Answered s [] [] s
  | cons {s s' s'' : σ} {r : Reference} {rs : List Reference} {fields : Fields}
      {answers : List Fields} (answer : (resolve r).outcome s = (.ok fields, s'))
      (rest : Answered s' rs answers s'') : Answered s (r :: rs) (fields :: answers) s''

/-- How pieces end that are worked off from the first to the last: with which result, in which
state, and after which questions to the caller. -/
inductive Ends (s : σ) (ps : List Piece) : Except SpreadError Fields → σ → List Reference → Prop
  /-- No piece is a stray, the caller answers every reference, and the last pair for each key
  counts. -/
  | composed {s' : σ} {answers : List Fields} {m : Fields} (flat : ∀ p ∈ ps, ¬ p.isStray)
      (answered : Answered resolve s (asked ps) answers s') (last : LastWins (fill ps answers) m) :
      Ends s ps (.ok m) s' (asked ps)
  /-- A stray comes first. -/
  | notAMap {before after : List Piece} {found : Value.Kind} {origin : Origin} {s' : σ}
      {answers : List Fields} (place : ps = before ++ .stray found origin :: after)
      (flat : ∀ p ∈ before, ¬ p.isStray)
      (answered : Answered resolve s (asked before) answers s') :
      Ends s ps (.error (.notAMap found origin)) s' (asked before)
  /-- A reference that the caller refuses comes first. -/
  | refused {before after : List Piece} {r : Reference} {secrets : Nat} {e : SpreadError}
      {s' s'' : σ} {answers : List Fields} (place : ps = before ++ .ask r secrets :: after)
      (flat : ∀ p ∈ before, ¬ p.isStray)
      (answered : Answered resolve s (asked before) answers s')
      (refusal : (resolve r).outcome s' = (.error e, s'')) :
      Ends s ps (.error e) s'' (asked before ++ [r])

/-- The pairs of one piece. -/
def Piece.gather : Piece → Composing σ Fields
  | .field key v => pure [(key, v)]
  | .ask r secrets => Assoc.mapValues (Value.secret^[secrets]) <$> resolve r
  | .stray found origin => throw (.notAMap found origin)

/-- The pairs of pieces, in order. -/
def gather : List Piece → Composing σ Fields
  | [] => pure []
  | p :: ps => do return (← p.gather resolve) ++ (← gather ps)

/-! ### Composing is gathering -/

theorem gather_append (ps qs : List Piece) :
    gather resolve (ps ++ qs) = do return (← gather resolve ps) ++ (← gather resolve qs) := by
  induction ps with
  | nil => simp [gather]
  | cons p ps ih =>
    simp only [List.cons_append, gather, ih, bind_assoc, pure_bind, List.append_assoc]

theorem gather_fields (fields : Fields) :
    gather resolve (fields.map fun f => .field f.1 f.2) = pure fields := by
  induction fields with
  | nil => rfl
  | cons f fields ih => simp [gather, Piece.gather, ih]

theorem Piece.gather_hide (p : Piece) :
    p.hide.gather resolve = Assoc.mapValues .secret <$> p.gather resolve := by
  cases p with
  | field key v => simp [hide, gather, Assoc.mapValues]
  | ask r secrets =>
    have nest : Assoc.mapValues (Value.secret^[secrets + 1])
        = Assoc.mapValues .secret ∘ Assoc.mapValues (Value.secret^[secrets]) := by
      funext m
      simp [Assoc.mapValues, Function.iterate_succ_apply']
    rw [hide, gather, gather, nest, comp_map]
  | stray found origin => rfl

theorem gather_hide (ps : List Piece) :
    gather resolve (ps.map Piece.hide) = Assoc.mapValues .secret <$> gather resolve ps := by
  induction ps with
  | nil => simp [gather, Assoc.mapValues]
  | cons p ps ih => simp [gather, ih, Piece.gather_hide, Assoc.mapValues]

/-- What entries write behind a map and the pairs that a spread before them contributes. Of those
pairs only the last ones under a key count. -/
def gatherBehind (m : Fields) (entries : List (Entry Value)) (pairs : Fields) :
    Composing σ Fields :=
  (fun later => Assoc.lastOnly (m ++ (pairs ++ later))) <$> gather resolve (flatten entries)

/-- Entries that are applied to a map write their pieces behind it, if each spread contributes
its own up to pairs that a later one overrides. -/
theorem composeOnto_eq (entries : List (Entry Value))
    (spreads : ∀ e ∈ entries, ∀ origin, Assoc.lastOnly <$> spreadFields resolve origin e.value
      = Assoc.lastOnly <$> gather resolve (flattenSpread origin e.value)) (m : Fields) :
    composeOnto resolve (Assoc.lastOnly m) entries
      = (fun pairs => Assoc.lastOnly (m ++ pairs)) <$> gather resolve (flatten entries) := by
  induction entries generalizing m with
  | nil => simp [composeOnto, flatten, gather]
  | cons e entries ih =>
    have ih := ih fun e he => spreads e (List.mem_cons_of_mem _ he)
    obtain ⟨_ | key, v, origin⟩ := e
    · have inner := spreads _ (List.mem_cons_self ..) origin
      calc composeOnto resolve (Assoc.lastOnly m) (⟨none, v, origin⟩ :: entries)
          = (Assoc.lastOnly <$> spreadFields resolve origin v)
              >>= gatherBehind resolve m entries := by
            simp [composeOnto, gatherBehind, writeLast_lastOnly, ih,
              Assoc.lastOnly_append_lastOnly_append]
        _ = (Assoc.lastOnly <$> gather resolve (flattenSpread origin v))
              >>= gatherBehind resolve m entries := by rw [inner]
        _ = _ := by
          simp [flatten, gatherBehind, gather_append, Assoc.lastOnly_append_lastOnly_append]
    · simp [composeOnto, flatten, gather, Piece.gather, Assoc.insertLast_lastOnly, ih]

/-- A spread contributes its pieces, up to pairs that a later one overrides. -/
theorem spreadFields_eq (v : Value) (origin : Origin) :
    Assoc.lastOnly <$> spreadFields resolve origin v
      = Assoc.lastOnly <$> gather resolve (flattenSpread origin v) := by
  induction v using Value.induct generalizing origin with
  | scalar s => simp [spreadFields, flattenSpread, gather, Piece.gather]
  | list items => simp [spreadFields, flattenSpread, gather, Piece.gather]
  | map fields => rw [spreadFields, flattenSpread, gather_fields]
  | ordered entries ih =>
    have whole := composeOnto_eq resolve entries ih []
    rw [Assoc.lastOnly] at whole
    simp [spreadFields, flattenSpread, whole, Assoc.lastOnly_lastOnly]
  | reference r =>
    have bare : Assoc.mapValues (Value.secret^[0]) = id := by
      funext m
      simp [Assoc.mapValues]
    simp only [spreadFields, flattenSpread, gather, Piece.gather, bare, id_map, bind_pure_comp,
      map_pure, List.append_nil, bind_pure]
  | secret inner ih =>
    have ih := congrArg (Assoc.mapValues Value.secret <$> ·) (ih origin)
    simpa [spreadFields, flattenSpread, gather_hide, Assoc.lastOnly_mapValues] using ih

theorem compose_eq (entries : List (Entry Value)) :
    compose resolve entries = Assoc.lastOnly <$> gather resolve (flatten entries) :=
  composeOnto_eq resolve entries (fun e _ => spreadFields_eq resolve e.value) []

/-! ### Working off the pieces -/

theorem outcome_bind_of_ok {c : Composing σ α} {s s' : σ} {a : α} (ok : c.outcome s = (.ok a, s'))
    (f : α → Composing σ β) : (c >>= f).outcome s = (f a).outcome s' := by
  have run : c.run.run s = (.ok a, s') := ok
  rw [Composing.outcome, ExceptT.run_bind, StateT.run_bind, run]
  rfl

theorem outcome_bind_of_error {c : Composing σ α} {s s' : σ} {e : SpreadError}
    (failed : c.outcome s = (.error e, s')) (f : α → Composing σ β) :
    (c >>= f).outcome s = (.error e, s') := by
  have run : c.run.run s = (.error e, s') := failed
  rw [Composing.outcome, ExceptT.run_bind, StateT.run_bind, run]
  rfl

theorem outcome_map (f : α → β) (c : Composing σ α) (s : σ) :
    (f <$> c).outcome s = ((c.outcome s).1.map f, (c.outcome s).2) := by
  rw [Composing.outcome, ExceptT.run_map, StateT.run_map]
  rfl

variable {resolve} {s s' : σ} {ps qs : List Piece} {answers : List Fields}

theorem asked_append (ps qs : List Piece) : asked (ps ++ qs) = asked ps ++ asked qs :=
  List.filterMap_append

/-- Pieces without a stray whose references are answered are filled with the answers. -/
theorem outcome_gather (flat : ∀ p ∈ ps, ¬ p.isStray)
    (answered : Answered resolve s (asked ps) answers s') :
    (gather resolve ps).outcome s = (.ok (fill ps answers), s') := by
  induction ps generalizing s answers with
  | nil =>
    cases answered
    rfl
  | cons p ps ih =>
    have flat' : ∀ p ∈ ps, ¬ p.isStray := fun q hq => flat q (List.mem_cons_of_mem _ hq)
    cases p with
    | field key v =>
      have first : (Piece.gather resolve (.field key v)).outcome s = (.ok [(key, v)], s) := rfl
      rw [gather, outcome_bind_of_ok first, outcome_bind_of_ok (ih flat' answered)]
      rfl
    | ask r secrets =>
      obtain _ | @⟨_, s₁, _, _, _, fields, answers, answer, rest⟩ := answered
      have first : (Piece.gather resolve (.ask r secrets)).outcome s
          = (.ok (Assoc.mapValues (Value.secret^[secrets]) fields), s₁) := by
        rw [Piece.gather, outcome_map, answer]
        rfl
      rw [gather, outcome_bind_of_ok first, outcome_bind_of_ok (ih flat' rest)]
      rfl
    | stray found origin => exact absurd rfl (flat _ (List.mem_cons_self ..))

/-- The first piece that fails settles the outcome. -/
theorem outcome_gather_of_error {before after : List Piece} {p : Piece} {e : SpreadError}
    {s'' : σ} (flat : ∀ p ∈ before, ¬ p.isStray)
    (answered : Answered resolve s (asked before) answers s')
    (failed : (p.gather resolve).outcome s' = (.error e, s'')) :
    (gather resolve (before ++ p :: after)).outcome s = (.error e, s'') := by
  rw [gather_append, outcome_bind_of_ok (outcome_gather flat answered)]
  refine outcome_bind_of_error ?_ _
  rw [gather, outcome_bind_of_error failed]

theorem Ends.outcome_gather {result : Except SpreadError Fields} {questions : List Reference}
    (ends : Ends resolve s ps result s' questions) :
    (Assoc.lastOnly <$> gather resolve ps).outcome s = (result, s') := by
  rw [outcome_map]
  cases ends with
  | composed flat answered last =>
    rw [LayeredConfig.outcome_gather flat answered, last.eq_lastOnly]
    rfl
  | notAMap place flat answered =>
    rw [place, outcome_gather_of_error flat answered rfl]
    rfl
  | refused place flat answered refusal =>
    rw [place, outcome_gather_of_error flat answered]
    · rfl
    · rw [Piece.gather, outcome_map, refusal]
      rfl

theorem Answered.concat {r : Reference} {rs : List Reference} {fields : Fields} {s'' : σ}
    (answered : Answered resolve s rs answers s')
    (answer : (resolve r).outcome s' = (.ok fields, s'')) :
    Answered resolve s (rs ++ [r]) (answers ++ [fields]) s'' := by
  induction answered with
  | nil s => exact .cons answer (.nil _)
  | cons first _ ih => exact .cons first (ih answer)

/-- Pieces end in one of the three ways. -/
theorem exists_ends (resolve : Reference → Composing σ Fields) (ps : List Piece) (s : σ) :
    ∃ result s' questions, Ends resolve s ps result s' questions := by
  induction ps using List.reverseRecOn with
  | nil => exact ⟨_, _, _, .composed (by simp) (.nil s) (lastWins_lastOnly _)⟩
  | append_singleton ps p ih =>
    obtain ⟨_, s', _, ends⟩ := ih
    cases ends with
    | @composed _ answers _ flat answered _ =>
      cases p with
      | field key v =>
        have flat' : ∀ p ∈ ps ++ [.field key v], ¬ p.isStray := by
          simpa [or_imp, forall_and, Piece.isStray] using flat
        have answered' : Answered resolve s (asked (ps ++ [.field key v])) answers s' := by
          have questions : asked [.field key v] = [] := rfl
          rwa [asked_append, questions, List.append_nil]
        exact ⟨_, _, _, .composed flat' answered' (lastWins_lastOnly _)⟩
      | ask r secrets =>
        have flat' : ∀ p ∈ ps ++ [.ask r secrets], ¬ p.isStray := by
          simpa [or_imp, forall_and, Piece.isStray] using flat
        obtain ⟨e | fields, s'', answer⟩ : ∃ result s'', (resolve r).outcome s' = (result, s'') :=
          ⟨_, _, rfl⟩
        · exact ⟨_, _, _, .refused rfl flat answered answer⟩
        · have answered' := answered.concat answer
          have questions : asked (ps ++ [.ask r secrets]) = asked ps ++ [r] := asked_append _ _
          rw [← questions] at answered'
          exact ⟨_, _, _, .composed flat' answered' (lastWins_lastOnly _)⟩
      | stray found origin => exact ⟨_, _, _, .notAMap rfl flat answered⟩
    | notAMap place flat answered =>
      exact ⟨_, _, _, .notAMap (by rw [place, List.append_assoc, List.cons_append]) flat answered⟩
    | refused place flat answered refusal =>
      exact ⟨_, _, _,
        .refused (by rw [place, List.append_assoc, List.cons_append]) flat answered refusal⟩

/-! ### The questions to the caller -/

/-- The caller's part with a record of what it has been asked for. -/
def logged (resolve : Reference → Composing σ Fields) (r : Reference) :
    Composing (σ × List Reference) Fields :=
  ExceptT.mk fun (s, log) => (((resolve r).outcome s).1, ((resolve r).outcome s).2, log ++ [r])

theorem outcome_logged (resolve : Reference → Composing σ Fields) (r : Reference) (s : σ)
    (log : List Reference) : (logged resolve r).outcome (s, log)
      = (((resolve r).outcome s).1, ((resolve r).outcome s).2, log ++ [r]) := rfl

theorem Answered.logged {rs : List Reference} (answered : Answered resolve s rs answers s')
    (log : List Reference) :
    Answered (logged resolve) (s, log) rs answers (s', log ++ rs) := by
  induction answered generalizing log with
  | nil s =>
    rw [List.append_nil]
    exact .nil _
  | @cons s s' _ r _ fields _ answer _ ih =>
    have first : (LayeredConfig.logged resolve r).outcome (s, log)
        = (.ok fields, s', log ++ [r]) := by
      rw [outcome_logged, answer]
    exact .cons first (by simpa using ih (log ++ [r]))

theorem Ends.logged {result : Except SpreadError Fields} {questions : List Reference}
    (ends : Ends resolve s ps result s' questions) (log : List Reference) :
    Ends (logged resolve) (s, log) ps result (s', log ++ questions) questions := by
  cases ends with
  | composed flat answered last => exact .composed flat (answered.logged log) last
  | notAMap place flat answered => exact .notAMap place flat (answered.logged log)
  | refused place flat answered refusal =>
    refine .refused place flat (answered.logged log) ?_
    rw [outcome_logged, refusal, List.append_assoc]

/-- There is one way in which pieces end. -/
theorem Ends.unique {result result' : Except SpreadError Fields} {s'' : σ}
    {questions questions' : List Reference} (ends : Ends resolve s ps result s' questions)
    (ends' : Ends resolve s ps result' s'' questions') :
    result = result' ∧ s' = s'' ∧ questions = questions' := by
  have one := (ends.logged []).outcome_gather
  rw [(ends'.logged []).outcome_gather] at one
  simpa [eq_comm] using one

/-- Composing a map ends as working off the flattened entries does: with the fields that they
write last, or with the error of the first spread that is no map or that the caller refuses. Up
to there the caller is asked once for each reference, from the first to the last, and for
nothing else. -/
theorem compose_ends (resolve : Reference → Composing σ Fields) (entries : List (Entry Value))
    (s : σ) :
    ∃ result s' questions, Ends resolve s (flatten entries) result s' questions ∧
      (compose resolve entries).outcome s = (result, s') ∧
      ∀ log, (compose (logged resolve) entries).outcome (s, log)
        = (result, s', log ++ questions) := by
  obtain ⟨result, s', questions, ends⟩ := exists_ends resolve (flatten entries) s
  refine ⟨result, s', questions, ends, ?_, fun log => ?_⟩
  · rw [compose_eq, ends.outcome_gather]
  · rw [compose_eq, (ends.logged log).outcome_gather]

end Run

end LayeredConfig

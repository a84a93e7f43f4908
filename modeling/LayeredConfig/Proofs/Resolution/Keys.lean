import LayeredConfig.Resolution.World

/-!
Keys tell plain references apart.

A key is an alias, a colon, and segments with slashes between them. Names that hold
none of these separators can be read back from the key (`cacheKey_eq_iff`). Other names
are confused exactly where slashes inside segments, or colons, come to the same
(`cacheKey_eq_iff_confused`).
-/

namespace LayeredConfig

/-- An alias without the character that ends it in a key. -/
def IsPlainAlias (name : String) : Prop := ':' ∉ name.toList

/-- Segments that are not empty, without the character that separates them in a key. -/
def IsPlainPath (path : List String) : Prop := ∀ s ∈ path, s ≠ "" ∧ '/' ∉ s.toList

instance (name : String) : Decidable (IsPlainAlias name) := by
  unfold IsPlainAlias; infer_instance

instance (path : List String) : Decidable (IsPlainPath path) := by
  unfold IsPlainPath; infer_instance

/-- A reference with a plain alias and plain segments. -/
structure Reference.IsPlain (r : Reference) : Prop where
  «alias» : IsPlainAlias r.alias
  path : IsPlainPath r.path

instance (r : Reference) : Decidable r.IsPlain :=
  decidable_of_iff (IsPlainAlias r.alias ∧ IsPlainPath r.path)
    ⟨fun h => ⟨h.1, h.2⟩, fun h => ⟨h.alias, h.path⟩⟩

/-- What a provider is asked for on behalf of a plain reference is plain. -/
theorem Reference.IsPlain.requestPath {r : Reference} (h : r.IsPlain) :
    IsPlainPath r.requestPath :=
  fun s hs => h.path s (List.takeWhile_subset _ hs)

/-! ### Reading a key back -/

/-- What stands in front of the first separator, and what stands behind it, can be read
back. -/
theorem append_separator_inj {α : Type} {c : α} {xs ys us vs : List α} (hx : c ∉ xs) (hu : c ∉ us)
    (h : xs ++ c :: ys = us ++ c :: vs) : xs = us ∧ ys = vs := by
  induction xs generalizing us with
  | nil =>
    cases us with
    | nil => exact ⟨rfl, (List.cons.inj h).2⟩
    | cons u us =>
      obtain ⟨rfl, -⟩ := List.cons.inj h
      exact absurd List.mem_cons_self hu
  | cons x xs ih =>
    cases us with
    | nil =>
      obtain ⟨rfl, -⟩ := List.cons.inj h
      exact absurd List.mem_cons_self hx
    | cons u us =>
      obtain ⟨rfl, rest⟩ := List.cons.inj h
      obtain ⟨rfl, same⟩ := ih (fun m => hx (List.mem_cons_of_mem _ m))
        (fun m => hu (List.mem_cons_of_mem _ m)) rest
      exact ⟨rfl, same⟩

/-- Only the empty path is written as nothing. -/
theorem intercalate_eq_nil {path : List String} (h : IsPlainPath path)
    (empty : ['/'].intercalate (path.map String.toList) = []) : path = [] := by
  cases path with
  | nil => rfl
  | cons s rest =>
    have filled : s.toList ≠ [] := by
      intro hs
      exact (h s List.mem_cons_self).1 (String.toList_eq_nil_iff.mp hs)
    cases rest with
    | nil => exact absurd (by simpa using empty) filled
    | cons t rest => simp at empty

/-- Plain segments can be read back from what the slashes join. -/
theorem intercalate_inj {path path' : List String} (h : IsPlainPath path) (h' : IsPlainPath path')
    (same : ['/'].intercalate (path.map String.toList)
      = ['/'].intercalate (path'.map String.toList)) : path = path' := by
  by_cases empty : path = []
  · subst empty
    exact (intercalate_eq_nil h' same.symm).symm
  by_cases empty' : path' = []
  · subst empty'
    exact intercalate_eq_nil h same
  have free : ∀ {p : List String}, IsPlainPath p → ∀ l ∈ p.map String.toList, '/' ∉ l := by
    intro p hp l hl
    obtain ⟨s, hs, rfl⟩ := List.mem_map.mp hl
    exact (hp s hs).2
  have split := congrArg (List.splitOn '/') same
  rw [List.splitOn_intercalate _ (free h) (by simpa using empty),
    List.splitOn_intercalate _ (free h') (by simpa using empty')] at split
  exact (List.map_inj_right fun _ _ => String.toList_inj.mp).mp split

/-- The characters of a key. -/
theorem toList_cacheKey (name : String) (path : List String) :
    (cacheKey name path).toList
      = name.toList ++ ':' :: ['/'].intercalate (path.map String.toList) := by
  simp [cacheKey, String.toList_intercalate]

/-- Plain names have the same key exactly when they are the same. -/
theorem cacheKey_eq_iff {name name' : String} {path path' : List String}
    (ha : IsPlainAlias name) (ha' : IsPlainAlias name') (hp : IsPlainPath path)
    (hp' : IsPlainPath path') :
    cacheKey name path = cacheKey name' path' ↔ name = name' ∧ path = path' := by
  constructor
  · intro same
    have chars := congrArg String.toList same
    rw [toList_cacheKey, toList_cacheKey] at chars
    obtain ⟨front, back⟩ := append_separator_inj ha ha' chars
    exact ⟨String.toList_inj.mp front, intercalate_inj hp hp' back⟩
  · rintro ⟨rfl, rfl⟩
    rfl

/-- References with the same key ask for the same data if they are plain. -/
theorem Reference.IsPlain.eq_of_key_eq {r r' : Reference} (h : r.IsPlain) (h' : r'.IsPlain)
    (same : r.key = r'.key) : r.alias = r'.alias ∧ r.requestPath = r'.requestPath :=
  (cacheKey_eq_iff h.alias h'.alias h.requestPath h'.requestPath).mp same

/-! ### Which names are confused -/

/-- What a key tells of a path: the pieces between slashes. -/
def pieces : List String → List (List Char)
  | [] => [[]]
  | s :: rest => (s :: rest).flatMap fun s => s.toList.splitOn '/'

theorem splitOn_joined (path : List String) :
    (['/'].intercalate (path.map String.toList)).splitOn '/' = pieces path := by
  induction path with
  | nil => rfl
  | cons s rest ih =>
    cases rest with
    | nil => simp [pieces]
    | cons t rest =>
      rw [List.map_cons, List.map_cons, List.intercalate_cons_cons, ← List.map_cons,
        List.append_assoc, List.singleton_append, List.splitOn_append_cons_self, ih]
      rfl

/-- Paths are joined to the same text exactly when they have the same pieces. -/
theorem joined_eq_iff {path path' : List String} :
    "/".intercalate path = "/".intercalate path' ↔ pieces path = pieces path' := by
  rw [← String.toList_inj, String.toList_intercalate, String.toList_intercalate]
  constructor
  · intro same
    rw [← splitOn_joined, ← splitOn_joined]
    exact congrArg _ same
  · intro same
    rw [← splitOn_joined, ← splitOn_joined] at same
    have back := congrArg (['/'].intercalate ·) same
    simp only [List.intercalate_splitOn] at back
    exact back

/-- Names that a key does not tell apart: the paths have the same pieces, or one alias is the
other one, a colon, and what the path of the other one has in front of a colon. -/
inductive Confused (name : String) (path : List String) (name' : String) (path' : List String) :
    Prop where
  | pieces (same : name = name') (samePieces : pieces path = pieces path')
  | longer (x : String) (aliases : name' = name ++ ":" ++ x)
      (paths : "/".intercalate path = x ++ ":" ++ "/".intercalate path')
  | shorter (x : String) (aliases : name = name' ++ ":" ++ x)
      (paths : "/".intercalate path' = x ++ ":" ++ "/".intercalate path)

/-- An alias and a path that begins with the rest of a longer alias. -/
theorem cacheKey_append (name x : String) (path : List String) :
    cacheKey (name ++ ":" ++ x) path = name ++ ":" ++ (x ++ ":" ++ "/".intercalate path) := by
  simp [cacheKey, String.append_assoc]

/-- Where one alias begins with another one, and the keys are the same. -/
theorem joined_of_front {front : List Char} {joined joined' : String}
    (same : ':' :: joined.toList = front ++ ':' :: joined'.toList) :
    front = [] ∧ joined = joined' ∨
      ∃ x : String, front = ':' :: x.toList ∧ joined = x ++ ":" ++ joined' := by
  cases front with
  | nil => exact .inl ⟨rfl, String.toList_inj.mp (List.cons.inj same).2⟩
  | cons c front =>
    obtain ⟨rfl, rest⟩ := List.cons.inj same
    refine .inr ⟨.ofList front, by simp, String.toList_inj.mp ?_⟩
    simp [rest]

/-- Which names have the same key. -/
theorem cacheKey_eq_iff_confused {name name' : String} {path path' : List String} :
    cacheKey name path = cacheKey name' path' ↔ Confused name path name' path' := by
  constructor
  · intro same
    have chars : name.toList ++ ':' :: ("/".intercalate path).toList
        = name'.toList ++ ':' :: ("/".intercalate path').toList := by
      simpa [cacheKey] using congrArg String.toList same
    rcases List.append_eq_append_iff.mp chars with ⟨front, aliases, paths⟩ | ⟨front, aliases, paths⟩
    · rcases joined_of_front paths with ⟨rfl, joined⟩ | ⟨x, rfl, joined⟩
      · refine .pieces (String.toList_inj.mp ?_) (joined_eq_iff.mp joined)
        rw [aliases, List.append_nil]
      · refine .longer x (String.toList_inj.mp ?_) joined
        simp [aliases]
    · rcases joined_of_front paths with ⟨rfl, joined⟩ | ⟨x, rfl, joined⟩
      · refine .pieces (String.toList_inj.mp ?_) (joined_eq_iff.mp joined.symm)
        rw [aliases, List.append_nil]
      · refine .shorter x (String.toList_inj.mp ?_) joined
        simp [aliases]
  · rintro (⟨rfl, same⟩ | ⟨x, rfl, same⟩ | ⟨x, rfl, same⟩)
    · rw [cacheKey, cacheKey, joined_eq_iff.mpr same]
    · rw [cacheKey_append, cacheKey, same]
    · rw [cacheKey_append, cacheKey, same]

/-- References that a key does not tell apart. -/
def Reference.IsConfusedWith (r r' : Reference) : Prop :=
  Confused r.alias r.requestPath r'.alias r'.requestPath

theorem Reference.key_eq_iff {r r' : Reference} : r.key = r'.key ↔ r.IsConfusedWith r' :=
  cacheKey_eq_iff_confused

end LayeredConfig

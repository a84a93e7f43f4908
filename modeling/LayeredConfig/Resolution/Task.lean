import LayeredConfig.Resolution.Site

/-!
A value on its way to being resolved.

A task is a tree with a site for every reference, which stands at the address of
the reference. This module says what a task is, how one begins, where it can move,
and what it gives back when it is dropped; `Task.poll` moves it.
-/

namespace LayeredConfig

/-- What the parts of a task make. -/
inductive Shape where
  | list
  | map (keys : List String)
  /-- A map with spreads: key and origin of every entry. -/
  | ordered (heads : List (Option String × Origin))

/-- A value being resolved. -/
inductive Task where
  /-- A value without parts or references, not yet looked at. -/
  | leaf (v : Value)
  /-- Resolved; a spread that was given up has no value. -/
  | finished (v : Option Value)
  | failed (e : ResolveError)
  /-- A reference, which may stand for the value of a spread. -/
  | site (inSpread : Bool) (r : Reference) (stage : Stage)
  | secret (inner : Task)
  | join (shape : Shape) (parts : List Task)

namespace Shape

/-- The value that finished parts make. -/
def close : Shape → List (Option Value) → Except ResolveError Value
  | .list, vs => .ok (.list (vs.filterMap id))
  | .map keys, vs => .ok (.map (keys.zip (vs.filterMap id)))
  | .ordered heads, vs =>
    let entries := (heads.zip vs).filterMap fun (head, v) =>
      v.map fun v => { key := head.1, value := v, origin := head.2 }
    ((composeResolved entries).map Value.map).mapError .spread

end Shape

namespace Task

/-! ### Tasks of values -/

/-- A task of several parts. One without parts is over as soon as it is looked at. -/
def ofParts (shape : Shape) (empty : Value) (parts : List Task) : Task :=
  if parts.isEmpty then .leaf empty else .join shape parts

mutual
/-- The task of resolving a value. -/
def ofValue : Value → Task
  | .scalar s => .leaf (.scalar s)
  | .list items => ofParts .list (.list []) (ofItems items)
  | .map fields => ofParts (.map (Assoc.keys fields)) (.map []) (ofFields fields)
  | .ordered entries =>
    ofParts (.ordered (entries.map fun e => (e.key, e.origin))) (.map []) (ofEntries entries)
  | .reference r => .site false r .fresh
  | .secret inner => .secret (ofValue inner)

/-- The task of resolving the value of a spread. -/
def ofSpread : Value → Task
  | .reference r => .site true r .fresh
  | .secret inner => .secret (ofSpread inner)
  | .scalar s => .leaf (.scalar s)
  | .list items => ofParts .list (.list []) (ofItems items)
  | .map fields => ofParts (.map (Assoc.keys fields)) (.map []) (ofFields fields)
  | .ordered entries =>
    ofParts (.ordered (entries.map fun e => (e.key, e.origin))) (.map []) (ofEntries entries)

def ofItems : List Value → List Task
  | [] => []
  | v :: rest => ofValue v :: ofItems rest

def ofFields : List (String × Value) → List Task
  | [] => []
  | (_, v) :: rest => ofValue v :: ofFields rest

def ofEntries : List (Entry Value) → List Task
  | [] => []
  | ⟨some _, v, _⟩ :: rest => ofValue v :: ofEntries rest
  | ⟨none, v, _⟩ :: rest => ofSpread v :: ofEntries rest
end

/-- The task of resolving the values of a plain map. -/
def ofMap (fields : Fields) : Task :=
  if fields.isEmpty then .finished (some (.map []))
  else .join (.map (Assoc.keys fields)) (ofFields fields)

/-! ### Being over -/

def isFinished : Task → Bool
  | .finished _ => true
  | _ => false

def error? : Task → Option ResolveError
  | .failed e => some e
  | _ => none

def isOver (t : Task) : Bool := t.isFinished || t.error?.isSome

/-- What a task that is over has come to. -/
def result? : Task → Option (Except ResolveError Value)
  | .finished v => some (.ok (v.getD .null))
  | .failed e => some (.error e)
  | _ => none

/-- The values of parts that have all finished. -/
def values? : List Task → Option (List (Option Value))
  | [] => some []
  | .finished v :: rest => (values? rest).map (v :: ·)
  | _ :: _ => none

/-! ### Turns -/

/-- How many parts may still be polled together, each of them every time. Where there are
more, they take turns. -/
def fewParts : Nat := 30

/-- Whether parts take turns. One after another, they never do. -/
def takeTurns (parallel : Bool) (parts : List Task) : Bool :=
  parallel && fewParts < parts.length

mutual
/-- Where a task can move, in order. One after another, no part moves before those in
front of it have finished. -/
def ready (parallel : Bool) (w : World) : Address → Task → List Address
  | here, .leaf _ => [here]
  | _, .finished _ => []
  | _, .failed _ => []
  | here, .site _ r stage => if Site.isReady r here w stage then [here] else []
  | here, .secret inner => ready parallel w here inner
  | here, .join _ parts => readyParts parallel w here ⟨takeTurns parallel parts, 0⟩ parts

def readyParts (parallel : Bool) (w : World) : Address → Step → List Task → List Address
  | _, _, [] => []
  | outer, s, t :: rest =>
    ready parallel w (s :: outer) t ++
      if parallel || t.isFinished then readyParts parallel w outer s.next rest else []
end

/-- Whether a task can move. -/
def isReady (parallel : Bool) (w : World) (here : Address) (t : Task) : Bool :=
  !(t.ready parallel w here).isEmpty

mutual
/-- The moments at which a part of a task will be ready by itself. -/
def moments : Task → List Nat
  | .leaf _ => []
  | .finished _ => []
  | .failed _ => []
  | .site _ _ stage => Site.moments stage
  | .secret inner => moments inner
  | .join _ parts => momentsOf parts

def momentsOf : List Task → List Nat
  | [] => []
  | t :: rest => moments t ++ momentsOf rest
end

/-! ### Dropping -/

mutual
/-- Give back what the sites of a task hold: part by part in order, or, where parts take
turns, from the one that had the last turn backwards. -/
def release (parallel : Bool) : Address → Task → World → World
  | _, .leaf _, w => w
  | _, .finished _, w => w
  | _, .failed _, w => w
  | here, .site _ r stage, w => Site.release r here w stage
  | here, .secret inner, w => release parallel here inner w
  | here, .join _ parts, w =>
    let drops := releases parallel here ⟨takeTurns parallel parts, 0⟩ parts
    (w.agenda.lastFirst drops).foldl (fun w drop => drop.2 w) w

/-- The addresses of parts, and what dropping each of them does. -/
def releases (parallel : Bool) : Address → Step → List Task → List (Address × (World → World))
  | _, _, [] => []
  | outer, s, t :: rest =>
    (s :: outer, release parallel (s :: outer) t) :: releases parallel outer s.next rest
end

/-! ### Measures -/

mutual
/-- How deep the parts of a task are nested. -/
def height : Task → Nat
  | .leaf _ => 1
  | .finished _ => 1
  | .failed _ => 1
  | .site _ _ _ => 1
  | .secret inner => height inner + 1
  | .join _ parts => heightOf parts + 1

def heightOf : List Task → Nat
  | [] => 0
  | t :: rest => max (height t) (heightOf rest)
end

mutual
/-- An upper bound of how often a task can be moved. -/
def remaining : Task → Nat
  | .leaf _ => 1
  | .finished _ => 0
  | .failed _ => 0
  | .site _ _ stage => Site.remaining stage
  | .secret inner => remaining inner
  | .join _ parts => remainingOf parts

def remainingOf : List Task → Nat
  | [] => 0
  | t :: rest => remaining t + remainingOf rest
end

end Task

end LayeredConfig

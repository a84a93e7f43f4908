import LayeredConfig.Resolution.Task

/-!
Moving a task.

`Task.poll` goes through the tree and moves every site that can move. One after
another, a part is started when those in front of it have finished. Side by side,
a few parts are all polled in order, and the first error that comes up is the error
of the whole. Many parts take turns instead, in the order in which they were woken,
and an error counts only once all parts in front of it have finished.

The tasks that an error drops give back what they hold. A map with spreads is
composed once all its parts are there, in declaration order, so the result does not
depend on which of them came first.
-/

namespace LayeredConfig.Task

/-- How a task at an address is moved. -/
abbrev Mover := Address → Task → World → Task × World

/-- What a site has come to. Where missing data is allowed, an error other than an
interruption becomes a warning, and the reference null; the value of a spread is left
out altogether. -/
def ofProgress (inSpread : Bool) (r : Reference) (p : Progress) (w : World) : Task × World :=
  match p with
  | .waiting stage => (.site inSpread r stage, w)
  | .settled (.ok v) => (.finished (some v), w)
  | .settled (.error e) =>
    if w.resolver.policy.allowMissing && !e.isInterruption then
      (.finished (if inSpread then none else some .null), w.log (.downgraded e w.now))
    else (.failed e, w)

/-- A secret of what a task has come to. -/
def inSecret : Task → Task
  | .finished v => .finished (v.map .secret)
  | .failed e => .failed e
  | t => .secret t

/-- Parts that have been polled: they make a value once all have finished. -/
def ofPolled (shape : Shape) (parts : List Task) : Task :=
  match values? parts with
  | none => .join shape parts
  | some vs =>
    match shape.close vs with
    | .ok v => .finished (some v)
    | .error e => .failed e

/-- The error that parts have come to, if any. Of parts that take turns, those in front of
it must have finished. -/
def surfaced? (inTurns : Bool) (parts : List Task) : Option ResolveError :=
  if inTurns then (parts.find? (!·.isFinished)).bind error? else parts.findSome? error?

/-! ### In order -/

/-- Move parts in order, up to an error. One after another, no part is started before
those in front of it have finished. -/
def pollInOrder (parallel : Bool) (move : Mover) (outer : Address) :
    (index : Nat) → List Task → World → List Task × World
  | _, [], w => ([], w)
  | i, t :: rest, w =>
    let (t, w) := move (⟨false, i⟩ :: outer) t w
    if t.isFinished || (parallel && !t.isOver) then
      let (rest, w) := pollInOrder parallel move outer (i + 1) rest w
      (t :: rest, w)
    else (t :: rest, w)

/-! ### In turns -/

/-- Give a part a turn. If it cannot move, it has its turn in vain. -/
def giveTurn (parallel : Bool) (move : Mover) (here : Address) (t : Task) (w : World) :
    Task × World :=
  let w := w.plan (·.call here)
  if t.isReady parallel w here then move here t w else (t, w.plan (·.settle here))

/-- Give turns to parts that have been woken, until one of them is over; tells whether one
is. After as many turns as there are parts, or once two parts were woken again in their own
turn, the others around the value get a chance: it wants to be looked at again. -/
def pollRound (parallel : Bool) (move : Mover) (outer : Address) :
    (turns again : Nat) → List Task → World → Bool × List Task × World
  | 0, _, parts, w => (false, parts, w.wake outer)
  | turns + 1, again, parts, w =>
    match (w.agenda.next? outer fun i => parts[i]?.any (!·.isOver)).bind fun i =>
        parts[i]?.map (i, ·) with
    | none => (false, parts, w)
    | some (i, t) =>
      let here := ⟨true, i⟩ :: outer
      let (t, w) := giveTurn parallel move here t w
      let parts := parts.set i t
      if t.isOver then (true, parts, w.plan (·.settle here))
      else
        let again := if here ∈ w.agenda.woken then again + 1 else again
        if again = 2 then (false, parts, w.wake outer)
        else pollRound parallel move outer turns again parts w

/-- Go on with rounds as long as parts come to their ends. -/
def pollInTurns (parallel : Bool) (move : Mover) (outer : Address) :
    (rounds : Nat) → List Task → World → List Task × World
  | 0, parts, w => (parts, w)
  | rounds + 1, parts, w =>
    let turns := parts.countP (!·.isOver)
    match pollRound parallel move outer turns 0 parts (w.plan (·.attend outer)) with
    | (false, parts, w) => (parts, w)
    | (true, parts, w) =>
      if (surfaced? true parts).isSome then (parts, w)
      else pollInTurns parallel move outer rounds parts w

/-! ### Tasks -/

/-- Move the parts of a task. -/
def pollParts (parallel : Bool) (move : Mover) (here : Address) (parts : List Task) (w : World) :
    List Task × World :=
  if takeTurns parallel parts then
    pollInTurns parallel move here (parts.countP (!·.isOver)) parts w
  else pollInOrder parallel move here 0 parts w

/-- Move a task of a limited height as far as it can go now. A part may have several turns
and is never higher after one than before, so the height bounds the recursion. -/
def pollWithin (parallel : Bool) : (height : Nat) → Mover
  | 0, _, t, w => (t, w)
  | _ + 1, _, .leaf v, w =>
    match w.interruption? with
    | some i => (.failed (.interrupted i), w)
    | none => (.finished (some v), w)
  | _ + 1, _, .finished v, w => (.finished v, w)
  | _ + 1, _, .failed e, w => (.failed e, w)
  | _ + 1, here, .site inSpread r stage, w =>
    let (progress, w) := Site.poll r here stage w
    ofProgress inSpread r progress w
  | height + 1, here, .secret inner, w =>
    let (inner, w) := pollWithin parallel height here inner w
    (inSecret inner, w)
  | height + 1, here, .join shape parts, w =>
    let (parts, w) := pollParts parallel (pollWithin parallel height) here parts w
    match surfaced? (takeTurns parallel parts) parts with
    | some e => (.failed e, release parallel here (.join shape parts) w)
    | none => (ofPolled shape parts, w)

/-- Move a task as far as it can go now. -/
def poll (parallel : Bool) (here : Address) (t : Task) (w : World) : Task × World :=
  pollWithin parallel t.height here t w

end LayeredConfig.Task

import LayeredConfig.Resolution.Lines

/-!
Whose turn it is.

What happens to one reference may let others move: it wakes them. Where the parts
of a value take turns, the turns go round in the order in which the parts were
woken, each with whatever it contains. The order decides only who moves first, not
who may move.
-/

namespace LayeredConfig

structure Agenda where
  /-- The parts that wait for a turn, in the order in which they were woken. -/
  woken : List Address := []
  /-- The values whose parts take turns and one of whose parts has been woken since they were
  last looked at. -/
  stirred : List Address := []
  /-- The parts that have had a turn, the latest first. -/
  called : List Address := []
  /-- The references that an interruption wakes, in the order in which they began to wait. -/
  watching : List Address := []

namespace Agenda

/-- Let a part wait for a turn, at the end. -/
def enlist (g : Agenda) (s : Step) (outer : Address) : Agenda :=
  { g with woken := g.woken ++ [s :: outer], stirred := outer :: g.stirred.erase outer }

/-- Wake what stands at an address, and so everything around it that takes turns. What waits
for a turn or is stirred already has told those around it. -/
def wake (g : Agenda) : Address → Agenda
  | [] => g
  | s :: outer =>
    if !s.inTurns then g.wake outer
    else if s :: outer ∈ g.woken then g
    else if outer ∈ g.stirred then g.enlist s outer
    else (g.enlist s outer).wake outer

/-- Wake several, one after the other. -/
def wakeAll (g : Agenda) (as : List Address) : Agenda := as.foldl wake g

/-- See to it that what stands at an address, and everything around it, will have a turn. -/
def summon (g : Agenda) : Address → Agenda
  | [] => g
  | s :: outer =>
    (if s.inTurns && s :: outer ∉ g.woken then g.enlist s outer else g).summon outer

/-- Summon all who can move: first those who were waiting, in the order in which they began
to. -/
def rouse (g : Agenda) (ready : List Address) : Agenda :=
  (g.watching.filter (· ∈ ready) ++ ready).foldl summon g

/-- Which part of the value at an address is the next to have a turn, of those that are not
over yet. -/
def next? (g : Agenda) (outer : Address) (isOpen : Nat → Bool) : Option Nat :=
  g.woken.findSome? fun
    | s :: up => if s.inTurns && up = outer && isOpen s.index then some s.index else none
    | [] => none

/-- A part has its turn now. -/
def call (g : Agenda) (a : Address) : Agenda :=
  { g with woken := g.woken.erase a, called := a :: g.called.erase a }

/-- A value whose parts take turns is looked at. -/
def attend (g : Agenda) (a : Address) : Agenda := { g with stirred := g.stirred.erase a }

/-- Nothing at an address or within it can move: all who wait for a turn there have it in
vain. -/
def settle (g : Agenda) (a : Address) : Agenda :=
  let g := (g.woken.filter (a.isSuffixOf ·)).foldl call g
  { g with stirred := g.stirred.filter (!a.isSuffixOf ·) }

/-- Order parts by their addresses: those that had a turn last come first, and those without
one keep their order behind them. -/
def lastFirst {α : Type} (g : Agenda) (parts : List (Address × α)) : List (Address × α) :=
  go g.called parts
where
  go : List Address → List (Address × α) → List (Address × α)
  | [], parts => parts
  | a :: rest, parts => parts.filter (·.1 = a) ++ go rest (parts.filter (·.1 ≠ a))

/-- Begin to watch out for an interruption, at the end of those who do. -/
def watch (g : Agenda) (a : Address) : Agenda :=
  { g with watching := g.watching.erase a ++ [a] }

def unwatch (g : Agenda) (a : Address) : Agenda := { g with watching := g.watching.erase a }

end Agenda

end LayeredConfig

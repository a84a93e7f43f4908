import LayeredConfig.Provider.Basic
import LayeredConfig.Resolution.Lines

/-!
Which provider an alias stands for.

An alias is bound once: the first declaration or installation stays in effect.
A declared provider is built when it is first needed, by whoever is first in line
for it, and how that ended is kept.
-/

namespace LayeredConfig

/-- What an alias is bound to. -/
inductive Binding where
  | installed (p : Provider)
  /-- A provider to be built, and how the building ended once it is over. -/
  | declared (providerType : String) (config : Fields)
      (built : Option (Except SetupError Provider))

/-- The types of providers and the bound aliases. -/
structure Registry where
  types : Assoc ProviderType := []
  bindings : Assoc Binding := []
  /-- Who stands in line for a provider that has not been built yet, by alias. -/
  lines : Lines := []

namespace Registry

/-- Declare a provider; tells whether the alias was free. An unknown type is refused
even for an alias that is taken. -/
def register (r : Registry) («alias» providerType : String) (config : Fields) :
    Except SetupError Bool × Registry :=
  if !Assoc.contains r.types providerType then (.error (.unknownType «alias» providerType), r)
  else if Assoc.contains r.bindings «alias» then (.ok false, r)
  else (.ok true, { r with
    bindings := Assoc.insert r.bindings «alias» (.declared providerType config none) })

/-- Install an initialised provider; tells whether the alias was free. -/
def insert (r : Registry) («alias» : String) (p : Provider) : Bool × Registry :=
  if Assoc.contains r.bindings «alias» then (false, r)
  else (true, { r with bindings := Assoc.insert r.bindings «alias» (.installed p) })

def contains (r : Registry) («alias» : String) : Bool := Assoc.contains r.bindings «alias»

/-- The bound aliases, sorted. -/
def aliases (r : Registry) : List String := Assoc.keys (Assoc.sorted r.bindings)

/-- Whether the provider of an alias has yet to be built. -/
def isUnbuilt (r : Registry) («alias» : String) : Bool :=
  match Assoc.get? r.bindings «alias» with
  | some (.declared _ _ none) => true
  | _ => false

/-- Keep how the building of a declared provider ended. -/
def setBuilt (r : Registry) («alias» : String) (result : Except SetupError Provider) : Registry :=
  match Assoc.get? r.bindings «alias» with
  | some (.declared providerType config _) => { r with
    bindings := Assoc.insert r.bindings «alias» (.declared providerType config (some result))
    lines := r.lines.dissolve «alias» }
  | _ => r

def lineUp (r : Registry) («alias» : String) (a : Address) : Registry :=
  { r with lines := r.lines.join «alias» a }

def leaveLine (r : Registry) («alias» : String) (a : Address) : Registry :=
  { r with lines := r.lines.leave «alias» a }

end Registry

end LayeredConfig

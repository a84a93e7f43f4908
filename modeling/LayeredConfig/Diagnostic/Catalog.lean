import LayeredConfig.Assoc
import LayeredConfig.Diagnostic.Basic

/-!
The catalog of diagnostic codes.

A code reads `C-<subsystem>-<number>`; subsystem 0 is the compiler itself and its
options, 1 conversion, 2 resolution and 3 composition.
-/

namespace LayeredConfig

/-- What the catalog says about a code. -/
structure CodeInfo where
  subsystem : String
  title : String
  /-- The general message of the code. -/
  summary : String
  docsUrl : Option String
  /-- The first version with this code. -/
  since : String
  deriving DecidableEq, Repr

namespace Catalog

/-- The page that describes a code. -/
def docsPage (code : String) : String := "https://csl.dev/docs/errors/" ++ code

/-- An entry under its code, with its page; every code so far is as old as the catalog. -/
def entry (code subsystem title summary : String) : String × CodeInfo :=
  (code, { subsystem, title, summary, docsUrl := some (docsPage code), since := "0.1.0" })

/-- Every code, sorted. -/
def entries : Assoc CodeInfo := [
  entry "C-0-1" "internal" "Internal Error"
    "An internal error occurred. This is a bug in the CSL compiler.",
  entry "C-0-2" "options" "Invalid Compile Options" "The compile options could not be read.",
  entry "C-1-1" "convert" "Unsupported Expression"
    "The expression cannot be turned into a configuration value.",
  entry "C-1-2" "convert" "Missing Expression" "An entry has no value expression.",
  entry "C-1-3" "convert" "Empty Map Key" "Map entries must have a non-empty key.",
  entry "C-1-4" "convert" "Spread Not Allowed Here"
    "Spreads cannot be used inside a source configuration block.",
  entry "C-1-5" "convert" "Nesting Too Deep"
    "The document nests values deeper than the compiler allows.",
  entry "C-1-6" "convert" "Spread With A Key" "A spread entry cannot also name a key.",
  entry "C-2-1" "resolve" "Provider Not Registered"
    "A reference names a provider alias that no source declares.",
  entry "C-2-2" "resolve" "Unresolved Reference"
    "The provider could not supply a value for the reference.",
  entry "C-2-3" "resolve" "Resolution Cancelled"
    "Reference resolution was cancelled or ran past its deadline.",
  entry "C-2-4" "resolve" "Provider Setup Failed"
    "A provider could not be created or initialised.",
  entry "C-3-1" "compose" "Spread Target Is Not A Map" "Only maps can be spread into a map.",
  entry "C-3-2" "compose" "Unresolved Spread"
    "A spread reference was composed before it was resolved."
]

/-- What the catalog says about a code. -/
def info? (code : String) : Option CodeInfo := Assoc.get? entries code

end Catalog

/-- The page about a diagnostic's code, if the catalog has it. -/
def Diagnostic.docsUrl? (d : Diagnostic) : Option String := do
  (← Catalog.info? (← d.code)).docsUrl

end LayeredConfig

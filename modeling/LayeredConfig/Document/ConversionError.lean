import LayeredConfig.Diagnostic.Basic
import LayeredConfig.Text.Quoted

/-!
Why a document cannot be converted.

An error is a cause at an origin, under the keys and list indices that lead to
it. The message reads outside in.
-/

namespace LayeredConfig

/-- The deepest nesting that a document may have. -/
def maxDepth : Nat := 256

/-- What is wrong with a node of a document. -/
inductive ConversionCause where
  /-- The node is no value; `what` names it. -/
  | unsupported (what : String)
  | missingExpression
  | emptyKey
  /-- A spread inside the configuration of a source. -/
  | spreadNotAllowed
  | keyedSpread (key : String)
  | tooDeep
  deriving DecidableEq, Repr

/-- One step from a container to a part of it. -/
inductive ConversionStep where
  | key (key : String)
  | index (i : Nat)
  deriving DecidableEq, Repr

structure ConversionError where
  cause : ConversionCause
  /-- Where the wrong node is. -/
  origin : Origin
  /-- The way to it, outermost step first. -/
  under : List ConversionStep := []
  deriving DecidableEq, Repr

namespace ConversionError

/-- The error as seen from a container. -/
def inStep (step : ConversionStep) (e : ConversionError) : ConversionError :=
  { e with under := step :: e.under }

/-- The message without the way to the node. -/
def rootMessage (e : ConversionError) : String :=
  let place := e.origin.text
  match e.cause with
  | .unsupported what => s!"unsupported expression: {what} at {place}"
  | .missingExpression => s!"map entry has no expression at {place}"
  | .emptyKey => s!"map entry has an empty key at {place}"
  | .spreadNotAllowed => s!"spread is not allowed inside a source configuration at {place}"
  | .keyedSpread key => s!"spread entry also names key {Text.quoted key} at {place}"
  | .tooDeep => s!"nesting exceeds the maximum depth of {maxDepth} at {place}"

def stepMessage : ConversionStep → String
  | .key key => s!"failed to convert key {Text.quoted key}: "
  | .index i => s!"failed to convert list index {i}: "

/-- The message, with the way to the node in front. -/
def message (e : ConversionError) : String :=
  String.join (e.under.map stepMessage) ++ e.rootMessage

def code (e : ConversionError) : String :=
  match e.cause with
  | .unsupported _ => "C-1-1"
  | .missingExpression => "C-1-2"
  | .emptyKey => "C-1-3"
  | .spreadNotAllowed => "C-1-4"
  | .tooDeep => "C-1-5"
  | .keyedSpread _ => "C-1-6"

def title (e : ConversionError) : String :=
  match e.cause with
  | .unsupported _ => "Unsupported expression"
  | .missingExpression => "Missing expression"
  | .emptyKey => "Empty map key"
  | .spreadNotAllowed => "Spread not allowed here"
  | .tooDeep => "Nesting too deep"
  | .keyedSpread _ => "Spread with a key"

def hints (e : ConversionError) : List String :=
  match e.cause with
  | .spreadNotAllowed => ["Source configurations must spell out every key explicitly"]
  | .keyedSpread _ => ["Write either `key = value` or `...value`, not both"]
  | _ => []

def diagnostic (e : ConversionError) : Diagnostic :=
  { code := some e.code, title := e.title, problem := some e.message, hints := e.hints,
    origin := some e.origin }

end ConversionError

end LayeredConfig

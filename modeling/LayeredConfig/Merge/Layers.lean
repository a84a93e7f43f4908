import LayeredConfig.Value.Basic

/-!
Layering whole maps.

A later layer wins, key by key. Where both layers hold a plain map the two are
merged; anything else of the later layer replaces what the earlier one has, lists
included. Keys keep the place that they had, and new ones follow.
-/

namespace LayeredConfig

mutual
/-- A value of a later layer over the value under the same key of an earlier one. -/
def Value.over (existing : Value) : Value → Value
  | .map overlay =>
    match existing with
    | .map base => .map (mergeLayer base overlay)
    | _ => .map overlay
  | v => v

/-- A later layer over an earlier one. -/
def mergeLayer (base : List (String × Value)) : List (String × Value) → List (String × Value)
  | [] => base
  | (key, v) :: rest =>
    match Assoc.get? base key with
    | some existing => mergeLayer (Assoc.insert base key (Value.over existing v)) rest
    | none => mergeLayer (Assoc.insert base key v) rest
end

/-- All layers, each over those before it. -/
def mergeLayers (layers : List Fields) : Fields := layers.foldl mergeLayer []

end LayeredConfig

import WallUnit.Foundations.Python

/-!
Owns the shape check `router.py` makes on a decision before anything acts on it.
-/

namespace WallUnit.Server

open WallUnit.Foundations.Python

/-- The fields `_validate` requires. -/
def requiredFields : List Text :=
  ["intent", "latency_class", "verbal_response", "tool", "params", "confidence"].map String.toList

/-- `float(value)` succeeds. -/
def convertsToFloat (python : Interpreter) : Value → Bool
  | .bool _ | .int _ | .float _ _ => true
  | .str text => python.parsesAsFloat text
  | .none | .list _ | .dict _ => false

/-- `_validate`, of an object. -/
def validate (python : Interpreter) (decision : Dict) : Bool :=
  requiredFields.all (fun field => (decision.get? field).isSome) &&
    (decision.get? "confidence".toList).any (convertsToFloat python)

end WallUnit.Server

import Mathlib.Data.List.Sort
import SecureSdlc.Core.Python

/-!
The allowlisted tool registry, `tools/registry.py`. A schema is given by its
validator: whether `validate_instance` finds no error, or the exception it raises.
Handlers act on a world `σ`.
-/

namespace SecureSdlc.Tools

open Core

universe u

abbrev Validator := Json → Except PyError Bool

structure ToolSpec (σ : Type u) where
  name : PyStr
  scope : PyStr
  description : PyStr
  argsSchema : Validator
  resultSchema : Validator
  handler : Mapping → σ → Except PyError Mapping × σ

structure ToolRegistry (σ : Type u) where
  tools : List (PyStr × ToolSpec σ) := []

namespace ToolRegistry

variable {σ : Type u}

def register (registry : ToolRegistry σ) (spec : ToolSpec σ) : Except PyError (ToolRegistry σ) :=
  if spec.name = [] then
    .error { kind := .valueError, message := py "tool name must be non-empty" }
  else if (Assoc.get registry.tools spec.name).isSome then
    .error { kind := .valueError, message := py "tool already registered: " ++ spec.name }
  else .ok { registry with tools := Assoc.set registry.tools spec.name spec }

def get (registry : ToolRegistry σ) (name : PyStr) : Except PyError (ToolSpec σ) :=
  match Assoc.get registry.tools name with
  | some spec => .ok spec
  | none => .error { kind := .unknownToolError, message := name }

/-- `names`, sorted. -/
def names (registry : ToolRegistry σ) : List PyStr :=
  (registry.tools.map Prod.fst).insertionSort fun a b => PyStr.le a b

end ToolRegistry

end SecureSdlc.Tools

import ValuePattern.Value.Basic
/-!
Registries of functions. A registry numbers its functions from zero as they come in, so each one that
comes in is a function of its own, and it is a host for the references that it gave out.
-/
namespace ValuePattern

/-- The functions taken in so far, each under its number. -/
structure Registry where
  functions : Array (Value → Value)

namespace Registry

def empty : Registry := ⟨#[]⟩

/-- Takes in a function and gives the reference to it. -/
def add (r : Registry) (f : Value → Value) : FunctionRef × Registry :=
  (r.functions.size, ⟨r.functions.push f⟩)

/-- What the functions of a registry do; any other reference gives missing. -/
def host (r : Registry) : Host := fun reference v =>
  match r.functions[reference]? with
  | some f => f v
  | none => .missing

theorem host_add (r : Registry) (f : Value → Value) : (r.add f).2.host (r.add f).1 = f := by
  funext v
  simp [add, host]

end Registry

end ValuePattern

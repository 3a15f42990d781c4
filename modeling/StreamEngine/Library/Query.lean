import Mathlib.Data.List.TakeWhile
import StreamEngine.Library.ByteString

/-! A query string read parameter by parameter: the parts between ampersands, each a name up to
its first equals sign and the value after it. -/
namespace Query
open ByteString

def parameters (query : Bytes) : List (Bytes × Bytes) :=
  (query.splitOnP (· == 38)).map fun part =>
    (part.takeWhile (· != 61), (part.dropWhile (· != 61)).drop 1)

/-- The value of the first parameter of a name. -/
def parameter (name query : Bytes) : Option Bytes :=
  ((parameters query).find? fun p => p.1 = name).map Prod.snd

/-- One parameter as it is written. -/
def assign (name value : Bytes) : Bytes := name ++ 61 :: value

/-- A name that a query can hold unescaped. -/
def IsName (name : Bytes) : Prop := ∀ c ∈ name, c ≠ 38 ∧ c ≠ 61

instance (name : Bytes) : Decidable (IsName name) :=
  inferInstanceAs (Decidable (∀ c ∈ name, c ≠ 38 ∧ c ≠ 61))

variable {name other value rest : Bytes}

theorem parameters_append (first rest : Bytes) :
    parameters (first ++ 38 :: rest) = parameters first ++ parameters rest := by
  rw [parameters, List.splitOnP_append_cons _ _ (by rfl), List.map_append]
  rfl

theorem parameters_assign (isName : IsName name) (free : 38 ∉ value) :
    parameters (assign name value) = [(name, value)] := by
  have whole : ∀ c ∈ assign name value, (c == 38) = false := by
    intro c member
    simp only [assign, List.mem_append, List.mem_cons] at member
    rcases member with inName | rfl | inValue
    · simpa using (isName c inName).1
    · rfl
    · simpa using fun equal : c = 38 => free (equal ▸ inValue)
  have named : ∀ c ∈ name, (c != 61) = true := fun c member => by simpa using (isName c member).2
  rw [parameters, List.splitOnP_eq_singleton whole, List.map_singleton, assign,
    List.takeWhile_append_of_pos named, List.dropWhile_append_of_pos named]
  simp

theorem parameter_here (isName : IsName name) (free : 38 ∉ value) (rest : Bytes) :
    parameter name (assign name value ++ 38 :: rest) = some value := by
  simp [parameter, parameters_append, parameters_assign isName free]

theorem parameter_skip (isName : IsName other) (free : 38 ∉ value) (differ : other ≠ name)
    (rest : Bytes) : parameter name (assign other value ++ 38 :: rest) = parameter name rest := by
  simp [parameter, parameters_append, parameters_assign isName free, differ]

end Query

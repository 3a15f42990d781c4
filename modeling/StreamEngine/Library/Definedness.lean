import Mathlib.Data.Option.Basic

/-! Partial computations next to total ones. The partial one is defined just if a condition holds,
and then it has the value of the total one. The rules follow the constructors of `Option`. -/
namespace Definedness

universe u
variable {α β : Type u}

def Defines (r : Option α) (fits : Prop) (a : α) : Prop := ∀ b, r = some b ↔ fits ∧ b = a

variable {r : Option α} {fits fits' : Prop} {a : α}

theorem Defines.isSome (defines : Defines r fits a) : r.isSome = true ↔ fits := by
  rw [Option.isSome_iff_exists]
  constructor
  · rintro ⟨b, value⟩
    exact ((defines b).mp value).1
  · exact fun held => ⟨a, (defines a).mpr ⟨held, rfl⟩⟩

theorem Defines.value (defines : Defines r fits a) {b : α} (value : r = some b) : b = a :=
  ((defines b).mp value).2

theorem defines_some (held : fits) (a : α) : Defines (some a) fits a := by
  intro b
  rw [Option.some.injEq, and_iff_right held, eq_comm]

theorem Defines.congr (defines : Defines r fits a) (same : fits ↔ fits') : Defines r fits' a := by
  intro b
  rw [← same]
  exact defines b

theorem Defines.bind {f : α → Option β} {b : β} (first : Defines r fits a)
    (rest : Defines (f a) fits' b) : Defines (r >>= f) (fits ∧ fits') b := by
  intro c
  rw [Option.bind_eq_bind, Option.bind_eq_some_iff]
  constructor
  · rintro ⟨d, value, later⟩
    obtain ⟨here, rfl⟩ := (first d).mp value
    obtain ⟨there, same⟩ := (rest c).mp later
    exact ⟨⟨here, there⟩, same⟩
  · rintro ⟨⟨here, there⟩, same⟩
    exact ⟨a, (first a).mpr ⟨here, rfl⟩, (rest c).mpr ⟨there, same⟩⟩

/-- What follows the only condition is defined. -/
theorem Defines.map {f : α → β} (first : Defines r fits a) :
    Defines (r >>= fun b => some (f b)) fits (f a) :=
  (first.bind (defines_some trivial (f a))).congr (and_iff_left trivial)

theorem Defines.mapM {f : α → Option β} {fits : α → Prop} {g : α → β} {l : List α}
    (each : ∀ b ∈ l, Defines (f b) (fits b) (g b)) :
    Defines (l.mapM f) (∀ b ∈ l, fits b) (l.map g) := by
  induction l with
  | nil => exact defines_some nofun _
  | cons b l ih =>
    rw [List.mapM_cons, List.map_cons]
    have later := ih fun c member => each c (List.mem_cons_of_mem b member)
    exact ((each b List.mem_cons_self).bind later.map).congr List.forall_mem_cons.symm

end Definedness

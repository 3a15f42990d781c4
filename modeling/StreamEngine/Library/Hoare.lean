import Mathlib.Order.Basic

/-! Pre- and postconditions of computations over a state. A computation may fail to
return, and the state it stops in still counts: a triple also says what holds there.
The rules follow the constructors of the monad, so a proof walks through a program
in the order of its statements. -/
namespace Hoare

/-- Value, if the computation returns, and last state. -/
def exec (x : OptionT (StateM σ) α) (s : σ) : Option α × σ := x.run.run s

/-- From a state in `pre` the computation returns a value and a state in `post`, or it
does not return and stops in `hung`. -/
def Triple (pre : σ → Prop) (x : OptionT (StateM σ) α) (post : α → σ → Prop)
    (hung : σ → Prop) : Prop :=
  ∀ s, pre s → ((∃ a, (exec x s).1 = some a ∧ post a (exec x s).2) ∨
    ((exec x s).1 = none ∧ hung (exec x s).2))

variable {pre pre' : σ → Prop} {post post' : α → σ → Prop} {hung : σ → Prop}

theorem exec_get (s : σ) : exec (get : OptionT (StateM σ) σ) s = (some s, s) := rfl

theorem exec_bind (x : OptionT (StateM σ) α) (f : α → OptionT (StateM σ) β) (s : σ) :
    exec (x >>= f) s =
      match exec x s with
      | (some a, s') => exec (f a) s'
      | (none, s') => (none, s') := by
  simp only [exec, OptionT.run_bind, Option.elimM, StateT.run_bind]
  rcases x.run.run s with ⟨_ | a, s'⟩ <;> rfl

theorem exec_bind_returned {x : OptionT (StateM σ) α} {f : α → OptionT (StateM σ) β} {s s' : σ}
    {a : α} (first : exec x s = (some a, s')) : exec (x >>= f) s = exec (f a) s' := by
  rw [exec_bind, first]

theorem exec_bind_stopped {x : OptionT (StateM σ) α} {f : α → OptionT (StateM σ) β} {s s' : σ}
    (first : exec x s = (none, s')) : exec (x >>= f) s = (none, s') := by
  rw [exec_bind, first]

theorem Triple.returned (triple : Triple pre x post hung) {s s' : σ} {a : α} (start : pre s)
    (run : exec x s = (some a, s')) : post a s' := by
  obtain ⟨b, value, held⟩ | ⟨stopped, -⟩ := triple s start
  · rw [run] at value held
    cases value
    exact held
  · rw [run] at stopped
    contradiction

theorem Triple.stopped (triple : Triple pre x post hung) {s s' : σ} (start : pre s)
    (run : exec x s = (none, s')) : hung s' := by
  obtain ⟨b, value, -⟩ | ⟨-, held⟩ := triple s start
  · rw [run] at value
    contradiction
  · rw [run] at held
    exact held

theorem triple_pure {a : α} (holds : ∀ s, pre s → post a s) : Triple pre (pure a) post hung :=
  fun s start => Or.inl ⟨a, rfl, holds s start⟩

theorem triple_bind {x : OptionT (StateM σ) α} {f : α → OptionT (StateM σ) β}
    {final : β → σ → Prop} (first : Triple pre x post hung)
    (rest : ∀ a, Triple (post a) (f a) final hung) : Triple pre (x >>= f) final hung := by
  intro s start
  rcases run : exec x s with ⟨_ | a, s'⟩
  · rw [exec_bind_stopped run]
    exact Or.inr ⟨rfl, first.stopped start run⟩
  · rw [exec_bind_returned run]
    exact rest a s' (first.returned start run)

theorem triple_ite {c : Prop} [Decidable c] {x y : OptionT (StateM σ) α}
    (positive : c → Triple pre x post hung) (negative : ¬ c → Triple pre y post hung) :
    Triple pre (if c then x else y) post hung := by
  split
  · exact positive ‹_›
  · exact negative ‹_›

theorem triple_weaken {x : OptionT (StateM σ) α} (triple : Triple pre x post hung)
    (stronger : ∀ s, pre' s → pre s) (weaker : ∀ a s, post a s → post' a s) :
    Triple pre' x post' hung := by
  intro s start
  obtain ⟨a, value, held⟩ | stopped := triple s (stronger s start)
  · exact Or.inl ⟨a, value, weaker a _ held⟩
  · exact Or.inr stopped

theorem triple_get {f : σ → OptionT (StateM σ) α}
    (rest : ∀ s₀, Triple (fun s => s = s₀ ∧ pre s) (f s₀) post hung) :
    Triple pre (get >>= f) post hung := by
  intro s start
  rw [exec_bind_returned (exec_get s)]
  exact rest s s ⟨rfl, start⟩

theorem triple_modify {f : σ → σ} {post : PUnit → σ → Prop}
    (steps : ∀ s, pre s → post ⟨⟩ (f s)) : Triple pre (modify f) post hung :=
  fun s start => Or.inl ⟨⟨⟩, rfl, steps s start⟩

/-- The value is that of a run from a state in the precondition. -/
theorem triple_ran {x : OptionT (StateM σ) α} (triple : Triple pre x post hung) :
    Triple pre x (fun a s => post a s ∧ ∃ s₀, pre s₀ ∧ exec x s₀ = (some a, s)) hung := by
  intro s start
  obtain ⟨a, value, held⟩ | stopped := triple s start
  · exact Or.inl ⟨a, value, held, s, start, Prod.ext value rfl⟩
  · exact Or.inr stopped

/-- What holds at every end holds of the last state. -/
theorem Triple.last {x : OptionT (StateM σ) α} (triple : Triple pre x post hung) {held : σ → Prop}
    (returned : ∀ a s, post a s → held s) (stopped : ∀ s, hung s → held s) {s : σ} (start : pre s) :
    held (exec x s).2 := by
  obtain ⟨a, -, final⟩ | ⟨-, final⟩ := triple s start
  · exact returned a _ final
  · exact stopped _ final

theorem triple_stopped {hung' : σ → Prop} {x : OptionT (StateM σ) α}
    (triple : Triple pre x post hung) (weaker : ∀ s, hung s → hung' s) :
    Triple pre x post hung' := by
  intro s start
  obtain returned | ⟨stopped, held⟩ := triple s start
  · exact Or.inl returned
  · exact Or.inr ⟨stopped, weaker _ held⟩

theorem triple_exists {pre : ι → σ → Prop} {x : OptionT (StateM σ) α}
    (triple : ∀ i, Triple (pre i) x post hung) : Triple (fun s => ∃ i, pre i s) x post hung :=
  fun s ⟨i, start⟩ => triple i s start

/-- The precondition may be used as a fact about every state it admits. -/
theorem triple_assume {fact : Prop} {x : OptionT (StateM σ) α}
    (triple : fact → Triple pre x post hung) :
    Triple (fun s => fact ∧ pre s) x post hung :=
  fun s start => triple start.1 s start.2

end Hoare

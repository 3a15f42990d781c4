import StreamEngine.Library.History

/-! Finite runs of a labelled transition relation, and the invariant rule for them. A run
that takes only some of the steps is a run of the restricted relation, so a rule about
runs under a condition is the same rule. A relation between two systems that every step keeps
carries whole runs from one to the other. -/
namespace Transition

variable {σ τ ℓ : Type*}

/-- A run and the labels of its steps, oldest first. -/
inductive Run (step : σ → ℓ → σ → Prop) (initial : σ) : List ℓ → σ → Prop where
  | start : Run step initial [] initial
  | next {labels s l s'} (earlier : Run step initial labels s) (last : step s l s') :
      Run step initial (labels ++ [l]) s'

/-- The steps that are taken only from where they are allowed. -/
def Restricted (step : σ → ℓ → σ → Prop) (allowed : σ → ℓ → Prop) : σ → ℓ → σ → Prop :=
  fun s l s' => step s l s' ∧ allowed s l

variable {step : σ → ℓ → σ → Prop} {initial s : σ} {labels : List ℓ}

/-- What relates a state to the steps that led to it. -/
theorem Run.history (invariant : List ℓ → σ → Prop) (run : Run step initial labels s)
    (start : invariant [] initial)
    (preserved : ∀ labels s l s', invariant labels s → step s l s' → invariant (labels ++ [l]) s') :
    invariant labels s := by
  induction run with
  | start => exact start
  | next _ last ih => exact preserved _ _ _ _ ih last

theorem Run.invariant (invariant : σ → Prop) (run : Run step initial labels s)
    (start : invariant initial)
    (preserved : ∀ s l s', invariant s → step s l s' → invariant s') : invariant s :=
  run.history (fun _ => invariant) start fun _ => preserved

theorem Run.append {more : List ℓ} {s' : σ} (run : Run step initial labels s)
    (continued : Run step s more s') : Run step initial (labels ++ more) s' := by
  induction continued with
  | start => simpa using run
  | next _ last ih =>
    rw [← List.append_assoc]
    exact .next ih last

/-- A label of a run was taken from a state that the run reached. -/
theorem Run.taken {before after : List ℓ} {l : ℓ}
    (run : Run step initial (before ++ l :: after) s) :
    ∃ s₁ s₂, Run step initial before s₁ ∧ step s₁ l s₂ := by
  generalize split : before ++ l :: after = labels at run
  induction run generalizing after with
  | start => simp at split
  | next earlier last ih =>
    rcases History.snoc_split.mp split.symm with ⟨rfl, rfl, -⟩ | ⟨rest, inside, -⟩
    · exact ⟨_, _, earlier, last⟩
    · exact ih inside.symm

/-- Steps that are followed one by one make runs that are followed. -/
theorem Run.simulation {step' : τ → ℓ → τ → Prop} {initial' : τ} (rel : σ → τ → Prop)
    (run : Run step initial labels s) (start : rel initial initial')
    (follows : ∀ s l s' t, rel s t → step s l s' → ∃ t', step' t l t' ∧ rel s' t') :
    ∃ t, Run step' initial' labels t ∧ rel s t := by
  induction run with
  | start => exact ⟨initial', .start, start⟩
  | next _ last ih =>
    obtain ⟨t, followed, related⟩ := ih
    obtain ⟨t', step', related'⟩ := follows _ _ _ _ related last
    exact ⟨t', .next followed step', related'⟩

end Transition

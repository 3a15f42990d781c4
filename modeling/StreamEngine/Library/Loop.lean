import Mathlib.Data.Finset.Card
import Mathlib.Data.Finset.Range

/-! Unbounded loops of imperative code. One iteration either continues with a new
state or leaves the loop with a result, and fuel bounds the number of iterations a
definition may evaluate. A loop whose control depends on a counter below a bound
either leaves within that many iterations or never does, so a definition with this
much fuel decides termination exactly. -/
namespace Loop

/-- At most `fuel` iterations from `s`, `none` when the loop has not been left. -/
def run (step : σ → σ ⊕ ρ) : Nat → σ → Option ρ
  | 0, _ => none
  | fuel + 1, s =>
    match step s with
    | .inl next => run step fuel next
    | .inr result => some result

/-- States seen at the loop head. -/
inductive Heads (step : σ → σ ⊕ ρ) (initial : σ) : σ → Prop where
  | start : Heads step initial initial
  | next {s s'} (earlier : Heads step initial s) (continues : step s = .inl s') :
      Heads step initial s'

variable {step : σ → σ ⊕ ρ}

theorem run_continue {s s' : σ} (continues : step s = .inl s') (fuel : Nat) :
    run step (fuel + 1) s = run step fuel s' := by
  simp only [run, continues]

theorem run_leave {s : σ} {result : ρ} (leaves : step s = .inr result) (fuel : Nat) :
    run step (fuel + 1) s = some result := by
  simp only [run, leaves]

/-- Partial correctness: a loop invariant gives its consequence to the result. -/
theorem run_invariant (invariant : σ → Prop) {post : ρ → Prop}
    (preserved : ∀ s s', invariant s → step s = .inl s' → invariant s')
    (established : ∀ s result, invariant s → step s = .inr result → post result)
    {s : σ} (start : invariant s) {fuel : Nat} {result : ρ}
    (returned : run step fuel s = some result) : post result := by
  induction fuel generalizing s with
  | zero => simp [run] at returned
  | succ fuel ih =>
    cases next : step s with
    | inl s' =>
      rw [run_continue next] at returned
      exact ih (preserved s s' start next) returned
    | inr final =>
      rw [run_leave next, Option.some.injEq] at returned
      exact returned ▸ established s final start next

theorem Heads.invariant (invariant : σ → Prop) {initial s : σ} (heads : Heads step initial s)
    (start : invariant initial)
    (preserved : ∀ s s', invariant s → step s = .inl s' → invariant s') : invariant s := by
  induction heads with
  | start => exact start
  | next _ continues ih => exact preserved _ _ ih continues

/-- Total correctness: a rank that every iteration lowers bounds the iterations. -/
theorem run_terminates (invariant : σ → Prop) (rank : σ → Nat)
    (preserved : ∀ s s', invariant s → step s = .inl s' → invariant s' ∧ rank s' < rank s)
    {s : σ} (start : invariant s) {fuel : Nat} (enough : rank s < fuel) :
    ∃ result, run step fuel s = some result := by
  induction fuel generalizing s with
  | zero => exact absurd enough (Nat.not_lt_zero _)
  | succ fuel ih =>
    cases next : step s with
    | inl s' =>
      obtain ⟨held, lower⟩ := preserved s s' start next
      rw [run_continue next]
      exact ih held (by omega)
    | inr result => exact ⟨result, run_leave next fuel⟩

/-- A set of states that iterations cannot leave is never left. -/
theorem run_diverges (trap : σ → Prop) (closed : ∀ s, trap s → ∃ s', step s = .inl s' ∧ trap s')
    {s : σ} (start : trap s) (fuel : Nat) : run step fuel s = none := by
  induction fuel generalizing s with
  | zero => rfl
  | succ fuel ih =>
    obtain ⟨s', continues, held⟩ := closed s start
    rw [run_continue continues]
    exact ih held

section Counter

/-- Position reached after `n` iterations of a loop over a counter. -/
def position (next : Nat → Option Nat) (start : Nat) : Nat → Option Nat
  | 0 => some start
  | n + 1 => (position next start n).bind next

variable {next : Nat → Option Nat}

theorem position_bounded {bound : Nat} (bounded : ∀ i j, next i = some j → i < bound)
    {start n i : Nat} (reached : position next start (n + 1) ≠ none)
    (at_n : position next start n = some i) : i < bound := by
  rw [position, at_n, Option.bind_some, Option.ne_none_iff_exists'] at reached
  obtain ⟨j, continues⟩ := reached
  exact bounded i j continues

theorem position_le {start n m : Nat} (le : n ≤ m) (reached : position next start m ≠ none) :
    position next start n ≠ none := by
  induction m with
  | zero => obtain rfl := Nat.le_zero.mp le; exact reached
  | succ m ih =>
    rcases Nat.le_succ_iff.mp le with earlier | rfl
    · apply ih earlier
      intro missing
      exact reached (by rw [position, missing, Option.bind_none])
    · exact reached

theorem position_add {start n m i : Nat} (at_n : position next start n = some i) :
    position next start (n + m) = position next i m := by
  induction m with
  | zero => exact at_n
  | succ m ih => rw [← Nat.add_assoc, position, ih, position]

/-- A counter that stays below a bound for more iterations than the bound has
repeated a value, and then it repeats forever. -/
theorem position_forever {bound : Nat} (bounded : ∀ i j, next i = some j → i < bound)
    {start : Nat} (long : position next start (bound + 1) ≠ none) :
    ∀ n, position next start n ≠ none := by
  have reached : ∀ n ≤ bound + 1, position next start n ≠ none :=
    fun n le => position_le le long
  obtain ⟨a, ha, b, hb, different, same⟩ :=
    Finset.exists_ne_map_eq_of_card_lt_of_maps_to
      (s := Finset.range (bound + 1)) (t := Finset.range bound)
      (f := fun n => (position next start n).getD 0) (by simp) (by
        intro n member
        have le : n < bound + 1 := by simpa using member
        obtain ⟨i, at_n⟩ := Option.ne_none_iff_exists'.mp (reached n (by omega))
        simpa [at_n] using position_bounded bounded (reached (n + 1) (by omega)) at_n)
  rw [Finset.mem_range] at ha hb
  obtain ⟨i, at_a⟩ := Option.ne_none_iff_exists'.mp (reached a (by omega))
  obtain ⟨j, at_b⟩ := Option.ne_none_iff_exists'.mp (reached b (by omega))
  have equal : i = j := by simpa [at_a, at_b] using same
  subst equal
  -- Past the later of the two, a position is one that was reached a period earlier.
  have period : ∀ {low high}, low < high → high < bound + 1 →
      position next start low = some i → position next start high = some i →
      ∀ n, position next start n ≠ none := by
    intro low high less high_lt at_low at_high n
    induction n using Nat.strong_induction_on with
    | h n ih =>
      by_cases within : n ≤ high
      · exact reached n (by omega)
      · have shifted : position next start n = position next start (low + (n - high)) := by
          rw [position_add at_low, ← position_add at_high]
          congr 1
          omega
        rw [shifted]
        exact ih _ (by omega)
  rcases Nat.lt_or_gt_of_ne different with less | less
  · exact period less hb at_a at_b
  · exact period less ha at_b at_a

/-- A loop steered by a counter below `bound` that has not been left after
`bound + 1` iterations is never left. -/
theorem run_counter (next : Nat → Option Nat) (counter : σ → Nat) {bound : Nat}
    (bounded : ∀ i j, next i = some j → i < bound)
    (continues : ∀ s s', step s = .inl s' → next (counter s) = some (counter s'))
    (leaves : ∀ s result, step s = .inr result → next (counter s) = none)
    {s : σ} (long : run step (bound + 1) s = none) (fuel : Nat) : run step fuel s = none := by
  have runs : ∀ n s, run step n s = none ↔ position next (counter s) n ≠ none := by
    intro n
    induction n with
    | zero => simp [run, position]
    | succ n ih =>
      intro s
      cases one : step s with
      | inl s' =>
        have first : position next (counter s) 1 = some (counter s') := by
          simp [position, continues s s' one]
        rw [run_continue one, ih, Nat.add_comm n 1, position_add first]
      | inr result =>
        have first : position next (counter s) 1 = none := by
          simp [position, leaves s result one]
        simp only [run_leave one, reduceCtorEq, false_iff, not_not]
        by_contra reached
        exact position_le (Nat.le_add_left 1 n) reached first
  exact (runs fuel s).mpr (position_forever bounded ((runs _ s).mp long) fuel)

end Counter
end Loop

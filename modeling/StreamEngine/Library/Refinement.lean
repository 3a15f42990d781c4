/-! Two computations over different states that return the same values. The rules follow
the constructors of the monad, as those for triples do. -/
namespace Refinement

variable {σ τ α β : Type}

/-- A computation goes on from where its first part stops. -/
theorem run_bind_of {x : StateM σ α} {f : α → StateM σ β} {s s' : σ} {a : α}
    (first : x.run s = (a, s')) : (x >>= f).run s = (f a).run s' := by
  rw [StateT.run_bind, first]
  rfl

/-- From related states both return the same value, in states related under that value. -/
def Refines (pre : σ → τ → Prop) (x : StateM σ α) (y : StateM τ α) (post : α → σ → τ → Prop) :
    Prop :=
  ∀ s t, pre s t → ∃ a s' t', x.run s = (a, s') ∧ y.run t = (a, t') ∧ post a s' t'

variable {pre pre' : σ → τ → Prop} {post : α → σ → τ → Prop}

theorem refines_pure {a : α} (related : ∀ s t, pre s t → post a s t) :
    Refines pre (pure a) (pure a) post :=
  fun s t start => ⟨a, s, t, rfl, rfl, related s t start⟩

theorem refines_bind {x : StateM σ α} {y : StateM τ α} {f : α → StateM σ β} {g : α → StateM τ β}
    {final : β → σ → τ → Prop} (first : Refines pre x y post)
    (rest : ∀ a, Refines (post a) (f a) (g a) final) : Refines pre (x >>= f) (y >>= g) final := by
  intro s t start
  obtain ⟨a, s', t', left, right, related⟩ := first s t start
  obtain ⟨b, s'', t'', left', right', related'⟩ := rest a s' t' related
  exact ⟨b, s'', t'', (run_bind_of left).trans left', (run_bind_of right).trans right', related'⟩

theorem refines_ite {c : Prop} [Decidable c] {x x' : StateM σ α} {y y' : StateM τ α}
    (positive : c → Refines pre x y post) (negative : ¬ c → Refines pre x' y' post) :
    Refines pre (if c then x else x') (if c then y else y') post := by
  split
  · exact positive ‹_›
  · exact negative ‹_›

theorem refines_strengthen {x : StateM σ α} {y : StateM τ α}
    (stronger : ∀ s t, pre' s t → pre s t) (refines : Refines pre x y post) :
    Refines pre' x y post :=
  fun s t start => refines s t (stronger s t start)

/-- What the abstract computation returns, the concrete one does. -/
theorem Refines.returns {x : StateM σ α} {y : StateM τ α} (refines : Refines pre x y post) {s : σ}
    {t t' : τ} {a : α} (start : pre s t) (run : y.run t = (a, t')) :
    ∃ s', x.run s = (a, s') ∧ post a s' t' := by
  obtain ⟨b, s', t'', left, right, related⟩ := refines s t start
  obtain ⟨rfl, rfl⟩ := Prod.mk.inj (right.symm.trans run)
  exact ⟨s', left, related⟩

end Refinement

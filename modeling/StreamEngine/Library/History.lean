import Mathlib.Data.List.Infix

/-! Histories of events, oldest first. An event may be justified by the events before
it, and a history in which every event is justified stays one when justified events are
added. What is known from a history is often the latest event of some kind, and what has been
lost is lost at the latest event that drops it. -/
namespace History

variable {ε α : Type*}

/-- Every event is justified by the events before it. -/
def Justified (ok : List ε → ε → Prop) (log : List ε) : Prop :=
  ∀ before e after, log = before ++ e :: after → ok before e

/-- The reading of the latest event that has one. -/
def latest (read : ε → Option α) (log : List ε) : Option α := log.reverse.findSome? read

variable {ok : List ε → ε → Prop} {read : ε → Option α} {log events : List ε}

/-- A history with one more event, split at an event: at the new one, or before it. -/
theorem snoc_split {e d : ε} {before after : List ε} : log ++ [e] = before ++ d :: after ↔
    (log = before ∧ e = d ∧ after = []) ∨ ∃ rest, log = before ++ d :: rest ∧ after = rest ++ [e] := by
  constructor
  · intro split
    cases after using List.reverseRecOn with
    | nil =>
      obtain ⟨same, last⟩ := List.append_inj' split rfl
      exact .inl ⟨same, List.singleton_inj.mp last, rfl⟩
    | append_singleton rest final =>
      rw [← List.cons_append, ← List.append_assoc] at split
      obtain ⟨same, last⟩ := List.append_inj' split rfl
      exact .inr ⟨rest, same, by rw [List.singleton_inj.mp last]⟩
  · rintro (⟨rfl, rfl, rfl⟩ | ⟨rest, rfl, rfl⟩)
    · rfl
    · rw [List.append_assoc, List.cons_append]

theorem justified_nil : Justified ok [] := by
  intro before e after split
  simp at split

theorem Justified.init {e : ε} (justified : Justified ok (log ++ [e])) : Justified ok log := by
  intro before e' after split
  exact justified before e' (after ++ [e]) (snoc_split.mpr (.inr ⟨after, split, rfl⟩))

theorem justified_snoc {e : ε} (earlier : Justified ok log) (last : ok log e) :
    Justified ok (log ++ [e]) := by
  intro before e' after split
  rcases snoc_split.mp split with ⟨rfl, rfl, -⟩ | ⟨rest, inside, -⟩
  · exact last
  · exact earlier before e' rest inside

/-- Events that need no justification may be added. -/
theorem Justified.append (earlier : Justified ok log) (free : ∀ e ∈ events, ∀ before, ok before e) :
    Justified ok (log ++ events) := by
  induction events using List.reverseRecOn with
  | nil => simpa using earlier
  | append_singleton events e ih =>
    rw [← List.append_assoc]
    refine justified_snoc (ih fun e' member => free e' (List.mem_append_left _ member)) ?_
    exact free e (List.mem_append_right _ (List.mem_singleton_self e)) _

/-- What holds at the start, and of a history one event longer exactly when that event is
justified, holds at every stage exactly when every event is. -/
theorem justified_iff {good : List ε → Prop} (start : good [])
    (longer : ∀ before e, Justified ok before → good before → (good (before ++ [e]) ↔ ok before e)) :
    Justified ok log ↔ ∀ before, before <+: log → good before := by
  induction log using List.reverseRecOn with
  | nil =>
    refine ⟨fun _ before inside => ?_, fun _ => justified_nil⟩
    rwa [List.prefix_nil.mp inside]
  | append_singleton log e ih =>
    constructor
    · intro justified before inside
      have known := ih.mp justified.init
      rcases List.prefix_concat_iff.mp inside with rfl | within
      · exact (longer log e justified.init (known log (List.prefix_refl _))).mpr
          (justified log e [] rfl)
      · exact known before within
    · intro good
      have known : ∀ before, before <+: log → _ :=
        fun before inside => good before (inside.trans (List.prefix_append _ _))
      have earlier := ih.mpr known
      apply justified_snoc earlier
      exact (longer log e earlier (known log (List.prefix_refl _))).mp (good _ (List.prefix_refl _))

section Lost
variable {σ : Type*} {step : σ → ε → σ} {held : σ → Prop} {drops gains : σ → ε → Prop} {s : σ}

/-- Some event drops what is held before it, and no later one gains it back. -/
def Lost (step : σ → ε → σ) (held : σ → Prop) (drops gains : σ → ε → Prop) (s : σ) (log : List ε) :
    Prop :=
  ∃ before e after, log = before ++ e :: after ∧ held (before.foldl step s) ∧
    drops (before.foldl step s) e ∧ ∀ between e' rest, after = between ++ e' :: rest →
      ¬ gains ((before ++ e :: between).foldl step s) e'

/-- One more event: it drops what is still held, or it does not gain back what is lost. -/
theorem lost_snoc_iff {e : ε} : Lost step held drops gains s (log ++ [e]) ↔
    (held (log.foldl step s) ∧ drops (log.foldl step s) e) ∨
      (Lost step held drops gains s log ∧ ¬ gains (log.foldl step s) e) := by
  constructor
  · rintro ⟨before, d, after, split, was, drop, silent⟩
    rcases snoc_split.mp split with ⟨rfl, rfl, -⟩ | ⟨rest, rfl, rfl⟩
    · exact .inl ⟨was, drop⟩
    · refine .inr ⟨⟨before, d, rest, rfl, was, drop, fun between e' tail inside => ?_⟩, ?_⟩
      · exact silent between e' (tail ++ [e]) (snoc_split.mpr (.inr ⟨tail, inside, rfl⟩))
      · exact silent rest e [] rfl
  · rintro (⟨was, drop⟩ | ⟨⟨before, d, after, rfl, was, drop, silent⟩, last⟩)
    · exact ⟨log, e, [], rfl, was, drop, fun between e' rest inside => by simp at inside⟩
    · refine ⟨before, d, after ++ [e], by simp, was, drop, fun between e' rest inside => ?_⟩
      rcases snoc_split.mp inside with ⟨rfl, rfl, -⟩ | ⟨tail, within, -⟩
      · exact last
      · exact silent between e' tail within

/-- What is held at the start is not held at the end exactly when it is lost on the way. -/
theorem not_held_iff (drop : ∀ s e, held s → (¬ held (step s e) ↔ drops s e))
    (gain : ∀ s e, ¬ held s → (held (step s e) ↔ gains s e)) (start : held s) :
    ¬ held (log.foldl step s) ↔ Lost step held drops gains s log := by
  induction log using List.reverseRecOn with
  | nil =>
    refine iff_of_false (not_not.mpr start) ?_
    rintro ⟨before, e, after, split, -⟩
    simp at split
  | append_singleton log e ih =>
    rw [lost_snoc_iff, ← ih, List.foldl_append]
    by_cases now : held (log.foldl step s)
    · simp [now, drop _ e now]
    · simp [now, gain _ e now]

end Lost

theorem latest_append : latest read (log ++ events) = (latest read events).or (latest read log) := by
  rw [latest, List.reverse_append, List.findSome?_append]
  rfl

theorem latest_snoc {e : ε} {a : α} (here : read e = some a) :
    latest read (log ++ [e]) = some a := by
  rw [latest_append]
  simp [latest, here]

/-- Events without a reading leave the latest one as it was. -/
theorem latest_silent (silent : ∀ e ∈ events, read e = none) :
    latest read (log ++ events) = latest read log := by
  have none : latest read events = none :=
    List.findSome?_eq_none_iff.mpr fun e member => silent e (List.mem_reverse.mp member)
  rw [latest_append, none, Option.none_or]

end History

import StreamEngine.Library.Interaction

/-! Objects that refine abstract ones. The abstract object takes one step for each call of a method,
when the call returns, so what callers see of the object is a run of it. A program that only makes
calls of one kind keeps what these calls keep. -/
namespace Interaction
open Transition

section Footprint
variable {Call : Type} {Answer : Call → Type} {σ α β : Type}

/-- The program makes no other calls, and ends no other way. -/
def Only (may : Call → Prop) (ends : α → Prop) : Program Call Answer α → Prop
  | .done a => ends a
  | .call c next => may c ∧ ∀ answer, Only may ends (next answer)

variable {may : Call → Prop} {ends : α → Prop}

theorem only_request {c : Call} {ends : Answer c → Prop} (here : may c) (all : ∀ answer, ends answer) :
    Only may ends (request c : Program Call Answer (Answer c)) := ⟨here, all⟩

theorem only_bind {p : Program Call Answer α} {f : α → Program Call Answer β} {final : β → Prop}
    (first : Only may ends p) (rest : ∀ a, ends a → Only may final (f a)) :
    Only may final (p >>= f) := by
  induction p with
  | done a => exact rest a first
  | call c next ih => exact ⟨first.1, fun answer => ih answer (first.2 answer)⟩

theorem only_ite {c : Prop} [Decidable c] {p q : Program Call Answer α}
    (positive : c → Only may ends p) (negative : ¬ c → Only may ends q) :
    Only may ends (if c then p else q) := by
  split
  · exact positive ‹_›
  · exact negative ‹_›

variable {effect : (c : Call) → σ → Answer c → σ → Prop} {drift : σ → σ → Prop}
  {allowed : Call → σ → Prop} {pre : σ → Prop} {post : α → σ → Prop}

theorem Only.frame {frame : σ → Prop} {p : Program Call Answer α} (only : Only may ends p)
    (stable : Stable drift frame)
    (kept : ∀ c s answer s', may c → allowed c s → effect c s answer s' → frame s → frame s')
    (meets : Meets effect drift allowed pre p post) :
    Meets effect drift allowed (fun s => pre s ∧ frame s) p
      fun a s => ends a ∧ post a s ∧ frame s := by
  have framed : ∀ s, Safe effect drift allowed post p s → frame s →
      Safe effect drift allowed (fun a s => ends a ∧ post a s ∧ frame s) p s := by
    clear meets
    induction p with
    | done a =>
      exact fun s safe held s' drifted => ⟨only, safe s' drifted, stable.drifts held drifted⟩
    | call c next ih =>
      intro s safe held s' drifted
      obtain ⟨here, later⟩ := safe s' drifted
      refine ⟨here, fun answer s'' answered => ?_⟩
      exact ih answer (only.2 answer) s'' (later answer s'' answered)
        (kept c s' answer s'' only.1 here answered (stable.drifts held drifted))
  exact fun s start => framed s (meets s start.1) start.2

end Footprint

section Refinement
variable {Call Method σ τ : Type} {Answer : Call → Type} {Result : Method → Type}

/-- A call that has returned. -/
def Label.outcome? : Label Call Method Result → Option (Σ m, Result m)
  | .returned m r => some ⟨m, r⟩
  | .invoke _ | .call _ | .drift => none

/-- The calls that have returned, in this order. -/
def outcomes (labels : List (Label Call Method Result)) : List (Σ m, Result m) :=
  labels.filterMap Label.outcome?

theorem outcomes_snoc (labels : List (Label Call Method Result)) (l : Label Call Method Result) :
    outcomes (labels ++ [l]) = outcomes labels ++ l.outcome?.toList := by
  rw [outcomes, outcomes, List.filterMap_append]
  cases outcome : l.outcome? <;> simp [outcome]

variable {effect : (c : Call) → σ → Answer c → σ → Prop} {drift : Option Method → σ → σ → Prop}
  {body : (m : Method) → Program Call Answer (Result m)} {allowed : Call → σ → Prop}
  (related : σ → τ → Prop) (abstract : τ → (Σ m, Result m) → τ → Prop)

/-- A call ends where the abstract object can take the step of its result. -/
def Answers (h : τ) (m : Method) (r : Result m) (s : σ) : Prop :=
  ∃ h', abstract h ⟨m, r⟩ h' ∧ related s h'

/-- The abstract object stands for a thread, and for what a method that is running will return. -/
def Stands (effect : (c : Call) → σ → Answer c → σ → Prop) (drift : Option Method → σ → σ → Prop)
    (allowed : Call → σ → Prop) : Thread σ Call Answer Method Result × σ → τ → Prop
  | (.idle, s), h => related s h
  | (.inside m _ rest, s), h =>
    Safe effect (drift (some m)) allowed (Answers related abstract h m) rest s

variable {related abstract}

/-- One step: the abstract object moves when a call returns. -/
theorem stands_step (idle : ∀ h, Stable (drift none) fun s => related s h)
    (safe : ∀ m s h, related s h →
      Safe effect (drift (some m)) allowed (Answers related abstract h m) (body m) s)
    {t t' : Thread σ Call Answer Method Result × σ} {l : Label Call Method Result} {h : τ}
    (stands : Stands related abstract effect drift allowed t h) (step : Step effect drift body t l t') :
    (l.outcome? = none ∧ Stands related abstract effect drift allowed t' h) ∨
      ∃ outcome h', l.outcome? = some outcome ∧ abstract h outcome h' ∧
        Stands related abstract effect drift allowed t' h' := by
  cases step with
  | invoke m => exact .inl ⟨rfl, safe m _ h stands⟩
  | call answered => exact .inl ⟨rfl, (stands _ .refl).2 _ _ answered⟩
  | returned =>
    obtain ⟨h', moved, held⟩ := stands _ .refl
    exact .inr ⟨_, h', rfl, moved, held⟩
  | driftIdle drifted => exact .inl ⟨rfl, idle h _ _ stands drifted⟩
  | driftInside drifted => exact .inl ⟨rfl, safe_drifts stands (.single drifted)⟩

/-- What the calls of a run have returned is a run of the abstract object. -/
theorem outcomes_run (idle : ∀ h, Stable (drift none) fun s => related s h)
    (safe : ∀ m s h, related s h →
      Safe effect (drift (some m)) allowed (Answers related abstract h m) (body m) s)
    {s : σ} {h : τ} (start : related s h) {labels : List (Label Call Method Result)}
    {t : Thread σ Call Answer Method Result × σ}
    (run : Run (Step effect drift body) (.idle, s) labels t) :
    ∃ h', Run abstract h (outcomes labels) h' ∧ Stands related abstract effect drift allowed t h' := by
  refine run.history (fun labels t => ∃ h', Run abstract h (outcomes labels) h' ∧
    Stands related abstract effect drift allowed t h') ⟨h, .start, start⟩ ?_
  rintro labels t l t' ⟨h', earlier, stands⟩ step
  rw [outcomes_snoc]
  rcases stands_step idle safe stands step with ⟨none, held⟩ | ⟨outcome, h'', some, moved, held⟩
  · rw [none, Option.toList_none, List.append_nil]
    exact ⟨h', earlier, held⟩
  · rw [some, Option.toList_some]
    exact ⟨h'', earlier.next moved, held⟩

/-- A method that is left to itself returns no sooner than it ends. -/
theorem Evaluates.inside_silent {m : Method} {entered s s' : σ} {p : Program Call Answer (Result m)}
    {r : Result m} (evaluates : Evaluates effect p s r s') : ∃ labels,
      Run (Step effect drift body) (.inside m entered p, s) labels (.inside m entered (.done r), s') ∧
        outcomes labels = [] := by
  induction evaluates with
  | done => exact ⟨[], .start, rfl⟩
  | @call c next _ answer _ _ _ answered _ ih =>
    obtain ⟨labels, rest, silent⟩ := ih
    refine ⟨[.call c] ++ labels, Run.append (.next .start (.call answered)) rest, ?_⟩
    rw [List.singleton_append, outcomes, List.filterMap_cons_none rfl]
    exact silent

/-- A method that is called in a run and returns. -/
theorem Evaluates.outcome {m : Method} {initial s s' : σ} {r : Result m}
    (evaluates : Evaluates effect (body m) s r s') {labels : List (Label Call Method Result)}
    (run : Run (Step effect drift body) (.idle, initial) labels (.idle, s)) : ∃ labels',
      Run (Step effect drift body) (.idle, initial) labels' (.idle, s') ∧
        outcomes labels' = outcomes labels ++ [⟨m, r⟩] := by
  obtain ⟨inner, inside, silent⟩ : ∃ inner, Run (Step effect drift body) (.inside m s (body m), s)
      inner (.inside m s (.done r), s') ∧ outcomes inner = [] := evaluates.inside_silent
  refine ⟨_, Run.next (Run.append (.next run (.invoke m)) inside) .returned, ?_⟩
  rw [outcomes_snoc, outcomes, List.filterMap_append, ← outcomes, ← outcomes, outcomes_snoc, silent]
  simp [Label.outcome?]

end Refinement
end Interaction

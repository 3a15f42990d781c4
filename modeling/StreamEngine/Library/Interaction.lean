import StreamEngine.Library.Transition
import Mathlib.Logic.Relation

/-! Programs that make calls into an environment, one at a time. The environment answers a call and
takes steps of its own before and after it. The rules walk through a program in the order of its
calls; an assertion has to survive the steps of the environment. An object runs the programs of
its methods one after another. -/
namespace Interaction

inductive Program (Call : Type) (Answer : Call → Type) (α : Type) where
  | done (a : α)
  | call (c : Call) (next : Answer c → Program Call Answer α)

variable {Call : Type} {Answer : Call → Type} {σ α β : Type}

def Program.bind : Program Call Answer α → (α → Program Call Answer β) → Program Call Answer β
  | .done a, f => f a
  | .call c next, f => .call c fun answer => (next answer).bind f

instance : Monad (Program Call Answer) where
  pure := .done
  bind := Program.bind

def request (c : Call) : Program Call Answer (Answer c) := .call c .done

section Rules
variable (effect : (c : Call) → σ → Answer c → σ → Prop) (drift : σ → σ → Prop)
  (allowed : Call → σ → Prop)

abbrev Drifts : σ → σ → Prop := Relation.ReflTransGen drift

/-- Every call is made where it is allowed, and the program can only end as `post` says. -/
def Safe (post : α → σ → Prop) : Program Call Answer α → σ → Prop
  | .done a, s => ∀ s', Drifts drift s s' → post a s'
  | .call c next, s => ∀ s', Drifts drift s s' → allowed c s' ∧
      ∀ answer s'', effect c s' answer s'' → Safe post (next answer) s''

def Stable (pre : σ → Prop) : Prop := ∀ s s', pre s → drift s s' → pre s'

def Meets (pre : σ → Prop) (p : Program Call Answer α) (post : α → σ → Prop) : Prop :=
  ∀ s, pre s → Safe effect drift allowed post p s

variable {effect drift allowed} {pre pre' : σ → Prop} {post post' : α → σ → Prop}

theorem Stable.drifts (stable : Stable drift pre) {s s' : σ} (start : pre s)
    (drifted : Drifts drift s s') : pre s' := by
  induction drifted with
  | refl => exact start
  | tail _ last ih => exact stable _ _ ih last

theorem Stable.and (first : Stable drift pre) (second : Stable drift pre') :
    Stable drift fun s => pre s ∧ pre' s :=
  fun s s' held last => ⟨first s s' held.1 last, second s s' held.2 last⟩

theorem safe_drifts {p : Program Call Answer α} {s s' : σ}
    (safe : Safe effect drift allowed post p s) (drifted : Drifts drift s s') :
    Safe effect drift allowed post p s' := by
  cases p with
  | done a => exact fun s'' further => safe s'' (drifted.trans further)
  | call c next => exact fun s'' further => safe s'' (drifted.trans further)

theorem safe_weaken {p : Program Call Answer α} {s : σ} (weaker : ∀ a s, post a s → post' a s)
    (safe : Safe effect drift allowed post p s) : Safe effect drift allowed post' p s := by
  induction p generalizing s with
  | done a => exact fun s' drifted => weaker a s' (safe s' drifted)
  | call c next ih =>
    intro s' drifted
    obtain ⟨here, later⟩ := safe s' drifted
    exact ⟨here, fun answer s'' answered => ih answer (later answer s'' answered)⟩

theorem safe_bind {p : Program Call Answer α} {f : α → Program Call Answer β}
    {final : β → σ → Prop} {s : σ}
    (safe : Safe effect drift allowed (fun a s => Safe effect drift allowed final (f a) s) p s) :
    Safe effect drift allowed final (p.bind f) s := by
  induction p generalizing s with
  | done a => exact safe s .refl
  | call c next ih =>
    intro s' drifted
    obtain ⟨here, later⟩ := safe s' drifted
    exact ⟨here, fun answer s'' answered => ih answer (later answer s'' answered)⟩

theorem meets_done {a : α} (stable : Stable drift pre) (holds : ∀ s, pre s → post a s) :
    Meets effect drift allowed pre (.done a) post :=
  fun _ start s' drifted => holds s' (stable.drifts start drifted)

theorem meets_request {c : Call} {post : Answer c → σ → Prop} (stable : Stable drift pre)
    (permitted : ∀ s, pre s → allowed c s)
    (answered : ∀ s answer s', pre s → effect c s answer s' → post answer s')
    (kept : ∀ answer, Stable drift (post answer)) :
    Meets effect drift allowed pre (request c) post := by
  intro s start s' drifted
  have here := stable.drifts start drifted
  refine ⟨permitted s' here, fun answer s'' effected s₃ further => ?_⟩
  exact (kept answer).drifts (answered s' answer s'' here effected) further

theorem meets_bind {p : Program Call Answer α} {f : α → Program Call Answer β}
    {final : β → σ → Prop} (first : Meets effect drift allowed pre p post)
    (rest : ∀ a, Meets effect drift allowed (post a) (f a) final) :
    Meets effect drift allowed pre (p >>= f) final :=
  fun s start => safe_bind (safe_weaken (fun a s held => rest a s held) (first s start))

theorem meets_ite {c : Prop} [Decidable c] {p q : Program Call Answer α}
    (positive : c → Meets effect drift allowed pre p post)
    (negative : ¬ c → Meets effect drift allowed pre q post) :
    Meets effect drift allowed pre (if c then p else q) post := by
  split
  · exact positive ‹_›
  · exact negative ‹_›

theorem meets_exists {ι : Type} {pre : ι → σ → Prop} {p : Program Call Answer α}
    (meets : ∀ i, Meets effect drift allowed (pre i) p post) :
    Meets effect drift allowed (fun s => ∃ i, pre i s) p post :=
  fun s ⟨i, start⟩ => meets i s start

theorem meets_or {p : Program Call Answer α} (first : Meets effect drift allowed pre p post)
    (second : Meets effect drift allowed pre' p post) :
    Meets effect drift allowed (fun s => pre s ∨ pre' s) p post :=
  fun s start => start.elim (first s) (second s)

/-- A part of the precondition that is no matter of the state. -/
theorem meets_assume {fact : Prop} {p : Program Call Answer α}
    (meets : fact → Meets effect drift allowed pre p post) :
    Meets effect drift allowed (fun s => fact ∧ pre s) p post :=
  fun s start => meets start.1 s start.2

theorem meets_weaken {p : Program Call Answer α} (meets : Meets effect drift allowed pre p post)
    (stronger : ∀ s, pre' s → pre s) (weaker : ∀ a s, post a s → post' a s) :
    Meets effect drift allowed pre' p post' :=
  fun s start => safe_weaken weaker (meets s (stronger s start))

end Rules

section Objects
variable {Method : Type} {Result : Method → Type}

/-- What the one thread of the object is doing, and since which state. -/
inductive Thread (σ : Type) (Call : Type) (Answer : Call → Type) (Method : Type)
    (Result : Method → Type) where
  | idle
  | inside (m : Method) (entered : σ) (rest : Program Call Answer (Result m))

inductive Label (Call : Type) (Method : Type) (Result : Method → Type) where
  | invoke (m : Method)
  | call (c : Call)
  | returned (m : Method) (r : Result m)
  | drift

variable (effect : (c : Call) → σ → Answer c → σ → Prop) (drift : Option Method → σ → σ → Prop)
  (body : (m : Method) → Program Call Answer (Result m))

/-- Which steps the environment takes of its own may depend on the method that is running. -/
inductive Step : Thread σ Call Answer Method Result × σ → Label Call Method Result →
    Thread σ Call Answer Method Result × σ → Prop where
  | invoke {s} (m) : Step (.idle, s) (.invoke m) (.inside m s (body m), s)
  | call {m entered c next s answer s'} (answered : effect c s answer s') :
      Step (.inside m entered (.call c next), s) (.call c) (.inside m entered (next answer), s')
  | returned {m entered r s} : Step (.inside m entered (.done r), s) (.returned m r) (.idle, s)
  | driftIdle {s s'} (drifted : drift none s s') : Step (.idle, s) .drift (.idle, s')
  | driftInside {m entered rest s s'} (drifted : drift (some m) s s') :
      Step (.inside m entered rest, s) .drift (.inside m entered rest, s')

variable {effect drift body} (allowed : Call → σ → Prop) (inv : σ → Prop)
  (post : (m : Method) → σ → Result m → σ → Prop)

/-- Between calls of methods the invariant holds, and in one its program is safe. -/
def Sound (effect : (c : Call) → σ → Answer c → σ → Prop) (drift : Option Method → σ → σ → Prop) :
    Thread σ Call Answer Method Result × σ → Prop
  | (.idle, s) => inv s
  | (.inside m entered rest, s) => inv entered ∧
      Safe effect (drift (some m)) allowed (fun r s => inv s ∧ post m entered r s) rest s

variable {allowed inv post}

theorem sound_step (idle : Stable (drift none) inv)
    (safe : ∀ m s, inv s → Safe effect (drift (some m)) allowed
      (fun r s' => inv s' ∧ post m s r s') (body m) s)
    {t t' : Thread σ Call Answer Method Result × σ} {l : Label Call Method Result}
    (sound : Sound allowed inv post effect drift t) (step : Step effect drift body t l t') :
    Sound allowed inv post effect drift t' := by
  cases step with
  | invoke m => exact ⟨sound, safe m _ sound⟩
  | call answered => exact ⟨sound.1, (sound.2 _ .refl).2 _ _ answered⟩
  | returned => exact (sound.2 _ .refl).1
  | driftIdle drifted => exact idle _ _ sound drifted
  | driftInside drifted => exact ⟨sound.1, safe_drifts sound.2 (.single drifted)⟩

open Transition

theorem sound_run (idle : Stable (drift none) inv)
    (safe : ∀ m s, inv s → Safe effect (drift (some m)) allowed
      (fun r s' => inv s' ∧ post m s r s') (body m) s)
    {s : σ} (start : inv s) {labels : List (Label Call Method Result)}
    {t : Thread σ Call Answer Method Result × σ}
    (run : Run (Step effect drift body) (.idle, s) labels t) :
    Sound allowed inv post effect drift t :=
  run.invariant (Sound allowed inv post effect drift) start fun _ _ _ => sound_step idle safe

/-- What every permitted effect and every step of the environment keeps holds throughout. -/
theorem keeps_run (kept : σ → Prop) (idle : Stable (drift none) inv)
    (safe : ∀ m s, inv s → Safe effect (drift (some m)) allowed
      (fun r s' => inv s' ∧ post m s r s') (body m) s)
    (effects : ∀ c s answer s', allowed c s → kept s → effect c s answer s' → kept s')
    (drifts : ∀ m, Stable (drift m) kept) {s : σ} (start : inv s) (first : kept s)
    {labels : List (Label Call Method Result)} {t : Thread σ Call Answer Method Result × σ}
    (run : Run (Step effect drift body) (.idle, s) labels t) : kept t.2 := by
  refine (run.invariant (fun t => Sound allowed inv post effect drift t ∧ kept t.2) ⟨start, first⟩
    fun t l t' held step => ⟨sound_step idle safe held.1 step, ?_⟩).2
  obtain ⟨sound, held⟩ := held
  cases step with
  | invoke m => exact held
  | call answered => exact effects _ _ _ _ (sound.2 _ .refl).1 held answered
  | returned => exact held
  | driftIdle drifted => exact drifts none _ _ held drifted
  | driftInside drifted => exact drifts (some _) _ _ held drifted

/-- A program that is left to itself: what it returns, and the state it leaves. -/
inductive Evaluates (effect : (c : Call) → σ → Answer c → σ → Prop) :
    Program Call Answer α → σ → α → σ → Prop where
  | done {a s} : Evaluates effect (.done a) s a s
  | call {c next s answer s' a s''} (answered : effect c s answer s')
      (rest : Evaluates effect (next answer) s' a s'') : Evaluates effect (.call c next) s a s''

theorem Evaluates.bind {p : Program Call Answer α} {f : α → Program Call Answer β} {s s' s'' : σ}
    {a : α} {b : β} (first : Evaluates effect p s a s') (rest : Evaluates effect (f a) s' b s'') :
    Evaluates effect (p >>= f) s b s'' := by
  induction first with
  | done => exact rest
  | call answered _ ih => exact .call answered (ih rest)

theorem Evaluates.request {c : Call} {answer : Answer c} {s s' : σ}
    (answered : effect c s answer s') : Evaluates effect (request c) s answer s' :=
  .call answered .done

theorem Evaluates.inside {m : Method} {entered s s' : σ} {p : Program Call Answer (Result m)}
    {r : Result m} (evaluates : Evaluates effect p s r s') : ∃ labels,
      Run (Step effect drift body) (.inside m entered p, s) labels (.inside m entered (.done r), s') := by
  induction evaluates with
  | done => exact ⟨[], .start⟩
  | call answered _ ih =>
    obtain ⟨labels, rest⟩ := ih
    exact ⟨_, Run.append (.next .start (.call answered)) rest⟩

/-- A method that is called in a run and comes to its end. -/
theorem Evaluates.run {m : Method} {initial s s' : σ} {r : Result m}
    (evaluates : Evaluates effect (body m) s r s') {labels : List (Label Call Method Result)}
    (run : Run (Step effect drift body) (.idle, initial) labels (.idle, s)) : ∃ labels',
      Run (Step effect drift body) (.idle, initial) labels' (.inside m s (.done r), s') := by
  obtain ⟨inner, inside⟩ : ∃ inner, Run (Step effect drift body) (.inside m s (body m), s) inner
      (.inside m s (.done r), s') := evaluates.inside
  exact ⟨_, Run.append (.next run (.invoke m)) inside⟩

end Objects
end Interaction

import StreamEngine.Library.Interaction
import Mathlib.Logic.Function.Basic

/-! Threads that run methods of one object at the same time, each with its own thread. A method
goes round until it returns, and each round is a program. Which methods may overlap is what
the callers promise. A method is verified alone, against what the methods that may overlap
with it guarantee; the run rule puts the threads together. -/
namespace Threads
open Interaction Transition

variable {ι Method Call Result σ : Type} {Answer : Call → Type} [DecidableEq ι]

def onlyIf (c : Prop) [Decidable c] (action : Program Call Answer Unit) : Program Call Answer Unit :=
  if c then action else pure ()

/-- What a round ends with. -/
inductive Ending (Method Result : Type) where
  | again (m : Method)
  | result (r : Result)

inductive Activity (Call : Type) (Answer : Call → Type) (Method Result : Type) where
  | idle
  | inside (m : Method) (rest : Program Call Answer (Ending Method Result))

structure System (ι σ Call : Type) (Answer : Call → Type) (Method Result : Type) where
  activity : ι → Activity Call Answer Method Result
  world : σ

namespace System

def fresh (world : σ) : System ι σ Call Answer Method Result := ⟨fun _ => .idle, world⟩

/-- A thread does this next, in this world. -/
def turn (s : System ι σ Call Answer Method Result) (t : ι) (next : Activity Call Answer Method Result)
    (world : σ) : System ι σ Call Answer Method Result :=
  ⟨Function.update s.activity t next, world⟩

@[simp] theorem turn_world {s : System ι σ Call Answer Method Result} {t : ι}
    {next : Activity Call Answer Method Result} {world : σ} : (s.turn t next world).world = world := rfl

@[simp] theorem turn_self {s : System ι σ Call Answer Method Result} {t : ι}
    {next : Activity Call Answer Method Result} {world : σ} :
    (s.turn t next world).activity t = next := Function.update_self ..

theorem turn_other {s : System ι σ Call Answer Method Result} {t u : ι}
    {next : Activity Call Answer Method Result} {world : σ} (other : u ≠ t) :
    (s.turn t next world).activity u = s.activity u := Function.update_of_ne other ..

@[simp] theorem turn_turn {s : System ι σ Call Answer Method Result} {t : ι}
    {first second : Activity Call Answer Method Result} {world world' : σ} :
    (s.turn t first world).turn t second world' = s.turn t second world' := by
  rw [turn, turn, turn, Function.update_idem]

@[simp] theorem fresh_idle {t : ι} {world world' : σ} :
    (fresh world : System ι σ Call Answer Method Result).turn t .idle world' = fresh world' := by
  rw [turn, fresh, Function.update_eq_self_iff.mpr rfl]
  rfl

/-- Only the thread that was started runs. -/
theorem fresh_turn {t u : ι} {m n : Method} {world world' : σ}
    {rest rest' : Program Call Answer (Ending Method Result)}
    (here : ((fresh world).turn t (.inside m rest) world').activity u = .inside n rest') : n = m := by
  by_cases same : u = t
  · subst same
    exact (Activity.inside.inj (turn_self.symm.trans here)).1.symm
  · exact nomatch (turn_other same).symm.trans here

end System

inductive Label (ι Call : Type) (Answer : Call → Type) (Method Result : Type) where
  | invoke (m : Method)
  | call (t : ι) (c : Call) (answer : Answer c)
  | again (m : Method)
  | returned (m : Method) (r : Result)

/-- The object: what its calls do, its methods, the thread of each, and what its callers
promise: which methods they let overlap, and where they call one. -/
structure Object (ι σ Call : Type) (Answer : Call → Type) (Method Result : Type) where
  effect : ι → (c : Call) → σ → Answer c → σ → Prop
  body : Method → Program Call Answer (Ending Method Result)
  thread : Method → ι
  overlaps : Method → Method → Prop
  overlaps_symm : ∀ m n, overlaps m n → overlaps n m
  ready : Method → σ → Prop

variable (object : Object ι σ Call Answer Method Result)

inductive Step : System ι σ Call Answer Method Result → Label ι Call Answer Method Result →
    System ι σ Call Answer Method Result → Prop where
  | invoke {s} (m) (idle : s.activity (object.thread m) = .idle)
      (apart : ∀ t n rest, s.activity t = .inside n rest → object.overlaps m n)
      (ready : object.ready m s.world) :
      Step s (.invoke m) (s.turn (object.thread m) (.inside m (object.body m)) s.world)
  | call {s t m c next answer world} (here : s.activity t = .inside m (.call c next))
      (answered : object.effect t c s.world answer world) :
      Step s (.call t c answer) (s.turn t (.inside m (next answer)) world)
  | again {s t m n} (here : s.activity t = .inside m (.done (.again n))) :
      Step s (.again n) (s.turn t (.inside n (object.body n)) s.world)
  | returned {s t m r} (here : s.activity t = .inside m (.done (.result r))) :
      Step s (.returned m r) (s.turn t .idle s.world)

/-- How the methods are verified: what each may call and where, what it guarantees to the
others, where a round starts and which may follow it, and what holds of the world while a thread
rests and when a method returns. -/
structure Outline (object : Object ι σ Call Answer Method Result) where
  allowed : Method → Call → σ → Prop
  guarantee : Method → σ → σ → Prop
  entry : Method → σ → Prop
  follows : Method → Method → Prop
  rests : ι → σ → Prop
  post : Method → Result → σ → Prop

/-- Fewer steps beside it and more that is allowed leave a program safe. -/
theorem safe_mono {α : Type} {effect : (c : Call) → σ → Answer c → σ → Prop} {drift drift' : σ → σ → Prop}
    {allowed allowed' : Call → σ → Prop} {post : α → σ → Prop} (fewer : ∀ s s', drift' s s' → drift s s')
    (more : ∀ c s, allowed c s → allowed' c s) {p : Program Call Answer α} {s : σ}
    (safe : Safe effect drift allowed post p s) : Safe effect drift' allowed' post p s := by
  induction p generalizing s with
  | done a => exact fun s' drifted => safe s' (Relation.ReflTransGen.mono fewer _ _ drifted)
  | call c next ih =>
    intro s' drifted
    obtain ⟨here, later⟩ := safe s' (Relation.ReflTransGen.mono fewer _ _ drifted)
    exact ⟨more c s' here, fun answer s'' answered => ih answer (later answer s'' answered)⟩

/-- What the steps beside a program and its own calls keep, it may assume and has kept. -/
theorem meets_frame {α : Type} {effect : (c : Call) → σ → Answer c → σ → Prop} {drift : σ → σ → Prop}
    {allowed : Call → σ → Prop} {pre : σ → Prop} {post : α → σ → Prop} {frame : σ → Prop}
    (stable : Stable drift frame)
    (kept : ∀ c s answer s', allowed c s → effect c s answer s' → frame s → frame s')
    {p : Program Call Answer α} (meets : Meets effect drift allowed pre p post) :
    Meets effect drift allowed (fun s => pre s ∧ frame s) p fun a s => post a s ∧ frame s := by
  have framed : ∀ s, Safe effect drift allowed post p s → frame s →
      Safe effect drift allowed (fun a s => post a s ∧ frame s) p s := by
    clear meets
    induction p with
    | done a => exact fun s safe held s' drifted => ⟨safe s' drifted, stable.drifts held drifted⟩
    | call c next ih =>
      intro s safe held s' drifted
      obtain ⟨here, later⟩ := safe s' drifted
      refine ⟨here, fun answer s'' answered => ih answer s'' (later answer s'' answered) ?_⟩
      exact kept c s' answer s'' here answered (stable.drifts held drifted)
  exact fun s start => framed s (meets s start.1) start.2

variable {object} (outline : Outline object)

namespace Outline

/-- What the other threads may do beside a method. -/
def drift (m : Method) (s s' : σ) : Prop :=
  ∃ n, object.thread n ≠ object.thread m ∧ object.overlaps m n ∧ outline.guarantee n s s'

/-- Where a round may end. -/
def ends (m : Method) : Ending Method Result → σ → Prop
  | .again n, s => outline.entry n s ∧ outline.follows m n
  | .result r, s => outline.rests (object.thread m) s ∧ outline.post m r s

def Round (m : Method) (p : Program Call Answer (Ending Method Result)) (s : σ) : Prop :=
  Safe (object.effect (object.thread m)) (outline.drift m) (outline.allowed m) (outline.ends m) p s

/-- The obligations, one method at a time. The next round may overlap with what the last one did. -/
structure Verified : Prop where
  enters : ∀ m s, outline.rests (object.thread m) s → object.ready m s → outline.entry m s
  rounds : ∀ m s, outline.entry m s → outline.Round m (object.body m) s
  follows : ∀ m n, outline.follows m n → object.thread n = object.thread m ∧
    ∀ k, object.overlaps m k → object.overlaps n k
  keeps : ∀ m c s answer s', outline.allowed m c s → object.effect (object.thread m) c s answer s' →
    outline.guarantee m s s'
  stable : ∀ t n, object.thread n ≠ t → Stable (outline.guarantee n) (outline.rests t)

/-- A resting thread's assertion holds, a running method is safe, and methods overlap only
as they may. -/
structure Sound (s : System ι σ Call Answer Method Result) : Prop where
  idle : ∀ t, s.activity t = .idle → outline.rests t s.world
  inside : ∀ t m rest, s.activity t = .inside m rest → object.thread m = t ∧ outline.Round m rest s.world
  apart : ∀ t u m n rest rest', t ≠ u → s.activity t = .inside m rest →
    s.activity u = .inside n rest' → object.overlaps m n

variable {outline} {s s' : System ι σ Call Answer Method Result}
  {l : Label ι Call Answer Method Result}

omit [DecidableEq ι] in
theorem Sound.fresh {world : σ} (rests : ∀ t, outline.rests t world) :
    outline.Sound (System.fresh world) where
  idle t _ := rests t
  inside t m rest here := by simp [System.fresh] at here
  apart t u m n rest rest' _ here := by simp [System.fresh] at here

/-- One thread goes on, and the others see what it guarantees. -/
theorem Sound.turn (sound : outline.Sound s) {t : ι} {next : Activity Call Answer Method Result}
    {world : σ}
    (idle : next = .idle → outline.rests t world)
    (inside : ∀ m rest, next = .inside m rest → object.thread m = t ∧ outline.Round m rest world)
    (apart : ∀ u m n rest rest', u ≠ t → next = .inside m rest → s.activity u = .inside n rest' →
      object.overlaps m n)
    (resting : ∀ u, u ≠ t → outline.rests u s.world → outline.rests u world)
    (running : ∀ u m rest, u ≠ t → s.activity u = .inside m rest → outline.Round m rest s.world →
      outline.Round m rest world) : outline.Sound (s.turn t next world) := by
  constructor
  · intro u here
    by_cases same : u = t
    · subst same
      exact idle (by simpa using here)
    · rw [System.turn_other same] at here
      exact resting u same (sound.idle u here)
  · intro u m rest here
    by_cases same : u = t
    · subst same
      exact inside m rest (by simpa using here)
    · rw [System.turn_other same] at here
      obtain ⟨own, round⟩ := sound.inside u m rest here
      exact ⟨own, running u m rest same here round⟩
  · intro u v m n rest rest' different here there
    by_cases first : u = t
    · subst first
      rw [System.turn_other different.symm] at there
      exact apart v m n rest rest' different.symm (by simpa using here) there
    · rw [System.turn_other first] at here
      by_cases second : v = t
      · subst second
        exact object.overlaps_symm _ _ (apart u n m rest' rest first (by simpa using there) here)
      · rw [System.turn_other second] at there
        exact sound.apart u v m n rest rest' different here there

theorem Sound.step (verified : outline.Verified) (sound : outline.Sound s)
    (step : Step object s l s') : outline.Sound s' := by
  cases step with
  | invoke m idle apart ready =>
    have entry := verified.enters m _ (sound.idle _ idle) ready
    refine sound.turn (by simp) ?_ ?_ (fun _ _ rests => rests) (fun _ _ _ _ _ round => round)
    · rintro n rest ⟨⟩
      exact ⟨rfl, verified.rounds m _ entry⟩
    · rintro u n k rest rest' - ⟨⟩ there
      exact apart u k rest' there
  | @call t m c next answer world here answered =>
    obtain ⟨rfl, round⟩ := sound.inside t m _ here
    obtain ⟨permitted, later⟩ := round s.world .refl
    have guaranteed := verified.keeps m c _ answer world permitted answered
    refine sound.turn (by simp) ?_ ?_ ?_ ?_
    · rintro n rest ⟨⟩
      exact ⟨rfl, later answer world answered⟩
    · rintro u n k rest rest' other ⟨⟩ there
      exact sound.apart _ _ m k _ _ other.symm here there
    · intro u other rests
      exact verified.stable u m other.symm _ _ rests guaranteed
    · intro u n rest other there inside
      obtain ⟨rfl, -⟩ := sound.inside u n rest there
      have apart := sound.apart _ _ n m _ _ other there here
      exact safe_drifts inside (.single ⟨m, other.symm, apart, guaranteed⟩)
  | @again t m n here =>
    obtain ⟨rfl, round⟩ := sound.inside t m _ here
    obtain ⟨entry, followed⟩ := round s.world .refl
    obtain ⟨own, wider⟩ := verified.follows m n followed
    refine sound.turn (by simp) ?_ ?_ (fun _ _ rests => rests) (fun _ _ _ _ _ round => round)
    · rintro k rest ⟨⟩
      exact ⟨own, verified.rounds n _ entry⟩
    · rintro u k j rest rest' other ⟨⟩ there
      exact wider j (sound.apart _ _ m j _ _ other.symm here there)
  | @returned t m r here =>
    obtain ⟨rfl, round⟩ := sound.inside t m _ here
    obtain ⟨rests, -⟩ := round s.world .refl
    exact sound.turn (fun _ => rests) (by simp) (by simp) (fun _ _ rests => rests)
      fun _ _ _ _ _ round => round

theorem Sound.run (verified : outline.Verified) {world : σ} (rests : ∀ t, outline.rests t world)
    {labels : List (Label ι Call Answer Method Result)}
    (run : Run (Step object) (System.fresh world) labels s) : outline.Sound s :=
  run.invariant outline.Sound (.fresh rests) fun _ _ _ sound step => sound.step verified step

omit [DecidableEq ι] in
/-- A thread makes its next call where it may. -/
theorem Sound.allowed (sound : outline.Sound s) {t : ι} {m : Method} {c : Call}
    {next : Answer c → Program Call Answer (Ending Method Result)}
    (here : s.activity t = .inside m (.call c next)) : outline.allowed m c s.world :=
  ((sound.inside t m _ here).2 s.world .refl).1

omit [DecidableEq ι] in
theorem Sound.again (sound : outline.Sound s) {t : ι} {m n : Method}
    (here : s.activity t = .inside m (.done (.again n))) : outline.follows m n :=
  ((sound.inside t m _ here).2 s.world .refl).2

omit [DecidableEq ι] in
/-- A round that returns has met its postcondition. -/
theorem Sound.post (sound : outline.Sound s) {t : ι} {m : Method} {r : Result}
    (here : s.activity t = .inside m (.done (.result r))) : outline.post m r s.world :=
  ((sound.inside t m _ here).2 s.world .refl).2

/-- What every permitted call keeps holds throughout. -/
theorem keeps_run (verified : outline.Verified) {world : σ} (rests : ∀ t, outline.rests t world)
    (kept : σ → Prop) (first : kept world)
    (calls : ∀ m c s answer s', outline.allowed m c s → object.effect (object.thread m) c s answer s' →
      kept s → kept s')
    {labels : List (Label ι Call Answer Method Result)}
    (run : Run (Step object) (System.fresh world) labels s) : kept s.world := by
  refine (run.invariant (fun s => outline.Sound s ∧ kept s.world) ⟨.fresh rests, first⟩ ?_).2
  rintro s l s' ⟨sound, held⟩ step
  refine ⟨sound.step verified step, ?_⟩
  cases step with
  | invoke | again | returned => exact held
  | call here answered =>
    obtain ⟨rfl, -⟩ := sound.inside _ _ _ here
    exact calls _ _ _ _ _ (sound.allowed here) answered held

end Outline

/-! ### Objects of one thread -/

section Alone
variable {α β : Type} {effect : (c : Call) → σ → Answer c → σ → Prop} {allowed : Call → σ → Prop}
  {post : α → σ → Prop} {s s' : σ}

/-- A program that nothing runs beside. -/
abbrev Alone (effect : (c : Call) → σ → Answer c → σ → Prop) (allowed : Call → σ → Prop)
    (post : α → σ → Prop) (p : Program Call Answer α) (s : σ) : Prop :=
  Safe effect (fun _ _ => False) allowed post p s

theorem alone_drifts (drifted : Drifts (fun _ _ => False) s s') : s' = s := by
  have stable : Stable (fun _ _ => False) (· = s) := fun _ _ _ => False.elim
  exact stable.drifts rfl drifted

theorem alone_done {a : α} (held : post a s) : Alone effect allowed post (pure a) s :=
  fun _ drifted => alone_drifts drifted ▸ held

/-- A call is made, and what follows is safe wherever it leads. -/
theorem alone_call {c : Call} {next : Answer c → Program Call Answer α} (permitted : allowed c s)
    (later : ∀ answer s', effect c s answer s' → Alone effect allowed post (next answer) s') :
    Alone effect allowed post (request c >>= next) s := by
  intro s' drifted
  obtain rfl := alone_drifts drifted
  exact ⟨permitted, later⟩

theorem alone_request {c : Call} {post : Answer c → σ → Prop} (permitted : allowed c s)
    (later : ∀ answer s', effect c s answer s' → post answer s') :
    Alone effect allowed post (request c) s :=
  alone_call permitted fun answer s' effected => alone_done (later answer s' effected)

theorem alone_bind {p : Program Call Answer β} {f : β → Program Call Answer α}
    {between : β → σ → Prop} (first : Alone effect allowed between p s)
    (rest : ∀ b s', between b s' → Alone effect allowed post (f b) s') :
    Alone effect allowed post (p >>= f) s := safe_bind (safe_weaken rest first)

theorem alone_ite {c : Prop} [Decidable c] {p q : Program Call Answer α}
    (positive : c → Alone effect allowed post p s) (negative : ¬ c → Alone effect allowed post q s) :
    Alone effect allowed post (if c then p else q) s := by
  split
  · exact positive ‹_›
  · exact negative ‹_›

end Alone

omit [DecidableEq ι] in
/-- Where nothing overlaps with a method, its rounds are followed alone. -/
theorem Outline.round_alone {m : Method} {p : Program Call Answer (Ending Method Result)} {s : σ}
    (apart : ∀ n, ¬ object.overlaps m n)
    (safe : Alone (object.effect (object.thread m)) (outline.allowed m) (outline.ends m) p s) :
    outline.Round m p s :=
  safe_mono (fun _ _ ⟨n, _, both, _⟩ => apart n both) (fun _ _ => id) safe

/-! ### A thread that is left to itself -/

theorem answers {α : Type} {effect : (c : Call) → σ → Answer c → σ → Prop} {c : Call}
    {next : Answer c → Program Call Answer α} {s s' s'' : σ} {a : α} (answer : Answer c)
    (answered : effect c s answer s') (rest : Evaluates effect (next answer) s' a s'') :
    Evaluates effect (.call c next) s a s'' := .call answered rest

/-- A program gets to what is left of it after some calls. -/
inductive Advances {α : Type} (effect : (c : Call) → σ → Answer c → σ → Prop) :
    Program Call Answer α → σ → Program Call Answer α → σ → Prop where
  | here {p s} : Advances effect p s p s
  | call {c next s s' p s''} (answer : Answer c) (answered : effect c s answer s')
      (rest : Advances effect (next answer) s' p s'') : Advances effect (.call c next) s p s''

theorem evaluates_advances {α : Type} {effect : (c : Call) → σ → Answer c → σ → Prop}
    {p : Program Call Answer α} {s s' : σ} {a : α} (evaluates : Evaluates effect p s a s') :
    Advances effect p s (.done a) s' := by
  induction evaluates with
  | done => exact .here
  | call answered _ ih => exact .call _ answered ih

/-- A method goes its rounds with nobody beside it and returns. -/
inductive Completes (object : Object ι σ Call Answer Method Result) (t : ι) :
    Method → σ → Result → σ → Prop where
  | result {m s r s'} (evaluates : Evaluates (object.effect t) (object.body m) s (.result r) s') :
      Completes object t m s r s'
  | again {m s n s' r s''} (evaluates : Evaluates (object.effect t) (object.body m) s (.again n) s')
      (rest : Completes object t n s' r s'') : Completes object t m s r s''

variable {s : System ι σ Call Answer Method Result} {t : ι} {m : Method} {r : Result}
  {world world' : σ}

theorem advances_run {p p' : Program Call Answer (Ending Method Result)}
    (advances : Advances (object.effect t) p world p' world') : ∃ labels,
    Run (Step object) (s.turn t (.inside m p) world) labels (s.turn t (.inside m p') world') := by
  induction advances with
  | here => exact ⟨[], .start⟩
  | @call c next before between p after answer answered _ ih =>
    obtain ⟨labels, rest⟩ := ih
    have first : Step object (s.turn t (.inside m (.call c next)) before) (.call t c answer)
        ((s.turn t (.inside m (.call c next)) before).turn t (.inside m (next answer)) between) :=
      .call System.turn_self answered
    rw [System.turn_turn] at first
    exact ⟨_, Run.append (.next .start first) rest⟩

theorem completes_run (completes : Completes object t m world r world') : ∃ labels n,
    Run (Step object) (s.turn t (.inside m (object.body m)) world) labels
      (s.turn t (.inside n (.done (.result r))) world') := by
  induction completes with
  | result evaluates =>
    obtain ⟨labels, round⟩ := advances_run (evaluates_advances evaluates)
    exact ⟨labels, _, round⟩
  | @again m before n between r after evaluates _ ih =>
    obtain ⟨first, round⟩ := advances_run (s := s) (m := m) (evaluates_advances evaluates)
    obtain ⟨labels, k, rest⟩ := ih
    have again : Step object (s.turn t (.inside m (.done (.again n))) between) (.again n)
        ((s.turn t (.inside m (.done (.again n))) between).turn t (.inside n (object.body n)) between) :=
      .again System.turn_self
    rw [System.turn_turn] at again
    exact ⟨_, k, Run.append (.next round again) rest⟩

section Calls
variable {initial : System ι σ Call Answer Method Result} {labels : List (Label ι Call Answer Method Result)}

/-- A method is called while nothing runs, and nothing runs when it has returned. -/
theorem returned_run (m : Method) (run : Run (Step object) initial labels (.fresh world))
    (ready : object.ready m world) (completes : Completes object (object.thread m) m world r world') :
    ∃ labels', Run (Step object) initial labels' (.fresh world') := by
  obtain ⟨inner, n, round⟩ := completes_run (s := .fresh world) completes
  have invoked : Step object (.fresh world) (.invoke m) _ := .invoke m rfl nofun ready
  have returned := Run.next (Run.append (.next run invoked) round) (.returned System.turn_self)
  rw [System.turn_turn, System.fresh_idle] at returned
  exact ⟨_, returned⟩

/-- A method is called while nothing runs, and has made some of its calls. -/
theorem advancing_run (m : Method) (run : Run (Step object) initial labels (.fresh world))
    (ready : object.ready m world) {p : Program Call Answer (Ending Method Result)}
    (advances : Advances (object.effect (object.thread m)) (object.body m) world p world') :
    ∃ labels' s, Run (Step object) initial labels' s ∧ s.world = world' ∧
      s.activity (object.thread m) = .inside m p := by
  obtain ⟨inner, round⟩ := advances_run (s := .fresh world) (m := m) advances
  have invoked : Step object (.fresh world) (.invoke m) _ := .invoke m rfl nofun ready
  exact ⟨_, _, Run.append (.next run invoked) round, rfl, System.turn_self⟩

/-- The step with which it returns. -/
theorem returning_run (m : Method) (run : Run (Step object) initial labels (.fresh world))
    (ready : object.ready m world)
    (evaluates : Evaluates (object.effect (object.thread m)) (object.body m) world (.result r) world') :
    ∃ labels' s s', Run (Step object) initial labels' s ∧ s.world = world' ∧
      Step object s (.returned m r) s' := by
  obtain ⟨labels', s, run, left, here⟩ := advancing_run m run ready (evaluates_advances evaluates)
  exact ⟨labels', s, _, run, left, .returned here⟩

/-- The step with which a method returns that goes several rounds. -/
theorem completing_run (m : Method) (run : Run (Step object) initial labels (.fresh world))
    (ready : object.ready m world) (completes : Completes object (object.thread m) m world r world') :
    ∃ labels' n s s', Run (Step object) initial labels' s ∧ s.world = world' ∧
      Step object s (.returned n r) s' := by
  obtain ⟨inner, n, round⟩ := completes_run (s := .fresh world) completes
  have invoked : Step object (.fresh world) (.invoke m) _ := .invoke m rfl nofun ready
  exact ⟨_, n, _, _, Run.append (.next run invoked) round, rfl, .returned System.turn_self⟩

end Calls
end Threads

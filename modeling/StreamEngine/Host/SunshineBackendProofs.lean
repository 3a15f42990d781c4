import StreamEngine.Host.SunshineBackend

/-! The backend and its child agree: `pid_` is zero when no child is left to be reaped, and otherwise
it is the pid of the only one. Each method is followed from one of these two states, whatever exits
in between. -/
namespace StreamEngine.Host
open ByteString Json PosixPath FileSystem Interaction Transition

/-- The object holds this pid, this child and no other is to be reaped, and this is what was waited
for. -/
structure At (pid : Int) (child : Option Int) (waited : List (Int × Option Child)) (w : World) :
    Prop where
  pid : w.pid = pid
  children : ∀ p, w.children p ≠ none ↔ child = some p
  waited : w.waited = waited

/-- Between the calls of methods. -/
def Managed (w : World) : Prop :=
  ∃ waited, At 0 none waited w ∨ ∃ p, 0 < p ∧ At p (some p) waited w

/-- A child is waited for and signalled while it is to be reaped, and the next one is forked when
none is. -/
def Permitted : Access → World → Prop
  | .fork _, w => ∀ p, w.children p = none
  | .waitpid pid _, w | .kill pid _, w => 0 < pid ∧ w.children pid ≠ none
  | _, _ => True

/-- Assertions about programs that children may exit under. -/
abbrev Spec (statePath : Path) {α : Type} (pre : World → Prop) (p : Method α)
    (post : α → World → Prop) : Prop := Meets (effect statePath) Exits Permitted pre p post

variable {statePath : Path} {waited : List (Int × Option Child)} {w w' : World}

theorem exits_children (exits : Exits w w') (p : Int) :
    w'.children p ≠ none ↔ w.children p ≠ none := by
  obtain ⟨pid, state, alive, rfl⟩ := exits
  by_cases same : p = pid
  · subst same
    simp [World.setChild, alive]
  · simp [World.setChild, same]

theorem At.exits {pid : Int} {child : Option Int} (before : At pid child waited w)
    (exits : Exits w w') : At pid child waited w' where
  pid := by
    obtain ⟨p, state, -, rfl⟩ := exits
    exact before.pid
  children p := (exits_children exits p).trans (before.children p)
  waited := by
    obtain ⟨p, state, -, rfl⟩ := exits
    exact before.waited

theorem At.noteWait {pid : Int} {child : Option Int} (before : At pid child waited w) (p : Int) :
    At pid child ((p, w.children p) :: waited) (w.noteWait p) :=
  ⟨before.pid, before.children, by rw [World.noteWait, before.waited]⟩

/-- The child is reaped. -/
theorem At.reap {pid p : Int} (before : At pid (some p) waited w) :
    At pid none waited (w.setChild p none) where
  pid := before.pid
  children q := by
    by_cases here : q = p
    · subst here
      simp [World.setChild]
    · have other : w.children q = none := by
        by_contra there
        exact here (Option.some.inj ((before.children q).mp there)).symm
      simp [World.setChild, here, other]
  waited := before.waited

theorem At.childless {pid : Int} (before : At pid none waited w) (p : Int) :
    w.children p = none := by
  by_contra there
  cases (before.children p).mp there

/-- A child is born. -/
theorem At.born {pid : Int} (before : At pid none waited w) (p : Int) (child : Child) :
    At pid (some p) waited (w.setChild p (some child)) where
  pid := before.pid
  children q := by
    by_cases here : q = p
    · subst here
      simp [World.setChild]
    · simp [World.setChild, here, before.childless q, Ne.symm here]
  waited := before.waited

theorem At.setPid {pid : Int} {child : Option Int} (before : At pid child waited w) (pid' : Int) :
    At pid' child waited { w with pid := pid' } :=
  ⟨rfl, before.children, before.waited⟩

theorem at_stable {pid : Int} {child : Option Int} : Stable Exits (At pid child waited) :=
  fun _ _ before exits => before.exits exits

theorem managed_stable : Stable Exits Managed := by
  rintro w w' ⟨waited, none | ⟨p, positive, one⟩⟩ exits
  · exact ⟨waited, Or.inl (none.exits exits)⟩
  · exact ⟨waited, Or.inr ⟨p, positive, one.exits exits⟩⟩

/-! ### Single accesses -/

theorem spec_readPid {pid : Int} {child : Option Int} : Spec statePath (At pid child waited)
    (access .readPid) (fun answer w => answer = pid ∧ At pid child waited w) := by
  refine meets_request at_stable (fun _ _ => trivial) ?_ fun _ w w' held exits =>
    ⟨held.1, held.2.exits exits⟩
  rintro w answer w' before ⟨rfl, rfl⟩
  exact ⟨before.pid, before⟩

theorem spec_writePid {pid pid' : Int} {child : Option Int} : Spec statePath (At pid child waited)
    (access (.writePid pid')) (fun _ => At pid' child waited) := by
  refine meets_request at_stable (fun _ _ => trivial) ?_ fun _ => at_stable
  rintro w answer w' before rfl
  exact before.setPid pid'

theorem spec_usleep {pid : Int} {child : Option Int} {microseconds : Nat} :
    Spec statePath (At pid child waited) (access (.usleep microseconds))
      (fun _ => At pid child waited) := by
  refine meets_request at_stable (fun _ _ => trivial) ?_ fun _ => at_stable
  rintro w answer w' before rfl
  exact before

theorem spec_kill {pid p : Int} {signal : Signal} (positive : 0 < p) :
    Spec statePath (At pid (some p) waited) (access (.kill p signal))
      (fun _ => At pid (some p) waited) := by
  refine meets_request at_stable (fun w before => ⟨positive, (before.children p).mpr rfl⟩) ?_
    fun _ => at_stable
  rintro w answer w' before rfl
  exact before

/-- What `waitpid` can find of the child: it is alive, or it has exited and is reaped. -/
theorem spec_waitpid {pid p : Int} {nohang : Bool} (positive : 0 < p) :
    Spec statePath (At pid (some p) waited) (access (.waitpid p nohang)) (fun answer w =>
      (answer = 0 ∧ nohang = true ∧
        ∃ state, At pid (some p) ((p, some (.alive state)) :: waited) w) ∨
      answer = p ∧ At pid none ((p, some .exited) :: waited) w) := by
  have permitted : ∀ w, At pid (some p) waited w → 0 < p ∧ w.children p ≠ none :=
    fun w before => ⟨positive, (before.children p).mpr rfl⟩
  refine meets_request at_stable permitted ?_ ?_
  · intro w answer w' before waits
    have waits := waits positive
    have there := (permitted w before).2
    have noted := before.noteWait p
    rw [World.waits] at waits
    cases found : w.children p with
    | none => exact absurd found there
    | some child =>
      rw [found] at waits noted
      cases child with
      | alive state =>
        obtain ⟨hangs, zero, rfl⟩ := waits
        exact Or.inl ⟨zero, hangs, state, noted⟩
      | exited =>
        obtain ⟨same, rfl⟩ := waits
        exact Or.inr ⟨same, noted.reap⟩
  · rintro answer w w' (⟨zero, hangs, state, held⟩ | ⟨same, held⟩) exits
    · exact Or.inl ⟨zero, hangs, state, held.exits exits⟩
    · exact Or.inr ⟨same, held.exits exits⟩

theorem spec_fork {pid : Int} {image : Image} : Spec statePath (At pid none waited)
    (access (.fork image)) (fun answer w => (answer = -1 ∧ At pid none waited w) ∨
      0 < answer ∧ At pid (some answer) waited w) := by
  refine meets_request at_stable ?_ ?_ ?_
  · exact fun w before => before.childless
  · rintro w answer w' before (⟨failed, rfl⟩ | ⟨positive, -, rfl⟩)
    · exact Or.inl ⟨failed, before⟩
    · exact Or.inr ⟨positive, before.born answer _⟩
  · rintro answer w w' (⟨failed, held⟩ | ⟨positive, held⟩) exits
    · exact Or.inl ⟨failed, held.exits exits⟩
    · exact Or.inr ⟨positive, held.exits exits⟩

/-! ### The methods -/

theorem running_childless : Spec statePath (At 0 none waited) SunshineBackend.running
    (fun r w => r = false ∧ At 0 none waited w) := by
  refine meets_bind spec_readPid fun pid => meets_assume fun none => ?_
  rw [if_pos (le_of_eq none)]
  exact meets_done at_stable fun w before => ⟨rfl, before⟩

/-- A child that is alive when it is waited for, or one that has exited and is forgotten. -/
theorem running_child {p : Int} (positive : 0 < p) : Spec statePath (At p (some p) waited)
    SunshineBackend.running (fun r w =>
      (r = true ∧ ∃ state, At p (some p) ((p, some (.alive state)) :: waited) w) ∨
      r = false ∧ At 0 none ((p, some .exited) :: waited) w) := by
  refine meets_bind spec_readPid fun pid => meets_assume fun same => ?_
  subst same
  rw [if_neg (not_le_of_gt positive)]
  refine meets_bind (spec_waitpid positive) fun r =>
    meets_or (meets_assume fun zero => meets_assume fun _ => ?_) (meets_assume fun reaped => ?_)
  · rw [if_pos zero]
    exact meets_exists fun state => meets_done at_stable fun w before => Or.inl ⟨rfl, state, before⟩
  · have nonzero : r ≠ 0 := by
      rw [reaped]
      exact ne_of_gt positive
    rw [if_neg nonzero]
    exact meets_bind spec_writePid fun _ =>
      meets_done at_stable fun w before => Or.inr ⟨rfl, before⟩

/-- Whether there is a child, after one that has exited is forgotten. -/
theorem running_managed : Spec statePath Managed SunshineBackend.running (fun r w =>
    (r = true ∧ ∃ p, 0 < p ∧ ∃ waited, At p (some p) waited w) ∨
    r = false ∧ ∃ waited, At 0 none waited w) := by
  refine meets_exists fun waited => meets_or ?_ (meets_exists fun p => meets_assume fun positive => ?_)
  · refine meets_weaken running_childless (fun _ before => before) ?_
    rintro r w ⟨none, held⟩
    exact Or.inr ⟨none, _, held⟩
  · refine meets_weaken (running_child positive) (fun _ before => before) ?_
    rintro r w (⟨alive, state, held⟩ | ⟨exited, held⟩)
    · exact Or.inl ⟨alive, p, positive, _, held⟩
    · exact Or.inr ⟨exited, _, held⟩

/-- While the loop lasts the child is the same. -/
theorem awaitExit_child {p : Int} (positive : 0 < p) (n : Nat) : Spec statePath
    (At p (some p) waited) (SunshineBackend.awaitExit n)
    (fun _ w => ∃ waited', At p (some p) waited' w ∨ At 0 none waited' w) := by
  induction n generalizing waited with
  | zero => exact meets_done at_stable fun w before => ⟨_, Or.inl before⟩
  | succ n ih =>
    refine meets_bind (running_child positive) fun r =>
      meets_or (meets_assume fun alive => ?_) (meets_assume fun exited => ?_)
    · rw [if_pos alive]
      exact meets_exists fun state => meets_bind spec_usleep fun _ => ih
    · rw [if_neg (by simp [exited])]
      exact meets_done at_stable fun w before => ⟨_, Or.inr before⟩

/-- No child is left. -/
theorem stop_managed : Spec statePath Managed SunshineBackend.stop
    (fun _ w => ∃ waited, At 0 none waited w) := by
  refine meets_bind running_managed fun r =>
    meets_or (meets_assume fun alive => ?_) (meets_assume fun none => ?_)
  · rw [if_pos alive]
    refine meets_exists fun p => meets_assume fun positive => meets_exists fun waited =>
      meets_bind spec_readPid fun pid => meets_assume fun same => ?_
    subst same
    refine meets_bind (spec_kill positive) fun _ => meets_bind (awaitExit_child positive 50) fun _ =>
      meets_exists fun waited' => meets_or ?_ ?_
    · refine meets_bind spec_readPid fun pid' => meets_assume fun same => ?_
      rw [if_pos (same ▸ positive)]
      refine meets_bind spec_readPid fun pid' => meets_assume fun same => ?_
      subst same
      refine meets_bind (spec_kill positive) fun _ => meets_bind spec_readPid fun pid' =>
        meets_assume fun same => ?_
      subst same
      -- the child cannot be alive when the blocking call is answered
      refine meets_bind (spec_waitpid positive) fun r =>
        meets_or (meets_assume fun _ => meets_assume fun nohang => absurd nohang (by decide))
          (meets_assume fun _ => ?_)
      exact meets_bind spec_writePid fun _ => meets_done at_stable fun w before => ⟨_, before⟩
    · refine meets_bind spec_readPid fun pid' => meets_assume fun same => ?_
      rw [if_neg (not_lt_of_ge (le_of_eq same))]
      exact meets_done at_stable fun w before => ⟨_, before⟩
  · rw [if_neg (by simp [none])]
    exact meets_exists fun waited => meets_done at_stable fun w before => ⟨_, before⟩

theorem start_managed (binary appsPath : Path) :
    Spec statePath Managed (SunshineBackend.start binary appsPath) (fun _ => Managed) := by
  refine meets_bind running_managed fun r =>
    meets_or (meets_assume fun alive => ?_) (meets_assume fun none => ?_)
  · rw [if_pos alive]
    exact meets_exists fun p => meets_assume fun positive => meets_exists fun waited =>
      meets_done at_stable fun w before => ⟨waited, Or.inr ⟨p, positive, before⟩⟩
  · rw [if_neg (by simp [none])]
    refine meets_exists fun waited => meets_ite (fun _ => ?_) fun _ => ?_
    · exact meets_done at_stable fun w before => ⟨_, Or.inl before⟩
    · refine meets_bind spec_fork fun pid =>
        meets_or (meets_assume fun failed => ?_) (meets_assume fun positive => ?_)
      · rw [if_pos (failed ▸ neg_one_lt_zero)]
        exact meets_done at_stable fun w before => ⟨_, Or.inl before⟩
      · rw [if_neg (not_lt_of_gt positive)]
        exact meets_bind spec_writePid fun _ =>
          meets_done at_stable fun w before => ⟨_, Or.inr ⟨pid, positive, before⟩⟩

/-! ### Runs -/

/-- What a method promises when it returns, given the state it was called in. -/
def BackendPost : (m : BackendCall) → World → m.Result → World → Prop
  | .start, _, _, _ => True
  | .stop, _, _, w => ∀ p, w.children p = none
  | .running, entered, r, w | .hostActive, entered, r, w =>
    r = true → ∃ state, w.waited = (w.pid, some (.alive state)) :: entered.waited

theorem running_answers {entered : World} (managed : Managed entered) :
    Safe (effect statePath) Exits Permitted (fun r w => Managed w ∧
      (r = true → ∃ state, w.waited = (w.pid, some (.alive state)) :: entered.waited))
      SunshineBackend.running entered := by
  obtain ⟨waited, none | ⟨p, positive, one⟩⟩ := managed
  · refine safe_weaken ?_ (running_childless entered none)
    rintro r w ⟨rfl, held⟩
    exact ⟨⟨_, Or.inl held⟩, by simp⟩
  · refine safe_weaken ?_ (running_child positive entered one)
    rintro r w (⟨rfl, state, held⟩ | ⟨rfl, held⟩)
    · refine ⟨⟨_, Or.inr ⟨p, positive, held⟩⟩, fun _ => ⟨state, ?_⟩⟩
      rw [held.waited, held.pid, one.waited]
    · exact ⟨⟨_, Or.inl held⟩, by simp⟩

theorem backend_answers (binary appsPath : Path) (m : BackendCall) {entered : World}
    (managed : Managed entered) : Safe (effect statePath) Exits Permitted
      (fun r w => Managed w ∧ BackendPost m entered r w) (m.body binary appsPath) entered := by
  cases m with
  | start =>
    exact safe_weaken (fun _ _ held => ⟨held, trivial⟩) (start_managed binary appsPath _ managed)
  | stop =>
    refine safe_weaken ?_ (stop_managed entered managed)
    rintro r w ⟨waited, held⟩
    exact ⟨⟨waited, Or.inl held⟩, held.childless⟩
  | running => exact running_answers managed
  | hostActive => exact running_answers managed

/-- No two children are to be reaped. -/
def OneChild (w : World) : Prop :=
  ∀ p q, w.children p ≠ none → w.children q ≠ none → p = q

theorem oneChild_setChild_none (one : OneChild w) (pid : Int) : OneChild (w.setChild pid none) := by
  have before : ∀ p, (w.setChild pid none).children p ≠ none → w.children p ≠ none := by
    intro p there
    by_cases same : p = pid
    · simp [World.setChild, same] at there
    · simpa [World.setChild, same] using there
  exact fun p q first second => one p q (before p first) (before q second)

theorem oneChild_effect {a : Access} {answer : a.Answer} (permitted : Permitted a w)
    (one : OneChild w) (answered : effect statePath a w answer w') : OneChild w' := by
  cases a with
  | readPid =>
    obtain ⟨-, rfl⟩ := answered
    exact one
  | writePid pid =>
    cases answered
    exact one
  | fork image =>
    obtain ⟨-, rfl⟩ | ⟨-, -, rfl⟩ := answered
    · exact one
    · have only : ∀ p, (w.setChild answer (some (.alive (w.files statePath)))).children p ≠ none →
          p = answer := by
        intro p there
        by_contra other
        simp [World.setChild, other, permitted p] at there
      exact fun p q first second => (only p first).trans (only q second).symm
  | waitpid pid nohang =>
    have waits := answered permitted.1
    rw [World.waits] at waits
    split at waits
    · obtain ⟨-, -, rfl⟩ := waits
      exact one
    · obtain ⟨-, rfl⟩ := waits
      exact oneChild_setChild_none (w := w.noteWait pid) one pid
    · obtain ⟨-, rfl⟩ := waits
      exact one
  | kill pid signal =>
    cases answered
    exact one
  | usleep microseconds =>
    cases answered
    exact one
  | readText path =>
    obtain ⟨-, rfl⟩ := answered
    exact one
  | writeText path data =>
    obtain ⟨-, rfl⟩ := answered
    exact one

/-- One child is alive at most, a child that is signalled is still to be reaped, `running` answers
true only if the child was alive when it was waited for in this call, and after `stop` there is no
child. -/
structure BackendSafe (statePath binary appsPath : Path)
    (t : Thread World Access Access.Answer BackendCall BackendCall.Result × World) : Prop where
  one_alive : ∀ p q state state', t.2.children p = some (.alive state) →
    t.2.children q = some (.alive state') → p = q
  killed : ∀ pid signal t', BackendStep statePath binary appsPath t (.call (.kill pid signal)) t' →
    0 < pid ∧ t.2.children pid ≠ none
  answered : ∀ entered, t.1 = .inside .running entered (.done true) ∨
      t.1 = .inside .hostActive entered (.done true) →
    ∃ state, t.2.waited = (t.2.pid, some (.alive state)) :: entered.waited
  stopped : ∀ r t', BackendStep statePath binary appsPath t (.returned .stop r) t' →
    ∀ p, t'.2.children p = none

/-- However the calls of the methods and the exits of children are interleaved. -/
theorem backend_safe (statePath binary appsPath : Path) (files : Files Path UInt8)
    {labels : List (Label Access BackendCall BackendCall.Result)}
    {t : Thread World Access Access.Answer BackendCall BackendCall.Result × World}
    (run : Run (BackendStep statePath binary appsPath) (.idle, .fresh files) labels t) :
    BackendSafe statePath binary appsPath t := by
  have fresh : Managed (.fresh files) := ⟨[], Or.inl ⟨rfl, by simp [World.fresh], rfl⟩⟩
  have safe : ∀ m w, Managed w → Safe (effect statePath) Exits Permitted
      (fun r w' => Managed w' ∧ BackendPost m w r w') (m.body binary appsPath) w :=
    fun m _ => backend_answers binary appsPath m
  have sound := sound_run managed_stable safe fresh run
  have oneFresh : OneChild (.fresh files) := by simp [OneChild, World.fresh]
  have oneExits : Stable Exits OneChild := by
    intro w w' held exits
    simpa only [OneChild, exits_children exits] using held
  have effects : ∀ a w answer w', Permitted a w → OneChild w → effect statePath a w answer w' →
      OneChild w' := fun _ _ _ _ permitted held => oneChild_effect permitted held
  have one : OneChild t.2 :=
    keeps_run OneChild managed_stable safe effects (fun _ => oneExits) fresh oneFresh run
  obtain ⟨thread, w⟩ := t
  exact {
    one_alive := by
      intro p q state state' first second
      exact one p q (by rw [first]; exact Option.some_ne_none _)
        (by rw [second]; exact Option.some_ne_none _)
    killed := by
      intro pid signal t' step
      cases step with
      | call answered => exact (sound.2 _ .refl).1
    answered := by
      rintro entered (rfl | rfl)
      · exact (sound.2 _ .refl).2 rfl
      · exact (sound.2 _ .refl).2 rfl
    stopped := by
      intro r t' step
      cases step with
      | returned => exact (sound.2 _ .refl).2 }

/-! ### A run -/

/-- The state once a child is started. -/
def World.forked (w : World) (statePath : Path) (pid : Int) : World :=
  { w.setChild pid (some (.alive (w.files statePath))) with pid := pid }

theorem start_evaluates {statePath binary appsPath : Path} {w : World} {pid : Int} (zero : w.pid = 0)
    (there : binary ≠ []) (positive : 0 < pid) (free : w.children pid = none) :
    Evaluates (effect statePath) (SunshineBackend.start binary appsPath) w (.ok ())
      (w.forked statePath pid) := by
  have answers : Evaluates (effect statePath) SunshineBackend.running w false w := by
    refine .bind (.request ⟨rfl, rfl⟩) ?_
    rw [if_pos (le_of_eq zero)]
    exact .done
  refine .bind answers ?_
  rw [if_neg (by decide), if_neg there]
  refine .bind (.request (Or.inr ⟨positive, free, rfl⟩)) ?_
  rw [if_neg (not_lt_of_gt positive)]
  exact .bind (a := ()) (.request rfl) .done

theorem running_evaluates {statePath : Path} {w : World} {state : Option Bytes} (positive : 0 < w.pid)
    (alive : w.children w.pid = some (.alive state)) :
    Evaluates (effect statePath) SunshineBackend.running w true (w.noteWait w.pid) := by
  refine .bind (.request ⟨rfl, rfl⟩) ?_
  rw [if_neg (not_le_of_gt positive)]
  have waits : w.waits w.pid true 0 (w.noteWait w.pid) := by
    rw [World.waits, alive]
    exact ⟨rfl, rfl, rfl⟩
  refine .bind (.request fun _ => waits) ?_
  rw [if_pos rfl]
  exact .done

/-- A method that is called in a run and comes to its end. -/
theorem backend_run {statePath binary appsPath : Path} {files : Files Path UInt8}
    {labels : List (Label Access BackendCall BackendCall.Result)} {m : BackendCall} {r : m.Result}
    (run : Run (BackendStep statePath binary appsPath) (.idle, .fresh files) labels (.idle, w))
    (evaluates : Evaluates (effect statePath) (m.body binary appsPath) w r w') : ∃ labels',
      Run (BackendStep statePath binary appsPath) (.idle, .fresh files) labels'
        (.inside m w (.done r), w') :=
  evaluates.run run

/-- A child is started and is found to be alive. -/
theorem backend_safe_started : ∃ (labels : List (Label Access BackendCall BackendCall.Result))
    (t : Thread World Access Access.Answer BackendCall BackendCall.Result × World),
    Run (BackendStep [] (ascii "sunshine") []) (.idle, .fresh fun _ => none) labels t ∧
      t.2.children 7 = some (.alive none) ∧ BackendSafe [] (ascii "sunshine") [] t := by
  have starts : Evaluates (effect []) (SunshineBackend.start (ascii "sunshine") [])
      (.fresh fun _ => none) (.ok ()) ((World.fresh fun _ => none).forked [] 7) :=
    start_evaluates rfl (by decide) (by decide) rfl
  obtain ⟨_, started⟩ := backend_run (m := .start) .start starts
  obtain ⟨_, found⟩ := backend_run (m := .running) (started.next .returned)
    (running_evaluates (by decide) rfl)
  exact ⟨_, _, found, rfl, backend_safe _ _ _ _ found⟩

end StreamEngine.Host

import StreamEngine.Main
import StreamEngine.Ipc.EndProofs

/-! What the exit status says. The process ends once the launcher's stream does or fails, leaves no
descriptor open, and its status tells how it was called, whether it was connected, and whether the
connection was served to its end. -/
namespace StreamEngine
open ByteString Json Ipc Refinement

namespace Process

variable {σ : Type} {engineVersion : Bytes} {fuel : Nat}

/-! ### How it is called -/

def IsVersion (cmd : Bytes) : Prop := cmd = ascii "--version" ∨ cmd = ascii "version"

def IsHelp (cmd : Bytes) : Prop := cmd = ascii "--help" ∨ cmd = ascii "-h" ∨ cmd = ascii "help"

/-- The command of a mode, with the handlers that the mode registers. -/
def IsMode (modes : Modes σ) (cmd : Bytes) (table : Table σ) : Prop :=
  cmd = ascii "host" ∧ table = modes.host ∨ cmd = ascii "stream" ∧ table = modes.stream

/-- The command line names a mode and passes it a token, empty when there is none. -/
def Asks (modes : Modes σ) (argv : List Bytes) (table : Table σ) (token : Bytes) : Prop :=
  ∃ cmd ∈ argv[1]?, IsMode modes cmd table ∧ token = ipcTokenFromArgs (argv.drop 1)

/-- The kernel has a descriptor for it, the path fits its address, and the launcher listens there. -/
def Connects (kernel : Posix.Kernel) (token : Bytes) : Prop :=
  (∃ fd, kernel.socket = .ok fd) ∧ (Posix.socketPath kernel token).length < Posix.sunPathSize ∧
    kernel.connect = .ok ()

/-! ### Connecting -/

theorem close_run {d : Posix.Descriptors} {opened : List Nat} {fd : Nat} (fresh : fd ∉ opened)
    (held : d.opened = opened ++ [fd]) : (Posix.close fd).run d = ((), { d with opened := opened }) := by
  refine Prod.ext rfl ?_
  show { d with opened := d.opened.erase fd } = _
  rw [held, List.erase_append_right _ fresh, List.erase_cons_head, List.append_nil]

/-- The address is the whole path, and without a connection no descriptor is left. -/
theorem connectLocal_spec (kernel : Posix.Kernel) (token : Bytes) (d : Posix.Descriptors)
    (fresh : ∀ fd, kernel.socket = .ok fd → fd ∉ d.opened) :
    (Connects kernel token → ∃ fd, kernel.socket = .ok fd ∧
      (Posix.connectLocal kernel token).run d = (.ok fd, ⟨d.opened ++ [fd],
        d.dialled ++ [(fd, (Posix.socketPath kernel token).takeWhile (· ≠ 0))]⟩)) ∧
    (¬ Connects kernel token →
      ∃ err, (Posix.connectLocal kernel token).run d = (.error err, d)) := by
  unfold Connects Posix.connectLocal
  cases socket : kernel.socket with
  | error reason => exact ⟨fun connects => by simp at connects, fun _ => ⟨_, rfl⟩⟩
  | ok fd =>
    have closed : (Posix.close fd).run ⟨d.opened ++ [fd], d.dialled⟩ = ((), d) :=
      close_run (fresh fd socket) rfl
    have left : (⟨(d.opened ++ [fd]).erase fd, d.dialled⟩ : Posix.Descriptors) = d :=
      (Prod.mk.inj closed).2
    by_cases long : (Posix.socketPath kernel token).length ≥ Posix.sunPathSize
    · simp only [if_pos long]
      exact ⟨fun connects => absurd connects.2.1 (not_lt.mpr long), fun _ => ⟨_, Prod.ext rfl left⟩⟩
    · simp only [if_neg long]
      cases connect : kernel.connect with
      | error reason => exact ⟨fun connects => (nomatch connects.2.2), fun _ => ⟨_, Prod.ext rfl left⟩⟩
      | ok =>
        have whole : (Posix.socketPath kernel token).take (Posix.sunPathSize - 1) =
            Posix.socketPath kernel token := List.take_of_length_le (by omega)
        have address : Posix.sunPath (Posix.socketPath kernel token) =
            (Posix.socketPath kernel token).takeWhile (· ≠ 0) := by rw [Posix.sunPath, whole]
        constructor
        · rw [← address]
          exact fun _ => ⟨fd, rfl, rfl⟩
        · exact fun never => absurd ⟨⟨fd, rfl⟩, not_le.mp long, rfl⟩ never

/-! ### A mode -/

theorem onDescriptors_run {α : Type} {x : StateM Posix.Descriptors α} {w : World σ} {a : α}
    {descriptors : Posix.Descriptors} (ran : x.run w.descriptors = (a, descriptors)) :
    (onDescriptors x).run w = (a, { w with descriptors := descriptors }) := by
  show ((x.run w.descriptors).1, { w with descriptors := (x.run w.descriptors).2 }) = _
  rw [ran]

theorem onSocket_run {α : Type} {x : StateM (Socket σ) α} {w : World σ} {a : α} {socket : Socket σ}
    (ran : x.run w.socket = (a, socket)) :
    (onSocket x).run w = (a, { w with socket := socket }) := by
  show ((x.run w.socket).1, { w with socket := (x.run w.socket).2 }) = _
  rw [ran]

/-- The status of a connection. -/
theorem served (table : Table σ) {socket : Socket σ}
    (enough : (arrived socket.arrivals).length < fuel) :
    ∃ exit socket' code,
      (serve Socket.transport (Socket.handlers table) engineVersion fuel).run socket = (exit, socket') ∧
        status exit = some code ∧
      (Clean engineVersion table socket ∧ code = 0 ∨
        ¬ Clean engineVersion table socket ∧ code = 70) := by
  obtain ⟨exit, socket', ran, ended, clean⟩ := serve_ends engineVersion table enough
  rw [← clean]
  cases exit with
  | serving => exact absurd rfl ended
  | handshakeFailed err => exact ⟨_, socket', 70, ran, rfl, .inr ⟨nofun, rfl⟩⟩
  | ran result =>
    cases result with
    | ok => exact ⟨_, socket', 0, ran, rfl, .inl ⟨rfl, rfl⟩⟩
    | error err => exact ⟨_, socket', 70, ran, rfl, .inr ⟨nofun, rfl⟩⟩

/-- The status of a mode by its token, its connection and what it served. -/
inductive Ends (engineVersion : Bytes) (table : Table σ) (w : World σ) (token : Bytes) :
    Int → Prop where
  | misused (absent : token = []) : Ends engineVersion table w token 64
  | unreachable (given : token ≠ []) (alone : ¬ Connects w.kernel token) :
      Ends engineVersion table w token 69
  | broken (given : token ≠ []) (connects : Connects w.kernel token)
      (unclean : ¬ Clean engineVersion table w.socket) : Ends engineVersion table w token 70
  | served (given : token ≠ []) (connects : Connects w.kernel token)
      (clean : Clean engineVersion table w.socket) : Ends engineVersion table w token 0

/-- The mode returns, with its descriptors as they were and nothing printed. -/
theorem modeMain_ends (table : Table σ) (argv : List Bytes) {w : World σ}
    (fresh : ∀ fd, w.kernel.socket = .ok fd → fd ∉ w.descriptors.opened)
    (enough : (arrived w.socket.arrivals).length < fuel) :
    ∃ code w', (modeMain engineVersion fuel table argv).run w = (some code, w') ∧
      w'.descriptors.opened = w.descriptors.opened ∧ w'.stdout = w.stdout ∧
        Ends engineVersion table w (ipcTokenFromArgs argv) code := by
  have read : (get : StateM (World σ) (World σ)).run w = (w, w) := rfl
  unfold modeMain
  by_cases given : ipcTokenFromArgs argv = []
  · rw [if_pos given]
    exact ⟨64, w, rfl, rfl, rfl, .misused given⟩
  rw [if_neg given, Refinement.run_bind_of read]
  obtain ⟨reaches, misses⟩ := connectLocal_spec w.kernel (ipcTokenFromArgs argv) w.descriptors fresh
  by_cases connects : Connects w.kernel (ipcTokenFromArgs argv)
  · obtain ⟨fd, d, socket, held, ran⟩ : ∃ fd d, w.kernel.socket = .ok fd ∧
        d.opened = w.descriptors.opened ++ [fd] ∧
        (Posix.connectLocal w.kernel (ipcTokenFromArgs argv)).run w.descriptors = (.ok fd, d) := by
      obtain ⟨fd, socket, ran⟩ := reaches connects
      exact ⟨fd, _, socket, rfl, ran⟩
    let connected : World σ := { w with descriptors := d }
    obtain ⟨exit, socket', code, serves, returns, ends⟩ := served table enough
    have serving : (onSocket _).run connected = (exit, { connected with socket := socket' }) :=
      onSocket_run serves
    have closing : (onDescriptors (Posix.close fd)).run { connected with socket := socket' } = ((), _) :=
      onDescriptors_run (close_run (fresh fd socket) held)
    rw [Refinement.run_bind_of (onDescriptors_run ran)]
    dsimp only
    rw [Refinement.run_bind_of serving, returns]
    dsimp only
    rw [Refinement.run_bind_of closing]
    refine ⟨code, _, rfl, rfl, rfl, ?_⟩
    rcases ends with ⟨clean, rfl⟩ | ⟨unclean, rfl⟩
    · exact .served given connects clean
    · exact .broken given connects unclean
  · obtain ⟨err, ran⟩ := misses connects
    rw [Refinement.run_bind_of (onDescriptors_run ran)]
    exact ⟨69, w, rfl, rfl, rfl, .unreachable given connects⟩

/-! ### The process -/

/-- What a status stands for. -/
inductive Exits (engineVersion : Bytes) (modes : Modes σ) (argv : List Bytes) (w : World σ) :
    Int → Prop where
  | version (asked : ∃ cmd ∈ argv[1]?, IsVersion cmd) : Exits engineVersion modes argv w 0
  | help (asked : ∃ cmd ∈ argv[1]?, IsHelp cmd) : Exits engineVersion modes argv w 0
  | mode {table token code} (asked : Asks modes argv table token)
      (ends : Ends engineVersion table w token code) : Exits engineVersion modes argv w code
  | misused (version : ∀ cmd ∈ argv[1]?, ¬ IsVersion cmd) (help : ∀ cmd ∈ argv[1]?, ¬ IsHelp cmd)
      (mode : ∀ table token, ¬ Asks modes argv table token) : Exits engineVersion modes argv w 2

theorem IsMode.unique {modes : Modes σ} {cmd : Bytes} {table table' : Table σ}
    (mode : IsMode modes cmd table) (mode' : IsMode modes cmd table') : table = table' := by
  rcases mode with ⟨rfl, rfl⟩ | ⟨rfl, rfl⟩ <;> rcases mode' with ⟨same, rfl⟩ | ⟨same, rfl⟩
  · rfl
  · exact absurd same (by decide)
  · exact absurd same (by decide)
  · rfl

theorem IsMode.serves {modes : Modes σ} {cmd : Bytes} {table : Table σ} (mode : IsMode modes cmd table) :
    ¬ IsVersion cmd ∧ ¬ IsHelp cmd := by
  unfold IsVersion IsHelp
  rcases mode with ⟨rfl, -⟩ | ⟨rfl, -⟩ <;> decide

theorem Asks.unique {modes : Modes σ} {argv : List Bytes} {table table' : Table σ}
    {token token' : Bytes} (asks : Asks modes argv table token) (asks' : Asks modes argv table' token') :
    table = table' ∧ token = token' := by
  obtain ⟨cmd, there, mode, rfl⟩ := asks
  obtain ⟨cmd', there', mode', rfl⟩ := asks'
  obtain rfl := Option.mem_unique there there'
  exact ⟨mode.unique mode', rfl⟩

theorem Asks.serves {modes : Modes σ} {argv : List Bytes} {table : Table σ} {token : Bytes}
    (asks : Asks modes argv table token) : ∀ cmd ∈ argv[1]?, ¬ IsVersion cmd ∧ ¬ IsHelp cmd := by
  obtain ⟨cmd, there, mode, -⟩ := asks
  intro cmd' there'
  obtain rfl := Option.mem_unique there there'
  exact mode.serves

theorem Ends.unique {table : Table σ} {w : World σ} {token : Bytes} {code code' : Int}
    (ends : Ends engineVersion table w token code) (ends' : Ends engineVersion table w token code') :
    code = code' := by
  cases ends <;> cases ends' <;> first | rfl | contradiction

/-- No two statuses stand for the same. -/
theorem Exits.unique {modes : Modes σ} {argv : List Bytes} {w : World σ} {code code' : Int}
    (exits : Exits engineVersion modes argv w code) (exits' : Exits engineVersion modes argv w code') :
    code = code' := by
  cases exits with
  | version asked =>
    obtain ⟨cmd, there, version⟩ := asked
    cases exits' with
    | version | help => rfl
    | mode asks => exact absurd version (asks.serves cmd there).1
    | misused never => exact absurd version (never cmd there)
  | help asked =>
    obtain ⟨cmd, there, help⟩ := asked
    cases exits' with
    | version | help => rfl
    | mode asks => exact absurd help (asks.serves cmd there).2
    | misused _ never => exact absurd help (never cmd there)
  | mode asks ends =>
    cases exits' with
    | version asked =>
      obtain ⟨cmd, there, version⟩ := asked
      exact absurd version (asks.serves cmd there).1
    | help asked =>
      obtain ⟨cmd, there, help⟩ := asked
      exact absurd help (asks.serves cmd there).2
    | mode asks' ends' =>
      obtain ⟨rfl, rfl⟩ := asks.unique asks'
      exact ends.unique ends'
    | misused _ _ never => exact absurd asks (never _ _)
  | misused notVersion notHelp notMode =>
    cases exits' with
    | version asked =>
      obtain ⟨cmd, there, version⟩ := asked
      exact absurd version (notVersion cmd there)
    | help asked =>
      obtain ⟨cmd, there, help⟩ := asked
      exact absurd help (notHelp cmd there)
    | mode asks => exact absurd asks (notMode _ _)
    | misused => rfl

/-- Whatever the command line, the kernel and the calls of the connection, the process comes to its
end with no descriptor left open and the status of what happened. -/
theorem main_exits (modes : Modes σ) (argv : List Bytes) {w : World σ}
    (fresh : ∀ fd, w.kernel.socket = .ok fd → fd ∉ w.descriptors.opened)
    (enough : (arrived w.socket.arrivals).length < fuel) :
    ∃ code w', (main engineVersion fuel modes argv).run w = (some code, w') ∧
      w'.descriptors.opened = w.descriptors.opened ∧
      ((∀ cmd ∈ argv[1]?, ¬ IsVersion cmd) → w'.stdout = w.stdout) ∧
      ∀ code', Exits engineVersion modes argv w code' ↔ code' = code := by
  suffices ends : ∃ code w', (main engineVersion fuel modes argv).run w = (some code, w') ∧
      w'.descriptors.opened = w.descriptors.opened ∧
      ((∀ cmd ∈ argv[1]?, ¬ IsVersion cmd) → w'.stdout = w.stdout) ∧
      Exits engineVersion modes argv w code by
    obtain ⟨code, w', ran, closed, silent, exits⟩ := ends
    exact ⟨code, w', ran, closed, silent,
      fun code' => ⟨fun exits' => exits'.unique exits, fun same => same ▸ exits⟩⟩
  have noCommand : argv[1]? = none → Exits engineVersion modes argv w 2 := by
    intro absent
    refine .misused ?_ ?_ ?_
    · simp [absent]
    · simp [absent]
    · rintro table token ⟨cmd, there, -⟩
      simp [absent] at there
  match argv with
  | [] => exact ⟨2, w, rfl, rfl, fun _ => rfl, noCommand rfl⟩
  | [prog] => exact ⟨2, w, rfl, rfl, fun _ => rfl, noCommand rfl⟩
  | prog :: cmd :: rest =>
    rw [main]
    by_cases version : cmd = ascii "--version" ∨ cmd = ascii "version"
    · rw [if_pos version]
      exact ⟨0, _, rfl, rfl, fun never => absurd version (never cmd rfl), .version ⟨cmd, rfl, version⟩⟩
    rw [if_neg version]
    by_cases help : cmd = ascii "--help" ∨ cmd = ascii "-h" ∨ cmd = ascii "help"
    · rw [if_pos help]
      exact ⟨0, _, rfl, rfl, fun _ => rfl, .help ⟨cmd, rfl, help⟩⟩
    rw [if_neg help]
    by_cases host : cmd = ascii "host"
    · rw [if_pos host]
      obtain ⟨code, w', ran, closed, silent, ends⟩ :=
        modeMain_ends modes.host (cmd :: rest) fresh enough
      exact ⟨code, w', ran, closed, fun _ => silent, .mode ⟨cmd, rfl, .inl ⟨host, rfl⟩, rfl⟩ ends⟩
    rw [if_neg host]
    by_cases stream : cmd = ascii "stream"
    · rw [if_pos stream]
      obtain ⟨code, w', ran, closed, silent, ends⟩ :=
        modeMain_ends modes.stream (cmd :: rest) fresh enough
      exact ⟨code, w', ran, closed, fun _ => silent, .mode ⟨cmd, rfl, .inr ⟨stream, rfl⟩, rfl⟩ ends⟩
    rw [if_neg stream]
    refine ⟨2, w, rfl, rfl, fun _ => rfl, .misused ?_ ?_ ?_⟩
    · rintro _ ⟨⟩
      exact version
    · rintro _ ⟨⟩
      exact help
    · rintro table token ⟨_, ⟨⟩, ⟨same, -⟩ | ⟨same, -⟩, -⟩
      · exact host same
      · exact stream same

/-- A launcher that greets the engine and asks for a count. -/
def unsentWorld : World Nat where
  kernel := ⟨none, .ok 3, .ok ()⟩
  descriptors := ⟨[0, 1, 2], []⟩
  socket :=
    { arrivals := [.interrupted, .piece (wire [helloFrame, countFrame])
        (by simp [wire, encodeFrame, frameHeader]), .failed]
      acceptances := [.room 4 (by decide), .room 100 (by decide), .failed]
      sent := []
      app := 7 }
  stdout := []

theorem arrived_unsentWorld : arrived unsentWorld.socket.arrivals = wire [helloFrame, countFrame] :=
  List.append_nil _

theorem not_clean_unsentWorld : ¬ Clean (ascii "dev") countingTable unsentWorld.socket := by
  have size : (dump (helloMessage (ascii "dev"))).length = 58 := by decide +kernel
  have greeting : acceptedFrame (dump (helloMessage (ascii "dev"))) unsentWorld.socket.acceptances =
      some [.failed] := by
    rw [acceptedFrame, size]
    rfl
  have input := arrived_unsentWorld
  rw [← List.append_nil (wire _)] at input
  rw [clean_iff stuck_nil input, sends_cons greeting]
  simp only [replies, request_countFrame]
  exact fun clean => not_sends_failed _ _ _ clean.2.2

/-- The connection fails when the answer is sent. -/
theorem main_exits_unsent : ∃ argv : List Bytes,
    argv = [ascii "engine", ascii "stream", ascii "--ipc", ascii "t"] ∧
      ∃ w', (main (ascii "dev") ((wire [helloFrame, countFrame]).length + 1)
          ⟨countingTable, countingTable⟩ argv).run unsentWorld = (some 70, w') ∧
        w'.descriptors.opened = unsentWorld.descriptors.opened ∧
        ((∀ cmd ∈ argv[1]?, ¬ IsVersion cmd) → w'.stdout = unsentWorld.stdout) ∧
        ∀ code', Exits (ascii "dev") ⟨countingTable, countingTable⟩ argv unsentWorld code' ↔
          code' = 70 := by
  have fresh : ∀ fd, unsentWorld.kernel.socket = .ok fd → fd ∉ unsentWorld.descriptors.opened := by
    rintro fd ⟨⟩
    decide
  have enough : (arrived unsentWorld.socket.arrivals).length <
      (wire [helloFrame, countFrame]).length + 1 := by
    rw [arrived_unsentWorld]
    exact Nat.lt_add_one _
  have broken : Exits (ascii "dev") ⟨countingTable, countingTable⟩
      [ascii "engine", ascii "stream", ascii "--ipc", ascii "t"] unsentWorld 70 := by
    refine .mode ⟨ascii "stream", rfl, .inr ⟨rfl, rfl⟩, rfl⟩ (.broken ?_ ?_ not_clean_unsentWorld)
    · decide
    · exact ⟨⟨3, rfl⟩, by decide, rfl⟩
  obtain ⟨code, w', ran, closed, silent, exits⟩ := main_exits ⟨countingTable, countingTable⟩
    [ascii "engine", ascii "stream", ascii "--ipc", ascii "t"] fresh enough
  obtain rfl := (exits 70).mp broken
  exact ⟨_, rfl, w', ran, closed, silent, exits⟩

end Process
end StreamEngine

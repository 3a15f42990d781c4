import StreamEngine.Host.SunshineBackend
import StreamEngine.Library.CommandLine
import StreamEngine.Library.WindowsPath

/-! The command line of the Windows branch. The binary is quoted in it and the other arguments are
not, so they arrive whole just if the catalog's path has no blank. Both branches hand over C strings,
which end at the first zero byte. -/
namespace StreamEngine.Host
open ByteString PosixPath CommandLine

def windowsPaths : PathStyle := ⟨WindowsPath.parent, WindowsPath.join⟩

def commandLine (binary : Path) (args : List Bytes) : Bytes :=
  ascii "\"" ++ binary ++ ascii "\"" ++ args.flatMap fun a => ascii " " ++ a

def cString (s : Bytes) : Bytes := s.takeWhile (· ≠ 0)

/-- The arguments that the child of `CreateProcessA` sees. -/
def windowsArguments (binary appsPath : Path) : List Bytes :=
  split (cString (commandLine binary (buildLaunchArgs windowsPaths appsPath)))

/-- The arguments that the child of `execv` sees. -/
def execvArguments (paths : PathStyle) (binary appsPath : Path) : List Bytes :=
  (launchArgv paths binary appsPath).map cString

theorem commandLine_eq (binary : Path) (args : List Bytes) :
    commandLine binary args = 34 :: (binary ++ 34 :: args.flatMap (32 :: ·)) := by
  have quote : ascii "\"" = [34] := rfl
  have blank : (fun a : Bytes => ascii " " ++ a) = (32 :: ·) := rfl
  rw [commandLine, quote, blank]
  simp

theorem cString_append_of_not_mem {s : Bytes} (whole : 0 ∉ s) (t : Bytes) :
    cString (s ++ t) = s ++ cString t := by
  have nonzero : ∀ c ∈ s, decide (c ≠ 0) = true := by
    intro c member
    rw [decide_eq_true_eq]
    rintro rfl
    exact whole member
  exact List.takeWhile_append_of_pos nonzero

theorem cString_of_not_mem {s : Bytes} (whole : 0 ∉ s) : cString s = s := by
  simpa [cString] using cString_append_of_not_mem whole []

theorem cString_append_of_mem {s : Bytes} (cut : 0 ∈ s) (t : Bytes) :
    cString (s ++ t) = cString s := by
  induction s with
  | nil => cases cut
  | cons c s ih =>
    rw [cString, cString, List.cons_append, List.takeWhile_cons, List.takeWhile_cons]
    split
    · rename_i other
      have later : 0 ∈ s := by
        rcases List.mem_cons.mp cut with rfl | later
        · simp at other
        · exact later
      exact congrArg (c :: ·) (ih later)
    · rfl

theorem cString_subset (s : Bytes) : cString s ⊆ s := (List.takeWhile_prefix _).subset

/-! ### The arguments -/

/-- A path that comes whole and in one piece. -/
def OnePiece (p : Path) : Prop := ∀ c ∈ p, isBlank c = false ∧ c ≠ 0

instance (p : Path) : Decidable (OnePiece p) :=
  inferInstanceAs (Decidable (∀ c ∈ p, isBlank c = false ∧ c ≠ 0))

theorem windowsPaths_subset (p name : Path) :
    ∀ c ∈ windowsPaths.join (windowsPaths.parent p) name, c ∈ p ∨ c = 92 ∨ c ∈ name := by
  intro c member
  exact (WindowsPath.join_subset _ _ c member).imp_left fun inParent =>
    WindowsPath.parent_subset p inParent

/-- What is true of the bytes of the catalog's path, of a backslash and of the fixed parts is true of
the bytes of the arguments. -/
theorem buildLaunchArgs_bytes {P : UInt8 → Prop} {appsPath : Path} (path : ∀ c ∈ appsPath, P c)
    (slash : P 92)
    (fixed : ∀ s ∈ [ascii "file_apps=", ascii "log_path=", ascii "sunshine.log",
      ascii "min_log_level=1", ascii "file_state=", ascii "sunshine_state.json", ascii "cert=",
      ascii "cert.pem", ascii "pkey=", ascii "pkey.pem"], ∀ c ∈ s, P c) :
    ∀ a ∈ buildLaunchArgs windowsPaths appsPath, ∀ c ∈ a, P c := by
  have beside : ∀ name, (∀ c ∈ name, P c) →
      ∀ c ∈ windowsPaths.join (windowsPaths.parent appsPath) name, P c := by
    intro name ok c member
    rcases windowsPaths_subset appsPath name c member with inPath | rfl | inName
    · exact path c inPath
    · exact slash
    · exact ok c inName
  simp only [List.forall_mem_cons] at fixed
  obtain ⟨apps, log, logName, level, state, stateName, cert, certName, pkey, pkeyName, -⟩ := fixed
  unfold buildLaunchArgs
  split
  · simp
  · rename_i there
    simp only [besideApps, if_neg there, List.forall_mem_cons, List.forall_mem_append]
    exact ⟨⟨apps, path⟩, ⟨log, beside _ logName⟩, level, ⟨state, beside _ stateName⟩,
      ⟨cert, beside _ certName⟩, ⟨pkey, beside _ pkeyName⟩, by simp⟩

theorem buildLaunchArgs_unquoted {appsPath : Path} (unquoted : 34 ∉ appsPath) :
    34 ∉ (buildLaunchArgs windowsPaths appsPath).flatMap (32 :: ·) := by
  have bytes : ∀ a ∈ buildLaunchArgs windowsPaths appsPath, ∀ c ∈ a, c ≠ 34 :=
    buildLaunchArgs_bytes (fun c member same => unquoted (same ▸ member)) (by decide) (by decide)
  intro quote
  obtain ⟨a, member, here⟩ := List.mem_flatMap.mp quote
  rcases List.mem_cons.mp here with blank | inArgument
  · cases blank
  · exact bytes a member 34 inArgument rfl

theorem buildLaunchArgs_nonempty (paths : PathStyle) (appsPath : Path) :
    ∀ a ∈ buildLaunchArgs paths appsPath, a ≠ [] := by
  unfold buildLaunchArgs
  split
  · simp
  · simp +decide

/-- The arguments arrive as they are when the catalog's path is in one piece. -/
theorem windowsArguments_onePiece {binary appsPath : Path} (unquoted : 34 ∉ binary ∧ 34 ∉ appsPath)
    (whole : 0 ∉ binary) (onePiece : OnePiece appsPath) :
    windowsArguments binary appsPath = execvArguments windowsPaths binary appsPath := by
  have bytes : ∀ a ∈ buildLaunchArgs windowsPaths appsPath, ∀ c ∈ a,
      (isBlank c = false ∧ c ≠ 34) ∧ c ≠ 0 :=
    buildLaunchArgs_bytes (fun c member => ⟨⟨(onePiece c member).1, fun same =>
      unquoted.2 (same ▸ member)⟩, (onePiece c member).2⟩) (by decide) (by decide)
  have plain : ∀ a ∈ buildLaunchArgs windowsPaths appsPath, a ≠ [] ∧ Plain a :=
    fun a member => ⟨buildLaunchArgs_nonempty _ _ a member, fun c inside => (bytes a member c inside).1⟩
  have nonzero : ∀ a ∈ launchArgv windowsPaths binary appsPath, 0 ∉ a := by
    intro a member
    rcases List.mem_cons.mp member with rfl | argument
    · exact whole
    · exact fun zero => (bytes a argument 0 zero).2 rfl
  have line : 0 ∉ commandLine binary (buildLaunchArgs windowsPaths appsPath) := by
    rw [commandLine_eq]
    simp only [List.mem_cons, List.mem_append, List.mem_flatMap, not_or, not_exists, not_and]
    exact ⟨by decide, whole, by decide, fun a member =>
      ⟨by decide, nonzero a (List.mem_cons_of_mem _ member)⟩⟩
  rw [windowsArguments, cString_of_not_mem line, commandLine_eq, split_plain unquoted.1 plain,
    execvArguments, List.map_congr_left fun a member => cString_of_not_mem (nonzero a member),
    List.map_id']
  rfl

theorem buildLaunchArgs_cons (paths : PathStyle) {appsPath : Path} (there : appsPath ≠ []) :
    ∃ more, more.length = 5 ∧
      buildLaunchArgs paths appsPath = (ascii "file_apps=" ++ appsPath) :: more := by
  rw [buildLaunchArgs, if_neg there]
  exact ⟨_, rfl, rfl⟩

/-- A zero byte in the binary's path cuts the line there. -/
theorem windowsArguments_cut {binary : Path} (appsPath : Path) (unquoted : 34 ∉ binary)
    (cut : 0 ∈ binary) : windowsArguments binary appsPath = [cString binary] := by
  have name : cString (34 :: binary) = 34 :: cString binary := rfl
  have kept : 34 ∉ cString binary := fun quote => unquoted (cString_subset binary quote)
  rw [windowsArguments, commandLine_eq, ← List.cons_append,
    cString_append_of_mem (List.mem_cons_of_mem _ cut), name, split, programName_open kept]
  rfl

theorem windowsArguments_whole {binary appsPath : Path} (unquoted : 34 ∉ binary)
    (whole : 0 ∉ binary) (there : appsPath ≠ []) : windowsArguments binary appsPath = binary ::
      arguments (cString ((buildLaunchArgs windowsPaths appsPath).flatMap (32 :: ·))).length
        (cString ((buildLaunchArgs windowsPaths appsPath).flatMap (32 :: ·))) := by
  have ends : Ends (cString ((buildLaunchArgs windowsPaths appsPath).flatMap (32 :: ·))) := by
    obtain ⟨more, -, args⟩ := buildLaunchArgs_cons windowsPaths there
    rw [args]
    exact ends_cons rfl _
  have quoted : 0 ∉ 34 :: (binary ++ [34]) := by simp [whole]
  have line : cString (commandLine binary (buildLaunchArgs windowsPaths appsPath)) = 34 :: (binary ++
      34 :: cString ((buildLaunchArgs windowsPaths appsPath).flatMap (32 :: ·))) := by
    rw [commandLine_eq]
    simpa using cString_append_of_not_mem quoted
      ((buildLaunchArgs windowsPaths appsPath).flatMap (32 :: ·))
  rw [windowsArguments, line, split_quoted unquoted ends]

/-- What arrives as it is was in one piece. -/
theorem onePiece_of_windowsArguments {binary appsPath : Path}
    (unquoted : 34 ∉ binary ∧ 34 ∉ appsPath) (there : appsPath ≠ [])
    (same : windowsArguments binary appsPath = execvArguments windowsPaths binary appsPath) :
    0 ∉ binary ∧ OnePiece appsPath := by
  obtain ⟨more, five, args⟩ := buildLaunchArgs_cons windowsPaths there
  have whole : 0 ∉ binary := by
    intro cut
    rw [windowsArguments_cut appsPath unquoted.1 cut, execvArguments, launchArgv, args] at same
    simpa using congrArg List.length same
  refine ⟨whole, ?_⟩
  have tail := buildLaunchArgs_unquoted unquoted.2
  have key : 0 ∉ ascii "file_apps=" := by decide
  rw [windowsArguments_whole unquoted.1 whole there, execvArguments, launchArgv, List.map_cons,
    cString_of_not_mem whole, args, List.map_cons, cString_append_of_not_mem key] at same
  rw [args] at tail
  have rest := (List.cons.inj same).2
  -- the first argument is in one piece, as every argument without quotes is
  have piece : ∀ c ∈ cString appsPath, isBlank c = false := by
    have pieces := arguments_unquoted (fun quote => tail (cString_subset _ quote))
      (cString (((ascii "file_apps=" ++ appsPath) :: more).flatMap (32 :: ·))).length
    rw [rest] at pieces
    exact fun c member => pieces _ List.mem_cons_self c (List.mem_append_right _ member)
  have uncut : 0 ∉ appsPath := by
    intro cut
    -- otherwise it is the last one
    have plain : ∀ a ∈ [ascii "file_apps=" ++ cString appsPath], a ≠ [] ∧ Plain a := by
      intro a member
      obtain rfl := List.mem_singleton.mp member
      refine ⟨by simp [ascii], List.forall_mem_append.mpr ⟨by decide, fun c inside => ?_⟩⟩
      exact ⟨piece c inside, fun same => unquoted.2 (same ▸ cString_subset appsPath inside)⟩
    have line : cString (((ascii "file_apps=" ++ appsPath) :: more).flatMap (32 :: ·)) =
        [ascii "file_apps=" ++ cString appsPath].flatMap (32 :: ·) := by
      have first : cString (32 :: (ascii "file_apps=" ++ appsPath)) =
          32 :: (ascii "file_apps=" ++ cString appsPath) :=
        congrArg (32 :: ·) (cString_append_of_not_mem key appsPath)
      rw [List.flatMap_cons, cString_append_of_mem (by simp [cut]), first]
      simp
    rw [line, arguments_plain plain (by simp)] at rest
    simpa [five] using congrArg List.length rest
  rw [cString_of_not_mem uncut] at piece
  exact fun c member => ⟨piece c member, fun zero => uncut (zero ▸ member)⟩

/-- The child of the Windows branch sees the arguments of the POSIX branch exactly when there is no
catalog, or neither path holds a zero byte and the catalog's path no blank. -/
theorem windowsArguments_iff (binary appsPath : Path) (unquoted : 34 ∉ binary ∧ 34 ∉ appsPath) :
    windowsArguments binary appsPath = execvArguments windowsPaths binary appsPath ↔
      appsPath = [] ∨ 0 ∉ binary ∧ OnePiece appsPath := by
  constructor
  · intro same
    by_cases there : appsPath = []
    · exact Or.inl there
    · exact Or.inr (onePiece_of_windowsArguments unquoted there same)
  · rintro (rfl | ⟨whole, onePiece⟩)
    · by_cases cut : 0 ∈ binary
      · exact windowsArguments_cut [] unquoted.1 cut
      · exact windowsArguments_onePiece unquoted cut (by simp [OnePiece])
    · exact windowsArguments_onePiece unquoted whole onePiece

theorem windowsArguments_iff_public :
    windowsArguments (ascii "C:\\ase dir\\sunshine.exe") (ascii "C:\\data\\apps.json") =
      execvArguments windowsPaths (ascii "C:\\ase dir\\sunshine.exe")
        (ascii "C:\\data\\apps.json") :=
  (windowsArguments_iff _ _ (by decide)).mpr (Or.inr (by decide))

/-- A user's directory with a blank in it. -/
theorem windowsArguments_split :
    windowsArguments (ascii "C:\\ase\\sunshine.exe") (ascii "C:\\John Doe\\apps.json") ≠
      execvArguments windowsPaths (ascii "C:\\ase\\sunshine.exe")
        (ascii "C:\\John Doe\\apps.json") ∧
    (windowsArguments (ascii "C:\\ase\\sunshine.exe")
      (ascii "C:\\John Doe\\apps.json"))[1]? = some (ascii "file_apps=C:\\John") := by
  decide +kernel

end StreamEngine.Host

import StreamEngine.Library.ByteString

/-! The command line of a Windows process as the process splits it. The name of the program is
quoted without escapes; in the other arguments a backslash counts only in front of a double quote. An
argument without quotes is read as it is, up to the next blank. -/
namespace CommandLine
open ByteString

def isBlank (c : UInt8) : Bool := c == 32 || c == 9

/-- The name of the program, and what follows it. -/
def programName (quoted : Bool) : Bytes → Bytes × Bytes
  | [] => ([], [])
  | c :: s =>
    if c = 34 then programName (!quoted) s
    else if quoted || !isBlank c then (c :: (programName quoted s).1, (programName quoted s).2)
    else ([], c :: s)

/-- One argument, after so many backslashes, and what follows it. -/
def argument (quoted : Bool) (slashes : Nat) : Bytes → Bytes × Bytes
  | [] => (List.replicate slashes 92, [])
  | c :: s =>
    if c = 92 then argument quoted (slashes + 1) s
    else if c = 34 then
      -- each two of the backslashes stand for one, and a last one for a quote that is kept
      if slashes % 2 = 1 then
        (List.replicate (slashes / 2) 92 ++ 34 :: (argument quoted 0 s).1, (argument quoted 0 s).2)
      else
        (List.replicate (slashes / 2) 92 ++ (argument (!quoted) 0 s).1, (argument (!quoted) 0 s).2)
    else if quoted || !isBlank c then
      (List.replicate slashes 92 ++ c :: (argument quoted 0 s).1, (argument quoted 0 s).2)
    else (List.replicate slashes 92, c :: s)

/-- The arguments after the name, at most `fuel` of them. -/
def arguments : Nat → Bytes → List Bytes
  | 0, _ => []
  | fuel + 1, s =>
    match s.dropWhile isBlank with
    | [] => []
    | c :: t => (argument false 0 (c :: t)).1 :: arguments fuel (argument false 0 (c :: t)).2

/-- Every argument takes a byte, so there are no more of them than bytes. -/
def split (s : Bytes) : List Bytes :=
  (programName false s).1 :: arguments (programName false s).2.length (programName false s).2

example : split (ascii "\"a b\" c\\d  e\"f g\"") = [ascii "a b", ascii "c\\d", ascii "ef g"] := by
  decide

/-- Neither a blank nor a quote. -/
def Plain (s : Bytes) : Prop := ∀ c ∈ s, isBlank c = false ∧ c ≠ 34

/-- A text that ends an argument. -/
def Ends (s : Bytes) : Prop := ∀ c ∈ s.head?, isBlank c = true

theorem ends_cons {c : UInt8} (blank : isBlank c = true) (s : Bytes) : Ends (c :: s) := by
  simpa [Ends] using blank

theorem not_quote_of_isBlank {c : UInt8} (blank : isBlank c = true) : c ≠ 34 := by
  rintro rfl
  cases blank

theorem not_slash_of_isBlank {c : UInt8} (blank : isBlank c = true) : c ≠ 92 := by
  rintro rfl
  cases blank

/-- What follows the name of the program. -/
theorem programName_ends {rest : Bytes} (ends : Ends rest) : programName false rest = ([], rest) := by
  cases rest with
  | nil => rfl
  | cons c rest =>
    have blank : isBlank c = true := ends c rfl
    rw [programName, if_neg (not_quote_of_isBlank blank), if_neg (by simp [blank])]

theorem programName_inside {s : Bytes} (unquoted : 34 ∉ s) {rest : Bytes} (ends : Ends rest) :
    programName true (s ++ 34 :: rest) = (s, rest) := by
  induction s with
  | nil =>
    rw [List.nil_append, programName, if_pos rfl]
    exact programName_ends ends
  | cons c s ih =>
    obtain ⟨other, unquoted⟩ := List.ne_and_not_mem_of_not_mem_cons unquoted
    rw [List.cons_append, programName, if_neg (Ne.symm other), ih unquoted]
    rfl

theorem programName_quoted {s : Bytes} (unquoted : 34 ∉ s) {rest : Bytes} (ends : Ends rest) :
    programName false (34 :: (s ++ 34 :: rest)) = (s, rest) := by
  rw [programName, if_pos rfl]
  exact programName_inside unquoted ends

/-- A quote that is never closed. -/
theorem programName_open {s : Bytes} (unquoted : 34 ∉ s) :
    programName false (34 :: s) = (s, []) := by
  rw [programName, if_pos rfl]
  induction s with
  | nil => rfl
  | cons c s ih =>
    obtain ⟨other, unquoted⟩ := List.ne_and_not_mem_of_not_mem_cons unquoted
    rw [Bool.not_false, programName, if_neg (Ne.symm other), ← Bool.not_false, ih unquoted]
    rfl

/-- A plain text is read as it is; its backslashes are kept back until the next byte. -/
theorem argument_plain {a : Bytes} (plain : Plain a) {rest : Bytes} (ends : Ends rest)
    (slashes : Nat) : argument false slashes (a ++ rest) = (List.replicate slashes 92 ++ a, rest) := by
  induction a generalizing slashes with
  | nil =>
    rw [List.nil_append, List.append_nil]
    cases rest with
    | nil => rfl
    | cons c rest =>
      have blank : isBlank c = true := ends c rfl
      rw [argument, if_neg (not_slash_of_isBlank blank), if_neg (not_quote_of_isBlank blank),
        if_neg (by simp [blank])]
  | cons c a ih =>
    obtain ⟨⟨notBlank, unquoted⟩, later⟩ := List.forall_mem_cons.mp plain
    rw [List.cons_append, argument]
    by_cases slash : c = 92
    · subst slash
      rw [if_pos rfl, ih later, List.replicate_succ', List.append_assoc, List.singleton_append]
    · rw [if_neg slash, if_neg unquoted, if_pos (by simp [notBlank]), ih later]
      rfl

/-- Without quotes no argument holds a blank. -/
theorem argument_unquoted {s : Bytes} (unquoted : 34 ∉ s) (slashes : Nat) :
    ∀ c ∈ (argument false slashes s).1, isBlank c = false := by
  induction s generalizing slashes with
  | nil =>
    intro c member
    rw [List.eq_of_mem_replicate member]
    rfl
  | cons c s ih =>
    obtain ⟨other, unquoted⟩ := List.ne_and_not_mem_of_not_mem_cons unquoted
    have slash : ∀ d ∈ List.replicate slashes (92 : UInt8), isBlank d = false := by
      intro d member
      rw [List.eq_of_mem_replicate member]
      rfl
    rw [argument]
    split
    · exact ih unquoted _
    · rw [if_neg (Ne.symm other)]
      split
      · rename_i notBlank
        intro d member
        rcases List.mem_append.mp member with before | after
        · exact slash d before
        · rcases List.mem_cons.mp after with rfl | later
          · simpa using notBlank
          · exact ih unquoted 0 d later
      · exact slash

theorem argument_rest_suffix (quoted : Bool) (slashes : Nat) (s : Bytes) :
    (argument quoted slashes s).2 <:+ s := by
  induction s generalizing quoted slashes with
  | nil => exact List.suffix_rfl
  | cons c s ih =>
    rw [argument]
    split
    · exact (ih ..).trans (List.suffix_cons ..)
    · split
      · split <;> exact (ih ..).trans (List.suffix_cons ..)
      · split
        · exact (ih ..).trans (List.suffix_cons ..)
        · exact List.suffix_rfl

theorem arguments_unquoted {s : Bytes} (unquoted : 34 ∉ s) (fuel : Nat) :
    ∀ a ∈ arguments fuel s, ∀ c ∈ a, isBlank c = false := by
  induction fuel generalizing s with
  | zero => simp [arguments]
  | succ fuel ih =>
    rw [arguments]
    split
    · simp
    · rename_i c t dropped
      have kept : 34 ∉ c :: t := by
        rw [← dropped]
        exact fun member => unquoted ((List.dropWhile_suffix _).mem member)
      intro a member
      rcases List.mem_cons.mp member with rfl | later
      · exact argument_unquoted kept 0
      · exact ih (fun quote => kept ((argument_rest_suffix ..).mem quote)) a later

/-- Plain arguments, each after a blank. -/
theorem arguments_plain {args : List Bytes} (plain : ∀ a ∈ args, a ≠ [] ∧ Plain a) {fuel : Nat}
    (enough : args.length ≤ fuel) : arguments fuel (args.flatMap (32 :: ·)) = args := by
  induction args generalizing fuel with
  | nil => cases fuel <;> rfl
  | cons a args ih =>
    obtain ⟨⟨nonempty, here⟩, later⟩ := List.forall_mem_cons.mp plain
    obtain ⟨c, t, rfl⟩ := List.exists_cons_of_ne_nil nonempty
    cases fuel with
    | zero => simp at enough
    | succ fuel =>
      have ends : Ends (args.flatMap (32 :: ·)) := by
        cases args with
        | nil => simp [Ends]
        | cons b args => exact ends_cons rfl _
      have first : isBlank c = false := (here c List.mem_cons_self).1
      have dropped : (((c :: t) :: args).flatMap (32 :: ·)).dropWhile isBlank =
          c :: (t ++ args.flatMap (32 :: ·)) := by
        rw [List.flatMap_cons, List.cons_append, List.dropWhile_cons_of_pos rfl, List.cons_append,
          List.dropWhile_cons_of_neg (by simp [first])]
      have read := argument_plain here ends 0
      rw [List.replicate_zero, List.nil_append, List.cons_append] at read
      rw [arguments, dropped]
      simp only [read]
      rw [ih later (by simpa using enough)]

/-- A quoted name, and what comes after it. -/
theorem split_quoted {name : Bytes} (unquoted : 34 ∉ name) {rest : Bytes} (ends : Ends rest) :
    split (34 :: (name ++ 34 :: rest)) = name :: arguments rest.length rest := by
  rw [split, programName_quoted unquoted ends]

theorem split_plain {name : Bytes} (unquoted : 34 ∉ name) {args : List Bytes}
    (plain : ∀ a ∈ args, a ≠ [] ∧ Plain a) :
    split (34 :: (name ++ 34 :: args.flatMap (32 :: ·))) = name :: args := by
  have ends : Ends (args.flatMap (32 :: ·)) := by
    cases args with
    | nil => simp [Ends]
    | cons b args => exact ends_cons rfl _
  have enough : args.length ≤ (args.flatMap (32 :: ·)).length := by
    clear plain ends
    induction args with
    | nil => exact Nat.le_refl _
    | cons a args ih =>
      rw [List.flatMap_cons, List.length_append, List.length_cons, List.length_cons]
      omega
  rw [split_quoted unquoted ends, arguments_plain plain enough]

end CommandLine

import StreamEngine.Library.Occurrence

/-! A text made of lines that all end alike, closed by an empty line. The first byte of the ending
does not come again in it, so an ending is found only where one was put. -/
namespace ByteString

variable {first : UInt8} {more line pre rest : Bytes} {lines : List Bytes}

/-- The lines, each with its ending. -/
def ended (ending : Bytes) (lines : List Bytes) : Bytes := lines.flatMap fun line => line ++ ending

theorem ended_cons (ending line : Bytes) (lines : List Bytes) :
    ended ending (line :: lines) = line ++ (ending ++ ended ending lines) := by
  rw [ended, List.flatMap_cons, List.append_assoc]
  rfl

/-- The end of a line is its own. -/
theorem line_absent (fresh : first ∉ more) (isLine : ¬ first :: more <:+: line) (rest : Bytes) :
    ∀ j < line.length, ¬ first :: more <+: (line ++ (first :: more ++ rest)).drop j := by
  intro j before occurs
  have nonempty : line.drop j ≠ [] := by
    rw [Ne, List.drop_eq_nil_iff]
    omega
  obtain ⟨c, v, shape⟩ := List.exists_cons_of_ne_nil nonempty
  rw [List.drop_append_of_le_length before.le, shape] at occurs
  obtain ⟨rfl, w, split⟩ := List.cons_prefix_cons.mp occurs
  have inside : ¬ more <+: v := by
    intro here
    have start : first :: more <+: line.drop j := shape ▸ List.cons_prefix_cons.mpr ⟨rfl, here⟩
    exact isLine (start.isInfix.trans (List.drop_suffix j line).isInfix)
  -- An ending that leaves the line would hold the first byte of the next one.
  rcases List.append_eq_append_iff.mp split with ⟨x, rfl, -⟩ | ⟨x, rfl, next⟩
  · exact inside (List.prefix_append _ _)
  · cases x with
    | nil =>
      rw [List.append_nil] at inside
      exact inside List.prefix_rfl
    | cons d x =>
      have same := (List.cons.inj next).1
      exact fresh (List.mem_append_right v (same ▸ List.mem_cons_self))

/-- Nothing is found before the ending of a line, nor inside it. -/
theorem find_next_line (fresh : first ∉ more) (isLine : ¬ first :: more <:+: line)
    (next : ¬ first :: more <+: rest) :
    find (pre ++ (line ++ (first :: more ++ rest))) (first :: more ++ first :: more) pre.length =
      find (pre ++ (line ++ (first :: more)) ++ rest) (first :: more ++ first :: more)
        (pre ++ (line ++ (first :: more))).length := by
  have early : ∀ {s : Bytes}, first :: more ++ first :: more <+: s → first :: more <+: s :=
    fun occurs => (List.prefix_append _ _).trans occurs
  have absent : ∀ j < (line ++ (first :: more)).length,
      ¬ first :: more ++ first :: more <+: (line ++ (first :: more) ++ rest).drop j := by
    intro j before occurs
    rw [List.append_assoc] at occurs
    rcases Nat.lt_or_ge j line.length with inside | after
    · exact line_absent fresh isLine rest j inside (early occurs)
    obtain ⟨k, rfl⟩ := Nat.exists_eq_add_of_le after
    rw [List.drop_length_add_append] at occurs
    cases k with
    | zero =>
      rw [List.drop_zero, List.prefix_append_right_inj] at occurs
      exact next occurs
    | succ k =>
      have short : k < more.length := by
        rw [List.length_append, List.length_cons] at before
        omega
      obtain ⟨d, v, shape⟩ :=
        List.exists_cons_of_ne_nil (mt List.drop_eq_nil_iff.mp (Nat.not_le.mpr short))
      simp only [List.cons_append, List.drop_succ_cons] at occurs
      rw [List.drop_append_of_le_length short.le, shape] at occurs
      have same := (List.cons_prefix_cons.mp occurs).1
      exact fresh (List.mem_of_mem_drop (same ▸ shape ▸ List.mem_cons_self))
  have shape : pre ++ (line ++ (first :: more ++ rest)) =
      pre ++ (line ++ (first :: more)) ++ rest := by simp
  rw [shape, find_pass absent, ← List.length_append]

/-- The first empty line is the one that closes the text. -/
theorem find_closing (fresh : first ∉ more) (some_ : lines ≠ [])
    (areLines : ∀ line ∈ lines, line ≠ [] ∧ ¬ first :: more <:+: line) :
    find (pre ++ (ended (first :: more) lines ++ (first :: more ++ rest)))
      (first :: more ++ first :: more) pre.length =
      some (pre.length + (ended (first :: more) lines).length - (first :: more).length) := by
  induction lines generalizing pre with
  | nil => exact absurd rfl some_
  | cons line lines ih =>
    obtain ⟨-, isLine⟩ := areLines line List.mem_cons_self
    rw [ended_cons, List.append_assoc, List.append_assoc]
    cases lines with
    | nil =>
      have blank : first :: more ++ first :: more <+:
          first :: more ++ (ended (first :: more) [] ++ (first :: more ++ rest)) :=
        ⟨rest, by simp [ended]⟩
      rw [← List.append_assoc pre line, find_pass fun j before occurs =>
        line_absent fresh isLine _ j before ((List.prefix_append _ _).trans occurs),
        ← List.length_append, find_here blank]
      simp only [ended, List.flatMap_nil, List.append_nil, List.length_append, Option.some.injEq]
      omega
    | cons next lines =>
      obtain ⟨nonempty, isNext⟩ := areLines next (by simp)
      have elsewhere : ¬ first :: more <+:
          ended (first :: more) (next :: lines) ++ (first :: more ++ rest) := by
        rw [ended_cons, List.append_assoc, List.append_assoc]
        exact line_absent fresh isNext _ 0 (List.length_pos_iff.mpr nonempty)
      rw [find_next_line fresh isLine elsewhere, ih (by simp) fun line member =>
        areLines line (List.mem_cons_of_mem _ member)]
      simp only [List.length_append, Nat.add_assoc]

end ByteString

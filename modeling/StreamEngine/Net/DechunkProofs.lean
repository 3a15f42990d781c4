import StreamEngine.Net.Http

/-! Termination and content of chunk decoding. A chunk length whose end passes `2^64`
wraps below the size of the body, passes the bounds check and moves the position
backwards. Without such a length every iteration appends the announced range and
advances, and this is an equivalence. -/
namespace StreamEngine.Net
open ByteString

/-- A concatenation of disjoint ranges of the body, in the order of the body. -/
def Pieces (body : Bytes) (out : Bytes) : Prop :=
  ∃ pieces : List (Nat × Nat), out = pieces.flatMap (fun piece => substr body piece.1 piece.2) ∧
    (∀ piece ∈ pieces, piece.1 + piece.2 ≤ body.length) ∧
    pieces.Pairwise fun p q => p.1 + p.2 ≤ q.1

/-- Every iteration of the loop advances and appends a whole range of the body, the
loop is left, and the result is made of disjoint ranges. -/
def Decodes (body : Bytes) : Prop :=
  (∀ i out chunk, Loop.Heads (dechunkStep body) (0, []) (i, out) →
    nextChunk body i = some chunk → i < afterChunk chunk ∧ chunk.1 + chunk.2 ≤ body.length) ∧
  ∃ out, dechunk body = some out ∧ Pieces body out ∧ out.length ≤ body.length

/-- Positions of the chunk lines when the body is read with unbounded positions. -/
inductive ChunkLine (body : Bytes) : Nat → Prop where
  | first : ChunkLine body 0
  | next {i start len} (line : ChunkLine body i) (chunk : chunkAt body i = some (start, len))
      (fits : start + len ≤ body.length) : ChunkLine body (start + len + 2)

/-- No chunk line announces data that end at or past `2^64`. -/
def NoWrap (body : Bytes) : Prop :=
  ∀ i start len, ChunkLine body i → chunkAt body i = some (start, len) → start + len < 2 ^ 64

theorem sizeT_of_lt {n : Nat} (small : n < 2 ^ 64) : sizeT n = n := Nat.mod_eq_of_lt small

theorem chunkSize_lt {len : Nat} (small : len < 2 ^ 64) (line : Bytes) :
    chunkSize len line < 2 ^ 64 := by
  induction line generalizing len with
  | nil => exact small
  | cons c line ih =>
    simp only [chunkSize]
    cases hexVal c with
    | none => exact small
    | some v => exact ih (Nat.mod_lt _ (by decide))

section Body
variable {body : Bytes} (representable : body.length < 2 ^ 63)
include representable

theorem chunkAt_bounds {i start len : Nat} (chunk : chunkAt body i = some (start, len)) :
    i < body.length ∧ i + 2 ≤ start ∧ start ≤ body.length ∧ len < 2 ^ 64 := by
  unfold chunkAt at chunk
  split at chunk
  · rename_i inside
    cases found : find body crlf i with
    | none => simp [found] at chunk
    | some eol =>
      have bound := find_bound found
      have two : crlf.length = 2 := rfl
      rw [two] at bound
      simp only [found] at chunk
      split at chunk
      · contradiction
      · simp only [Option.some.injEq, Prod.mk.injEq] at chunk
        obtain ⟨rfl, rfl⟩ := chunk
        rw [sizeT_of_lt (by omega)]
        exact ⟨inside, by omega, by omega, chunkSize_lt (by decide) _⟩
  · contradiction

theorem nextChunk_of_fits {i start len : Nat} (chunk : chunkAt body i = some (start, len))
    (fits : start + len ≤ body.length) :
    nextChunk body i = some (start, len) ∧ afterChunk (start, len) = start + len + 2 := by
  constructor
  · have sum : sizeT (start + len) = start + len := sizeT_of_lt (by omega)
    simp only [nextChunk, chunk, sum]
    rw [if_neg (by omega)]
  · exact sizeT_of_lt (by omega)

omit representable in
/-- A range that passes the bounds check lies in the body or wraps. -/
theorem nextChunk_cases {i start len : Nat} (next : nextChunk body i = some (start, len)) :
    chunkAt body i = some (start, len) ∧ (start + len ≤ body.length ∨ 2 ^ 64 ≤ start + len) := by
  cases chunk : chunkAt body i with
  | none => simp [nextChunk, chunk] at next
  | some found =>
    obtain ⟨start', len'⟩ := found
    simp only [nextChunk, chunk] at next
    split at next
    · contradiction
    · rename_i fits
      simp only [Option.some.injEq, Prod.mk.injEq] at next
      obtain ⟨rfl, rfl⟩ := next
      refine ⟨rfl, ?_⟩
      by_cases wraps : start' + len' < 2 ^ 64
      · rw [sizeT_of_lt wraps] at fits
        exact Or.inl (by omega)
      · exact Or.inr (by omega)

theorem nextChunk_of_wrap {i start len : Nat} (chunk : chunkAt body i = some (start, len))
    (wraps : 2 ^ 64 ≤ start + len) : nextChunk body i = some (start, len) := by
  obtain ⟨-, -, bound, small⟩ := chunkAt_bounds representable chunk
  have below : ¬ body.length < sizeT (start + len) := by
    simp only [sizeT]
    omega
  simp only [nextChunk, chunk, if_neg below]

/-- The loop reaches every chunk line. -/
theorem ChunkLine.heads {i : Nat} (line : ChunkLine body i) :
    ∃ out, Loop.Heads (dechunkStep body) (0, []) (i, out) := by
  induction line with
  | first => exact ⟨[], .start⟩
  | @next i start len _ chunk fits ih =>
    obtain ⟨out, heads⟩ := ih
    obtain ⟨next, after⟩ := nextChunk_of_fits representable chunk fits
    refine ⟨out ++ substr body start len, .next heads ?_⟩
    simp only [dechunkStep, next, after]

/-- What holds at the head of the loop: the position is a chunk line, and the output is
made of disjoint ranges before it. -/
structure Consistent (body : Bytes) (state : Nat × Bytes) : Prop where
  line : ChunkLine body state.1
  short : state.2.length ≤ state.1 ∧ state.2.length ≤ body.length
  pieces : ∃ pieces : List (Nat × Nat),
    state.2 = pieces.flatMap (fun piece => substr body piece.1 piece.2) ∧
    (∀ piece ∈ pieces, piece.1 + piece.2 ≤ body.length ∧ piece.1 + piece.2 ≤ state.1) ∧
    pieces.Pairwise fun p q => p.1 + p.2 ≤ q.1

omit representable in
theorem consistent_start : Consistent body (0, []) :=
  ⟨.first, ⟨Nat.le_refl _, Nat.zero_le _⟩, [], rfl, by simp, .nil⟩

theorem Consistent.next {i : Nat} {out : Bytes} {start len : Nat}
    (consistent : Consistent body (i, out)) (chunk : chunkAt body i = some (start, len))
    (fits : start + len ≤ body.length) :
    Consistent body (start + len + 2, out ++ substr body start len) := by
  obtain ⟨line, ⟨short, -⟩, pieces, content, ranges, ordered⟩ := consistent
  obtain ⟨-, above, -, -⟩ := chunkAt_bounds representable chunk
  have width : (substr body start len).length ≤ len := List.length_take_le _ _
  simp only at short ranges
  refine ⟨.next line chunk fits, ?_, pieces ++ [(start, len)], ?_, ?_, ?_⟩
  · simp only [List.length_append]
    omega
  · simpa using content
  · intro piece member
    rcases List.mem_append.mp member with earlier | last
    · have range := ranges piece earlier
      exact ⟨range.1, by simp only; omega⟩
    · obtain rfl := List.mem_singleton.mp last
      exact ⟨fits, by simp only; omega⟩
  · refine List.pairwise_append.mpr ⟨ordered, List.pairwise_singleton _ _, ?_⟩
    intro piece earlier last member
    obtain rfl := List.mem_singleton.mp member
    have range := ranges piece earlier
    simp only
    omega

/-- One iteration without wrapping. -/
theorem dechunkStep_continue (noWrap : NoWrap body) {s s' : Nat × Bytes}
    (consistent : Consistent body s) (continues : dechunkStep body s = .inl s') :
    Consistent body s' ∧ s.1 < s'.1 ∧ s.1 < body.length := by
  obtain ⟨i, out⟩ := s
  cases next : nextChunk body i with
  | none => simp [dechunkStep, next] at continues
  | some found =>
    obtain ⟨start, len⟩ := found
    obtain ⟨chunk, fits | wraps⟩ := nextChunk_cases next
    · obtain ⟨inside, above, -, -⟩ := chunkAt_bounds representable chunk
      have after := (nextChunk_of_fits representable chunk fits).2
      simp only [dechunkStep, next, after, Sum.inl.injEq] at continues
      subst continues
      exact ⟨consistent.next representable chunk fits, by simp only; omega, inside⟩
    · exact absurd (noWrap i start len consistent.line chunk) (by omega)

theorem decodes_of_noWrap (noWrap : NoWrap body) : Decodes body := by
  constructor
  · intro i out chunk heads next
    have consistent : Consistent body (i, out) :=
      heads.invariant (Consistent body) consistent_start fun _ _ held continues =>
        (dechunkStep_continue representable noWrap held continues).1
    have continues : dechunkStep body (i, out) =
        .inl (afterChunk chunk, out ++ substr body chunk.1 chunk.2) := by
      simp only [dechunkStep, next]
    have step := dechunkStep_continue representable noWrap consistent continues
    obtain ⟨chunkHere, fits | wraps⟩ := nextChunk_cases next
    · exact ⟨step.2.1, fits⟩
    · exact absurd (noWrap i _ _ consistent.line chunkHere) (by omega)
  · have lower : ∀ s s', Consistent body s → dechunkStep body s = .inl s' →
        Consistent body s' ∧ body.length - s'.1 < body.length - s.1 := by
      intro s s' held continues
      have step := dechunkStep_continue representable noWrap held continues
      exact ⟨step.1, by omega⟩
    have enough : body.length - 0 < body.length + 1 := by omega
    obtain ⟨out, returned⟩ := Loop.run_terminates (Consistent body) (fun s => body.length - s.1)
      lower consistent_start enough
    refine ⟨out, returned, ?_⟩
    apply Loop.run_invariant (Consistent body) (fun s s' held continues =>
      (lower s s' held continues).1) ?_ consistent_start returned
    rintro ⟨i, out⟩ result ⟨-, short, pieces, content, ranges, ordered⟩ leaves
    have same : out = result := by
      cases next : nextChunk body i with
      | none => simpa [dechunkStep, next] using leaves
      | some chunk => simp [dechunkStep, next] at leaves
    subst same
    exact ⟨⟨pieces, content, fun piece member => (ranges piece member).1, ordered⟩, short.2⟩

theorem noWrap_of_decodes (decodes : Decodes body) : NoWrap body := by
  intro i start len line chunk
  by_contra wraps
  obtain ⟨out, heads⟩ := line.heads representable
  have next := nextChunk_of_wrap representable chunk (by omega)
  obtain ⟨-, fits⟩ := decodes.1 i out (start, len) heads next
  simp only at fits
  omega

/-- Decoding is right exactly for the bodies without a wrapping chunk. A string is
shorter than `2^63`. -/
theorem decodes_iff_noWrap : Decodes body ↔ NoWrap body :=
  ⟨noWrap_of_decodes representable, decodes_of_noWrap representable⟩

end Body

/-- A chunk of three bytes and the closing chunk. -/
theorem decodes_iff_noWrap_abc :
    Decodes (ascii "3\r\nabc\r\n0\r\n\r\n") ↔ NoWrap (ascii "3\r\nabc\r\n0\r\n\r\n") :=
  decodes_iff_noWrap (by decide)

/-- The fuel of `dechunk` decides termination. -/
theorem dechunk_eq_none {body : Bytes} (missing : dechunk body = none) (fuel : Nat) :
    Loop.run (dechunkStep body) fuel (0, []) = none := by
  refine Loop.run_counter (fun i => (nextChunk body i).map afterChunk) Prod.fst ?_ ?_ ?_ missing fuel
  · intro i j continues
    obtain ⟨chunk, next, -⟩ := Option.map_eq_some_iff.mp continues
    by_contra outside
    simp [nextChunk, chunkAt, outside] at next
  · rintro ⟨i, out⟩ s' continues
    cases next : nextChunk body i with
    | none => simp [dechunkStep, next] at continues
    | some chunk =>
      simp only [dechunkStep, next, Sum.inl.injEq] at continues
      simp [← continues]
  · rintro ⟨i, out⟩ result leaves
    cases next : nextChunk body i with
    | none => rfl
    | some chunk => simp [dechunkStep, next] at leaves

/-- Eighteen digits and a line end. The first line leads to position 2, and the line
there leads to position 2 again. -/
def wrapping : Bytes := ascii "00ffffffffffffffec\r\n"

/-- The loop never leaves position 2 of this body, so decoding is not right on it. -/
theorem wrapping_not_decodes :
    ¬ Decodes wrapping ∧ ∀ fuel, Loop.run (dechunkStep wrapping) fuel (0, []) = none := by
  have first : nextChunk wrapping 0 = some (20, 2 ^ 64 - 20) := by decide
  have again : nextChunk wrapping 2 = some (20, 2 ^ 64 - 20) := by decide
  have back : afterChunk (20, 2 ^ 64 - 20) = 2 := by decide
  constructor
  · rintro ⟨advances, -⟩
    exact absurd (advances 0 [] _ .start first).2 (by decide)
  · refine Loop.run_diverges (fun s => s.1 = 0 ∨ s.1 = 2) ?_ (Or.inl rfl)
    rintro ⟨i, out⟩ (rfl | rfl)
    · have continues : dechunkStep wrapping (0, out) =
          .inl (2, out ++ substr wrapping 20 (2 ^ 64 - 20)) := by
        simp only [dechunkStep, first, back]
      exact ⟨_, continues, Or.inr rfl⟩
    · have continues : dechunkStep wrapping (2, out) =
          .inl (2, out ++ substr wrapping 20 (2 ^ 64 - 20)) := by
        simp only [dechunkStep, again, back]
      exact ⟨_, continues, Or.inr rfl⟩

end StreamEngine.Net

import Mathlib.Data.Nat.Find
import StreamEngine.Library.ByteString

/-! Occurrences in a text whose beginning is known. What is found inside the beginning
stays the first occurrence whatever follows, and nothing new appears when the end of the
text lacks the last byte of what is looked for. -/
namespace ByteString

variable {pre s rest needle : Bytes} {pos i : Nat}

/-- A prefix that fits is one of the beginning already. -/
theorem prefix_drop_append (fits : i + needle.length ≤ s.length) :
    needle <+: (s ++ rest).drop i ↔ needle <+: s.drop i := by
  rw [List.drop_append_of_le_length (by omega)]
  constructor
  · intro occurs
    refine List.prefix_of_prefix_length_le occurs (List.prefix_append _ _) ?_
    rw [List.length_drop]
    omega
  · intro occurs
    exact occurs.trans (List.prefix_append _ _)

/-- The first occurrence is not affected by what follows. -/
theorem find_append (found : find s needle pos = some i) : find (s ++ rest) needle pos = some i := by
  have bound := find_bound found
  obtain ⟨low, inside, occurs, first⟩ := find_eq_some.mp found
  refine find_eq_some.mpr ⟨low, ?_, (prefix_drop_append bound.2).mpr occurs, ?_⟩
  · rw [List.length_append]
    omega
  · intro j after before occurs'
    refine first j after before ((prefix_drop_append ?_).mp occurs')
    omega

/-- What is found inside the beginning is found there. -/
theorem find_of_append (found : find (s ++ rest) needle pos = some i)
    (fits : i + needle.length ≤ s.length) : find s needle pos = some i := by
  obtain ⟨low, -, occurs, first⟩ := find_eq_some.mp found
  refine find_eq_some.mpr ⟨low, by omega, (prefix_drop_append fits).mp occurs, ?_⟩
  intro j after before occurs'
  exact first j after before ((prefix_drop_append (by omega)).mpr occurs')

theorem find_here (here : needle <+: rest) : find (pre ++ rest) needle pre.length = some pre.length := by
  refine find_eq_some.mpr ⟨le_refl _, by simp, by rwa [List.drop_left], fun j above below => ?_⟩
  omega

/-- A stretch in which nothing begins is passed over. -/
theorem find_pass (absent : ∀ j < s.length, ¬ needle <+: (s ++ rest).drop j) :
    find (pre ++ s ++ rest) needle pre.length =
      find (pre ++ s ++ rest) needle (pre.length + s.length) := by
  have skipped : ∀ i, pre.length ≤ i → i < pre.length + s.length →
      ¬ needle <+: (pre ++ s ++ rest).drop i := by
    intro i low high
    rw [List.append_assoc, List.drop_append, List.drop_eq_nil_of_le low, List.nil_append]
    exact absent (i - pre.length) (by omega)
  refine Option.ext fun i => ?_
  rw [find_eq_some, find_eq_some]
  constructor
  · rintro ⟨low, inside, occurs, first⟩
    have after : pre.length + s.length ≤ i := by
      by_contra before
      exact skipped i low (by omega) occurs
    exact ⟨after, inside, occurs, fun j above below => first j (by omega) below⟩
  · rintro ⟨low, inside, occurs, first⟩
    refine ⟨by omega, inside, occurs, fun j above below => ?_⟩
    by_cases before : j < pre.length + s.length
    · exact skipped j above before
    · exact first j (by omega) below

/-- A search from a position on does not see what stands before it. -/
theorem find_after :
    find (pre ++ rest) needle pre.length = (find rest needle 0).map (pre.length + ·) := by
  have inside : pre.length ≤ (pre ++ rest).length := by
    rw [List.length_append]
    omega
  rw [find, if_pos inside, List.drop_left, find, if_pos (Nat.zero_le _), List.drop_zero,
    Option.map_map]
  simp [Function.comp_def]

theorem find_eq_none :
    find s needle pos = none ↔ ∀ i, pos ≤ i → i ≤ s.length → ¬ needle <+: s.drop i := by
  constructor
  · intro absent i after here occurs
    have somewhere : ∃ i, pos ≤ i ∧ i ≤ s.length ∧ needle <+: s.drop i := ⟨i, after, here, occurs⟩
    classical
    obtain ⟨low, inside, first⟩ := Nat.find_spec somewhere
    have found : find s needle pos = some (Nat.find somewhere) := by
      refine find_eq_some.mpr ⟨low, inside, first, fun j after before occurs' => ?_⟩
      exact Nat.find_min somewhere before ⟨after, by omega, occurs'⟩
    rw [absent] at found
    contradiction
  · intro absent
    cases found : find s needle pos with
    | none => rfl
    | some i =>
      obtain ⟨low, inside, occurs, -⟩ := find_eq_some.mp found
      exact absurd occurs (absent i low inside)

theorem find_isSome (occurs : needle <:+: s) : (find s needle 0).isSome = true := by
  obtain ⟨u, v, rfl⟩ := occurs
  cases found : find (u ++ needle ++ v) needle 0 with
  | some i => rfl
  | none =>
    refine absurd ?_ (find_eq_none.mp found u.length (Nat.zero_le _) (by simp))
    rw [List.append_assoc, List.drop_left]
    exact List.prefix_append _ _

theorem find_isSome_iff : (find s needle 0).isSome = true ↔ needle <:+: s := by
  refine ⟨fun found => ?_, find_isSome⟩
  obtain ⟨i, found⟩ := Option.isSome_iff_exists.mp found
  obtain ⟨-, -, occurs, -⟩ := find_eq_some.mp found
  exact occurs.isInfix.trans (List.drop_suffix i s).isInfix

/-- A byte that is not part of what is looked for separates two texts. -/
theorem infix_across {c : UInt8} (free : c ∉ needle) :
    needle <:+: s ++ c :: rest ↔ needle <:+: s ∨ needle <:+: rest := by
  rw [List.infix_append_iff_ne_nil, List.infix_cons_iff]
  constructor
  · rintro (before | (here | after) | ⟨front, back, -, nonempty, rfl, -, here⟩)
    · exact Or.inl before
    · cases needle with
      | nil => exact Or.inl List.nil_infix
      | cons d needle =>
        exact absurd (List.cons_prefix_cons.mp here).1 fun same => free (same ▸ List.mem_cons_self)
    · exact Or.inr after
    · obtain ⟨d, back, rfl⟩ := List.exists_cons_of_ne_nil nonempty
      have same := (List.cons_prefix_cons.mp here).1
      exact absurd (List.mem_append_right front (same ▸ List.mem_cons_self)) free
  · rintro (before | after)
    · exact Or.inl before
    · exact Or.inr (Or.inl (Or.inr after))
/-- Without its last byte in the rest, nothing is found that starts in the beginning. -/
theorem find_append_none {c : UInt8} (last : needle.getLast? = some c) (free : c ∉ rest)
    (absent : find s needle 0 = none) : find (s ++ rest) needle 0 = none := by
  have nonempty : 0 < needle.length := by
    cases needle with
    | nil => contradiction
    | cons => simp
  refine find_eq_none.mpr fun i _ _ occurs => ?_
  by_cases fits : i + needle.length ≤ s.length
  · exact find_eq_none.mp absent i (Nat.zero_le _) (by omega) ((prefix_drop_append fits).mp occurs)
  · refine free ?_
    rw [List.getLast?_eq_getElem?] at last
    have here := List.prefix_iff_getElem?.mp occurs (needle.length - 1) (by omega)
    rw [List.getElem?_drop, List.getElem?_append_right (by omega)] at here
    refine List.mem_of_getElem? (here.trans ?_)
    rw [← last, List.getElem?_eq_getElem]

/-- The end of a value is the first byte that cannot be part of it. -/
theorem find_end {v : Bytes} {c : UInt8} (head : needle.head? = some c) (free : c ∉ v) :
    find (s ++ v ++ needle ++ rest) needle s.length = some (s.length + v.length) := by
  refine find_eq_some.mpr ⟨by omega, by simp only [List.length_append]; omega, ?_, ?_⟩
  · rw [List.append_assoc, ← List.length_append, List.drop_left]
    exact List.prefix_append _ _
  · intro j after before occurs
    have inside : j - s.length < v.length := by omega
    obtain ⟨tail, rfl⟩ := List.head?_eq_some_iff.mp head
    have there := List.prefix_iff_getElem?.mp occurs 0 (by simp)
    rw [List.getElem?_drop, List.append_assoc, List.append_assoc,
      List.getElem?_append_right (by omega), List.getElem?_append_left (by omega)] at there
    exact free (List.mem_of_getElem? there)

/-- A byte that does not occur is not found. -/
theorem find_byte_none {c : UInt8} (free : c ∉ s.drop pos) : find s [c] pos = none := by
  refine find_eq_none.mpr fun i low _ occurs => free ?_
  have member : c ∈ s.drop i := occurs.subset (List.mem_singleton_self c)
  rw [← Nat.sub_add_cancel low, Nat.add_comm, ← List.drop_drop] at member
  exact List.mem_of_mem_drop member

/-- A text as it is before a byte, and from its first occurrence on. -/
theorem split_at_byte {c : UInt8} (member : c ∈ s) :
    ∃ t, s = s.takeWhile (· != c) ++ c :: t ∧ c ∉ s.takeWhile (· != c) := by
  obtain ⟨u, t, shape, free⟩ := List.eq_append_cons_of_mem member
  have others : ∀ d ∈ u, (d != c) = true := fun d inside =>
    bne_iff_ne.mpr fun same => free (same ▸ inside)
  have start : s.takeWhile (· != c) = u := by
    rw [shape, List.takeWhile_append_of_pos others, List.takeWhile_cons_of_neg (by simp),
      List.append_nil]
  exact ⟨t, by rw [start]; exact shape, by rw [start]; exact free⟩

/-- A byte is found at the end of what does not hold it. -/
theorem find_byte {c : UInt8} (member : c ∈ s) :
    find (pre ++ (s ++ rest)) [c] pre.length = some (pre.length + (s.takeWhile (· != c)).length) := by
  obtain ⟨t, shape, free⟩ := split_at_byte member
  have here : pre ++ (s ++ rest) = pre ++ s.takeWhile (· != c) ++ [c] ++ (t ++ rest) := by
    conv_lhs => rw [shape]
    simp
  rw [here]
  exact find_end rfl free

end ByteString

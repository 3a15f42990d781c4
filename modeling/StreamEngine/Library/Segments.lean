import StreamEngine.Library.Occurrence

/-! Searching past a stretch of text in which nothing begins. What is looked for begins with a mark,
and a stretch is followed by the next mark or by nothing, so it can be judged by itself and stretches
can be put together. -/
namespace ByteString

variable {mark : UInt8} {hit : Bytes → Prop} {pre s t rest needle : Bytes}

/-- Empty, or from a mark on. -/
def AtMark (mark : UInt8) (rest : Bytes) : Prop := ∀ c, rest.head? = some c → c = mark

theorem atMark_nil : AtMark mark [] := nofun

theorem atMark_cons : AtMark mark (mark :: t) := by
  rintro c ⟨⟩
  rfl

theorem AtMark.append (first : AtMark mark s) (second : AtMark mark t) : AtMark mark (s ++ t) := by
  cases s with
  | nil => exact second
  | cons c s => exact first

/-- Hits begin with the mark. -/
def Marked (mark : UInt8) (hit : Bytes → Prop) : Prop := ∀ s, hit s → s.head? = some mark

/-- No hit begins in this stretch, whatever comes from the next mark on. -/
def Clear (mark : UInt8) (hit : Bytes → Prop) (s : Bytes) : Prop :=
  ∀ rest, AtMark mark rest → ∀ v, v <:+ s → v ≠ [] → ¬ hit (v ++ rest)

theorem clear_nil : Clear mark hit [] := fun _ _ _ suffix nonempty =>
  absurd (List.suffix_nil.mp suffix) nonempty

theorem Clear.append (first : Clear mark hit s) (second : Clear mark hit t) (next : AtMark mark t) :
    Clear mark hit (s ++ t) := by
  intro rest after v suffix nonempty
  obtain ⟨u, split⟩ := suffix
  rcases List.append_eq_append_iff.mp split with ⟨w, rfl, rfl⟩ | ⟨w, rfl, rfl⟩
  · by_cases empty : w = []
    · rw [empty, List.nil_append] at nonempty ⊢
      exact second rest after t List.suffix_rfl nonempty
    · rw [List.append_assoc]
      exact first (t ++ rest) (next.append after) w (List.suffix_append _ _) empty
  · exact second rest after v (List.suffix_append _ _) nonempty

theorem clear_free (marked : Marked mark hit) (free : mark ∉ s) : Clear mark hit s := by
  intro rest _ v suffix nonempty here
  obtain ⟨c, v, rfl⟩ := List.exists_cons_of_ne_nil nonempty
  have same := marked _ here
  rw [List.cons_append, List.head?_cons, Option.some.injEq] at same
  exact free (suffix.subset (same ▸ List.mem_cons_self))

/-- One mark and the text up to the next. -/
theorem clear_segment (marked : Marked mark hit) (free : mark ∉ t)
    (miss : ∀ rest, AtMark mark rest → ¬ hit (mark :: (t ++ rest))) : Clear mark hit (mark :: t) := by
  intro rest after v suffix nonempty
  rcases List.suffix_cons_iff.mp suffix with rfl | later
  · exact miss rest after
  · exact clear_free marked free rest after v later nonempty

theorem Clear.flatMap {α : Type*} {f : α → Bytes} {l : List α} (each : ∀ a ∈ l, Clear mark hit (f a))
    (next : ∀ a ∈ l, AtMark mark (f a)) : Clear mark hit (l.flatMap f) ∧ AtMark mark (l.flatMap f) := by
  induction l with
  | nil => exact ⟨clear_nil, atMark_nil⟩
  | cons a l ih =>
    obtain ⟨clear, at_⟩ := ih (fun b member => each b (List.mem_cons_of_mem a member))
      (fun b member => next b (List.mem_cons_of_mem a member))
    rw [List.flatMap_cons]
    exact ⟨(each a List.mem_cons_self).append clear at_, (next a List.mem_cons_self).append at_⟩

/-! ### Substring search -/

theorem marked_needle (head : needle.head? = some mark) : Marked mark (needle <+: ·) := by
  rintro s ⟨rest, rfl⟩
  cases needle with
  | nil => contradiction
  | cons c needle => exact head

/-- What has no other mark than its first byte ends before the next one. -/
theorem prefix_inside (free : mark ∉ t) (nonempty : s ≠ []) (next : AtMark mark rest)
    (occurs : mark :: t <+: s ++ rest) : mark :: t <+: s := by
  obtain ⟨u, split⟩ := occurs
  rcases List.append_eq_append_iff.mp split with ⟨w, rfl, -⟩ | ⟨w, whole, tail⟩
  · exact List.prefix_append _ _
  · cases w with
    | nil =>
      rw [List.append_nil] at whole
      rw [whole]
    | cons d w =>
      have same : d = mark := next d (by rw [tail]; rfl)
      obtain ⟨b, s, rfl⟩ := List.exists_cons_of_ne_nil nonempty
      have rest := (List.cons.inj whole).2
      exact absurd (rest ▸ same ▸ List.mem_append_right s List.mem_cons_self) free

theorem find_skip (clear : Clear mark (needle <+: ·) s) (next : AtMark mark rest) :
    find (pre ++ s ++ rest) needle pre.length =
      find (pre ++ s ++ rest) needle (pre.length + s.length) := by
  refine find_pass fun j before => ?_
  rw [List.drop_append_of_le_length (by omega)]
  refine clear rest next _ (List.drop_suffix _ _) ?_
  rw [Ne, List.drop_eq_nil_iff]
  omega

end ByteString

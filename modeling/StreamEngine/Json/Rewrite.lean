import StreamEngine.Json.Language

/-! Writing back what was read. A value whose numbers are finite is read back equal; any
other is written as a text that the parser rejects. Which values those are is said of
the text: a number that no later binding replaces is too large for a double. -/
namespace StreamEngine.Json
open ByteString Binary64 Decimal JsonText

variable {S N : Type}

mutual
/-- Every string and key satisfies `P` and every number `Q`. -/
def Value.All (P : Bytes → Prop) (Q : Double → Prop) : Value → Prop
  | .null => True
  | .bool _ => True
  | .num d => Q d
  | .str s => P s
  | .arr items => Value.AllItems P Q items
  | .obj members => Value.AllMembers P Q members

def Value.AllItems (P : Bytes → Prop) (Q : Double → Prop) : List Value → Prop
  | [] => True
  | v :: items => v.All P Q ∧ Value.AllItems P Q items

def Value.AllMembers (P : Bytes → Prop) (Q : Double → Prop) : List (Bytes × Value) → Prop
  | [] => True
  | (k, v) :: members => P k ∧ v.All P Q ∧ Value.AllMembers P Q members
end

mutual
/-- The same of a document, leaving out what a later binding of the same key replaces. -/
def Kept (f : S → Bytes) (P : S → Prop) (Q : N → Prop) : Document S N → Prop
  | .null => True
  | .bool _ => True
  | .num n => Q n
  | .str s => P s
  | .arr items => KeptItems f P Q items
  | .obj members => KeptMembers f P Q members

def KeptItems (f : S → Bytes) (P : S → Prop) (Q : N → Prop) : List (Document S N) → Prop
  | [] => True
  | d :: ds => Kept f P Q d ∧ KeptItems f P Q ds

def KeptMembers (f : S → Bytes) (P : S → Prop) (Q : N → Prop) :
    List (S × Document S N) → Prop
  | [] => True
  | (k, d) :: ms => P k ∧ ((∀ m ∈ ms, f m.1 ≠ f k) → Kept f P Q d) ∧ KeptMembers f P Q ms
end

theorem allMembers_iff {P : Bytes → Prop} {Q : Double → Prop} {members : List (Bytes × Value)} :
    Value.AllMembers P Q members ↔ ∀ entry ∈ members, P entry.1 ∧ entry.2.All P Q := by
  induction members with
  | nil => simp [Value.AllMembers]
  | cons entry members ih =>
    obtain ⟨k, v⟩ := entry
    rw [Value.AllMembers, ih, List.forall_mem_cons, and_assoc]

mutual
/-- The value holds what the document keeps. -/
theorem all_valueOf {f : S → Bytes} {g : N → Double} {P : Bytes → Prop} {Q : Double → Prop} :
    ∀ d : Document S N,
      (valueOf f g d).All P Q ↔ Kept f (fun s => P (f s)) (fun n => Q (g n)) d
  | .null | .bool _ | .num _ | .str _ => by simp only [valueOf, Value.All, Kept]
  | .arr items => by simpa only [valueOf, Value.All, Kept] using all_itemsOf items
  | .obj members => by
    rw [valueOf, Value.All, Kept, all_membersOf members OrderedMap.ascending_nil]
    simp

theorem all_itemsOf {f : S → Bytes} {g : N → Double} {P : Bytes → Prop} {Q : Double → Prop} :
    ∀ ds : List (Document S N),
      Value.AllItems P Q (itemsOf f g ds) ↔ KeptItems f (fun s => P (f s)) (fun n => Q (g n)) ds
  | [] => by simp only [itemsOf, Value.AllItems, KeptItems]
  | d :: ds => by simp only [itemsOf, Value.AllItems, KeptItems, all_valueOf d, all_itemsOf ds]

/-- An earlier entry counts unless its key is bound again. -/
theorem all_membersOf {f : S → Bytes} {g : N → Double} {P : Bytes → Prop} {Q : Double → Prop} :
    ∀ (ms : List (S × Document S N)) {earlier : List (Bytes × Value)},
      OrderedMap.Ascending earlier →
      (Value.AllMembers P Q (membersOf f g ms earlier) ↔
        KeptMembers f (fun s => P (f s)) (fun n => Q (g n)) ms ∧
          ∀ entry ∈ earlier, P entry.1 ∧ ((∀ m ∈ ms, f m.1 ≠ entry.1) → entry.2.All P Q))
  | [], earlier, _ => by
    simp only [membersOf, KeptMembers, true_and, allMembers_iff, List.not_mem_nil, false_implies,
      implies_true, forall_const]
  | (k, d) :: ms, earlier, sorted => by
    have here := all_valueOf (f := f) (g := g) (P := P) (Q := Q) d
    rw [membersOf, all_membersOf ms (OrderedMap.insert_ascending _ _ sorted), KeptMembers, ← here]
    simp only [OrderedMap.mem_insert sorted, List.forall_mem_cons]
    constructor
    · rintro ⟨later, entries⟩
      obtain ⟨key, kept⟩ := entries _ (Or.inl rfl)
      refine ⟨⟨key, kept, later⟩, fun entry member => ?_⟩
      by_cases same : entry.1 = f k
      · exact ⟨same ▸ key, fun other => absurd same.symm other.1⟩
      · obtain ⟨otherKey, otherKept⟩ := entries entry (Or.inr ⟨member, same⟩)
        exact ⟨otherKey, fun other => otherKept other.2⟩
    · rintro ⟨⟨key, kept, later⟩, entries⟩
      refine ⟨later, fun entry member => ?_⟩
      rcases member with rfl | ⟨member, other⟩
      · exact ⟨key, kept⟩
      · obtain ⟨otherKey, otherKept⟩ := entries entry member
        exact ⟨otherKey, fun rest => otherKept ⟨Ne.symm other, rest⟩⟩
end

mutual
theorem finite_iff_all : ∀ {v : Value},
    v.Finite ↔ v.All (fun _ => True) (fun d => d.isFinite = true)
  | .null | .bool _ | .num _ | .str _ => by simp only [Value.Finite, Value.All]
  | .arr items => by simpa only [Value.Finite, Value.All] using finiteItems_iff_all
  | .obj members => by simpa only [Value.Finite, Value.All] using finiteMembers_iff_all

theorem finiteItems_iff_all : ∀ {items : List Value},
    Value.FiniteItems items ↔ Value.AllItems (fun _ => True) (fun d => d.isFinite = true) items
  | [] => by simp only [Value.FiniteItems, Value.AllItems]
  | v :: items => by
    simp only [Value.FiniteItems, Value.AllItems, finite_iff_all (v := v), finiteItems_iff_all]

theorem finiteMembers_iff_all : ∀ {members : List (Bytes × Value)},
    Value.FiniteMembers members ↔
      Value.AllMembers (fun _ => True) (fun d => d.isFinite = true) members
  | [] => by simp only [Value.FiniteMembers, Value.AllMembers]
  | (k, v) :: members => by
    simp only [Value.FiniteMembers, Value.AllMembers, finite_iff_all (v := v),
      finiteMembers_iff_all, true_and]
end

/-! ### What cannot be read back -/

theorem number_minus (s : Bytes) : number (45 :: 105 :: s) = none := by
  have token : (45 :: 105 :: s).takeWhile inNumber = [45] := by
    simp [show inNumber 45 = true from rfl, show inNumber 105 = false from rfl]
  have unread : strtod [45] = (.finite (zero false), [45]) := rfl
  simp only [number, token, List.cons_ne_nil, if_false, unread]

/-- The printed form of a number that is not finite is no value. -/
theorem not_reads_num {d : Double} (notFinite : ¬ d.isFinite = true) (s : Bytes) {v : Value}
    {rest : Bytes} : ¬ Reads .value (dumpNum d ++ s) v rest := by
  rw [dumpNum_of_not_finite notFinite]
  intro reads
  have opens := (reads_iff (le_refl (depth _))).mpr reads
  rw [depth] at opens
  cases d with
  | finite x => exact notFinite rfl
  | nan =>
    have text : printG17 .nan ++ s = 110 :: 97 :: 110 :: s := rfl
    have word : literal (ascii "null") .null (110 :: 97 :: 110 :: s) = none := rfl
    rw [text, value, ws_of_not rfl] at opens
    simp [word] at opens
  | infinite neg =>
    cases neg with
    | true =>
      have text : printG17 (.infinite true) ++ s = 45 :: 105 :: 110 :: 102 :: s := rfl
      rw [text, value, ws_of_not rfl] at opens
      simp [number_minus] at opens
    | false =>
      have text : printG17 (.infinite false) ++ s = 105 :: 110 :: 102 :: s := rfl
      have noDigit : isDigit 105 = false := rfl
      rw [text, value, ws_of_not rfl] at opens
      simp [noDigit] at opens

theorem dumpNum_opens (d : Double) :
    ∃ c t, dumpNum d = c :: t ∧ isWs c = false ∧ c ≠ 93 := by
  by_cases finite : d.isFinite = true
  · obtain ⟨c, t, text, start⟩ := dumpNum_starts finite
    obtain ⟨notWs, close, -⟩ := number_start start
    exact ⟨c, t, text, notWs, close⟩
  · rw [dumpNum_of_not_finite finite]
    cases d with
    | finite x => exact absurd rfl finite
    | nan => exact ⟨110, _, rfl, rfl, by decide⟩
    | infinite neg => cases neg <;> exact ⟨_, _, rfl, rfl, by decide⟩

theorem dumpTo_opens (v : Value) : ∃ c t, dumpTo v = c :: t ∧ isWs c = false ∧ c ≠ 93 := by
  cases v with
  | null => exact ⟨110, _, rfl, rfl, by decide⟩
  | bool b => cases b <;> exact ⟨_, _, rfl, rfl, by decide⟩
  | num d => simpa only [dumpTo] using dumpNum_opens d
  | str s => exact ⟨34, _, rfl, rfl, by decide⟩
  | arr items => exact ⟨91, _, rfl, rfl, by decide⟩
  | obj members => exact ⟨123, _, rfl, rfl, by decide⟩

/-- An array is read item by item. -/
theorem reads_items_of_dump {v : Value} {items : List Value} {s rest : Bytes} {w : Value}
    (reads : Reads .value (dumpTo (.arr (v :: items)) ++ s) w rest) :
    Reads (.items []) (dumpItems true (v :: items) ++ 93 :: s) w rest := by
  obtain ⟨c, t, first, notWs, close⟩ := dumpTo_opens v
  have text : dumpTo (.arr (v :: items)) ++ s =
      91 :: (dumpItems true (v :: items) ++ 93 :: s) := by
    simp [dumpTo]
  have more : ws (dumpItems true (v :: items) ++ 93 :: s) =
      c :: (t ++ (dumpItems false items ++ 93 :: s)) := by
    simp only [dumpItems, if_true, List.nil_append, first, List.append_assoc, List.cons_append]
    exact ws_of_not notWs _
  have read := (reads_iff (le_refl (depth _))).mpr reads
  rw [text, depth, value_items (ws_of_not rfl _) more close] at read
  apply reads_of_read (.items [])
  rw [Goal.read]
  exact read

/-- An object is read member by member. -/
theorem reads_members_of_dump {member : Bytes × Value} {members : List (Bytes × Value)}
    {s rest : Bytes} {w : Value}
    (reads : Reads .value (dumpTo (.obj (member :: members)) ++ s) w rest) :
    Reads (.members []) (dumpMembers true (member :: members) ++ 125 :: s) w rest := by
  obtain ⟨k, v⟩ := member
  have text : dumpTo (.obj ((k, v) :: members)) ++ s =
      123 :: (dumpMembers true ((k, v) :: members) ++ 125 :: s) := by
    simp [dumpTo]
  have more : ∃ t, ws (dumpMembers true ((k, v) :: members) ++ 125 :: s) = 34 :: t := by
    simp only [dumpMembers, if_true, List.nil_append, escapeTo, List.cons_append]
    exact ⟨_, ws_of_not rfl _⟩
  obtain ⟨t, more⟩ := more
  have read := (reads_iff (le_refl (depth _))).mpr reads
  rw [text, depth, value_members (ws_of_not rfl _) more (by decide)] at read
  apply reads_of_read (.members [])
  rw [Goal.read]
  exact read

/-- What is read after a written key and its colon. -/
theorem member_value {k s t₁ key t₂ t₃ : Bytes}
    (quote : ws (34 :: (k.flatMap escapeByte ++ 34 :: 58 :: s)) = 34 :: t₁)
    (body : strBody t₁ = some (key, t₂)) (colon : ws t₂ = 58 :: t₃) : t₃ = s := by
  rw [ws_of_not rfl] at quote
  obtain ⟨-, rfl⟩ := List.cons.inj quote
  rw [strBody_escapeTo, Option.some.injEq, Prod.mk.injEq] at body
  obtain ⟨-, rfl⟩ := body
  rw [ws_of_not rfl] at colon
  exact (List.cons.inj colon).2.symm

mutual
/-- A value that holds such a number is written as no value. -/
theorem not_reads_dumpTo : ∀ {v : Value}, v.Ordered → ¬ v.Finite → ∀ {s rest : Bytes} {w : Value},
    ¬ Reads .value (dumpTo v ++ s) w rest
  | .null, _, notFinite, _, _, _ | .bool _, _, notFinite, _, _, _
  | .str _, _, notFinite, _, _, _ | .arr [], _, notFinite, _, _, _
  | .obj [], _, notFinite, _, _, _ => absurd (by simp [Value.Finite, Value.FiniteItems,
      Value.FiniteMembers]) notFinite
  | .num d, _, notFinite, s, rest, w => by
    rw [Value.Finite] at notFinite
    rw [dumpTo]
    exact not_reads_num notFinite s
  | .arr (v :: items), ordered, notFinite, s, rest, w => by
    rw [Value.Ordered] at ordered
    rw [Value.Finite] at notFinite
    intro reads
    exact not_reads_dumpItems ordered notFinite (reads_items_of_dump reads)
  | .obj (member :: members), ordered, notFinite, s, rest, w => by
    rw [Value.Ordered] at ordered
    rw [Value.Finite] at notFinite
    intro reads
    exact not_reads_dumpMembers ordered.2 notFinite (reads_members_of_dump reads)

theorem not_reads_dumpItems : ∀ {items : List Value}, Value.OrderedItems items →
    ¬ Value.FiniteItems items → ∀ {s rest : Bytes} {earlier : List Value} {w : Value},
    ¬ Reads (.items earlier) (dumpItems true items ++ 93 :: s) w rest
  | [], _, notFinite, _, _, _, _ => absurd trivial notFinite
  | [v], ordered, notFinite, s, rest, earlier, w => by
    rw [Value.OrderedItems] at ordered
    simp only [Value.FiniteItems, and_true] at notFinite
    simp only [dumpItems, if_true, List.nil_append, List.append_nil]
    intro reads
    cases reads with
    | item here | lastItem here => exact not_reads_dumpTo ordered.1 notFinite here
  | v :: w :: items, ordered, notFinite, s, rest, earlier, u => by
    rw [Value.OrderedItems] at ordered
    rw [Value.FiniteItems] at notFinite
    rw [dumpItems_cons]
    intro reads
    by_cases finite : v.Finite
    · -- the first item is read as it was written, so the others are read next
      have first := reads_dumpTo v ordered.1 finite
        (44 :: (dumpItems true (w :: items) ++ 93 :: s)) (stops_cons rfl _)
      cases reads with
      | item here comma others =>
        obtain ⟨-, rfl⟩ := here.unique first
        rw [ws_of_not rfl] at comma
        obtain ⟨-, rfl⟩ := List.cons.inj comma
        exact not_reads_dumpItems ordered.2 (fun rest => notFinite ⟨finite, rest⟩) others
      | lastItem here close =>
        obtain ⟨-, rfl⟩ := here.unique first
        rw [ws_of_not rfl] at close
        exact absurd (List.cons.inj close).1 (by decide)
    · cases reads with
      | item here | lastItem here => exact not_reads_dumpTo ordered.1 finite here

theorem not_reads_dumpMembers : ∀ {members : List (Bytes × Value)},
    Value.OrderedMembers members → ¬ Value.FiniteMembers members →
    ∀ {s rest : Bytes} {earlier : List (Bytes × Value)} {w : Value},
    ¬ Reads (.members earlier) (dumpMembers true members ++ 125 :: s) w rest
  | [], _, notFinite, _, _, _, _ => absurd trivial notFinite
  | [(k, v)], ordered, notFinite, s, rest, earlier, w => by
    rw [Value.OrderedMembers] at ordered
    simp only [Value.FiniteMembers, and_true] at notFinite
    rw [dumpMembers_one]
    intro reads
    cases reads with
    | member quote body colon here | lastMember quote body colon here =>
      obtain rfl := member_value quote body colon
      exact not_reads_dumpTo ordered.1 notFinite here
  | (k, v) :: member :: members, ordered, notFinite, s, rest, earlier, w => by
    rw [Value.OrderedMembers] at ordered
    rw [Value.FiniteMembers] at notFinite
    rw [dumpMembers_cons]
    intro reads
    by_cases finite : v.Finite
    · have first := reads_dumpTo v ordered.1 finite
        (44 :: (dumpMembers true (member :: members) ++ 125 :: s)) (stops_cons rfl _)
      cases reads with
      | member quote body colon here comma others =>
        obtain rfl := member_value quote body colon
        obtain ⟨-, rfl⟩ := here.unique first
        rw [ws_of_not rfl] at comma
        obtain ⟨-, rfl⟩ := List.cons.inj comma
        exact not_reads_dumpMembers ordered.2 (fun rest => notFinite ⟨finite, rest⟩) others
      | lastMember quote body colon here close =>
        obtain rfl := member_value quote body colon
        obtain ⟨-, rfl⟩ := here.unique first
        rw [ws_of_not rfl] at close
        exact absurd (List.cons.inj close).1 (by decide)
    · cases reads with
      | member quote body colon here | lastMember quote body colon here =>
        obtain rfl := member_value quote body colon
        exact not_reads_dumpTo ordered.1 finite here
end

/-- A value is read back equal exactly when its numbers are finite. -/
theorem readBack_iff {v : Value} (ordered : v.Ordered) :
    (∃ w, parse (dump v) = some w ∧ w.eq v = true) ↔ v.Finite := by
  constructor
  · rintro ⟨w, accepted, -⟩
    by_contra notFinite
    obtain ⟨rest, reads, -⟩ := parse_iff.mp accepted
    rw [dump, ← List.append_nil (dumpTo v)] at reads
    exact not_reads_dumpTo ordered notFinite reads
  · exact parse_dump_eq ordered

/-- What was accepted is accepted again after it is written back, and is equal to what it
was, exactly when no number that the value keeps overflows. -/
theorem rewrite_iff {t : Bytes} {v : Value} (accepted : parse t = some v) :
    (∃ w, parse (dump v) = some w ∧ w.eq v = true) ↔
      ∀ d, Text relaxed t d → Kept decode (fun _ => True) (fun n => ¬ n.numeral.Overflows) d := by
  have keeps : ∀ d, Text relaxed t d →
      (v.Finite ↔ Kept decode (fun _ => True) (fun n => ¬ n.numeral.Overflows) d) := by
    intro d text
    have value := parse_of_text relaxed_readable text
    rw [accepted, Option.some.injEq] at value
    rw [value, finite_iff_all, all_valueOf]
    simp only [Numeral.toDouble_isFinite]
  rw [readBack_iff (parse_ordered accepted)]
  constructor
  · intro finite d text
    exact (keeps d text).mp finite
  · intro kept
    obtain ⟨d, text, -⟩ := parse_iff_relaxed.mp accepted
    exact (keeps d text).mpr (kept d text)

theorem rewrite_iff_one :
    (∃ w, parse (dump (.num (Numeral.toDouble ⟨false, 1, 0⟩))) = some w ∧
        w.eq (.num (Numeral.toDouble ⟨false, 1, 0⟩)) = true) ↔
      ∀ d, Text relaxed (ascii "1") d →
        Kept decode (fun _ => True) (fun n => ¬ n.numeral.Overflows) d := by
  have blank : Blank [] := by simp [Blank]
  have text : Text relaxed (ascii "1") (.num ⟨false, [49], none, none⟩) :=
    ⟨[], _, [], blank, .number ⟨⟨by decide, by decide, by simp, by decide⟩, by simp, rfl⟩, blank, rfl⟩
  exact rewrite_iff (parse_of_text relaxed_readable text)

/-- A number too large for a double is accepted, and what is written for it is not. -/
theorem rewrite_overflow :
    ∃ v, parse (ascii "1e999") = some v ∧ ¬ ∃ w, parse (dump v) = some w ∧ w.eq v = true := by
  have blank : Blank [] := by simp [Blank]
  have text : Text relaxed (ascii "1e999")
      (.num ⟨false, [49], none, some ⟨101, none, [57, 57, 57]⟩⟩) := by
    refine ⟨[], _, [], blank, .number ⟨⟨by decide, by decide, ?_, by decide⟩, by simp, rfl⟩, blank, rfl⟩
    intro e member
    cases member
    exact ⟨Or.inl rfl, by simp, by decide, by decide⟩
  have accepted := parse_of_text relaxed_readable text
  refine ⟨_, accepted, fun readBack => ?_⟩
  have finite := (readBack_iff (parse_ordered accepted)).mp readBack
  rw [valueOf, Value.Finite] at finite
  revert finite
  decide +kernel

end StreamEngine.Json

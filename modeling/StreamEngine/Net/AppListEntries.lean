import Mathlib.Logic.Relation
import StreamEngine.Net.AppListProofs

/-! Whose fields an entry of the app list is read from. An entry that is left open reaches to the
next literal end tag, over the start of the entries between, and is completed with their fields when
it has none of its own. -/
namespace StreamEngine.Net
open ByteString Decimal Relation

variable {xml s rest tag : Bytes} {pos body a c : Nat}

/-! ### The entries of the loop -/

/-- What an entry takes, to its end tag or the end of the document. -/
def block (xml : Bytes) (body : Nat) : Bytes :=
  substr xml body ((find xml (ascii "</App>") body).getD xml.length - body)

def afterBlock (xml : Bytes) (body : Nat) : Nat :=
  ((find xml (ascii "</App>") body).map (· + 6)).getD xml.length

def NextEntry (xml : Bytes) (pos pos' : Nat) : Prop :=
  ∃ body, findAppBody xml pos = some body ∧ pos' = afterBlock xml body

/-- The loop, from this position on, reads an entry whose body begins here. -/
def EnteredFrom (xml : Bytes) (pos body : Nat) : Prop :=
  ∃ pos', ReflTransGen (NextEntry xml) pos pos' ∧ findAppBody xml pos' = some body

def Entered (xml : Bytes) (body : Nat) : Prop := EnteredFrom xml 0 body

def Usable (a : AppInfo) : Prop := 0 < a.id ∧ a.title ≠ []

instance (a : AppInfo) : Decidable (Usable a) := inferInstanceAs (Decidable (_ ∧ _))

/-- This app is what the loop makes of the entry. -/
structure ReadFrom (xml : Bytes) (body : Nat) (app : AppInfo) : Prop where
  entered : Entered xml body
  usable : Usable (readApp (block xml body))
  read : app = readApp (block xml body)

theorem enteredFrom_iff (found : findAppBody xml pos = some body) {body' : Nat} :
    EnteredFrom xml pos body' ↔ body' = body ∨ EnteredFrom xml (afterBlock xml body) body' := by
  constructor
  · rintro ⟨pos', steps, here⟩
    rcases steps.cases_head with rfl | ⟨next, ⟨body₁, first, rfl⟩, later⟩
    · exact Or.inl (Option.some.inj (here.symm.trans found))
    · cases found.symm.trans first
      exact Or.inr ⟨pos', later, here⟩
  · rintro (rfl | ⟨pos', later, here⟩)
    · exact ⟨pos, .refl, found⟩
    · exact ⟨pos', .head ⟨body, found, rfl⟩ later, here⟩

/-- The loop adds the usable entries that it meets. -/
theorem mem_run {fuel : Nat} {apps result : List AppInfo}
    (returned : Loop.run (parseAppStep xml) fuel (pos, apps) = some result) (app : AppInfo) :
    app ∈ result ↔ app ∈ apps ∨ ∃ body, EnteredFrom xml pos body ∧
      Usable (readApp (block xml body)) ∧ app = readApp (block xml body) := by
  induction fuel generalizing pos apps with
  | zero => contradiction
  | succ fuel ih =>
    cases found : findAppBody xml pos with
    | none =>
      have leaves : parseAppStep xml (pos, apps) = .inr apps := by simp only [parseAppStep, found]
      rw [Loop.run_leave leaves, Option.some.injEq] at returned
      subst returned
      refine (or_iff_left ?_).symm
      rintro ⟨body, ⟨pos', steps, here⟩, -⟩
      rcases steps.cases_head with rfl | ⟨next, ⟨body₁, first, -⟩, -⟩
      · exact Option.some_ne_none body (here.symm.trans found)
      · exact Option.some_ne_none body₁ (first.symm.trans found)
    | some body =>
      have continues : parseAppStep xml (pos, apps) = .inl (afterBlock xml body,
          if Usable (readApp (block xml body)) then apps ++ [readApp (block xml body)] else apps) := by
        simp only [parseAppStep, found, afterBlock]
        rfl
      rw [Loop.run_continue continues] at returned
      rw [ih returned]
      simp only [enteredFrom_iff found, or_and_right, exists_or, exists_eq_left, ← or_assoc]
      refine or_congr_left ?_
      split
      · rename_i usable
        rw [List.mem_append, List.mem_singleton, and_iff_right usable]
      · rename_i unusable
        rw [or_iff_left fun here => unusable here.1]

theorem mem_parseAppList (app : AppInfo) :
    app ∈ parseAppList xml ↔ ∃ body, ReadFrom xml body app := by
  obtain ⟨apps, returned⟩ := parseAppList_terminates xml
  rw [parseAppList, returned, Option.getD_some, mem_run returned, or_iff_right List.not_mem_nil]
  refine exists_congr fun body => ⟨?_, fun read => ⟨read.entered, read.usable, read.read⟩⟩
  rintro ⟨entered, usable, read⟩
  exact ⟨entered, usable, read⟩

/-! ### The next tag of an app -/

/-- A start tag or an end tag of an app, in any spelling of its end. -/
def AppTag (s : Bytes) : Prop := StartTag (ascii "App") s ∨ StartTag (ascii "/App") s

theorem findStartTagFrom_first {i : Nat} (found : findStartTagFrom (60 :: tag) pos s = some i) :
    pos ≤ i ∧ StartTag tag (s.drop (i - pos)) ∧ ∀ j < i - pos, ¬ StartTag tag (s.drop j) := by
  induction s generalizing pos with
  | nil => contradiction
  | cons b s ih =>
    rw [findStartTagFrom] at found
    split at found
    · rename_i here
      cases found
      rw [Nat.sub_self]
      exact ⟨le_refl _, startTag_iff.mp here, fun j before => absurd before (Nat.not_lt_zero j)⟩
    · rename_i other
      obtain ⟨low, there, first⟩ := ih found
      have shift : i - pos = i - (pos + 1) + 1 := by omega
      rw [shift]
      refine ⟨by omega, there, fun j before => ?_⟩
      cases j with
      | zero => exact mt startTag_iff.mpr other
      | succ j => exact first j (by omega)

theorem findStartTagFrom_absent (absent : findStartTagFrom (60 :: tag) pos s = none) (j : Nat) :
    ¬ StartTag tag (s.drop j) := by
  induction s generalizing pos j with
  | nil =>
    rw [List.drop_nil]
    exact fun here => absurd (startTag_marked _ here) nofun
  | cons b s ih =>
    rw [findStartTagFrom] at absent
    split at absent
    · contradiction
    · rename_i other
      cases j with
      | zero => exact mt startTag_iff.mpr other
      | succ j => exact ih absent j

/-- Offset of the next start tag, the length of the text when there is none. -/
def nextStart (s tag : Bytes) : Nat := (findStartTag s tag).getD s.length

theorem nextStart_spec (s tag : Bytes) : (∀ j < nextStart s tag, ¬ StartTag tag (s.drop j)) ∧
    (nextStart s tag < s.length → StartTag tag (s.drop (nextStart s tag))) := by
  rw [nextStart]
  cases found : findStartTag s tag with
  | none => exact ⟨fun j _ => findStartTagFrom_absent found j, fun less => absurd less (lt_irrefl _)⟩
  | some i =>
    obtain ⟨-, here, first⟩ := findStartTagFrom_first found
    exact ⟨first, fun _ => here⟩

/-- Offset of the next tag of an app. -/
def nextApp (s : Bytes) : Nat := min (nextStart s (ascii "App")) (nextStart s (ascii "/App"))

theorem not_appTag_before {j : Nat} (before : j < nextApp s) : ¬ AppTag (s.drop j) := by
  rintro (start | close)
  · exact (nextStart_spec s _).1 j (lt_of_lt_of_le before (min_le_left _ _)) start
  · exact (nextStart_spec s _).1 j (lt_of_lt_of_le before (min_le_right _ _)) close

theorem appTag_nextApp (inside : nextApp s < s.length) : AppTag (s.drop (nextApp s)) := by
  rw [nextApp] at inside ⊢
  rcases min_choice (nextStart s (ascii "App")) (nextStart s (ascii "/App")) with first | first
  · rw [first] at inside ⊢
    exact Or.inl ((nextStart_spec s _).2 inside)
  · rw [first] at inside ⊢
    exact Or.inr ((nextStart_spec s _).2 inside)

theorem appTag_marked : Marked 60 AppTag := by
  rintro s (start | close)
  · exact startTag_marked s start
  · exact startTag_marked s close

/-- A start tag ends before the next mark. -/
theorem startTag_append_iff (free : 60 ∉ tag) (nonempty : s ≠ []) (next : AtMark 60 rest) :
    StartTag tag (s ++ rest) ↔ StartTag tag s := by
  constructor
  · rintro ⟨c, u, shape, ends⟩
    have other : 60 ≠ c := by
      rintro rfl
      contradiction
    have occurs : 60 :: (tag ++ [c]) <+: s ++ rest := ⟨u, by rw [shape]; simp⟩
    obtain ⟨v, rfl⟩ := prefix_inside (by simp [free, other]) nonempty next occurs
    exact ⟨c, v, by simp, ends⟩
  · rintro ⟨c, u, rfl, ends⟩
    exact ⟨c, u ++ rest, by simp, ends⟩

theorem appTag_append_iff (nonempty : s ≠ []) (next : AtMark 60 rest) :
    AppTag (s ++ rest) ↔ AppTag s :=
  or_congr (startTag_append_iff (by decide) nonempty next)
    (startTag_append_iff (by decide) nonempty next)

theorem block_split (xml : Bytes) (body : Nat) :
    ∃ tail, xml.drop body = block xml body ++ tail ∧ AtMark 60 tail := by
  refine ⟨(xml.drop body).drop ((find xml (ascii "</App>") body).getD xml.length - body), ?_, ?_⟩
  · rw [block, substr, List.take_append_drop]
  · cases close : find xml (ascii "</App>") body with
    | none =>
      rw [Option.getD_none, List.drop_eq_nil_of_le (by rw [List.length_drop])]
      exact atMark_nil
    | some i =>
      obtain ⟨low, -, occurs, -⟩ := find_eq_some.mp close
      have position : body + (i - body) = i := by omega
      rw [Option.getD_some, List.drop_drop, position]
      obtain ⟨tail, shape⟩ := occurs
      rw [← shape]
      exact atMark_cons

/-- A tag of an app that begins in a block ends in it. -/
theorem appTag_block {j : Nat} (inside : j < (block xml body).length) :
    AppTag (xml.drop (body + j)) ↔ AppTag ((block xml body).drop j) := by
  obtain ⟨tail, split, mark⟩ := block_split xml body
  have nonempty : (block xml body).drop j ≠ [] := by
    rw [Ne, List.drop_eq_nil_iff]
    omega
  rw [← List.drop_drop, split, List.drop_append_of_le_length (by omega), appTag_append_iff nonempty mark]

/-! ### Reading from the own part of a block -/

/-- The part of a block before the next tag of an app. -/
def ownPart (s : Bytes) : Bytes := s.take (nextApp s)

theorem ownPart_split (s : Bytes) : s = ownPart s ++ s.drop (nextApp s) :=
  (List.take_append_drop _ _).symm

/-- A read that ends before the next mark needs nothing behind it. -/
theorem xmlSpan_inside (isTag : IsTag tag) (next : AtMark 60 rest)
    (found : xmlSpan (s ++ rest) tag = some (a, c)) (inside : c < s.length) :
    xmlSpan s tag = some (a, c) := by
  obtain ⟨start, gt, startsAt, endsAt, unclosed, closesAt, rfl⟩ := xmlSpan_eq_some.mp found
  obtain ⟨low, -, occurs, -⟩ := find_eq_some.mp closesAt
  obtain ⟨after, -, -, -⟩ := find_eq_some.mp endsAt
  have free : 60 ∉ tag := fun member => (isTag.named 60 member).2 rfl
  have behind : ∀ i < s.length, (s ++ rest).drop i = s.drop i ++ rest ∧ s.drop i ≠ [] := by
    intro i before
    refine ⟨List.drop_append_of_le_length (by omega), ?_⟩
    rw [Ne, List.drop_eq_nil_iff]
    omega
  have startsHere : findStartTag s tag = some start := by
    cases startsAt' : findStartTag s tag with
    | some i => exact (findStartTag_append startsAt').symm.trans startsAt
    | none =>
      obtain ⟨-, here, -⟩ := findStartTagFrom_first startsAt
      obtain ⟨split, nonempty⟩ := behind start (by omega)
      rw [Nat.sub_zero, split, startTag_append_iff free nonempty next] at here
      exact absurd here (findStartTagFrom_absent startsAt' start)
  have closesHere : 60 :: 47 :: tag <+: s.drop c := by
    obtain ⟨split, nonempty⟩ := behind c inside
    exact prefix_inside (by simp [free]) nonempty next (split ▸ occurs)
  have fits := closesHere.length_le
  rw [List.length_drop] at fits
  have before : (s ++ rest)[gt - 1]? = s[gt - 1]? := List.getElem?_append_left (by omega)
  exact xmlSpan_eq_some.mpr ⟨start, gt, startsHere,
    find_of_append endsAt (by rw [List.length_singleton]; omega), before ▸ unclosed,
    find_of_append closesAt (by omega), rfl⟩

/-- The end tags of the fields belong to no app. -/
theorem not_appTag_close {field : Bytes} (isField : field = ascii "AppTitle" ∨ field = ascii "ID")
    (closes : 60 :: 47 :: field <+: s) : ¬ AppTag s := by
  obtain ⟨u, rfl⟩ := closes
  rintro (⟨c, v, shape, ends⟩ | ⟨c, v, shape, ends⟩)
  · rcases isField with rfl | rfl <;> cases shape
  · rcases isField with rfl | rfl
    · cases shape
      contradiction
    · cases shape

theorem field_isTag {field : Bytes} (isField : field = ascii "AppTitle" ∨ field = ascii "ID") :
    IsTag field := by
  rcases isField with rfl | rfl
  · exact isTag_title
  · exact isTag_id

/-- A field is read before the next tag of an app just if the own part has it. -/
theorem xmlSpan_ownPart {field : Bytes} (isField : field = ascii "AppTitle" ∨ field = ascii "ID") :
    xmlSpan (ownPart s) field = some (a, c) ↔
      xmlSpan s field = some (a, c) ∧ ∀ j < c, ¬ AppTag (s.drop j) := by
  constructor
  · intro found
    obtain ⟨start, gt, -, -, -, closesAt, -⟩ := xmlSpan_eq_some.mp found
    have inside := find_bound closesAt
    have short : (ownPart s).length ≤ nextApp s := List.length_take_le _ _
    refine ⟨?_, fun j before => not_appTag_before (by omega)⟩
    rw [ownPart_split s]
    exact xmlSpan_append found
  · rintro ⟨found, own⟩
    obtain ⟨start, gt, -, -, -, closesAt, -⟩ := xmlSpan_eq_some.mp found
    obtain ⟨-, -, closes, -⟩ := find_eq_some.mp closesAt
    have inside := (find_bound closesAt).2
    rw [List.length_cons] at inside
    have before : c < nextApp s := by
      by_contra after
      rcases Nat.lt_or_eq_of_le (not_lt.mp after) with earlier | same
      · exact own _ earlier (appTag_nextApp (by omega))
      · exact not_appTag_close isField closes (same ▸ appTag_nextApp (by omega))
    have mark : AtMark 60 (s.drop (nextApp s)) := by
      by_cases there : nextApp s < s.length
      · intro d head
        exact Option.some.inj (head.symm.trans (appTag_marked _ (appTag_nextApp there)))
      · rw [List.drop_eq_nil_of_le (not_lt.mp there)]
        exact atMark_nil
    rw [ownPart_split s] at found
    refine xmlSpan_inside (field_isTag isField) mark found ?_
    rw [ownPart, List.length_take]
    omega

/-! ### Whose fields an app has -/

/-- The fields of the entry are read between its start tag and the next tag of an app. -/
structure ReadsOwn (xml : Bytes) (body : Nat) : Prop where
  opened : ∃ start gt, StartTag (ascii "App") (xml.drop start) ∧ find xml [62] start = some gt ∧
    gt + 1 = body
  fields : ∀ field, field = ascii "AppTitle" ∨ field = ascii "ID" →
    ∃ a c, xmlSpan (block xml body) field = some (a, c) ∧
      ∀ j, body ≤ j → j < body + c → ¬ AppTag (xml.drop j)

/-- The part of a block before the next tag of an app has both fields. -/
def HasFields (s : Bytes) : Prop :=
  xmlText (ownPart s) (ascii "AppTitle") ≠ [] ∧ xmlText (ownPart s) (ascii "ID") ≠ []

theorem findAppBody_opened (found : findAppBody xml pos = some body) :
    ∃ start gt, StartTag (ascii "App") (xml.drop start) ∧ find xml [62] start = some gt ∧
      gt + 1 = body := by
  rw [findAppBody] at found
  cases startsAt : findStartTagFrom (ascii "<App") pos (xml.drop pos) with
  | none => simp [startsAt] at found
  | some start =>
    have first : findStartTagFrom (60 :: ascii "App") pos (xml.drop pos) = some start := startsAt
    obtain ⟨low, here, -⟩ := findStartTagFrom_first first
    have position : pos + (start - pos) = start := by omega
    rw [List.drop_drop, position] at here
    simp only [startsAt, Option.map_eq_some_iff] at found
    obtain ⟨gt, endsAt, last⟩ := found
    exact ⟨start, gt, here, endsAt, last⟩

theorem xmlSpan_of_text (found : xmlText s tag ≠ []) : ∃ a c, xmlSpan s tag = some (a, c) := by
  rw [xmlText_eq] at found
  cases span : xmlSpan s tag with
  | none =>
    rw [span] at found
    exact absurd rfl found
  | some r => exact ⟨r.1, r.2, rfl⟩

/-- Of a usable block both fields are read. -/
theorem usable_text (usable : Usable (readApp s)) {field : Bytes}
    (isField : field = ascii "AppTitle" ∨ field = ascii "ID") : xmlText s field ≠ [] := by
  rcases isField with rfl | rfl
  · exact usable.2
  · intro empty
    have zero : (readApp s).id = 0 := by
      rw [readApp, empty]
      rfl
    have positive := usable.1
    omega

/-- The own part of a block has a field just if the field is read from it. -/
theorem ownPart_text {field : Bytes} (isField : field = ascii "AppTitle" ∨ field = ascii "ID")
    (text : xmlText s field ≠ []) : xmlText (ownPart s) field ≠ [] ↔
      ∃ a c, xmlSpan s field = some (a, c) ∧ ∀ j < c, ¬ AppTag (s.drop j) := by
  constructor
  · intro own
    obtain ⟨a, c, span⟩ := xmlSpan_of_text own
    exact ⟨a, c, (xmlSpan_ownPart isField).mp span⟩
  · rintro ⟨a, c, own⟩
    have span := (xmlSpan_ownPart isField).mpr own
    obtain ⟨start, gt, -, -, -, closesAt, -⟩ := xmlSpan_eq_some.mp span
    have inside := (find_bound closesAt).2
    have low := (find_bound closesAt).1
    have same : xmlText s field = xmlText (ownPart s) field := by
      rw [xmlText_eq, xmlText_eq, own.1, span]
      refine congrArg decodeEntities ?_
      nth_rewrite 1 [ownPart_split s]
      exact substr_append (by omega)
    rwa [← same]

theorem readsOwn_iff (entered : Entered xml body) (usable : Usable (readApp (block xml body))) :
    ReadsOwn xml body ↔ HasFields (block xml body) := by
  obtain ⟨pos, -, found⟩ := entered
  have positions : ∀ c ≤ (block xml body).length,
      (∀ j, body ≤ j → j < body + c → ¬ AppTag (xml.drop j)) ↔
        ∀ j < c, ¬ AppTag ((block xml body).drop j) := by
    intro c inside
    constructor
    · intro own j before here
      exact own (body + j) (by omega) (by omega) ((appTag_block (by omega)).mpr here)
    · intro own j low high here
      have position : body + (j - body) = j := by omega
      rw [← position, appTag_block (by omega)] at here
      exact own (j - body) (by omega) here
  have field : ∀ name, name = ascii "AppTitle" ∨ name = ascii "ID" →
      ((∃ a c, xmlSpan (block xml body) name = some (a, c) ∧
        ∀ j, body ≤ j → j < body + c → ¬ AppTag (xml.drop j)) ↔
          xmlText (ownPart (block xml body)) name ≠ []) := by
    intro name isField
    rw [ownPart_text isField (usable_text usable isField)]
    refine exists_congr fun a => exists_congr fun c => and_congr_right fun span => ?_
    obtain ⟨start, gt, -, -, -, closesAt, -⟩ := xmlSpan_eq_some.mp span
    have inside := (find_bound closesAt).2
    exact positions c (by omega)
  constructor
  · intro own
    exact ⟨(field _ (Or.inl rfl)).mp (own.fields _ (Or.inl rfl)),
      (field _ (Or.inr rfl)).mp (own.fields _ (Or.inr rfl))⟩
  · rintro ⟨title, id⟩
    refine ⟨findAppBody_opened found, fun name isField => (field name isField).mpr ?_⟩
    rcases isField with rfl | rfl
    · exact title
    · exact id

/-- The entry is not closed before another tag of an app, lacks a field of its own, and is read as
usable with what is behind that tag. -/
structure Overreaches (xml : Bytes) (body : Nat) : Prop where
  reaches : ∃ j < (block xml body).length, AppTag (xml.drop (body + j))
  lacks : xmlText (ownPart (block xml body)) (ascii "AppTitle") = [] ∨
    xmlText (ownPart (block xml body)) (ascii "ID") = []
  usable : Usable (readApp (block xml body))

theorem ownPart_whole (closed : ∀ j < s.length, ¬ AppTag (s.drop j)) : ownPart s = s := by
  refine List.take_of_length_le (not_lt.mp fun inside => ?_)
  exact closed _ inside (appTag_nextApp inside)

/-- An entry that reaches over no tag of an app has its fields if they are read. -/
theorem hasFields_iff (usable : Usable (readApp (block xml body))) :
    HasFields (block xml body) ↔ ¬ Overreaches xml body := by
  constructor
  · intro fields overreaches
    rcases overreaches.lacks with title | id
    · exact fields.1 title
    · exact fields.2 id
  · intro within
    by_contra lacks
    refine within ⟨?_, by simpa [HasFields, or_iff_not_imp_left] using lacks, usable⟩
    by_contra closed
    have whole : ownPart (block xml body) = block xml body :=
      ownPart_whole fun j inside here => closed ⟨j, inside, (appTag_block inside).mpr here⟩
    rw [HasFields, whole] at lacks
    exact lacks ⟨usable_text usable (Or.inl rfl), usable_text usable (Or.inr rfl)⟩

/-- Each app has its title and its id from one entry just if no entry is left open, without a field of
its own, and finds that field behind the next tag of an app. -/
theorem parseAppList_own_iff (xml : Bytes) :
    (∀ app ∈ parseAppList xml, ∀ body, ReadFrom xml body app → ReadsOwn xml body) ↔
      ∀ body, Entered xml body → ¬ Overreaches xml body := by
  constructor
  · intro own body entered overreaches
    have usable := overreaches.usable
    have read : ReadFrom xml body (readApp (block xml body)) := ⟨entered, usable, rfl⟩
    have complete := (readsOwn_iff entered usable).mp
      (own _ ((mem_parseAppList _).mpr ⟨body, read⟩) body read)
    exact (hasFields_iff usable).mp complete overreaches
  · intro within app _ body read
    exact (readsOwn_iff read.entered read.usable).mpr
      ((hasFields_iff read.usable).mpr (within body read.entered))

/-- The first entry is left open and has no id. -/
def openEntry : Bytes := ascii "<App><AppTitle>A</AppTitle><App><ID>5</ID></App>"

theorem open_entry_completed : parseAppList openEntry = [⟨5, ascii "A", false⟩] ∧
    ¬ ∀ app ∈ parseAppList openEntry, ∀ body, ReadFrom openEntry body app →
      ReadsOwn openEntry body := by
  have entered : Entered openEntry 5 := ⟨0, .refl, by decide⟩
  have usable : Usable (readApp (block openEntry 5)) := by decide
  refine ⟨by decide, fun own => ?_⟩
  have read : ReadFrom openEntry 5 (readApp (block openEntry 5)) := ⟨entered, usable, rfl⟩
  have complete := (readsOwn_iff entered usable).mp
    (own _ ((mem_parseAppList _).mpr ⟨5, read⟩) 5 read)
  exact complete.2 (by decide)

end StreamEngine.Net

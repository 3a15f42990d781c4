import StreamEngine.Library.NumberText
import StreamEngine.Library.Utf8

/-! JSON texts. A spelling says what may stand between the quotes of a string and what
a number looks like; the grammar around them is that of RFC 8259, section 2. Whatever
the spelling, a text has at most one division into tokens. -/
namespace JsonText
open ByteString Decimal

/-- A document as it is written, with the members of an object in text order. -/
inductive Document (S N : Type) where
  | null
  | bool (b : Bool)
  | num (n : N)
  | str (s : S)
  | arr (items : List (Document S N))
  | obj (members : List (S × Document S N))

/-- A value, or what stands between the brackets of one. -/
inductive Part (S N : Type) where
  | value (d : Document S N)
  | items (ds : List (Document S N))
  | members (ms : List (S × Document S N))

/-- The text of a string between its quotes and the text of a number. -/
structure Spelling (S N : Type) where
  string : Bytes → S → Prop
  number : Bytes → N → Prop

def isBlank (c : UInt8) : Bool := c == 32 || c == 9 || c == 10 || c == 13

def Blank (w : Bytes) : Prop := ∀ c ∈ w, isBlank c = true

variable {S N S' N' : Type}

/-- Blanks stand around the items, keys and values of a bracket, and belong to it. -/
inductive Derives (sp : Spelling S N) : Part S N → Bytes → Prop where
  | null : Derives sp (.value .null) (ascii "null")
  | wordTrue : Derives sp (.value (.bool true)) (ascii "true")
  | wordFalse : Derives sp (.value (.bool false)) (ascii "false")
  | number {t n} (spelled : sp.number t n) : Derives sp (.value (.num n)) t
  | text {t s} (spelled : sp.string t s) : Derives sp (.value (.str s)) (34 :: (t ++ [34]))
  | emptyArray {w} (blank : Blank w) : Derives sp (.value (.arr [])) (91 :: (w ++ [93]))
  | array {t ds} (items : Derives sp (.items ds) t) :
      Derives sp (.value (.arr ds)) (91 :: (t ++ [93]))
  | emptyObject {w} (blank : Blank w) : Derives sp (.value (.obj [])) (123 :: (w ++ [125]))
  | object {t ms} (members : Derives sp (.members ms) t) :
      Derives sp (.value (.obj ms)) (123 :: (t ++ [125]))
  | lastItem {w t w' d} (before : Blank w) (here : Derives sp (.value d) t) (after : Blank w') :
      Derives sp (.items [d]) (w ++ (t ++ w'))
  | item {w t w' t' d ds} (before : Blank w) (here : Derives sp (.value d) t) (after : Blank w')
      (others : Derives sp (.items ds) t') :
      Derives sp (.items (d :: ds)) (w ++ (t ++ (w' ++ 44 :: t')))
  | lastMember {w k w₁ w₂ t w' key d} (before : Blank w) (spelled : sp.string k key)
      (colon : Blank w₁) (value : Blank w₂) (here : Derives sp (.value d) t) (after : Blank w') :
      Derives sp (.members [(key, d)])
        (w ++ 34 :: (k ++ 34 :: (w₁ ++ 58 :: (w₂ ++ (t ++ w')))))
  | member {w k w₁ w₂ t w' t' key d ms} (before : Blank w) (spelled : sp.string k key)
      (colon : Blank w₁) (value : Blank w₂) (here : Derives sp (.value d) t) (after : Blank w')
      (others : Derives sp (.members ms) t') :
      Derives sp (.members ((key, d) :: ms))
        (w ++ 34 :: (k ++ 34 :: (w₁ ++ 58 :: (w₂ ++ (t ++ (w' ++ 44 :: t'))))))

/-- A whole text: one value with blanks around it. -/
def Text (sp : Spelling S N) (t : Bytes) (d : Document S N) : Prop :=
  ∃ w s w', Blank w ∧ Derives sp (.value d) s ∧ Blank w' ∧ t = w ++ (s ++ w')

/-! ### Tokens of a document -/

mutual
def Document.map (f : S → S') (g : N → N') : Document S N → Document S' N'
  | .null => .null
  | .bool b => .bool b
  | .num n => .num (g n)
  | .str s => .str (f s)
  | .arr items => .arr (mapItems f g items)
  | .obj members => .obj (mapMembers f g members)

def mapItems (f : S → S') (g : N → N') : List (Document S N) → List (Document S' N')
  | [] => []
  | d :: ds => d.map f g :: mapItems f g ds

def mapMembers (f : S → S') (g : N → N') :
    List (S × Document S N) → List (S' × Document S' N')
  | [] => []
  | (k, d) :: ms => (f k, d.map f g) :: mapMembers f g ms
end

mutual
/-- Every string and key satisfies `P` and every number `Q`. -/
def Document.All (P : S → Prop) (Q : N → Prop) : Document S N → Prop
  | .null => True
  | .bool _ => True
  | .num n => Q n
  | .str s => P s
  | .arr items => AllItems P Q items
  | .obj members => AllMembers P Q members

def AllItems (P : S → Prop) (Q : N → Prop) : List (Document S N) → Prop
  | [] => True
  | d :: ds => d.All P Q ∧ AllItems P Q ds

def AllMembers (P : S → Prop) (Q : N → Prop) : List (S × Document S N) → Prop
  | [] => True
  | (k, d) :: ms => P k ∧ d.All P Q ∧ AllMembers P Q ms
end

namespace Part

def map (f : S → S') (g : N → N') : Part S N → Part S' N'
  | .value d => .value (d.map f g)
  | .items ds => .items (mapItems f g ds)
  | .members ms => .members (mapMembers f g ms)

def All (P : S → Prop) (Q : N → Prop) : Part S N → Prop
  | .value d => d.All P Q
  | .items ds => AllItems P Q ds
  | .members ms => AllMembers P Q ms

end Part

theorem Derives.map {sp : Spelling S N} {sp' : Spelling S' N'} {f : S → S'} {g : N → N'}
    (strings : ∀ t s, sp.string t s → sp'.string t (f s))
    (numbers : ∀ t n, sp.number t n → sp'.number t (g n)) {part : Part S N} {t : Bytes}
    (derives : Derives sp part t) : Derives sp' (part.map f g) t := by
  induction derives with
  | null => simpa only [Part.map, Document.map] using Derives.null
  | wordTrue => simpa only [Part.map, Document.map] using Derives.wordTrue
  | wordFalse => simpa only [Part.map, Document.map] using Derives.wordFalse
  | number spelled =>
    simpa only [Part.map, Document.map] using Derives.number (numbers _ _ spelled)
  | text spelled => simpa only [Part.map, Document.map] using Derives.text (strings _ _ spelled)
  | emptyArray blank =>
    simpa only [Part.map, Document.map, mapItems] using Derives.emptyArray blank
  | array _ ih => simpa only [Part.map, Document.map] using Derives.array ih
  | emptyObject blank =>
    simpa only [Part.map, Document.map, mapMembers] using Derives.emptyObject blank
  | object _ ih => simpa only [Part.map, Document.map] using Derives.object ih
  | lastItem before _ after ih =>
    simpa only [Part.map, mapItems] using Derives.lastItem before ih after
  | item before _ after _ first others =>
    simpa only [Part.map, mapItems] using Derives.item before first after others
  | lastMember before spelled colon value _ after ih =>
    simpa only [Part.map, mapMembers] using
      Derives.lastMember before (strings _ _ spelled) colon value ih after
  | member before spelled colon value _ after _ first others =>
    simpa only [Part.map, mapMembers] using
      Derives.member before (strings _ _ spelled) colon value first after others

/-- The part of a document that a part of another is spelled by. -/
def Part.Respelled (sp : Spelling S' N') : Part S N → Bytes → Prop
  | .value _, t => ∃ d, Derives sp (.value d) t
  | .items _, t => ∃ ds, Derives sp (.items ds) t
  | .members _, t => ∃ ms, Derives sp (.members ms) t

/-- A text whose tokens another spelling admits is a text of that spelling. -/
theorem Derives.respell {sp : Spelling S N} {sp' : Spelling S' N'} {P : S → Prop} {Q : N → Prop}
    (strings : ∀ t s, sp.string t s → P s → ∃ s', sp'.string t s')
    (numbers : ∀ t n, sp.number t n → Q n → ∃ n', sp'.number t n') {part : Part S N} {t : Bytes}
    (derives : Derives sp part t) (all : part.All P Q) : part.Respelled sp' t := by
  induction derives with
  | null => exact ⟨_, .null⟩
  | wordTrue => exact ⟨_, .wordTrue⟩
  | wordFalse => exact ⟨_, .wordFalse⟩
  | number spelled =>
    rw [Part.All, Document.All] at all
    obtain ⟨n, spelled⟩ := numbers _ _ spelled all
    exact ⟨_, .number spelled⟩
  | text spelled =>
    rw [Part.All, Document.All] at all
    obtain ⟨s, spelled⟩ := strings _ _ spelled all
    exact ⟨_, .text spelled⟩
  | emptyArray blank => exact ⟨_, .emptyArray blank⟩
  | array _ ih =>
    rw [Part.All, Document.All] at all
    obtain ⟨ds, items⟩ := ih all
    exact ⟨_, .array items⟩
  | emptyObject blank => exact ⟨_, .emptyObject blank⟩
  | object _ ih =>
    rw [Part.All, Document.All] at all
    obtain ⟨ms, members⟩ := ih all
    exact ⟨_, .object members⟩
  | lastItem before _ after ih =>
    rw [Part.All, AllItems] at all
    obtain ⟨d, here⟩ := ih all.1
    exact ⟨_, .lastItem before here after⟩
  | item before _ after _ first others =>
    rw [Part.All, AllItems] at all
    obtain ⟨d, here⟩ := first all.1
    obtain ⟨ds, rest⟩ := others all.2
    exact ⟨_, .item before here after rest⟩
  | lastMember before spelled colon value _ after ih =>
    rw [Part.All, AllMembers] at all
    obtain ⟨key, spelled⟩ := strings _ _ spelled all.1
    obtain ⟨d, here⟩ := ih all.2.1
    exact ⟨_, .lastMember before spelled colon value here after⟩
  | member before spelled colon value _ after _ first others =>
    rw [Part.All, AllMembers] at all
    obtain ⟨key, spelled⟩ := strings _ _ spelled all.1
    obtain ⟨d, here⟩ := first all.2.1
    obtain ⟨ms, rest⟩ := others all.2.2
    exact ⟨_, .member before spelled colon value here after rest⟩

/-- Every token of a document was spelled. -/
theorem Derives.all {sp : Spelling S N} {part : Part S N} {t : Bytes}
    (derives : Derives sp part t) :
    part.All (fun s => ∃ t, sp.string t s) (fun n => ∃ t, sp.number t n) := by
  induction derives with
  | null | wordTrue | wordFalse => rw [Part.All, Document.All]; trivial
  | number spelled | text spelled => rw [Part.All, Document.All]; exact ⟨_, spelled⟩
  | emptyArray => rw [Part.All, Document.All, AllItems]; trivial
  | array _ ih | object _ ih => rw [Part.All, Document.All]; exact ih
  | emptyObject => rw [Part.All, Document.All, AllMembers]; trivial
  | lastItem _ _ _ ih => rw [Part.All, AllItems, AllItems]; exact ⟨ih, trivial⟩
  | item _ _ _ _ first others => rw [Part.All, AllItems]; exact ⟨first, others⟩
  | lastMember _ spelled _ _ _ _ ih =>
    rw [Part.All, AllMembers, AllMembers]
    exact ⟨⟨_, spelled⟩, ih, trivial⟩
  | member _ spelled _ _ _ _ _ first others =>
    rw [Part.All, AllMembers]
    exact ⟨⟨_, spelled⟩, first, others⟩

mutual
theorem Document.all_map {f : S → S'} {g : N → N'} {P : S' → Prop} {Q : N' → Prop} :
    ∀ d : Document S N, (d.map f g).All P Q ↔ d.All (fun s => P (f s)) (fun n => Q (g n))
  | .null | .bool _ | .num _ | .str _ => by simp only [Document.map, Document.All]
  | .arr items => by simpa only [Document.map, Document.All] using allItems_map items
  | .obj members => by simpa only [Document.map, Document.All] using allMembers_map members

theorem allItems_map {f : S → S'} {g : N → N'} {P : S' → Prop} {Q : N' → Prop} :
    ∀ ds : List (Document S N),
      AllItems P Q (mapItems f g ds) ↔ AllItems (fun s => P (f s)) (fun n => Q (g n)) ds
  | [] => by simp only [mapItems, AllItems]
  | d :: ds => by simp only [mapItems, AllItems, Document.all_map d, allItems_map ds]

theorem allMembers_map {f : S → S'} {g : N → N'} {P : S' → Prop} {Q : N' → Prop} :
    ∀ ms : List (S × Document S N),
      AllMembers P Q (mapMembers f g ms) ↔ AllMembers (fun s => P (f s)) (fun n => Q (g n)) ms
  | [] => by simp only [mapMembers, AllMembers]
  | (k, d) :: ms => by simp only [mapMembers, AllMembers, Document.all_map d, allMembers_map ms]
end

mutual
theorem Document.All.imp₂ {P P' P'' : S → Prop} {Q Q' Q'' : N → Prop}
    (strings : ∀ s, P s → P' s → P'' s) (numbers : ∀ n, Q n → Q' n → Q'' n) :
    ∀ {d : Document S N}, d.All P Q → d.All P' Q' → d.All P'' Q''
  | .null, _, _ => trivial
  | .bool _, _, _ => trivial
  | .num n, left, right => numbers n left right
  | .str s, left, right => strings s left right
  | .arr _, left, right => allItems_imp₂ strings numbers left right
  | .obj _, left, right => allMembers_imp₂ strings numbers left right

theorem allItems_imp₂ {P P' P'' : S → Prop} {Q Q' Q'' : N → Prop}
    (strings : ∀ s, P s → P' s → P'' s) (numbers : ∀ n, Q n → Q' n → Q'' n) :
    ∀ {ds : List (Document S N)}, AllItems P Q ds → AllItems P' Q' ds → AllItems P'' Q'' ds
  | [], _, _ => trivial
  | _ :: _, left, right =>
    ⟨left.1.imp₂ strings numbers right.1, allItems_imp₂ strings numbers left.2 right.2⟩

theorem allMembers_imp₂ {P P' P'' : S → Prop} {Q Q' Q'' : N → Prop}
    (strings : ∀ s, P s → P' s → P'' s) (numbers : ∀ n, Q n → Q' n → Q'' n) :
    ∀ {ms : List (S × Document S N)},
      AllMembers P Q ms → AllMembers P' Q' ms → AllMembers P'' Q'' ms
  | [], _, _ => trivial
  | (k, _) :: _, left, right =>
    ⟨strings k left.1 right.1, left.2.1.imp₂ strings numbers right.2.1,
      allMembers_imp₂ strings numbers left.2.2 right.2.2⟩
end

/-! ### Whole texts -/

variable {sp : Spelling S N} {sp' : Spelling S' N'} {t : Bytes} {d : Document S N}

theorem Text.map {f : S → S'} {g : N → N'} (strings : ∀ t s, sp.string t s → sp'.string t (f s))
    (numbers : ∀ t n, sp.number t n → sp'.number t (g n)) (text : Text sp t d) :
    Text sp' t (d.map f g) := by
  obtain ⟨w, s, w', before, here, after, rfl⟩ := text
  exact ⟨w, s, w', before, here.map strings numbers, after, rfl⟩

theorem Text.respell {P : S → Prop} {Q : N → Prop}
    (strings : ∀ t s, sp.string t s → P s → ∃ s', sp'.string t s')
    (numbers : ∀ t n, sp.number t n → Q n → ∃ n', sp'.number t n') (text : Text sp t d)
    (all : d.All P Q) : ∃ d', Text sp' t d' := by
  obtain ⟨w, s, w', before, here, after, rfl⟩ := text
  obtain ⟨d', there⟩ := here.respell strings numbers all
  exact ⟨d', w, s, w', before, there, after, rfl⟩

theorem Text.all (text : Text sp t d) :
    d.All (fun s => ∃ t, sp.string t s) (fun n => ∃ t, sp.number t n) := by
  obtain ⟨w, s, w', before, here, after, rfl⟩ := text
  exact here.all

end JsonText

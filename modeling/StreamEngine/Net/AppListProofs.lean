import StreamEngine.Library.Digits
import StreamEngine.Net.AppList
import StreamEngine.Net.XmlElements

/-! Reading back a rendered app list. The scan stands at the end of one entry and the text up to
the next one opens no `App`, so every entry is read from its own block. -/
namespace StreamEngine.Net
open ByteString Decimal

/-! ### Titles -/

def entities : List (UInt8 × Bytes) :=
  [(38, ascii "&amp;"), (60, ascii "&lt;"), (62, ascii "&gt;"), (34, ascii "&quot;"),
    (39, ascii "&apos;")]

/-- A byte string and a spelling of it in which `&` and `<` are escaped. -/
inductive Escapes : Bytes → Bytes → Prop where
  | nil : Escapes [] []
  | plain {c s t} (amp : c ≠ 38) (lt : c ≠ 60) (rest : Escapes s t) : Escapes (c :: s) (c :: t)
  | escaped {c name s t} (predefined : (c, name) ∈ entities) (rest : Escapes s t) :
      Escapes (c :: s) (name ++ t)

theorem entity_predefined {c : UInt8} {name : Bytes} (predefined : (c, name) ∈ entities) (s : Bytes) :
    entity (name ++ s) = some (c, name.length) ∧ name ≠ [] := by
  simp only [entities, List.mem_cons, Prod.mk.injEq, List.not_mem_nil, or_false] at predefined
  rcases predefined with ⟨rfl, rfl⟩ | ⟨rfl, rfl⟩ | ⟨rfl, rfl⟩ | ⟨rfl, rfl⟩ | ⟨rfl, rfl⟩ <;>
    exact ⟨rfl, by decide⟩

theorem decodeEntitiesFrom_skip (u s : Bytes) :
    decodeEntitiesFrom u.length (u ++ s) = decodeEntitiesFrom 0 s := by
  induction u with
  | nil => rfl
  | cons c u ih => exact ih

/-- Decoding undoes escaping, with whatever entities. -/
theorem decodeEntities_escapes {s t : Bytes} (escapes : Escapes s t) : decodeEntities t = s := by
  induction escapes with
  | nil => rfl
  | plain amp _ _ ih => rw [decodeEntities_cons amp, ih]
  | @escaped c name s t predefined _ ih =>
    obtain ⟨decoded, nonempty⟩ := entity_predefined predefined t
    obtain ⟨d, tail, rfl⟩ := List.exists_cons_of_ne_nil nonempty
    rw [List.cons_append] at decoded ⊢
    rw [decodeEntities, decodeEntitiesFrom, decoded]
    exact congrArg _ ((decodeEntitiesFrom_skip tail t).trans ih)

/-! ### Entries -/

/-- An app of the host, each of its fields optional. -/
structure App where
  title : Option Bytes
  id : Option Nat
  hdr : Option Bool

/-- What a client can make of the app. -/
def App.usable (a : App) : Option AppInfo :=
  match a.id, a.title with
  | some n, some title =>
    if 0 < n ∧ title ≠ [] then some ⟨n, title, a.hdr = some true⟩ else none
  | _, _ => none

def SpellsId (n : Nat) (text : Bytes) : Prop :=
  text ≠ [] ∧ (∀ c ∈ text, isDigit c = true) ∧ digitsValue text = n ∧ n < 2 ^ 31

def SpellsFlag (on : Bool) (text : Bytes) : Prop := text = if on then [49] else [48]

/-- One child for each field that is there, in any order and among others. -/
structure Describes (children : List Element) (a : App) : Prop where
  flat : ∀ e ∈ children, e.name ≠ ascii "App"
  title : List.Forall₂ Escapes a.title.toList (childContents (ascii "AppTitle") children)
  id : List.Forall₂ SpellsId a.id.toList (childContents (ascii "ID") children)
  hdr : List.Forall₂ SpellsFlag a.hdr.toList (childContents (ascii "IsHdrSupported") children)

/-- An `App` element, and the text up to the next tag. -/
structure Entry where
  attributes : Bytes
  opening : Bytes
  children : List Element
  gap : Bytes
  spaced : ∀ c, attributes.head? = some c → isSpace c = true
  plain : 60 ∉ attributes ∧ 62 ∉ attributes
  flatOpening : 60 ∉ opening
  flatGap : 60 ∉ gap

def Entry.startTag (e : Entry) : Bytes := 60 :: (ascii "App" ++ e.attributes) ++ [62]

def Entry.block (e : Entry) : Bytes := e.opening ++ e.children.flatMap Element.text

def Entry.text (e : Entry) : Bytes := e.startTag ++ (e.block ++ (endTag (ascii "App") ++ e.gap))

/-- An applist document: an XML declaration if there is one, and the root with its entries. -/
structure Document where
  declaration : Option Bytes
  attributes : Bytes
  opening : Bytes
  entries : List Entry
  epilog : Bytes
  flatDeclaration : ∀ t, declaration = some t → 60 ∉ t
  flatAttributes : 60 ∉ attributes
  flatOpening : 60 ∉ opening
  flatEpilog : 60 ∉ epilog

def Document.head (d : Document) : Bytes :=
  ((d.declaration.map fun t => 60 :: 63 :: t).getD []) ++
    60 :: (ascii "root" ++ (d.attributes ++ 62 :: d.opening))

def Document.tail (d : Document) : Bytes := 60 :: (47 :: (ascii "root" ++ 62 :: d.epilog))

def Document.text (d : Document) : Bytes := d.head ++ (d.entries.flatMap Entry.text ++ d.tail)

/-! ### One entry -/

theorem isTag_of_all {tag : Bytes} (all : (tag.all fun c => !endsName c && c != 60) = true)
    (nonempty : tag ≠ []) : IsTag tag := by
  refine ⟨fun c member => ?_, nonempty⟩
  have here := List.all_eq_true.mp all c member
  rw [Bool.and_eq_true, Bool.not_eq_true', bne_iff_ne] at here
  exact here

theorem isTag_app : IsTag (ascii "App") := isTag_of_all (by decide) (by decide)

theorem isTag_title : IsTag (ascii "AppTitle") := isTag_of_all (by decide) (by decide)

theorem isTag_id : IsTag (ascii "ID") := isTag_of_all (by decide) (by decide)

theorem isTag_hdr : IsTag (ascii "IsHdrSupported") :=
  isTag_of_all (by decide) (by decide)

/-- The only child of a name, if there is one. -/
theorem xmlText_field {α : Type} {R : α → Bytes → Prop} {tag opening : Bytes} {field : Option α}
    {children : List Element} (isTag : IsTag tag) (flat : 60 ∉ opening)
    (there : List.Forall₂ R field.toList (childContents tag children)) :
    field = none ∧ xmlText (opening ++ children.flatMap Element.text) tag = [] ∨
      ∃ a content, field = some a ∧ R a content ∧
        xmlText (opening ++ children.flatMap Element.text) tag = decodeEntities content := by
  rw [xmlText_children isTag (clear_free startTag_marked flat)]
  generalize childContents tag children = texts at there
  cases field with
  | none =>
    cases there
    exact Or.inl ⟨rfl, rfl⟩
  | some a =>
    cases there with
    | cons first rest =>
      cases rest
      exact Or.inr ⟨a, _, rfl, first, rfl⟩

theorem readApp_block {e : Entry} {a : App} (describes : Describes e.children a) :
    readApp e.block = ⟨((a.id.getD 0 : Nat) : Int), a.title.getD [], a.hdr.getD false⟩ := by
  have title : xmlText e.block (ascii "AppTitle") = a.title.getD [] := by
    rcases xmlText_field isTag_title e.flatOpening describes.title with
      ⟨absent, text⟩ | ⟨title, content, there, escapes, text⟩
    · rw [Entry.block, text, absent]
      rfl
    · rw [Entry.block, text, there, decodeEntities_escapes escapes]
      rfl
  have id : atoi (xmlText e.block (ascii "ID")) = ((a.id.getD 0 : Nat) : Int) := by
    rcases xmlText_field isTag_id e.flatOpening describes.id with
      ⟨absent, text⟩ | ⟨n, content, there, ⟨-, digits, value, small⟩, text⟩
    · rw [Entry.block, text, absent]
      decide
    · have plain : 38 ∉ content := fun member => absurd (digits 38 member) (by decide)
      rw [Entry.block, text, there, decodeEntities_plain plain, atoi_digits digits (by omega), value]
      rfl
  have hdr : (xmlText e.block (ascii "IsHdrSupported") == ascii "1") = a.hdr.getD false := by
    rcases xmlText_field isTag_hdr e.flatOpening describes.hdr with
      ⟨absent, text⟩ | ⟨on, content, there, flag, text⟩
    · rw [Entry.block, text, absent]
      decide
    · rw [Entry.block, text, there, flag]
      cases on <;> decide
  rw [readApp, title, id, hdr]

/-- The test of `parse_app_list` on what it read. -/
theorem usable_readApp {e : Entry} {a : App} (describes : Describes e.children a)
    (apps : List AppInfo) :
    (if 0 < (readApp e.block).id ∧ (readApp e.block).title ≠ [] then apps ++ [readApp e.block]
      else apps) = apps ++ a.usable.toList := by
  rw [readApp_block describes, App.usable]
  rcases a with ⟨title, id, hdr⟩
  rcases id with - | n
  · simp
  · rcases title with - | title
    · simp
    · by_cases usable : 0 < n ∧ title ≠ []
      · cases hdr <;> simp [usable]
      · simp only [Option.getD_some, Int.natCast_pos, if_neg usable, Option.toList_none,
          List.append_nil]

/-! ### The scan -/

variable {pre s rest : Bytes}

theorem Entry.startTag_opens (e : Entry) (rest : Bytes) :
    StartTag (ascii "App") (e.startTag ++ rest) := by
  cases shape : e.attributes with
  | nil => exact ⟨62, rest, by simp [Entry.startTag, shape], rfl⟩
  | cons c attributes =>
    have space : isSpace c = true := e.spaced c (by rw [shape]; rfl)
    refine ⟨c, attributes ++ 62 :: rest, by simp [Entry.startTag, shape], ?_⟩
    rw [endsName, space, Bool.or_true]

/-- The scan goes on to the next entry. -/
theorem findAppBody_entry (clear : Clear 60 (StartTag (ascii "App")) s) (e : Entry) :
    findAppBody (pre ++ s ++ (e.startTag ++ rest)) pre.length =
      some (pre ++ s ++ e.startTag).length := by
  have here := e.startTag_opens rest
  have mark : AtMark 60 (e.startTag ++ rest) := atMark_cons
  have start : findStartTagFrom (ascii "<App") pre.length
      ((pre ++ s ++ (e.startTag ++ rest)).drop pre.length) = some (pre ++ s).length := by
    rw [List.append_assoc, List.drop_left, List.length_append]
    exact (findStartTagFrom_skip clear mark).trans (findStartTagFrom_here here)
  have free : 62 ∉ 60 :: (ascii "App" ++ e.attributes) := by
    have name : 62 ∉ ascii "App" := isTag_app.named.free rfl
    simp [name, e.plain.2]
  have shape : pre ++ s ++ (e.startTag ++ rest) =
      pre ++ s ++ (60 :: (ascii "App" ++ e.attributes)) ++ [62] ++ rest := by
    simp only [Entry.startTag, List.append_assoc]
  have gt : find (pre ++ s ++ (e.startTag ++ rest)) [62] (pre ++ s).length =
      some ((pre ++ s).length + (60 :: (ascii "App" ++ e.attributes)).length) := by
    rw [shape]
    exact find_end rfl free
  have length : (pre ++ s ++ e.startTag).length =
      (pre ++ s).length + (60 :: (ascii "App" ++ e.attributes)).length + 1 := by
    simp only [Entry.startTag, List.length_append, List.length_singleton, Nat.add_assoc]
  rw [findAppBody, start]
  simp only [gt, Option.map_some, length]

theorem findAppBody_clear (clear : Clear 60 (StartTag (ascii "App")) s) :
    findAppBody (pre ++ s) pre.length = none := by
  have start : findStartTagFrom (ascii "<App") pre.length ((pre ++ s).drop pre.length) = none := by
    rw [List.drop_left]
    exact findStartTagFrom_clear clear
  rw [findAppBody, start]

/-- The end of an entry is its own end tag: its children have other names. -/
theorem find_close {e : Entry} (flat : ∀ c ∈ e.children, c.name ≠ ascii "App") :
    find (pre ++ e.block ++ (endTag (ascii "App") ++ rest)) (ascii "</App>") pre.length =
      some (pre ++ e.block).length := by
  have children := Clear.flatMap (l := e.children)
    (fun c member => Element.clear_end c isTag_app (flat c member)) fun c _ => c.atMark
  have clear : Clear 60 (ascii "</App>" <+: ·) e.block :=
    (clear_free (marked_needle rfl) e.flatOpening).append children.1 children.2
  have mark : AtMark 60 (endTag (ascii "App") ++ rest) := atMark_cons
  have here : ascii "</App>" <+: endTag (ascii "App") ++ rest := List.prefix_append _ _
  rw [find_skip clear mark, ← List.length_append]
  exact find_here here

/-- One turn of the loop reads one entry. -/
theorem parseAppStep_entry (clear : Clear 60 (StartTag (ascii "App")) s) {e : Entry} {a : App}
    (describes : Describes e.children a) (apps : List AppInfo) :
    parseAppStep (pre ++ s ++ (e.text ++ rest)) (pre.length, apps) =
      .inl ((pre ++ s ++ e.startTag ++ e.block ++ endTag (ascii "App")).length,
        apps ++ a.usable.toList) := by
  have body : findAppBody (pre ++ s ++ (e.text ++ rest)) pre.length =
      some (pre ++ s ++ e.startTag).length := by
    rw [Entry.text, List.append_assoc e.startTag]
    exact findAppBody_entry clear e
  have shape : pre ++ s ++ (e.text ++ rest) =
      pre ++ s ++ e.startTag ++ e.block ++ (endTag (ascii "App") ++ (e.gap ++ rest)) := by
    simp only [Entry.text, List.append_assoc]
  have close : find (pre ++ s ++ e.startTag ++ e.block ++ (endTag (ascii "App") ++ (e.gap ++ rest)))
      (ascii "</App>") (pre ++ s ++ e.startTag).length = some (pre ++ s ++ e.startTag ++ e.block).length :=
    find_close describes.flat
  have block : substr (pre ++ s ++ e.startTag ++ e.block ++ (endTag (ascii "App") ++ (e.gap ++ rest)))
      (pre ++ s ++ e.startTag).length
      ((pre ++ s ++ e.startTag ++ e.block).length - (pre ++ s ++ e.startTag).length) = e.block := by
    have length : (pre ++ s ++ e.startTag ++ e.block).length =
        (pre ++ s ++ e.startTag).length + e.block.length := List.length_append
    rw [length, Nat.add_sub_cancel_left, substr, List.append_assoc (pre ++ s ++ e.startTag),
      List.drop_left, List.take_left]
  have past : (pre ++ s ++ e.startTag ++ e.block ++ endTag (ascii "App")).length =
      (pre ++ s ++ e.startTag ++ e.block).length + 6 := List.length_append
  rw [parseAppStep]
  simp only [body]
  simp only [shape, close, Option.getD_some, Option.map_some, block, usable_readApp describes,
    past]

/-- The entries still to come, and the apps read so far. -/
def Scan (text tail : Bytes) (all : List AppInfo) (pos : Nat) (read : List AppInfo) : Prop :=
  ∃ pre s entries apps, text = pre ++ s ++ (List.flatMap Entry.text entries ++ tail) ∧
    pos = pre.length ∧ Clear 60 (StartTag (ascii "App")) s ∧
    List.Forall₂ (fun e : Entry => Describes e.children) entries apps ∧
    read ++ apps.filterMap App.usable = all

theorem clear_of_head {c : UInt8} {t : Bytes} (other : (ascii "App").head? ≠ some c)
    (free : 60 ∉ c :: t) : Clear 60 (StartTag (ascii "App")) (60 :: c :: t) :=
  clear_segment startTag_marked free fun _ _ => not_startTag_of_head isTag_app.nonempty other _

theorem Scan.step {text tail : Bytes} {all read : List AppInfo} {pos : Nat}
    (scan : Scan text tail all pos read) (clearTail : Clear 60 (StartTag (ascii "App")) tail)
    (mark : AtMark 60 tail) :
    parseAppStep text (pos, read) = .inr all ∨
      ∃ pos' read', parseAppStep text (pos, read) = .inl (pos', read') ∧
        Scan text tail all pos' read' := by
  obtain ⟨pre, s, entries, apps, rfl, rfl, clear, describes, total⟩ := scan
  cases describes with
  | nil =>
    left
    rw [List.flatMap_nil, List.nil_append, List.append_assoc, parseAppStep,
      findAppBody_clear (clear.append clearTail mark)]
    rw [List.filterMap_nil, List.append_nil] at total
    exact congrArg _ total
  | @cons e a entries apps first others =>
    right
    rw [List.flatMap_cons, List.append_assoc e.text]
    refine ⟨_, _, parseAppStep_entry clear first read,
      ⟨pre ++ s ++ e.startTag ++ e.block ++ endTag (ascii "App"), e.gap, entries, apps, ?_, rfl,
        clear_free startTag_marked e.flatGap, others, ?_⟩⟩
    · simp only [Entry.text, List.append_assoc]
    · rw [← total, List.append_assoc]
      congr 1
      cases usable : a.usable <;> simp [usable]

theorem Document.clear_head (d : Document) : Clear 60 (StartTag (ascii "App")) d.head := by
  have root : Clear 60 (StartTag (ascii "App"))
      (60 :: (ascii "root" ++ (d.attributes ++ 62 :: d.opening))) := by
    refine clear_of_head (c := 114) (by decide) ?_
    simp [d.flatAttributes, d.flatOpening]
    decide
  rw [Document.head]
  cases shape : d.declaration with
  | none => exact root
  | some t =>
    refine Clear.append (clear_of_head (by decide) ?_) root atMark_cons
    simp [d.flatDeclaration t shape]

theorem Document.clear_tail (d : Document) : Clear 60 (StartTag (ascii "App")) d.tail := by
  refine clear_of_head (by decide) ?_
  have name : 60 ∉ ascii "root" := by decide
  simp [name, d.flatEpilog]

/-- Every app with a positive id and a title is read, in the order of the document. -/
theorem parseAppList_document (d : Document) {apps : List App}
    (describes : List.Forall₂ (fun e : Entry => Describes e.children) d.entries apps) :
    parseAppList d.text = apps.filterMap App.usable := by
  obtain ⟨result, returned⟩ := parseAppList_terminates d.text
  let scanning : Nat × List AppInfo → Prop := fun st =>
    Scan d.text d.tail (apps.filterMap App.usable) st.1 st.2
  let complete : List AppInfo → Prop := fun final => final = apps.filterMap App.usable
  have all : complete result := by
    refine Loop.run_invariant scanning ?_ ?_ ?_ returned
    · rintro ⟨pos, read⟩ ⟨pos', read'⟩ scan continues
      rcases scan.step d.clear_tail atMark_cons with leaves | ⟨p, r, next, later⟩
      · rw [continues] at leaves
        contradiction
      · cases next.symm.trans continues
        exact later
    · rintro ⟨pos, read⟩ final scan leaves
      rcases scan.step d.clear_tail atMark_cons with done | ⟨p, r, next, -⟩
      · exact Sum.inr.inj (leaves.symm.trans done)
      · rw [leaves] at next
        contradiction
    · exact ⟨[], d.head, d.entries, apps, rfl, rfl, d.clear_head, describes, rfl⟩
  rw [parseAppList, returned, all, Option.getD_some]

/-- An entry of a title with an ampersand, whose fields stand in another order and around a child
with a longer name. -/
def exampleEntry : Entry where
  attributes := ascii " index=\"0\""
  opening := ascii "\n"
  children :=
    [⟨ascii "IsHdrSupported", ascii "1", [], isTag_hdr.named, by decide, by decide⟩,
      ⟨ascii "AppTitle", 65 :: (ascii "&amp;" ++ [66]), [], isTag_title.named, by decide,
        by decide⟩,
      ⟨ascii "AppX", ascii "7", [], fun c => by revert c; decide, by decide, by decide⟩,
      ⟨ascii "ID", ascii "42", [], isTag_id.named, by decide, by decide⟩]
  gap := []
  spaced := by
    rintro c ⟨⟩
    decide
  plain := by decide
  flatOpening := by decide
  flatGap := by decide

def exampleDocument : Document where
  declaration := none
  attributes := ascii " status_code=\"200\""
  opening := []
  entries := [exampleEntry]
  epilog := []
  flatDeclaration := nofun
  flatAttributes := by decide
  flatOpening := by decide
  flatEpilog := by decide

theorem parseAppList_example :
    parseAppList exampleDocument.text = [⟨42, ascii "A&B", true⟩] := by
  have describes : Describes exampleEntry.children ⟨some (ascii "A&B"), some 42, some true⟩ := by
    refine ⟨by decide, ?_, ?_, ?_⟩
    · have texts : childContents (ascii "AppTitle") exampleEntry.children =
          [65 :: (ascii "&amp;" ++ [66])] := by decide
      rw [texts]
      exact .cons (.plain (by decide) (by decide) (.escaped (c := 38) (by decide)
        (.plain (by decide) (by decide) .nil))) .nil
    · have texts : childContents (ascii "ID") exampleEntry.children = [ascii "42"] := by decide
      rw [texts]
      exact .cons ⟨by decide, by decide, by decide, by decide⟩ .nil
    · have texts : childContents (ascii "IsHdrSupported") exampleEntry.children = [ascii "1"] := by
        decide
      rw [texts]
      exact .cons rfl .nil
  exact parseAppList_document exampleDocument (.cons describes .nil)

end StreamEngine.Net

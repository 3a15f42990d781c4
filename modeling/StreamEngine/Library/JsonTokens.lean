import StreamEngine.Library.JsonText

/-! The grammar of JSON texts is unambiguous. It is enough to know that a string has no
quote without a backslash before it and that a number is written in the characters of
numbers, which is true of every spelling. -/
namespace JsonText
open ByteString Decimal

/-- Text in which every quote is escaped. -/
inductive Closed : Bytes → Prop where
  | nil : Closed []
  | plain {c t} (quote : c ≠ 34) (backslash : c ≠ 92) (rest : Closed t) : Closed (c :: t)
  | escape {c t} (rest : Closed t) : Closed (92 :: c :: t)

/-- The spelling that takes a token for its own text. -/
def tokens : Spelling Bytes Bytes where
  string t s := Closed t ∧ s = t
  number t n := (∀ c ∈ t, isNumberChar c = true) ∧ StartsNumber t ∧ n = t

/-- What follows a number in a text. -/
def Ends (rest : Bytes) : Prop := ∀ c ∈ rest.head?, isNumberChar c = false

theorem ends_nil : Ends [] := by simp [Ends]

theorem ends_cons {c : UInt8} (other : isNumberChar c = false) (rest : Bytes) :
    Ends (c :: rest) := by
  simpa [Ends] using other

theorem isBlank_ends {c : UInt8} (blank : isBlank c = true) : isNumberChar c = false := by
  simp only [isBlank, Bool.or_eq_true, beq_iff_eq] at blank
  rcases blank with ((rfl | rfl) | rfl) | rfl <;> rfl

/-- Blanks in front of the end of a number end it too. -/
theorem Blank.ends {w rest : Bytes} (blank : Blank w) (ends : Ends rest) : Ends (w ++ rest) := by
  cases w with
  | nil => exact ends
  | cons c w => exact ends_cons (isBlank_ends (blank c (by simp))) _

theorem Closed.unique {t t' r r' : Bytes} (closed : Closed t) (closed' : Closed t')
    (same : t ++ 34 :: r = t' ++ 34 :: r') : t = t' ∧ r = r' := by
  induction closed generalizing t' with
  | nil =>
    cases closed' with
    | nil => exact ⟨rfl, (List.cons.inj same).2⟩
    | plain quote => exact absurd (List.cons.inj same).1.symm quote
    | escape => simp at same
  | plain quote backslash _ ih =>
    cases closed' with
    | nil => exact absurd (List.cons.inj same).1 quote
    | plain _ _ rest =>
      obtain ⟨rfl, tails⟩ := List.cons.inj same
      obtain ⟨rfl, equal⟩ := ih rest tails
      exact ⟨rfl, equal⟩
    | escape => exact absurd (List.cons.inj same).1 backslash
  | escape _ ih =>
    cases closed' with
    | nil => simp at same
    | plain _ backslash => exact absurd (List.cons.inj same).1.symm backslash
    | escape rest =>
      obtain ⟨-, escaped⟩ := List.cons.inj same
      obtain ⟨rfl, tails⟩ := List.cons.inj escaped
      obtain ⟨rfl, equal⟩ := ih rest tails
      exact ⟨rfl, equal⟩

theorem number_unique {t t' r r' : Bytes} (chars : ∀ c ∈ t, isNumberChar c = true)
    (chars' : ∀ c ∈ t', isNumberChar c = true) (ends : Ends r) (ends' : Ends r')
    (same : t ++ r = t' ++ r') : t = t' := by
  have scan : ∀ {t r : Bytes}, (∀ c ∈ t, isNumberChar c = true) → Ends r →
      (t ++ r).takeWhile isNumberChar = t := by
    intro t r chars ends
    rw [List.takeWhile_append_of_pos chars]
    cases r with
    | nil => simp
    | cons c r => simp [ends c (by simp)]
  rw [← scan chars ends, same, scan chars' ends']

/-- Blanks in front of another character are all the blanks there. -/
theorem Blank.unique {w w' r r' : Bytes} {c c' : UInt8} (blank : Blank w) (blank' : Blank w')
    (other : isBlank c = false) (other' : isBlank c' = false)
    (same : w ++ c :: r = w' ++ c' :: r') : w = w' ∧ c = c' ∧ r = r' := by
  induction w generalizing w' with
  | nil =>
    cases w' with
    | nil => exact ⟨rfl, List.cons.inj same⟩
    | cons b w' =>
      have isBlank := blank' b (by simp)
      rw [← (List.cons.inj same).1, other] at isBlank
      contradiction
  | cons b w ih =>
    cases w' with
    | nil =>
      have isBlank := blank b (by simp)
      rw [(List.cons.inj same).1, other'] at isBlank
      contradiction
    | cons b' w' =>
      obtain ⟨rfl, tails⟩ := List.cons.inj same
      obtain ⟨rfl, equal⟩ := ih (fun c member => blank c (List.mem_cons_of_mem _ member))
        (fun c member => blank' c (List.mem_cons_of_mem _ member)) tails
      exact ⟨rfl, equal⟩

/-- The first character of a value. -/
def Document.Opens : Document S N → UInt8 → Prop
  | .null, c => c = 110
  | .bool b, c => c = if b then 116 else 102
  | .num _, c => c = 45 ∨ isDigit c = true
  | .str _, c => c = 34
  | .arr _, c => c = 91
  | .obj _, c => c = 123

theorem Derives.opens {d : Document Bytes Bytes} {t : Bytes}
    (derives : Derives tokens (.value d) t) : ∃ c rest, t = c :: rest ∧ d.Opens c := by
  cases derives with
  | null | wordTrue | wordFalse | text | emptyArray | array | emptyObject | object =>
    exact ⟨_, _, rfl, rfl⟩
  | number spelled =>
    obtain ⟨-, ⟨c, rest, first, start⟩, -⟩ := spelled
    exact ⟨c, rest, first, start⟩

theorem isDigit_ne {c d : UInt8} (digit : isDigit c = true) (other : isDigit d = false) : c ≠ d := by
  rintro rfl
  rw [digit] at other
  contradiction

/-- A value starts with no blank and with no closing bracket. -/
theorem Document.Opens.other {d : Document S N} {c : UInt8} (opens : d.Opens c) :
    isBlank c = false ∧ c ≠ 93 := by
  cases d with
  | bool b => cases b <;> subst opens <;> decide
  | null | str | arr | obj => subst opens; decide
  | num n =>
    rcases opens with rfl | digit
    · decide
    · refine ⟨?_, isDigit_ne digit rfl⟩
      simp only [isBlank, Bool.or_eq_false_iff, beq_eq_false_iff_ne]
      exact ⟨⟨⟨isDigit_ne digit rfl, isDigit_ne digit rfl⟩, isDigit_ne digit rfl⟩,
        isDigit_ne digit rfl⟩

/-- There is no other division of the text, whatever follows it. -/
def Part.Unique : Part Bytes Bytes → Bytes → Prop
  | .value d, t => ∀ {d' t' r r'}, Derives tokens (.value d') t' → Ends r → Ends r' →
      t ++ r = t' ++ r' → d = d' ∧ t = t'
  | .items ds, t => ∀ {ds' t' r r'}, Derives tokens (.items ds') t' →
      t ++ 93 :: r = t' ++ 93 :: r' → ds = ds' ∧ t = t'
  | .members ms, t => ∀ {ms' t' r r'}, Derives tokens (.members ms') t' →
      t ++ 125 :: r = t' ++ 125 :: r' → ms = ms' ∧ t = t'

/-- Two texts that start with the same blanks and the same value. -/
theorem spaced_unique {w t v w' t' v' : Bytes} {d d' : Document Bytes Bytes} (before : Blank w)
    (here : Derives tokens (.value d) t) (unique : (Part.value d).Unique t) (ends : Ends v)
    (before' : Blank w') (here' : Derives tokens (.value d') t') (ends' : Ends v')
    (same : w ++ (t ++ v) = w' ++ (t' ++ v')) : w = w' ∧ d = d' ∧ t = t' ∧ v = v' := by
  obtain ⟨c, s, first, opens⟩ := here.opens
  obtain ⟨c', s', first', opens'⟩ := here'.opens
  have texts := same
  rw [first, first'] at same
  obtain ⟨rfl, -⟩ := before.unique before' opens.other.1 opens'.other.1 same
  have tails := List.append_cancel_left texts
  obtain ⟨rfl, rfl⟩ := unique here' ends ends' tails
  exact ⟨rfl, rfl, rfl, List.append_cancel_left tails⟩

/-- A comma or a bracket: no value goes on there. -/
structure Separates (c : UInt8) : Prop where
  blank : isBlank c = false
  number : isNumberChar c = false

theorem separates_comma : Separates 44 := ⟨rfl, rfl⟩

theorem separates_bracket : Separates 93 := ⟨rfl, rfl⟩

theorem separates_brace : Separates 125 := ⟨rfl, rfl⟩

/-- Two texts that start with the same blanks, the same value and its separator. -/
theorem separated {w t v r w' t' v' r' : Bytes} {c c' : UInt8} {d d' : Document Bytes Bytes}
    (before : Blank w) (here : Derives tokens (.value d) t) (unique : (Part.value d).Unique t)
    (after : Blank v) (last : Separates c) (before' : Blank w')
    (here' : Derives tokens (.value d') t') (after' : Blank v') (last' : Separates c')
    (same : w ++ (t ++ (v ++ c :: r)) = w' ++ (t' ++ (v' ++ c' :: r'))) :
    w = w' ∧ d = d' ∧ t = t' ∧ v = v' ∧ c = c' ∧ r = r' := by
  obtain ⟨sameStart, sameValue, sameText, rest⟩ :=
    spaced_unique before here unique (after.ends (ends_cons last.number r)) before' here'
      (after'.ends (ends_cons last'.number r')) same
  exact ⟨sameStart, sameValue, sameText, after.unique after' last.blank last'.blank rest⟩

/-- Two texts that start with the same blanks, the same key and its colon. -/
theorem key_unique {w k w₁ v w' k' w₁' v' : Bytes} (before : Blank w) (closed : Closed k)
    (colon : Blank w₁) (before' : Blank w') (closed' : Closed k') (colon' : Blank w₁')
    (same : w ++ 34 :: (k ++ 34 :: (w₁ ++ 58 :: v)) =
      w' ++ 34 :: (k' ++ 34 :: (w₁' ++ 58 :: v'))) :
    w = w' ∧ k = k' ∧ w₁ = w₁' ∧ v = v' := by
  obtain ⟨rfl, -, afterQuote⟩ := before.unique before' rfl rfl same
  obtain ⟨rfl, afterKey⟩ := closed.unique closed' afterQuote
  obtain ⟨rfl, -, afterColon⟩ := colon.unique colon' rfl rfl afterKey
  exact ⟨rfl, rfl, rfl, afterColon⟩

/-- Two texts that start with the same member and its separator. -/
theorem member_unique {w k w₁ w₂ t v r w' k' w₁' w₂' t' v' r' : Bytes} {c c' : UInt8}
    {d d' : Document Bytes Bytes} (before : Blank w) (closed : Closed k) (colon : Blank w₁)
    (value : Blank w₂) (here : Derives tokens (.value d) t) (unique : (Part.value d).Unique t)
    (after : Blank v) (last : Separates c) (before' : Blank w') (closed' : Closed k')
    (colon' : Blank w₁') (value' : Blank w₂') (here' : Derives tokens (.value d') t')
    (after' : Blank v') (last' : Separates c')
    (same : w ++ 34 :: (k ++ 34 :: (w₁ ++ 58 :: (w₂ ++ (t ++ (v ++ c :: r))))) =
      w' ++ 34 :: (k' ++ 34 :: (w₁' ++ 58 :: (w₂' ++ (t' ++ (v' ++ c' :: r')))))) :
    w = w' ∧ k = k' ∧ w₁ = w₁' ∧ w₂ = w₂' ∧ d = d' ∧ t = t' ∧ v = v' ∧ c = c' ∧ r = r' := by
  obtain ⟨sameStart, sameKey, sameColon, rest⟩ :=
    key_unique before closed colon before' closed' colon' same
  exact ⟨sameStart, sameKey, sameColon,
    separated value here unique after last value' here' after' last' rest⟩

theorem Derives.items_open {ds : List (Document Bytes Bytes)} {t : Bytes}
    (derives : Derives tokens (.items ds) t) :
    ∃ w c rest, Blank w ∧ t = w ++ c :: rest ∧ isBlank c = false ∧ c ≠ 93 := by
  cases derives with
  | lastItem before here | item before here =>
    obtain ⟨c, rest, rfl, opens⟩ := here.opens
    exact ⟨_, c, _, before, rfl, opens.other⟩

theorem Derives.members_open {ms : List (Bytes × Document Bytes Bytes)} {t : Bytes}
    (derives : Derives tokens (.members ms) t) : ∃ w rest, Blank w ∧ t = w ++ 34 :: rest := by
  cases derives with
  | lastMember before | member before => exact ⟨_, _, before, rfl⟩

theorem same_opens {d d' : Document Bytes Bytes} {t t' r r' : Bytes}
    (here : Derives tokens (.value d) t) (here' : Derives tokens (.value d') t')
    (same : t ++ r = t' ++ r') : ∃ c, d.Opens c ∧ d'.Opens c := by
  obtain ⟨c, s, rfl, opens⟩ := here.opens
  obtain ⟨c', s', rfl, opens'⟩ := here'.opens
  obtain rfl : c = c' := (List.cons.inj same).1
  exact ⟨c, opens, opens'⟩

/-- An array with blanks in it only is no array of items. -/
theorem emptyArray_unique {w t r r' : Bytes} {ds : List (Document Bytes Bytes)} (blank : Blank w)
    (items : Derives tokens (.items ds) t) : w ++ 93 :: r ≠ t ++ 93 :: r' := by
  intro same
  obtain ⟨w', c, rest, before, rfl, notBlank, other⟩ := items.items_open
  rw [List.append_assoc, List.cons_append] at same
  exact other (blank.unique before rfl notBlank same).2.1.symm

theorem emptyObject_unique {w t r r' : Bytes} {ms : List (Bytes × Document Bytes Bytes)}
    (blank : Blank w) (members : Derives tokens (.members ms) t) :
    w ++ 125 :: r ≠ t ++ 125 :: r' := by
  intro same
  obtain ⟨w', rest, before, rfl⟩ := members.members_open
  rw [List.append_assoc, List.cons_append] at same
  exact absurd (blank.unique before rfl rfl same).2.1 (by decide)

theorem Derives.value_unique {d : Document Bytes Bytes} {t : Bytes}
    (derives : Derives tokens (.value d) t)
    (array : ∀ {ds s}, d = .arr ds → t = 91 :: (s ++ [93]) → Derives tokens (.items ds) s →
      (Part.items ds).Unique s)
    (object : ∀ {ms s}, d = .obj ms → t = 123 :: (s ++ [125]) → Derives tokens (.members ms) s →
      (Part.members ms).Unique s) : (Part.value d).Unique t := by
  intro d' t' r r' other ends ends' same
  obtain ⟨c, opens, opens'⟩ := same_opens derives other same
  cases derives with
  | null =>
    cases other with
    | null => exact ⟨rfl, rfl⟩
    | _ => subst opens; simp [Document.Opens, isDigit] at opens'
  | wordTrue =>
    cases other with
    | wordTrue => exact ⟨rfl, rfl⟩
    | _ => subst opens; simp [Document.Opens, isDigit] at opens'
  | wordFalse =>
    cases other with
    | wordFalse => exact ⟨rfl, rfl⟩
    | _ => subst opens; simp [Document.Opens, isDigit] at opens'
  | number spelled =>
    cases other with
    | number spelled' =>
      obtain ⟨chars, -, rfl⟩ := spelled
      obtain ⟨chars', -, rfl⟩ := spelled'
      obtain rfl := number_unique chars chars' ends ends' same
      exact ⟨rfl, rfl⟩
    | _ => subst opens'; simp [Document.Opens, isDigit] at opens
  | text spelled =>
    cases other with
    | text spelled' =>
      obtain ⟨closed, rfl⟩ := spelled
      obtain ⟨closed', rfl⟩ := spelled'
      simp only [List.cons_append, List.append_assoc, List.nil_append, List.cons.injEq,
        true_and] at same
      obtain ⟨rfl, -⟩ := closed.unique closed' same
      exact ⟨rfl, rfl⟩
    | _ => subst opens; simp [Document.Opens, isDigit] at opens'
  | emptyArray blank =>
    cases other with
    | emptyArray blank' =>
      simp only [List.cons_append, List.append_assoc, List.nil_append, List.cons.injEq,
        true_and] at same
      obtain ⟨rfl, -⟩ := blank.unique blank' rfl rfl same
      exact ⟨rfl, rfl⟩
    | array items' =>
      simp only [List.cons_append, List.append_assoc, List.nil_append, List.cons.injEq,
        true_and] at same
      exact absurd same (emptyArray_unique blank items')
    | _ => subst opens; simp [Document.Opens, isDigit] at opens'
  | array items =>
    cases other with
    | emptyArray blank' =>
      simp only [List.cons_append, List.append_assoc, List.nil_append, List.cons.injEq,
        true_and] at same
      exact absurd same.symm (emptyArray_unique blank' items)
    | array items' =>
      simp only [List.cons_append, List.append_assoc, List.nil_append, List.cons.injEq,
        true_and] at same
      obtain ⟨rfl, rfl⟩ := array rfl rfl items items' same
      exact ⟨rfl, rfl⟩
    | _ => subst opens; simp [Document.Opens, isDigit] at opens'
  | emptyObject blank =>
    cases other with
    | emptyObject blank' =>
      simp only [List.cons_append, List.append_assoc, List.nil_append, List.cons.injEq,
        true_and] at same
      obtain ⟨rfl, -⟩ := blank.unique blank' rfl rfl same
      exact ⟨rfl, rfl⟩
    | object members' =>
      simp only [List.cons_append, List.append_assoc, List.nil_append, List.cons.injEq,
        true_and] at same
      exact absurd same (emptyObject_unique blank members')
    | _ => subst opens; simp [Document.Opens, isDigit] at opens'
  | object members =>
    cases other with
    | emptyObject blank' =>
      simp only [List.cons_append, List.append_assoc, List.nil_append, List.cons.injEq,
        true_and] at same
      exact absurd same.symm (emptyObject_unique blank' members)
    | object members' =>
      simp only [List.cons_append, List.append_assoc, List.nil_append, List.cons.injEq,
        true_and] at same
      obtain ⟨rfl, rfl⟩ := object rfl rfl members members' same
      exact ⟨rfl, rfl⟩
    | _ => subst opens; simp [Document.Opens, isDigit] at opens'

/-- No text has two divisions into tokens. -/
theorem Derives.unique {part : Part Bytes Bytes} {t : Bytes} (derives : Derives tokens part t) :
    part.Unique t := by
  induction derives with
  | null => exact Derives.null.value_unique nofun nofun
  | wordTrue => exact Derives.wordTrue.value_unique nofun nofun
  | wordFalse => exact Derives.wordFalse.value_unique nofun nofun
  | number spelled => exact (Derives.number spelled).value_unique nofun nofun
  | text spelled => exact (Derives.text spelled).value_unique nofun nofun
  | emptyArray blank =>
    refine (Derives.emptyArray blank).value_unique ?_ nofun
    rintro ds s same - items
    cases same
    cases items
  | array items ih =>
    refine (Derives.array items).value_unique ?_ nofun
    rintro ds s same text -
    cases same
    simp only [List.cons.injEq, List.append_cancel_right_eq, true_and] at text
    exact text ▸ ih
  | emptyObject blank =>
    refine (Derives.emptyObject blank).value_unique nofun ?_
    rintro ms s same - members
    cases same
    cases members
  | object members ih =>
    refine (Derives.object members).value_unique nofun ?_
    rintro ms s same text -
    cases same
    simp only [List.cons.injEq, List.append_cancel_right_eq, true_and] at text
    exact text ▸ ih
  | lastItem before here after unique =>
    intro ds' t' r r' other same
    cases other with
    | lastItem before' here' after' =>
      simp only [List.append_assoc] at same
      obtain ⟨rfl, rfl, rfl, rfl, -⟩ := separated before here unique after separates_bracket before'
        here' after' separates_bracket same
      exact ⟨rfl, rfl⟩
    | item before' here' after' others' =>
      simp only [List.append_assoc, List.cons_append] at same
      obtain ⟨-, -, -, -, clash, -⟩ := separated before here unique after separates_bracket before'
        here' after' separates_comma same
      contradiction
  | item before here after _ unique others =>
    intro ds' t' r r' other same
    cases other with
    | lastItem before' here' after' =>
      simp only [List.append_assoc, List.cons_append] at same
      obtain ⟨-, -, -, -, clash, -⟩ := separated before here unique after separates_comma before'
        here' after' separates_bracket same
      contradiction
    | item before' here' after' others' =>
      simp only [List.append_assoc, List.cons_append] at same
      obtain ⟨rfl, rfl, rfl, rfl, -, tails⟩ := separated before here unique after separates_comma
        before' here' after' separates_comma same
      obtain ⟨rfl, rfl⟩ := others others' tails
      exact ⟨rfl, rfl⟩
  | lastMember before spelled colon value here after unique =>
    intro ms' t' r r' other same
    obtain ⟨closed, rfl⟩ := spelled
    cases other with
    | lastMember before' spelled' colon' value' here' after' =>
      obtain ⟨closed', rfl⟩ := spelled'
      simp only [List.append_assoc, List.cons_append] at same
      obtain ⟨rfl, rfl, rfl, rfl, rfl, rfl, rfl, -⟩ := member_unique before closed colon value here
        unique after separates_brace before' closed' colon' value' here' after' separates_brace same
      exact ⟨rfl, rfl⟩
    | member before' spelled' colon' value' here' after' others' =>
      obtain ⟨closed', rfl⟩ := spelled'
      simp only [List.append_assoc, List.cons_append] at same
      obtain ⟨-, -, -, -, -, -, -, clash, -⟩ := member_unique before closed colon value here unique
        after separates_brace before' closed' colon' value' here' after' separates_comma same
      contradiction
  | member before spelled colon value here after _ unique others =>
    intro ms' t' r r' other same
    obtain ⟨closed, rfl⟩ := spelled
    cases other with
    | lastMember before' spelled' colon' value' here' after' =>
      obtain ⟨closed', rfl⟩ := spelled'
      simp only [List.append_assoc, List.cons_append] at same
      obtain ⟨-, -, -, -, -, -, -, clash, -⟩ := member_unique before closed colon value here unique
        after separates_comma before' closed' colon' value' here' after' separates_brace same
      contradiction
    | member before' spelled' colon' value' here' after' others' =>
      obtain ⟨closed', rfl⟩ := spelled'
      simp only [List.append_assoc, List.cons_append] at same
      obtain ⟨rfl, rfl, rfl, rfl, rfl, rfl, rfl, -, tails⟩ := member_unique before closed colon value
        here unique after separates_comma before' closed' colon' value' here' after' separates_comma
        same
      obtain ⟨rfl, rfl⟩ := others others' tails
      exact ⟨rfl, rfl⟩

theorem Text.unique {t : Bytes} {d d' : Document Bytes Bytes} (text : Text tokens t d)
    (text' : Text tokens t d') : d = d' := by
  obtain ⟨w, s, v, before, here, after, rfl⟩ := text
  obtain ⟨w', s', v', before', here', after', same⟩ := text'
  have ends : ∀ {v}, Blank v → Ends v := by
    intro v blank
    simpa using blank.ends ends_nil
  exact (spaced_unique before here here.unique (ends after) before' here' (ends after') same).2.1

end JsonText

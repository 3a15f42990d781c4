import Mathlib.Data.List.Nodup

/-! Records in a list, found by a key computed from them. Putting a record replaces the
first one with its key, dropping a key removes all of them, and looking up returns the
first, so a list is a map from keys even when keys repeat. Histories of edits are read
off from the last edit of a key. -/
namespace KeyedList

variable {ρ κ : Type*} [DecidableEq κ] (key : ρ → κ)

def put (r : ρ) : List ρ → List ρ
  | [] => [r]
  | x :: l => if key x = key r then r :: l else x :: put r l

def drop (k : κ) (l : List ρ) : List ρ := l.filter fun x => key x ≠ k

def lookup (k : κ) (l : List ρ) : Option ρ := l.find? fun x => key x = k

/-- No key occurs twice. -/
def Distinct (l : List ρ) : Prop := (l.map key).Nodup

inductive Edit (ρ κ : Type*) where
  | put (r : ρ)
  | drop (k : κ)

def Edit.touches : Edit ρ κ → κ
  | .put r => key r
  | .drop k => k

def Edit.apply (l : List ρ) : Edit ρ κ → List ρ
  | .put r => KeyedList.put key r l
  | .drop k => KeyedList.drop key k l

variable {key}

theorem lookup_put_self (r : ρ) (l : List ρ) : lookup key (key r) (put key r l) = some r := by
  induction l with
  | nil => simp [put, lookup]
  | cons x l ih =>
    by_cases same : key x = key r
    · simp [put, same, lookup]
    · simpa [put, same, lookup] using ih

theorem lookup_put_of_ne {r : ρ} {k : κ} (different : key r ≠ k) (l : List ρ) :
    lookup key k (put key r l) = lookup key k l := by
  induction l with
  | nil => simp [put, lookup, different]
  | cons x l ih =>
    by_cases same : key x = key r
    · simp [put, same, lookup, different]
    · by_cases here : key x = k
      · have other : k ≠ key r := here ▸ same
        simp [put, lookup, here, other]
      · simpa [put, same, lookup, here] using ih

theorem lookup_drop_self (k : κ) (l : List ρ) : lookup key k (drop key k l) = none := by
  simp [lookup, drop]

theorem lookup_drop_of_ne {k k' : κ} (different : k' ≠ k) (l : List ρ) :
    lookup key k (drop key k' l) = lookup key k l := by
  induction l with
  | nil => rfl
  | cons x l ih =>
    by_cases dropped : key x = k'
    · have other : key x ≠ k := dropped ▸ different
      simpa [drop, lookup, dropped, different] using ih
    · by_cases here : key x = k
      · simp [drop, lookup, here, different.symm]
      · simpa [drop, lookup, dropped, here] using ih

theorem mem_put_keys {k : κ} {r : ρ} {l : List ρ} (member : k ∈ (put key r l).map key) :
    k = key r ∨ k ∈ l.map key := by
  induction l with
  | nil => simpa [put] using member
  | cons x l ih =>
    by_cases same : key x = key r
    · simp only [put, same, if_true, List.map_cons, List.mem_cons] at member ⊢
      exact member.imp_right Or.inr
    · simp only [put, same, if_false, List.map_cons, List.mem_cons] at member ⊢
      rcases member with rfl | later
      · exact Or.inr (Or.inl rfl)
      · exact (ih later).imp_right Or.inr

theorem Distinct.put {l : List ρ} (distinct : Distinct key l) (r : ρ) :
    Distinct key (put key r l) := by
  induction l with
  | nil => simp [KeyedList.put, Distinct]
  | cons x l ih =>
    simp only [Distinct, List.map_cons, List.nodup_cons] at distinct
    by_cases same : key x = key r
    · simp only [KeyedList.put, same, if_true, Distinct, List.map_cons, List.nodup_cons]
      exact same ▸ distinct
    · simp only [KeyedList.put, same, if_false, Distinct, List.map_cons, List.nodup_cons]
      refine ⟨fun member => ?_, ih distinct.2⟩
      rcases mem_put_keys member with equal | later
      · exact same equal
      · exact distinct.1 later

theorem Distinct.drop {l : List ρ} (distinct : Distinct key l) (k : κ) :
    Distinct key (drop key k l) :=
  List.Nodup.sublist (List.filter_sublist.map key) distinct

theorem lookup_apply_of_ne {e : Edit ρ κ} {k : κ} (different : e.touches key ≠ k) (l : List ρ) :
    lookup key k (e.apply key l) = lookup key k l := by
  cases e with
  | put r =>
    have other : key r ≠ k := different
    exact lookup_put_of_ne other l
  | drop k' => exact lookup_drop_of_ne different l

/-- Edits of other keys leave a lookup as it was. -/
theorem lookup_edits_of_ne {edits : List (Edit ρ κ)} {k : κ}
    (different : ∀ e ∈ edits, e.touches key ≠ k) (l : List ρ) :
    lookup key k (edits.foldl (Edit.apply key) l) = lookup key k l := by
  induction edits generalizing l with
  | nil => rfl
  | cons e edits ih =>
    rw [List.foldl_cons, ih (fun e' member => different e' (List.mem_cons_of_mem _ member)),
      lookup_apply_of_ne (different e List.mem_cons_self)]

/-- The last edit of a key decides its lookup. -/
theorem lookup_edits_last {before after : List (Edit ρ κ)} (e : Edit ρ κ)
    (last : ∀ e' ∈ after, e'.touches key ≠ e.touches key) (l : List ρ) :
    lookup key (e.touches key) ((before ++ e :: after).foldl (Edit.apply key) l) =
      match e with
      | .put r => some r
      | .drop _ => none := by
  rw [List.foldl_append, List.foldl_cons, lookup_edits_of_ne last]
  cases e with
  | put r => exact lookup_put_self r _
  | drop k => exact lookup_drop_self k _

theorem distinct_edits {l : List ρ} (distinct : Distinct key l) (edits : List (Edit ρ κ)) :
    Distinct key (edits.foldl (Edit.apply key) l) := by
  induction edits generalizing l with
  | nil => exact distinct
  | cons e edits ih =>
    rw [List.foldl_cons]
    cases e with
    | put r => exact ih (distinct.put r)
    | drop k => exact ih (distinct.drop k)

end KeyedList

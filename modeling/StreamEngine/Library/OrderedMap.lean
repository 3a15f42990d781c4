import Mathlib.Data.List.Basic
import Mathlib.Order.Lattice

/-! Finite maps as lists of entries in strictly ascending key order, the content
of a `std::map`. Insertion replaces an existing entry and keeps the order. -/
namespace OrderedMap

variable {κ α β : Type*} [LinearOrder κ]

/-- `m[k] = v`. -/
def insert (k : κ) (v : α) : List (κ × α) → List (κ × α)
  | [] => [(k, v)]
  | (k', v') :: m =>
    if k < k' then (k, v) :: (k', v') :: m
    else if k = k' then (k, v) :: m
    else (k', v') :: insert k v m

/-- `m.find(k)`. -/
def lookup (k : κ) : List (κ × α) → Option α
  | [] => none
  | (k', v) :: m => if k = k' then some v else lookup k m

def Ascending (m : List (κ × α)) : Prop := (m.map Prod.fst).Pairwise (· < ·)

theorem ascending_nil : Ascending ([] : List (κ × α)) := List.Pairwise.nil

theorem ascending_cons {k : κ} {v : α} {m : List (κ × α)} :
    Ascending ((k, v) :: m) ↔ (∀ k' ∈ m.map Prod.fst, k < k') ∧ Ascending m := by
  simp [Ascending]

theorem mem_insert_keys {k k' : κ} {v : α} {m : List (κ × α)} :
    k' ∈ (insert k v m).map Prod.fst → k' = k ∨ k' ∈ m.map Prod.fst := by
  induction m with
  | nil => simp [insert]
  | cons entry m ih =>
    obtain ⟨l, w⟩ := entry
    simp only [insert]
    split
    · simp
    · split
      · rename_i same
        subst same
        simp only [List.map_cons, List.mem_cons]
        exact Or.imp_right Or.inr
      · simp only [List.map_cons, List.mem_cons]
        rintro (rfl | later)
        · exact Or.inr (Or.inl rfl)
        · exact (ih later).imp_right Or.inr

theorem insert_ascending {m : List (κ × α)} (k : κ) (v : α) (sorted : Ascending m) :
    Ascending (insert k v m) := by
  induction m with
  | nil => simp [insert, Ascending]
  | cons entry m ih =>
    obtain ⟨l, w⟩ := entry
    obtain ⟨above, rest⟩ := ascending_cons.mp sorted
    simp only [insert]
    split
    · rename_i less
      refine ascending_cons.mpr ⟨?_, sorted⟩
      intro k' member
      rcases List.mem_cons.mp member with rfl | later
      · exact less
      · exact lt_trans less (above k' later)
    · split
      · rename_i same
        subst same
        exact ascending_cons.mpr ⟨above, rest⟩
      · rename_i notLess different
        refine ascending_cons.mpr ⟨fun k' member => ?_, ih rest⟩
        rcases mem_insert_keys member with rfl | later
        · exact lt_of_le_of_ne (not_lt.mp notLess) (Ne.symm different)
        · exact above k' later

theorem eq_or_mem_of_mem_insert {k : κ} {v : α} {entry : κ × α} {m : List (κ × α)}
    (member : entry ∈ insert k v m) : entry = (k, v) ∨ entry ∈ m := by
  induction m with
  | nil => simpa [insert] using member
  | cons first m ih =>
    obtain ⟨l, w⟩ := first
    rw [insert] at member
    split at member
    · exact List.mem_cons.mp member
    · split at member
      · exact (List.mem_cons.mp member).imp_right (List.mem_cons_of_mem _)
      · rcases List.mem_cons.mp member with rfl | later
        · exact Or.inr List.mem_cons_self
        · exact (ih later).imp_right (List.mem_cons_of_mem _)

/-- The entries after an insertion: the new one, and the others of other keys. -/
theorem mem_insert {k : κ} {v : α} {entry : κ × α} {m : List (κ × α)} (sorted : Ascending m) :
    entry ∈ insert k v m ↔ entry = (k, v) ∨ entry ∈ m ∧ entry.1 ≠ k := by
  induction m with
  | nil => simp [insert]
  | cons first m ih =>
    obtain ⟨l, w⟩ := first
    obtain ⟨above, rest⟩ := ascending_cons.mp sorted
    have later : entry ∈ m → l < entry.1 := fun member => above _ (List.mem_map_of_mem member)
    rw [insert]
    split
    · rename_i less
      have other : entry ∈ (l, w) :: m → entry.1 ≠ k := by
        intro member
        rcases List.mem_cons.mp member with rfl | member
        · exact ne_of_gt less
        · exact ne_of_gt (lt_trans less (later member))
      rw [List.mem_cons]
      exact or_congr_right ⟨fun member => ⟨member, other member⟩, And.left⟩
    · split
      · rename_i same
        subst same
        rw [List.mem_cons, List.mem_cons]
        constructor
        · rintro (rfl | member)
          · exact Or.inl rfl
          · exact Or.inr ⟨Or.inr member, ne_of_gt (later member)⟩
        · rintro (rfl | ⟨rfl | member, other⟩)
          · exact Or.inl rfl
          · exact absurd rfl other
          · exact Or.inr member
      · rename_i different
        rw [List.mem_cons, ih rest, List.mem_cons]
        constructor
        · rintro (rfl | rfl | ⟨member, other⟩)
          · exact Or.inr ⟨Or.inl rfl, Ne.symm different⟩
          · exact Or.inl rfl
          · exact Or.inr ⟨Or.inr member, other⟩
        · rintro (rfl | ⟨rfl | member, other⟩)
          · exact Or.inr (Or.inl rfl)
          · exact Or.inl rfl
          · exact Or.inr (Or.inr ⟨member, other⟩)

theorem lookup_insert (k k' : κ) (v : α) (m : List (κ × α)) :
    lookup k (insert k' v m) = if k = k' then some v else lookup k m := by
  induction m with
  | nil => rfl
  | cons entry m ih =>
    obtain ⟨l, w⟩ := entry
    rw [insert]
    split
    · rfl
    · split
      · rename_i same
        subst same
        simp only [lookup]
        split <;> rfl
      · rename_i notLess different
        simp only [lookup, ih]
        by_cases here : k = l
        · have other : ¬ k = k' := by rintro rfl; exact different here
          simp [here, here ▸ other]
        · simp [here]

theorem mem_of_lookup {k : κ} {v : α} {m : List (κ × α)} (found : lookup k m = some v) :
    (k, v) ∈ m := by
  induction m with
  | nil => simp [lookup] at found
  | cons entry m ih =>
    obtain ⟨l, w⟩ := entry
    rw [lookup] at found
    split at found
    · rename_i same
      obtain rfl := Option.some.inj found
      rw [same]
      exact List.mem_cons_self
    · exact List.mem_cons_of_mem _ (ih found)

/-- Binding a key again to what it is bound to changes nothing. -/
theorem insert_lookup {k : κ} {v : α} {m : List (κ × α)} (sorted : Ascending m)
    (found : lookup k m = some v) : insert k v m = m := by
  induction m with
  | nil => simp [lookup] at found
  | cons entry m ih =>
    obtain ⟨l, w⟩ := entry
    obtain ⟨above, rest⟩ := ascending_cons.mp sorted
    rw [lookup] at found
    split at found
    · rename_i same
      subst same
      obtain rfl := Option.some.inj found
      rw [insert, if_neg (lt_irrefl _), if_pos rfl]
    · rename_i different
      have later : l < k := above k (List.mem_map_of_mem (mem_of_lookup found))
      rw [insert, if_neg (not_lt_of_gt later), if_neg different, ih rest found]

/-- Inserting in ascending order appends. -/
theorem insert_last {m : List (κ × α)} (k : κ) (v : α) (last : ∀ k' ∈ m.map Prod.fst, k' < k) :
    insert k v m = m ++ [(k, v)] := by
  induction m with
  | nil => rfl
  | cons entry m ih =>
    obtain ⟨l, w⟩ := entry
    have less := last l (by simp)
    rw [insert, if_neg (not_lt_of_gt less), if_neg (ne_of_gt less),
      ih fun k' member => last k' (List.mem_cons_of_mem _ member), List.cons_append]

end OrderedMap

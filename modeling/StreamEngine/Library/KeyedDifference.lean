import Mathlib.Data.Finset.Card
import Mathlib.Data.List.Perm.Basic
import StreamEngine.Library.KeyedList

/-! Two keyed lists compared by their sets of keys. When no key occurs twice, counting records by
a property of their keys counts the keys, and a list is known up to order by its lookups. -/
namespace KeyedList

variable {ρ κ : Type*} [DecidableEq κ] {key : ρ → κ} {l l' : List ρ}

instance : Decidable (Distinct key l) := inferInstanceAs (Decidable (l.map key).Nodup)

/-- The keys of a list. -/
def keys (key : ρ → κ) (l : List ρ) : Finset κ := (l.map key).toFinset

@[simp] theorem mem_keys {k : κ} : k ∈ keys key l ↔ ∃ x ∈ l, key x = k := by simp [keys]

theorem lookup_eq_none_iff {k : κ} : lookup key k l = none ↔ k ∉ keys key l := by
  simp [lookup]

theorem mem_of_lookup {k : κ} {x : ρ} (found : lookup key k l = some x) : x ∈ l ∧ key x = k :=
  ⟨List.mem_of_find?_eq_some found, by simpa using List.find?_some found⟩

theorem Distinct.lookup_eq_some_iff (distinct : Distinct key l) {k : κ} {x : ρ} :
    lookup key k l = some x ↔ x ∈ l ∧ key x = k := by
  constructor
  · exact mem_of_lookup
  · rintro ⟨member, rfl⟩
    cases found : lookup key (key x) l with
    | none =>
      have missing := lookup_eq_none_iff.mp found
      exact absurd (mem_keys.mpr ⟨x, member, rfl⟩) missing
    | some y =>
      obtain ⟨memberY, same⟩ := mem_of_lookup found
      rw [List.inj_on_of_nodup_map distinct memberY member same]

theorem Distinct.card_keys (distinct : Distinct key l) : (keys key l).card = l.length := by
  rw [keys, List.toFinset_card_of_nodup distinct, List.length_map]

/-- Records counted by a property of their keys. -/
theorem Distinct.countP (distinct : Distinct key l) (p : κ → Prop) [DecidablePred p] :
    (l.countP fun x => p (key x)) = ((keys key l).filter p).card := by
  induction l with
  | nil => rfl
  | cons x l ih =>
    have fresh : key x ∉ keys key l := by simpa [keys] using (List.nodup_cons.mp distinct).1
    have later := ih (List.nodup_cons.mp distinct).2
    have split : keys key (x :: l) = insert (key x) (keys key l) := by simp [keys]
    rw [List.countP_cons, later, split, Finset.filter_insert]
    by_cases holds : p (key x)
    · have absent : key x ∉ (keys key l).filter p := fun member => fresh (Finset.mem_filter.mp member).1
      simp [holds, Finset.card_insert_of_notMem absent]
    · simp [holds]

/-- Without repeated keys, two lists that look up the same are equal up to order. -/
theorem Distinct.perm_iff (distinct : Distinct key l) (distinct' : Distinct key l') :
    l.Perm l' ↔ ∀ k, lookup key k l = lookup key k l' := by
  constructor
  · intro perm k
    cases found : lookup key k l with
    | none =>
      have missing := lookup_eq_none_iff.mp found
      have same : keys key l' = keys key l := List.toFinset_eq_of_perm _ _ (perm.map key).symm
      exact (lookup_eq_none_iff.mpr (same ▸ missing)).symm
    | some x =>
      obtain ⟨member, named⟩ := mem_of_lookup found
      exact (distinct'.lookup_eq_some_iff.mpr ⟨perm.mem_iff.mp member, named⟩).symm
  · intro agree
    have nodup : l.Nodup := List.Nodup.of_map key distinct
    have nodup' : l'.Nodup := List.Nodup.of_map key distinct'
    rw [List.perm_ext_iff_of_nodup nodup nodup']
    intro x
    have here := distinct.lookup_eq_some_iff (k := key x) (x := x)
    have there := distinct'.lookup_eq_some_iff (k := key x) (x := x)
    simp only [and_true] at here there
    rw [← here, ← there, agree]

end KeyedList

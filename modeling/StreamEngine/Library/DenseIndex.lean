import Mathlib.Data.Fintype.Basic
import Mathlib.Data.List.InsertIdx
import StreamEngine.Library.History

/-! Members that are numbered by their place in a list, and kept in slots numbered by the place
that they attached at. A detach moves later members down the list and not between the slots,
so the place of a new member may number a slot that is in use. -/
namespace DenseIndex

inductive Change where
  | attach
  | detach (index : Nat)
deriving DecidableEq

section Slots
variable {α : Type*} {n : Nat}

/-- A free slot of that number takes the member. -/
def place (k : Nat) (x : α) (slots : Fin n → Option α) : Fin n → Option α :=
  fun i => if i.val = k ∧ slots i = none then some x else slots i

def clear [DecidableEq α] (x : α) (slots : Fin n → Option α) : Fin n → Option α :=
  fun i => if slots i = some x then none else slots i

theorem place_eq_some_iff {k : Nat} {x y : α} {slots : Fin n → Option α} {i : Fin n} :
    place k x slots i = some y ↔ (i.val = k ∧ slots i = none ∧ x = y) ∨ slots i = some y := by
  unfold place
  split
  · rename_i free
    simp [free]
  · rename_i taken
    constructor
    · exact .inr
    · rintro (⟨here, free, -⟩ | held)
      · exact absurd ⟨here, free⟩ taken
      · exact held

theorem clear_eq_some_iff [DecidableEq α] {x y : α} {slots : Fin n → Option α} {i : Fin n} :
    clear x slots i = some y ↔ slots i = some y ∧ y ≠ x := by
  unfold clear
  split
  · rename_i held
    simp only [held, Option.some.injEq, reduceCtorEq, false_iff, not_and, not_not]
    exact Eq.symm
  · rename_i other
    constructor
    · intro held
      refine ⟨held, ?_⟩
      rintro rfl
      exact other held
    · exact And.left

theorem place_free {k : Nat} {x : α} {slots : Fin n → Option α} (inside : k < n)
    (free : slots ⟨k, inside⟩ = none) :
    place k x slots = Function.update slots ⟨k, inside⟩ (some x) := by
  funext i
  by_cases here : i = ⟨k, inside⟩
  · subst here
    simp [place, free]
  · rw [Function.update_of_ne here]
    exact if_neg fun both => here (Fin.ext both.1)

theorem place_taken {k : Nat} {x : α} {slots : Fin n → Option α}
    (taken : ∀ inside : k < n, slots ⟨k, inside⟩ ≠ none) : place k x slots = slots := by
  funext i
  refine if_neg ?_
  rintro ⟨rfl, free⟩
  exact taken i.isLt free

variable [DecidableEq α]

/-- What a loop over the slots does at one of them. -/
def clearAt (x : α) (slots : Fin n → Option α) (i : Fin n) : Fin n → Option α :=
  if slots i = some x then Function.update slots i none else slots

theorem clearAt_apply (x : α) (slots : Fin n → Option α) (i j : Fin n) :
    clearAt x slots i j = if j = i then clear x slots j else slots j := by
  unfold clearAt clear
  by_cases here : j = i
  · subst here
    split <;> simp
  · split <;> simp [here]

theorem foldl_clearAt (x : α) (slots : Fin n → Option α) (visited : List (Fin n)) (i : Fin n) :
    visited.foldl (clearAt x) slots i = if i ∈ visited then clear x slots i else slots i := by
  induction visited generalizing slots with
  | nil => simp
  | cons j visited ih =>
    have cleared : clear x (clearAt x slots j) i = clear x slots i := by
      unfold clear
      rw [clearAt_apply]
      by_cases here : i = j <;> by_cases held : slots i = some x <;> simp [clear, here, held]
    rw [List.foldl_cons, ih, cleared, clearAt_apply]
    by_cases here : i = j <;> simp [here]

theorem foldl_clearAt_all (x : α) (slots : Fin n → Option α) :
    (List.finRange n).foldl (clearAt x) slots = clear x slots := by
  funext i
  rw [foldl_clearAt, if_pos (List.mem_finRange i)]

/-- The slots that a member is in. -/
def holders (slots : Fin n → Option α) (x : α) : Finset (Fin n) :=
  Finset.univ.filter fun i => slots i = some x

theorem holders_update_none (slots : Fin n → Option α) (i : Fin n) (x : α) :
    holders (Function.update slots i none) x = (holders slots x).erase i := by
  ext j
  by_cases here : j = i
  · subst here
    simp [holders]
  · simp [holders, here]

theorem holders_update_some {slots : Fin n → Option α} {i : Fin n} (free : slots i = none) (x y : α) :
    holders (Function.update slots i (some x)) y =
      if x = y then insert i (holders slots y) else holders slots y := by
  ext j
  by_cases here : j = i
  · subst here
    split <;> simp_all [holders]
  · split <;> simp [holders, here]

end Slots

/-- The members in order, how many have attached so far, which numbers the next one, and the
slots. -/
structure Table (n : Nat) where
  members : List Nat
  issued : Nat
  slots : Fin n → Option Nat

namespace Table
variable {n : Nat}

def change (t : Table n) : Change → Table n
  | .attach => ⟨t.members ++ [t.issued], t.issued + 1, place t.members.length t.issued t.slots⟩
  | .detach k =>
    match t.members[k]? with
    | some x => { t with members := t.members.eraseIdx k, slots := clear x t.slots }
    | none => t

/-- No member yet. The numbers that were given before are not given again. -/
def start (n issued : Nat) : Table n := ⟨[], issued, fun _ => none⟩

/-- Each member is in one slot, and the slots hold nothing else. -/
def HeldOnce (t : Table n) : Prop :=
  (∀ x ∈ t.members, ∃! i, t.slots i = some x) ∧ ∀ i x, t.slots i = some x → x ∈ t.members

end Table

/-- The places that the members attached at, in the order of the members. -/
def movePlaces (places : List Nat) : Change → List Nat
  | .attach => places ++ [places.length]
  | .detach k => places.eraseIdx k

def places (changes : List Change) : List Nat := changes.foldl movePlaces []

/-- A member attaches at a place that numbers a slot, and at which none of the others attached. -/
def Fresh (n : Nat) (before : List Change) (c : Change) : Prop :=
  c = .attach → (places before).length < n ∧ (places before).length ∉ places before

/-- Where the second parts are distinct, erasing a pair is erasing what has its second part. -/
theorem mem_eraseIdx_iff {β γ : Type*} {l : List (β × γ)} {k : Nat} {p : β} {x : γ}
    (distinct : (l.map Prod.snd).Nodup) (found : l[k]? = some (p, x)) (pair : β × γ) :
    pair ∈ l.eraseIdx k ↔ pair ∈ l ∧ pair.2 ≠ x := by
  rw [List.mem_eraseIdx_iff_getElem?]
  constructor
  · rintro ⟨j, other, here⟩
    refine ⟨List.mem_of_getElem? here, fun same => other ?_⟩
    have inside : j < (l.map Prod.snd).length := by
      rw [List.length_map]
      exact (List.getElem?_eq_some_iff.mp here).1
    apply (List.getElem?_inj inside distinct).mp
    rw [List.getElem?_map, List.getElem?_map, here, found, Option.map_some, Option.map_some, same]
  · rintro ⟨member, other⟩
    obtain ⟨j, here⟩ := List.getElem?_of_mem member
    refine ⟨j, ?_, here⟩
    rintro rfl
    rw [found, Option.some.injEq] at here
    exact other (congrArg Prod.snd here).symm

/-- The members, each with the place that it attached at, are what the slots of these numbers
hold. -/
structure Table.Fits {n : Nat} (t : Table n) (seated : List (Nat × Nat)) : Prop where
  members : seated.map Prod.snd = t.members
  slot : ∀ i x, t.slots i = some x ↔ (i.val, x) ∈ seated
  placesDistinct : (seated.map Prod.fst).Nodup
  membersDistinct : t.members.Nodup
  inRange : ∀ p ∈ seated, p.1 < n
  earlier : ∀ x ∈ t.members, x < t.issued

namespace Table.Fits
variable {n : Nat} {t : Table n} {seated : List (Nat × Nat)}

theorem heldOnce (fits : t.Fits seated) : t.HeldOnce := by
  have distinct : (seated.map Prod.snd).Nodup := fits.members ▸ fits.membersDistinct
  constructor
  · intro x member
    rw [← fits.members, List.mem_map] at member
    obtain ⟨⟨p, x⟩, here, rfl⟩ := member
    refine ⟨⟨p, fits.inRange _ here⟩, (fits.slot _ x).mpr here, fun i held => ?_⟩
    have same := List.inj_on_of_nodup_map distinct ((fits.slot i x).mp held) here rfl
    exact Fin.ext (congrArg Prod.fst same)
  · intro i x held
    rw [← fits.members]
    exact List.mem_map_of_mem (f := Prod.snd) ((fits.slot i x).mp held)

theorem length (fits : t.Fits seated) : seated.length = t.members.length := by
  rw [← fits.members, List.length_map]

theorem new (fits : t.Fits seated) : t.issued ∉ t.members :=
  fun member => lt_irrefl _ (fits.earlier _ member)

theorem attach (fits : t.Fits seated) (inside : t.members.length < n)
    (free : t.members.length ∉ seated.map Prod.fst) :
    (t.change .attach).Fits (seated ++ [(t.members.length, t.issued)]) where
  members := by rw [List.map_append, fits.members]; rfl
  slot i x := by
    have empty : i.val = t.members.length → t.slots i = none := by
      intro here
      rw [Option.eq_none_iff_forall_ne_some]
      intro y held
      apply free
      rw [← here]
      exact List.mem_map_of_mem (f := Prod.fst) ((fits.slot i y).mp held)
    rw [List.mem_append, List.mem_singleton, ← fits.slot, Prod.mk.injEq]
    refine place_eq_some_iff.trans ?_
    constructor
    · rintro (⟨here, -, same⟩ | held)
      · exact .inr ⟨here, same.symm⟩
      · exact .inl held
    · rintro (held | ⟨here, same⟩)
      · exact .inr held
      · exact .inl ⟨here, empty here, same.symm⟩
  placesDistinct := by
    rw [List.map_append]
    exact List.nodup_append_comm.mp (List.nodup_cons.mpr ⟨free, fits.placesDistinct⟩)
  membersDistinct := List.nodup_append_comm.mp (List.nodup_cons.mpr ⟨fits.new, fits.membersDistinct⟩)
  inRange := by
    intro p member
    rcases List.mem_append.mp member with before | last
    · exact fits.inRange p before
    · rw [List.mem_singleton.mp last]
      exact inside
  earlier := by
    intro x member
    rcases List.mem_append.mp member with before | last
    · exact (fits.earlier x before).trans (Nat.lt_succ_self _)
    · rw [List.mem_singleton.mp last]
      exact Nat.lt_succ_self _

/-- A new member is kept exactly when its place numbers a slot that is free. -/
theorem attach_iff (fits : t.Fits seated) : (t.change .attach).HeldOnce ↔
    t.members.length < n ∧ t.members.length ∉ seated.map Prod.fst := by
  constructor
  · intro held
    obtain ⟨i, placed, -⟩ := held.1 t.issued (List.mem_append_right _ (List.mem_singleton_self _))
    rcases place_eq_some_iff.mp placed with ⟨here, free, -⟩ | before
    · refine ⟨here ▸ i.isLt, fun taken => ?_⟩
      obtain ⟨⟨p, y⟩, seat, rfl⟩ := List.mem_map.mp taken
      rw [(fits.slot i y).mpr (here ▸ seat)] at free
      cases free
    · exact absurd (fits.heldOnce.2 i _ before) fits.new
  · rintro ⟨inside, free⟩
    exact (fits.attach inside free).heldOnce

/-- Who leaves takes the seat away, whatever becomes of the places. -/
theorem detach (fits : t.Fits seated) (k : Nat) :
    (t.change (.detach k)).Fits (seated.eraseIdx k) := by
  have same : (seated[k]?).map Prod.snd = t.members[k]? := by
    rw [← fits.members, List.getElem?_map]
  cases found : seated[k]? with
  | none =>
    have beyond : seated.length ≤ k := List.getElem?_eq_none_iff.mp found
    rw [found, Option.map_none] at same
    simp only [Table.change, ← same]
    rwa [List.eraseIdx_of_length_le beyond]
  | some pair =>
    obtain ⟨p, x⟩ := pair
    rw [found, Option.map_some] at same
    have distinct : (seated.map Prod.snd).Nodup := fits.members ▸ fits.membersDistinct
    simp only [Table.change, ← same]
    refine ⟨?_, fun i y => ?_, ?_, ?_, fun q member => ?_, fun y member => ?_⟩
    · rw [← fits.members, List.eraseIdx_map]
    · rw [clear_eq_some_iff, fits.slot, mem_eraseIdx_iff distinct found]
    · rw [← List.eraseIdx_map]
      exact fits.placesDistinct.sublist (List.eraseIdx_sublist _ _)
    · exact fits.membersDistinct.sublist (List.eraseIdx_sublist _ _)
    · exact fits.inRange q (List.mem_of_mem_eraseIdx member)
    · exact fits.earlier y (List.mem_of_mem_eraseIdx member)

end Table.Fits

section Run
variable {n : Nat}

theorem fits_start (issued : Nat) : (Table.start n issued).Fits [] where
  members := rfl
  slot := by simp [Table.start]
  placesDistinct := List.nodup_nil
  membersDistinct := List.nodup_nil
  inRange := by simp
  earlier := by simp [Table.start]

/-- As long as every member attaches at a fresh place, the slots are numbered by the places. -/
theorem fits_run (issued : Nat) {changes : List Change}
    (fresh : History.Justified (Fresh n) changes) :
    ∃ seated, (changes.foldl Table.change (Table.start n issued)).Fits seated ∧
      seated.map Prod.fst = places changes := by
  induction changes using List.reverseRecOn with
  | nil => exact ⟨[], fits_start issued, rfl⟩
  | append_singleton changes c ih =>
    obtain ⟨seated, fits, same⟩ := ih fresh.init
    have size : (places changes).length =
        (changes.foldl Table.change (Table.start n issued)).members.length := by
      rw [← same, List.length_map, fits.length]
    rw [List.foldl_append, places, List.foldl_append]
    cases c with
    | attach =>
      obtain ⟨inside, free⟩ := fresh changes .attach [] rfl rfl
      rw [size] at inside free
      refine ⟨_, fits.attach inside (same ▸ free), ?_⟩
      rw [List.map_append, same, ← size]
      rfl
    | detach k =>
      refine ⟨_, fits.detach k, ?_⟩
      rw [← List.eraseIdx_map, same]
      rfl

/-- Each member is in one slot at every stage exactly when all attach at fresh places. -/
theorem heldOnce_iff (issued : Nat) (changes : List Change) :
    (∀ before, before <+: changes →
      (before.foldl Table.change (Table.start n issued)).HeldOnce) ↔
      History.Justified (Fresh n) changes := by
  refine (History.justified_iff (fits_start issued).heldOnce fun before c fresh _ => ?_).symm
  obtain ⟨seated, fits, same⟩ := fits_run issued fresh
  rw [List.foldl_append]
  cases c with
  | attach =>
    refine fits.attach_iff.trans ?_
    rw [same, ← fits.length, ← List.length_map (f := Prod.fst), same]
    exact ⟨fun kept _ => kept, fun kept => kept rfl⟩
  | detach k =>
    refine iff_of_true (fits.detach k).heldOnce ?_
    rintro ⟨⟩

end Run
end DenseIndex

import StreamEngine.Host.ClientTrust
import StreamEngine.Json.Build
import Mathlib.Data.Option.Basic

/-! Trusting a client rewrites the state file: the new text is the old document with one entry
more, everything else in it is equal to before, and a second time changes nothing. The reader and
the writer look at the same array, and the codec returns the document with positive zeros. -/
namespace StreamEngine.Host
open ByteString Binary64 Json

/-- The devices of a state, none where its shape is another. -/
def namedDevices (doc : Value) : List Value :=
  childArray (childObject doc (ascii "root")) (ascii "named_devices")

/-- The devices once a client is trusted. -/
def withDevice (name certPem uuid : Bytes) (devices : List Value) : List Value :=
  if devices.any (holdsCert certPem) then devices else devices ++ [trustEntry name certPem uuid]

/-- The document with other devices. -/
def setDevices (doc : Value) (devices : List Value) : Value :=
  doc.set (ascii "root") ((childObject doc (ascii "root")).set (ascii "named_devices") (.arr devices))

theorem addTrustedClient_eq (s name certPem uuid : Bytes) : addTrustedClient s name certPem uuid =
    dump (setDevices (parseState s) (withDevice name certPem uuid (namedDevices (parseState s)))) :=
  rfl

/-! ### Reading a state -/

theorem parseState_ordered (s : Bytes) : (parseState s).Ordered := by
  unfold parseState
  split
  · rename_i members accepted
    exact parse_ordered accepted
  · exact Value.codable_obj.ordered

theorem parseState_finite {s : Bytes} (finite : ∀ v, parse s = some v → v.Finite) :
    (parseState s).Finite := by
  unfold parseState
  split
  · rename_i members accepted
    exact finite _ accepted
  · exact Value.codable_obj.finite

theorem childObject_of_find {parent : Value} {key : Bytes} {members : List (Bytes × Value)}
    (found : parent.find key = some (.obj members)) : childObject parent key = .obj members := by
  rw [childObject, found]

theorem childArray_of_find {parent : Value} {key : Bytes} {items : List Value}
    (found : parent.find key = some (.arr items)) : childArray parent key = items := by
  rw [childArray, found]

theorem childObject_ordered {parent : Value} (ordered : parent.Ordered) (key : Bytes) :
    (childObject parent key).Ordered := by
  unfold childObject
  split
  · rename_i members found
    exact ordered.find found
  · exact Value.codable_obj.ordered

theorem childObject_finite {parent : Value} (finite : parent.Finite) (key : Bytes) :
    (childObject parent key).Finite := by
  unfold childObject
  split
  · rename_i members found
    exact finite.find found
  · exact Value.codable_obj.finite

theorem childArray_ordered {parent : Value} (ordered : parent.Ordered) (key : Bytes) :
    Value.OrderedItems (childArray parent key) := by
  unfold childArray
  split
  · rename_i items found
    exact ordered.find found
  · trivial

theorem childArray_finite {parent : Value} (finite : parent.Finite) (key : Bytes) :
    Value.FiniteItems (childArray parent key) := by
  unfold childArray
  split
  · rename_i items found
    simpa only [Value.Finite] using finite.find found
  · trivial

theorem childObject_isObject (parent : Value) (key : Bytes) :
    ∃ members, childObject parent key = .obj members := by
  unfold childObject
  split <;> exact ⟨_, rfl⟩

theorem parseState_isObject (s : Bytes) : ∃ members, parseState s = .obj members := by
  unfold parseState
  split <;> exact ⟨_, rfl⟩

/-- The reader does not ask whether the root is an object: of another value nothing is found. -/
theorem hasTrustedClient_iff {s certPem : Bytes} (named : certPem ≠ []) :
    hasTrustedClient s certPem = (namedDevices (parseState s)).any (holdsCert certPem) := by
  rw [hasTrustedClient, if_neg named, namedDevices]
  cases found : (parseState s).find (ascii "root") with
  | none =>
    have other : childObject (parseState s) (ascii "root") = .obj [] := by rw [childObject, found]
    rw [other]
    rfl
  | some root =>
    cases root with
    | obj members => rw [childObject_of_find found]
    | _ =>
      have other : childObject (parseState s) (ascii "root") = .obj [] := by rw [childObject, found]
      rw [other]
      rfl

theorem holdsCert_unsignZeros (certPem : Bytes) (v : Value) :
    holdsCert certPem v.unsignZeros = holdsCert certPem v := by
  rw [holdsCert, holdsCert, Value.getStr, Value.getStr, Value.find_unsignZeros]
  cases v.find (ascii "cert") with
  | none => rfl
  | some w => cases w <;> rfl

theorem any_holdsCert_unsignItems (certPem : Bytes) (items : List Value) :
    (Value.unsignItems items).any (holdsCert certPem) = items.any (holdsCert certPem) := by
  induction items with
  | nil => rfl
  | cons v items ih =>
    rw [Value.unsignItems, List.any_cons, List.any_cons, holdsCert_unsignZeros, ih]

/-! ### Writing it back -/

theorem orderedItems_append {a b : List Value} (first : Value.OrderedItems a)
    (second : Value.OrderedItems b) : Value.OrderedItems (a ++ b) := by
  induction a with
  | nil => exact second
  | cons v a ih => exact ⟨first.1, ih first.2⟩

theorem finiteItems_append {a b : List Value} (first : Value.FiniteItems a)
    (second : Value.FiniteItems b) : Value.FiniteItems (a ++ b) := by
  induction a with
  | nil => exact second
  | cons v a ih => exact ⟨first.1, ih first.2⟩

theorem codable_trustEntry (name certPem uuid : Bytes) : (trustEntry name certPem uuid).Codable :=
  (((Value.codable_obj.set _ (Value.codable_str _)).set _ (Value.codable_str _)).set _
    (Value.codable_str _)).set _ (Value.codable_str _)

theorem withDevice_ordered {devices : List Value} (ordered : Value.OrderedItems devices)
    (name certPem uuid : Bytes) : Value.OrderedItems (withDevice name certPem uuid devices) := by
  unfold withDevice
  split
  · exact ordered
  · exact orderedItems_append ordered ⟨(codable_trustEntry name certPem uuid).ordered, trivial⟩

theorem withDevice_finite {devices : List Value} (finite : Value.FiniteItems devices)
    (name certPem uuid : Bytes) : Value.FiniteItems (withDevice name certPem uuid devices) := by
  unfold withDevice
  split
  · exact finite
  · exact finiteItems_append finite ⟨(codable_trustEntry name certPem uuid).finite, trivial⟩

theorem setDevices_ordered {doc : Value} {devices : List Value} (ordered : doc.Ordered)
    (inner : Value.OrderedItems devices) : (setDevices doc devices).Ordered :=
  ordered.set _ ((childObject_ordered ordered _).set _ inner)

theorem setDevices_finite {doc : Value} {devices : List Value} (finite : doc.Finite)
    (inner : Value.FiniteItems devices) : (setDevices doc devices).Finite :=
  finite.set _ ((childObject_finite finite _).set _ (by simpa only [Value.Finite] using inner))

theorem holdsCert_trustEntry (certPem name certPem' uuid : Bytes) :
    holdsCert certPem (trustEntry name certPem' uuid) = decide (certPem' = certPem) := by
  simp +decide [holdsCert, trustEntry, Value.getStr]

/-- The devices hold the certificate, and no other one that they did not hold. -/
theorem any_withDevice (name certPem uuid c : Bytes) (devices : List Value) :
    (withDevice name certPem uuid devices).any (holdsCert c) = true ↔
      c = certPem ∨ devices.any (holdsCert c) = true := by
  rw [withDevice]
  split
  · rename_i known
    constructor
    · exact Or.inr
    · rintro (rfl | other)
      · exact known
      · exact other
  · rw [List.any_append, List.any_cons, List.any_nil, Bool.or_false, holdsCert_trustEntry,
      Bool.or_eq_true, decide_eq_true_eq, or_comm, eq_comm (a := certPem)]

/-- The state that the text made by trusting a client parses to. -/
def trustedState (s name certPem uuid : Bytes) : Value :=
  (setDevices (parseState s)
    (withDevice name certPem uuid (namedDevices (parseState s)))).unsignZeros

def trustedRoot (s name certPem uuid : Bytes) : Value :=
  ((childObject (parseState s) (ascii "root")).set (ascii "named_devices")
    (.arr (withDevice name certPem uuid (namedDevices (parseState s))))).unsignZeros

section Trusted
variable {s : Bytes} (finite : ∀ v, parse s = some v → v.Finite) (name certPem uuid : Bytes)

theorem trustedState_isObject : ∃ members, trustedState s name certPem uuid = .obj members := by
  obtain ⟨members, object⟩ := parseState_isObject s
  rw [trustedState, setDevices, object]
  exact ⟨_, rfl⟩

include finite

theorem parse_addTrustedClient :
    parse (addTrustedClient s name certPem uuid) = some (trustedState s name certPem uuid) := by
  have ordered := parseState_ordered s
  have bounded := parseState_finite finite
  exact parse_dump
    (setDevices_ordered ordered
      (withDevice_ordered (childArray_ordered (childObject_ordered ordered _) _) ..))
    (setDevices_finite bounded
      (withDevice_finite (childArray_finite (childObject_finite bounded _) _) ..))

theorem parseState_addTrustedClient :
    parseState (addTrustedClient s name certPem uuid) = trustedState s name certPem uuid := by
  obtain ⟨members, object⟩ := trustedState_isObject (s := s) name certPem uuid
  rw [parseState, parse_addTrustedClient finite, object]

omit finite in
/-- The root that is written, with the devices that are written in it. -/
theorem find_trustedState (k : Bytes) : (trustedState s name certPem uuid).find k =
    if k = ascii "root" then some (trustedRoot s name certPem uuid)
    else ((parseState s).find k).map Value.unsignZeros := by
  rw [trustedState, Value.find_unsignZeros, setDevices, Value.find_set]
  split <;> rfl

omit finite in
theorem find_trustedRoot (k : Bytes) : (trustedRoot s name certPem uuid).find k =
    if k = ascii "named_devices" then
      some (.arr (Value.unsignItems (withDevice name certPem uuid (namedDevices (parseState s)))))
    else ((childObject (parseState s) (ascii "root")).find k).map Value.unsignZeros := by
  rw [trustedRoot, Value.find_unsignZeros, Value.find_set]
  split <;> rfl

omit finite in
theorem childObject_trustedState : childObject (trustedState s name certPem uuid) (ascii "root") =
    trustedRoot s name certPem uuid := by
  have found := find_trustedState (s := s) name certPem uuid (ascii "root")
  rw [if_pos rfl] at found
  obtain ⟨members, object⟩ := childObject_isObject (parseState s) (ascii "root")
  rw [trustedRoot, object] at found ⊢
  exact childObject_of_find found

omit finite in
theorem namedDevices_trustedState : namedDevices (trustedState s name certPem uuid) =
    Value.unsignItems (withDevice name certPem uuid (namedDevices (parseState s))) := by
  rw [namedDevices, childObject_trustedState]
  exact childArray_of_find ((find_trustedRoot ..).trans (if_pos rfl))

/-- Trusting the client of the state again changes no device, and no member. -/
theorem setDevices_trustedState (name' uuid' : Bytes) :
    setDevices (trustedState s name certPem uuid) (withDevice name' certPem uuid'
        (namedDevices (trustedState s name certPem uuid))) = trustedState s name certPem uuid := by
  have held : (namedDevices (trustedState s name certPem uuid)).any (holdsCert certPem) = true := by
    rw [namedDevices_trustedState, any_holdsCert_unsignItems, any_withDevice]
    exact Or.inl rfl
  have ordered : (trustedState s name certPem uuid).Ordered :=
    parse_ordered (parse_addTrustedClient finite name certPem uuid)
  have root := find_trustedState (s := s) name certPem uuid (ascii "root")
  have devices := find_trustedRoot (s := s) name certPem uuid (ascii "named_devices")
  rw [if_pos rfl] at root devices
  rw [← childObject_trustedState] at root devices
  rw [← namedDevices_trustedState] at devices
  rw [withDevice, if_pos held, setDevices, Value.set_find (childObject_ordered ordered _) devices,
    Value.set_find ordered root]

theorem addTrustedClient_again (name' uuid' : Bytes) :
    addTrustedClient (addTrustedClient s name certPem uuid) name' certPem uuid' =
      addTrustedClient s name certPem uuid := by
  rw [addTrustedClient_eq, parseState_addTrustedClient finite,
    setDevices_trustedState finite, trustedState, dump, dumpTo_unsignZeros]
  rfl

theorem hasTrustedClient_add {c : Bytes} (named : c ≠ []) :
    hasTrustedClient (addTrustedClient s name certPem uuid) c = true ↔
      c = certPem ∨ hasTrustedClient s c = true := by
  rw [hasTrustedClient_iff named, hasTrustedClient_iff named, parseState_addTrustedClient finite,
    namedDevices_trustedState, any_holdsCert_unsignItems, any_withDevice]

end Trusted

/-- Absent in both, or equal values. -/
def SameMember (new old : Option Value) : Prop := Option.Rel (fun v w => v.eq w = true) new old

theorem sameMember_unsignZeros {v : Value} (finite : v.Finite) (k : Bytes) :
    SameMember ((v.find k).map Value.unsignZeros) (v.find k) := by
  cases found : v.find k with
  | none => exact Option.Rel.none
  | some w => exact Option.Rel.some (unsignZeros_eq (finite.find found))

/-- A state in which a client is trusted: the old devices or one more at their end, everything else
as before, the old clients and the new one for the reader, and nothing left to add. -/
structure Trusting (s certPem s' : Bytes) (doc root : Value) (devices : List Value) : Prop where
  parsed : parse s' = some doc
  isObject : doc.isObject = true
  root_found : doc.find (ascii "root") = some root
  devices_found : root.find (ascii "named_devices") = some (.arr devices)
  kept : (∃ d ∈ namedDevices (parseState s), holdsCert certPem d = true) →
    Value.eqItems devices (namedDevices (parseState s)) = true
  added : (∀ d ∈ namedDevices (parseState s), holdsCert certPem d = false) →
    ∃ entry, holdsCert certPem entry = true ∧
      Value.eqItems devices (namedDevices (parseState s) ++ [entry]) = true
  document : ∀ k, k ≠ ascii "root" → SameMember (doc.find k) ((parseState s).find k)
  others : ∀ k, k ≠ ascii "named_devices" →
    SameMember (root.find k) ((childObject (parseState s) (ascii "root")).find k)
  trusts : ∀ c, c ≠ [] →
    (hasTrustedClient s' c = true ↔ c = certPem ∨ hasTrustedClient s c = true)
  again : ∀ name uuid, addTrustedClient s' name certPem uuid = s'

/-- Trusting a client, whatever the shape of the state. -/
theorem addTrustedClient_trusting (s name certPem uuid : Bytes)
    (finite : ∀ v, parse s = some v → v.Finite) :
    ∃ doc root devices,
      Trusting s certPem (addTrustedClient s name certPem uuid) doc root devices := by
  have bounded := parseState_finite finite
  have rootBounded := childObject_finite bounded (ascii "root")
  have written : Value.eqItems
      (Value.unsignItems (withDevice name certPem uuid (namedDevices (parseState s))))
      (withDevice name certPem uuid (namedDevices (parseState s))) = true :=
    unsignItems_eq (withDevice_finite (childArray_finite rootBounded _) ..)
  exact ⟨trustedState s name certPem uuid, trustedRoot s name certPem uuid,
    Value.unsignItems (withDevice name certPem uuid (namedDevices (parseState s))), {
    parsed := parse_addTrustedClient finite name certPem uuid
    isObject := by
      obtain ⟨members, object⟩ := trustedState_isObject (s := s) name certPem uuid
      rw [object]
      rfl
    root_found := (find_trustedState ..).trans (if_pos rfl)
    devices_found := (find_trustedRoot ..).trans (if_pos rfl)
    kept := by
      intro known
      rw [withDevice, if_pos (List.any_eq_true.mpr known)] at written ⊢
      exact written
    added := by
      intro unknown
      refine ⟨trustEntry name certPem uuid, by simp [holdsCert_trustEntry], ?_⟩
      rw [withDevice, if_neg (by simpa using unknown)] at written ⊢
      exact written
    document := by
      intro k other
      rw [find_trustedState, if_neg other]
      exact sameMember_unsignZeros bounded k
    others := by
      intro k other
      rw [find_trustedRoot, if_neg other]
      exact sameMember_unsignZeros rootBounded k
    trusts := fun c some => hasTrustedClient_add finite name certPem uuid some
    again := addTrustedClient_again finite name certPem uuid }⟩

/-- A state whose devices are no array. -/
def oddState : Value :=
  ((Value.obj []).set (ascii "root") ((Value.obj []).set (ascii "named_devices") (.bool true))).set
    (ascii "version") (.num (ofInt (-2)))

theorem addTrustedClient_trusting_odd : ∃ doc root devices,
    Trusting (dump oddState) (ascii "cert1")
      (addTrustedClient (dump oddState) (ascii "laptop") (ascii "cert1") (ascii "1"))
      doc root devices := by
  have codable : oddState.Codable := (Value.codable_obj.set _
    (Value.codable_obj.set _ (Value.codable_bool true))).set _ (Value.codable_int (by decide))
  refine addTrustedClient_trusting _ _ _ _ fun v accepted => ?_
  rw [codable.parse_dump, Option.some.injEq] at accepted
  exact accepted ▸ codable.finite

end StreamEngine.Host

import StreamEngine.Net.Pairing

/-! What a new identity is made of, up to OpenSSL. -/
namespace StreamEngine.Net
open ByteString

/-- `generate_identity`, from the texts that OpenSSL makes of a new key if each of its calls
succeeds. -/
def generateIdentity (made : Option ClientIdentity) : Option ClientIdentity :=
  made.filter fun identity => identity.keyPem ≠ [] ∧ identity.certPem ≠ []

/-- `generate_unique_id`, from the bytes that are drawn. -/
def generateUniqueId (drawn : Option (BitVec 64)) : Bytes :=
  match drawn with
  | none => []
  | some uid => hex64 uid

theorem generateIdentity_nonempty {made : Option ClientIdentity} {identity : ClientIdentity}
    (generated : generateIdentity made = some identity) :
    identity.certPem ≠ [] ∧ identity.keyPem ≠ [] := by
  have parts := (Option.filter_eq_some_iff.mp generated).2
  simp only [ne_eq, decide_eq_true_eq] at parts
  exact parts.symm

end StreamEngine.Net

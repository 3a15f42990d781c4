import StreamEngine.Library.ByteString

/-! The pairing primitives. Those of the cryptographic library are parameters, with
the empty string for a failure as in the source, and nothing is assumed of them. -/
namespace StreamEngine.Net
open ByteString

/-- The functions of the cryptographic library. -/
structure Crypto where
  sha256 : Bytes → Bytes
  sha1 : Bytes → Bytes
  /-- AES-128-ECB without padding of data under a key, `none` on failure. -/
  evpEncrypt : Bytes → Bytes → Option Bytes
  evpDecrypt : Bytes → Bytes → Option Bytes
  signatureFromPemCert : Bytes → Bytes
  verifySignature : Bytes → Bytes → Bytes → Bool
  signMessage : Bytes → Bytes → Bytes

/-- `std::string::resize` with zero bytes. -/
def resize (s : Bytes) (n : Nat) : Bytes := s.take n ++ List.replicate (n - s.length) 0

namespace Crypto
variable (crypto : Crypto)

/-- SHA-256 from generation 7 on, SHA-1 before. -/
def genHash (data : Bytes) (gen7plus : Bool) : Bytes :=
  if gen7plus then crypto.sha256 data else crypto.sha1 data

def deriveAesKey (salt pin : Bytes) (gen7plus : Bool) : Bytes :=
  let hashed := crypto.genHash (salt ++ pin) gen7plus
  if hashed.length < 16 then [] else resize hashed 16

/-- `aes_ecb` in either direction. -/
def aesEcb (cipher : Bytes → Bytes → Option Bytes) (data key : Bytes) : Bytes :=
  if key.length ≠ 16 ∨ data = [] ∨ data.length % 16 ≠ 0 then []
  else
    match cipher data key with
    | some out => if out.length ≠ data.length then [] else out
    | none => []

def aesEcbEncrypt (plaintext key : Bytes) : Bytes := aesEcb crypto.evpEncrypt plaintext key

def aesEcbDecrypt (ciphertext key : Bytes) : Bytes := aesEcb crypto.evpDecrypt ciphertext key

end Crypto
end StreamEngine.Net

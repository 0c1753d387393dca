import Vx6.Go.Text
import Vx6.Lib.Checks

/-!
# Node identities

`Crypto` holds the two cryptographic primitives the model leaves abstract. A node ID is the
SHA-256 digest of the node's Ed25519 public key in lower-case hexadecimal, with a fixed tag in
front. An `Identity` holds the two keys of a node next to its ID.
-/

set_option autoImplicit false

namespace Vx6

open Vx6.Go Vx6.Lib

/-- The cryptographic primitives: `sha256.Sum256`, and `ed25519.Verify` applied to a public key, a
message and a signature. -/
structure Crypto where
  sha256 : Bytes → Vector UInt8 32
  ed25519Verify : Bytes → Bytes → Bytes → Bool

/-- `ed25519.PublicKeySize`. -/
def publicKeySize : Nat := 32

/-- `ed25519.SignatureSize`. -/
def signatureSize : Nat := 64

namespace Crypto

/-- The digest of a string, as a byte list. -/
def sum (cr : Crypto) (s : String) : Bytes := (cr.sha256 (bytes s)).toList

/-- The first `n` bytes of the digest of a string in raw URL base64. -/
def shortSum (cr : Crypto) (n : Nat) (s : String) : String :=
  rawURLEncoding.encodeToString ((cr.sum s).take n)

theorem sum_length (cr : Crypto) (s : String) : (cr.sum s).length = 32 := by
  simp [sum]

theorem shortSum_ne_empty (cr : Crypto) {n : Nat} (hn : n ≠ 0) (s : String) :
    cr.shortSum n s ≠ "" := by
  apply encodeToString_ne_empty
  intro h
  have hlen := congrArg List.length h
  rw [List.length_take, sum_length, List.length_nil] at hlen
  omega

end Crypto

/-- `identity.NodeIDFromPublicKey`. -/
def nodeIDFromPublicKey (cr : Crypto) (publicKey : Bytes) : String :=
  "vx6_" ++ hexEncode (cr.sha256 publicKey).toList

/-- `ed25519.PrivateKeySize`. -/
def privateKeySize : Nat := 64

/-- `identity.Identity`. -/
structure Identity where
  nodeID : String
  publicKey : Bytes
  privateKey : Bytes

/-- The errors of `Validate`. -/
inductive IdentityError where
  | missingNodeID
  | invalidPublicKey
  | invalidPrivateKey
  | nodeIDMismatch
  | keyMismatch
  deriving DecidableEq, Repr

namespace Identity

/-- `Validate`. The public half of a private key are its last 32 bytes. -/
def validate (cr : Crypto) (id : Identity) : Except IdentityError Unit := do
  rejectIf (id.nodeID = "") .missingNodeID
  rejectIf (id.publicKey.length ≠ publicKeySize) .invalidPublicKey
  rejectIf (id.privateKey.length ≠ privateKeySize) .invalidPrivateKey
  rejectIf (nodeIDFromPublicKey cr id.publicKey ≠ id.nodeID) .nodeIDMismatch
  rejectIf (id.publicKey ≠ id.privateKey.drop publicKeySize) .keyMismatch

theorem nodeID_of_validate {cr : Crypto} {id : Identity} (h : id.validate cr = .ok ()) :
    nodeIDFromPublicKey cr id.publicKey = id.nodeID := by
  simp only [validate, bind_eq_ok, rejectIf_eq_ok, exists_const] at h
  simpa using h.2.2.2.1

end Identity

end Vx6

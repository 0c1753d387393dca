import Vx6.Secure.Session

/-!
# Created cells

How the client of a circuit checks the answer of a relay, from `internal/onion/cell.go`.
-/

set_option autoImplicit false

namespace Vx6.Onion

open Vx6.Go Vx6.Lib

/-- The errors of `verifyCreatedPayload`. -/
inductive CellError where
  | createdSize (length : Nat)
  | decodeRelayKey
  | relayKeySize
  | createdSignature
  deriving DecidableEq, Repr

/-- `createdSigningPayload`. -/
def createdSigningPayload (circuitID : Vector UInt8 16) (clientPub : Vector UInt8 32)
    (serverPub : Bytes) : Bytes :=
  bytes "vx6-onion-create\n" ++ circuitID.toList ++ clientPub.toList ++ serverPub

/-- `verifyCreatedPayload`: the key of the relay, if its signature over both keys is valid. -/
def verifyCreatedPayload (cr : Crypto) (payload : Bytes) (expectedPubKey : String)
    (circuitID : Vector UInt8 16) (clientPub : Vector UInt8 32) : Panicking CellError Bytes := do
  attempt (rejectIf (payload.length ≠ 32 + 64) (.createdSize payload.length))
  let serverPub := payload.take 32
  let signature := payload.drop 32
  let pubKey ← attempt (orReject (stdEncoding.decodeString expectedPubKey) .decodeRelayKey)
  attempt (rejectIf (pubKey.length ≠ publicKeySize) .relayKeySize)
  let verified ← cr.verify pubKey (createdSigningPayload circuitID clientPub serverPub) signature
  attempt (rejectIf (!verified) .createdSignature)
  return serverPub

theorem safe_verifyCreatedPayload (cr : Crypto) (payload : Bytes) (expectedPubKey : String)
    (circuitID : Vector UInt8 16) (clientPub : Vector UInt8 32) :
    Safe (verifyCreatedPayload cr payload expectedPubKey circuitID clientPub) := by
  simp only [verifyCreatedPayload, Crypto.verify, safe_attempt_bind_iff, safe_guarded_bind_iff,
    orReject_eq_ok, rejectIf_eq_ok]
  intro _ _ pubKey _ _ hsize
  exact ⟨by simpa using hsize, fun _ _ => safe_pure _⟩

end Vx6.Onion

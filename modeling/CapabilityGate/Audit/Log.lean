import CapabilityGate.Audit.Record
import CapabilityGate.Digest.Sha256

/-!
# The log of denials

An append-only list of records with a hash chain beside it: each hash is taken over the hash before
it and the payload of its record, and the first over 32 zero bytes. `Log.verify` recomputes the
chain and names the first record whose hash differs. The log is never asked for a decision.
-/
namespace CapabilityGate

/-- **`chainHash previous payload`** — the hash of an entry that follows `previous`. -/
def chainHash (previous : Digest) (payload : List UInt8) : Digest :=
  sha256 (previous.bytes ++ payload)

/-- The hashes of a run of records that follows the hash `previous`. -/
def chainFrom (previous : Digest) : List Record → List Digest
  | [] => []
  | r :: rs => chainHash previous r.payload :: chainFrom (chainHash previous r.payload) rs

/-- Records, oldest first, and their hashes. -/
structure Log where
  records : List Record
  hashes : List Digest
deriving DecidableEq, Repr

/-- The position of the first record whose stored hash is not the recomputed one. -/
structure Log.Mismatch where
  entry : Nat
deriving DecidableEq, Repr

/-- The explanation of a mismatch. -/
def Log.Mismatch.message (m : Log.Mismatch) : String :=
  s!"violation log hash mismatch at entry {m.entry}"

namespace Log

/-- The log without records. -/
def empty : Log := ⟨[], []⟩

/-- The last hash, 32 zero bytes in an empty log. -/
def head (l : Log) : Digest := l.hashes.getLast?.getD Digest.zero

/-- Adds a record and its hash. -/
def append (l : Log) (r : Record) : Log :=
  ⟨l.records ++ [r], l.hashes ++ [chainHash l.head r.payload]⟩

/-- Adds records one after the other. -/
def extend (l : Log) (rs : List Record) : Log := rs.foldl append l

/-- The number of records; as a mark it stands for the records that are there now. -/
def mark (l : Log) : Nat := l.records.length

/-- The records that came after a mark was taken. -/
def since (l : Log) (mark : Nat) : List Record := l.records.drop mark

/-- Is there no record. -/
def isEmpty (l : Log) : Bool := l.records.isEmpty

/-- Recomputes hashes from `previous` on, as far as both lists reach; `entry` counts them. -/
def verifyFrom (previous : Digest) (entry : Nat) :
    List Record → List Digest → Except Mismatch Unit
  | r :: rs, stored :: hs =>
    let expected := chainHash previous r.payload
    if expected = stored then verifyFrom expected (entry + 1) rs hs else .error ⟨entry⟩
  | _, _ => .ok ()

/-- **`l.verify`** — does every stored hash agree with the recomputed chain. -/
def verify (l : Log) : Except Mismatch Unit := verifyFrom Digest.zero 0 l.records l.hashes

end Log

end CapabilityGate

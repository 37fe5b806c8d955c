import CapabilityGate.Proofs.Audit.Chain
import Mathlib.Data.List.Induction

/-!
# What a head commits to

The head of a log is one hash, but every payload of the log has gone into it, each behind the hash of
what came before. `Log.hashed` lists the byte strings that were hashed on the way. As long as the hash
function tells those of two logs apart and takes none of them to the zero hash, logs with the same
head have the same payloads: `head_commits` goes back from the heads, one record at a time.
-/
namespace CapabilityGate

/-! ## The byte strings behind a chain -/

/-- **`hashedFrom previous rs`** — the byte strings that are hashed for a chain: each time the hash
before, and the payload. -/
def hashedFrom (previous : Digest) : List Record → List (List UInt8)
  | [] => []
  | r :: rs => (previous.bytes ++ r.payload) :: hashedFrom (chainHash previous r.payload) rs

/-- The byte strings that were hashed for a log. -/
def Log.hashed (l : Log) : List (List UInt8) := hashedFrom Digest.zero l.records

section Chain

variable (previous : Digest) (rs : List Record) (r : Record)

theorem hashedFrom_concat :
    hashedFrom previous (rs ++ [r]) =
      hashedFrom previous rs ++ [(chainEnd previous rs).bytes ++ r.payload] := by
  induction rs generalizing previous with
  | nil => rfl
  | cons s rs ih =>
    rw [List.cons_append, hashedFrom, hashedFrom, ih, chainEnd_cons, List.cons_append]

theorem chainEnd_concat :
    chainEnd previous (rs ++ [r]) = sha256 ((chainEnd previous rs).bytes ++ r.payload) := by
  rw [chainEnd, List.foldl_append]
  rfl

end Chain

/-- All hashes have one length, so it is clear where the payload begins. -/
theorem Digest.bytes_append_inj {d e : Digest} {p q : List UInt8} :
    d.bytes ++ p = e.bytes ++ q ↔ d = e ∧ p = q := by
  constructor
  · intro same
    obtain ⟨hash, payload⟩ := List.append_inj same (d.length_eq.trans e.length_eq.symm)
    cases d
    cases e
    exact ⟨by simpa using hash, payload⟩
  · rintro ⟨rfl, rfl⟩
    rfl

/-! ## Going back from a head -/

/-- **`Separates messages`** — the hash function has different values on different ones of the
messages, and the zero hash on none. -/
structure Sha256.Separates (messages : List (List UInt8)) : Prop where
  apart : ∀ m ∈ messages, ∀ n ∈ messages, m ≠ n → sha256 m ≠ sha256 n
  nonzero : ∀ m ∈ messages, sha256 m ≠ Digest.zero

theorem Sha256.Separates.mono {messages others : List (List UInt8)} (h : Separates messages)
    (fewer : others ⊆ messages) : Separates others :=
  ⟨fun m hm n hn => h.apart m (fewer hm) n (fewer hn), fun m hm => h.nonzero m (fewer hm)⟩

/-- Chains from the zero hash that end in the same hash go over the same payloads. -/
theorem payloads_eq_of_chainEnd_eq {rs ss : List Record}
    (separated : Sha256.Separates (hashedFrom Digest.zero rs ++ hashedFrom Digest.zero ss))
    (same : chainEnd Digest.zero rs = chainEnd Digest.zero ss) :
    rs.map Record.payload = ss.map Record.payload := by
  -- From the back: a hash gives the last message of a chain, which begins with the hash before.
  induction rs using List.reverseRecOn generalizing ss with
  | nil =>
    cases ss using List.reverseRecOn with
    | nil => rfl
    | append_singleton ss s =>
      rw [chainEnd_concat] at same
      exact absurd same.symm (separated.nonzero _ (by simp [hashedFrom_concat]))
  | append_singleton rs r ih =>
    cases ss using List.reverseRecOn with
    | nil =>
      rw [chainEnd_concat] at same
      exact absurd same (separated.nonzero _ (by simp [hashedFrom_concat]))
    | append_singleton ss s =>
      rw [hashedFrom_concat, hashedFrom_concat] at separated
      rw [chainEnd_concat, chainEnd_concat] at same
      have message : (chainEnd Digest.zero rs).bytes ++ r.payload =
          (chainEnd Digest.zero ss).bytes ++ s.payload := by
        by_contra different
        exact separated.apart _ (by simp) _ (by simp) different same
      obtain ⟨before, payload⟩ := Digest.bytes_append_inj.mp message
      have earlier : rs.map Record.payload = ss.map Record.payload :=
        ih (separated.mono
          ((List.sublist_append_left _ _).append (List.sublist_append_left _ _)).subset) before
      simp [earlier, payload]

/-- **The head commits to the whole history.** Take two logs that were built by appending and have the
same head, and let the hash function separate the byte strings that were hashed for the two. Then one
has as many records as the other, with the same payload at every position. -/
theorem head_commits (rs ss : List Record)
    (separated : Sha256.Separates ((Log.empty.extend rs).hashed ++ (Log.empty.extend ss).hashed))
    (same : (Log.empty.extend rs).head = (Log.empty.extend ss).head) :
    (Log.empty.extend rs).records.length = (Log.empty.extend ss).records.length ∧
      ∀ i : Nat, (Log.empty.extend rs).records[i]?.map Record.payload =
        (Log.empty.extend ss).records[i]?.map Record.payload := by
  rw [(Log.intact_empty.extend rs).head, (Log.intact_empty.extend ss).head] at same
  have payloads := payloads_eq_of_chainEnd_eq separated same
  refine ⟨by simpa using congrArg List.length payloads, fun i => ?_⟩
  rw [← List.getElem?_map, ← List.getElem?_map, payloads]

/-! ## Two logs with one head -/

/-- A denial without a resource. -/
def bareDenial : Record := ⟨⟨"net"⟩, none, "get", 0⟩

/-- The same denial with an empty resource, which has the same payload. -/
def emptyDenial : Record := { bareDenial with resource := some "" }

/-- The first bytes of the hashes of two bare denials. -/
theorem chainFrom_bareDenial :
    (chainFrom Digest.zero [bareDenial, bareDenial]).map (·.bytes.head?) = [some 107, some 65] := by
  decide +kernel

/-- The logs of a bare and of an empty denial, each with a bare denial after it, have one head, and
so the same payloads. -/
theorem head_commits_bare_empty :
    let bare := Log.empty.extend [bareDenial, bareDenial]
    let empty := Log.empty.extend [emptyDenial, bareDenial]
    Sha256.Separates (bare.hashed ++ empty.hashed) ∧ bare.head = empty.head ∧
      bare.records ≠ empty.records ∧ bare.records.length = empty.records.length ∧
      ∀ i : Nat, bare.records[i]?.map Record.payload = empty.records[i]?.map Record.payload := by
  intro bare empty
  let m := Digest.zero.bytes ++ bareDenial.payload
  let n := (sha256 m).bytes ++ bareDenial.payload
  obtain ⟨first, second⟩ : (sha256 m).bytes.head? = some 107 ∧ (sha256 n).bytes.head? = some 65 := by
    simpa [chainFrom, chainHash] using chainFrom_bareDenial
  have apart : sha256 m ≠ sha256 n := fun same => by
    rw [same, second] at first
    cases first
  have firstNonzero : sha256 m ≠ Digest.zero := fun same => by
    rw [same] at first
    exact absurd first (by decide)
  have secondNonzero : sha256 n ≠ Digest.zero := fun same => by
    rw [same] at second
    exact absurd second (by decide)
  have separated : Sha256.Separates (bare.hashed ++ empty.hashed) := by
    rw [show bare.hashed ++ empty.hashed = [m, n, m, n] from rfl]
    exact ⟨by simp [apart, apart.symm], by simp [firstNonzero, secondNonzero]⟩
  have same : bare.head = empty.head := rfl
  exact ⟨separated, same, by decide, head_commits _ _ separated same⟩

end CapabilityGate

import CapabilityGate.Proofs.Audit.Commitment

/-!
# What a verification finds

A verification walks through the records and the stored hashes side by side and recomputes the chain
on the way. So all that it finds is the first position at which the stored hashes and the recomputed
chain differ, `FirstDifference`, and it stops where the shorter of the two lists ends:
`Log.verifyFrom_eq_error_iff` says when it fails and where, `Log.verifyFrom_eq_ok_iff` when it does
not.

Rewritten records are found that way. A chain knows of a record nothing but its payload, and the
chains over two lists of records first differ where the first two payloads do, as long as the hash
function tells the two messages apart that are hashed there (`firstDifference_chainFrom`).
-/
namespace CapabilityGate

/-! ## The first difference of two lists -/

section Lists

variable {α : Type} {as bs : List α}

/-- **`FirstDifference as bs i`** — both lists have an element at position `i`, the two are
different, and before it there is no difference. -/
inductive FirstDifference : List α → List α → Nat → Prop where
  /-- The lists differ in their first elements. -/
  | here {a b : α} {as bs : List α} (different : a ≠ b) : FirstDifference (a :: as) (b :: bs) 0
  /-- They have the same first element and differ later. -/
  | later {a : α} {as bs : List α} {i : Nat} (rest : FirstDifference as bs i) :
    FirstDifference (a :: as) (a :: bs) (i + 1)

theorem firstDifference_zero_iff {a b : α} : FirstDifference (a :: as) (b :: bs) 0 ↔ a ≠ b :=
  ⟨fun | .here different => different, .here⟩

theorem firstDifference_succ_iff {a b : α} {i : Nat} :
    FirstDifference (a :: as) (b :: bs) (i + 1) ↔ a = b ∧ FirstDifference as bs i := by
  constructor
  · intro h
    cases h with
    | later rest => exact ⟨rfl, rest⟩
  · rintro ⟨rfl, rest⟩
    exact .later rest

/-- Two lists that nowhere differ are one list and a beginning of it. -/
theorem firstDifference_or_prefix (as bs : List α) :
    (∃ i, FirstDifference as bs i) ∨ as <+: bs ∨ bs <+: as := by
  induction as generalizing bs with
  | nil => exact .inr (.inl (List.nil_prefix))
  | cons a as ih =>
    cases bs with
    | nil => exact .inr (.inr (List.nil_prefix))
    | cons b bs =>
      by_cases same : a = b
      · subst same
        rcases ih bs with ⟨i, rest⟩ | shorter | longer
        · exact .inl ⟨i + 1, .later rest⟩
        · exact .inr (.inl (List.cons_prefix_cons.mpr ⟨rfl, shorter⟩))
        · exact .inr (.inr (List.cons_prefix_cons.mpr ⟨rfl, longer⟩))
      · exact .inl ⟨0, .here same⟩

/-- Two different lists of one length differ somewhere. -/
theorem exists_firstDifference (length : as.length = bs.length) (different : as ≠ bs) :
    ∃ i, FirstDifference as bs i := by
  rcases firstDifference_or_prefix as bs with found | shorter | longer
  · exact found
  · exact absurd (shorter.eq_of_length length) different
  · exact absurd (longer.eq_of_length length.symm).symm different

end Lists

namespace Log

/-! ## Records and hashes side by side -/

section Walk

variable {previous : Digest} {entry i : Nat} {rs : List Record} {hs : List Digest}

/-- A hash that is not the recomputed one is reported, with its position. -/
theorem verifyFrom_of_firstDifference (h : FirstDifference hs (chainFrom previous rs) i) :
    verifyFrom previous entry rs hs = .error ⟨entry + i⟩ := by
  induction rs generalizing previous entry hs i with
  | nil => cases h
  | cons r rs ih =>
    rw [chainFrom] at h
    cases h with
    | here different => exact if_neg different.symm
    | later rest =>
      show (if chainHash previous r.payload = chainHash previous r.payload then _ else _) = _
      rw [if_pos rfl, ih rest, Nat.add_assoc, Nat.add_comm 1]

/-- Hashes that are missing at the end, or of which there are too many, are not. -/
theorem verifyFrom_of_agreement
    (h : hs <+: chainFrom previous rs ∨ chainFrom previous rs <+: hs) :
    verifyFrom previous entry rs hs = .ok () := by
  induction rs generalizing previous entry hs with
  | nil => cases hs <;> rfl
  | cons r rs ih =>
    cases hs with
    | nil => rfl
    | cons stored hs =>
      rw [chainFrom, List.cons_prefix_cons, List.cons_prefix_cons] at h
      -- Either way the first hash is the recomputed one, and the rest is walked in the same way.
      have first : chainHash previous r.payload = stored := by
        rcases h with ⟨same, -⟩ | ⟨same, -⟩
        · exact same.symm
        · exact same
      have rest : hs <+: chainFrom (chainHash previous r.payload) rs ∨
          chainFrom (chainHash previous r.payload) rs <+: hs :=
        h.imp And.right And.right
      show (if chainHash previous r.payload = stored then _ else _) = _
      rw [if_pos first]
      exact ih rest

theorem verifyFrom_eq_ok_iff :
    verifyFrom previous entry rs hs = .ok () ↔
      hs <+: chainFrom previous rs ∨ chainFrom previous rs <+: hs := by
  refine ⟨fun accepted => ?_, verifyFrom_of_agreement⟩
  rcases firstDifference_or_prefix hs (chainFrom previous rs) with ⟨i, found⟩ | related
  · rw [verifyFrom_of_firstDifference found] at accepted
    cases accepted
  · exact related

theorem verifyFrom_eq_error_iff {m : Mismatch} :
    verifyFrom previous entry rs hs = .error m ↔
      ∃ i, m = ⟨entry + i⟩ ∧ FirstDifference hs (chainFrom previous rs) i := by
  constructor
  · intro refused
    rcases firstDifference_or_prefix hs (chainFrom previous rs) with ⟨i, found⟩ | related
    · rw [verifyFrom_of_firstDifference found] at refused
      cases refused
      exact ⟨i, rfl, found⟩
    · rw [verifyFrom_of_agreement related] at refused
      cases refused
  · rintro ⟨i, rfl, found⟩
    exact verifyFrom_of_firstDifference found

end Walk

theorem verify_eq_error_iff {l : Log} {i : Nat} :
    l.verify = .error ⟨i⟩ ↔ FirstDifference l.hashes (chainFrom Digest.zero l.records) i := by
  rw [verify, verifyFrom_eq_error_iff]
  simp

/-- An intact log is one that verifies and has one hash for each record. -/
theorem intact_iff_verify {l : Log} :
    l.Intact ↔ l.hashes.length = l.records.length ∧ l.verify = .ok () := by
  constructor
  · intro intact
    exact ⟨intact.consistent.lengths, intact.consistent.verified⟩
  · rintro ⟨length, accepted⟩
    rw [← length_chainFrom Digest.zero l.records] at length
    rcases verifyFrom_eq_ok_iff.mp accepted with shorter | longer
    · exact shorter.eq_of_length length
    · exact (longer.eq_of_length length.symm).symm

theorem chainFrom_prefix {previous : Digest} {rs ss : List Record} (h : rs <+: ss) :
    chainFrom previous rs <+: chainFrom previous ss := by
  obtain ⟨others, rfl⟩ := h
  rw [chainFrom_append]
  exact List.prefix_append _ _

/-- **A verification compares as much as both lists have.** Take any records and any hashes. The
verification succeeds exactly if the stored hashes are a beginning of the recomputed chain or the
chain is a beginning of them, and it fails at a position exactly if the two first differ there; at
the front the first hash is compared with that of the first record. So the hashes are the chain over
the records exactly if there is one for each record and the verification succeeds, and nothing is
reported that is added to, or missing from, the end of one of the two lists of an intact log. -/
theorem verification_compares_common_part (l : Log) :
    (l.verify = .ok () ↔
      l.hashes <+: chainFrom Digest.zero l.records ∨ chainFrom Digest.zero l.records <+: l.hashes) ∧
    (∀ i, l.verify = .error ⟨i⟩ ↔ FirstDifference l.hashes (chainFrom Digest.zero l.records) i) ∧
    (∀ r rs d hs, l.records = r :: rs → l.hashes = d :: hs →
      (l.verify = .error ⟨0⟩ ↔ d ≠ chainHash Digest.zero r.payload)) ∧
    (l.hashes = chainFrom Digest.zero l.records ↔
      l.hashes.length = l.records.length ∧ l.verify = .ok ()) ∧
    (l.Intact → ∀ rs hs n,
      (Log.mk (l.records ++ rs) l.hashes).verify = .ok () ∧
      (Log.mk l.records (l.hashes ++ hs)).verify = .ok () ∧
      (Log.mk (l.records.take n) l.hashes).verify = .ok () ∧
      (Log.mk l.records (l.hashes.take n)).verify = .ok ()) := by
  refine ⟨verifyFrom_eq_ok_iff, fun i => verify_eq_error_iff, ?_, intact_iff_verify, ?_⟩
  · intro r rs d hs records hashes
    rw [verify_eq_error_iff, records, hashes, chainFrom, firstDifference_zero_iff]
  · intro intact rs hs n
    have hashes : l.hashes = chainFrom Digest.zero l.records := intact
    refine ⟨verifyFrom_of_agreement (.inl ?_), verifyFrom_of_agreement (.inr ?_),
      verifyFrom_of_agreement (.inr ?_), verifyFrom_of_agreement (.inl ?_)⟩
    · rw [hashes]
      exact chainFrom_prefix (List.prefix_append _ _)
    · rw [← hashes]
      exact List.prefix_append _ _
    · rw [hashes]
      exact chainFrom_prefix (List.take_prefix _ _)
    · rw [← hashes]
      exact List.take_prefix _ _

/-- A record without a hash verifies, although the chain over the records has one. -/
theorem missing_hash_unreported :
    let l : Log := ⟨[bareDenial], []⟩
    ¬ (l.verify = .ok () ↔
      l.hashes.length = l.records.length ∧ l.hashes = chainFrom Digest.zero l.records) := by
  intro l same
  have accepted : l.verify = .ok () := rfl
  obtain ⟨length, -⟩ := same.mp accepted
  exact absurd length (by decide)

end Log

/-! ## Rewritten records -/

section Rewriting

variable {previous : Digest} {rs ss : List Record} {i : Nat}

/-- A chain knows of a record nothing but its payload. -/
theorem chainFrom_congr (same : rs.map Record.payload = ss.map Record.payload) :
    chainFrom previous rs = chainFrom previous ss := by
  induction rs generalizing previous ss with
  | nil =>
    cases ss with
    | nil => rfl
    | cons s ss => cases same
  | cons r rs ih =>
    cases ss with
    | nil => cases same
    | cons s ss =>
      rw [List.map_cons, List.map_cons, List.cons.injEq] at same
      rw [chainFrom, chainFrom, same.1, ih same.2]

/-- Where payloads first differ, two different messages are hashed, and the chains first differ
there exactly if the messages have different hashes. -/
theorem firstDifference_chainFrom (previous : Digest)
    (h : FirstDifference (rs.map Record.payload) (ss.map Record.payload) i) :
    ∃ m n, (hashedFrom previous rs)[i]? = some m ∧ (hashedFrom previous ss)[i]? = some n ∧ m ≠ n ∧
      (FirstDifference (chainFrom previous rs) (chainFrom previous ss) i ↔
        sha256 m ≠ sha256 n) := by
  induction rs generalizing previous ss i with
  | nil => cases h
  | cons r rs ih =>
    cases ss with
    | nil => cases h
    | cons s ss =>
      cases i with
      | zero =>
        have different : r.payload ≠ s.payload := firstDifference_zero_iff.mp h
        refine ⟨previous.bytes ++ r.payload, previous.bytes ++ s.payload, rfl, rfl, ?_, ?_⟩
        · intro same
          exact different (Digest.bytes_append_inj.mp same).2
        · exact firstDifference_zero_iff
      | succ i =>
        -- The payloads agree so far, so both chains go on from the same hash.
        obtain ⟨same, rest⟩ := firstDifference_succ_iff.mp h
        obtain ⟨m, n, hashed, hashed', different, located⟩ :=
          ih (chainHash previous r.payload) rest
        rw [chainFrom, chainFrom, hashedFrom, hashedFrom, ← same]
        refine ⟨m, n, hashed, hashed', different, ?_⟩
        rw [firstDifference_succ_iff, located]
        exact and_iff_right rfl

/-- **Rewritten records are found where they begin.** Build a log by appending and put other
records, as many, in place of its records, with the hashes left as they are. If all payloads are
what they were, the verification succeeds. If not, it comes at the first payload that has changed to
a message that is not the one that was hashed there, and as long as the hash function tells these
two apart, it names exactly this position, whatever was changed after it. -/
theorem rewritten_records_located (rs ss : List Record) (length : ss.length = rs.length) :
    let l := Log.empty.extend rs
    let rewritten : Log := { l with records := ss }
    (l.records.map Record.payload = ss.map Record.payload → rewritten.verify = .ok ()) ∧
    (l.records.map Record.payload ≠ ss.map Record.payload →
      ∃ i m n, FirstDifference (l.records.map Record.payload) (ss.map Record.payload) i ∧
        l.hashed[i]? = some m ∧ rewritten.hashed[i]? = some n ∧ m ≠ n ∧
        (sha256 m ≠ sha256 n → rewritten.verify = .error ⟨i⟩)) := by
  intro l rewritten
  have records : l.records = rs := Log.extend_records _ _
  have hashes : l.hashes = chainFrom Digest.zero l.records := Log.intact_empty.extend rs
  constructor
  · intro unchanged
    have kept : rewritten.hashes = chainFrom Digest.zero ss :=
      hashes.trans (chainFrom_congr unchanged)
    exact Log.verifyFrom_of_agreement (.inl (kept ▸ List.prefix_refl rewritten.hashes))
  · intro changed
    obtain ⟨i, first⟩ := exists_firstDifference (by simp [records, length]) changed
    obtain ⟨m, n, hashed, hashed', different, located⟩ :=
      firstDifference_chainFrom Digest.zero first
    refine ⟨i, m, n, first, hashed, hashed', different, fun apart => ?_⟩
    rw [Log.verify_eq_error_iff, show rewritten.hashes = l.hashes from rfl, hashes]
    exact located.mpr apart

/-- The same denial of another operation. -/
def forgedDenial : Record := { bareDenial with operation := "put" }

/-- Of two denials that are rewritten the first one keeps its payload, so the second one is named.
-/
theorem rewritten_records_located_second :
    let l := Log.empty.extend [bareDenial, bareDenial]
    [emptyDenial, forgedDenial].length = [bareDenial, bareDenial].length ∧
      ({ l with records := [emptyDenial, forgedDenial] } : Log).verify = .error ⟨1⟩ := by
  intro l
  obtain ⟨-, found⟩ :=
    rewritten_records_located [bareDenial, bareDenial] [emptyDenial, forgedDenial] rfl
  obtain ⟨i, m, n, first, hashed, hashed', -, located⟩ := found (by decide +kernel)
  have second : i = 1 := by
    rcases i with - | - | i
    · exact absurd rfl (firstDifference_zero_iff.mp first)
    · rfl
    · cases (firstDifference_succ_iff.mp (firstDifference_succ_iff.mp first).2).2
  subst second
  have apart : (l.hashed[1]?.map sha256) ≠
      (Log.hashed { l with records := [emptyDenial, forgedDenial] })[1]?.map sha256 := by
    decide +kernel
  refine ⟨rfl, located fun same => apart ?_⟩
  rw [hashed, hashed', Option.map_some, Option.map_some, same]

end Rewriting

end CapabilityGate

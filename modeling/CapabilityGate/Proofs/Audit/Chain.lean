import CapabilityGate.Audit.Log

/-!
# The chain beside the records

A log that was only ever appended to is *intact*: its hashes are the chain that starts from the zero
hash and goes over its records. `Log.Intact` says so in one equation, and everything that a reader of
the log can check follows from it: `Log.Intact.consistent`.
-/
namespace CapabilityGate

/-! ## Chains -/

section Chain

variable (previous : Digest) (r : Record) (rs ss : List Record)

/-- The hash in which a chain ends. -/
def chainEnd : Digest := rs.foldl (fun d r => chainHash d r.payload) previous

theorem chainEnd_cons : chainEnd previous (r :: rs) = chainEnd (chainHash previous r.payload) rs :=
  rfl

@[simp]
theorem length_chainFrom : (chainFrom previous rs).length = rs.length := by
  induction rs generalizing previous with
  | nil => rfl
  | cons r rs ih => rw [chainFrom, List.length_cons, List.length_cons, ih]

theorem chainFrom_append :
    chainFrom previous (rs ++ ss) = chainFrom previous rs ++ chainFrom (chainEnd previous rs) ss := by
  induction rs generalizing previous with
  | nil => rfl
  | cons r rs ih =>
    rw [List.cons_append, chainFrom, chainFrom, ih, chainEnd_cons, List.cons_append]

theorem getLast?_chainFrom :
    (chainFrom previous rs).getLast?.getD previous = chainEnd previous rs := by
  induction rs generalizing previous with
  | nil => rfl
  | cons r rs ih =>
    rw [chainFrom, chainEnd_cons, ← ih]
    cases chainFrom (chainHash previous r.payload) rs <;> rfl

/-- Each hash of a chain is taken over the one before it. -/
theorem chainFrom_next {i : Nat} {d : Digest} {s : Record}
    (before : (chainFrom previous rs)[i]? = some d) (record : rs[i + 1]? = some s) :
    (chainFrom previous rs)[i + 1]? = some (chainHash d s.payload) := by
  induction rs generalizing previous i with
  | nil => simp at record
  | cons r rs ih =>
    rw [chainFrom, List.getElem?_cons_succ]
    rw [List.getElem?_cons_succ] at record
    cases i with
    | succ i => exact ih _ before record
    | zero =>
      -- The hash before is that of the first record, and the rest of the chain starts from it.
      obtain rfl : chainHash previous r.payload = d := Option.some.inj before
      rcases rs with - | ⟨r', rs⟩
      · simp at record
      · obtain rfl : r' = s := Option.some.inj record
        rfl

theorem verifyFrom_chainFrom (entry : Nat) :
    Log.verifyFrom previous entry rs (chainFrom previous rs) = .ok () := by
  induction rs generalizing previous entry with
  | nil => rfl
  | cons r rs ih => simp [chainFrom, Log.verifyFrom, ih]

end Chain

/-! ## Intact logs -/

namespace Log

/-- **`l.Intact`** — the hashes are the chain over the records. -/
def Intact (l : Log) : Prop := l.hashes = chainFrom Digest.zero l.records

theorem intact_empty : empty.Intact := rfl

theorem Intact.head {l : Log} (h : l.Intact) : l.head = chainEnd Digest.zero l.records := by
  rw [Log.head, h, getLast?_chainFrom]

theorem Intact.append {l : Log} (h : l.Intact) (r : Record) : (l.append r).Intact := by
  show l.hashes ++ [chainHash l.head r.payload] = chainFrom Digest.zero (l.records ++ [r])
  rw [chainFrom_append, ← h, ← h.head]
  rfl

theorem Intact.extend {l : Log} (h : l.Intact) (rs : List Record) : (l.extend rs).Intact := by
  unfold Log.extend
  induction rs generalizing l with
  | nil => exact h
  | cons r rs ih => exact ih (h.append r)

theorem extend_records (l : Log) (rs : List Record) :
    (l.extend rs).records = l.records ++ rs := by
  unfold extend
  induction rs generalizing l with
  | nil => simp
  | cons r rs ih => simp [ih, append]

theorem extend_append (l : Log) (rs ss : List Record) :
    l.extend (rs ++ ss) = (l.extend rs).extend ss :=
  List.foldl_append

/-- Records and hashes that are there stay where they are. -/
theorem prefix_extend (l : Log) (rs : List Record) :
    l.records <+: (l.extend rs).records ∧ l.hashes <+: (l.extend rs).hashes := by
  unfold extend
  induction rs generalizing l with
  | nil => exact ⟨List.prefix_refl _, List.prefix_refl _⟩
  | cons r rs ih =>
    obtain ⟨records, hashes⟩ := ih (l.append r)
    exact ⟨(List.prefix_append _ _).trans records, (List.prefix_append _ _).trans hashes⟩

/-- **What a reader of a log can check**: there is one hash for each record, the first is taken over
32 zero bytes and each other over the one before it, the head is the last of them, and the
verification finds no mismatch. -/
structure Consistent (l : Log) : Prop where
  lengths : l.hashes.length = l.records.length
  first : ∀ r, l.records[0]? = some r → l.hashes[0]? = some (chainHash Digest.zero r.payload)
  next : ∀ i d r, l.hashes[i]? = some d → l.records[i + 1]? = some r →
    l.hashes[i + 1]? = some (chainHash d r.payload)
  headOfNone : l.records = [] → l.head = Digest.zero
  headOfSome : ∀ d, l.hashes.getLast? = some d → l.head = d
  verified : l.verify = .ok ()

theorem Intact.consistent {l : Log} (h : l.Intact) : l.Consistent := by
  have hashes : l.hashes = chainFrom Digest.zero l.records := h
  constructor
  · rw [hashes, length_chainFrom]
  · intro r found
    rw [hashes]
    cases records : l.records with
    | nil => simp [records] at found
    | cons s rs =>
      rw [records] at found
      obtain rfl : s = r := Option.some.inj found
      rfl
  · intro i d r before record
    rw [hashes] at before ⊢
    exact chainFrom_next _ _ before record
  · intro none
    rw [h.head, none]
    rfl
  · intro d last
    rw [Log.head, last]
    rfl
  · rw [verify, hashes]
    exact verifyFrom_chainFrom _ _ 0

end Log

end CapabilityGate

import CapabilityGate.Proofs.Context.Holdings
import CapabilityGate.Proofs.Lists
import CapabilityGate.Proofs.Settings.Acceptance
import CapabilityGate.Proofs.Text.Trim

/-!
# Issuing what was accepted

Accepted settings are issued later, when nobody looks at the file any more: a root context gets the
token of each grant, one after the other. Each grant has one, because the validation has asked for
it, so there is a root context under every name (`Settings.rootContext_eq`), and it holds for each
capability the token of the last grant that names it (`Settings.mem_tokens_issued`).
`accepted_settings_issued` puts this together with what is accepted.
-/
namespace CapabilityGate

/-! ## Tokens of a context -/

theorem Context.mem_tokens_iff {x : Context} {t : Token} :
    t ∈ x.tokens ↔ x.tokenFor? t.capability = some t := by
  rw [tokenFor?, find?_key_eq_some_iff x.distinct, and_iff_right rfl]

theorem Context.name_made (name : String) (parent : Option ContextId) (ts : List Token) :
    (made name parent ts).name = name := by
  induction ts using List.reverseRecOn with
  | nil => rfl
  | append_singleton ts t ih =>
    rw [made, List.foldl_append]
    exact ih

namespace Settings

/-! ## Grants and their tokens -/

section Tokens

variable {s : Settings} {gs : List Grant} {ts : List Token}

/-- **`s.lastGrant? c`** — the last grant that names a capability. -/
def lastGrant? (s : Settings) (c : Capability) : Option Grant :=
  (s.grants.filter (·.capability = c)).getLast?

/-- **`Issued gs ts`** — the tokens are those of the grants, in this order. -/
abbrev Issued [Engine] (gs : List Grant) (ts : List Token) : Prop :=
  List.Forall₂ (fun g t => g.token = .ok t) gs ts

variable [Engine]

/-- The tokens of the grants are added one after the other. -/
theorem addGrants_eq (issued : Issued gs ts) (x : Context) :
    gs.foldlM (fun x g => g.token.map x.add) x = Except.ok (ts.foldl Context.add x) := by
  induction issued generalizing x with
  | nil => rfl
  | cons first _ ih =>
    rw [List.foldlM_cons, first]
    exact ih _

theorem rootContext_eq (issued : Issued s.grants ts) (name : String) :
    s.rootContext name = .ok (Context.made name none ts) :=
  addGrants_eq issued _

/-- The last token that is added for a capability is that of the last grant that names it. -/
theorem tokenFor?_issued (issued : Issued s.grants ts) (name : String) (c : Capability) :
    Option.Rel (fun g t => g.token = .ok t) (s.lastGrant? c)
      ((Context.made name none ts).tokenFor? c) := by
  rw [Context.tokenFor?_made]
  refine forall₂_getLast? (List.rel_filter ?_ issued)
  intro g t issued
  simp [(Grant.worth issued).1]

theorem mem_tokens_issued (issued : Issued s.grants ts) (name : String) (t : Token) :
    t ∈ (Context.made name none ts).tokens ↔
      ∃ g, s.lastGrant? t.capability = some g ∧ g.token = .ok t := by
  rw [Context.mem_tokens_iff]
  have related := tokenFor?_issued issued name t.capability
  generalize s.lastGrant? t.capability = last at related ⊢
  generalize (Context.made name none ts).tokenFor? t.capability = found at related ⊢
  rcases related with ⟨issued⟩ | -
  · rename_i g u
    constructor
    · intro same
      cases same
      exact ⟨g, rfl, issued⟩
    · rintro ⟨g', same, issued'⟩
      cases same
      rw [issued] at issued'
      cases issued'
      rfl
  · simp

/-- Every grant's capability is held. -/
theorem exists_token_issued (issued : Issued s.grants ts) (name : String) {g : Grant}
    (member : g ∈ s.grants) :
    ∃ t ∈ (Context.made name none ts).tokens, t.capability = g.capability := by
  have named : g ∈ s.grants.filter (·.capability = g.capability) := by simp [member]
  obtain ⟨last, found⟩ : ∃ last, s.lastGrant? g.capability = some last :=
    Option.isSome_iff_exists.mp (List.getLast?_isSome.mpr (List.ne_nil_of_mem named))
  have lastNames : last.capability = g.capability := by
    have member := List.mem_of_getLast? found
    simpa using (List.mem_filter.mp member).2
  obtain ⟨t, -, issuedLast⟩ :=
    forall₂_mem_left issued (List.mem_of_mem_filter (List.mem_of_getLast? found))
  have names : t.capability = g.capability := (Grant.worth issuedLast).1.trans lastNames
  refine ⟨t, (mem_tokens_issued issued name t).mpr ⟨last, ?_, issuedLast⟩, names⟩
  rw [names]
  exact found

end Tokens

/-! ## Root contexts -/

/-- **`s.Issues x`** — the context has no parent, and it holds for each capability that a grant
names the token of the last such grant, and no other token. -/
structure Issues [Engine] (s : Settings) (x : Context) : Prop where
  root : x.parent = none
  each : ∀ g ∈ s.grants, ∃ t ∈ x.tokens, t.capability = g.capability
  last : ∀ t, t ∈ x.tokens ↔ ∃ g, s.lastGrant? t.capability = some g ∧ g.token = .ok t

/-- **Accepted settings can be issued, and what is not sound is refused.** A text is accepted
exactly if it is a document of the right shape in which there is some time, enough memory, and
nothing that cannot be read; a refusal names something that is wrong with the document. What has
been accepted is what the document says, read, with the defaults: the settings of runs are valid,
and every grant has the name of a capability, no empty pattern, and only patterns that compile. Under
every name there is a root context, with exactly the tokens of the last grant for each capability. -/
theorem accepted_settings_issued [Engine] (text : String) :
    ((∃ s, ofText text = .ok s) ↔ ∃ d, Draft.ofText? text = some d ∧ d.Sound) ∧
    (∀ d err, Draft.ofText? text = some d → ofText text = .error err → d.Flaw err) ∧
    ∀ s, ofText text = .ok s →
      (∃ d, Draft.ofText? text = some d ∧ d.sandbox.Reads s.sandbox ∧
        List.Forall₂ GrantEntry.Reads d.grants s.grants) ∧
      s.sandbox.validate = .ok () ∧
      (∀ g ∈ s.grants, Capability.parse g.capability.name = .ok g.capability ∧
        ∀ texts, g.patterns = some texts →
          "" ∉ texts ∧ ∀ pattern ∈ texts, Pattern.Compiles pattern) ∧
      ∀ name, ∃ x, s.rootContext name = .ok x ∧ x.name = name ∧ s.Issues x := by
  refine ⟨?_, ?_, ?_⟩
  · constructor
    · rintro ⟨s, accepted⟩
      obtain ⟨d, shaped, accepted⟩ := ofText_eq_ok_iff.mp accepted
      exact ⟨d, shaped, Draft.exists_accept_iff.mp ⟨s, accepted⟩⟩
    · rintro ⟨d, shaped, sound⟩
      rw [ofText_of_draft shaped]
      exact Draft.exists_accept_iff.mpr sound
  · intro d err shaped refused
    rw [ofText_of_draft shaped] at refused
    exact Draft.flaw_of_accept_eq_error refused
  · intro s accepted
    obtain ⟨d, shaped, accepted⟩ := ofText_eq_ok_iff.mp accepted
    obtain ⟨read, valid⟩ := Draft.accept_eq_ok_iff.mp accepted
    obtain ⟨runs, grants⟩ := ofDraft_eq_ok read
    obtain ⟨valid, tokens⟩ := validate_eq_ok_iff.mp valid
    refine ⟨⟨d, shaped, runs, grants⟩, valid, ?_, ?_⟩
    · intro g member
      obtain ⟨e, -, reads⟩ := forall₂_mem_right grants member
      refine ⟨Capability.parse_name reads.name, fun texts listed => ?_⟩
      have accepted := Grant.exists_token_iff.mp (tokens g member) texts listed
      exact ⟨fun empty => (accepted "" empty).some rfl,
        fun pattern member => (accepted pattern member).compiles⟩
    · intro name
      obtain ⟨ts, issued⟩ := exists_forall₂ tokens
      refine ⟨_, rootContext_eq issued name, Context.name_made name none ts, ?_⟩
      constructor
      · exact Store.parent_made name none ts
      · intro g member
        exact exists_token_issued issued name member
      · exact mem_tokens_issued issued name

/-- A settings file with two grants for one capability. -/
def repeatedGrant : String :=
  "[[grant]]\ncapability='log'\n[[grant]]\ncapability=' log '\npatterns=['*']"

theorem parse_repeatedGrant : Toml.parse repeatedGrant =
    some [("grant", .array [
      .table [("capability", .string "log")],
      .table [("capability", .string " log "), ("patterns", .array [.string "*"])]])] := by
  cbv

theorem ofText_repeatedGrant : ofText repeatedGrant =
    .ok ⟨Config.default, [⟨⟨"log"⟩, none⟩, ⟨⟨"log"⟩, some ["*"]⟩]⟩ := by
  rw [ofText, parse_repeatedGrant]
  rfl

/-- The root context has one token, that of the second grant. -/
theorem accepted_settings_issued_once :
    ∃ s x, ofText repeatedGrant = .ok s ∧ s.rootContext "root" = .ok x ∧ x.parent = none ∧
      ∀ t, t ∈ x.tokens ↔ t = ⟨⟨"log"⟩, some ⟨[⟨"*", by decide⟩]⟩⟩ := by
  obtain ⟨-, -, issued⟩ := accepted_settings_issued repeatedGrant
  obtain ⟨-, -, -, issued⟩ := issued _ ofText_repeatedGrant
  obtain ⟨x, root, -, issues⟩ := issued "root"
  refine ⟨_, x, ofText_repeatedGrant, root, issues.root, fun t => ?_⟩
  rw [issues.last]
  constructor
  · rintro ⟨g, last, token⟩
    by_cases named : t.capability = ⟨"log"⟩
    · rw [named] at last
      cases last
      cases token
      rfl
    · have nobody : ∀ g ∈ [Grant.mk ⟨"log"⟩ none, ⟨⟨"log"⟩, some ["*"]⟩],
          ¬ decide (g.capability = t.capability) = true := by
        simp [Ne.symm named]
      rw [lastGrant?, List.filter_eq_nil_iff.mpr nobody] at last
      cases last
  · rintro rfl
    exact ⟨_, rfl, rfl⟩

end Settings

end CapabilityGate

import Strix.PolicyEvaluation
import Strix.PolicySimulator

/-!
# Explained decisions

`is_authorized_detailed` explains a decision: it says which effect made it and
names the policy that did.  A policy is named by the name in its document, and
among the policies of a user, or of a group, the name stands for one of them only.

* `documentsNamed_perform`, `documentsNamed_after`: no call attaches two documents
  of one name to a user or a group;
* `explainedDecision`: in every state that calls lead to, the explained decision
  is the enforced one, denials are reported as such, and a policy that is named
  evaluates to what is reported.
-/

namespace Strix

open MachineRuns RowTable

/-! ## The names of documents -/

section Rows

variable {ρ : Type} (owner name : ρ → String) (document : ρ → Option Policy)

/-- **Documents go by the names of their rows**, and an owner has one of each
name. -/
structure DocumentsNamed (rows : List ρ) : Prop where
  keyed : Keyed (fun r => (owner r, name r)) rows
  named : ∀ r ∈ rows, ∀ policy, document r = some policy → policy.name = name r

/-- What calls do to such a table: they delete rows, or they attach a document in
place of the one of its name. -/
inductive Rewrites (before : List ρ) : List ρ → Prop
  | deletes (hit : ρ → Bool) : Rewrites before (deleteRows hit before)
  | attaches (row : ρ) (policy : Policy) (hdocument : document row = some policy)
      (hname : name row = policy.name) :
      Rewrites before (insertRow row
        (deleteRows (fun r => owner r == owner row && name r == name row) before))

variable {owner name document} {rows after : List ρ}

/-- Nothing is deleted. -/
theorem Rewrites.refl : Rewrites owner name document rows rows := by
  have hsame : deleteRows (fun _ => false) rows = rows := deleteRows_eq_self fun _ _ => rfl
  have hdeletes : Rewrites owner name document rows (deleteRows (fun _ => false) rows) :=
    .deletes _
  rwa [hsame] at hdeletes

/-- Names stay unique. -/
theorem DocumentsNamed.rewrite (h : DocumentsNamed owner name document rows)
    (hrewrites : Rewrites owner name document rows after) :
    DocumentsNamed owner name document after := by
  cases hrewrites with
  | deletes hit =>
      exact ⟨h.keyed.deleteRows, fun r hr => h.named r (mem_deleteRows.mp hr).1⟩
  | attaches row policy hdocument hname =>
      constructor
      · refine h.keyed.deleteRows.insertRow fun r hr hsame => ?_
        obtain ⟨-, hmiss⟩ := mem_deleteRows.mp hr
        obtain ⟨howner, hrow⟩ := Prod.mk.inj hsame
        simp [howner, hrow] at hmiss
      · intro r hr found hfound
        rcases mem_insertRow.mp hr with hold | rfl
        · exact h.named r (mem_deleteRows.mp hold).1 found hfound
        · rw [hdocument] at hfound
          obtain rfl := Option.some.inj hfound
          exact hname.symm

/-- Two documents of one owner and one name are the same. -/
theorem DocumentsNamed.eq_of_name (h : DocumentsNamed owner name document rows) {r r' : ρ}
    {policy policy' : Policy} (hr : r ∈ rows) (hr' : r' ∈ rows) (howner : owner r = owner r')
    (hpolicy : document r = some policy) (hpolicy' : document r' = some policy')
    (hname : policy.name = policy'.name) : policy = policy' := by
  have hnames : name r = name r' := by
    rw [← h.named r hr policy hpolicy, ← h.named r' hr' policy' hpolicy', hname]
  have hsame : r = r' := h.keyed.eq_of_mem hr hr' (Prod.ext howner hnames)
  rw [hsame, hpolicy'] at hpolicy
  exact (Option.some.inj hpolicy).symm

end Rows

/-- The documents that are attached to users and to groups. -/
structure IamStore.DocumentsNamed (iam : IamStore) : Prop where
  ofUsers : Strix.DocumentsNamed (·.username) (·.policyName) (·.policyDocument)
    iam.db.userPolicies
  ofGroups : Strix.DocumentsNamed (·.groupName) (·.policyName) (·.policyDocument)
    iam.db.groupPolicies

/-- A table that `report_rows` has rewritten or left alone. -/
theorem reportRows_rewrites {ρ α : Type} {owner name : ρ → String}
    {document : ρ → Option Policy} (table : IamStore → List ρ) {rows : List α} {hit : α → Bool}
    {missing : IamError} {iam after : IamStore}
    (h : Rewrites owner name document (table iam) (table after)) :
    Rewrites owner name document (table iam)
      (table (IamStore.reportRows rows hit missing iam after).2) := by
  unfold IamStore.reportRows
  by_cases hany : rows.any hit = true
  · rw [if_pos hany]
    exact h
  · rw [if_neg hany]
    exact .refl

/-- What a call does to the documents of users. -/
theorem userPolicies_perform (keys : IamKeys) (now : DateTime) (iam : IamStore)
    (call : IamCall) :
    Rewrites (·.username) (·.policyName) (·.policyDocument) iam.db.userPolicies
      (call.perform keys now iam).2.db.userPolicies := by
  cases call
  case deleteUser username =>
      simp only [IamCall.perform, IamStore.deleteUser]
      by_cases hroot : iam.isRootName username = true
      · rw [if_pos hroot]
        exact .refl
      · rw [if_neg hroot]
        exact reportRows_rewrites (·.db.userPolicies) (.deletes _)
  case attachUserPolicy username policy =>
      simp only [IamCall.perform, IamStore.attachUserPolicy]
      by_cases hroot : iam.isRootName username = true
      · rw [if_pos hroot]
        exact .refl
      · rw [if_neg hroot]
        cases iam.getUser now username with
        | error e => exact .refl
        | ok user =>
            let row : UserPolicyRow :=
              { username := username, policyName := policy.name, policyDocument := some policy }
            exact .attaches row policy rfl rfl
  case detachUserPolicy username policyName =>
      exact reportRows_rewrites (·.db.userPolicies) (.deletes _)
  all_goals
    simp only [IamCall.perform, forgetResult, IamStore.createUser, IamStore.updateUserStatus,
      IamStore.setUserPassword, IamStore.createAccessKey, IamStore.deleteAccessKey,
      IamStore.updateAccessKeyStatus, IamStore.updateAccessKeyLastUsed, IamStore.createGroup,
      IamStore.deleteGroup, IamStore.addUserToGroup, IamStore.removeUserFromGroup,
      IamStore.attachGroupPolicy, IamStore.detachGroupPolicy, IamStore.createPolicy,
      IamStore.deletePolicy, IamStore.assumeRole, IamStore.reportRows]
    repeat' split
  all_goals exact .refl

/-- What a call does to the documents of groups. -/
theorem groupPolicies_perform (keys : IamKeys) (now : DateTime) (iam : IamStore)
    (call : IamCall) :
    Rewrites (·.groupName) (·.policyName) (·.policyDocument) iam.db.groupPolicies
      (call.perform keys now iam).2.db.groupPolicies := by
  cases call
  case deleteGroup name =>
      exact reportRows_rewrites (·.db.groupPolicies) (.deletes _)
  case attachGroupPolicy groupName policy =>
      simp only [IamCall.perform, IamStore.attachGroupPolicy]
      by_cases hmissing : (!iam.db.groups.any (·.name == groupName)) = true
      · rw [if_pos hmissing]
        exact .refl
      · rw [if_neg hmissing]
        let row : GroupPolicyRow :=
          { groupName := groupName, policyName := policy.name, policyDocument := some policy }
        exact .attaches row policy rfl rfl
  case detachGroupPolicy groupName policyName =>
      exact reportRows_rewrites (·.db.groupPolicies) (.deletes _)
  all_goals
    simp only [IamCall.perform, forgetResult, IamStore.createUser, IamStore.deleteUser,
      IamStore.deleteUserRows, IamStore.updateUserStatus,
      IamStore.setUserPassword, IamStore.createAccessKey, IamStore.deleteAccessKey,
      IamStore.updateAccessKeyStatus, IamStore.updateAccessKeyLastUsed, IamStore.createGroup,
      IamStore.addUserToGroup, IamStore.removeUserFromGroup, IamStore.attachUserPolicy,
      IamStore.detachUserPolicy, IamStore.createPolicy,
      IamStore.deletePolicy, IamStore.assumeRole, IamStore.reportRows]
    repeat' split
  all_goals exact .refl

/-- Every call keeps the names of documents unique. -/
theorem documentsNamed_perform {iam : IamStore} (h : iam.DocumentsNamed) (keys : IamKeys)
    (now : DateTime) (call : IamCall) : (call.perform keys now iam).2.DocumentsNamed :=
  ⟨h.ofUsers.rewrite (userPolicies_perform keys now iam call),
    h.ofGroups.rewrite (groupPolicies_perform keys now iam call)⟩

/-- So does every run of calls. -/
theorem documentsNamed_after {keys : IamKeys} {iam : IamStore} (h : iam.DocumentsNamed)
    (calls : List (DateTime × IamCall)) :
    ((iamMachine keys iam).after iam calls).DocumentsNamed := by
  have hstep (s : IamStore) (call : DateTime × IamCall) (hs : s.DocumentsNamed) (_ : True) :
      ((iamMachine keys iam).next s call).DocumentsNamed :=
    documentsNamed_perform hs keys call.1 call.2
  exact Machine.invariant_after hstep h
    ((iamMachine keys iam).allSteps_of_forall (fun _ _ => trivial) iam calls)

/-- **A source has one policy of each name.** -/
theorem policiesOf_eq_of_name {iam : IamStore} (h : iam.DocumentsNamed) {source : PolicySource}
    {policy policy' : Policy} (hpolicy : policy ∈ iam.policiesOf source)
    (hpolicy' : policy' ∈ iam.policiesOf source) (hname : policy.name = policy'.name) :
    policy = policy' := by
  cases source with
  | user username =>
      simp only [IamStore.policiesOf, IamStore.listUserPolicies] at hpolicy hpolicy'
      by_cases hroot : iam.isRootName username = true
      · rw [if_pos hroot, List.mem_singleton] at hpolicy hpolicy'
        rw [hpolicy, hpolicy']
      · rw [if_neg hroot] at hpolicy hpolicy'
        obtain ⟨r, hr, hdocument⟩ := List.mem_filterMap.mp hpolicy
        obtain ⟨r', hr', hdocument'⟩ := List.mem_filterMap.mp hpolicy'
        obtain ⟨hmem, howner⟩ := List.mem_filter.mp hr
        obtain ⟨hmem', howner'⟩ := List.mem_filter.mp hr'
        exact h.ofUsers.eq_of_name hmem hmem' ((eq_of_beq howner).trans (eq_of_beq howner').symm)
          hdocument hdocument' hname
  | group groupName =>
      obtain ⟨r, hr, hdocument⟩ := List.mem_filterMap.mp hpolicy
      obtain ⟨r', hr', hdocument'⟩ := List.mem_filterMap.mp hpolicy'
      obtain ⟨hmem, howner⟩ := List.mem_filter.mp hr
      obtain ⟨hmem', howner'⟩ := List.mem_filter.mp hr'
      exact h.ofGroups.eq_of_name hmem hmem' ((eq_of_beq howner).trans (eq_of_beq howner').symm)
        hdocument hdocument' hname
  | bucket name => cases hpolicy

/-! ## The explanation -/

/-- The effect of the policy behind an explanation, where there is one. -/
def AuthorizationEffect.decision : AuthorizationEffect → Option Effect
  | explicitAllow => some .allow
  | explicitDeny => some .deny
  | implicitDeny => none
  | rootAccess => none

/-- **The explanation fits**: it allows what is enforced, it reports an explicit
denial exactly when an applicable policy denies, and the policy that it names, of
the source that it names, evaluates to the effect that it reports. -/
structure IamStore.Explains (iam : IamStore) (username : String) (action : Action)
    (resource : Resource) (result : AuthorizationResult) : Prop where
  enforced : result.allowed = true ↔ iam.isAuthorized username action resource = true
  denied : result.effect = .explicitDeny ↔
    ∃ policy ∈ iam.allPolicies username, policy.evaluate action resource = some .deny
  named : ∀ name, result.matchedPolicy = some name →
    ∃ source effect, result.policySource = some source ∧ iam.Applies username source ∧
      result.effect.decision = some effect ∧
      (∃ policy ∈ iam.policiesOf source, policy.name = name) ∧
      ∀ policy ∈ iam.policiesOf source, policy.name = name →
        policy.evaluate action resource = some effect

/-- A policy that is named is the only one of the name in its source. -/
theorem named_matched {iam : IamStore} (h : iam.DocumentsNamed) {username : String}
    {action : Action} {resource : Resource} {source : PolicySource} {policy : Policy}
    {reported : AuthorizationEffect} {effect : Effect} (allowed : Bool)
    (happlies : iam.Applies username source) (hpolicy : policy ∈ iam.policiesOf source)
    (heval : policy.evaluate action resource = some effect)
    (hreported : reported.decision = some effect) :
    ∀ name, (AuthorizationResult.matched allowed reported policy source).matchedPolicy =
        some name →
      ∃ source' effect',
        (AuthorizationResult.matched allowed reported policy source).policySource =
          some source' ∧
        iam.Applies username source' ∧
        (AuthorizationResult.matched allowed reported policy source).effect.decision =
          some effect' ∧
        (∃ other ∈ iam.policiesOf source', other.name = name) ∧
        ∀ other ∈ iam.policiesOf source', other.name = name →
          other.evaluate action resource = some effect' := by
  intro name hname
  obtain rfl : policy.name = name := Option.some.inj hname
  refine ⟨source, effect, rfl, happlies, hreported, ⟨policy, hpolicy, rfl⟩, ?_⟩
  intro other hother hsame
  rw [policiesOf_eq_of_name h hother hpolicy hsame]
  exact heval

/-- The explanation for a name that is not root's. -/
theorem explains_nonRoot {iam : IamStore} (h : iam.DocumentsNamed) {username : String}
    (hname : iam.isRootName username = false) (action : Action) (resource : Resource) :
    iam.Explains username action resource
      (iam.isAuthorizedDetailed username action resource) := by
  have henforced : (iam.isAuthorizedDetailed username action resource).allowed = true ↔
      iam.isAuthorized username action resource = true := by
    rw [isAuthorizedDetailed_allowed]
  rcases isAuthorizedDetailed_cases hname action resource with
    ⟨source, policy, happlies, hmem, heval, hresult⟩ |
    ⟨hclean, source, policy, happlies, hmem, heval, hresult⟩ | ⟨hclean, -, hresult⟩
  · rw [hresult] at henforced ⊢
    refine ⟨henforced, ?_, named_matched h false happlies hmem heval rfl⟩
    exact iff_of_true rfl ⟨policy, mem_allPolicies.mpr ⟨source, happlies, hmem⟩, heval⟩
  · rw [hresult] at henforced ⊢
    refine ⟨henforced, ?_, named_matched h true happlies hmem heval rfl⟩
    refine iff_of_false (by simp [AuthorizationResult.matched]) fun hdenied => ?_
    obtain ⟨other, hother, hdeny⟩ := hdenied
    exact hclean other hother hdeny
  · rw [hresult] at henforced ⊢
    refine ⟨henforced, ?_, fun name hnamed => by cases hnamed⟩
    refine iff_of_false (by simp) fun hdenied => ?_
    obtain ⟨other, hother, hdeny⟩ := hdenied
    exact hclean other hother hdeny

/-- The explanation for root, as long as the tables are sound. -/
theorem explains_root {iam : IamStore} (hsound : iam.Sound) {username : String}
    (hroot : iam.isRootName username = true) (action : Action) (resource : Resource) :
    iam.Explains username action resource
      (iam.isAuthorizedDetailed username action resource) := by
  have henforced : (iam.isAuthorizedDetailed username action resource).allowed = true ↔
      iam.isAuthorized username action resource = true := by
    rw [isAuthorizedDetailed_allowed]
  have hresult : iam.isAuthorizedDetailed username action resource =
      { allowed := true, effect := .rootAccess } := by
    unfold IamStore.isAuthorizedDetailed
    rw [if_pos hroot]
  rw [hresult] at henforced ⊢
  refine ⟨henforced, ?_, fun name hnamed => by cases hnamed⟩
  refine iff_of_false (by simp) fun hdenied => ?_
  obtain ⟨policy, hpolicy, hdeny⟩ := hdenied
  rw [allPolicies_root hsound hroot] at hpolicy
  have hdecides : PoliciesDecide [adminPolicy] .deny action resource :=
    ⟨policy, hpolicy, (policy.evaluate_deny_iff action resource).mp hdeny⟩
  exact absurd ((adminPolicy_decides_iff .deny action resource).mp hdecides) (by decide)

/-- **The explained decision is the enforced decision**: of users in every state
in which documents go by their names, and of users and root in every state that
calls lead to. -/
theorem explainedDecision :
    (∀ (iam : IamStore) (username : String), iam.DocumentsNamed →
      iam.isRootName username = false → ∀ (action : Action) (resource : Resource),
        iam.Explains username action resource
          (iam.isAuthorizedDetailed username action resource)) ∧
    ∀ (keys : IamKeys) (start : IamStore) (calls : List (DateTime × IamCall)), start.Fresh →
      start.db.groupPolicies = [] →
      ∀ (username : String) (action : Action) (resource : Resource),
        let iam := (iamMachine keys start).after start calls
        iam.Explains username action resource
          (iam.isAuthorizedDetailed username action resource) := by
  constructor
  · intro iam username hnamed hname action resource
    exact explains_nonRoot hnamed hname action resource
  · intro keys start calls hfresh hgroups username action resource
    have hstart : start.DocumentsNamed := by
      constructor
      · rw [hfresh.userPolicies]
        exact ⟨Keyed.nil, by simp⟩
      · rw [hgroups]
        exact ⟨Keyed.nil, by simp⟩
    have hnamed := @documentsNamed_after keys start hstart calls
    have hsound := @sound_after keys start (IamStore.Sound.of_fresh hfresh) calls
    cases hroot : ((iamMachine keys start).after start calls).isRootName username with
    | true => exact explains_root hsound hroot action resource
    | false => exact explains_nonRoot hnamed hroot action resource

/-- The explanations of what `alice` and root may do, after her group is denied it. -/
theorem explainedDecision_alice :
    groundedIam.Explains "alice" .getObject (.object "docs" "a")
        (groundedIam.isAuthorizedDetailed "alice" .getObject (.object "docs" "a")) ∧
      groundedIam.Explains "admin" .getObject (.object "docs" "a")
        (groundedIam.isAuthorizedDetailed "admin" .getObject (.object "docs" "a")) :=
  ⟨explainedDecision.1 groundedIam "alice"
      (documentsNamed_after ⟨⟨Keyed.nil, by simp [rootOnlyIam]⟩, ⟨Keyed.nil, by simp [rootOnlyIam]⟩⟩
        aliceGrounded)
      (by decide +kernel) _ _,
    explainedDecision.2 plainKeys rootOnlyIam aliceGrounded ⟨rfl, rfl, rfl, rfl, rfl⟩ rfl
      "admin" .getObject (.object "docs" "a")⟩

end Strix

import Strix.IamCalls

/-!
# How policies are evaluated

An IAM policy and a bucket policy look through their statements with an early
return and an accumulator, and `is_authorized` looks through the policies of a
user and of the user's groups in the same way.

* `Policy.evaluate_perm`, `BucketPolicy.evaluate_perm`: the order of the
  statements does not matter;
* `isAuthorized_sound_iff`: as long as the tables are sound, root is no exception;
* `policies_denyOverrides`: what all three decide, without an order.
-/

namespace Strix

open MachineRuns

/-- Some statement of the policy that matches the request has this effect. -/
def Policy.Decides (policy : Policy) (effect : Effect) (action : Action)
    (resource : Resource) : Prop :=
  ∃ stmt ∈ policy.statements, stmt.matches action resource = true ∧ stmt.effect = effect

/-- A policy says nothing exactly when no matching statement says anything. -/
theorem Policy.evaluate_eq_none_iff (policy : Policy) (action : Action) (resource : Resource) :
    policy.evaluate action resource = none ↔
      ¬policy.Decides .allow action resource ∧ ¬policy.Decides .deny action resource := by
  rw [Policy.evaluate, DenyOverrides.run_eq_none_iff]
  simp [DenyOverrides.Decides, Policy.Decides]

/-- The order of a policy's statements does not matter. -/
theorem Policy.evaluate_perm {policy other : Policy}
    (h : policy.statements.Perm other.statements) (action : Action) (resource : Resource) :
    policy.evaluate action resource = other.evaluate action resource := by
  unfold Policy.evaluate
  exact DenyOverrides.run_perm _ h

/-- A bucket policy denies exactly when a matching statement denies. -/
theorem BucketPolicy.evaluateWithContext_deny_iff (policy : BucketPolicy)
    (principal : Principal) (action : Action) (resource : Resource)
    (context : ConditionContext) :
    policy.evaluateWithContext principal action resource context = some .deny ↔
      policy.Decides .deny principal action resource context := by
  rw [BucketPolicy.evaluateWithContext, DenyOverrides.run_eq_deny_iff]
  simp [DenyOverrides.Decides, BucketPolicy.Decides]

/-- A bucket policy says nothing exactly when no matching statement says anything. -/
theorem BucketPolicy.evaluateWithContext_eq_none_iff (policy : BucketPolicy)
    (principal : Principal) (action : Action) (resource : Resource)
    (context : ConditionContext) :
    policy.evaluateWithContext principal action resource context = none ↔
      ¬policy.Decides .allow principal action resource context ∧
        ¬policy.Decides .deny principal action resource context := by
  rw [BucketPolicy.evaluateWithContext, DenyOverrides.run_eq_none_iff]
  simp [DenyOverrides.Decides, BucketPolicy.Decides]

/-- The order of a bucket policy's statements does not matter. -/
theorem BucketPolicy.evaluate_perm {policy other : BucketPolicy}
    (h : policy.statements.Perm other.statements) (principal : Principal) (action : Action)
    (resource : Resource) (context : ConditionContext) :
    policy.evaluateWithContext principal action resource context =
      other.evaluateWithContext principal action resource context := by
  unfold BucketPolicy.evaluateWithContext
  exact DenyOverrides.run_perm _ h

/-! ## Root -/

/-- The policy for administrators allows everything and denies nothing. -/
theorem adminPolicy_decides_iff (effect : Effect) (action : Action) (resource : Resource) :
    PoliciesDecide [adminPolicy] effect action resource ↔ effect = .allow := by
  have hmatches (stmt : PolicyStatement) (hactions : stmt.actions = ["*"])
      (hresources : stmt.resources = ["*"]) : stmt.matches action resource = true := by
    unfold PolicyStatement.matches PolicyStatement.matchesAction PolicyStatement.matchesResource
    rw [hactions, hresources]
    rfl
  constructor
  · intro h
    obtain ⟨policy, hpolicy, stmt, hstmt, -, heffect⟩ := h
    obtain rfl := List.mem_singleton.mp hpolicy
    obtain rfl := List.mem_singleton.mp hstmt
    exact heffect.symm
  · intro h
    exact ⟨adminPolicy, List.mem_singleton_self _, _, List.mem_singleton_self _,
      hmatches _ rfl rfl, h.symm⟩

/-- Root is a member of no group: members are users, and root is none of them. -/
theorem allPolicies_root {iam : IamStore} (h : iam.Sound) {username : String}
    (hroot : iam.isRootName username = true) : iam.allPolicies username = [adminPolicy] := by
  have hgroups : iam.listUserGroups username = [] := by
    rw [List.eq_nil_iff_forall_not_mem]
    intro group hgroup
    obtain ⟨-, -, m, hm, -, hname, -⟩ := exists_mem_listUserGroups.mp ⟨group, hgroup, rfl⟩
    have hnot := h.isRootName_of_hasUser (h.membersOwned m hm)
    rw [hname, hroot] at hnot
    cases hnot
  unfold IamStore.allPolicies IamStore.listUserPolicies
  rw [hgroups, if_pos hroot]
  rfl

/-- **Who is authorized**, of the names of root and of users alike, as long as the
tables are sound. -/
theorem isAuthorized_sound_iff {iam : IamStore} (h : iam.Sound) (username : String)
    (action : Action) (resource : Resource) :
    iam.isAuthorized username action resource = true ↔
      PoliciesDecide (iam.allPolicies username) .allow action resource ∧
        ¬PoliciesDecide (iam.allPolicies username) .deny action resource := by
  cases hroot : iam.isRootName username with
  | false => exact isAuthorized_iff hroot action resource
  | true =>
      rw [allPolicies_root h hroot, adminPolicy_decides_iff, adminPolicy_decides_iff]
      exact iff_of_true (isAuthorized_root hroot action resource) ⟨rfl, by decide⟩

/-! ## All three -/

/-- **Denials override allowances**, whatever the order.  A policy denies if some
matching statement denies, allows if some allows and none denies, and says nothing
otherwise; so does a bucket policy.  A user is authorized if some matching
statement of the user's policies and the groups' policies allows and none denies,
and in every state that calls lead to this is true of root as well. -/
theorem policies_denyOverrides :
    (∀ (policy : Policy) (action : Action) (resource : Resource),
      (policy.evaluate action resource = some .deny ↔ policy.Decides .deny action resource) ∧
      (policy.evaluate action resource = some .allow ↔
        policy.Decides .allow action resource ∧ ¬policy.Decides .deny action resource) ∧
      (policy.evaluate action resource = none ↔
        ¬policy.Decides .allow action resource ∧ ¬policy.Decides .deny action resource) ∧
      ∀ other : Policy, policy.statements.Perm other.statements →
        policy.evaluate action resource = other.evaluate action resource) ∧
    (∀ (policy : BucketPolicy) (principal : Principal) (action : Action) (resource : Resource)
      (context : ConditionContext),
      (policy.evaluateWithContext principal action resource context = some .deny ↔
        policy.Decides .deny principal action resource context) ∧
      (policy.evaluateWithContext principal action resource context = some .allow ↔
        policy.Decides .allow principal action resource context ∧
          ¬policy.Decides .deny principal action resource context) ∧
      (policy.evaluateWithContext principal action resource context = none ↔
        ¬policy.Decides .allow principal action resource context ∧
          ¬policy.Decides .deny principal action resource context) ∧
      ∀ other : BucketPolicy, policy.statements.Perm other.statements →
        policy.evaluateWithContext principal action resource context =
          other.evaluateWithContext principal action resource context) ∧
    (∀ (iam : IamStore) (username : String) (action : Action) (resource : Resource),
      iam.isRootName username = false →
        (iam.isAuthorized username action resource = true ↔
          PoliciesDecide (iam.allPolicies username) .allow action resource ∧
            ¬PoliciesDecide (iam.allPolicies username) .deny action resource)) ∧
    ∀ (keys : IamKeys) (start : IamStore) (calls : List (DateTime × IamCall)), start.Fresh →
      ∀ (username : String) (action : Action) (resource : Resource),
        let iam := (iamMachine keys start).after start calls
        iam.isAuthorized username action resource = true ↔
          PoliciesDecide (iam.allPolicies username) .allow action resource ∧
            ¬PoliciesDecide (iam.allPolicies username) .deny action resource := by
  refine ⟨?_, ?_, ?_, ?_⟩
  · intro policy action resource
    exact ⟨policy.evaluate_deny_iff action resource, policy.evaluate_allow_iff action resource,
      policy.evaluate_eq_none_iff action resource,
      fun other h => Policy.evaluate_perm h action resource⟩
  · intro policy principal action resource context
    exact ⟨policy.evaluateWithContext_deny_iff principal action resource context,
      policy.evaluateWithContext_allow_iff principal action resource context,
      policy.evaluateWithContext_eq_none_iff principal action resource context,
      fun other h => BucketPolicy.evaluate_perm h principal action resource context⟩
  · intro iam username action resource hname
    exact isAuthorized_iff hname action resource
  · intro keys start calls hfresh username action resource
    exact isAuthorized_sound_iff (sound_after (IamStore.Sound.of_fresh hfresh) calls) username
      action resource

/-- A store that knows root only. -/
def rootOnlyIam : IamStore where
  db := {}
  rootAccessKey := "admin"
  rootSecretKey := "root-secret"

/-- `alice` may read objects, and her group may not. -/
def aliceGrounded : List (DateTime × IamCall) :=
  [(0, .createUser "alice"), (0, .createGroup "guests"), (0, .addUserToGroup "guests" "alice"),
    (0, .attachUserPolicy "alice"
      { name := "readers"
        statements := [{ effect := .allow, actions := ["s3:Get*"], resources := ["*"] }] }),
    (0, .attachGroupPolicy "guests"
      { name := "no-reading"
        statements := [{ effect := .deny, actions := ["s3:GetObject"], resources := ["*"] }] })]

/-- The store that the calls lead to. -/
def groundedIam : IamStore :=
  (iamMachine plainKeys rootOnlyIam).after rootOnlyIam aliceGrounded

/-- The equivalences for `alice` and for root, where her group's denial overrides
what she is allowed. -/
theorem policies_denyOverrides_alice :
    PoliciesDecide (groundedIam.allPolicies "alice") .deny .getObject (.object "docs" "a") ∧
      (groundedIam.isAuthorized "alice" .getObject (.object "docs" "a") = true ↔
        PoliciesDecide (groundedIam.allPolicies "alice") .allow .getObject (.object "docs" "a") ∧
          ¬PoliciesDecide (groundedIam.allPolicies "alice") .deny .getObject
            (.object "docs" "a")) ∧
      (groundedIam.isAuthorized "admin" .getObject (.object "docs" "a") = true ↔
        PoliciesDecide (groundedIam.allPolicies "admin") .allow .getObject (.object "docs" "a") ∧
          ¬PoliciesDecide (groundedIam.allPolicies "admin") .deny .getObject
            (.object "docs" "a")) :=
  ⟨by decide +kernel, policies_denyOverrides.2.2.1 groundedIam "alice" _ _ (by decide +kernel),
    policies_denyOverrides.2.2.2 plainKeys rootOnlyIam aliceGrounded ⟨rfl, rfl, rfl, rfl, rfl⟩
      "admin" .getObject (.object "docs" "a")⟩

end Strix

import Strix.AdminAuth
import Strix.ExplicitDeny

/-!
# The policy simulator

`simulatePolicy` answers what the policies say about a user's action, without
performing it.  Its documentation writes actions as `s3:GetObject`, but it reads
them with `Action::from_operation`, which knows bare operation names.

* `isAuthorizedDetailed_allowed`: the detailed check decides like the plain one;
* `simulate_refuses_documented`: every documented form of an action is refused;
* `simulate_predicts_bare_iff`: for a bare name the answer is that of the S3
  service unless only the bucket policy lets the request through.
-/

namespace Strix

/-- The effect that determined authorization. -/
inductive AuthorizationEffect
  | explicitAllow
  | explicitDeny
  | implicitDeny
  | rootAccess
  deriving DecidableEq, Repr

/-- Source of the policy that matched. -/
inductive PolicySource
  | user (name : String)
  | group (name : String)
  | bucket (name : String)
  deriving DecidableEq, Repr

/-- Result of detailed authorization check (for policy simulation). -/
structure AuthorizationResult where
  allowed : Bool
  effect : AuthorizationEffect
  matchedPolicy : Option String := none
  matchedStatement : Option String := none
  policySource : Option PolicySource := none
  deriving DecidableEq, Repr

namespace IamStore

/-- The first of the policies that evaluates to the effect. -/
def firstDeciding (policies : List Policy) (effect : Effect) (action : Action)
    (resource : Resource) : Option Policy :=
  policies.find? fun policy => policy.evaluate action resource == some effect

/-- The first of the groups' policies that evaluates to the effect, and its
group. -/
def firstDecidingOfGroups (iam : IamStore) (groups : List Group) (effect : Effect)
    (action : Action) (resource : Resource) : Option (Group × Policy) :=
  groups.findSome? fun group =>
    (firstDeciding (iam.listGroupPolicies group.name) effect action resource).map (group, ·)

/-- `is_authorized_detailed`: the denials of the user's policies, those of the
groups' policies, then the allowances in the same order. -/
def isAuthorizedDetailed (iam : IamStore) (username : String) (action : Action)
    (resource : Resource) : AuthorizationResult :=
  if iam.isRootName username then { allowed := true, effect := .rootAccess }
  else
    let userPolicies := iam.listUserPolicies username
    let groups := iam.listUserGroups username
    match firstDeciding userPolicies .deny action resource with
    | some policy =>
      { allowed := false
        effect := .explicitDeny
        matchedPolicy := some policy.name
        policySource := some (.user username) }
    | none =>
      match iam.firstDecidingOfGroups groups .deny action resource with
      | some (group, policy) =>
        { allowed := false
          effect := .explicitDeny
          matchedPolicy := some policy.name
          policySource := some (.group group.name) }
      | none =>
        match firstDeciding userPolicies .allow action resource with
        | some policy =>
          { allowed := true
            effect := .explicitAllow
            matchedPolicy := some policy.name
            policySource := some (.user username) }
        | none =>
          match iam.firstDecidingOfGroups groups .allow action resource with
          | some (group, policy) =>
            { allowed := true
              effect := .explicitAllow
              matchedPolicy := some policy.name
              policySource := some (.group group.name) }
          | none => { allowed := false, effect := .implicitDeny }

end IamStore

/-- Request to simulate policy authorization. -/
structure SimulatePolicyRequest where
  username : String
  action : String
  bucket : Option String := none
  key : Option String := none
  deriving DecidableEq, Repr

/-- Response from policy simulation. -/
structure SimulatePolicyResponse where
  allowed : Bool
  effect : String
  matchedPolicy : Option String
  policySource : Option String
  explanation : String
  deriving DecidableEq, Repr

namespace AuthorizationResult

def effectStr (result : AuthorizationResult) : String :=
  match result.effect with
  | .explicitAllow => "ExplicitAllow"
  | .explicitDeny => "ExplicitDeny"
  | .implicitDeny => "ImplicitDeny"
  | .rootAccess => "RootAccess"

def sourceStr (result : AuthorizationResult) : Option String :=
  result.policySource.map fun
    | .user u => "user:" ++ u
    | .group g => "group:" ++ g
    | .bucket b => "bucket:" ++ b

def explanation (result : AuthorizationResult) : String :=
  match result.effect with
  | .explicitAllow =>
    "Request is ALLOWED by policy '" ++ result.matchedPolicy.getD "unknown" ++ "' from " ++
      result.sourceStr.getD "unknown source"
  | .explicitDeny =>
    "Request is DENIED by explicit deny in policy '" ++ result.matchedPolicy.getD "unknown" ++
      "' from " ++ result.sourceStr.getD "unknown source"
  | .implicitDeny => "Request is DENIED because no policy explicitly allows this action"
  | .rootAccess => "Request is ALLOWED because root user has full access"

end AuthorizationResult

/-- The handler of the simulator. -/
def simulatePolicy (iam : IamStore) (req : SimulatePolicyRequest) :
    Except AdminError SimulatePolicyResponse :=
  match Action.fromOperation req.action with
  | none => .error ⟨400, "Invalid action: " ++ req.action⟩
  | some action =>
    let resource : Resource := { bucket := req.bucket, key := req.key }
    let result := iam.isAuthorizedDetailed req.username action resource
    .ok
      { allowed := result.allowed
        effect := result.effectStr
        matchedPolicy := result.matchedPolicy
        policySource := result.sourceStr
        explanation := result.explanation }

/-! ## The detailed check -/

/-- There is no first policy with an effect exactly when none evaluates to it. -/
theorem firstDeciding_eq_none {policies : List Policy} {effect : Effect} {action : Action}
    {resource : Resource} :
    IamStore.firstDeciding policies effect action resource = none ↔
      ∀ policy ∈ policies, policy.evaluate action resource ≠ some effect := by
  unfold IamStore.firstDeciding
  simp

/-- The same over the policies of the groups. -/
theorem firstDecidingOfGroups_eq_none {iam : IamStore} {groups : List Group} {effect : Effect}
    {action : Action} {resource : Resource} :
    iam.firstDecidingOfGroups groups effect action resource = none ↔
      ∀ policy ∈ groups.flatMap fun group => iam.listGroupPolicies group.name,
        policy.evaluate action resource ≠ some effect := by
  unfold IamStore.firstDecidingOfGroups
  simp only [List.findSome?_eq_none_iff, Option.map_eq_none_iff, firstDeciding_eq_none,
    List.mem_flatMap]
  constructor
  · intro h policy hpolicy
    obtain ⟨group, hgroup, hmem⟩ := hpolicy
    exact h group hgroup policy hmem
  · intro h group hgroup policy hmem
    exact h policy ⟨group, hgroup, hmem⟩

/-- A first policy with an effect evaluates to it. -/
theorem evaluate_of_firstDeciding {policies : List Policy} {effect : Effect} {action : Action}
    {resource : Resource} {policy : Policy}
    (h : IamStore.firstDeciding policies effect action resource = some policy) :
    policy ∈ policies ∧ policy.evaluate action resource = some effect :=
  ⟨List.mem_of_find?_eq_some h, by simpa using List.find?_some h⟩

/-- The policies of a source. -/
def IamStore.policiesOf (iam : IamStore) : PolicySource → List Policy
  | .user name => iam.listUserPolicies name
  | .group name => iam.listGroupPolicies name
  | .bucket _ => []

/-- The sources that apply to a user: the user and the user's groups. -/
def IamStore.Applies (iam : IamStore) (username : String) (source : PolicySource) : Prop :=
  source = .user username ∨
    ∃ group ∈ iam.listUserGroups username, source = .group group.name

/-- The policies that are gathered are those of the sources that apply. -/
theorem mem_allPolicies {iam : IamStore} {username : String} {policy : Policy} :
    policy ∈ iam.allPolicies username ↔
      ∃ source, iam.Applies username source ∧ policy ∈ iam.policiesOf source := by
  unfold IamStore.allPolicies
  rw [List.mem_append, List.mem_flatMap]
  constructor
  · intro h
    rcases h with h | ⟨group, hgroup, hmem⟩
    · exact ⟨.user username, Or.inl rfl, h⟩
    · exact ⟨.group group.name, Or.inr ⟨group, hgroup, rfl⟩, hmem⟩
  · intro h
    obtain ⟨source, rfl | ⟨group, hgroup, rfl⟩, hmem⟩ := h
    · exact Or.inl hmem
    · exact Or.inr ⟨group, hgroup, hmem⟩

theorem evaluate_of_firstDecidingOfGroups {iam : IamStore} {groups : List Group}
    {effect : Effect} {action : Action} {resource : Resource} {found : Group × Policy}
    (h : iam.firstDecidingOfGroups groups effect action resource = some found) :
    found.1 ∈ groups ∧ found.2 ∈ iam.listGroupPolicies found.1.name ∧
      found.2.evaluate action resource = some effect := by
  unfold IamStore.firstDecidingOfGroups at h
  obtain ⟨group, hgroup, hfound⟩ := List.exists_of_findSome?_eq_some h
  obtain ⟨policy, hpolicy, rfl⟩ := Option.map_eq_some_iff.mp hfound
  obtain ⟨hmem, heval⟩ := evaluate_of_firstDeciding hpolicy
  exact ⟨hgroup, hmem, heval⟩

/-- No policy of the user's and none of the groups' has the effect. -/
theorem forall_allPolicies_of_none {iam : IamStore} {username : String} {effect : Effect}
    {action : Action} {resource : Resource}
    (huser : IamStore.firstDeciding (iam.listUserPolicies username) effect action resource = none)
    (hgroups : iam.firstDecidingOfGroups (iam.listUserGroups username) effect action resource =
      none) :
    ∀ policy ∈ iam.allPolicies username, policy.evaluate action resource ≠ some effect := by
  intro policy hpolicy
  rcases List.mem_append.mp hpolicy with hmem | hmem
  · exact firstDeciding_eq_none.mp huser policy hmem
  · exact firstDecidingOfGroups_eq_none.mp hgroups policy hmem

/-- The result that names a policy of a source. -/
def AuthorizationResult.matched (allowed : Bool) (effect : AuthorizationEffect) (policy : Policy)
    (source : PolicySource) : AuthorizationResult where
  allowed := allowed
  effect := effect
  matchedPolicy := some policy.name
  policySource := some source

/-- **What the detailed check answers** for a name that is not root's: it names a
policy that denies; or one that allows, if none denies; or none, if none does
either. -/
theorem isAuthorizedDetailed_cases {iam : IamStore} {username : String}
    (hname : iam.isRootName username = false) (action : Action) (resource : Resource) :
    (∃ source policy, iam.Applies username source ∧ policy ∈ iam.policiesOf source ∧
      policy.evaluate action resource = some .deny ∧
      iam.isAuthorizedDetailed username action resource =
        .matched false .explicitDeny policy source) ∨
    ((∀ policy ∈ iam.allPolicies username, policy.evaluate action resource ≠ some .deny) ∧
      ∃ source policy, iam.Applies username source ∧ policy ∈ iam.policiesOf source ∧
        policy.evaluate action resource = some .allow ∧
        iam.isAuthorizedDetailed username action resource =
          .matched true .explicitAllow policy source) ∨
    ((∀ policy ∈ iam.allPolicies username, policy.evaluate action resource ≠ some .deny) ∧
      (∀ policy ∈ iam.allPolicies username, policy.evaluate action resource ≠ some .allow) ∧
      iam.isAuthorizedDetailed username action resource =
        { allowed := false, effect := .implicitDeny }) := by
  unfold IamStore.isAuthorizedDetailed
  rw [if_neg (by simp [hname])]
  dsimp only
  cases hdeny : IamStore.firstDeciding (iam.listUserPolicies username) .deny action resource with
  | some policy =>
      obtain ⟨hmem, heval⟩ := evaluate_of_firstDeciding hdeny
      exact Or.inl ⟨.user username, policy, Or.inl rfl, hmem, heval, rfl⟩
  | none =>
      cases hdenyGroup : iam.firstDecidingOfGroups (iam.listUserGroups username) .deny action
          resource with
      | some found =>
          obtain ⟨hgroup, hmem, heval⟩ := evaluate_of_firstDecidingOfGroups hdenyGroup
          exact Or.inl ⟨.group found.1.name, found.2, Or.inr ⟨found.1, hgroup, rfl⟩, hmem, heval,
            rfl⟩
      | none =>
          have hclean := forall_allPolicies_of_none hdeny hdenyGroup
          cases hallow : IamStore.firstDeciding (iam.listUserPolicies username) .allow action
              resource with
          | some policy =>
              obtain ⟨hmem, heval⟩ := evaluate_of_firstDeciding hallow
              exact Or.inr (Or.inl ⟨hclean, .user username, policy, Or.inl rfl, hmem, heval, rfl⟩)
          | none =>
              cases hallowGroup : iam.firstDecidingOfGroups (iam.listUserGroups username) .allow
                  action resource with
              | some found =>
                  obtain ⟨hgroup, hmem, heval⟩ := evaluate_of_firstDecidingOfGroups hallowGroup
                  exact Or.inr (Or.inl ⟨hclean, .group found.1.name, found.2,
                    Or.inr ⟨found.1, hgroup, rfl⟩, hmem, heval, rfl⟩)
              | none =>
                  exact Or.inr (Or.inr ⟨hclean, forall_allPolicies_of_none hallow hallowGroup,
                    rfl⟩)

/-- The plain check over the documents: one allows and none denies. -/
theorem isAuthorized_iff_evaluate {iam : IamStore} {username : String}
    (hname : iam.isRootName username = false) (action : Action) (resource : Resource) :
    iam.isAuthorized username action resource = true ↔
      (∃ policy ∈ iam.allPolicies username, policy.evaluate action resource = some .allow) ∧
        ∀ policy ∈ iam.allPolicies username, policy.evaluate action resource ≠ some .deny := by
  unfold IamStore.isAuthorized
  rw [if_neg (by simp [hname]), authorizedBy_eq_run]
  simp only [Bool.false_eq_true, if_false]
  rw [DenyOverrides.run_eq_allow_iff]
  simp [DenyOverrides.Decides]

/-- **The detailed check decides like the plain one.** -/
theorem isAuthorizedDetailed_allowed (iam : IamStore) (username : String) (action : Action)
    (resource : Resource) :
    (iam.isAuthorizedDetailed username action resource).allowed =
      iam.isAuthorized username action resource := by
  cases hname : iam.isRootName username with
  | true =>
      unfold IamStore.isAuthorizedDetailed
      simp [hname, isAuthorized_root hname]
  | false =>
      have hplain := isAuthorized_iff_evaluate hname action resource
      rw [Bool.eq_iff_iff, hplain]
      rcases isAuthorizedDetailed_cases hname action resource with
        ⟨source, policy, happlies, hmem, heval, hresult⟩ |
        ⟨hclean, source, policy, happlies, hmem, heval, hresult⟩ | ⟨-, hnone, hresult⟩
      · rw [hresult]
        refine iff_of_false Bool.false_ne_true fun h => ?_
        exact h.2 policy (mem_allPolicies.mpr ⟨source, happlies, hmem⟩) heval
      · rw [hresult]
        exact iff_of_true rfl
          ⟨⟨policy, mem_allPolicies.mpr ⟨source, happlies, hmem⟩, heval⟩, hclean⟩
      · rw [hresult]
        refine iff_of_false Bool.false_ne_true fun h => ?_
        obtain ⟨⟨policy, hmem, heval⟩, -⟩ := h
        exact hnone policy hmem heval

/-! ## What it predicts -/

/-- **The simulator predicts enforcement**: asked about the user's operation in
the documented form, it answers, and says allowed exactly when the S3 service
lets the user's request through. -/
def PredictsEnforcement (service : S3Auth) (now : DateTime) (credentials : Option Credentials)
    (headers : HeaderMap) (iam : IamStore) (username op : String) (bucket key : Option String) :
    Prop :=
  ∃ response,
    simulatePolicy iam
        { username := username, action := "s3:" ++ op, bucket := bucket, key := key } =
      .ok response ∧
    (response.allowed = true ↔
      service.checkAuthorization now credentials headers op bucket key = .ok ())

/-- No operation name starts with `s3:`. -/
theorem fromOperation_documented (op : String) : Action.fromOperation ("s3:" ++ op) = none := by
  have hhead : ("s3:" ++ op).toList.take 3 = ['s', '3', ':'] := by
    rw [String.toList_append]
    rfl
  unfold Action.fromOperation
  split
  all_goals first
    | rfl
    | (rename_i hname
       rw [hname] at hhead
       exact absurd hhead (by decide))

/-- **The documented form is always refused**, so the simulator predicts nothing
in that form. -/
theorem simulate_refuses_documented (service : S3Auth) (now : DateTime)
    (credentials : Option Credentials) (headers : HeaderMap) (iam : IamStore)
    (username op : String) (bucket key : Option String) :
    ¬PredictsEnforcement service now credentials headers iam username op bucket key := by
  intro h
  obtain ⟨response, hanswer, -⟩ := h
  unfold simulatePolicy at hanswer
  rw [fromOperation_documented] at hanswer
  cases hanswer

/-- The resource of a request consists of what it addresses. -/
theorem requestResource_eq {bucket key : Option String} {resource : Resource}
    (h : S3Auth.requestResource bucket key = .ok resource) :
    resource = { bucket := bucket, key := key } := by
  cases bucket with
  | none => cases key with
    | none => exact (Except.ok.inj h).symm
    | some k => cases h
  | some b => cases key with
    | none => exact (Except.ok.inj h).symm
    | some k => exact (Except.ok.inj h).symm

/-- **Asked about a bare operation name** that it knows, the simulator answers,
and predicts the S3 service's decision about somebody other than root exactly
when the IAM policies allow the request or the bucket policy does not. -/
theorem simulate_predicts_bare_iff {service : S3Auth} {now : DateTime}
    {credentials : Option Credentials} {headers : HeaderMap} {iam : IamStore}
    {username op : String} {bucket key : Option String} {resource : Resource} {action : Action}
    (hprincipal : service.NonRoot now credentials)
    (hreach : service.ReachesPolicies now credentials headers bucket key iam username resource)
    (haction : Action.fromOperation op = some action) :
    ∃ response,
      simulatePolicy iam { username := username, action := op, bucket := bucket, key := key } =
        .ok response ∧
      ((response.allowed = true ↔
          service.checkAuthorization now credentials headers op bucket key = .ok ()) ↔
        iam.isAuthorized username action resource = true ∨
          ¬(iam.BucketDecides bucket .allow username action resource {} ∧
            ¬iam.BucketDecides bucket .deny username action resource {})) := by
  have hop : S3Auth.requestAction op = action := by
    unfold S3Auth.requestAction
    rw [haction]
    rfl
  have hcheck : service.checkAuthorization now credentials headers op bucket key = .ok () ↔
      iam.isAuthorized username action resource = true ∨
        iam.isAuthorized username action resource = false ∧
          iam.BucketDecides bucket .allow username action resource {} ∧
          ¬iam.BucketDecides bucket .deny username action resource {} := by
    obtain ⟨htoken, hname, hiam, hresource⟩ := hreach
    obtain ⟨hroot, -⟩ := hprincipal username hname
    rw [checkAuthorization_ok_iff]
    simp only [htoken, hname, hiam, hresource, hop, Except.ok.injEq, Option.some.injEq,
      true_and, exists_eq_left', hroot, ne_eq, not_false_eq_true, false_or]
  obtain rfl := requestResource_eq hreach.2.2.2
  refine ⟨_, by unfold simulatePolicy; rw [haction], ?_⟩
  rw [hcheck, isAuthorizedDetailed_allowed]
  cases iam.isAuthorized username action { bucket := bucket, key := key } with
  | true => simp
  | false => simp

/-- The simulator does not answer whether `alice` may read an object. -/
theorem simulate_refuses_alice :
    ¬∀ (service : S3Auth) (now : DateTime) (credentials : Option Credentials)
        (headers : HeaderMap) (iam : IamStore) (username op : String)
        (bucket key : Option String), service.NonRoot now credentials →
        service.getUsername now credentials = .ok username → service.iam = some iam →
        PredictsEnforcement service now credentials headers iam username op bucket key := by
  intro hall
  obtain ⟨response, hanswer, -⟩ := hall aliceService 0 (some ⟨"AKIAALICE"⟩) [] _ "alice"
    "GetObject" (some "b") (some "k") alice_nonRoot rfl rfl
  have hrefused : Action.fromOperation ("s3:" ++ "GetObject") = none := by decide
  unfold simulatePolicy at hanswer
  rw [hrefused] at hanswer
  cases hanswer

end Strix

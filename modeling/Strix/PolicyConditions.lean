import Strix.ExplicitDeny

/-!
# The context of a bucket policy's conditions

Conditions of bucket policies speak about the request: its source address,
whether it came over TLS, its prefix, delimiter and page size.  The check
evaluates them in the empty `ConditionContext`, where there is no address and
no value but `false` for `aws:SecureTransport`.

* `evaluateWithContext_eq_iff`: when two contexts get the same from a policy;
* `evaluateCondition_congr`: conditions that do not read what differs;
* `conditions_see_request_iff`: exactly when the check's outcome is what the
  policy says in the request's own context.
-/

namespace Strix

namespace BucketPolicy

/-- **The policy reads alike** in two contexts: a matching statement denies in
both or in neither, and if none denies, one allows in both or in neither. -/
def ReadsAlike (policy : BucketPolicy) (principal : Principal) (action : Action)
    (resource : Resource) (context context' : ConditionContext) : Prop :=
  (policy.Decides .deny principal action resource context ↔
    policy.Decides .deny principal action resource context') ∧
  (¬policy.Decides .deny principal action resource context →
    (policy.Decides .allow principal action resource context ↔
      policy.Decides .allow principal action resource context'))

instance (policy : BucketPolicy) (principal : Principal) (action : Action)
    (resource : Resource) (context context' : ConditionContext) :
    Decidable (policy.ReadsAlike principal action resource context context') :=
  inferInstanceAs (Decidable ((_ ↔ _) ∧ (_ → (_ ↔ _))))

/-- A matching statement decides in the loop over the statements exactly when
it decides in the policy. -/
theorem decides_run_iff (policy : BucketPolicy) (effect : Effect) (principal : Principal)
    (action : Action) (resource : Resource) (context : ConditionContext) :
    DenyOverrides.Decides
        (fun stmt : BucketPolicyStatement =>
          if stmt.matchesWithContext principal action resource context then some stmt.effect
          else none) effect policy.statements ↔
      policy.Decides effect principal action resource context := by
  simp [DenyOverrides.Decides, BucketPolicy.Decides]

/-- A policy says the same in two contexts exactly when it reads alike in them. -/
theorem evaluateWithContext_eq_iff (policy : BucketPolicy) (principal : Principal)
    (action : Action) (resource : Resource) (context context' : ConditionContext) :
    policy.evaluateWithContext principal action resource context =
        policy.evaluateWithContext principal action resource context' ↔
      policy.ReadsAlike principal action resource context context' := by
  unfold BucketPolicy.evaluateWithContext
  rw [DenyOverrides.run_eq_run_iff]
  simp only [decides_run_iff]
  exact Iff.rfl

end BucketPolicy

/-! ## What a condition reads -/

/-- The operators that look at the address whatever their key. -/
def readsAddress (operator : String) : Prop :=
  operator = "IpAddress" ∨ operator = "NotIpAddress"

instance (operator : String) : Decidable (readsAddress operator) :=
  inferInstanceAs (Decidable (_ ∨ _))

/-- An operator that does not look at the address sees only the key's value. -/
theorem operatorMatches_congr {operator : String} (hoperator : ¬readsAddress operator)
    (context context' : ConditionContext) (actual : Option String) (expected : Value) :
    operatorMatches operator context actual expected =
      operatorMatches operator context' actual expected := by
  have hip : operator ≠ "IpAddress" := fun h => hoperator (Or.inl h)
  have hnot : operator ≠ "NotIpAddress" := fun h => hoperator (Or.inr h)
  unfold operatorMatches
  split
  all_goals first
    | rfl
    | exact absurd rfl hip
    | exact absurd rfl hnot

/-- **A condition that does not read what differs** comes out the same in both
contexts: each of its keys has the same value in them, and the address is the
same or none of its operators looks at it. -/
theorem evaluateCondition_congr {condition : Value} {context context' : ConditionContext}
    (hkeys : ∀ operators, condition.asObject = some operators →
      ∀ entry ∈ operators, ∀ entries, entry.2.asObject = some entries →
      ∀ pair ∈ entries, context.get pair.1 = context'.get pair.1)
    (haddress : context.sourceIp = context'.sourceIp ∨ ∀ operators,
      condition.asObject = some operators → ∀ entry ∈ operators, ¬readsAddress entry.1) :
    evaluateCondition condition context = evaluateCondition condition context' := by
  unfold evaluateCondition
  cases hobject : condition.asObject with
  | none => rfl
  | some operators =>
      rw [Bool.eq_iff_iff, List.all_eq_true, List.all_eq_true]
      refine forall₂_congr fun entry hentry => ?_
      obtain ⟨operator, conditions⟩ := entry
      dsimp only
      cases hentries : conditions.asObject with
      | none => exact Iff.rfl
      | some entries =>
          dsimp only
          rw [List.all_eq_true, List.all_eq_true]
          refine forall₂_congr fun pair hpair => ?_
          have hvalue := hkeys operators hobject _ hentry entries hentries pair hpair
          rw [hvalue]
          rcases haddress with hsame | hnone
          · unfold operatorMatches
            rw [hsame]
          · rw [operatorMatches_congr (hnone operators hobject _ hentry) context context']

/-- A policy whose statements' conditions come out the same reads alike. -/
theorem readsAlike_of_conditions {policy : BucketPolicy} {context context' : ConditionContext}
    (hsame : ∀ stmt ∈ policy.statements,
      stmt.matchesCondition context = stmt.matchesCondition context')
    (principal : Principal) (action : Action) (resource : Resource) :
    policy.ReadsAlike principal action resource context context' := by
  have hdecides (effect : Effect) : policy.Decides effect principal action resource context ↔
      policy.Decides effect principal action resource context' := by
    refine exists_congr fun stmt => and_congr_right fun hstmt => ?_
    unfold BucketPolicyStatement.matchesWithContext
    rw [hsame stmt hstmt]
  exact ⟨hdecides .deny, fun _ => hdecides .allow⟩

/-! ## The check -/

/-- The outcome of the check is the bucket policy's verdict in the context. -/
def S3Auth.DecidesIn (service : S3Auth) (now : DateTime) (credentials : Option Credentials)
    (headers : HeaderMap) (action bucket : String) (key : Option String) (policy : BucketPolicy)
    (principal : Principal) (resource : Resource) (context : ConditionContext) : Prop :=
  service.checkAuthorization now credentials headers action (some bucket) key =
    S3Auth.bucketVerdict
      (policy.evaluateWithContext principal (S3Auth.requestAction action) resource context)

/-- Where the IAM policies do not allow, the outcome of the check is the bucket
policy's verdict in the empty context. -/
theorem decidesIn_empty {service : S3Auth} {now : DateTime} {credentials : Option Credentials}
    {headers : HeaderMap} {action bucket : String} {key : Option String} {iam : IamStore}
    {username : String} {resource : Resource} {policy : BucketPolicy}
    (hprincipal : service.NonRoot now credentials)
    (hreach : service.ReachesPolicies now credentials headers (some bucket) key iam username
      resource)
    (hallow : ¬PoliciesDecide (iam.allPolicies username) .allow (S3Auth.requestAction action)
      resource)
    (hpolicy : iam.getBucketPolicy bucket = .ok (some policy)) :
    service.DecidesIn now credentials headers action bucket key policy
      (S3Auth.requestPrincipal username) resource {} := by
  obtain ⟨htoken, hname, hiam, hresource⟩ := hreach
  obtain ⟨hroot, hrootName⟩ := hprincipal username hname
  have hauth : iam.isAuthorized username (S3Auth.requestAction action) resource = false := by
    by_contra hyes
    have hyes := eq_true_of_ne_false hyes
    exact hallow ((isAuthorized_iff (hrootName iam hiam) _ _).mp hyes).1
  unfold S3Auth.DecidesIn S3Auth.checkAuthorization
  simp only [htoken, hname, hiam, hresource, hroot, hauth, bind, Except.bind, if_false,
    Bool.false_eq_true]
  exact checkBucketPolicy_eq_verdict hpolicy username _ resource

/-- **When conditions see the request.**  For a request of somebody other than
root that the IAM policies do not allow, the outcome of the check is what the
bucket policy says in the request's own context exactly when the policy reads
alike in that context and in the empty one. -/
theorem conditions_see_request_iff {service : S3Auth} {now : DateTime}
    {credentials : Option Credentials} {headers : HeaderMap} {action bucket : String}
    {key : Option String} {iam : IamStore} {username : String} {resource : Resource}
    {policy : BucketPolicy} (hprincipal : service.NonRoot now credentials)
    (hreach : service.ReachesPolicies now credentials headers (some bucket) key iam username
      resource)
    (hallow : ¬PoliciesDecide (iam.allPolicies username) .allow (S3Auth.requestAction action)
      resource)
    (hpolicy : iam.getBucketPolicy bucket = .ok (some policy)) (context : ConditionContext) :
    service.DecidesIn now credentials headers action bucket key policy
        (S3Auth.requestPrincipal username) resource context ↔
      policy.ReadsAlike (S3Auth.requestPrincipal username) (S3Auth.requestAction action)
        resource {} context := by
  have hempty := decidesIn_empty hprincipal hreach hallow hpolicy
  rw [← BucketPolicy.evaluateWithContext_eq_iff, ← S3Auth.bucketVerdict_inj]
  unfold S3Auth.DecidesIn at hempty ⊢
  rw [hempty]

/-! ## A denied network -/

/-- Everybody may read bucket `b`, but nobody from `192.168.1.0/24`. -/
def networkPolicy : BucketPolicy where
  statements := [
    { effect := .allow
      principal := .aws ["*"]
      actions := .single "s3:GetObject"
      resources := .single "arn:aws:s3:::b/*" },
    { effect := .deny
      principal := .aws ["*"]
      actions := .single "s3:*"
      resources := .single "arn:aws:s3:::b/*"
      condition := some (.object [("IpAddress",
        .object [("aws:SourceIp", .string "192.168.1.0/24")])]) }]

def networkIam : IamStore where
  db := { bucketPolicies := [{ bucket := "b", policyDocument := some networkPolicy }] }
  rootAccessKey := "ROOTKEY"
  rootSecretKey := "root-secret"

/-- The service over it. -/
def networkService : S3Auth where
  platform := plainIamPlatform
  iam := some networkIam
  rootAccessKey := "ROOTKEY"

/-- What conditions see of a request over TLS from an IPv4 address. -/
def fromAddress (bits : BitVec 32) : ConditionContext where
  sourceIp := some (.v4 bits)
  secureTransport := true

theorem network_nonRoot : networkService.NonRoot 0 none := by
  intro username hname
  obtain rfl : "anonymous" = username := Except.ok.inj hname
  refine ⟨by decide, fun iam hiam => ?_⟩
  obtain rfl := Option.some.inj hiam
  rfl

theorem network_reaches : networkService.ReachesPolicies 0 none [] (some "b") (some "k")
    networkIam "anonymous" (.object "b" "k") :=
  ⟨rfl, rfl, rfl, rfl⟩

/-- A request from `10.0.0.7` is decided as its own context says. -/
theorem conditions_see_request_outside :
    networkService.DecidesIn 0 none [] "GetObject" "b" (some "k") networkPolicy .anonymous
      (.object "b" "k") (fromAddress 0x0A000007) :=
  (conditions_see_request_iff network_nonRoot network_reaches (by decide) rfl
    (fromAddress 0x0A000007)).mpr (by decide)

/-- A request from `192.168.1.7` gets through although the policy denies it. -/
theorem deniedAddress_allowed :
    ¬∀ (service : S3Auth) (now : DateTime) (credentials : Option Credentials)
        (headers : HeaderMap) (action bucket : String) (key : Option String) (iam : IamStore)
        (username : String) (resource : Resource) (policy : BucketPolicy)
        (context : ConditionContext),
        service.NonRoot now credentials →
        service.ReachesPolicies now credentials headers (some bucket) key iam username
          resource →
        ¬PoliciesDecide (iam.allPolicies username) .allow (S3Auth.requestAction action)
          resource →
        ¬PoliciesDecide (iam.allPolicies username) .deny (S3Auth.requestAction action)
          resource →
        iam.getBucketPolicy bucket = .ok (some policy) →
        service.DecidesIn now credentials headers action bucket key policy
          (S3Auth.requestPrincipal username) resource context := by
  intro hall
  have hdenied := hall networkService 0 none [] "GetObject" "b" (some "k") networkIam "anonymous"
    (.object "b" "k") networkPolicy (fromAddress 0xC0A80107) network_nonRoot network_reaches
    (by decide) (by decide) rfl
  have hempty : networkService.DecidesIn 0 none [] "GetObject" "b" (some "k") networkPolicy
      (S3Auth.requestPrincipal "anonymous") (.object "b" "k") {} :=
    decidesIn_empty network_nonRoot network_reaches (by decide) rfl
  unfold S3Auth.DecidesIn at hdenied hempty
  rw [hempty, S3Auth.bucketVerdict_inj] at hdenied
  exact absurd hdenied (by decide)

end Strix

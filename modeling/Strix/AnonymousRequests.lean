import Strix.S3Authorization

/-!
# Requests without credentials

An S3 request without credentials comes from nobody: no policy of a user or a
group is its own, and only the policy of the addressed bucket can let it
through, as `Principal::Anonymous`.  The service gives such a request the user
name `anonymous`, which then travels through the policy lookups like any other
name, and `create_user` accepts it.

`checkAuthorizationConsulting` is the check with a record of the documents that
it evaluates:

* `checkAuthorizationConsulting_snd`: the record changes no decision;
* `bucketPolicy_consulted`: the principal that a bucket policy sees;
* `noIdentity_iff_nobodyNamed`: in which states anonymous requests have no
  identity;
* `nobodyNamed_of_no_user`: where there is no user `anonymous`, they have none.
-/

namespace Strix

/-! ## What the check consults -/

/-- An evaluation that the authorization check makes: of a policy attached to a
user or a group, or of a bucket policy for a principal. -/
inductive Consulted
  | attached (policy : Policy)
  | bucketPolicy (policy : BucketPolicy) (principal : Principal)

namespace IamStore

/-- The loop of `is_authorized` and the policies that it evaluates. -/
def authorizedByConsulting (action : Action) (resource : Resource) :
    Bool → List Policy → List Consulted × Bool
  | allowed, [] => ([], allowed)
  | allowed, policy :: policies =>
    match policy.evaluate action resource with
    | some .deny => ([.attached policy], false)
    | some .allow =>
      let rest := authorizedByConsulting action resource true policies
      (.attached policy :: rest.1, rest.2)
    | none =>
      let rest := authorizedByConsulting action resource allowed policies
      (.attached policy :: rest.1, rest.2)

/-- `is_authorized` and the policies that it evaluates. -/
def isAuthorizedConsulting (iam : IamStore) (username : String) (action : Action)
    (resource : Resource) : List Consulted × Bool :=
  if iam.isRootName username then ([], true)
  else authorizedByConsulting action resource false (iam.allPolicies username)

end IamStore

namespace S3Auth

/-- The service on an IAM store in a given state. -/
def withIam (service : S3Auth) (iam : IamStore) : S3Auth :=
  { service with iam := some iam }

/-- The principal as which a request is evaluated: of the name that its
credentials stand for. -/
def principalFor (service : S3Auth) (now : DateTime) (credentials : Option Credentials) :
    Except S3Error Principal := do
  let username ← service.getUsername now credentials
  .ok (requestPrincipal username)

/-- The second half of the check and the bucket policy that it evaluates. -/
def checkBucketPolicyConsulting (iam : IamStore) (username : String) (action : Action)
    (resource : Resource) (bucket : Option String) : List Consulted × Except S3Error Unit :=
  match bucket with
  | none => ([], bucketVerdict none)
  | some bucketName =>
    match iam.getBucketPolicy bucketName with
    | .error _ => ([], .error (s3Error .internalError "Authorization check failed"))
    | .ok none => ([], bucketVerdict none)
    | .ok (some policy) =>
      let principal := requestPrincipal username
      ([.bucketPolicy policy principal],
        bucketVerdict (policy.evaluate principal action resource))

/-- `check_authorization` and the policies that it evaluates. -/
def checkAuthorizationConsulting (service : S3Auth) (now : DateTime)
    (credentials : Option Credentials) (headers : HeaderMap) (action : String)
    (bucket key : Option String) : List Consulted × Except S3Error Unit :=
  match service.validateSessionToken now credentials headers with
  | .error e => ([], .error e)
  | .ok () =>
    match service.getUsername now credentials with
    | .error e => ([], .error e)
    | .ok username =>
      if username = "root" then ([], .ok ())
      else
        match service.iam with
        | none => ([], .error (s3Error .accessDenied "Access denied"))
        | some iam =>
          match requestResource bucket key with
          | .error e => ([], .error e)
          | .ok resource =>
            let own := iam.isAuthorizedConsulting username (requestAction action) resource
            if own.2 then (own.1, .ok ())
            else
              let more := checkBucketPolicyConsulting iam username (requestAction action)
                resource bucket
              (own.1 ++ more.1, more.2)

end S3Auth

/-! ## The record changes nothing -/

/-- Recording the loop's evaluations changes nothing about its outcome. -/
@[simp] theorem authorizedByConsulting_snd (action : Action) (resource : Resource)
    (allowed : Bool) (policies : List Policy) :
    (IamStore.authorizedByConsulting action resource allowed policies).2 =
      IamStore.authorizedBy action resource allowed policies := by
  induction policies generalizing allowed with
  | nil => rfl
  | cons policy policies ih =>
      unfold IamStore.authorizedByConsulting IamStore.authorizedBy
      cases policy.evaluate action resource with
      | none => exact ih allowed
      | some effect =>
          cases effect with
          | allow => exact ih true
          | deny => rfl

@[simp] theorem isAuthorizedConsulting_snd (iam : IamStore) (username : String)
    (action : Action) (resource : Resource) :
    (iam.isAuthorizedConsulting username action resource).2 =
      iam.isAuthorized username action resource := by
  unfold IamStore.isAuthorizedConsulting IamStore.isAuthorized
  by_cases hroot : iam.isRootName username = true
  · simp [hroot]
  · simp [hroot]

@[simp] theorem checkBucketPolicyConsulting_snd (iam : IamStore) (username : String)
    (action : Action) (resource : Resource) (bucket : Option String) :
    (S3Auth.checkBucketPolicyConsulting iam username action resource bucket).2 =
      S3Auth.checkBucketPolicy iam username action resource bucket := by
  cases bucket with
  | none => rfl
  | some name =>
      unfold S3Auth.checkBucketPolicyConsulting S3Auth.checkBucketPolicy
        IamStore.isAuthorizedByBucketPolicy
      cases hget : iam.getBucketPolicy name with
      | error e => simp [hget, bind, Except.bind]
      | ok found =>
          cases found with
          | none => simp [hget, bind, Except.bind, S3Auth.bucketVerdict]
          | some policy =>
              simp only [hget, bind, Except.bind]
              cases policy.evaluate (S3Auth.requestPrincipal username) action resource with
              | none => rfl
              | some effect => cases effect <;> rfl

/-- **The record changes no decision.** -/
theorem checkAuthorizationConsulting_snd (service : S3Auth) (now : DateTime)
    (credentials : Option Credentials) (headers : HeaderMap) (action : String)
    (bucket key : Option String) :
    (service.checkAuthorizationConsulting now credentials headers action bucket key).2 =
      service.checkAuthorization now credentials headers action bucket key := by
  unfold S3Auth.checkAuthorizationConsulting S3Auth.checkAuthorization
  cases service.validateSessionToken now credentials headers with
  | error e => rfl
  | ok token =>
      cases service.getUsername now credentials with
      | error e => rfl
      | ok username =>
          by_cases hroot : username = "root"
          · simp [bind, Except.bind, hroot]
          · cases service.iam with
            | none => simp [bind, Except.bind, hroot]
            | some iam =>
                cases S3Auth.requestResource bucket key with
                | error e => simp [bind, Except.bind, hroot]
                | ok resource =>
                    cases hauth : iam.isAuthorized username (S3Auth.requestAction action)
                        resource with
                    | true => simp [bind, Except.bind, hroot, hauth]
                    | false => simp [bind, Except.bind, hroot, hauth]

/-- A loop over policies evaluates the first of them, if there is one. -/
theorem authorizedByConsulting_head (action : Action) (resource : Resource) (allowed : Bool)
    (policy : Policy) (policies : List Policy) :
    .attached policy ∈
      (IamStore.authorizedByConsulting action resource allowed (policy :: policies)).1 := by
  unfold IamStore.authorizedByConsulting
  cases policy.evaluate action resource with
  | none => exact List.mem_cons_self
  | some effect => cases effect <;> exact List.mem_cons_self

/-- The loop evaluates no bucket policy. -/
theorem bucketPolicy_not_mem_authorizedBy (action : Action) (resource : Resource)
    (policy : BucketPolicy) (principal : Principal) (allowed : Bool) (policies : List Policy) :
    .bucketPolicy policy principal ∉
      (IamStore.authorizedByConsulting action resource allowed policies).1 := by
  induction policies generalizing allowed with
  | nil => simp [IamStore.authorizedByConsulting]
  | cons own policies ih =>
      unfold IamStore.authorizedByConsulting
      cases own.evaluate action resource with
      | none => simpa using ih allowed
      | some effect =>
          cases effect with
          | allow => simpa using ih true
          | deny => simp

/-- `is_authorized` evaluates no bucket policy. -/
theorem bucketPolicy_not_mem_isAuthorized (iam : IamStore) (username : String) (action : Action)
    (resource : Resource) (policy : BucketPolicy) (principal : Principal) :
    .bucketPolicy policy principal ∉
      (iam.isAuthorizedConsulting username action resource).1 := by
  unfold IamStore.isAuthorizedConsulting
  by_cases hroot : iam.isRootName username = true
  · simp [hroot]
  · simpa [hroot] using bucketPolicy_not_mem_authorizedBy action resource policy principal false
      (iam.allPolicies username)

/-- The second half evaluates the policy of the bucket, and nothing else, for
the principal of the name. -/
theorem mem_checkBucketPolicyConsulting {iam : IamStore} {username : String} {action : Action}
    {resource : Resource} {bucket : Option String} {consulted : Consulted}
    (h : consulted ∈
      (S3Auth.checkBucketPolicyConsulting iam username action resource bucket).1) :
    ∃ name policy, bucket = some name ∧ iam.getBucketPolicy name = .ok (some policy) ∧
      consulted = .bucketPolicy policy (S3Auth.requestPrincipal username) := by
  cases bucket with
  | none => simp [S3Auth.checkBucketPolicyConsulting] at h
  | some name =>
      unfold S3Auth.checkBucketPolicyConsulting at h
      cases hget : iam.getBucketPolicy name with
      | error e => simp [hget] at h
      | ok found =>
          cases found with
          | none => simp [hget] at h
          | some policy =>
              simp only [hget, List.mem_singleton] at h
              exact ⟨name, policy, rfl, hget, h⟩

/-- **The principal that a bucket policy sees** is that of the request. -/
theorem bucketPolicy_consulted {service : S3Auth} {now : DateTime}
    {credentials : Option Credentials} {headers : HeaderMap} {action : String}
    {bucket key : Option String} {policy : BucketPolicy} {principal : Principal}
    (h : .bucketPolicy policy principal ∈
      (service.checkAuthorizationConsulting now credentials headers action bucket key).1) :
    service.principalFor now credentials = .ok principal := by
  unfold S3Auth.checkAuthorizationConsulting at h
  unfold S3Auth.principalFor
  cases htoken : service.validateSessionToken now credentials headers with
  | error e => simp [htoken] at h
  | ok token =>
      cases hname : service.getUsername now credentials with
      | error e => simp [htoken, hname] at h
      | ok username =>
          by_cases hroot : username = "root"
          · simp [htoken, hname, hroot] at h
          · cases hiam : service.iam with
            | none => simp [htoken, hname, hroot, hiam] at h
            | some iam =>
                cases hresource : S3Auth.requestResource bucket key with
                | error e => simp [htoken, hname, hroot, hiam, hresource] at h
                | ok resource =>
                    have hown := bucketPolicy_not_mem_isAuthorized iam username
                      (S3Auth.requestAction action) resource policy principal
                    cases hauth : iam.isAuthorized username (S3Auth.requestAction action)
                        resource with
                    | true =>
                        simp [htoken, hname, hroot, hiam, hresource, hauth, hown] at h
                    | false =>
                        simp only [htoken, hname, hroot, hiam, hresource, hauth, hown,
                          isAuthorizedConsulting_snd, if_false, Bool.false_eq_true,
                          List.mem_append, false_or] at h
                        obtain ⟨_, _, _, _, hsame⟩ := mem_checkBucketPolicyConsulting h
                        cases hsame
                        rfl

/-! ## The policies of a name -/

/-- No policy that parses is attached to the name, nor to a group that it is in. -/
structure IamStore.NoPoliciesFor (iam : IamStore) (username : String) : Prop where
  ofUser : ∀ row ∈ iam.db.userPolicies, row.username = username → row.policyDocument = none
  ofGroups : ∀ g ∈ iam.db.groups, ∀ m ∈ iam.db.groupMembers, g.name = m.groupName →
    m.username = username →
    ∀ row ∈ iam.db.groupPolicies, row.groupName = g.name → row.policyDocument = none

/-- `is_authorized` collects nothing for a name exactly when nothing is attached
to it. -/
theorem allPolicies_eq_nil_iff {iam : IamStore} {username : String}
    (hname : iam.isRootName username = false) :
    iam.allPolicies username = [] ↔ iam.NoPoliciesFor username := by
  have huser : iam.listUserPolicies username = [] ↔
      ∀ row ∈ iam.db.userPolicies, row.username = username → row.policyDocument = none := by
    simp [IamStore.listUserPolicies, hname, IamStore.attachedPolicies,
      List.filterMap_eq_nil_iff]
  have hgroup (name : String) : iam.listGroupPolicies name = [] ↔
      ∀ row ∈ iam.db.groupPolicies, row.groupName = name → row.policyDocument = none := by
    simp [IamStore.listGroupPolicies, List.filterMap_eq_nil_iff]
  rw [IamStore.allPolicies, List.append_eq_nil_iff, List.flatMap_eq_nil_iff, huser]
  constructor
  · intro h
    refine ⟨h.1, fun g hg m hm hjoin hmember => ?_⟩
    obtain ⟨group, hmem, hsame⟩ := exists_mem_listUserGroups.mpr
      ⟨g, hg, m, hm, hjoin, hmember, rfl⟩
    have hnil := h.2 group hmem
    rw [hsame] at hnil
    exact (hgroup g.name).mp hnil
  · intro h
    refine ⟨h.ofUser, fun group hmem => ?_⟩
    obtain ⟨g, hg, m, hm, hjoin, hmember, hsame⟩ := exists_mem_listUserGroups.mp
      ⟨group, hmem, rfl⟩
    rw [← hsame]
    exact (hgroup g.name).mpr (h.ofGroups g hg m hm hjoin hmember)

/-- The loop over no policies allows nothing and evaluates nothing. -/
theorem isAuthorizedConsulting_of_noPolicies {iam : IamStore} {username : String}
    (hname : iam.isRootName username = false) (hnone : iam.NoPoliciesFor username)
    (action : Action) (resource : Resource) :
    iam.isAuthorizedConsulting username action resource = ([], false) := by
  unfold IamStore.isAuthorizedConsulting
  rw [if_neg (by simp [hname]), (allPolicies_eq_nil_iff hname).mpr hnone]
  rfl

/-! ## No identity -/

/-- `create_user` accepts the name, in some state of the store. -/
def IamStore.Accepts (iam : IamStore) (username : String) : Prop :=
  ∃ db now user, ({ iam with db := db }.createUser now username).1 = .ok user

/-- The names that `create_user` accepts are all but root's two. -/
theorem accepts_iff (iam : IamStore) (username : String) :
    iam.Accepts username ↔ iam.isRootName username = false := by
  constructor
  · intro h
    obtain ⟨db, now, user, hok⟩ := h
    by_contra hroot
    have hroot : ({ iam with db := db } : IamStore).isRootName username = true :=
      eq_true_of_ne_false hroot
    simp [IamStore.createUser, hroot] at hok
  · intro hname
    have hname : ({ iam with db := {} } : IamStore).isRootName username = false := hname
    exact ⟨{}, 0, User.create username 0, by simp [IamStore.createUser, hname]⟩

/-- **Requests without credentials have no identity** in a state of the store:
only the bucket policy lets them through, no attached policy is evaluated for
them, and who is authenticated as a user is evaluated as that user. -/
structure S3Auth.NoIdentity (service : S3Auth) (now : DateTime) (iam : IamStore) : Prop where
  bucketAllows : ∀ (headers : HeaderMap) (action : String) (bucket key : Option String),
    (service.withIam iam).checkAuthorization now none headers action bucket key = .ok () →
    ∃ name policy resource, bucket = some name ∧
      iam.getBucketPolicy name = .ok (some policy) ∧
      S3Auth.requestResource bucket key = .ok resource ∧
      policy.evaluate .anonymous (S3Auth.requestAction action) resource = some .allow
  noneAttached : ∀ (headers : HeaderMap) (action : String) (bucket key : Option String)
    (policy : Policy), .attached policy ∉
      ((service.withIam iam).checkAuthorizationConsulting now none headers action bucket key).1
  asUser : ∀ (username : String) (creds : Credentials), iam.Accepts username →
    (service.withIam iam).getUsername now (some creds) = .ok username →
    (service.withIam iam).principalFor now (some creds) = .ok (.user username)

/-- Two states of the store that agree on the policy of the addressed bucket
decide the same about a request without credentials. -/
def S3Auth.SameForAnonymous (service : S3Auth) (now : DateTime) (iam₁ iam₂ : IamStore) : Prop :=
  ∀ (headers : HeaderMap) (action : String) (bucket key : Option String),
    (∀ name, bucket = some name → iam₁.getBucketPolicy name = iam₂.getBucketPolicy name) →
    (service.withIam iam₁).checkAuthorization now none headers action bucket key =
      (service.withIam iam₂).checkAuthorization now none headers action bucket key

/-- Nobody goes by the name `anonymous`: it is not root's, no policy is attached
to it, and no access key stands for a user of that name. -/
structure S3Auth.NobodyNamed (service : S3Auth) (now : DateTime) (iam : IamStore) : Prop where
  notRoot : iam.rootAccessKey ≠ "anonymous"
  noPolicies : iam.NoPoliciesFor "anonymous"
  noUser : ∀ creds : Credentials,
    (service.withIam iam).getUsername now (some creds) ≠ .ok "anonymous"

theorem isRootName_anonymous {iam : IamStore} :
    iam.isRootName "anonymous" = false ↔ iam.rootAccessKey ≠ "anonymous" := by
  have hsplit : iam.isRootName "anonymous" = ("anonymous" == iam.rootAccessKey) := rfl
  rw [hsplit, beq_eq_false_iff_ne]
  exact ne_comm

/-- What the check does with a request without credentials. -/
theorem checkAuthorizationConsulting_none (service : S3Auth) (now : DateTime) (iam : IamStore)
    (headers : HeaderMap) (action : String) (bucket key : Option String) (resource : Resource)
    (hresource : S3Auth.requestResource bucket key = .ok resource) :
    (service.withIam iam).checkAuthorizationConsulting now none headers action bucket key =
      let own := iam.isAuthorizedConsulting "anonymous" (S3Auth.requestAction action) resource
      if own.2 then (own.1, .ok ())
      else
        let more := S3Auth.checkBucketPolicyConsulting iam "anonymous"
          (S3Auth.requestAction action) resource bucket
        (own.1 ++ more.1, more.2) := by
  unfold S3Auth.checkAuthorizationConsulting
  rw [hresource]
  rfl

/-- Where nobody is named `anonymous`, only the bucket policy is asked about a
request without credentials. -/
theorem checkAuthorizationConsulting_none_of_nobodyNamed {service : S3Auth} {now : DateTime}
    {iam : IamStore} (hnobody : service.NobodyNamed now iam) (headers : HeaderMap)
    (action : String) (bucket key : Option String) :
    (service.withIam iam).checkAuthorizationConsulting now none headers action bucket key =
      match S3Auth.requestResource bucket key with
      | .error e => ([], .error e)
      | .ok resource => S3Auth.checkBucketPolicyConsulting iam "anonymous"
          (S3Auth.requestAction action) resource bucket := by
  cases hresource : S3Auth.requestResource bucket key with
  | error e =>
      unfold S3Auth.checkAuthorizationConsulting
      rw [hresource]
      rfl
  | ok resource =>
      rw [checkAuthorizationConsulting_none service now iam headers action bucket key resource
        hresource, isAuthorizedConsulting_of_noPolicies
        (isRootName_anonymous.mpr hnobody.notRoot) hnobody.noPolicies]
      rfl

/-- There, the decision about such a request is a function of the policy of the
addressed bucket. -/
theorem checkAuthorization_none_of_nobodyNamed {service : S3Auth} {now : DateTime}
    {iam : IamStore} (hnobody : service.NobodyNamed now iam) (headers : HeaderMap)
    (action : String) (bucket key : Option String) :
    (service.withIam iam).checkAuthorization now none headers action bucket key =
      match S3Auth.requestResource bucket key with
      | .error e => .error e
      | .ok resource => S3Auth.checkBucketPolicy iam "anonymous" (S3Auth.requestAction action)
          resource bucket := by
  rw [← checkAuthorizationConsulting_snd,
    checkAuthorizationConsulting_none_of_nobodyNamed hnobody]
  cases S3Auth.requestResource bucket key with
  | error e => rfl
  | ok resource => exact checkBucketPolicyConsulting_snd ..

/-- The bucket half of the check reads the store only for the bucket's policy. -/
theorem checkBucketPolicy_congr {iam₁ iam₂ : IamStore} {bucket : Option String}
    (hagree : ∀ name, bucket = some name →
      iam₁.getBucketPolicy name = iam₂.getBucketPolicy name)
    (username : String) (action : Action) (resource : Resource) :
    S3Auth.checkBucketPolicy iam₁ username action resource bucket =
      S3Auth.checkBucketPolicy iam₂ username action resource bucket := by
  cases bucket with
  | none => rfl
  | some name =>
      have hget := hagree name rfl
      simp only [S3Auth.checkBucketPolicy, IamStore.isAuthorizedByBucketPolicy, hget]

/-- If the bucket half lets a request through, the bucket's policy allows it. -/
theorem allow_of_checkBucketPolicy {iam : IamStore} {username : String} {action : Action}
    {resource : Resource} {bucket : Option String}
    (hok : S3Auth.checkBucketPolicy iam username action resource bucket = .ok ()) :
    ∃ name policy, bucket = some name ∧ iam.getBucketPolicy name = .ok (some policy) ∧
      policy.evaluate (S3Auth.requestPrincipal username) action resource = some .allow := by
  rw [← checkBucketPolicyConsulting_snd] at hok
  cases bucket with
  | none => cases hok
  | some name =>
      unfold S3Auth.checkBucketPolicyConsulting at hok
      cases hget : iam.getBucketPolicy name with
      | error e => simp [hget] at hok
      | ok found =>
          cases found with
          | none => simp [hget, S3Auth.bucketVerdict] at hok
          | some policy =>
              simp only [hget] at hok
              exact ⟨name, policy, rfl, hget, S3Auth.bucketVerdict_ok_iff.mp hok⟩

/-- Where nobody is named `anonymous`, anonymous requests have no identity. -/
theorem noIdentity_of_nobodyNamed {service : S3Auth} {now : DateTime} {iam : IamStore}
    (hnobody : service.NobodyNamed now iam) : service.NoIdentity now iam where
  bucketAllows := by
    intro headers action bucket key hok
    rw [checkAuthorization_none_of_nobodyNamed hnobody] at hok
    cases hresource : S3Auth.requestResource bucket key with
    | error e => simp [hresource] at hok
    | ok resource =>
        simp only [hresource] at hok
        obtain ⟨name, policy, hbucket, hget, hallow⟩ := allow_of_checkBucketPolicy hok
        exact ⟨name, policy, resource, hbucket, hget, rfl, hallow⟩
  noneAttached := by
    intro headers action bucket key policy hmem
    rw [checkAuthorizationConsulting_none_of_nobodyNamed hnobody] at hmem
    cases hresource : S3Auth.requestResource bucket key with
    | error e => simp [hresource] at hmem
    | ok resource =>
        simp only [hresource] at hmem
        obtain ⟨_, _, _, _, hsame⟩ := mem_checkBucketPolicyConsulting hmem
        cases hsame
  asUser := by
    intro username creds haccepts hname
    have hother : username ≠ "anonymous" := by
      intro hsame
      rw [hsame] at hname
      exact hnobody.noUser creds hname
    unfold S3Auth.principalFor S3Auth.requestPrincipal
    rw [hname]
    simp [bind, Except.bind, hother]

/-- Where anonymous requests have no identity, nobody is named `anonymous`. -/
theorem nobodyNamed_of_noIdentity {service : S3Auth} {now : DateTime} {iam : IamStore}
    (hidentity : service.NoIdentity now iam) : service.NobodyNamed now iam := by
  -- A request that addresses no bucket has no bucket policy to let it through.
  have hall := checkAuthorizationConsulting_none service now iam [] "ListBuckets" none none .all rfl
  have hroot : iam.isRootName "anonymous" = false := by
    by_contra hname
    have hname := eq_true_of_ne_false hname
    have hown : iam.isAuthorizedConsulting "anonymous" (S3Auth.requestAction "ListBuckets")
        .all = ([], true) := by
      unfold IamStore.isAuthorizedConsulting
      rw [if_pos hname]
    have hok : (service.withIam iam).checkAuthorization now none [] "ListBuckets" none none =
        .ok () := by
      rw [← checkAuthorizationConsulting_snd, hall, hown]
      rfl
    obtain ⟨name, _, _, hbucket, _⟩ := hidentity.bucketAllows [] "ListBuckets" none none hok
    cases hbucket
  refine ⟨isRootName_anonymous.mp hroot, (allPolicies_eq_nil_iff hroot).mp ?_, ?_⟩
  · cases hpolicies : iam.allPolicies "anonymous" with
    | nil => rfl
    | cons policy policies =>
        have hfirst : .attached policy ∈
            (iam.isAuthorizedConsulting "anonymous" (S3Auth.requestAction "ListBuckets")
              .all).1 := by
          unfold IamStore.isAuthorizedConsulting
          rw [if_neg (by simp [hroot]), hpolicies]
          exact authorizedByConsulting_head _ _ _ _ _
        refine absurd ?_ (hidentity.noneAttached [] "ListBuckets" none none policy)
        rw [hall]
        dsimp only
        split
        · exact hfirst
        · exact List.mem_append_left _ hfirst
  · intro creds hname
    have hprincipal := hidentity.asUser "anonymous" creds
      ((accepts_iff iam "anonymous").mpr hroot) hname
    unfold S3Auth.principalFor at hprincipal
    rw [hname] at hprincipal
    cases hprincipal

/-- **When anonymous requests have no identity.**  Two states of the store that
agree on the policy of the addressed bucket decide the same about requests
without credentials, and in both these have no identity, exactly when in both
nobody goes by the name `anonymous`. -/
theorem noIdentity_iff_nobodyNamed (service : S3Auth) (now : DateTime)
    (iam₁ iam₂ : IamStore) :
    (service.SameForAnonymous now iam₁ iam₂ ∧ service.NoIdentity now iam₁ ∧
      service.NoIdentity now iam₂) ↔
      service.NobodyNamed now iam₁ ∧ service.NobodyNamed now iam₂ := by
  constructor
  · intro h
    exact ⟨nobodyNamed_of_noIdentity h.2.1, nobodyNamed_of_noIdentity h.2.2⟩
  · intro h
    refine ⟨?_, noIdentity_of_nobodyNamed h.1, noIdentity_of_nobodyNamed h.2⟩
    intro headers action bucket key hagree
    rw [checkAuthorization_none_of_nobodyNamed h.1, checkAuthorization_none_of_nobodyNamed h.2]
    cases S3Auth.requestResource bucket key with
    | error e => rfl
    | ok resource => exact checkBucketPolicy_congr hagree _ _ _

/-! ## Whom a name belongs to -/

/-- Temporary credentials stand for the user that their row is joined with. -/
theorem user_of_getTempCredentials {iam : IamStore} {platform : IamPlatform} {now : DateTime}
    {accessKeyId : String} {cred : TemporaryCredential} {user : User}
    (hget : iam.getTempCredentials platform now accessKeyId = .ok (some (cred, user))) :
    user ∈ iam.db.users ∧ user.username = cred.assumedIdentity := by
  unfold IamStore.getTempCredentials at hget
  dsimp only at hget
  split at hget
  · cases hget
  · rename_i hfound
    have hmem := List.mem_of_find?_eq_some hfound
    simp only [List.mem_flatMap, List.mem_map, List.mem_filter, beq_iff_eq, Prod.mk.injEq] at hmem
    obtain ⟨_, _, _, ⟨huser, hsame⟩, rfl, rfl⟩ := hmem
    split at hget
    · cases hget
    · cases hget
      exact ⟨huser, hsame.symm⟩

/-- An access key other than root's stands for a user of the store. -/
theorem user_of_getCredentials {iam : IamStore} {platform : IamPlatform} {now : DateTime}
    {accessKeyId : String} {accessKey : AccessKey} {user : User}
    (hget : iam.getCredentials platform now accessKeyId = .ok (some (accessKey, user))) :
    user.username = "root" ∨ user ∈ iam.db.users := by
  unfold IamStore.getCredentials at hget
  split at hget
  · cases hget
    exact Or.inl rfl
  · dsimp only at hget
    split at hget
    · cases hget
    · rename_i hfound
      have hmem := List.mem_of_find?_eq_some hfound
      simp only [List.mem_flatMap, List.mem_map, List.mem_filter, Prod.mk.injEq] at hmem
      obtain ⟨row, _, joined, ⟨huser, _⟩, rfl, rfl⟩ := hmem
      cases hsecret : platform.decryptSecret row.secretAccessKeyEncrypted with
      | error e => simp [hsecret, bind, Except.bind] at hget
      | ok secret =>
          simp only [hsecret, bind, Except.bind, Except.ok.injEq, Option.some.injEq,
            Prod.mk.injEq] at hget
          rw [← hget.2]
          exact Or.inr huser

/-- **Whom credentials stand for**: root, or a user of the store. -/
theorem exists_user_of_getUsername {service : S3Auth} {now : DateTime} {iam : IamStore}
    {creds : Credentials} {username : String} (hiam : service.iam = some iam)
    (hname : service.getUsername now (some creds) = .ok username) :
    username = "root" ∨ ∃ user ∈ iam.db.users, user.username = username := by
  unfold S3Auth.getUsername at hname
  rw [hiam] at hname
  dsimp only at hname
  split at hname
  · cases hname
    exact Or.inl rfl
  · split at hname
    · cases hget : iam.getTempCredentials service.platform now creds.accessKey with
      | error e => simp [hget] at hname
      | ok found =>
          cases found with
          | none => simp [hget] at hname
          | some pair =>
              simp only [hget, Except.ok.injEq] at hname
              obtain ⟨huser, hsame⟩ := user_of_getTempCredentials hget
              exact Or.inr ⟨pair.2, huser, hsame.trans hname⟩
    · cases hget : iam.getCredentials service.platform now creds.accessKey with
      | error e => simp [hget] at hname
      | ok found =>
          cases found with
          | none => simp [hget] at hname
          | some pair =>
              simp only [hget, Except.ok.injEq] at hname
              rcases user_of_getCredentials hget with hroot | huser
              · exact Or.inl (hname.symm.trans hroot)
              · exact Or.inr ⟨pair.2, huser, hname⟩

/-- Where there is no user `anonymous` and the rows of policies and members belong to
users, as the foreign keys say, nobody goes by the name. -/
theorem nobodyNamed_of_no_user {service : S3Auth} {now : DateTime} {iam : IamStore}
    (hkey : iam.rootAccessKey ≠ "anonymous")
    (hnone : ∀ user ∈ iam.db.users, user.username ≠ "anonymous")
    (hpolicies : ∀ row ∈ iam.db.userPolicies, ∃ user ∈ iam.db.users,
      user.username = row.username)
    (hmembers : ∀ m ∈ iam.db.groupMembers, ∃ user ∈ iam.db.users, user.username = m.username) :
    service.NobodyNamed now iam where
  notRoot := hkey
  noPolicies := {
    ofUser := by
      intro row hrow hname
      obtain ⟨user, huser, hsame⟩ := hpolicies row hrow
      exact absurd (hsame.trans hname) (hnone user huser)
    ofGroups := by
      intro g _ m hm _ hname
      obtain ⟨user, huser, hsame⟩ := hmembers m hm
      exact absurd (hsame.trans hname) (hnone user huser) }
  noUser := by
    intro creds hname
    rcases exists_user_of_getUsername rfl hname with hroot | ⟨user, huser, hsame⟩
    · exact absurd hroot (by decide)
    · exact hnone user huser hsame

/-! ## A user named `anonymous` -/

/-- An IAM store without users. -/
def emptyIam : IamStore where
  db := {}
  rootAccessKey := "ROOTKEY"
  rootSecretKey := "root-secret"

/-- The S3 service over it. -/
def anonymousService : S3Auth where
  platform := plainIamPlatform
  iam := some emptyIam
  rootAccessKey := "ROOTKEY"

/-- The policy that allows everything. -/
def allowEverything : Policy where
  name := "everything"
  statements := [{ effect := .allow, actions := ["*"], resources := ["*"] }]

/-- The store after `create_user("anonymous")` and `attach_user_policy`. -/
def anonymousUserIam : IamStore :=
  ((emptyIam.createUser 0 "anonymous").2.attachUserPolicy 0 "anonymous" allowEverything).2

/-- The user `anonymous` lends its policy to a request without credentials. -/
theorem anonymousUser_lends_policy :
    ¬∀ (service : S3Auth) (now : DateTime) (iam₁ iam₂ : IamStore),
      service.SameForAnonymous now iam₁ iam₂ ∧ service.NoIdentity now iam₁ ∧
        service.NoIdentity now iam₂ := by
  intro hall
  have hsame := (hall anonymousService 0 anonymousUserIam emptyIam).1 [] "GetObject" (some "b")
    (some "k") (fun _ _ => rfl)
  exact absurd hsame (by decide)

end Strix

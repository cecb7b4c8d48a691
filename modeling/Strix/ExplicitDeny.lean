import Strix.S3Authorization

/-!
# Explicit denials

A request of somebody other than root should never get through when a matching
statement of an applicable policy denies it.  `DenyWins` says so of one request
in the light of what its conditions see, its `ConditionContext`.  The check
misses a denial in three cases, `DenyOverlooked`:

* the IAM policies allow the request, so the bucket policy is not read;
* the IAM policies deny it, which the store reports like the lack of an
  allowance, and the bucket policy allows it;
* the denying statement of the bucket policy has conditions that the request
  meets and the empty context does not.

`explicitDeny_wins_iff` shows that these are all of them.
-/

namespace Strix

/-- Whoever sent the request is not root. -/
def S3Auth.NonRoot (service : S3Auth) (now : DateTime) (credentials : Option Credentials) :
    Prop :=
  ∀ username, service.getUsername now credentials = .ok username →
    username ≠ "root" ∧ ∀ iam, service.iam = some iam → iam.isRootName username = false

/-- The request comes as far as the policies: its credentials stand for a user
name and it addresses a resource. -/
def S3Auth.ReachesPolicies (service : S3Auth) (now : DateTime)
    (credentials : Option Credentials) (headers : HeaderMap) (bucket key : Option String)
    (iam : IamStore) (username : String) (resource : Resource) : Prop :=
  service.validateSessionToken now credentials headers = .ok () ∧
    service.getUsername now credentials = .ok username ∧
    service.iam = some iam ∧ S3Auth.requestResource bucket key = .ok resource

/-- Some matching statement of an applicable policy denies the request: of the
user's policies, of the policies of the user's groups or of the bucket policy,
whose conditions see the context. -/
def IamStore.Denies (iam : IamStore) (username : String) (action : Action)
    (resource : Resource) (bucket : Option String) (context : ConditionContext) : Prop :=
  PoliciesDecide (iam.allPolicies username) .deny action resource ∨
    iam.BucketDecides bucket .deny username action resource context

/-- **An explicit denial wins**: the request gets through only if no matching
statement of an applicable policy denies it. -/
def S3Auth.DenyWins (service : S3Auth) (now : DateTime) (credentials : Option Credentials)
    (headers : HeaderMap) (action : String) (bucket key : Option String)
    (context : ConditionContext) : Prop :=
  service.checkAuthorization now credentials headers action bucket key = .ok () →
    ∀ iam username resource,
      service.ReachesPolicies now credentials headers bucket key iam username resource →
      ¬iam.Denies username (S3Auth.requestAction action) resource bucket context

/-- The three ways in which the check misses a denial. -/
def IamStore.DenyOverlooked (iam : IamStore) (username : String) (action : Action)
    (resource : Resource) (bucket : Option String) (context : ConditionContext) : Prop :=
  let allows := PoliciesDecide (iam.allPolicies username) .allow action resource
  let denies := PoliciesDecide (iam.allPolicies username) .deny action resource
  let bucketAllows := iam.BucketDecides bucket .allow username action resource {} ∧
    ¬iam.BucketDecides bucket .deny username action resource {}
  let bucketDenies := iam.BucketDecides bucket .deny username action resource context
  (allows ∧ ¬denies ∧ bucketDenies) ∨
    (denies ∧ bucketAllows) ∨
    (¬allows ∧ ¬denies ∧ bucketAllows ∧ bucketDenies)

/-- What gets somebody other than root through, in terms of statements. -/
theorem checkAuthorization_ok_nonRoot {service : S3Auth} {now : DateTime}
    {credentials : Option Credentials} {headers : HeaderMap} {bucket key : Option String}
    {iam : IamStore} {username : String} {resource : Resource}
    (hprincipal : service.NonRoot now credentials)
    (hreach : service.ReachesPolicies now credentials headers bucket key iam username resource)
    (action : String) :
    service.checkAuthorization now credentials headers action bucket key = .ok () ↔
      (PoliciesDecide (iam.allPolicies username) .allow (S3Auth.requestAction action) resource ∧
        ¬PoliciesDecide (iam.allPolicies username) .deny (S3Auth.requestAction action)
          resource) ∨
      ¬(PoliciesDecide (iam.allPolicies username) .allow (S3Auth.requestAction action)
          resource ∧
        ¬PoliciesDecide (iam.allPolicies username) .deny (S3Auth.requestAction action)
          resource) ∧
      iam.BucketDecides bucket .allow username (S3Auth.requestAction action) resource {} ∧
      ¬iam.BucketDecides bucket .deny username (S3Auth.requestAction action) resource {} := by
  obtain ⟨htoken, hname, hiam, hresource⟩ := hreach
  obtain ⟨hroot, hrootName⟩ := hprincipal username hname
  have hauth := isAuthorized_iff (hrootName iam hiam) (S3Auth.requestAction action) resource
  rw [checkAuthorization_ok_iff]
  simp only [htoken, hname, hiam, hresource, Except.ok.injEq, Option.some.injEq, true_and,
    exists_eq_left', hroot, ne_eq, not_false_eq_true, false_or, ← Bool.not_eq_true, hauth]

/-- **When an explicit denial wins.**  For a request of somebody other than root
the check lets no denied request through exactly when the request is turned away
before the policies are read or none of the three cases applies. -/
theorem explicitDeny_wins_iff (service : S3Auth) (now : DateTime)
    (credentials : Option Credentials) (headers : HeaderMap) (action : String)
    (bucket key : Option String) (context : ConditionContext)
    (hprincipal : service.NonRoot now credentials) :
    service.DenyWins now credentials headers action bucket key context ↔
      ∀ iam username resource,
        service.ReachesPolicies now credentials headers bucket key iam username resource →
        ¬iam.DenyOverlooked username (S3Auth.requestAction action) resource bucket
          context := by
  constructor
  · intro hwins iam username resource hreach hmissed
    have hok := checkAuthorization_ok_nonRoot hprincipal hreach action
    have hclean (haccepted) := hwins haccepted iam username resource hreach
    rcases hmissed with ⟨hallows, hdenies, hbucket⟩ | ⟨hdenies, hbucket⟩ |
      ⟨hallows, -, hbucket, hdenied⟩
    · exact hclean (hok.mpr (.inl ⟨hallows, hdenies⟩)) (.inr hbucket)
    · exact hclean (hok.mpr (.inr ⟨fun h => h.2 hdenies, hbucket⟩)) (.inl hdenies)
    · exact hclean (hok.mpr (.inr ⟨fun h => hallows h.1, hbucket⟩)) (.inr hdenied)
  · intro hnone haccepted iam username resource hreach hdenied
    have hseen := hnone iam username resource hreach
    rcases (checkAuthorization_ok_nonRoot hprincipal hreach action).mp haccepted with
      ⟨hallows, hclean⟩ | ⟨hrefused, hbucket⟩
    · rcases hdenied with hdenies | hdenies
      · exact hclean hdenies
      · exact hseen (.inl ⟨hallows, hclean, hdenies⟩)
    · by_cases hdenies : PoliciesDecide (iam.allPolicies username) .deny
          (S3Auth.requestAction action) resource
      · exact hseen (.inr (.inl ⟨hdenies, hbucket⟩))
      · have hbucketDenies := hdenied.resolve_left hdenies
        exact hseen (.inr (.inr ⟨fun h => hrefused ⟨h, hdenies⟩, hdenies, hbucket,
          hbucketDenies⟩))

/-! ## An allowance hides the bucket's denial -/

/-- `alice` may read everything by her own policy, and the policy of bucket `b`
denies her everything in it. -/
def aliceService : S3Auth where
  platform := plainIamPlatform
  rootAccessKey := "ROOTKEY"
  iam := some
    { rootAccessKey := "ROOTKEY"
      rootSecretKey := "root-secret"
      db :=
        { users := [User.create "alice" 0]
          accessKeys := [{ accessKeyId := "AKIAALICE", secretAccessKeyEncrypted := "secret",
                           username := "alice", createdAt := 0 }]
          userPolicies := [{ username := "alice", policyName := "read",
                             policyDocument := some
                               { name := "read"
                                 statements := [{ effect := .allow, actions := ["s3:GetObject"],
                                                  resources := ["*"] }] } }]
          bucketPolicies := [{ bucket := "b"
                               policyDocument := some
                                 { statements := [{ effect := .deny
                                                    principal := .aws ["alice"]
                                                    actions := .single "*"
                                                    resources := .single "*" }] } }] } }

/-- `alice`'s access key is hers, not root's. -/
theorem alice_nonRoot : aliceService.NonRoot 0 (some ⟨"AKIAALICE"⟩) := by
  intro username hname
  obtain rfl : "alice" = username := Except.ok.inj hname
  refine ⟨by decide, fun iam hiam => ?_⟩
  obtain rfl := Option.some.inj hiam
  rfl

/-- The equivalence for the request `PUT b/k` signed by `alice`. -/
theorem explicitDeny_wins_alice :
    aliceService.DenyWins 0 (some ⟨"AKIAALICE"⟩) [] "PutObject" (some "b") (some "k") {} ↔
      ∀ iam username resource,
        aliceService.ReachesPolicies 0 (some ⟨"AKIAALICE"⟩) [] (some "b") (some "k") iam
          username resource →
        ¬iam.DenyOverlooked username (S3Auth.requestAction "PutObject") resource (some "b")
          {} :=
  explicitDeny_wins_iff aliceService 0 (some ⟨"AKIAALICE"⟩) [] "PutObject" (some "b")
    (some "k") {} alice_nonRoot

/-- The request `GET b/k` signed by `alice` gets through. -/
theorem bucketDeny_overlooked :
    ¬∀ (service : S3Auth) (now : DateTime) (credentials : Option Credentials)
        (headers : HeaderMap) (action : String) (bucket key : Option String)
        (context : ConditionContext), service.NonRoot now credentials →
        service.DenyWins now credentials headers action bucket key context := by
  intro hall
  refine hall aliceService 0 (some ⟨"AKIAALICE"⟩) [] "GetObject" (some "b") (some "k") {}
    alice_nonRoot rfl _ "alice" (.object "b" "k") ⟨rfl, rfl, rfl, rfl⟩ (.inr ?_)
  exact ⟨_, rfl, _, List.mem_singleton_self _, by decide, rfl⟩

end Strix

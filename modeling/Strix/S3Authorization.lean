import Strix.IamStore

/-!
# Authorization of S3 requests

`checkAuthorization` is what every handler of the S3 service calls before it
acts: it checks the session token of temporary credentials, resolves the user
name behind the access key, asks the IAM policies and then, if they do not
allow the request, the policy of the addressed bucket.

`checkAuthorization_ok_iff` lists the ways in which a request gets through.
-/

namespace Strix

/-- The S3 error codes that the service returns. -/
inductive S3ErrorCode
  | accessDenied
  | invalidAccessKeyId
  | expiredToken
  | internalError
  | invalidArgument
  | invalidRequest
  | noSuchBucket
  | bucketAlreadyOwnedByYou
  | bucketNotEmpty
  | invalidBucketName
  | noSuchKey
  | noSuchUpload
  | invalidPart
  | invalidPartOrder
  | entityTooSmall
  | preconditionFailed
  | notModified
  | invalidRange
  | invalidTag
  | noSuchCORSConfiguration
  | noSuchLifecycleConfiguration
  deriving DecidableEq, Repr

/-- `s3s::S3Error`: a code and perhaps a message. -/
structure S3Error where
  code : S3ErrorCode
  message : Option String := none
  deriving DecidableEq, Repr

/-- `s3_error!` with a message. -/
def s3Error (code : S3ErrorCode) (message : String) : S3Error :=
  { code := code, message := some message }

/-- `s3s::auth::Credentials`: the access key the request was signed with. -/
structure Credentials where
  accessKey : String
  deriving DecidableEq, Repr

/-- Request headers by lower-case name. -/
abbrev HeaderMap := List (String × String)

/-- The S3 service's authorization settings. -/
structure S3Auth where
  platform : IamPlatform
  iam : Option IamStore
  rootAccessKey : String

namespace S3Auth

/-- The user name behind the credentials. -/
def getUsername (service : S3Auth) (now : DateTime) :
    Option Credentials → Except S3Error String
  | none => .ok "anonymous"
  | some creds =>
    let accessKey := creds.accessKey
    if accessKey = service.rootAccessKey then .ok "root"
    else
      match service.iam with
      | none => .error (s3Error .accessDenied "Access denied")
      | some iam =>
        if startsWith accessKey "ASIA" then
          match iam.getTempCredentials service.platform now accessKey with
          | .ok (some (cred, _)) => .ok cred.assumedIdentity
          | .ok none => .error (s3Error .accessDenied "Invalid or expired credentials")
          | .error _ => .error (s3Error .internalError "Authentication failed")
        else
          match iam.getCredentials service.platform now accessKey with
          | .ok (some (_, user)) => .ok user.username
          | .ok none => .error (s3Error .accessDenied "Invalid credentials")
          | .error _ => .error (s3Error .internalError "Authentication failed")

/-- Temporary credentials must come with their session token. -/
def validateSessionToken (service : S3Auth) (now : DateTime)
    (credentials : Option Credentials) (headers : HeaderMap) : Except S3Error Unit :=
  match credentials with
  | none => .ok ()
  | some creds =>
    if !startsWith creds.accessKey "ASIA" then .ok ()
    else
      match service.iam with
      | none => .error (s3Error .accessDenied "IAM not configured")
      | some iam =>
        match headers.lookup "x-amz-security-token" with
        | none =>
          .error (s3Error .accessDenied "Missing X-Amz-Security-Token for temporary credentials")
        | some sessionToken =>
          if iam.validateSessionToken service.platform now creds.accessKey sessionToken then
            .ok ()
          else
            .error (s3Error .accessDenied "Invalid session token for temporary credentials")

/-- The resource that a request addresses. -/
def requestResource : Option String → Option String → Except S3Error Resource
  | some b, some k => .ok (.object b k)
  | some b, none => .ok (.ofBucket b)
  | none, none => .ok .all
  | none, some _ => .error (s3Error .invalidArgument "Invalid resource")

/-- The action that an operation name stands for. -/
def requestAction (action : String) : Action :=
  (Action.fromOperation action).getD .all

/-- The principal that a bucket policy sees. -/
def requestPrincipal (username : String) : Principal :=
  if username = "anonymous" then .anonymous else .user username

/-- The verdict on a request that the IAM policies have not allowed, from the
bucket policy's. -/
def bucketVerdict : Option Effect → Except S3Error Unit
  | some .allow => .ok ()
  | some .deny => .error (s3Error .accessDenied "Access denied by bucket policy")
  | none => .error (s3Error .accessDenied "Access denied")

/-- What the policy of the addressed bucket says, once the IAM policies have
not allowed the request. -/
def checkBucketPolicy (iam : IamStore) (username : String) (action : Action)
    (resource : Resource) (bucket : Option String) : Except S3Error Unit :=
  match bucket with
  | none => .error (s3Error .accessDenied "Access denied")
  | some bucketName =>
    match iam.isAuthorizedByBucketPolicy bucketName (requestPrincipal username) action
        resource with
    | .error _ => .error (s3Error .internalError "Authorization check failed")
    | .ok (some .allow) => .ok ()
    | .ok (some .deny) => .error (s3Error .accessDenied "Access denied by bucket policy")
    | .ok none => .error (s3Error .accessDenied "Access denied")

/-- May the request perform the action on the resource? -/
def checkAuthorization (service : S3Auth) (now : DateTime) (credentials : Option Credentials)
    (headers : HeaderMap) (action : String) (bucket key : Option String) :
    Except S3Error Unit := do
  service.validateSessionToken now credentials headers
  let username ← service.getUsername now credentials
  if username = "root" then .ok ()
  else
    match service.iam with
    | none => .error (s3Error .accessDenied "Access denied")
    | some iam =>
      let resource ← requestResource bucket key
      let iamAction := requestAction action
      if iam.isAuthorized username iamAction resource then .ok ()
      else checkBucketPolicy iam username iamAction resource bucket

end S3Auth

/-! ## The ways through -/

/-- The bucket policy that applies to a request: that of the bucket it
addresses, if there is one and it parses. -/
def IamStore.applicableBucketPolicy (iam : IamStore) : Option String → Option BucketPolicy
  | none => none
  | some bucket => ((iam.db.bucketPolicies.find? (·.bucket == bucket)).bind
      (·.policyDocument))

/-- Some matching statement of the applicable bucket policy has this effect. -/
def IamStore.BucketDecides (iam : IamStore) (bucket : Option String) (effect : Effect)
    (username : String) (action : Action) (resource : Resource) (context : ConditionContext) :
    Prop :=
  ∃ policy, iam.applicableBucketPolicy bucket = some policy ∧
    policy.Decides effect (S3Auth.requestPrincipal username) action resource context

/-- The bucket policy lets a request through exactly when it allows it in the
default context and does not deny it there. -/
theorem checkBucketPolicy_ok_iff (iam : IamStore) (username : String) (action : Action)
    (resource : Resource) (bucket : Option String) :
    S3Auth.checkBucketPolicy iam username action resource bucket = .ok () ↔
      iam.BucketDecides bucket .allow username action resource {} ∧
        ¬iam.BucketDecides bucket .deny username action resource {} := by
  cases bucket with
  | none => simp [S3Auth.checkBucketPolicy, IamStore.BucketDecides,
      IamStore.applicableBucketPolicy]
  | some name =>
      simp only [S3Auth.checkBucketPolicy, IamStore.isAuthorizedByBucketPolicy,
        IamStore.getBucketPolicy, IamStore.BucketDecides, IamStore.applicableBucketPolicy]
      cases hrow : iam.db.bucketPolicies.find? (·.bucket == name) with
      | none => simp [bind, Except.bind]
      | some row =>
          cases hdoc : row.policyDocument with
          | none => simp [bind, Except.bind, hdoc]
          | some policy =>
              have hallow := policy.evaluateWithContext_allow_iff
                (S3Auth.requestPrincipal username) action resource {}
              simp only [bind, Except.bind, Option.bind_some, hdoc, BucketPolicy.evaluate,
                Option.some.injEq, exists_eq_left']
              rw [← hallow]
              cases hresult : policy.evaluateWithContext (S3Auth.requestPrincipal username)
                  action resource {} with
              | none => simp
              | some effect => cases effect <;> simp

/-- If the bucket has a policy that parses, its verdict is the outcome of the
bucket half. -/
theorem checkBucketPolicy_eq_verdict {iam : IamStore} {name : String} {policy : BucketPolicy}
    (hget : iam.getBucketPolicy name = .ok (some policy)) (username : String) (action : Action)
    (resource : Resource) :
    S3Auth.checkBucketPolicy iam username action resource (some name) =
      S3Auth.bucketVerdict
        (policy.evaluate (S3Auth.requestPrincipal username) action resource) := by
  unfold S3Auth.checkBucketPolicy IamStore.isAuthorizedByBucketPolicy
  simp only [hget, bind, Except.bind]
  cases policy.evaluate (S3Auth.requestPrincipal username) action resource with
  | none => rfl
  | some effect => cases effect <;> rfl

/-- A bucket policy's verdict lets the request through if it allows it. -/
theorem S3Auth.bucketVerdict_ok_iff {effect : Option Effect} :
    S3Auth.bucketVerdict effect = .ok () ↔ effect = some .allow := by
  cases effect with
  | none => simp [S3Auth.bucketVerdict]
  | some effect => cases effect <;> simp [S3Auth.bucketVerdict]

/-- Different effects have different verdicts. -/
theorem S3Auth.bucketVerdict_inj {effect₁ effect₂ : Option Effect} :
    S3Auth.bucketVerdict effect₁ = S3Auth.bucketVerdict effect₂ ↔ effect₁ = effect₂ := by
  constructor
  · intro h
    cases effect₁ with
    | none => cases effect₂ with
      | none => rfl
      | some effect => cases effect <;> simp [S3Auth.bucketVerdict, s3Error] at h
    | some effect => cases effect <;> cases effect₂ with
      | none => simp [S3Auth.bucketVerdict, s3Error] at h
      | some other => cases other <;> simp [S3Auth.bucketVerdict, s3Error] at h ⊢
  · intro h
    rw [h]

/-- **Who gets through.**  Root does; anybody else needs an IAM store whose
policies allow the request, or, if they do not, a bucket policy that does. -/
theorem checkAuthorization_ok_iff (service : S3Auth) (now : DateTime)
    (credentials : Option Credentials) (headers : HeaderMap) (action : String)
    (bucket key : Option String) :
    service.checkAuthorization now credentials headers action bucket key = .ok () ↔
      service.validateSessionToken now credentials headers = .ok () ∧
      ∃ username, service.getUsername now credentials = .ok username ∧
        (username = "root" ∨ username ≠ "root" ∧
          ∃ iam, service.iam = some iam ∧
          ∃ resource, S3Auth.requestResource bucket key = .ok resource ∧
            (iam.isAuthorized username (S3Auth.requestAction action) resource = true ∨
              iam.isAuthorized username (S3Auth.requestAction action) resource = false ∧
              iam.BucketDecides bucket .allow username (S3Auth.requestAction action)
                resource {} ∧
              ¬iam.BucketDecides bucket .deny username (S3Auth.requestAction action)
                resource {})) := by
  rw [S3Auth.checkAuthorization]
  cases htoken : service.validateSessionToken now credentials headers with
  | error e => simp [bind, Except.bind]
  | ok token =>
      cases hname : service.getUsername now credentials with
      | error e => simp [bind, Except.bind]
      | ok username =>
          by_cases hroot : username = "root"
          · simp [bind, Except.bind, hroot]
          · cases hiam : service.iam with
            | none => simp [bind, Except.bind, hroot]
            | some iam =>
                cases hresource : S3Auth.requestResource bucket key with
                | error e => simp [bind, Except.bind, hroot]
                | ok resource =>
                    cases hauth : iam.isAuthorized username (S3Auth.requestAction action)
                        resource with
                    | true => simp [bind, Except.bind, hroot, hauth]
                    | false =>
                        simp [bind, Except.bind, hroot, hauth, checkBucketPolicy_ok_iff]

end Strix

import Strix.AdminAuth
import Strix.PolicyPatterns
import Strix.Presign
import Strix.S3Authorization

/-!
# The control plane

Routes of the admin API that are not about one bucket ask for `Action::All` on
`Resource::all()`, "broad admin privileges".  Among them is `/presign`, whose
URLs are signed with root's key.  The target is matched as the texts `s3:*` and
`arn:aws:s3:::*` against the user's patterns, which says little about other
actions and resources.

* `presigned_authorized`: what a presigned URL is good for;
* `withinPolicies_iff`: exactly when whoever is admitted to these routes may do
  everything anyway.
-/

namespace Strix

/-! ## Presigned URLs -/

namespace PresignMethod

/-- `str::to_uppercase`, as far as letters of ASCII come of it. -/
def upperCase (text : String) : String :=
  String.ofList (text.toList.map Char.toUpper)

/-- The method that an upper-case text names. -/
def ofUpper : String → Option PresignMethod
  | "GET" => some get
  | "PUT" => some put
  | "DELETE" => some delete
  | _ => none

/-- The S3 operation that the method stands for on an object. -/
def operation : PresignMethod → String
  | get => "GetObject"
  | put => "PutObject"
  | delete => "DeleteObject"

end PresignMethod

/-- A request for a pre-signed URL. -/
structure PresignRequest where
  bucket : String
  key : String
  method : String := "GET"
  expiresIn : Nat := 3600
  deriving DecidableEq, Repr

/-- Configuration for presigned URL generation: root's keys. -/
structure PresignConfig where
  accessKey : String
  secretKey : String
  endpoint : String
  region : String
  deriving DecidableEq, Repr

/-- What a pre-signed URL says and its signature covers. -/
structure PresignedUrl where
  accessKey : String
  endpoint : String
  region : String
  method : PresignMethod
  bucket : String
  key : String
  expiresIn : Nat
  deriving DecidableEq, Repr

/-- The text of the URL, signed with a secret key. -/
def PresignedUrl.text (url : PresignedUrl) (hashes : Hashes) (dates : DateFormats)
    (secretKey : String) (now : DateTime) : String :=
  let generator :=
    PresignUrlGenerator.new url.accessKey secretKey url.endpoint (some url.region)
  generator.generate hashes dates
    { method := url.method
      bucket := url.bucket
      key := url.key
      expiresIn := UInt32.ofNat url.expiresIn
      region := some url.region } now

/-- Pre-signed URL response. -/
structure PresignResponse where
  url : PresignedUrl
  expiresIn : Nat
  method : String
  deriving DecidableEq, Repr

/-- The handler behind `/presign`. -/
def generatePresignUrl (presignConfig : Option PresignConfig) (req : PresignRequest) :
    Except AdminError PresignResponse :=
  match presignConfig with
  | none => .error ⟨503, "Pre-signed URLs not configured"⟩
  | some config =>
    match PresignMethod.ofUpper (PresignMethod.upperCase req.method) with
    | none => .error ⟨400, "Invalid method. Use GET, PUT, or DELETE"⟩
    | some method =>
      let expiresIn := min req.expiresIn 604800
      let url : PresignedUrl :=
        { accessKey := config.accessKey
          endpoint := config.endpoint
          region := config.region
          method := method
          bucket := req.bucket
          key := req.key
          expiresIn := expiresIn }
      .ok { url := url, expiresIn := expiresIn, method := PresignMethod.upperCase req.method }

/-- **What a presigned URL is good for**: signed with root's key, it passes the
check of the S3 service whatever the policies say. -/
theorem presigned_authorized {config : PresignConfig} {req : PresignRequest}
    {response : PresignResponse} (hresponse : generatePresignUrl (some config) req = .ok response)
    {service : S3Auth} (hroot : config.accessKey = service.rootAccessKey)
    (htemp : startsWith config.accessKey "ASIA" = false) (now : DateTime) (headers : HeaderMap) :
    service.checkAuthorization now (some ⟨response.url.accessKey⟩) headers
      response.url.method.operation (some response.url.bucket) (some response.url.key) =
        .ok () := by
  have hkey : response.url.accessKey = config.accessKey := by
    unfold generatePresignUrl at hresponse
    dsimp only at hresponse
    split at hresponse
    · cases hresponse
    · rw [← Except.ok.inj hresponse]
  rw [hkey, checkAuthorization_ok_iff]
  refine ⟨?_, "root", ?_, Or.inl rfl⟩
  · simp [S3Auth.validateSessionToken, htemp]
  · simp [S3Auth.getUsername, hroot]

/-! ## Broad privileges -/

/-- **The control plane stays within the policies** of a user: who is admitted to
a route that asks for everything may do everything, and who is admitted to
`/presign` may do what its URLs are good for. -/
structure WithinPolicies (iam : IamStore) (user : AuthenticatedUser) : Prop where
  authority : ∀ method path, authorizationTarget method path = (.all, .all) →
    authorizeMiddleware iam user method path = .ok () →
    ∀ (action : Action) (resource : Resource), resource.Named →
      iam.isAuthorized user.username action resource = true
  presigned : ∀ path, authorizationTarget .post path = (.all, .all) →
    authorizeMiddleware iam user .post path = .ok () →
    ∀ presignConfig req response, generatePresignUrl presignConfig req = .ok response →
      iam.isAuthorized user.username (S3Auth.requestAction response.url.method.operation)
        (.object response.url.bucket response.url.key) = true

/-- No statement denies anything: none of its action patterns matches an action
or none of its resource patterns reaches the names of buckets and objects. -/
def DeniesNothing (policies : List Policy) : Prop :=
  ∀ policy ∈ policies, ∀ stmt ∈ policy.statements, stmt.effect = .deny →
    (∀ action, stmt.matchesAction action = false) ∨
      ∀ pattern ∈ stmt.resources, reachesArn pattern = false

/-- The allowing statements cover everything: for each action and each name, one
of them matches the action and has a pattern for the name. -/
def AllowsEverything (policies : List Policy) : Prop :=
  ∀ (action : Action) (name : String), ∃ policy ∈ policies, ∃ stmt ∈ policy.statements,
    stmt.effect = .allow ∧ stmt.matchesAction action = true ∧
      ∃ pattern ∈ stmt.resources, matchesWildcard pattern (arnHead ++ name) = true

/-- A statement denies nothing exactly when it matches no action on any bucket or
object. -/
theorem deniesNothing_iff (policies : List Policy) :
    DeniesNothing policies ↔
      ∀ (action : Action) (resource : Resource), resource.Named →
        ¬PoliciesDecide policies .deny action resource := by
  constructor
  · intro hnothing action resource hnamed hdenied
    obtain ⟨policy, hpolicy, stmt, hstmt, hmatches, heffect⟩ := hdenied
    unfold PolicyStatement.matches at hmatches
    obtain ⟨haction, hresource⟩ := Bool.and_eq_true_iff.mp hmatches
    rcases hnothing policy hpolicy stmt hstmt heffect with hno | hno
    · rw [hno action] at haction
      cases haction
    · obtain ⟨pattern, hpattern, hname⟩ := (anyResourceMatches_iff _ _).mp hresource
      obtain ⟨rest, hrest⟩ := Resource.toString_named hnamed
      have hreaches : reachesArn pattern = true := by
        rw [reachesArn_iff]
        exact ⟨rest, by rw [← hname, hrest]; rfl⟩
      rw [hno pattern hpattern] at hreaches
      cases hreaches
  · intro hnone policy hpolicy stmt hstmt heffect
    by_contra hboth
    rw [not_or, not_forall] at hboth
    obtain ⟨⟨action, haction⟩, hresources⟩ := hboth
    apply hresources
    intro pattern hpattern
    by_contra hreaches
    obtain ⟨bucket, hbucket⟩ := (reachesArn_iff pattern).mp (eq_true_of_ne_false hreaches)
    refine hnone action (.ofBucket bucket) (by simp [Resource.Named, Resource.ofBucket])
      ⟨policy, hpolicy, stmt, hstmt, ?_, heffect⟩
    unfold PolicyStatement.matches
    rw [Bool.and_eq_true]
    exact ⟨eq_true_of_ne_false haction,
      (anyResourceMatches_iff _ _).mpr ⟨pattern, hpattern, hbucket⟩⟩

/-- The allowing statements cover everything exactly when every action on every
bucket and object is matched by one of them. -/
theorem allowsEverything_iff (policies : List Policy) :
    AllowsEverything policies ↔
      ∀ (action : Action) (resource : Resource), resource.Named →
        PoliciesDecide policies .allow action resource := by
  constructor
  · intro hall action resource hnamed
    obtain ⟨rest, hrest⟩ := Resource.toString_named hnamed
    obtain ⟨policy, hpolicy, stmt, hstmt, heffect, haction, pattern, hpattern, hname⟩ :=
      hall action rest
    refine ⟨policy, hpolicy, stmt, hstmt, ?_, heffect⟩
    unfold PolicyStatement.matches
    rw [Bool.and_eq_true]
    refine ⟨haction, (anyResourceMatches_iff _ _).mpr ⟨pattern, hpattern, ?_⟩⟩
    rw [hrest]
    exact hname
  · intro hall action name
    obtain ⟨policy, hpolicy, stmt, hstmt, hmatches, heffect⟩ := hall action (.ofBucket name)
      (by simp [Resource.Named, Resource.ofBucket])
    unfold PolicyStatement.matches at hmatches
    obtain ⟨haction, hresource⟩ := Bool.and_eq_true_iff.mp hmatches
    obtain ⟨pattern, hpattern, hname⟩ := (anyResourceMatches_iff _ _).mp hresource
    exact ⟨policy, hpolicy, stmt, hstmt, heffect, haction, pattern, hpattern, hname⟩

/-- **When the control plane stays within the policies.**  For a user who is not
root: exactly when the policies do not allow the texts `s3:*` and
`arn:aws:s3:::*`, or they deny nothing and allow everything. -/
theorem withinPolicies_iff {iam : IamStore} {user : AuthenticatedUser}
    (hflag : user.isRoot = false) (hname : iam.isRootName user.username = false) :
    WithinPolicies iam user ↔
      ¬(PoliciesDecide (iam.allPolicies user.username) .allow .all .all ∧
          ¬PoliciesDecide (iam.allPolicies user.username) .deny .all .all) ∨
        DeniesNothing (iam.allPolicies user.username) ∧
          AllowsEverything (iam.allPolicies user.username) := by
  have hauth := fun action resource =>
    isAuthorized_iff hname action resource
  have hadmits : ∀ method path, authorizationTarget method path = (.all, .all) →
      (authorizeMiddleware iam user method path = .ok () ↔
        PoliciesDecide (iam.allPolicies user.username) .allow .all .all ∧
          ¬PoliciesDecide (iam.allPolicies user.username) .deny .all .all) := by
    intro method path htarget
    rw [authorizeMiddleware_ok_iff hflag, htarget, hauth]
  rw [deniesNothing_iff, allowsEverything_iff]
  constructor
  · intro hwithin
    by_cases hbroad : PoliciesDecide (iam.allPolicies user.username) .allow .all .all ∧
        ¬PoliciesDecide (iam.allPolicies user.username) .deny .all .all
    · have hall := hwithin.authority .post "/api/v1/users" (by decide)
        ((hadmits .post "/api/v1/users" (by decide)).mpr hbroad)
      right
      constructor
      · intro action resource hnamed
        exact ((hauth action resource).mp (hall action resource hnamed)).2
      · intro action resource hnamed
        exact ((hauth action resource).mp (hall action resource hnamed)).1
    · exact Or.inl hbroad
  · intro hcond
    have hall : ∀ method path, authorizationTarget method path = (.all, .all) →
        authorizeMiddleware iam user method path = .ok () →
        ∀ (action : Action) (resource : Resource), resource.Named →
          iam.isAuthorized user.username action resource = true := by
      intro method path htarget hadmitted action resource hnamed
      obtain ⟨hdeny, hallow⟩ := hcond.resolve_left
        (not_not.mpr ((hadmits method path htarget).mp hadmitted))
      exact (hauth action resource).mpr
        ⟨hallow action resource hnamed, hdeny action resource hnamed⟩
    refine ⟨hall, ?_⟩
    intro path htarget hadmitted presignConfig req response _
    exact hall .post path htarget hadmitted _ _ (by simp [Resource.Named, Resource.object])

/-! ## An exception for the logs -/

/-- `alice` may do everything but delete objects of bucket `logs`. -/
def aliceExcept : IamStore where
  rootAccessKey := "ROOTKEY"
  rootSecretKey := "root-secret"
  db :=
    { users := [User.create "alice" 0]
      userPolicies := [{ username := "alice", policyName := "except",
                         policyDocument := some
                           { name := "except"
                             statements := [
                               { effect := .allow, actions := ["*"], resources := ["*"] },
                               { effect := .deny, actions := ["s3:DeleteObject"]
                                 resources := ["arn:aws:s3:::logs/*"] }] } }] }

/-- The same without the exception. -/
def aliceAdmin : IamStore :=
  { aliceExcept with
    db := { users := [User.create "alice" 0]
            userPolicies := [{ username := "alice", policyName := "AdministratorAccess",
                               policyDocument := some adminPolicy }] } }

/-- `alice`'s session. -/
def aliceSession : AuthenticatedUser where
  username := "alice"
  accessKeyId := "AKIAALICE"
  isRoot := false

/-- With the administrator's policy the control plane gives `alice` nothing new. -/
theorem withinPolicies_admin : WithinPolicies aliceAdmin aliceSession := by
  have hpolicies : aliceAdmin.allPolicies aliceSession.username = [adminPolicy] := by decide
  refine (withinPolicies_iff rfl (by decide)).mpr (Or.inr ?_)
  rw [hpolicies]
  constructor
  · intro policy hpolicy stmt hstmt heffect
    obtain rfl := List.mem_singleton.mp hpolicy
    obtain rfl := List.mem_singleton.mp hstmt
    cases heffect
  · intro action name
    refine ⟨adminPolicy, List.mem_singleton_self _, _, List.mem_singleton_self _, rfl, ?_, "*",
      List.mem_singleton_self _, if_pos rfl⟩
    rfl

/-- `alice` gets a URL that deletes a log. -/
theorem presign_deletes_log :
    ¬∀ (iam : IamStore) (user : AuthenticatedUser), user.isRoot = false →
      iam.isRootName user.username = false → WithinPolicies iam user := by
  intro hall
  have hwithin := hall aliceExcept aliceSession rfl (by decide)
  have hdelete := hwithin.presigned "/api/v1/presign" (by decide) (by decide)
    (some ⟨"ROOTKEY", "root-secret", "http://localhost:9000", "us-east-1"⟩)
    { bucket := "logs", key := "today", method := "DELETE" } _ rfl
  exact absurd hdelete (by decide)

end Strix

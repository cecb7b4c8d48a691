import Strix.IamStore

/-!
# Sessions of the admin API

A session token is a signed record of claims.  `authMiddleware` reads the token
of a request into an `AuthenticatedUser`; `authorizeMiddleware` lets the flagged
root user through and asks the IAM policies about everybody else, for the
action and the resource that the route stands for.

`admits_bearer_iff` says which requests both let through.
-/

namespace Strix

/-- JWT claims for session tokens, with times in seconds. -/
structure Claims where
  sub : String
  accessKeyId : String
  isRoot : Bool
  iat : Int
  exp : Int
  deriving DecidableEq, Repr

/-- `DateTime::timestamp`. -/
def DateTime.timestamp (t : DateTime) : Int := t / 1000000000

/-- Signing and verification of session tokens under the server's secret.  A
token that verifies yields the claims it was made of, and it verifies as long
as it has not expired. -/
structure SessionTokens where
  encode : Claims → Except String String
  decode : Int → String → Except String Claims
  decode_encode : ∀ {now claims token read}, encode claims = .ok token →
    decode now token = .ok read → read = claims
  decode_fresh : ∀ {now claims token}, encode claims = .ok token → now ≤ claims.exp →
    decode now token = .ok claims

/-- Session token configuration; `expiry` is in seconds. -/
structure SessionConfig where
  tokens : SessionTokens
  expiry : Nat

namespace SessionConfig

/-- The claims of a token that is made now. -/
def freshClaims (config : SessionConfig) (now : DateTime) (username accessKeyId : String)
    (isRoot : Bool) : Claims where
  sub := username
  accessKeyId := accessKeyId
  isRoot := isRoot
  iat := DateTime.timestamp now
  exp := DateTime.timestamp (now + config.expiry * 1000000000)

/-- Generate a session token for a user. -/
def createToken (config : SessionConfig) (now : DateTime) (username accessKeyId : String)
    (isRoot : Bool) : Except String String :=
  config.tokens.encode (config.freshClaims now username accessKeyId isRoot)

/-- Verify and decode a session token. -/
def verifyToken (config : SessionConfig) (now : DateTime) (token : String) :
    Except String Claims :=
  config.tokens.decode (DateTime.timestamp now) token

/-- A token reads back as the claims it was made of. -/
theorem verifyToken_createToken {config : SessionConfig} {minted now : DateTime}
    {username accessKeyId token : String} {isRoot : Bool} {claims : Claims}
    (hmint : config.createToken minted username accessKeyId isRoot = .ok token)
    (hread : config.verifyToken now token = .ok claims) :
    claims = config.freshClaims minted username accessKeyId isRoot :=
  config.tokens.decode_encode hmint hread

/-- A token verifies at the moment it is made. -/
theorem verifyToken_fresh {config : SessionConfig} {minted : DateTime}
    {username accessKeyId token : String} {isRoot : Bool}
    (hmint : config.createToken minted username accessKeyId isRoot = .ok token) :
    config.verifyToken minted token =
      .ok (config.freshClaims minted username accessKeyId isRoot) := by
  refine config.tokens.decode_fresh hmint ?_
  have hspan : (0 : Int) ≤ config.expiry * 1000000000 :=
    Int.mul_nonneg (Int.natCast_nonneg _) (by decide)
  exact Int.ediv_le_ediv (by decide) (Int.le_add_of_nonneg_right hspan)

end SessionConfig

/-- Authenticated user info extracted from a token. -/
structure AuthenticatedUser where
  username : String
  accessKeyId : String
  isRoot : Bool
  deriving DecidableEq, Repr

/-- A refusal of the admin API: HTTP status and message. -/
structure AdminError where
  status : Nat
  message : String
  deriving DecidableEq, Repr

/-- Authentication middleware for protected routes, given the request's
`Authorization` header. -/
def authMiddleware (config : SessionConfig) (now : DateTime) (authorization : Option String) :
    Except AdminError AuthenticatedUser :=
  match authorization with
  | none => .error ⟨401, "Missing or invalid authorization header"⟩
  | some header =>
    match stripHead header "Bearer " with
    | none => .error ⟨401, "Missing or invalid authorization header"⟩
    | some token =>
      match config.verifyToken now token with
      | .ok claims =>
        .ok { username := claims.sub
              accessKeyId := claims.accessKeyId
              isRoot := claims.isRoot }
      | .error _ => .error ⟨401, "Invalid or expired token"⟩

/-- `http::Method`. -/
inductive Method
  | get
  | head
  | post
  | put
  | delete
  | other (name : String)
  deriving DecidableEq, Repr

/-- The non-empty segments of a path. -/
def pathSegments (path : String) : List String :=
  ((path.toList.splitOn '/').map String.ofList).filter fun s => !s.isEmpty

/-- The action and the resource that an admin route stands for. -/
def authorizationTarget (method : Method) (path : String) : Action × Resource :=
  match pathSegments ((stripHead path "/api/v1").getD path) with
  | [] => (.listAllMyBuckets, .all)
  | "usage" :: _ => (.listAllMyBuckets, .all)
  | "tenants" :: _ =>
    match method with
    | .get => (.listAllMyBuckets, .all)
    | _ => (.all, .all)
  | ["buckets"] =>
    match method with
    | .get | .head => (.listAllMyBuckets, .all)
    | .post => (.createBucket, .all)
    | _ => (.all, .all)
  | ["buckets", bucket] =>
    match method with
    | .get | .head => (.headBucket, .ofBucket bucket)
    | .delete => (.deleteBucket, .ofBucket bucket)
    | _ => (.all, .ofBucket bucket)
  | "buckets" :: bucket :: "versioning" :: _ =>
    match method with
    | .get => (.getBucketVersioning, .ofBucket bucket)
    | .put => (.putBucketVersioning, .ofBucket bucket)
    | _ => (.all, .ofBucket bucket)
  | ["buckets", bucket, "objects"] =>
    match method with
    | .get => (.listBucket, .ofBucket bucket)
    | .delete => (.deleteObject, .ofBucket bucket)
    | _ => (.all, .ofBucket bucket)
  | "buckets" :: bucket :: "objects" :: keyParts =>
    let key := "/".intercalate keyParts
    match method with
    | .delete => (.deleteObject, .object bucket key)
    | .get => (.getObject, .object bucket key)
    | .put | .post => (.putObject, .object bucket key)
    | _ => (.all, .object bucket key)
  | "buckets" :: bucket :: _ => (.all, .ofBucket bucket)
  | _ => (.all, .all)

/-- Authorization middleware for protected admin routes. -/
def authorizeMiddleware (iam : IamStore) (user : AuthenticatedUser) (method : Method)
    (path : String) : Except AdminError Unit :=
  if user.isRoot then .ok ()
  else
    let (action, resource) := authorizationTarget method path
    if iam.isAuthorized user.username action resource then .ok ()
    else .error ⟨403, "Insufficient permissions for admin operation"⟩

/-- Both middlewares, one after the other. -/
def admits (config : SessionConfig) (iam : IamStore) (now : DateTime)
    (authorization : Option String) (method : Method) (path : String) :
    Except AdminError Unit := do
  let user ← authMiddleware config now authorization
  authorizeMiddleware iam user method path

example : authorizationTarget .delete "/api/v1/buckets/example-bucket/objects/path/to/object.txt" =
    (.deleteObject, .object "example-bucket" "path/to/object.txt") := by decide

/-- A user without the root flag is admitted to a route if the policies allow
its target. -/
theorem authorizeMiddleware_ok_iff {iam : IamStore} {user : AuthenticatedUser}
    (hflag : user.isRoot = false) (method : Method) (path : String) :
    authorizeMiddleware iam user method path = .ok () ↔
      iam.isAuthorized user.username (authorizationTarget method path).1
        (authorizationTarget method path).2 = true := by
  unfold authorizeMiddleware
  rw [if_neg (by simp [hflag])]
  dsimp only
  by_cases hauth : iam.isAuthorized user.username (authorizationTarget method path).1
      (authorizationTarget method path).2 = true
  · simp [hauth]
  · simp [hauth]

/-- Who is admitted: the bearer of a token that verifies, if it carries the root
flag or its user is authorized for the route's target. -/
theorem admits_bearer_iff (config : SessionConfig) (iam : IamStore) (now : DateTime)
    (token : String) (method : Method) (path : String) :
    admits config iam now (some ("Bearer " ++ token)) method path = .ok () ↔
      ∃ claims, config.verifyToken now token = .ok claims ∧
        (claims.isRoot = true ∨
          iam.isAuthorized claims.sub (authorizationTarget method path).1
            (authorizationTarget method path).2 = true) := by
  simp only [admits, authMiddleware, stripHead_append]
  cases hread : config.verifyToken now token with
  | error e => simp [bind, Except.bind]
  | ok claims =>
      simp only [bind, Except.bind, authorizeMiddleware, Except.ok.injEq,
        exists_eq_left']
      cases hroot : claims.isRoot with
      | true => simp
      | false =>
          cases hauth : iam.isAuthorized claims.sub (authorizationTarget method path).1
              (authorizationTarget method path).2 <;> simp

end Strix

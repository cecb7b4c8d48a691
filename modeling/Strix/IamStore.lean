import Mathlib.Data.List.Sort
import Strix.StoreData
import Strix.Policies

/-!
# The IAM store

Users, access keys, groups, attached policies, bucket policies and temporary
credentials as tables, and the queries that authentication and authorization
make of them.  A policy document is held as what its text parses to, `none` if
it does not parse.

`IamStore.isAuthorized` gathers the policies of the user and of the user's
groups; `isAuthorized_iff` says without a loop when it answers yes.
-/

namespace Strix

/-- The errors of `strix_iam::IamError` that the modelled queries return.  The
text of a database error is the library's and is left out. -/
inductive IamError
  | userExists (username : String)
  | userNotFound (username : String)
  | accessKeyNotFound (accessKeyId : String)
  | policyNotFound (name : String)
  | groupExists (name : String)
  | groupNotFound (name : String)
  | cannotDeleteRoot
  | cannotModifyRootKeys
  | maxAccessKeysExceeded
  | database
  | passwordHash (message : String)
  | invalidCredentials
  | encryption (message : String)
  | oidc (message : String)
  deriving DecidableEq, Repr

/-- The status of a user account, and of an access key. -/
inductive ActiveStatus
  | active
  | inactive
  deriving DecidableEq, Repr

/-- A user in the IAM system: a row of `iam_users`. -/
structure User where
  username : String
  arn : String
  createdAt : DateTime
  status : ActiveStatus := .active
  isRoot : Bool := false
  passwordHash : Option String := none
  deriving DecidableEq, Repr

namespace User

/-- `User::new`. -/
def create (username : String) (now : DateTime) : User where
  username := username
  arn := "arn:strix:iam::user/" ++ username
  createdAt := now

/-- `User::root_with_username`. -/
def rootWithUsername (username : String) (now : DateTime) : User where
  username := username
  arn := "arn:strix:iam::root"
  createdAt := now
  isRoot := true

/-- `User::root`. -/
def root (now : DateTime) : User :=
  rootWithUsername "root" now

end User

/-- A row of `iam_access_keys`. -/
structure AccessKeyRow where
  accessKeyId : String
  secretAccessKeyEncrypted : String
  username : String
  createdAt : DateTime
  status : ActiveStatus := .active
  lastUsed : Option DateTime := none
  deriving DecidableEq, Repr

/-- An access key for API authentication. -/
structure AccessKey where
  accessKeyId : String
  secretAccessKey : Option String
  username : String
  createdAt : DateTime
  status : ActiveStatus
  lastUsed : Option DateTime
  deriving DecidableEq, Repr

/-- A row of `iam_user_policies`. -/
structure UserPolicyRow where
  username : String
  policyName : String
  policyDocument : Option Policy
  deriving DecidableEq, Repr

/-- A row of `iam_group_policies`. -/
structure GroupPolicyRow where
  groupName : String
  policyName : String
  policyDocument : Option Policy
  deriving DecidableEq, Repr

/-- A row of `iam_groups`. -/
structure GroupRow where
  name : String
  arn : String
  createdAt : DateTime
  deriving DecidableEq, Repr

/-- A row of `iam_group_members`. -/
structure GroupMemberRow where
  groupName : String
  username : String
  deriving DecidableEq, Repr

/-- A group in the IAM system. -/
structure Group where
  name : String
  arn : String
  createdAt : DateTime
  members : List String
  policies : List String
  deriving DecidableEq, Repr

/-- A row of `bucket_policies`. -/
structure BucketPolicyRow where
  bucket : String
  policyDocument : Option BucketPolicy

/-- A row of `iam_policies`: a standalone managed policy. -/
structure ManagedPolicyRow where
  name : String
  policyDocument : Option Policy
  deriving DecidableEq, Repr

/-- A row of `iam_temporary_credentials`.  `expiration` is text. -/
structure TemporaryCredentialRow where
  accessKeyId : String
  secretAccessKeyEncrypted : String
  sessionTokenHash : String
  assumedIdentity : String
  expiration : String
  deriving DecidableEq, Repr

/-- Temporary security credentials. -/
structure TemporaryCredential where
  accessKeyId : String
  secretAccessKey : Option String
  sessionToken : String
  expiration : DateTime
  assumedIdentity : String
  deriving DecidableEq, Repr

/-- A row of `oidc_providers`, with the columns that a login reads.  The scopes
are the words of their column. -/
structure OidcProviderRow where
  id : String
  enabled : Bool := true
  issuerUrl : String
  clientId : String
  clientSecretEnc : String
  redirectUri : String
  scopes : List String := ["openid", "email", "profile"]
  usernameClaim : String
  autoCreateUsers : Bool := true
  defaultPolicy : Option String := none
  deriving DecidableEq, Repr

/-- OIDC provider configuration. -/
structure OidcConfig where
  id : String
  enabled : Bool
  issuerUrl : String
  clientId : String
  clientSecret : String
  redirectUri : String
  scopes : List String
  usernameClaim : String
  autoCreateUsers : Bool
  defaultPolicy : Option String
  deriving DecidableEq, Repr

/-- The IAM database. -/
structure IamDb where
  users : List User := []
  accessKeys : List AccessKeyRow := []
  userPolicies : List UserPolicyRow := []
  groups : List GroupRow := []
  groupMembers : List GroupMemberRow := []
  groupPolicies : List GroupPolicyRow := []
  bucketPolicies : List BucketPolicyRow := []
  policies : List ManagedPolicyRow := []
  temporaryCredentials : List TemporaryCredentialRow := []
  oidcProviders : List OidcProviderRow := []

/-- The store: its database and the configured root credentials. -/
structure IamStore where
  db : IamDb
  rootAccessKey : String
  rootSecretKey : String

/-- What the IAM store takes from outside: hexadecimal SHA-256, the RFC 3339
text of an instant and its reading, and decryption of stored secrets. -/
structure IamPlatform where
  sha256Hex : String → String
  toRfc3339 : DateTime → String
  parseRfc3339 : String → Option DateTime
  decryptSecret : String → Except IamError String

/-- An IAM platform on which runs compute: stored secrets decrypt to themselves, and
no digest or time is looked at. -/
def plainIamPlatform : IamPlatform where
  sha256Hex text := text
  toRfc3339 _ := "2026-01-01T00:00:00+00:00"
  parseRfc3339 _ := none
  decryptSecret secret := .ok secret

namespace IamStore

/-- The two names under which the IAM store knows the root user. -/
def isRootName (iam : IamStore) (username : String) : Bool :=
  username == "root" || username == iam.rootAccessKey

/-! ## Users and credentials -/

def createUser (iam : IamStore) (now : DateTime) (username : String) :
    Except IamError User × IamStore :=
  if iam.isRootName username then (.error (.userExists username), iam)
  else if iam.db.users.any (·.username == username) then (.error (.userExists username), iam)
  else
    let user := User.create username now
    (.ok user, { iam with db := { iam.db with users := iam.db.users ++ [user] } })

def getUser (iam : IamStore) (now : DateTime) (username : String) : Except IamError User :=
  if iam.isRootName username then .ok (User.rootWithUsername iam.rootAccessKey now)
  else
    match iam.db.users.find? (·.username == username) with
    | some user => .ok user
    | none => .error (.userNotFound "unknown")

/-- The key and its user, if both are active. -/
def getCredentials (iam : IamStore) (platform : IamPlatform) (now : DateTime)
    (accessKeyId : String) : Except IamError (Option (AccessKey × User)) :=
  if accessKeyId = iam.rootAccessKey then
    .ok (some
      ({ accessKeyId := iam.rootAccessKey
         secretAccessKey := some iam.rootSecretKey
         username := "root"
         createdAt := now
         status := .active
         lastUsed := none },
        User.root now))
  else
    let joined := iam.db.accessKeys.flatMap fun k =>
      (iam.db.users.filter fun u => k.username == u.username).map fun u => (k, u)
    let found := joined.find? fun (k, u) =>
      k.accessKeyId == accessKeyId && k.status == .active && u.status == .active
    match found with
    | none => .ok none
    | some (k, u) => do
      let secret ← platform.decryptSecret k.secretAccessKeyEncrypted
      .ok (some
        ({ accessKeyId := k.accessKeyId
           secretAccessKey := some secret
           username := k.username
           createdAt := k.createdAt
           status := k.status
           lastUsed := k.lastUsed }, u))

/-- The unexpired temporary credentials of an access key, and their user.
Expirations are compared as texts. -/
def getTempCredentials (iam : IamStore) (platform : IamPlatform) (now : DateTime)
    (accessKeyId : String) : Except IamError (Option (TemporaryCredential × User)) :=
  let joined := iam.db.temporaryCredentials.flatMap fun tc =>
    (iam.db.users.filter fun u => tc.assumedIdentity == u.username).map fun u => (tc, u)
  let found := joined.find? fun (tc, _) =>
    tc.accessKeyId == accessKeyId && decide (platform.toRfc3339 now < tc.expiration)
  match found with
  | none => .ok none
  | some (tc, u) =>
    match platform.decryptSecret tc.secretAccessKeyEncrypted with
    | .error _ => .error .database
    | .ok secret =>
      .ok (some
        ({ accessKeyId := tc.accessKeyId
           secretAccessKey := some secret
           sessionToken := ""
           expiration := (platform.parseRfc3339 tc.expiration).getD now
           assumedIdentity := tc.assumedIdentity }, u))

/-- Is this the token of unexpired temporary credentials? -/
def validateSessionToken (iam : IamStore) (platform : IamPlatform) (now : DateTime)
    (accessKeyId sessionToken : String) : Bool :=
  let tokenHash := platform.sha256Hex sessionToken
  iam.db.temporaryCredentials.any fun tc =>
    tc.accessKeyId == accessKeyId && tc.sessionTokenHash == tokenHash &&
      decide (platform.toRfc3339 now < tc.expiration)

/-! ## Policies -/

def getPolicy (iam : IamStore) (policyName : String) : Except IamError Policy :=
  match iam.db.policies.find? (·.name == policyName) with
  | some row =>
    match row.policyDocument with
    | some policy => .ok policy
    | none => .error .database
  | none => .error (.policyNotFound "unknown")

/-- `INSERT OR REPLACE INTO iam_user_policies`, for a user that exists. -/
def attachUserPolicy (iam : IamStore) (now : DateTime) (username : String) (policy : Policy) :
    Except IamError Unit × IamStore :=
  if iam.isRootName username then (.ok (), iam)
  else
    match iam.getUser now username with
    | .error e => (.error e, iam)
    | .ok _ =>
      let kept := iam.db.userPolicies.filter fun row =>
        !(row.username == username && row.policyName == policy.name)
      let row : UserPolicyRow :=
        { username := username, policyName := policy.name, policyDocument := some policy }
      (.ok (), { iam with db := { iam.db with userPolicies := kept ++ [row] } })

/-- The documents attached to a user name that parse. -/
def attachedPolicies (db : IamDb) (username : String) : List Policy :=
  (db.userPolicies.filter fun row => row.username == username).filterMap (·.policyDocument)

def listUserPolicies (iam : IamStore) (username : String) : List Policy :=
  if iam.isRootName username then [adminPolicy]
  else attachedPolicies iam.db username

def listGroupPolicies (iam : IamStore) (groupName : String) : List Policy :=
  (iam.db.groupPolicies.filter fun row => row.groupName == groupName).filterMap
    (·.policyDocument)

/-- The groups of a user, by name. -/
def listUserGroups (iam : IamStore) (username : String) : List Group :=
  let joined := iam.db.groups.flatMap fun g =>
    (iam.db.groupMembers.filter fun m =>
      g.name == m.groupName && m.username == username).map fun _ => g
  (joined.insertionSort fun g h => g.name ≤ h.name).map fun g =>
    { name := g.name
      arn := g.arn
      createdAt := g.createdAt
      members := (iam.db.groupMembers.filter fun m => m.groupName == g.name).map (·.username)
      policies := (iam.db.groupPolicies.filter fun p => p.groupName == g.name).map
        (·.policyName) }

/-- The policies of the user and then those of the user's groups. -/
def allPolicies (iam : IamStore) (username : String) : List Policy :=
  iam.listUserPolicies username ++
    (iam.listUserGroups username).flatMap fun group => iam.listGroupPolicies group.name

/-- The loop of `is_authorized` over the policies, with the outcome so far. -/
def authorizedBy (action : Action) (resource : Resource) : Bool → List Policy → Bool
  | allowed, [] => allowed
  | allowed, policy :: policies =>
    match policy.evaluate action resource with
    | some .deny => false
    | some .allow => authorizedBy action resource true policies
    | none => authorizedBy action resource allowed policies

/-- Do the policies of the user and the user's groups allow the action? -/
def isAuthorized (iam : IamStore) (username : String) (action : Action)
    (resource : Resource) : Bool :=
  if iam.isRootName username then true
  else authorizedBy action resource false (iam.allPolicies username)

def getBucketPolicy (iam : IamStore) (bucket : String) :
    Except IamError (Option BucketPolicy) :=
  match iam.db.bucketPolicies.find? (·.bucket == bucket) with
  | some row =>
    match row.policyDocument with
    | some policy => .ok (some policy)
    | none => .error .database
  | none => .ok none

def isAuthorizedByBucketPolicy (iam : IamStore) (bucket : String) (principal : Principal)
    (action : Action) (resource : Resource) : Except IamError (Option Effect) := do
  match ← iam.getBucketPolicy bucket with
  | some policy => .ok (policy.evaluate principal action resource)
  | none => .ok none

/-! ## Identity providers -/

/-- A provider by its id, with its secret decrypted. -/
def getOidcProvider (iam : IamStore) (platform : IamPlatform) (id : String) :
    Except IamError (Option OidcConfig) :=
  match iam.db.oidcProviders.find? (·.id == id) with
  | none => .ok none
  | some raw => do
    let clientSecret ←
      if raw.clientSecretEnc.isEmpty then .ok ""
      else platform.decryptSecret raw.clientSecretEnc
    .ok (some
      { id := raw.id
        enabled := raw.enabled
        issuerUrl := raw.issuerUrl
        clientId := raw.clientId
        clientSecret := clientSecret
        redirectUri := raw.redirectUri
        scopes := raw.scopes
        usernameClaim := raw.usernameClaim
        autoCreateUsers := raw.autoCreateUsers
        defaultPolicy := raw.defaultPolicy })

end IamStore

/-! ## What one document and a list of documents decide -/

/-- Some statement of the policies that matches the request has this effect. -/
def PoliciesDecide (policies : List Policy) (effect : Effect) (action : Action)
    (resource : Resource) : Prop :=
  ∃ policy ∈ policies, ∃ stmt ∈ policy.statements,
    stmt.matches action resource = true ∧ stmt.effect = effect

instance (policies : List Policy) (effect : Effect) (action : Action) (resource : Resource) :
    Decidable (PoliciesDecide policies effect action resource) :=
  inferInstanceAs (Decidable (∃ policy ∈ policies, ∃ stmt ∈ policy.statements,
    stmt.matches action resource = true ∧ stmt.effect = effect))

/-- Some statement of the bucket policy that matches the request has this effect. -/
def BucketPolicy.Decides (policy : BucketPolicy) (effect : Effect) (principal : Principal)
    (action : Action) (resource : Resource) (context : ConditionContext) : Prop :=
  ∃ stmt ∈ policy.statements,
    stmt.matchesWithContext principal action resource context = true ∧ stmt.effect = effect

instance (policy : BucketPolicy) (effect : Effect) (principal : Principal) (action : Action)
    (resource : Resource) (context : ConditionContext) :
    Decidable (policy.Decides effect principal action resource context) :=
  inferInstanceAs (Decidable (∃ stmt ∈ policy.statements,
    stmt.matchesWithContext principal action resource context = true ∧ stmt.effect = effect))

/-- The groups of a user are those that it has a membership row in. -/
theorem exists_mem_listUserGroups {iam : IamStore} {username name : String} :
    (∃ group ∈ iam.listUserGroups username, group.name = name) ↔
      ∃ g ∈ iam.db.groups, ∃ m ∈ iam.db.groupMembers,
        g.name = m.groupName ∧ m.username = username ∧ g.name = name := by
  simp only [IamStore.listUserGroups, List.mem_map, List.mem_insertionSort, List.mem_flatMap,
    List.mem_filter, Bool.and_eq_true, beq_iff_eq]
  constructor
  · intro h
    obtain ⟨group, ⟨g, ⟨_, hg, m, ⟨hm, hgroup, huser⟩, rfl⟩, rfl⟩, hname⟩ := h
    exact ⟨_, hg, m, hm, hgroup, huser, hname⟩
  · intro h
    obtain ⟨g, hg, m, hm, hgroup, huser, hname⟩ := h
    exact ⟨_, ⟨g, ⟨g, hg, m, ⟨hm, hgroup, huser⟩, rfl⟩, rfl⟩, hname⟩

/-- A policy denies exactly when a matching statement denies. -/
theorem Policy.evaluate_deny_iff (policy : Policy) (action : Action) (resource : Resource) :
    policy.evaluate action resource = some .deny ↔
      ∃ stmt ∈ policy.statements, stmt.matches action resource = true ∧ stmt.effect = .deny := by
  rw [Policy.evaluate, DenyOverrides.run_eq_deny_iff]
  simp [DenyOverrides.Decides]

/-- A policy allows exactly when a matching statement allows and none denies. -/
theorem Policy.evaluate_allow_iff (policy : Policy) (action : Action) (resource : Resource) :
    policy.evaluate action resource = some .allow ↔
      (∃ stmt ∈ policy.statements,
        stmt.matches action resource = true ∧ stmt.effect = .allow) ∧
      ¬∃ stmt ∈ policy.statements,
        stmt.matches action resource = true ∧ stmt.effect = .deny := by
  rw [Policy.evaluate, DenyOverrides.run_eq_allow_iff]
  simp [DenyOverrides.Decides]

/-- A bucket policy allows exactly when a matching statement allows and none
denies. -/
theorem BucketPolicy.evaluateWithContext_allow_iff (policy : BucketPolicy)
    (principal : Principal) (action : Action) (resource : Resource)
    (context : ConditionContext) :
    policy.evaluateWithContext principal action resource context = some .allow ↔
      policy.Decides .allow principal action resource context ∧
        ¬policy.Decides .deny principal action resource context := by
  rw [BucketPolicy.evaluateWithContext, DenyOverrides.run_eq_allow_iff]
  simp [DenyOverrides.Decides, BucketPolicy.Decides]

/-- The loop over the policies is the deny-overrides loop. -/
theorem authorizedBy_eq_run (action : Action) (resource : Resource) (allowed : Bool)
    (policies : List Policy) :
    IamStore.authorizedBy action resource allowed policies = true ↔
      DenyOverrides.run (fun policy => policy.evaluate action resource)
        (if allowed then some .allow else none) policies = some .allow := by
  induction policies generalizing allowed with
  | nil => cases allowed <;> simp [IamStore.authorizedBy, DenyOverrides.run]
  | cons policy policies ih =>
      rw [IamStore.authorizedBy, DenyOverrides.run]
      cases hpolicy : policy.evaluate action resource with
      | none => exact ih allowed
      | some effect =>
          cases effect with
          | allow => simpa using ih true
          | deny => simp

/-- **The policies allow a request** exactly when a matching statement of one of
them allows it and no matching statement of any of them denies it. -/
theorem authorizedBy_iff (action : Action) (resource : Resource) (policies : List Policy) :
    IamStore.authorizedBy action resource false policies = true ↔
      PoliciesDecide policies .allow action resource ∧
        ¬PoliciesDecide policies .deny action resource := by
  rw [authorizedBy_eq_run]
  simp only [Bool.false_eq_true, ↓reduceIte]
  rw [DenyOverrides.run_eq_allow_iff]
  simp only [DenyOverrides.Decides, PoliciesDecide, Policy.evaluate_deny_iff,
    Policy.evaluate_allow_iff]
  constructor
  · rintro ⟨⟨policy, hpolicy, hallow, _⟩, hdeny⟩
    exact ⟨⟨policy, hpolicy, hallow⟩, hdeny⟩
  · rintro ⟨⟨policy, hpolicy, hallow⟩, hdeny⟩
    exact ⟨⟨policy, hpolicy, hallow, fun h => hdeny ⟨policy, hpolicy, h⟩⟩, hdeny⟩

/-- For a name that is not root's, `is_authorized` answers yes exactly when a
matching statement of an applicable policy allows and none denies. -/
theorem isAuthorized_iff {iam : IamStore} {username : String}
    (hname : iam.isRootName username = false) (action : Action) (resource : Resource) :
    iam.isAuthorized username action resource = true ↔
      PoliciesDecide (iam.allPolicies username) .allow action resource ∧
        ¬PoliciesDecide (iam.allPolicies username) .deny action resource := by
  rw [IamStore.isAuthorized, hname]
  exact authorizedBy_iff action resource _

/-- Root's names are authorized for everything. -/
theorem isAuthorized_root {iam : IamStore} {username : String}
    (hname : iam.isRootName username = true) (action : Action) (resource : Resource) :
    iam.isAuthorized username action resource = true := by
  rw [IamStore.isAuthorized, hname]
  rfl

end Strix

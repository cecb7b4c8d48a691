import Strix.OidcLogin

/-!
# What single sign-on grants

A session that single sign-on opened should be admitted to no more than the
policies attached to its user and the user's groups allow.  The token of
`authCallback` carries no root flag, but its user name is whatever the claim
says, and the IAM store takes two names for root's.

`ssoSession_grants_iff` shows that a session keeps to the attached policies
exactly when its name is none of the two, or the policies attached to that name
allow everything anyway.
-/

namespace Strix

/-- The policies attached to a user name and to the groups that list it. -/
def IamStore.attachedTo (iam : IamStore) (username : String) : List Policy :=
  IamStore.attachedPolicies iam.db username ++
    (iam.listUserGroups username).flatMap fun group => iam.listGroupPolicies group.name

/-- The attached policies allow the target of a route: a matching statement
allows it and none denies it. -/
def IamStore.AttachedAllow (iam : IamStore) (username : String) (method : Method)
    (path : String) : Prop :=
  PoliciesDecide (iam.attachedTo username) .allow (authorizationTarget method path).1
      (authorizationTarget method path).2 ∧
    ¬PoliciesDecide (iam.attachedTo username) .deny (authorizationTarget method path).1
      (authorizationTarget method path).2

/-- **A session keeps to the attached policies**: whatever it is admitted to, at
any time, they allow. -/
def GrantsOnlyAttached (session : SessionConfig) (iam : IamStore) (token username : String) :
    Prop :=
  ∀ now method path,
    admits session iam now (some ("Bearer " ++ token)) method path = .ok () →
    iam.AttachedAllow username method path

/-- For a name that is not root's, being authorized for a route's target is to
be allowed it by the attached policies. -/
theorem isAuthorized_iff_attached {iam : IamStore} {username : String}
    (hname : iam.isRootName username = false) (method : Method) (path : String) :
    iam.isAuthorized username (authorizationTarget method path).1
        (authorizationTarget method path).2 = true ↔
      iam.AttachedAllow username method path := by
  have hall : iam.allPolicies username = iam.attachedTo username := by
    rw [IamStore.allPolicies, IamStore.attachedTo, IamStore.listUserPolicies, hname]
    rfl
  rw [isAuthorized_iff hname, hall, IamStore.AttachedAllow]

/-- **What a single sign-on session grants.**  Whatever the provider, the claim
and the IAM state in which the token is used, the session keeps to the policies
attached to its user exactly when the user's name is not one of root's, or those
policies allow the target of every route. -/
theorem ssoSession_grants_iff {config : AdminConfig} {minted : DateTime}
    {query : CallbackQuery} {admin after : AdminState} {token username : String}
    (hlogin : admin.authCallback config minted query = (after, .session token username))
    (iam : IamStore) :
    GrantsOnlyAttached config.session iam token username ↔
      iam.isRootName username = false ∨
        ∀ method path, iam.AttachedAllow username method path := by
  obtain ⟨_, _, _, _, _, _, _, _, _, _, hmint⟩ := authCallback_session hlogin
  constructor
  · intro hgrants
    cases hname : iam.isRootName username with
    | false => exact .inl rfl
    | true =>
        refine .inr fun method path => hgrants minted method path ?_
        refine (admits_bearer_iff config.session iam minted token method path).mpr
          ⟨_, SessionConfig.verifyToken_fresh hmint, .inr ?_⟩
        exact isAuthorized_root hname _ _
  · rintro (hname | hall) now method path hadmitted
    · obtain ⟨claims, hread, hallowed⟩ :=
        (admits_bearer_iff config.session iam now token method path).mp hadmitted
      obtain rfl := SessionConfig.verifyToken_createToken hmint hread
      have hauthorized := hallowed.resolve_left (by simp [SessionConfig.freshClaims])
      exact (isAuthorized_iff_attached hname method path).mp hauthorized
    · exact hall method path

/-! ## The claim `root` -/

/-- The claims of the session below. -/
def rootClaims : Claims where
  sub := "root"
  accessKeyId := "oidc-auth"
  isRoot := false
  iat := 0
  exp := 3600

/-- Signing of the one token of the session below. -/
def rootTokens : SessionTokens where
  encode claims := if claims = rootClaims then .ok "eyJ" else .error "unsupported"
  decode now token :=
    if token = "eyJ" ∧ now ≤ rootClaims.exp then .ok rootClaims else .error "invalid"
  decode_encode {now claims token read} hmint hread := by
    split at hmint
    · split at hread
      · rename_i hclaims _
        rw [hclaims]
        exact (Except.ok.inj hread).symm
      · cases hread
    · cases hmint
  decode_fresh {now claims token} hmint hfresh := by
    split at hmint
    · rename_i hclaims
      obtain rfl := Except.ok.inj hmint
      rw [hclaims] at hfresh ⊢
      simp [hfresh]
    · cases hmint

/-- A provider whose ID tokens carry the user-chosen name `root`. -/
def rootLogin : AdminConfig where
  iamPlatform := plainIamPlatform
  oidcPlatform :=
    { getDiscovery := fun _ => .ok ⟨"https://idp", "https://idp/auth", "https://idp/token",
        "https://idp/jwks"⟩
      postToken := fun _ _ => .ok (some "id-token")
      getJwks := fun _ => .ok [{ kty := some "RSA", n := some "n", e := some "AQAB" }]
      decodeHeader := fun _ => .ok none
      rsaComponents := fun _ _ => .ok ()
      decodeIdToken := fun _ _ _ _ _ _ =>
        .ok { sub := "1", preferredUsername := some "root", nonce := some "nonce" }
      randomToken := fun n => toString n
      urlEncode := id }
  session := { tokens := rootTokens, expiry := 3600 }

/-- An IAM store without users, and one login under way. -/
def rootAdmin : AdminState where
  iam :=
    { rootAccessKey := "ROOTKEY"
      rootSecretKey := "root-secret"
      db := { oidcProviders := [{ id := "idp", issuerUrl := "https://idp", clientId := "strix",
                                  clientSecretEnc := "secret", redirectUri := "https://strix",
                                  usernameClaim := "preferred_username" }] } }
  flows := [("state", { nonce := "nonce", providerId := "idp", created := 0 })]

def rootQuery : CallbackQuery where
  code := some "code"
  state := some "state"

/-- The callback makes a session for the name `root`. -/
theorem rootLogin_session :
    rootAdmin.authCallback rootLogin 0 rootQuery =
      ({ rootAdmin with flows := [] }, .session "eyJ" "root") := by
  rfl

/-- The equivalence for the session of the name `root`. -/
theorem ssoSession_grants_root :
    GrantsOnlyAttached rootLogin.session rootAdmin.iam "eyJ" "root" ↔
      rootAdmin.iam.isRootName "root" = false ∨
        ∀ method path, rootAdmin.iam.AttachedAllow "root" method path :=
  ssoSession_grants_iff rootLogin_session rootAdmin.iam

/-- The session of the name `root` is admitted to the user administration, to
which no attached policy allows it. -/
theorem ssoRoot_admitted :
    ¬∀ (config : AdminConfig) (minted : DateTime) (query : CallbackQuery)
        (admin after : AdminState) (token username : String),
        admin.authCallback config minted query = (after, .session token username) →
        ∀ iam, GrantsOnlyAttached config.session iam token username := by
  intro hall
  have hgrants := hall rootLogin 0 rootQuery rootAdmin _ "eyJ" "root" rootLogin_session
    rootAdmin.iam
  have hadmitted : admits rootLogin.session rootAdmin.iam 0 (some ("Bearer " ++ "eyJ")) .post
      "/api/v1/users" = .ok () := by decide
  obtain ⟨⟨policy, hpolicy, _⟩, _⟩ := hgrants 0 .post "/api/v1/users" hadmitted
  exact (List.not_mem_nil hpolicy)

end Strix

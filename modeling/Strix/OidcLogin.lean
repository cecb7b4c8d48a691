import Strix.AdminAuth

/-!
# Logging in with an identity provider

The OAuth2 authorization-code flow of the admin console.  `loginOidc` opens a
flow and sends the browser to the provider; `authCallback` takes the browser
back, exchanges the code, verifies the ID token, finds or provisions the user
and makes a session token.  `authCallback_session` says what is behind every
session token it hands out.
-/

namespace Strix

/-- Claims from the OIDC ID token that a login reads. -/
structure OidcClaims where
  sub : String
  email : Option String := none
  name : Option String := none
  preferredUsername : Option String := none
  nonce : Option String := none
  deriving DecidableEq, Repr

/-- The username based on the configured claim. -/
def OidcClaims.getUsername (claims : OidcClaims) : String → Option String
  | "email" => claims.email
  | "preferred_username" => claims.preferredUsername.or claims.email
  | "sub" => some claims.sub
  | "name" => claims.name
  | _ => none

/-- OIDC provider metadata from the discovery document. -/
structure OidcDiscovery where
  issuer : String
  authorizationEndpoint : String
  tokenEndpoint : String
  jwksUri : String
  deriving DecidableEq, Repr

/-- A single JSON Web Key. -/
structure Jwk where
  kid : Option String := none
  kty : Option String := none
  alg : Option String := none
  n : Option String := none
  e : Option String := none
  deriving DecidableEq, Repr

/-- Signature algorithms of ID tokens. -/
inductive Algorithm
  | rs256
  | rs384
  | rs512
  deriving DecidableEq, Repr

/-- What a login takes from outside: HTTP exchanges with the provider, which
answer with a document or an error, the JWT library, the random tokens and the
percent-encoding of texts.  `decodeIdToken` checks the signature under the key
`n`, `e`, the audience, the issuer and the expiration. -/
structure OidcPlatform where
  getDiscovery : String → Except IamError OidcDiscovery
  postToken : String → List (String × String) → Except IamError (Option String)
  getJwks : String → Except IamError (List Jwk)
  decodeHeader : String → Except IamError (Option String)
  rsaComponents : String → String → Except IamError Unit
  decodeIdToken : DateTime → String → String × String → Algorithm → (audience : String) →
    (issuer : String) → Except IamError OidcClaims
  randomToken : Nat → String
  urlEncode : String → String

namespace OidcPlatform

variable (platform : OidcPlatform)

/-- Fetch the provider's discovery document. -/
def discover (issuer : String) : Except IamError OidcDiscovery :=
  let base := String.ofList (issuer.toList.reverse.dropWhile (· = '/')).reverse
  platform.getDiscovery (base ++ "/.well-known/openid-configuration")

/-- The URL the browser is redirected to. -/
def authorizationUrl (discovery : OidcDiscovery) (config : OidcConfig) (state nonce : String) :
    String :=
  discovery.authorizationEndpoint ++ "?client_id=" ++ platform.urlEncode config.clientId ++
    "&response_type=code&redirect_uri=" ++ platform.urlEncode config.redirectUri ++
    "&scope=" ++ platform.urlEncode (" ".intercalate config.scopes) ++
    "&state=" ++ platform.urlEncode state ++ "&nonce=" ++ platform.urlEncode nonce

/-- The key that signed the token: by `kid` when there is one, otherwise the
only RSA key. -/
def selectJwk (kid : Option String) (jwks : List Jwk) : Except IamError Jwk :=
  match kid with
  | some kid =>
    match jwks.find? fun k => k.kid == some kid with
    | some jwk => .ok jwk
    | none => .error (.oidc ("no JWKS key matches kid '" ++ kid ++ "'"))
  | none =>
    match jwks.filter fun k => k.kty == some "RSA" with
    | [] => .error (.oidc "JWKS contains no RSA keys")
    | [jwk] => .ok jwk
    | _ => .error (.oidc "id_token header missing kid and JWKS has multiple keys")

/-- `verify_id_token_with_jwks`. -/
def verifyIdTokenWithJwks (now : DateTime) (idToken clientId issuer : String)
    (jwks : List Jwk) : Except IamError OidcClaims := do
  let kid ← platform.decodeHeader idToken
  let jwk ← selectJwk kid jwks
  match jwk.kty with
  | some kty =>
    if kty ≠ "RSA" then throw (.oidc ("unsupported JWK key type '" ++ kty ++ "'"))
  | none => pure ()
  match jwk.n, jwk.e with
  | none, _ => throw (.oidc "JWK missing modulus 'n'")
  | some _, none => throw (.oidc "JWK missing exponent 'e'")
  | some n, some e =>
    platform.rsaComponents n e
    let alg :=
      match jwk.alg with
      | some "RS384" => Algorithm.rs384
      | some "RS512" => Algorithm.rs512
      | _ => Algorithm.rs256
    platform.decodeIdToken now idToken (n, e) alg clientId issuer

/-- Exchange an authorization code for tokens and verify the ID token.  The
result is the username and the claims. -/
def exchangeAndVerify (now : DateTime) (config : OidcConfig) (discovery : OidcDiscovery)
    (code expectedNonce : String) : Except IamError (String × OidcClaims) := do
  let params :=
    [("grant_type", "authorization_code"), ("code", code),
     ("redirect_uri", config.redirectUri), ("client_id", config.clientId),
     ("client_secret", config.clientSecret)]
  match ← platform.postToken discovery.tokenEndpoint params with
  | none => throw (.oidc "token response missing id_token")
  | some idToken =>
    let jwks ← platform.getJwks discovery.jwksUri
    let claims ←
      platform.verifyIdTokenWithJwks now idToken config.clientId discovery.issuer jwks
    match claims.nonce with
    | none => throw (.oidc "id_token missing nonce")
    | some n =>
      if n ≠ expectedNonce then throw (.oidc "nonce mismatch")
      match claims.getUsername config.usernameClaim with
      | none =>
        throw (.oidc ("claim '" ++ config.usernameClaim ++ "' not present in id_token"))
      | some username => return (username, claims)

end OidcPlatform

/-- In-flight authorization request state. -/
structure FlowState where
  nonce : String
  providerId : String
  created : DateTime
  deriving DecidableEq, Repr

/-- `FLOW_TTL`: ten minutes. -/
def flowTtl : DateTime := 600 * 1000000000

/-- The part of the admin server that logins use: the IAM store, the flows by
their `state` value and the number of random tokens drawn. -/
structure AdminState where
  iam : IamStore
  flows : List (String × FlowState) := []
  draws : Nat := 0

/-- What the server is configured with. -/
structure AdminConfig where
  iamPlatform : IamPlatform
  oidcPlatform : OidcPlatform
  session : SessionConfig

/-- Where the browser is sent: to the provider, back to the login page with an
error, or to the console with a session token for a user. -/
inductive Redirect
  | provider (url : String)
  | error (message : String)
  | session (token username : String)
  deriving DecidableEq, Repr

/-- Query parameters for the OAuth callback. -/
structure CallbackQuery where
  code : Option String := none
  state : Option String := none
  error : Option String := none

namespace AdminState

/-- A provider, if it exists and is enabled. -/
def enabledProvider (admin : AdminState) (config : AdminConfig) (id : String) :
    Option OidcConfig :=
  match admin.iam.getOidcProvider config.iamPlatform id with
  | .ok (some p) => if p.enabled then some p else none
  | _ => none

/-- Remove expired in-flight flows. -/
def sweepExpired (admin : AdminState) (now : DateTime) : AdminState :=
  { admin with flows := admin.flows.filter fun flow => decide (now - flow.2.created < flowTtl) }

/-- `GET /login/oidc/{provider_id}`: start the flow. -/
def loginOidc (config : AdminConfig) (now : DateTime) (providerId : String)
    (admin : AdminState) : AdminState × Redirect :=
  let admin := admin.sweepExpired now
  match admin.enabledProvider config providerId with
  | none => (admin, .error "Unknown or disabled SSO provider")
  | some provider =>
    match config.oidcPlatform.discover provider.issuerUrl with
    | .error _ => (admin, .error "SSO provider discovery failed")
    | .ok discovery =>
      let csrfState := config.oidcPlatform.randomToken admin.draws
      let nonce := config.oidcPlatform.randomToken (admin.draws + 1)
      let flow : FlowState := { nonce := nonce, providerId := providerId, created := now }
      ({ admin with
          flows := (csrfState, flow) :: admin.flows.filter fun f => f.1 != csrfState
          draws := admin.draws + 2 },
        .provider (config.oidcPlatform.authorizationUrl discovery provider csrfState nonce))

/-- The user behind a verified login: known, or created if the provider allows
it, then with the provider's default policy. -/
def provision (provider : OidcConfig) (now : DateTime) (username : String) (iam : IamStore) :
    Except String IamStore :=
  match iam.getUser now username with
  | .ok _ => .ok iam
  | .error _ =>
    if !provider.autoCreateUsers then .error "Your account is not provisioned for SSO"
    else
      match iam.createUser now username with
      | (.error _, _) => .error "Failed to provision SSO account"
      | (.ok _, iam) =>
        match provider.defaultPolicy with
        | none => .ok iam
        | some policyName =>
          match iam.getPolicy policyName with
          | .error _ => .ok iam
          | .ok policy => .ok (iam.attachUserPolicy now username policy).2

/-- `GET /auth/callback`: complete the login. -/
def authCallback (config : AdminConfig) (now : DateTime) (query : CallbackQuery)
    (admin : AdminState) : AdminState × Redirect :=
  if query.error.isSome then (admin, .error "SSO provider rejected the login")
  else
    match query.code, query.state with
    | some code, some csrfState =>
      match admin.flows.lookup csrfState with
      | none => (admin, .error "Invalid or expired SSO state")
      | some flow =>
        let admin := { admin with flows := admin.flows.filter fun f => f.1 != csrfState }
        if flowTtl ≤ now - flow.created then
          (admin, .error "SSO session expired, please retry")
        else
          match admin.enabledProvider config flow.providerId with
          | none => (admin, .error "SSO provider is no longer available")
          | some provider =>
            match config.oidcPlatform.discover provider.issuerUrl with
            | .error _ => (admin, .error "SSO provider discovery failed")
            | .ok discovery =>
              match config.oidcPlatform.exchangeAndVerify now provider discovery code
                  flow.nonce with
              | .error _ => (admin, .error "SSO token verification failed")
              | .ok (username, _) =>
                match provision provider now username admin.iam with
                | .error message => (admin, .error message)
                | .ok iam =>
                  let admin := { admin with iam := iam }
                  match config.session.createToken now username "oidc-auth" false with
                  | .error _ => (admin, .error "Failed to establish session")
                  | .ok token => (admin, .session token username)
    | _, _ => (admin, .error "Malformed SSO callback")

end AdminState

/-- **What is behind a session token of the callback**: a flow that was open, an
enabled provider, a verified ID token whose username claim is the user of the
token, and no root flag. -/
theorem authCallback_session {config : AdminConfig} {now : DateTime} {query : CallbackQuery}
    {admin after : AdminState} {token username : String}
    (hlogin : admin.authCallback config now query = (after, .session token username)) :
    ∃ csrfState flow provider discovery code claims,
      (admin.flows.lookup csrfState = some flow ∧ now - flow.created < flowTtl) ∧
      admin.enabledProvider config flow.providerId = some provider ∧
      config.oidcPlatform.discover provider.issuerUrl = .ok discovery ∧
      config.oidcPlatform.exchangeAndVerify now provider discovery code flow.nonce =
        .ok (username, claims) ∧
      config.session.createToken now username "oidc-auth" false = .ok token := by
  rw [AdminState.authCallback] at hlogin
  split at hlogin
  · simp at hlogin
  · split at hlogin
    · rename_i code csrfState hcode hstate
      split at hlogin
      · simp at hlogin
      · rename_i flow hflow
        dsimp only at hlogin
        split at hlogin
        · simp at hlogin
        · rename_i hfresh
          split at hlogin
          · simp at hlogin
          · rename_i provider hprovider
            split at hlogin
            · simp at hlogin
            · rename_i discovery hdiscovery
              split at hlogin
              · simp at hlogin
              · rename_i name claims hexchange
                split at hlogin
                · simp at hlogin
                · split at hlogin
                  · simp at hlogin
                  · rename_i minted hminted
                    obtain ⟨rfl, rfl⟩ : minted = token ∧ name = username := by
                      simpa using congrArg Prod.snd hlogin
                    exact ⟨csrfState, flow, provider, discovery, code, claims,
                      ⟨hflow, by exact Int.not_le.mp hfresh⟩, hprovider, hdiscovery, hexchange,
                      hminted⟩
    · simp at hlogin

end Strix

import Strix.OidcLogin
import Strix.ThreadSteps

/-!
# Logins side by side

`login_oidc` and `auth_callback` are asynchronous: between two awaits other
requests run, an administrator changes the providers, and the provider's
endpoints may change their answers.  Here each is a program of atomic steps on a
world that all requests share.  The programs fail with the message that the
browser is sent back with.

* `loginOidcSteps_run` and `authCallbackSteps_run`: alone, they are `loginOidc`
  and `authCallback`.
-/

namespace Strix

open AtomicProgram Prog MachineRuns

/-- What the endpoints of the providers answer. -/
structure Endpoints where
  getDiscovery : String → Except IamError OidcDiscovery
  postToken : String → List (String × String) → Except IamError (Option String)
  getJwks : String → Except IamError (List Jwk)

/-- The platform of a moment in which the endpoints give these answers. -/
def OidcPlatform.answering (platform : OidcPlatform) (endpoints : Endpoints) : OidcPlatform :=
  { platform with
    getDiscovery := endpoints.getDiscovery
    postToken := endpoints.postToken
    getJwks := endpoints.getJwks }

def AdminConfig.answering (config : AdminConfig) (endpoints : Endpoints) : AdminConfig :=
  { config with oidcPlatform := config.oidcPlatform.answering endpoints }

/-- What the requests share.  `opened` notes every flow that a login has opened;
no request reads it. -/
structure SsoWorld where
  admin : AdminState
  now : DateTime
  endpoints : Endpoints
  opened : List (String × FlowState) := []

/-- What happens besides the requests: time passes, an administrator changes the
IAM store, the endpoints change their answers. -/
inductive SsoEvent
  | tick (nanoseconds : Nat)
  | iamChanges (iam : IamStore)
  | endpointsChange (endpoints : Endpoints)

def SsoWorld.happens : SsoEvent → SsoWorld → SsoWorld
  | .tick nanoseconds, w => { w with now := w.now + nanoseconds }
  | .iamChanges iam, w => { w with admin := { w.admin with iam := iam } }
  | .endpointsChange endpoints, w => { w with endpoints := endpoints }

/-- The login behind a session. -/
structure VerifiedLogin where
  csrfState : String
  flow : FlowState
  provider : OidcConfig
  discovery : OidcDiscovery
  code : String
  idToken : String
  jwks : List Jwk
  claims : OidcClaims

/-- What a request ends with: where the browser is sent, and for a session the
login that the callback made it from. -/
structure SsoReply where
  redirect : Redirect
  login : Option VerifiedLogin := none

/-- A request that fails sends the browser back with the message. -/
abbrev SsoProg := Prog SsoWorld String

/-- The browser's view of a request. -/
def redirectOf : Except String SsoReply → Redirect
  | .ok reply => reply.redirect
  | .error message => .error message

/-- Await an answer; `failure` is the message for an error. -/
def awaiting {ε α : Type} (failure : String) (ask : SsoWorld → Except ε α) : SsoProg α := do
  let answer ← observe ask
  lift (answer.mapError fun _ => failure)

/-! ## Starting a flow -/

/-- Draw the state and the nonce and insert the flow. -/
def openFlow (config : AdminConfig) (providerId : String) (w : SsoWorld) :
    (String × FlowState) × SsoWorld :=
  let csrfState := config.oidcPlatform.randomToken w.admin.draws
  let nonce := config.oidcPlatform.randomToken (w.admin.draws + 1)
  let flow : FlowState := { nonce := nonce, providerId := providerId, created := w.now }
  let admin :=
    { w.admin with
      flows := (csrfState, flow) :: w.admin.flows.filter fun f => f.1 != csrfState
      draws := w.admin.draws + 2 }
  ((csrfState, flow), { w with admin := admin, opened := (csrfState, flow) :: w.opened })

/-- `oidc.sweep_expired()`. -/
def sweepFlows (w : SsoWorld) : SsoWorld := { w with admin := w.admin.sweepExpired w.now }

/-- `login_oidc`, await by await. -/
def loginOidcSteps (config : AdminConfig) (providerId : String) : SsoProg SsoReply := do
  update sweepFlows
  let found ← observe fun w => w.admin.enabledProvider config providerId
  let provider ← require found "Unknown or disabled SSO provider"
  let discovery ← awaiting "SSO provider discovery failed" fun w =>
    (config.answering w.endpoints).oidcPlatform.discover provider.issuerUrl
  let flow ← perform (openFlow config providerId)
  return { redirect := .provider
             (config.oidcPlatform.authorizationUrl discovery provider flow.1 flow.2.nonce) }

/-! ## Completing a login -/

/-- `oidc.flows.remove(&csrf_state)`, and the time that `created.elapsed()` reads. -/
def takeFlow (csrfState : String) (w : SsoWorld) : (Option FlowState × DateTime) × SsoWorld :=
  let flows := w.admin.flows.filter fun f => f.1 != csrfState
  ((w.admin.flows.lookup csrfState, w.now), { w with admin := { w.admin with flows := flows } })

/-- The form that the token endpoint is sent. -/
def tokenParams (config : OidcConfig) (code : String) : List (String × String) :=
  [("grant_type", "authorization_code"), ("code", code), ("redirect_uri", config.redirectUri),
   ("client_id", config.clientId), ("client_secret", config.clientSecret)]

/-- The username of an ID token that echoes the nonce of the flow. -/
def usernameOf (config : OidcConfig) (expectedNonce : String) (claims : OidcClaims) :
    Except IamError String := do
  match claims.nonce with
  | none => throw (.oidc "id_token missing nonce")
  | some n =>
    if n ≠ expectedNonce then throw (.oidc "nonce mismatch")
    match claims.getUsername config.usernameClaim with
    | none => throw (.oidc ("claim '" ++ config.usernameClaim ++ "' not present in id_token"))
    | some username => return username

/-- What the callback says of every failure of `exchange_and_verify`. -/
def verificationFailed : String := "SSO token verification failed"

/-- Resolve or auto-provision the user. -/
def provisionSteps (provider : OidcConfig) (username : String) : SsoProg Unit := do
  let known ← observe fun w => (w.admin.iam.getUser w.now username).isOk
  if known then return
  ensure provider.autoCreateUsers "Your account is not provisioned for SSO"
  let created ← perform fun w =>
    let result := w.admin.iam.createUser w.now username
    (result.1, { w with admin := { w.admin with iam := result.2 } })
  let _ ← lift (created.mapError fun _ => "Failed to provision SSO account")
  match provider.defaultPolicy with
  | none => return
  | some policyName =>
    let document ← observe fun w => w.admin.iam.getPolicy policyName
    match document with
    | .error _ => return
    | .ok policy =>
      update fun w =>
        { w with
          admin :=
            { w.admin with iam := (w.admin.iam.attachUserPolicy w.now username policy).2 } }

/-- Provision the user and mint the console session token. -/
def finishSteps (config : AdminConfig) (username : String) (login : VerifiedLogin) :
    SsoProg SsoReply := do
  provisionSteps login.provider username
  let token ← awaiting "Failed to establish session" fun w =>
    config.session.createToken w.now username "oidc-auth" false
  return { redirect := .session token username, login := some login }

/-- `exchange_and_verify` and what follows it, for a flow that has been taken. -/
def completeSteps (config : AdminConfig) (csrfState code : String) (flow : FlowState)
    (provider : OidcConfig) (discovery : OidcDiscovery) : SsoProg SsoReply := do
  let answer ← awaiting verificationFailed fun w =>
    w.endpoints.postToken discovery.tokenEndpoint (tokenParams provider code)
  let idToken ← require answer verificationFailed
  let jwks ← awaiting verificationFailed fun w => w.endpoints.getJwks discovery.jwksUri
  let claims ← awaiting verificationFailed fun w =>
    config.oidcPlatform.verifyIdTokenWithJwks w.now idToken provider.clientId discovery.issuer jwks
  let username ← lift
    ((usernameOf provider flow.nonce claims).mapError fun _ => verificationFailed)
  finishSteps config username
    { csrfState, flow, provider, discovery, code, idToken, jwks, claims }

/-- `auth_callback`, await by await. -/
def authCallbackSteps (config : AdminConfig) (query : CallbackQuery) : SsoProg SsoReply := do
  ensure query.error.isNone "SSO provider rejected the login"
  let code ← require query.code "Malformed SSO callback"
  let csrfState ← require query.state "Malformed SSO callback"
  -- The flow is consumed by whoever removes it, fresh or not.
  let taken ← perform (takeFlow csrfState)
  let flow ← require taken.1 "Invalid or expired SSO state"
  ensure (decide (taken.2 - flow.created < flowTtl)) "SSO session expired, please retry"
  let found ← observe fun w => w.admin.enabledProvider config flow.providerId
  let provider ← require found "SSO provider is no longer available"
  let discovery ← awaiting "SSO provider discovery failed" fun w =>
    (config.answering w.endpoints).oidcPlatform.discover provider.issuerUrl
  completeSteps config csrfState code flow provider discovery

/-! ## Alone -/

theorem run_awaiting_bind {ε α β : Type} {failure : String} {ask : SsoWorld → Except ε α}
    {f : α → SsoProg β} {w : SsoWorld} :
    (awaiting failure ask >>= f).run w =
      match ask w with
      | .ok a => (f a).run w
      | .error _ => (.error failure, w) := by
  rw [awaiting, Prog.bind_assoc, run_observe_bind, run_lift_bind]
  cases ask w <;> rfl

/-- **A login alone** is `loginOidc`. -/
theorem loginOidcSteps_run (config : AdminConfig) (providerId : String) (w : SsoWorld) :
    w.admin.loginOidc (config.answering w.endpoints) w.now providerId =
      (((loginOidcSteps config providerId).run w).2.admin,
        redirectOf ((loginOidcSteps config providerId).run w).1) := by
  simp only [loginOidcSteps, run_update_bind, run_observe_bind, run_require_bind]
  rw [AdminState.loginOidc]
  have hsame : (w.admin.sweepExpired w.now).enabledProvider (config.answering w.endpoints)
      providerId = (sweepFlows w).admin.enabledProvider config providerId := rfl
  rw [hsame]
  cases (sweepFlows w).admin.enabledProvider config providerId with
  | none => rfl
  | some provider =>
      simp only [run_awaiting_bind]
      have hasked : (sweepFlows w).endpoints = w.endpoints := rfl
      rw [hasked]
      cases (config.answering w.endpoints).oidcPlatform.discover provider.issuerUrl <;> rfl

/-- A user that is not created leaves the store as it was. -/
theorem createUser_refused {iam after : IamStore} {now : DateTime} {username : String}
    {e : IamError} (h : iam.createUser now username = (.error e, after)) : after = iam := by
  unfold IamStore.createUser at h
  split at h
  · exact (Prod.mk.inj h).2.symm
  · split at h
    · exact (Prod.mk.inj h).2.symm
    · cases h

/-- Provisioning alone is `provision`. -/
theorem provisionSteps_run (provider : OidcConfig) (username : String) (w : SsoWorld) :
    (provisionSteps provider username).run w =
      match AdminState.provision provider w.now username w.admin.iam with
      | .ok iam => (.ok (), { w with admin := { w.admin with iam := iam } })
      | .error message => (.error message, w) := by
  rw [provisionSteps, run_observe_bind, AdminState.provision]
  cases hknown : w.admin.iam.getUser w.now username with
  | ok user => rfl
  | error e =>
      simp only [Except.isOk, Except.toBool, Bool.false_eq_true, ↓reduceIte,
        run_ensure_bind]
      cases hauto : provider.autoCreateUsers with
      | false => rfl
      | true =>
          simp only [↓reduceIte, run_perform_bind, run_lift_bind, Bool.not_true,
            Bool.false_eq_true]
          cases hcreated : w.admin.iam.createUser w.now username with
          | mk result after =>
              cases result with
              | error e =>
                  obtain rfl := createUser_refused hcreated
                  rfl
              | ok user =>
                  cases provider.defaultPolicy with
                  | none => rfl
                  | some policyName =>
                      change (observe _ >>= _ : SsoProg Unit).run _ = _
                      rw [run_observe_bind]
                      dsimp only
                      cases after.getPolicy policyName <;> rfl

/-- What `exchange_and_verify` yields for a taken flow, answer by answer. -/
theorem exchangeAndVerify_eq (config : AdminConfig) (endpoints : Endpoints) (now : DateTime)
    (provider : OidcConfig) (discovery : OidcDiscovery) (code nonce : String) :
    (config.answering endpoints).oidcPlatform.exchangeAndVerify now provider discovery code nonce =
      (do
        match ← endpoints.postToken discovery.tokenEndpoint (tokenParams provider code) with
        | none => throw (.oidc "token response missing id_token")
        | some idToken =>
          let jwks ← endpoints.getJwks discovery.jwksUri
          let claims ← config.oidcPlatform.verifyIdTokenWithJwks now idToken provider.clientId
            discovery.issuer jwks
          let username ← usernameOf provider nonce claims
          return (username, claims)) := by
  rw [OidcPlatform.exchangeAndVerify]
  change (endpoints.postToken discovery.tokenEndpoint (tokenParams provider code) >>= _) = _
  refine congrArg (endpoints.postToken discovery.tokenEndpoint (tokenParams provider code) >>= ·)
    (funext fun answer => ?_)
  cases answer with
  | none => rfl
  | some idToken =>
      refine congrArg (endpoints.getJwks discovery.jwksUri >>= ·) (funext fun jwks => ?_)
      refine congrArg (config.oidcPlatform.verifyIdTokenWithJwks now idToken provider.clientId
        discovery.issuer jwks >>= ·) (funext fun claims => ?_)
      unfold usernameOf
      cases claims.nonce with
      | none => rfl
      | some n =>
          by_cases hnonce : n = nonce
          · simp only [hnonce, ne_eq, not_true_eq_false, ↓reduceIte]
            cases claims.getUsername provider.usernameClaim <;> rfl
          · simp only [ne_eq, hnonce, not_false_eq_true, ↓reduceIte]
            rfl

/-- What the callback does with a verified login: provision the user and mint the token. -/
def AdminState.finishLogin (config : AdminConfig) (now : DateTime) (provider : OidcConfig)
    (admin : AdminState) (username : String) : AdminState × Redirect :=
  match provision provider now username admin.iam with
  | .error message => (admin, .error message)
  | .ok iam =>
    let admin := { admin with iam := iam }
    match config.session.createToken now username "oidc-auth" false with
    | .error _ => (admin, .error "Failed to establish session")
    | .ok token => (admin, .session token username)

theorem finishSteps_run (config : AdminConfig) (username : String) (login : VerifiedLogin)
    (w : SsoWorld) :
    w.admin.finishLogin config w.now login.provider username =
      (((finishSteps config username login).run w).2.admin,
        redirectOf ((finishSteps config username login).run w).1) := by
  simp only [finishSteps, run_bind, provisionSteps_run]
  unfold AdminState.finishLogin
  cases AdminState.provision login.provider w.now username w.admin.iam with
  | error message => rfl
  | ok iam =>
      simp only [awaiting, run_observe_bind, run_lift]
      cases config.session.createToken w.now username "oidc-auth" false <;> rfl

/-- The second half of a callback alone. -/
theorem completeSteps_run (config : AdminConfig) (csrfState code : String) (flow : FlowState)
    (provider : OidcConfig) (discovery : OidcDiscovery) (w : SsoWorld) :
    (match (config.answering w.endpoints).oidcPlatform.exchangeAndVerify w.now provider discovery
        code flow.nonce with
      | .error _ => (w.admin, .error verificationFailed)
      | .ok (username, _) => w.admin.finishLogin config w.now provider username) =
      (((completeSteps config csrfState code flow provider discovery).run w).2.admin,
        redirectOf ((completeSteps config csrfState code flow provider discovery).run w).1) := by
  rw [exchangeAndVerify_eq]
  simp only [completeSteps, run_awaiting_bind, run_require_bind, run_lift_bind]
  cases w.endpoints.postToken discovery.tokenEndpoint (tokenParams provider code) with
  | error e => rfl
  | ok answer =>
      cases answer with
      | none => rfl
      | some idToken =>
          dsimp only
          cases w.endpoints.getJwks discovery.jwksUri with
          | error e => rfl
          | ok jwks =>
              dsimp only
              cases hclaims : config.oidcPlatform.verifyIdTokenWithJwks w.now idToken
                  provider.clientId discovery.issuer jwks with
              | error e =>
                  simp only [Bind.bind, Except.bind, hclaims]
                  rfl
              | ok claims =>
                  cases husername : usernameOf provider flow.nonce claims with
                  | error e =>
                      simp only [Bind.bind, Except.bind, hclaims, husername]
                      rfl
                  | ok username =>
                      simp only [Bind.bind, Except.bind, hclaims, husername]
                      let login : VerifiedLogin :=
                        { csrfState, flow, provider, discovery, code, idToken, jwks, claims }
                      exact finishSteps_run config username login w

/-- Removing a flow that is not there changes nothing. -/
theorem filter_flows_of_lookup {flows : List (String × FlowState)} {csrfState : String}
    (h : flows.lookup csrfState = none) : flows.filter (fun f => f.1 != csrfState) = flows := by
  refine List.filter_eq_self.mpr fun f hf => ?_
  have hne := List.lookup_eq_none_iff.mp h f hf
  simp only [bne_iff_ne] at hne ⊢
  exact Ne.symm hne

/-- **A callback alone** is `authCallback`. -/
theorem authCallbackSteps_run (config : AdminConfig) (query : CallbackQuery) (w : SsoWorld) :
    w.admin.authCallback (config.answering w.endpoints) w.now query =
      (((authCallbackSteps config query).run w).2.admin,
        redirectOf ((authCallbackSteps config query).run w).1) := by
  simp only [authCallbackSteps, run_ensure_bind, run_require_bind, run_perform_bind,
    run_observe_bind]
  unfold AdminState.authCallback
  cases herror : query.error with
  | some e => rfl
  | none =>
      cases hcode : query.code with
      | none => rfl
      | some code =>
          cases hstate : query.state with
          | none => rfl
          | some csrfState =>
              have htaken : (takeFlow csrfState w).1 = (w.admin.flows.lookup csrfState, w.now) :=
                rfl
              simp only [Option.isSome_none, Option.isNone_none, Bool.false_eq_true, ↓reduceIte,
                htaken]
              cases hflow : w.admin.flows.lookup csrfState with
              | none =>
                  have hkept : (takeFlow csrfState w).2 = w := by
                    simp only [takeFlow, filter_flows_of_lookup hflow]
                  simp only [hkept]
                  rfl
              | some flow =>
                  by_cases hfresh : w.now - flow.created < flowTtl
                  · have hkept : ¬ flowTtl ≤ w.now - flow.created := Int.not_le.mpr hfresh
                    simp only [hkept, hfresh, decide_true, ↓reduceIte]
                    have htaken : { w.admin with
                        flows := w.admin.flows.filter (·.1 != csrfState) } =
                          (takeFlow csrfState w).2.admin := rfl
                    have hasks : ∀ providerId, (takeFlow csrfState w).2.admin.enabledProvider
                        (config.answering w.endpoints) providerId =
                          (takeFlow csrfState w).2.admin.enabledProvider config providerId :=
                      fun _ => rfl
                    rw [htaken, hasks]
                    cases hprovider : (takeFlow csrfState w).2.admin.enabledProvider config
                        flow.providerId with
                    | none => rfl
                    | some provider =>
                        simp only [run_awaiting_bind]
                        have hasked : (takeFlow csrfState w).2.endpoints = w.endpoints := rfl
                        rw [hasked]
                        cases (config.answering w.endpoints).oidcPlatform.discover
                            provider.issuerUrl with
                        | error e => rfl
                        | ok discovery =>
                            exact completeSteps_run config csrfState code flow provider discovery
                              (takeFlow csrfState w).2
                  · have hexpired : flowTtl ≤ w.now - flow.created := Int.not_lt.mp hfresh
                    simp only [hexpired, hfresh, decide_false, Bool.false_eq_true, ↓reduceIte]
                    rfl

end Strix

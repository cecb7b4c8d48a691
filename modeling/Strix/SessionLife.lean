import Strix.AdminLogins
import Strix.SsoAuthority
import Strix.SsoRequests

/-!
# How long sessions live

A session token is its own proof of identity until it expires.  Here runs log
users in on the three ways there are, change the IAM store in between and make
requests with the tokens handed out so far; `minted` notes these.

A token should let its user in only as long as the user is there and active, and
should only be made for such a user.  That the user must be there holds by the
foreign keys: what a user is allowed goes when the user goes.  The status is
looked at by two of the logins and by nobody else.

* `sessionsDie_iff` — a run keeps to the rule exactly when no callback is for a
  deactivated user and no request comes from one whose attached policies allow it.
-/

namespace Strix

open MachineRuns RowTable

/-! ## The callback and the user's status -/

/-- The callback comes as far as a verified identity of this name. -/
def CallbackVerifies (config : AdminConfig) (now : DateTime) (query : CallbackQuery)
    (admin : AdminState) (provider : OidcConfig) (username : String) : Prop :=
  query.error = none ∧ ∃ code csrfState flow discovery claims,
    query.code = some code ∧ query.state = some csrfState ∧
    admin.flows.lookup csrfState = some flow ∧ now - flow.created < flowTtl ∧
    admin.enabledProvider config flow.providerId = some provider ∧
    config.oidcPlatform.discover provider.issuerUrl = .ok discovery ∧
    config.oidcPlatform.exchangeAndVerify now provider discovery code flow.nonce =
      .ok (username, claims)

/-- A callback that verifies goes on to provision the user and make a token. -/
theorem authCallback_verified {config : AdminConfig} {now : DateTime} {query : CallbackQuery}
    {admin : AdminState} {provider : OidcConfig} {username : String}
    (h : CallbackVerifies config now query admin provider username) :
    ∃ flows, admin.authCallback config now query =
      ({ admin with flows := flows } : AdminState).finishLogin config now provider username := by
  obtain ⟨herror, code, csrfState, flow, discovery, claims, hcode, hstate, hflow, hfresh,
    hprovider, hdiscovery, hexchange⟩ := h
  have hkept : ¬flowTtl ≤ now - flow.created := Int.not_le.mpr hfresh
  refine ⟨admin.flows.filter fun f => f.1 != csrfState, ?_⟩
  have hasked : ({ admin with flows := admin.flows.filter fun f => f.1 != csrfState } :
      AdminState).enabledProvider config flow.providerId = some provider := hprovider
  unfold AdminState.authCallback
  simp only [herror, Option.isSome_none, Bool.false_eq_true, ↓reduceIte, hcode, hstate, hflow,
    hkept, hasked, hdiscovery, hexchange]
  rfl

/-- A callback that does not verify changes nothing in the IAM store and makes no
token. -/
theorem authCallback_unverified {config : AdminConfig} {now : DateTime} {query : CallbackQuery}
    {admin : AdminState}
    (h : ∀ provider username, ¬CallbackVerifies config now query admin provider username) :
    (admin.authCallback config now query).1.iam = admin.iam ∧
      ∃ message, (admin.authCallback config now query).2 = .error message := by
  unfold AdminState.authCallback
  by_cases herror : query.error.isSome = true
  · rw [if_pos herror]
    exact ⟨rfl, _, rfl⟩
  · rw [if_neg herror]
    cases hcode : query.code with
    | none => exact ⟨rfl, _, rfl⟩
    | some code =>
        cases hstate : query.state with
        | none => exact ⟨rfl, _, rfl⟩
        | some csrfState =>
            dsimp only
            cases hflow : admin.flows.lookup csrfState with
            | none => exact ⟨rfl, _, rfl⟩
            | some flow =>
                dsimp only
                by_cases hkept : flowTtl ≤ now - flow.created
                · rw [if_pos hkept]
                  exact ⟨rfl, _, rfl⟩
                · rw [if_neg hkept]
                  cases hprovider : admin.enabledProvider config flow.providerId with
                  | none =>
                      have hasked : ({ admin with flows := admin.flows.filter fun f =>
                          f.1 != csrfState } : AdminState).enabledProvider config
                          flow.providerId = none := hprovider
                      rw [hasked]
                      exact ⟨rfl, _, rfl⟩
                  | some provider =>
                      have hasked : ({ admin with flows := admin.flows.filter fun f =>
                          f.1 != csrfState } : AdminState).enabledProvider config
                          flow.providerId = some provider := hprovider
                      rw [hasked]
                      dsimp only
                      cases hdiscovery : config.oidcPlatform.discover provider.issuerUrl with
                      | error e => exact ⟨rfl, _, rfl⟩
                      | ok discovery =>
                          dsimp only
                          cases hexchange : config.oidcPlatform.exchangeAndVerify now provider
                              discovery code flow.nonce with
                          | error e => exact ⟨rfl, _, rfl⟩
                          | ok pair =>
                              obtain ⟨username, claims⟩ := pair
                              have hnone : query.error = none := by simpa using herror
                              exact absurd ⟨hnone, code, csrfState, flow, discovery, claims,
                                hcode, hstate, hflow, Int.not_le.mp hkept, hprovider,
                                hdiscovery, hexchange⟩ (h provider username)

/-- The IAM store behind a provisioned user: unchanged for a known user, else
with a new user and perhaps a policy for it. -/
theorem provision_parts {provider : OidcConfig} {now : DateTime} {username : String}
    {iam after : IamStore} (h : AdminState.provision provider now username iam = .ok after) :
    (∃ user, iam.getUser now username = .ok user ∧ after = iam) ∨
      ∃ user, iam.createUser now username = (.ok user, (iam.createUser now username).2) ∧
        (after = (iam.createUser now username).2 ∨
          ∃ policy, after =
            ((iam.createUser now username).2.attachUserPolicy now username policy).2) := by
  unfold AdminState.provision at h
  cases hget : iam.getUser now username with
  | ok user =>
      rw [hget] at h
      exact .inl ⟨user, rfl, (Except.ok.inj h).symm⟩
  | error e =>
      rw [hget] at h
      right
      cases hauto : provider.autoCreateUsers with
      | false => simp [hauto] at h
      | true =>
          simp only [hauto, Bool.not_true, Bool.false_eq_true, ↓reduceIte] at h
          cases hcreate : iam.createUser now username with
          | mk outcome created =>
              rw [hcreate] at h
              cases outcome with
              | error e => simp at h
              | ok user =>
                  refine ⟨user, rfl, ?_⟩
                  dsimp only at h
                  cases hdefault : provider.defaultPolicy with
                  | none =>
                      rw [hdefault] at h
                      exact .inl (Except.ok.inj h).symm
                  | some policyName =>
                      rw [hdefault] at h
                      dsimp only at h
                      cases hpolicy : created.getPolicy policyName with
                      | error e =>
                          rw [hpolicy] at h
                          exact .inl (Except.ok.inj h).symm
                      | ok policy =>
                          rw [hpolicy] at h
                          exact .inr ⟨policy, (Except.ok.inj h).symm⟩

/-- Attaching a policy changes no user. -/
theorem users_attachUserPolicy (iam : IamStore) (now : DateTime) (username : String)
    (policy : Policy) :
    (iam.attachUserPolicy now username policy).2.db.users = iam.db.users := by
  unfold IamStore.attachUserPolicy
  cases iam.isRootName username with
  | true => rfl
  | false =>
      cases iam.getUser now username with
      | error e => rfl
      | ok user => rfl

/-- A new user is live. -/
theorem live_createUser {iam : IamStore} {now : DateTime} {username : String} {user : User}
    (h : iam.createUser now username = (.ok user, (iam.createUser now username).2)) :
    (iam.createUser now username).2.Live username := by
  unfold IamStore.createUser at h ⊢
  cases hroot : iam.isRootName username with
  | true => simp [hroot] at h
  | false =>
      cases hknown : iam.db.users.any (·.username == username) with
      | true => simp [hroot, hknown] at h
      | false =>
          refine ⟨User.create username now, ?_, rfl, rfl⟩
          exact List.mem_append_right _ (List.mem_singleton_self _)

/-- **The user that a callback finds or creates** is there afterwards, and live
unless it was deactivated before. -/
theorem live_provision {provider : OidcConfig} {now : DateTime} {username : String}
    {iam after : IamStore} (h : AdminState.provision provider now username iam = .ok after)
    (hname : iam.isRootName username = false) (hactive : ¬iam.Deactivated username) :
    after.Live username := by
  rcases provision_parts h with ⟨user, hget, rfl⟩ | ⟨user, hcreate, hafter⟩
  · have huser := IamStore.Sound.hasUser_of_getUser hname hget
    exact (IamStore.live_or_deactivated huser).resolve_right hactive
  · have hlive := live_createUser hcreate
    rcases hafter with rfl | ⟨policy, rfl⟩
    · exact hlive
    · obtain ⟨u, hu, hparts⟩ := hlive
      refine ⟨u, ?_, hparts⟩
      rw [users_attachUserPolicy]
      exact hu

/-- Provisioning keeps the tables sound. -/
theorem sound_provision {provider : OidcConfig} {now : DateTime} {username : String}
    {iam after : IamStore} (hsound : iam.Sound)
    (h : AdminState.provision provider now username iam = .ok after) : after.Sound := by
  rcases provision_parts h with ⟨user, -, rfl⟩ | ⟨user, -, rfl | ⟨policy, rfl⟩⟩
  · exact hsound
  · exact hsound.createUser
  · exact hsound.createUser.attachUserPolicy policy

/-- Provisioning keeps root's names. -/
theorem root_provision {provider : OidcConfig} {now : DateTime} {username : String}
    {iam after : IamStore} (keys : IamKeys)
    (h : AdminState.provision provider now username iam = .ok after) :
    after.rootAccessKey = iam.rootAccessKey := by
  have hcreate := root_perform keys now iam (.createUser username)
  rcases provision_parts h with ⟨user, -, rfl⟩ | ⟨user, -, rfl | ⟨policy, rfl⟩⟩
  · rfl
  · exact hcreate
  · have hattach := root_perform keys now (iam.createUser now username).2
      (.attachUserPolicy username policy)
    exact hattach.trans hcreate

/-! ## Runs -/

/-- The admin server, and the tokens it has handed out. -/
structure SessionState where
  admin : AdminState
  minted : List String := []

/-- What happens to the admin server: a change of the IAM store or of the
providers, a login, or a request to a protected route. -/
inductive SessionOp
  | call (call : IamCall)
  | setProviders (rows : List OidcProviderRow)
  | login (locked : Bool) (accessKeyId secretAccessKey : String)
  | loginWithPassword (locked : Bool) (username password : String)
  | loginOidc (providerId : String)
  | authCallback (query : CallbackQuery)
  | request (authorization : Option String) (method : Method) (path : String)

/-- The answer: a session, what became of a request for one, or whether a
request is let through. -/
inductive SessionReply
  | done
  | session (session : Session)
  | refused (error : AdminError)
  | redirected (redirect : Redirect)
  | verdict (outcome : Except AdminError Unit)

/-- The reply of a login and the token noted, if it has one. -/
def SessionState.loggedIn (s : SessionState) (iam : IamStore) :
    Except AdminError Session → SessionReply × SessionState
  | .ok session =>
    (.session session,
      { admin := { s.admin with iam := iam }, minted := session.token :: s.minted })
  | .error e => (.refused e, { s with admin := { s.admin with iam := iam } })

/-- One step. -/
def sessionStep (config : LoginConfig) (s : SessionState) :
    DateTime × SessionOp → SessionReply × SessionState
  | (now, .call call) =>
    (.done, { s with admin := { s.admin with
        iam := (call.perform config.keys now s.admin.iam).2 } })
  | (_, .setProviders rows) =>
    (.done, { s with admin := { s.admin with
        iam := { s.admin.iam with db := { s.admin.iam.db with oidcProviders := rows } } } })
  | (now, .login locked accessKeyId secretAccessKey) =>
    let outcome := login config now locked accessKeyId secretAccessKey s.admin.iam
    s.loggedIn outcome.2 outcome.1
  | (now, .loginWithPassword locked username password) =>
    s.loggedIn s.admin.iam (loginWithPassword config now locked username password s.admin.iam)
  | (now, .loginOidc providerId) =>
    let outcome := s.admin.loginOidc config.sso now providerId
    (.redirected outcome.2, { s with admin := outcome.1 })
  | (now, .authCallback query) =>
    match s.admin.authCallback config.sso now query with
    | (admin, .session token username) =>
      (.session { token := token, username := username },
        { admin := admin, minted := token :: s.minted })
    | (admin, redirect) => (.redirected redirect, { s with admin := admin })
  | (now, .request authorization method path) =>
    (.verdict (admits config.session s.admin.iam now authorization method path), s)

/-- The admin server over time. -/
def sessionMachine (config : LoginConfig) (admin : AdminState) :
    Machine SessionState (DateTime × SessionOp) SessionReply where
  init := { admin := admin }
  step := sessionStep config

/-- **Sessions die with the user**: the step makes a token only for a live user,
and lets a request with a token that was handed out through only while its user
is live.  Root's names are left out. -/
structure SessionsDie (config : LoginConfig) (s : SessionState) (op : DateTime × SessionOp) :
    Prop where
  minted : ∀ session, (sessionStep config s op).1 = .session session →
    s.admin.iam.isRootName session.username = false →
    (sessionStep config s op).2.admin.iam.Live session.username
  admitted : ∀ token method path,
    op.2 = .request (some ("Bearer " ++ token)) method path → token ∈ s.minted →
    ∀ user, authMiddleware config.session op.1 (some ("Bearer " ++ token)) = .ok user →
      s.admin.iam.isRootName user.username = false →
      authorizeMiddleware s.admin.iam user method path = .ok () →
      s.admin.iam.Live user.username

/-- **No step of a deactivated user**: a callback that verifies the name of one
makes no token, and a request with a token of one asks for nothing that the
policies attached to the name allow. -/
structure NoDeactivated (config : LoginConfig) (s : SessionState) (op : DateTime × SessionOp) :
    Prop where
  callback : ∀ query provider username, op.2 = .authCallback query →
    CallbackVerifies config.sso op.1 query s.admin provider username →
    s.admin.iam.isRootName username = false →
    (∃ token, config.session.createToken op.1 username "oidc-auth" false = .ok token) →
    ¬s.admin.iam.Deactivated username
  request : ∀ token method path,
    op.2 = .request (some ("Bearer " ++ token)) method path → token ∈ s.minted →
    ∀ user, authMiddleware config.session op.1 (some ("Bearer " ++ token)) = .ok user →
      s.admin.iam.isRootName user.username = false →
      s.admin.iam.Deactivated user.username →
      ¬s.admin.iam.AttachedAllow user.username method path

/-! ## What every run keeps -/

/-- The tables are sound, and a token that carries the root flag was made for one
of root's names. -/
structure SessionInv (config : LoginConfig) (s : SessionState) : Prop where
  sound : s.admin.iam.Sound
  flagged : ∀ token ∈ s.minted, ∃ now username keyId isRoot,
    config.session.createToken now username keyId isRoot = .ok token ∧
      (isRoot = true → s.admin.iam.isRootName username = true)

/-- Root's names are the same wherever root's key is. -/
theorem isRootName_congr {iam after : IamStore} (h : after.rootAccessKey = iam.rootAccessKey)
    (username : String) : after.isRootName username = iam.isRootName username := by
  unfold IamStore.isRootName
  rw [h]

/-- Only root is flagged as root. -/
theorem isRootName_of_flagged {iam : IamStore} {user : User} (hsound : iam.Sound)
    (h : iam.RootOrLive user) (hflag : user.isRoot = true) :
    iam.isRootName user.username = true := by
  rcases h with hroot | ⟨hmem, -⟩
  · exact hroot
  · rw [hsound.usersUnflagged user hmem] at hflag
    exact absurd hflag (by decide)

/-- Starting a single sign-on leaves the IAM store alone. -/
theorem loginOidc_iam (config : AdminConfig) (now : DateTime) (providerId : String)
    (admin : AdminState) : (admin.loginOidc config now providerId).1.iam = admin.iam := by
  unfold AdminState.loginOidc
  dsimp only
  cases (admin.sweepExpired now).enabledProvider config providerId with
  | none => rfl
  | some provider =>
      dsimp only
      cases config.oidcPlatform.discover provider.issuerUrl with
      | error e => rfl
      | ok discovery => rfl

/-- A login that hands out tokens of root and of live users keeps the invariant. -/
theorem SessionInv.loggedIn {config : LoginConfig} {s : SessionState} {iam : IamStore}
    {outcome : Except AdminError Session} (now : DateTime) (h : SessionInv config s)
    (hsound : iam.Sound) (hroot : iam.rootAccessKey = s.admin.iam.rootAccessKey)
    (hparts : ∀ session, outcome = .ok session →
      ∃ user keyId, s.admin.iam.RootOrLive user ∧ session.username = user.username ∧
        config.session.createToken now user.username keyId user.isRoot = .ok session.token) :
    SessionInv config (s.loggedIn iam outcome).2 := by
  cases outcome with
  | error e =>
      refine ⟨hsound, fun token htoken => ?_⟩
      obtain ⟨minted, username, keyId, isRoot, hmint, hflag⟩ := h.flagged token htoken
      refine ⟨minted, username, keyId, isRoot, hmint, fun hset => ?_⟩
      rw [← hflag hset]
      exact isRootName_congr hroot username
  | ok session =>
      refine ⟨hsound, fun token htoken => ?_⟩
      rcases List.mem_cons.mp htoken with rfl | htoken
      · obtain ⟨user, keyId, huser, -, hmint⟩ := hparts session rfl
        refine ⟨now, user.username, keyId, user.isRoot, hmint, fun hset => ?_⟩
        rw [← isRootName_of_flagged h.sound huser hset]
        exact isRootName_congr hroot user.username
      · obtain ⟨minted, username, keyId, isRoot, hmint, hflag⟩ := h.flagged token htoken
        refine ⟨minted, username, keyId, isRoot, hmint, fun hset => ?_⟩
        rw [← hflag hset]
        exact isRootName_congr hroot username

/-- A step that hands out no token keeps the invariant with the IAM store. -/
theorem SessionInv.withAdmin {config : LoginConfig} {s : SessionState} {admin : AdminState}
    (h : SessionInv config s) (hsound : admin.iam.Sound)
    (hroot : admin.iam.rootAccessKey = s.admin.iam.rootAccessKey) :
    SessionInv config { s with admin := admin } := by
  refine ⟨hsound, fun token htoken => ?_⟩
  obtain ⟨minted, username, keyId, isRoot, hmint, hflag⟩ := h.flagged token htoken
  refine ⟨minted, username, keyId, isRoot, hmint, fun hset => ?_⟩
  rw [← hflag hset]
  exact isRootName_congr hroot username

/-- The providers are in no other table. -/
theorem sound_setProviders {iam : IamStore} (h : iam.Sound) (rows : List OidcProviderRow) :
    IamStore.Sound { iam with db := { iam.db with oidcProviders := rows } } where
  usersKeyed := h.usersKeyed
  usersNotRoot := h.usersNotRoot
  usersUnflagged := h.usersUnflagged
  keysKeyed := h.keysKeyed
  keysOwned := h.keysOwned
  policiesOwned := h.policiesOwned
  membersOwned := h.membersOwned
  credentialsKeyed := h.credentialsKeyed
  credentialsOwned := h.credentialsOwned

/-- What a callback does: nothing to the IAM store and no token, or it provisions
the user of a verified identity and hands out a token for it. -/
theorem authCallback_outcome (config : AdminConfig) (now : DateTime) (query : CallbackQuery)
    (admin : AdminState) :
    ((admin.authCallback config now query).1.iam = admin.iam ∧
      ∃ message, (admin.authCallback config now query).2 = .error message) ∨
    ∃ provider username iam, CallbackVerifies config now query admin provider username ∧
      AdminState.provision provider now username admin.iam = .ok iam ∧
      (admin.authCallback config now query).1.iam = iam ∧
      ((∃ message, (admin.authCallback config now query).2 = .error message) ∨
        ∃ token, (admin.authCallback config now query).2 = .session token username ∧
          config.session.createToken now username "oidc-auth" false = .ok token) := by
  by_cases hverified : ∃ provider username,
      CallbackVerifies config now query admin provider username
  · obtain ⟨provider, username, hverifies⟩ := hverified
    obtain ⟨flows, hfinish⟩ := authCallback_verified hverifies
    rw [hfinish]
    unfold AdminState.finishLogin
    dsimp only
    cases hprovision : AdminState.provision provider now username admin.iam with
    | error message => exact .inl ⟨rfl, message, rfl⟩
    | ok iam =>
        refine .inr ⟨provider, username, iam, hverifies, hprovision, ?_⟩
        dsimp only
        cases hmint : config.session.createToken now username "oidc-auth" false with
        | error e => exact ⟨rfl, .inl ⟨_, rfl⟩⟩
        | ok token => exact ⟨rfl, .inr ⟨token, rfl, rfl⟩⟩
  · refine .inl (authCallback_unverified fun provider username hverifies => ?_)
    exact hverified ⟨provider, username, hverifies⟩

/-- The step of a callback that hands out no token. -/
theorem sessionStep_authCallback_error {config : LoginConfig} {s : SessionState}
    {now : DateTime} {query : CallbackQuery} {message : String}
    (h : (s.admin.authCallback config.sso now query).2 = .error message) :
    sessionStep config s (now, .authCallback query) =
      (.redirected (.error message),
        { s with admin := (s.admin.authCallback config.sso now query).1 }) := by
  cases hcallback : s.admin.authCallback config.sso now query with
  | mk admin redirect =>
      rw [hcallback] at h
      dsimp only at h
      subst h
      simp only [sessionStep, hcallback]

/-- The step of a callback that hands out a token. -/
theorem sessionStep_authCallback_session {config : LoginConfig} {s : SessionState}
    {now : DateTime} {query : CallbackQuery} {token username : String}
    (h : (s.admin.authCallback config.sso now query).2 = .session token username) :
    sessionStep config s (now, .authCallback query) =
      (.session { token := token, username := username },
        { admin := (s.admin.authCallback config.sso now query).1
          minted := token :: s.minted }) := by
  cases hcallback : s.admin.authCallback config.sso now query with
  | mk admin redirect =>
      rw [hcallback] at h
      dsimp only at h
      subst h
      simp only [sessionStep, hcallback]

/-- **Every step keeps the invariant.** -/
theorem sessionInv_step {config : LoginConfig} {s : SessionState} (h : SessionInv config s)
    (op : DateTime × SessionOp) : SessionInv config (sessionStep config s op).2 := by
  obtain ⟨now, op⟩ := op
  cases op with
  | call call => exact h.withAdmin (sound_perform h.sound call) (root_perform _ _ _ call)
  | setProviders rows => exact h.withAdmin (sound_setProviders h.sound rows) rfl
  | login locked accessKeyId secret =>
      have hused := root_perform config.keys now s.admin.iam
        (.updateAccessKeyLastUsed accessKeyId)
      refine SessionInv.loggedIn now h ?_ ?_ fun session hok => login_parts hok
      · rcases users_login config now locked accessKeyId secret s.admin.iam with hsame | hsame
        · rw [hsame]
          exact h.sound
        · rw [hsame]
          exact h.sound.updateAccessKeyLastUsed accessKeyId
      · rcases users_login config now locked accessKeyId secret s.admin.iam with hsame | hsame
        · rw [hsame]
        · rw [hsame]
          exact hused
  | loginWithPassword locked username password =>
      exact SessionInv.loggedIn now h h.sound rfl fun session hok => loginWithPassword_parts hok
  | loginOidc providerId =>
      have hsame := loginOidc_iam config.sso now providerId s.admin
      refine h.withAdmin ?_ ?_
      · rw [hsame]
        exact h.sound
      · rw [hsame]
  | authCallback query =>
      rcases authCallback_outcome config.sso now query s.admin with
        ⟨hsame, message, herror⟩ | ⟨provider, username, iam, -, hprovision, hiam, hreply⟩
      · rw [sessionStep_authCallback_error herror]
        refine h.withAdmin ?_ ?_
        · rw [hsame]
          exact h.sound
        · rw [hsame]
      · have hsound : (s.admin.authCallback config.sso now query).1.iam.Sound := by
          rw [hiam]
          exact sound_provision h.sound hprovision
        have hroot : (s.admin.authCallback config.sso now query).1.iam.rootAccessKey =
            s.admin.iam.rootAccessKey := by
          rw [hiam]
          exact root_provision config.keys hprovision
        have hkept := h.withAdmin hsound hroot
        rcases hreply with ⟨message, herror⟩ | ⟨token, hsession, hmint⟩
        · rw [sessionStep_authCallback_error herror]
          exact hkept
        · rw [sessionStep_authCallback_session hsession]
          refine ⟨hsound, fun other hother => ?_⟩
          rcases List.mem_cons.mp hother with rfl | hother
          · exact ⟨now, username, "oidc-auth", false, hmint,
              fun hset => absurd hset (by decide)⟩
          · exact hkept.flagged other hother
  | request authorization method path => exact h

/-! ## One step -/

/-- Whoever has a policy is there. -/
theorem hasUser_of_attachedAllow {iam : IamStore} {username path : String} {method : Method}
    (hsound : iam.Sound) (h : iam.AttachedAllow username method path) :
    iam.HasUser username := by
  obtain ⟨⟨policy, hpolicy, -⟩, -⟩ := h
  rcases List.mem_append.mp hpolicy with hown | hgroup
  · obtain ⟨row, hrow, -⟩ := List.mem_filterMap.mp hown
    obtain ⟨hrow, hname⟩ := List.mem_filter.mp hrow
    rw [← eq_of_beq hname]
    exact hsound.policiesOwned row hrow
  · obtain ⟨group, hgroup, -⟩ := List.mem_flatMap.mp hgroup
    obtain ⟨g, -, m, hm, -, hname, -⟩ := exists_mem_listUserGroups.mp ⟨group, hgroup, rfl⟩
    rw [← hname]
    exact hsound.membersOwned m hm

/-- Who the bearer of a token is. -/
theorem authMiddleware_bearer {config : SessionConfig} {now : DateTime} {token : String}
    {user : AuthenticatedUser}
    (h : authMiddleware config now (some ("Bearer " ++ token)) = .ok user) :
    ∃ claims, config.verifyToken now token = .ok claims ∧
      user = { username := claims.sub, accessKeyId := claims.accessKeyId,
               isRoot := claims.isRoot } := by
  simp only [authMiddleware, stripHead_append] at h
  cases hread : config.verifyToken now token with
  | error e => simp [hread] at h
  | ok claims =>
      simp only [hread, Except.ok.injEq] at h
      exact ⟨claims, rfl, h.symm⟩

/-- A token of somebody else than root does not carry the root flag. -/
theorem SessionInv.unflagged {config : LoginConfig} {s : SessionState} {token : String}
    {now : DateTime} {user : AuthenticatedUser} (h : SessionInv config s)
    (htoken : token ∈ s.minted)
    (huser : authMiddleware config.session now (some ("Bearer " ++ token)) = .ok user)
    (hname : s.admin.iam.isRootName user.username = false) : user.isRoot = false := by
  obtain ⟨claims, hread, rfl⟩ := authMiddleware_bearer huser
  obtain ⟨minted, username, keyId, isRoot, hmint, hflag⟩ := h.flagged token htoken
  obtain rfl := SessionConfig.verifyToken_createToken hmint hread
  cases isRoot with
  | false => rfl
  | true =>
      have hroot := hflag rfl
      change s.admin.iam.isRootName username = false at hname
      rw [hroot] at hname
      exact absurd hname (by decide)

/-- For somebody else than root the middleware asks for an allowing policy. -/
theorem authorizeMiddleware_attached_iff {iam : IamStore} {user : AuthenticatedUser}
    (hflag : user.isRoot = false) (hname : iam.isRootName user.username = false)
    (method : Method) (path : String) :
    authorizeMiddleware iam user method path = .ok () ↔
      iam.AttachedAllow user.username method path := by
  rw [← isAuthorized_iff_attached hname method path]
  exact authorizeMiddleware_ok_iff hflag method path

/-- A live user who is somebody else than root, in a store with the same users. -/
theorem IamStore.RootOrLive.live {iam after : IamStore} {user : User} (h : iam.RootOrLive user)
    (hname : iam.isRootName user.username = false) (hsame : after.db.users = iam.db.users) :
    after.Live user.username := by
  rcases h with hroot | ⟨hmem, hactive⟩
  · rw [hroot] at hname
    exact absurd hname (by decide)
  · refine ⟨user, ?_, rfl, hactive⟩
    rw [hsame]
    exact hmem

/-- A login step that hands out a session hands out that of its outcome. -/
theorem loggedIn_session {s : SessionState} {iam : IamStore}
    {outcome : Except AdminError Session} {session : Session}
    (h : (s.loggedIn iam outcome).1 = .session session) : outcome = .ok session := by
  cases outcome with
  | error e => cases h
  | ok found =>
      cases h
      rfl

/-- The IAM store after a login step. -/
theorem loggedIn_iam (s : SessionState) (iam : IamStore) (outcome : Except AdminError Session) :
    (s.loggedIn iam outcome).2.admin.iam = iam := by
  cases outcome with
  | error e => rfl
  | ok session => rfl

/-- If no deactivated user is about, tokens are made for live users only. -/
theorem NoDeactivated.minted_live {config : LoginConfig} {s : SessionState}
    {op : DateTime × SessionOp} (hguard : NoDeactivated config s op)
    {session : Session} (hreply : (sessionStep config s op).1 = .session session)
    (hname : s.admin.iam.isRootName session.username = false) :
    (sessionStep config s op).2.admin.iam.Live session.username := by
  obtain ⟨now, op⟩ := op
  cases op with
  | call call => cases hreply
  | setProviders rows => cases hreply
  | login locked accessKeyId secret =>
      obtain ⟨user, keyId, huser, hsame, -⟩ := login_parts (loggedIn_session hreply)
      rw [hsame] at hname ⊢
      refine huser.live hname ?_
      change (s.loggedIn _ _).2.admin.iam.db.users = _
      rw [loggedIn_iam]
      rcases users_login config now locked accessKeyId secret s.admin.iam with hkept | hkept
      · rw [hkept]
      · rw [hkept]
        unfold IamStore.updateAccessKeyLastUsed
        by_cases hroot : accessKeyId = s.admin.iam.rootAccessKey
        · rw [if_pos hroot]
        · rw [if_neg hroot]
  | loginWithPassword locked username password =>
      obtain ⟨user, keyId, huser, hsame, -⟩ :=
        loginWithPassword_parts (loggedIn_session hreply)
      rw [hsame] at hname ⊢
      refine huser.live hname ?_
      change (s.loggedIn _ _).2.admin.iam.db.users = _
      rw [loggedIn_iam]
  | loginOidc providerId => cases hreply
  | authCallback query =>
      rcases authCallback_outcome config.sso now query s.admin with ⟨-, message, herror⟩ |
        ⟨provider, username, iam, hverifies, hprovision, hiam, houtcome⟩
      · rw [sessionStep_authCallback_error herror] at hreply
        cases hreply
      · rcases houtcome with ⟨message, herror⟩ | ⟨token, hsession, hmint⟩
        · rw [sessionStep_authCallback_error herror] at hreply
          cases hreply
        · rw [sessionStep_authCallback_session hsession] at hreply ⊢
          cases hreply
          have hactive := hguard.callback query provider username rfl hverifies hname
            ⟨token, hmint⟩
          have hlive := live_provision hprovision hname hactive
          rw [← hiam] at hlive
          exact hlive
  | request authorization method path => cases hreply

/-- **One step keeps to the rule exactly when no deactivated user is about.** -/
theorem sessionsDie_step_iff {config : LoginConfig} {s : SessionState}
    (h : SessionInv config s) (op : DateTime × SessionOp) :
    SessionsDie config s op ↔ NoDeactivated config s op := by
  constructor
  · intro hdie
    constructor
    · intro query provider username hop hverifies hname hmints hinactive
      obtain ⟨now, op⟩ := op
      dsimp only at hop hverifies hmints
      subst hop
      obtain ⟨token, hmint⟩ := hmints
      obtain ⟨flows, hfinish⟩ := authCallback_verified hverifies
      obtain ⟨u, hu, hsame, hstatus⟩ := hinactive
      have hfound : ∃ user, s.admin.iam.getUser now username = .ok user := by
        unfold IamStore.getUser
        rw [hname]
        cases hfind : s.admin.iam.db.users.find? (·.username == username) with
        | some user => exact ⟨user, by simp⟩
        | none =>
            have hno := List.find?_eq_none.mp hfind u hu
            simp [hsame] at hno
      obtain ⟨user, hget⟩ := hfound
      have hsession : s.admin.authCallback config.sso now query =
          ({ s.admin with flows := flows }, .session token username) := by
        have hmint' : config.sso.session.createToken now username "oidc-auth" false =
          .ok token := hmint
        rw [hfinish]
        unfold AdminState.finishLogin AdminState.provision
        simp only [hget, hmint']
      have hreply : (s.admin.authCallback config.sso now query).2 = .session token username :=
        congrArg Prod.snd hsession
      have hstep := sessionStep_authCallback_session hreply
      have hlive := hdie.minted { token := token, username := username } (by rw [hstep]) hname
      rw [hstep, hsession] at hlive
      exact hlive.not_deactivated h.sound ⟨u, hu, hsame, hstatus⟩
    · intro token method path hop htoken user huser hname hinactive hallow
      have hflag := h.unflagged htoken huser hname
      have hpassed := (authorizeMiddleware_attached_iff hflag hname method path).mpr hallow
      exact (hdie.admitted token method path hop htoken user huser hname hpassed).not_deactivated
        h.sound hinactive
  · intro hguard
    constructor
    · intro session hreply hname
      exact hguard.minted_live hreply hname
    · intro token method path hop htoken user huser hname hpassed
      have hflag := h.unflagged htoken huser hname
      have hallow := (authorizeMiddleware_attached_iff hflag hname method path).mp hpassed
      have hthere := hasUser_of_attachedAllow h.sound hallow
      refine (IamStore.live_or_deactivated hthere).resolve_right fun hinactive => ?_
      exact hguard.request token method path hop htoken user huser hname hinactive hallow

/-- **When sessions die with the user.**  In every run from a server without
users every step keeps to the rule exactly when at every step no deactivated
user is about. -/
theorem sessionsDie_iff (config : LoginConfig) (admin : AdminState) (hfresh : admin.iam.Fresh)
    (run : List (DateTime × SessionOp)) :
    (sessionMachine config admin).AllSteps (SessionsDie config)
        (sessionMachine config admin).init run ↔
      (sessionMachine config admin).AllSteps (NoDeactivated config)
        (sessionMachine config admin).init run := by
  have hinit : SessionInv config (sessionMachine config admin).init :=
    ⟨.of_fresh hfresh, fun token htoken => absurd htoken (List.not_mem_nil)⟩
  have hkeeps (s : SessionState) (op : DateTime × SessionOp) (h : SessionInv config s) :
      SessionInv config ((sessionMachine config admin).next s op) :=
    sessionInv_step h op
  exact Machine.allSteps_congr hkeeps (fun _ op h => sessionsDie_step_iff h op) hinit run

/-! ## A user who was deactivated -/

/-- The claims of `alice`'s session below. -/
def aliceClaims : Claims where
  sub := "alice"
  accessKeyId := "password-auth"
  isRoot := false
  iat := 0
  exp := 3600

/-- Signing of one token only. -/
def onlyTokens (only : Claims) : SessionTokens where
  encode claims := if claims = only then .ok "eyJ" else .error "unsupported"
  decode now token := if token = "eyJ" ∧ now ≤ only.exp then .ok only else .error "invalid"
  decode_encode {now claims token read} hmint hread := by
    split at hmint
    · split at hread
      · rename_i hclaims _
        rw [hclaims]
        exact (Except.ok.inj hread).symm
      · cases hread
    · cases hmint
  decode_fresh {now claims token} hmint hfresh := by
    split at hmint
    · rename_i hclaims
      obtain rfl := Except.ok.inj hmint
      rw [hclaims] at hfresh ⊢
      simp [hfresh]
    · cases hmint

/-- A server whose users log in with one password. -/
def aliceConfig : LoginConfig where
  keys := plainKeys
  oidcPlatform := rootLogin.oidcPlatform
  session := { tokens := onlyTokens aliceClaims, expiry := 3600 }
  verifyPassword password hash := .ok (password == "Correct-Horse-9" && hash == "$argon2id$")

/-- A server without users. -/
def emptyAdmin : AdminState where
  iam := { rootAccessKey := "ROOTKEY", rootSecretKey := "root-secret", db := {} }

theorem emptyAdmin_fresh : emptyAdmin.iam.Fresh := ⟨rfl, rfl, rfl, rfl, rfl⟩

/-- `alice` gets a password and a policy and logs in. -/
def aliceLogsIn : List (DateTime × SessionOp) :=
  [(0, .call (.createUser "alice")),
    (0, .call (.setUserPassword "alice" "$argon2id$")),
    (0, .call (.attachUserPolicy "alice" adminPolicy)),
    (0, .loginWithPassword false "alice" "Correct-Horse-9")]

/-- The equivalence for the run in which `alice` logs in. -/
theorem sessionsDie_alice :
    (sessionMachine aliceConfig emptyAdmin).AllSteps (SessionsDie aliceConfig)
        (sessionMachine aliceConfig emptyAdmin).init aliceLogsIn ↔
      (sessionMachine aliceConfig emptyAdmin).AllSteps (NoDeactivated aliceConfig)
        (sessionMachine aliceConfig emptyAdmin).init aliceLogsIn :=
  sessionsDie_iff aliceConfig emptyAdmin emptyAdmin_fresh aliceLogsIn

/-- `alice` is deactivated after her login, and her token still opens the user
administration. -/
theorem deactivated_admitted :
    ¬∀ (config : LoginConfig) (admin : AdminState), admin.iam.Fresh →
      ∀ run, (sessionMachine config admin).AllSteps (SessionsDie config)
        (sessionMachine config admin).init run := by
  intro hall
  have h := hall aliceConfig emptyAdmin emptyAdmin_fresh
    (aliceLogsIn ++
      [(1, .call (.updateUserStatus "alice" .inactive)),
        (2, .request (some ("Bearer " ++ "eyJ")) .post "/api/v1/users")])
  obtain ⟨-, -, -, -, -, hlast, -⟩ := h
  have hlive := hlast.admitted "eyJ" .post "/api/v1/users" rfl (by decide)
    { username := "alice", accessKeyId := "password-auth", isRoot := false } (by decide)
    (by decide) (by decide)
  exact absurd hlive (by decide)

end Strix

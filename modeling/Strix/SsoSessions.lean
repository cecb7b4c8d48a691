import Strix.SsoAuthority
import Strix.SsoRequests

/-!
# The login behind a session

A session token of `auth_callback` should rest on one fresh login: on a flow of
its own, opened less than ten minutes before it was taken, for a provider that
is still enabled, and on an ID token that is signed with the provider's key,
made for the provider's client, for this flow, by the provider's issuer.

The callback compares the token's issuer with the one that the discovery
document names, and never that one with the provider's configured issuer URL.

* `flows_within_opened`: a flow is consumed once, however the requests interleave;
* `verifiedLogin_of_ends`: what is behind a session, step by step;
* `sessions_backed_iff`: the sessions of a run are backed exactly when every
  discovery document that they rest on names the configured issuer.
-/

namespace Strix

open AtomicProgram Prog MachineRuns

/-! ## ID tokens -/

/-- What ID tokens say, and which keys they are signed with. -/
structure IdTokenFacts where
  signed : String → String × String → Algorithm → Prop
  aud : String → String
  iss : String → String
  exp : String → DateTime
  leeway : DateTime

/-- **The JWT library checks** signature, audience, issuer and expiration against
the values that it is given. -/
structure ChecksIdTokens (platform : OidcPlatform) (facts : IdTokenFacts) : Prop where
  signed : ∀ {now idToken key alg audience issuer claims},
    platform.decodeIdToken now idToken key alg audience issuer = .ok claims →
    facts.signed idToken key alg
  aud : ∀ {now idToken key alg audience issuer claims},
    platform.decodeIdToken now idToken key alg audience issuer = .ok claims →
    facts.aud idToken = audience
  iss : ∀ {now idToken key alg audience issuer claims},
    platform.decodeIdToken now idToken key alg audience issuer = .ok claims →
    facts.iss idToken = issuer
  exp : ∀ {now idToken key alg audience issuer claims},
    platform.decodeIdToken now idToken key alg audience issuer = .ok claims →
    now ≤ facts.exp idToken + facts.leeway

/-- The algorithm that a key declares; RS256 by default. -/
def Jwk.algorithm (jwk : Jwk) : Algorithm :=
  match jwk.alg with
  | some "RS384" => .rs384
  | some "RS512" => .rs512
  | _ => .rs256

/-- **The key selected for the token** has signed it. -/
def SignedBySelected (platform : OidcPlatform) (facts : IdTokenFacts) (idToken : String)
    (jwks : List Jwk) : Prop :=
  ∃ kid jwk n e, platform.decodeHeader idToken = .ok kid ∧
    OidcPlatform.selectJwk kid jwks = .ok jwk ∧ jwk.n = some n ∧ jwk.e = some e ∧
    facts.signed idToken (n, e) jwk.algorithm

/-- Equal up to a trailing slash. -/
def SameIssuer (issuer issuer' : String) : Prop := trimEndSlashes issuer = trimEndSlashes issuer'

instance (issuer issuer' : String) : Decidable (SameIssuer issuer issuer') :=
  inferInstanceAs (Decidable (_ = _))

/-- A computation in two parts succeeds through both. -/
theorem exceptBind_ok {ε α β : Type} {x : Except ε α} {f : α → Except ε β} {b : β}
    (h : (x >>= f) = .ok b) : ∃ a, x = .ok a ∧ f a = .ok b := by
  cases x with
  | error e => cases h
  | ok a => exact ⟨a, rfl, h⟩

/-- The last part of `verify_id_token_with_jwks`: decoding under the selected key. -/
def OidcPlatform.decodeUnder (platform : OidcPlatform) (now : DateTime)
    (idToken clientId issuer : String) (jwk : Jwk) : Except IamError OidcClaims :=
  match jwk.n, jwk.e with
  | none, _ => throw (.oidc "JWK missing modulus 'n'")
  | some _, none => throw (.oidc "JWK missing exponent 'e'")
  | some n, some e => do
    platform.rsaComponents n e
    platform.decodeIdToken now idToken (n, e) jwk.algorithm clientId issuer

theorem decodeUnder_ok {platform : OidcPlatform} {now : DateTime}
    {idToken clientId issuer : String} {jwk : Jwk} {claims : OidcClaims}
    (h : platform.decodeUnder now idToken clientId issuer jwk = .ok claims) :
    ∃ n e, jwk.n = some n ∧ jwk.e = some e ∧
      platform.decodeIdToken now idToken (n, e) jwk.algorithm clientId issuer = .ok claims := by
  unfold OidcPlatform.decodeUnder at h
  cases hn : jwk.n with
  | none => simp [hn, throw, throwThe, MonadExceptOf.throw] at h
  | some n =>
      cases he : jwk.e with
      | none => simp [hn, he, throw, throwThe, MonadExceptOf.throw] at h
      | some e =>
          simp only [hn, he] at h
          obtain ⟨-, -, h⟩ := exceptBind_ok h
          exact ⟨n, e, rfl, rfl, h⟩

/-- Where the verification of an ID token got its claims from. -/
theorem verifyIdTokenWithJwks_ok {platform : OidcPlatform} {now : DateTime}
    {idToken clientId issuer : String} {jwks : List Jwk} {claims : OidcClaims}
    (h : platform.verifyIdTokenWithJwks now idToken clientId issuer jwks = .ok claims) :
    ∃ kid jwk, platform.decodeHeader idToken = .ok kid ∧
      OidcPlatform.selectJwk kid jwks = .ok jwk ∧
      platform.decodeUnder now idToken clientId issuer jwk = .ok claims := by
  unfold OidcPlatform.verifyIdTokenWithJwks at h
  obtain ⟨kid, hkid, h⟩ := exceptBind_ok h
  obtain ⟨jwk, hjwk, h⟩ := exceptBind_ok h
  refine ⟨kid, jwk, hkid, hjwk, ?_⟩
  cases hkty : jwk.kty with
  | none =>
      rw [hkty] at h
      exact h
  | some kty =>
      by_cases hrsa : kty = "RSA"
      · simp only [hkty, hrsa, ne_eq, not_true_eq_false, ↓reduceIte] at h
        exact h
      · simp [hkty, hrsa, throw, throwThe, MonadExceptOf.throw, Bind.bind, Except.bind] at h

/-- Verification under the library's contract. -/
theorem ChecksIdTokens.verified {platform : OidcPlatform} {facts : IdTokenFacts}
    (hjwt : ChecksIdTokens platform facts) {now : DateTime} {idToken clientId issuer : String}
    {jwks : List Jwk} {claims : OidcClaims}
    (h : platform.verifyIdTokenWithJwks now idToken clientId issuer jwks = .ok claims) :
    SignedBySelected platform facts idToken jwks ∧ facts.aud idToken = clientId ∧
      facts.iss idToken = issuer ∧ now ≤ facts.exp idToken + facts.leeway := by
  obtain ⟨kid, jwk, hkid, hjwk, hunder⟩ := verifyIdTokenWithJwks_ok h
  obtain ⟨n, e, hn, he, hdecoded⟩ := decodeUnder_ok hunder
  exact ⟨⟨kid, jwk, n, e, hkid, hjwk, hn, he, hjwt.signed hdecoded⟩, hjwt.aud hdecoded,
    hjwt.iss hdecoded, hjwt.exp hdecoded⟩

/-- A user name is taken only from claims that echo the nonce. -/
theorem nonce_of_usernameOf {provider : OidcConfig} {nonce username : String}
    {claims : OidcClaims} (h : usernameOf provider nonce claims = .ok username) :
    claims.nonce = some nonce ∧ claims.getUsername provider.usernameClaim = some username := by
  unfold usernameOf at h
  cases hnonce : claims.nonce with
  | none => simp [hnonce, throw, throwThe, MonadExceptOf.throw] at h
  | some n =>
      by_cases hsame : n = nonce
      · subst hsame
        simp only [hnonce, ne_eq, not_true_eq_false, ↓reduceIte] at h
        cases hname : claims.getUsername provider.usernameClaim with
        | none => simp [hname, throw, throwThe, MonadExceptOf.throw] at h
        | some name =>
            simp only [hname] at h
            exact ⟨rfl, congrArg some (Except.ok.inj h)⟩
      · simp [hnonce, hsame, throw, throwThe, MonadExceptOf.throw, Bind.bind, Except.bind] at h

/-! ## What is behind a session -/

/-- When the callback took its steps. -/
structure LoginMoments where
  taking : SsoWorld
  looking : SsoWorld
  discovering : SsoWorld
  exchanging : SsoWorld
  fetching : SsoWorld
  verifying : SsoWorld
  minting : SsoWorld

def LoginMoments.list (m : LoginMoments) : List SsoWorld :=
  [m.taking, m.looking, m.discovering, m.exchanging, m.fetching, m.verifying, m.minting]

/-- **A verified login**, in the moments in which its parts were read.  `issued`
is all that the token says of its issuer. -/
structure LoginVerified (config : AdminConfig) (facts : IdTokenFacts) (m : LoginMoments)
    (login : VerifiedLogin) (token username : String) : Prop where
  taken : m.taking.admin.flows.lookup login.csrfState = some login.flow
  fresh : m.taking.now - login.flow.created < flowTtl
  enabled : m.looking.admin.enabledProvider config login.flow.providerId = some login.provider
  discovered : (config.answering m.discovering.endpoints).oidcPlatform.discover
    login.provider.issuerUrl = .ok login.discovery
  exchanged : m.exchanging.endpoints.postToken login.discovery.tokenEndpoint
    (tokenParams login.provider login.code) = .ok (some login.idToken)
  fetched : m.fetching.endpoints.getJwks login.discovery.jwksUri = .ok login.jwks
  verified : config.oidcPlatform.verifyIdTokenWithJwks m.verifying.now login.idToken
    login.provider.clientId login.discovery.issuer login.jwks = .ok login.claims
  signed : SignedBySelected config.oidcPlatform facts login.idToken login.jwks
  aud : facts.aud login.idToken = login.provider.clientId
  unexpired : m.verifying.now ≤ facts.exp login.idToken + facts.leeway
  nonce : login.claims.nonce = some login.flow.nonce
  named : login.claims.getUsername login.provider.usernameClaim = some username
  issued : facts.iss login.idToken = login.discovery.issuer
  minted : config.session.createToken m.minting.now username "oidc-auth" false = .ok token

theorem Ends.awaiting_bind {ε α β : Type} {failure : String} {ask : SsoWorld → Except ε α}
    {f : α → SsoProg β} {b : β} {states : List SsoWorld}
    (h : (awaiting failure ask >>= f).Ends states b) :
    ∃ w rest a, states = w :: rest ∧ ask w = .ok a ∧ (f a).Ends rest b := by
  rw [awaiting, Prog.bind_assoc] at h
  obtain ⟨w, rest, rfl, h⟩ := h.observe_bind
  obtain ⟨a, ha, h⟩ := h.lift_bind
  cases hask : ask w with
  | error e =>
      have hsame : Except.mapError (fun _ => failure) (ask w) = .ok a := ha
      rw [hask] at hsame
      cases hsame
  | ok a' =>
      have hsame : Except.mapError (fun _ => failure) (ask w) = .ok a := ha
      rw [hask] at hsame
      obtain rfl := Except.ok.inj hsame
      exact ⟨w, rest, a', rfl, hask, h⟩

/-- **What is behind a session**, step by step. -/
theorem verifiedLogin_of_ends {config : AdminConfig} {facts : IdTokenFacts}
    (hjwt : ChecksIdTokens config.oidcPlatform facts) {query : CallbackQuery}
    {states : List SsoWorld} {reply : SsoReply}
    (h : (authCallbackSteps config query).Ends states reply) :
    ∃ m login token username, reply = { redirect := .session token username, login := some login } ∧
      m.list.Sublist states ∧ LoginVerified config facts m login token username := by
  obtain ⟨-, h⟩ := h.ensure_bind
  obtain ⟨code, -, h⟩ := h.require_bind
  obtain ⟨csrfState, -, h⟩ := h.require_bind
  obtain ⟨taking, states, rfl, h⟩ := h.perform_bind
  obtain ⟨flow, hflow, h⟩ := h.require_bind
  obtain ⟨hfresh, h⟩ := h.ensure_bind
  obtain ⟨looking, states, rfl, h⟩ := h.observe_bind
  obtain ⟨provider, hprovider, h⟩ := h.require_bind
  obtain ⟨discovering, states, discovery, rfl, hdiscovery, h⟩ := Ends.awaiting_bind h
  obtain ⟨exchanging, states, answer, rfl, hanswer, h⟩ := Ends.awaiting_bind h
  obtain ⟨idToken, rfl, h⟩ := h.require_bind
  obtain ⟨fetching, states, jwks, rfl, hjwks, h⟩ := Ends.awaiting_bind h
  obtain ⟨verifying, states, claims, rfl, hclaims, h⟩ := Ends.awaiting_bind h
  obtain ⟨username, husername, h⟩ := h.lift_bind
  obtain ⟨provisioning, states, ⟨⟩, rfl, -, h⟩ := h.bind
  obtain ⟨minting, states, token, rfl, htoken, h⟩ := Ends.awaiting_bind h
  obtain rfl := ends_done.mp h
  have hnamed : usernameOf provider flow.nonce claims = .ok username := by
    cases hname : usernameOf provider flow.nonce claims with
    | error e => simp [hname, Except.mapError] at husername
    | ok name => simpa [hname, Except.mapError] using husername
  obtain ⟨hnonce, hname⟩ := nonce_of_usernameOf hnamed
  obtain ⟨hsigned, haud, hiss, hexp⟩ := hjwt.verified hclaims
  refine ⟨⟨taking, looking, discovering, exchanging, fetching, verifying, minting⟩,
    ⟨csrfState, flow, provider, discovery, code, idToken, jwks, claims⟩, token, username, rfl,
    ?_, ?_⟩
  · have hlast : [minting].Sublist (provisioning ++ minting :: states) :=
      (List.singleton_sublist.mpr (by simp))
    exact ((((((hlast.cons_cons _).cons_cons _).cons_cons _).cons_cons _).cons_cons _).cons_cons _)
  · exact
      { taken := hflow
        fresh := of_decide_eq_true hfresh
        enabled := hprovider
        discovered := hdiscovery
        exchanged := hanswer
        fetched := hjwks
        verified := hclaims
        signed := hsigned
        aud := haud
        unexpired := hexp
        nonce := hnonce
        named := hname
        issued := hiss
        minted := htoken }

/-! ## A flow is consumed once -/

/-- The flow that a request holds. -/
abbrev Held := Option (String × FlowState)

/-- A step that leaves the flows and the clock alone. -/
def KeepsFlows ⦃β : Type⦄ (act : SsoWorld → β × SsoWorld) : Prop :=
  ∀ w, (act w).2.admin.flows = w.admin.flows ∧ (act w).2.opened = w.opened ∧ (act w).2.now = w.now

/-- The steps of a request, and the flow that it holds after each. -/
inductive FlowSteps (config : AdminConfig) : Automaton SsoWorld Held
  | keeps {t : Held} {β : Type} {act : SsoWorld → β × SsoWorld} (h : KeepsFlows act) :
      FlowSteps config t act fun _ => t
  | sweeps : FlowSteps config none (fun w => ((), sweepFlows w)) fun _ => none
  | opens (providerId : String) : FlowSteps config none (openFlow config providerId) fun _ => none
  | takes (csrfState : String) :
      FlowSteps config none (takeFlow csrfState) fun taken => taken.1.map (Prod.mk csrfState)

/-- A request that ends with a session holds its flow. -/
def HoldsFlow : SsoProg SsoReply → Held → Prop
  | .done reply, t =>
    ∀ login, reply.login = some login → t = some (login.csrfState, login.flow)
  | _, _ => True

theorem holds_free (t : Held) : Free HoldsFlow t := ⟨fun _ _ _ => trivial, fun _ => trivial⟩

theorem keepsFlows_observe {α : Type} (read : SsoWorld → α) :
    Only KeepsFlows (observe read : SsoProg α) := only_perform fun _ => ⟨rfl, rfl, rfl⟩

theorem keepsFlows_awaiting {ε α : Type} (failure : String) (ask : SsoWorld → Except ε α) :
    Only KeepsFlows (awaiting failure ask) := (keepsFlows_observe ask).bind fun _ => only_lift _

theorem keepsFlows_provisionSteps (provider : OidcConfig) (username : String) :
    Only KeepsFlows (provisionSteps provider username) := by
  refine (keepsFlows_observe _).bind fun known => ?_
  cases known with
  | true => exact only_pure _
  | false =>
      refine (only_ensure _ _).bind fun _ => ?_
      refine Only.bind (only_perform fun _ => ⟨rfl, rfl, rfl⟩) fun _ => ?_
      refine (only_lift _).bind fun _ => ?_
      cases provider.defaultPolicy with
      | none => exact only_pure _
      | some policyName =>
          refine (keepsFlows_observe _).bind fun document => ?_
          cases document with
          | error e => exact only_pure _
          | ok policy => exact only_perform fun _ => ⟨rfl, rfl, rfl⟩

section Staged

variable {config : AdminConfig}

/-- A piece that keeps the flows, before the rest of a request. -/
theorem keepsFlows_staged_bind {α : Type} {p : SsoProg α} {f : α → SsoProg SsoReply} {t : Held}
    (hp : Only KeepsFlows p) (hf : ∀ a, (f a).Staged (FlowSteps config) HoldsFlow t) :
    (p >>= f).Staged (FlowSteps config) HoldsFlow t :=
  hp.staged_bind (fun _ _ hact => .keeps hact) (holds_free t) hf

theorem loginOidcSteps_staged (providerId : String) :
    (loginOidcSteps config providerId).Staged (FlowSteps config) HoldsFlow none := by
  refine staged_perform_bind (fun _ => none) trivial .sweeps fun _ => ?_
  refine keepsFlows_staged_bind (keepsFlows_observe _) fun _ => ?_
  refine keepsFlows_staged_bind (only_require _ _) fun _ => ?_
  refine keepsFlows_staged_bind (keepsFlows_awaiting _ _) fun _ => ?_
  refine staged_perform_bind (fun _ => none) trivial (.opens providerId) fun _ => ?_
  intro login hlogin
  cases hlogin

theorem completeSteps_staged (csrfState code : String) (flow : FlowState)
    (provider : OidcConfig) (discovery : OidcDiscovery) :
    (completeSteps config csrfState code flow provider discovery).Staged (FlowSteps config)
      HoldsFlow (some (csrfState, flow)) := by
  refine keepsFlows_staged_bind (keepsFlows_awaiting _ _) fun _ => ?_
  refine keepsFlows_staged_bind (only_require _ _) fun idToken => ?_
  refine keepsFlows_staged_bind (keepsFlows_awaiting _ _) fun jwks => ?_
  refine keepsFlows_staged_bind (keepsFlows_awaiting _ _) fun claims => ?_
  refine keepsFlows_staged_bind (only_lift _) fun username => ?_
  refine keepsFlows_staged_bind (keepsFlows_provisionSteps _ _) fun _ => ?_
  refine keepsFlows_staged_bind (keepsFlows_awaiting _ _) fun token => ?_
  intro login hlogin
  obtain rfl := Option.some.inj hlogin
  rfl

theorem authCallbackSteps_staged (query : CallbackQuery) :
    (authCallbackSteps config query).Staged (FlowSteps config) HoldsFlow none := by
  refine keepsFlows_staged_bind (only_ensure _ _) fun _ => ?_
  refine keepsFlows_staged_bind (only_require _ _) fun code => ?_
  refine keepsFlows_staged_bind (only_require _ _) fun csrfState => ?_
  refine staged_perform_bind _ trivial (.takes csrfState) fun taken => ?_
  cases htaken : taken.1 with
  | none => trivial
  | some flow =>
      change (ensure _ _ >>= _ : SsoProg SsoReply).Staged (FlowSteps config) HoldsFlow
        (some (csrfState, flow))
      refine keepsFlows_staged_bind (only_ensure _ _) fun _ => ?_
      refine keepsFlows_staged_bind (keepsFlows_observe _) fun _ => ?_
      refine keepsFlows_staged_bind (only_require _ _) fun provider => ?_
      refine keepsFlows_staged_bind (keepsFlows_awaiting _ _) fun discovery => ?_
      exact completeSteps_staged csrfState code flow provider discovery

end Staged

/-- **Every flow has one place**: it is in the table or with one request, as often
as logins have opened it, and it was opened in the past. -/
structure FlowsAccounted (stages : List Held) (w : SsoWorld) : Prop where
  counted : ∀ entry, stages.count (some entry) + w.admin.flows.count entry ≤ w.opened.count entry
  past : ∀ entry ∈ w.admin.flows, entry.2.created ≤ w.now

/-- Taking a flow removes it from the table. -/
theorem count_takeFlow {flows : List (String × FlowState)} {csrfState : String}
    {flow : FlowState} (hfound : flows.lookup csrfState = some flow) :
    (flows.filter fun f => f.1 != csrfState).count (csrfState, flow) + 1 ≤
      flows.count (csrfState, flow) := by
  have hgone : (flows.filter fun f => f.1 != csrfState).count (csrfState, flow) = 0 := by
    refine List.count_eq_zero.mpr fun hmem => ?_
    simp at hmem
  have hthere : 0 < flows.count (csrfState, flow) := by
    obtain ⟨left, right, rfl, -⟩ := List.lookup_eq_some_iff.mp hfound
    exact List.count_pos_iff.mpr (by simp)
  omega

/-- Where a request without a flow takes one, one more request holds it. -/
theorem count_set_held {stages : List Held} {i : Nat} (hstage : stages[i]? = some none)
    (taken entry : String × FlowState) :
    (stages.set i (some taken)).count (some entry) =
      stages.count (some entry) + if taken = entry then 1 else 0 := by
  obtain ⟨hlt, hnone⟩ := List.getElem?_eq_some_iff.mp hstage
  rw [List.count_set hlt, hnone]
  simp

theorem FlowsAccounted.takes {stages : List Held} {w : SsoWorld} {i : Nat}
    (hJ : FlowsAccounted stages w) (hstage : stages[i]? = some none) (csrfState : String) :
    FlowsAccounted
      (stages.set i ((takeFlow csrfState w).1.1.map (Prod.mk csrfState)))
      (takeFlow csrfState w).2 where
  counted entry := by
    have hbefore := hJ.counted entry
    have hfewer : (takeFlow csrfState w).2.admin.flows.count entry ≤ w.admin.flows.count entry :=
      List.filter_sublist.count_le entry
    have hsame : (takeFlow csrfState w).2.opened = w.opened := rfl
    rw [hsame]
    cases hfound : (takeFlow csrfState w).1.1 with
    | none =>
        rw [Option.map_none, set_stage hstage]
        omega
    | some flow =>
        rw [Option.map_some, count_set_held hstage]
        by_cases hentry : (csrfState, flow) = entry
        · subst hentry
          have hremoved : (takeFlow csrfState w).2.admin.flows.count (csrfState, flow) + 1 ≤
              w.admin.flows.count (csrfState, flow) := count_takeFlow hfound
          rw [if_pos rfl]
          omega
        · rw [if_neg hentry]
          omega
  past entry hentry := hJ.past entry (List.mem_of_mem_filter hentry)

theorem FlowsAccounted.opens {stages : List Held} {w : SsoWorld}
    (hJ : FlowsAccounted stages w) (config : AdminConfig) (providerId : String) :
    FlowsAccounted stages (openFlow config providerId w).2 where
  counted entry := by
    have hbefore := hJ.counted entry
    let kept := w.admin.flows.filter fun f => f.1 != (openFlow config providerId w).1.1
    have hfewer : kept.count entry ≤ w.admin.flows.count entry :=
      List.filter_sublist.count_le entry
    change stages.count (some entry) + ((openFlow config providerId w).1 :: kept).count entry ≤
      ((openFlow config providerId w).1 :: w.opened).count entry
    rw [List.count_cons, List.count_cons]
    omega
  past entry hentry := by
    rcases List.mem_cons.mp hentry with rfl | hold
    · exact Int.le_refl _
    · exact hJ.past entry (List.mem_of_mem_filter hold)

/-- **Every step keeps the account.** -/
theorem flowsAccounted_kept (config : AdminConfig) {η : Type}
    {G : Pool SsoWorld String SsoReply → Turn η → Prop} :
    KeptByThreads (FlowSteps config) HoldsFlow FlowsAccounted G := by
  intro c stages i β act t after hstep _ hJ
  cases hstep.allowed with
  | keeps hkeeps =>
      obtain ⟨hflows, hopened, hnow⟩ := hkeeps c.state
      rw [set_stage hstep.stage]
      exact ⟨fun entry => by rw [hflows, hopened]; exact hJ.counted entry,
        fun entry hentry => by rw [hnow]; exact hJ.past entry (hflows ▸ hentry)⟩
  | sweeps =>
      rw [set_stage hstep.stage]
      refine ⟨fun entry => ?_, fun entry hentry => hJ.past entry (List.mem_of_mem_filter hentry)⟩
      have hbefore := hJ.counted entry
      have hfewer : (sweepFlows c.state).admin.flows.count entry ≤
          c.state.admin.flows.count entry := List.filter_sublist.count_le entry
      change stages.count (some entry) + (sweepFlows c.state).admin.flows.count entry ≤
        c.state.opened.count entry
      omega
  | opens providerId =>
      rw [set_stage hstep.stage]
      exact hJ.opens config providerId
  | takes csrfState => exact hJ.takes hstep.stage csrfState

theorem flowsAccounted_world : KeptByWorld SsoWorld.happens FlowsAccounted := by
  intro stages w event hJ
  cases event with
  | tick nanoseconds =>
      refine ⟨hJ.counted, fun entry hentry => ?_⟩
      exact Int.le_trans (hJ.past entry hentry)
        (Int.le_add_of_nonneg_right (Int.natCast_nonneg nanoseconds))
  | iamChanges iam => exact ⟨hJ.counted, hJ.past⟩
  | endpointsChange endpoints => exact ⟨hJ.counted, hJ.past⟩

/-! ## Every run -/

/-- A request of a browser. -/
inductive SsoRequest
  | login (providerId : String)
  | callback (query : CallbackQuery)

def SsoRequest.program (config : AdminConfig) : SsoRequest → SsoProg SsoReply
  | .login providerId => loginOidcSteps config providerId
  | .callback query => authCallbackSteps config query

/-- The requests before their first steps. -/
def ssoPool (config : AdminConfig) (w : SsoWorld) (requests : List SsoRequest) :
    Pool SsoWorld String SsoReply where
  state := w
  threads := requests.map (SsoRequest.program config)

/-- A server that has just started: no login is under way. -/
structure Started (w : SsoWorld) : Prop where
  noFlows : w.admin.flows = []
  noneOpened : w.opened = []

/-- Where a schedule has brought the requests. -/
def ssoAfter (config : AdminConfig) (w : SsoWorld) (requests : List SsoRequest)
    (schedule : List (Turn SsoEvent)) : Pool SsoWorld String SsoReply :=
  (pool SsoWorld.happens (ssoPool config w requests)).after (ssoPool config w requests) schedule

/-- The request has ended with a session that rests on this flow. -/
def restsOn (entry : String × FlowState) : SsoProg SsoReply → Bool
  | .done reply => reply.login.any fun login => (login.csrfState, login.flow) == entry
  | _ => false

/-- **Every session of a run is backed** by a fresh verified login of its own. -/
structure SessionsBacked (config : AdminConfig) (facts : IdTokenFacts) (w : SsoWorld)
    (requests : List SsoRequest) (schedule : List (Turn SsoEvent)) : Prop where
  ownFlow : ∀ entry,
    (ssoAfter config w requests schedule).threads.countP (restsOn entry) ≤
      (ssoAfter config w requests schedule).state.opened.count entry
  backed : ∀ i reply token username,
    (ssoAfter config w requests schedule).Returned i reply →
    reply.redirect = .session token username →
    ∃ m login, reply.login = some login ∧
      m.list.Sublist ((ssoPool config w requests).turnsOf SsoWorld.happens i schedule) ∧
      LoginVerified config facts m login token username ∧
      login.flow.created ≤ m.taking.now ∧
      SameIssuer (facts.iss login.idToken) login.provider.issuerUrl

/-- **Every discovery document** that a session rests on names the issuer that the
provider is configured with. -/
def DiscoveriesNameIssuer (config : AdminConfig) (w : SsoWorld) (requests : List SsoRequest)
    (schedule : List (Turn SsoEvent)) : Prop :=
  ∀ i reply login, (ssoAfter config w requests schedule).Returned i reply →
    reply.login = some login → SameIssuer login.discovery.issuer login.provider.issuerUrl

section Runs

variable {config : AdminConfig} {facts : IdTokenFacts} {w : SsoWorld}
  {requests : List SsoRequest} {schedule : List (Turn SsoEvent)}

/-- A login sends the browser to the provider. -/
theorem loginOidcSteps_ends {providerId : String} {states : List SsoWorld} {reply : SsoReply}
    (h : (loginOidcSteps config providerId).Ends states reply) :
    ∃ url, reply = { redirect := .provider url } := by
  obtain ⟨sweeping, states, rfl, h⟩ := h.perform_bind
  obtain ⟨looking, states, rfl, h⟩ := h.observe_bind
  obtain ⟨provider, -, h⟩ := h.require_bind
  obtain ⟨discovering, states, discovery, rfl, -, h⟩ := Ends.awaiting_bind h
  obtain ⟨opening, states, rfl, h⟩ := h.perform_bind
  exact ⟨_, (ends_done.mp h).symm⟩

/-- The account holds throughout a run. -/
theorem flowsAccounted_after (hstart : Started w) (schedule : List (Turn SsoEvent)) :
    ∃ stages, (ssoAfter config w requests schedule).StagedBy (FlowSteps config) HoldsFlow stages ∧
      FlowsAccounted stages (ssoAfter config w requests schedule).state := by
  have hstaged : (ssoPool config w requests).StagedBy (FlowSteps config) HoldsFlow
      (List.replicate (ssoPool config w requests).threads.length none) := by
    refine stagedBy_replicate fun p hp => ?_
    obtain ⟨request, -, rfl⟩ := List.mem_map.mp hp
    cases request with
    | login providerId => exact loginOidcSteps_staged providerId
    | callback query => exact authCallbackSteps_staged query
  have hJ : FlowsAccounted (List.replicate (ssoPool config w requests).threads.length none) w := by
    refine ⟨fun entry => ?_, fun entry hentry => ?_⟩
    · rw [hstart.noFlows, hstart.noneOpened, List.count_replicate]
      simp
    · rw [hstart.noFlows] at hentry
      cases hentry
  refine @staged_after _ _ _ _ _ _ _ _ (fun _ _ => True) _ _ _ (flowsAccounted_kept config)
    flowsAccounted_world ⟨_, hstaged, hJ⟩ schedule ?_
  exact Machine.allSteps_of_forall _ (fun _ _ => trivial) _ _

/-- The sessions on a flow are held by their requests. -/
theorem countP_restsOn_le {threads : List (SsoProg SsoReply)} {stages : List Held}
    (h : List.Forall₂ (Staged (FlowSteps config) HoldsFlow) threads stages)
    (entry : String × FlowState) :
    threads.countP (restsOn entry) ≤ stages.count (some entry) := by
  induction h with
  | nil => exact Nat.le_refl _
  | @cons p t threads stages hhead htail ih =>
      rw [List.countP_cons, List.count_cons]
      by_cases hrests : restsOn entry p = true
      · have hheld : t = some entry := by
          cases p with
          | done reply =>
              cases hlogin : reply.login with
              | none => simp [restsOn, hlogin] at hrests
              | some login =>
                  have hentry : (login.csrfState, login.flow) = entry := by
                    simpa [restsOn, hlogin] using hrests
                  exact (hhead.looks login hlogin).trans (congrArg some hentry)
          | fail e => cases hrests
          | step act next => cases hrests
        subst hheld
        simp only [hrests, ↓reduceIte, beq_self_eq_true]
        omega
      · rw [if_neg hrests]
        omega

/-- **A flow is consumed once**, however the requests interleave. -/
theorem flows_within_opened (hstart : Started w) (entry : String × FlowState) :
    (ssoAfter config w requests schedule).threads.countP (restsOn entry) ≤
      (ssoAfter config w requests schedule).state.opened.count entry := by
  obtain ⟨stages, hstaged, hJ⟩ := @flowsAccounted_after config w requests hstart schedule
  have hcounted := hJ.counted entry
  have hheld := countP_restsOn_le hstaged entry
  omega

/-- A request that has returned is one of the pool. -/
theorem request_of_returned {i : Nat} {reply : SsoReply}
    (h : (ssoAfter config w requests schedule).Returned i reply) :
    ∃ request, requests[i]? = some request ∧ (request.program config).Ends
      ((ssoPool config w requests).turnsOf SsoWorld.happens i schedule) reply := by
  cases hrequest : requests[i]? with
  | none =>
      have hnone : (ssoPool config w requests).threads[i]? = none := by
        simp [ssoPool, hrequest]
      rw [ssoAfter, Pool.Returned, threads_after, hnone] at h
      cases h
  | some request =>
      refine ⟨request, rfl, h.ends ?_⟩
      simp [ssoPool, hrequest]

/-- What is behind a session of a run, but for the configured issuer. -/
theorem verifiedLogin_of_returned (hjwt : ChecksIdTokens config.oidcPlatform facts)
    (hstart : Started w) {i : Nat} {reply : SsoReply}
    (h : (ssoAfter config w requests schedule).Returned i reply) :
    (∃ url, reply = { redirect := .provider url }) ∨
    ∃ m login token username,
      reply = { redirect := .session token username, login := some login } ∧
      m.list.Sublist ((ssoPool config w requests).turnsOf SsoWorld.happens i schedule) ∧
      LoginVerified config facts m login token username ∧
      login.flow.created ≤ m.taking.now := by
  obtain ⟨request, -, hends⟩ := request_of_returned h
  cases request with
  | login providerId => exact Or.inl (loginOidcSteps_ends hends)
  | callback query =>
      obtain ⟨m, login, token, username, rfl, hmoments, hverified⟩ :=
        verifiedLogin_of_ends hjwt hends
      refine Or.inr ⟨m, login, token, username, rfl, hmoments, hverified, ?_⟩
      -- The flow was in the table when it was taken, and flows in the table were opened before.
      have htaking : m.taking ∈
          (ssoPool config w requests).turnsOf SsoWorld.happens i schedule :=
        hmoments.subset (List.mem_cons_self ..)
      obtain ⟨before, rest, -, hstate⟩ :=
        @mem_turnsOf _ _ _ _ _ (ssoPool config w requests) _ _ _ _ htaking
      obtain ⟨stages, -, hJ⟩ := @flowsAccounted_after config w requests hstart before
      rw [ssoAfter, hstate] at hJ
      obtain ⟨left, right, hflows, -⟩ := List.lookup_eq_some_iff.mp hverified.taken
      exact hJ.past (login.csrfState, login.flow) (by rw [hflows]; simp)

/-- **The login behind every session.**  From the start of the server on, however
logins, callbacks and changes of the providers interleave and whatever the
endpoints answer, every session is backed by a fresh verified login of its own
exactly when every discovery document that a session rests on names the issuer
that the provider is configured with. -/
theorem sessions_backed_iff (hjwt : ChecksIdTokens config.oidcPlatform facts)
    (hstart : Started w) (requests : List SsoRequest) (schedule : List (Turn SsoEvent)) :
    SessionsBacked config facts w requests schedule ↔
      DiscoveriesNameIssuer config w requests schedule := by
  constructor
  · intro hbacked i reply login hreturned hlogin
    rcases verifiedLogin_of_returned hjwt hstart hreturned with
      ⟨url, rfl⟩ | ⟨m, login', token, username, rfl, hmoments, hverified, hpast⟩
    · cases hlogin
    · obtain rfl := Option.some.inj hlogin
      obtain ⟨m', login, hsame, -, hverified', -, hissuer⟩ :=
        hbacked.backed i _ token username hreturned rfl
      obtain rfl := Option.some.inj hsame
      rw [← hverified'.issued]
      exact hissuer
  · intro hnamed
    refine ⟨flows_within_opened hstart, fun i reply token username hreturned hsession => ?_⟩
    rcases verifiedLogin_of_returned hjwt hstart hreturned with
      ⟨url, rfl⟩ | ⟨m, login, token', username', rfl, hmoments, hverified, hpast⟩
    · cases hsession
    · obtain ⟨rfl, rfl⟩ := Redirect.session.inj hsession
      refine ⟨m, login, rfl, hmoments, hverified, hpast, ?_⟩
      rw [hverified.issued]
      exact hnamed i _ login hreturned rfl

end Runs

/-! ## A document that names another issuer -/

/-- What ID tokens say in the runs below: one key signs them, for the client `strix`. -/
def tokensOf (issuer : String) : IdTokenFacts where
  signed _ key _ := key = ("n", "AQAB")
  aud _ := "strix"
  iss _ := issuer
  exp _ := 3600 * 1000000000
  leeway := 60 * 1000000000

/-- A library that accepts the tokens of an issuer, under their key and until they expire. -/
def acceptingTokensOf (issuer : String) : AdminConfig :=
  { rootLogin with
    oidcPlatform :=
      { rootLogin.oidcPlatform with
        decodeIdToken := fun now _ key _ audience expected =>
          if key = ("n", "AQAB") ∧ audience = "strix" ∧ expected = issuer ∧
              now ≤ 3660 * 1000000000 then
            .ok { sub := "1", preferredUsername := some "root", nonce := some "nonce" }
          else .error (.oidc "id_token verification failed")
        randomToken := fun draw => if draw = 0 then "state" else "nonce" } }

theorem checksIdTokens_acceptingTokensOf (issuer : String) :
    ChecksIdTokens (acceptingTokensOf issuer).oidcPlatform (tokensOf issuer) := by
  have hdecoded : ∀ {now : DateTime} {idToken : String} {key : String × String}
      {alg : Algorithm} {audience expected : String} {claims : OidcClaims},
      (acceptingTokensOf issuer).oidcPlatform.decodeIdToken now idToken key alg audience expected =
        .ok claims →
      key = ("n", "AQAB") ∧ audience = "strix" ∧ expected = issuer ∧
        now ≤ 3660 * 1000000000 := by
    intro now idToken key alg audience expected claims h
    by_contra hrefused
    simp only [acceptingTokensOf, if_neg hrefused] at h
    cases h
  exact
    { signed := fun h => (hdecoded h).1
      aud := fun h => (hdecoded h).2.1.symm
      iss := fun h => (hdecoded h).2.2.1.symm
      exp := fun h => (hdecoded h).2.2.2 }

/-- A server with one provider, `https://idp`, whose discovery document names an issuer. -/
def serverNaming (issuer : String) : SsoWorld where
  admin := { rootAdmin with flows := [] }
  now := 0
  endpoints :=
    { getDiscovery := fun _ => .ok
        ⟨issuer, "https://idp/auth", "https://idp/token", "https://idp/jwks"⟩
      postToken := fun _ _ => .ok (some "id-token")
      getJwks := fun _ => .ok [{ kty := some "RSA", n := some "n", e := some "AQAB" }] }

theorem started_serverNaming (issuer : String) : Started (serverNaming issuer) := ⟨rfl, rfl⟩

/-- A login and its callback. -/
def oneLogin : List SsoRequest := [.login "idp", .callback rootQuery]

def oneAfterTheOther : List (Turn SsoEvent) :=
  List.replicate 4 (.thread 0) ++ List.replicate 8 (.thread 1)

/-- The equivalence for a document that names the configured issuer with a slash. -/
theorem sessions_backed_trailingSlash :
    SessionsBacked (acceptingTokensOf "https://idp/") (tokensOf "https://idp/")
        (serverNaming "https://idp/") oneLogin oneAfterTheOther ↔
      DiscoveriesNameIssuer (acceptingTokensOf "https://idp/") (serverNaming "https://idp/")
        oneLogin oneAfterTheOther :=
  sessions_backed_iff (checksIdTokens_acceptingTokensOf _) (started_serverNaming _) oneLogin
    oneAfterTheOther

/-- What the callback ends with where document and token name `https://evil`. -/
def evilReply : SsoReply where
  redirect := .session "eyJ" "root"
  login := some
    { csrfState := "state"
      flow := { nonce := "nonce", providerId := "idp", created := 0 }
      provider :=
        { id := "idp", enabled := true, issuerUrl := "https://idp", clientId := "strix",
          clientSecret := "secret", redirectUri := "https://strix",
          scopes := ["openid", "email", "profile"], usernameClaim := "preferred_username",
          autoCreateUsers := true, defaultPolicy := none }
      discovery :=
        ⟨"https://evil", "https://idp/auth", "https://idp/token", "https://idp/jwks"⟩
      code := "code"
      idToken := "id-token"
      jwks := [{ kty := some "RSA", n := some "n", e := some "AQAB" }]
      claims := { sub := "1", preferredUsername := some "root", nonce := some "nonce" } }

theorem evilReply_returned :
    (ssoAfter (acceptingTokensOf "https://evil") (serverNaming "https://evil") oneLogin
      oneAfterTheOther).Returned 1 evilReply := rfl

/-- **A session on another issuer's token.** -/
theorem session_of_other_issuer :
    ¬ ∀ (config : AdminConfig) (facts : IdTokenFacts), ChecksIdTokens config.oidcPlatform facts →
      ∀ w, Started w → ∀ requests schedule, SessionsBacked config facts w requests schedule := by
  intro hall
  have hbacked := hall _ _ (checksIdTokens_acceptingTokensOf "https://evil") _
    (started_serverNaming "https://evil") oneLogin oneAfterTheOther
  obtain ⟨m, login, hlogin, -, -, -, hissuer⟩ :=
    hbacked.backed 1 evilReply "eyJ" "root" evilReply_returned rfl
  obtain rfl := Option.some.inj hlogin
  exact absurd hissuer (by decide)

end Strix

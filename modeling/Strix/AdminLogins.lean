import Strix.IamCalls
import Strix.OidcLogin

/-!
# Logging in to the admin API

`login` takes an access key and its secret, `loginWithPassword` a user name and
a password; both make a session token for the user they find.  The answer of the
persistent rate limiter is an input here.

`login_parts` and `loginWithPassword_parts` say whose token it is.
-/

namespace Strix

/-- What the admin server is configured with: the keys of the IAM store, the
platform of single sign-on, the session tokens and the check of a password
against its hash. -/
structure LoginConfig where
  keys : IamKeys
  oidcPlatform : OidcPlatform
  session : SessionConfig
  verifyPassword : String → String → Except IamError Bool

/-- The configuration that single sign-on sees. -/
def LoginConfig.sso (config : LoginConfig) : AdminConfig where
  iamPlatform := config.keys.platform
  oidcPlatform := config.oidcPlatform
  session := config.session

/-- The token of a session and the user name it is handed out for. -/
structure Session where
  token : String
  username : String
  deriving DecidableEq, Repr

namespace IamStore

/-- Root authenticates against the configured password, users against their hash. -/
def verifyUserPassword (iam : IamStore) (config : LoginConfig) (now : DateTime)
    (username password : String) : Except IamError Bool :=
  if username = iam.rootAccessKey then .ok (password == iam.rootSecretKey)
  else do
    let user ← iam.getUser now username
    match user.passwordHash with
    | some hash => config.verifyPassword password hash
    | none => .ok false

end IamStore

/-- The refusal of an address that is locked out. -/
def tooManyLogins : AdminError :=
  ⟨429, "Too many failed login attempts. Please try again later."⟩

def invalidLogin : AdminError := ⟨401, "Invalid credentials"⟩

/-- `POST /login`.  The last use of the key is noted. -/
def login (config : LoginConfig) (now : DateTime) (locked : Bool)
    (accessKeyId secretAccessKey : String) (iam : IamStore) :
    Except AdminError Session × IamStore :=
  if locked then (.error tooManyLogins, iam)
  else
    match iam.getCredentials config.keys.platform now accessKeyId with
    | .ok (some (accessKey, user)) =>
      if accessKey.secretAccessKey = some secretAccessKey then
        let iam := iam.updateAccessKeyLastUsed now accessKeyId
        match config.session.createToken now user.username accessKey.accessKeyId
            user.isRoot with
        | .ok token => (.ok { token := token, username := user.username }, iam)
        | .error e => (.error ⟨500, "Failed to create session: " ++ e⟩, iam)
      else (.error invalidLogin, iam)
    | .ok none => (.error invalidLogin, iam)
    | .error _ => (.error ⟨500, "Authentication error"⟩, iam)

/-- `POST /login/password`: the user must be active. -/
def loginWithPassword (config : LoginConfig) (now : DateTime) (locked : Bool)
    (username password : String) (iam : IamStore) : Except AdminError Session :=
  if locked then .error tooManyLogins
  else
    match iam.verifyUserPassword config now username password with
    | .ok true =>
      match iam.getUser now username with
      | .ok user =>
        if user.status ≠ .active then .error ⟨401, "User account is not active"⟩
        else
          match config.session.createToken now user.username "password-auth" user.isRoot with
          | .ok token => .ok { token := token, username := user.username }
          | .error e => .error ⟨500, "Failed to create session: " ++ e⟩
      | .error _ => .error invalidLogin
    | .ok false => .error invalidLogin
    | .error _ => .error ⟨500, "Authentication error"⟩

/-! ## Whose token it is -/

namespace IamStore

/-- **The user is there and active.** -/
def Live (iam : IamStore) (username : String) : Prop :=
  ∃ u ∈ iam.db.users, u.username = username ∧ u.status = .active

/-- The user is there but inactive. -/
def Deactivated (iam : IamStore) (username : String) : Prop :=
  ∃ u ∈ iam.db.users, u.username = username ∧ u.status = .inactive

instance (iam : IamStore) (username : String) : Decidable (iam.Live username) :=
  inferInstanceAs (Decidable (∃ u ∈ iam.db.users, u.username = username ∧ u.status = .active))

instance (iam : IamStore) (username : String) : Decidable (iam.Deactivated username) :=
  inferInstanceAs (Decidable
    (∃ u ∈ iam.db.users, u.username = username ∧ u.status = .inactive))

/-- The root user, or a live user's row. -/
def RootOrLive (iam : IamStore) (user : User) : Prop :=
  iam.isRootName user.username = true ∨
    user ∈ iam.db.users ∧ user.status = .active

/-- A user who is there is live or deactivated. -/
theorem live_or_deactivated {iam : IamStore} {username : String} (h : iam.HasUser username) :
    iam.Live username ∨ iam.Deactivated username := by
  obtain ⟨u, hu, hsame⟩ := h
  cases hstatus : u.status with
  | active => exact .inl ⟨u, hu, hsame, hstatus⟩
  | inactive => exact .inr ⟨u, hu, hsame, hstatus⟩

/-- Not both: a user name has one row. -/
theorem Live.not_deactivated {iam : IamStore} {username : String} (h : iam.Live username)
    (hsound : iam.Sound) : ¬iam.Deactivated username := by
  intro hinactive
  obtain ⟨u, hu, hname, hactive⟩ := h
  obtain ⟨v, hv, hsame, hstatus⟩ := hinactive
  obtain rfl := hsound.usersKeyed.eq_of_mem hu hv (hname.trans hsame.symm)
  rw [hactive] at hstatus
  exact absurd hstatus (by decide)

/-- What `get_user` finds. -/
theorem getUser_parts {iam : IamStore} {now : DateTime} {username : String} {user : User}
    (h : iam.getUser now username = .ok user) :
    iam.isRootName username = true ∧ user = User.rootWithUsername iam.rootAccessKey now ∨
      iam.isRootName username = false ∧ user ∈ iam.db.users ∧ user.username = username := by
  unfold getUser at h
  cases hroot : iam.isRootName username with
  | true =>
      rw [hroot] at h
      exact .inl ⟨rfl, (Except.ok.inj h).symm⟩
  | false =>
      rw [hroot] at h
      cases hfind : iam.db.users.find? (·.username == username) with
      | none => simp [hfind] at h
      | some found =>
          simp only [hfind, Bool.false_eq_true, ↓reduceIte, Except.ok.injEq] at h
          subst h
          have hsame := List.find?_some hfind
          exact .inr ⟨rfl, List.mem_of_find?_eq_some hfind, eq_of_beq hsame⟩

/-- The configured name of root is one of root's names. -/
theorem isRootName_rootAccessKey (iam : IamStore) :
    iam.isRootName iam.rootAccessKey = true := by
  simp [isRootName]

/-- The active key and the active user that `get_credentials` finds. -/
theorem getCredentials_parts {iam : IamStore} {platform : IamPlatform} {now : DateTime}
    {accessKeyId : String} {accessKey : AccessKey} {user : User}
    (h : iam.getCredentials platform now accessKeyId = .ok (some (accessKey, user))) :
    iam.RootOrLive user := by
  unfold getCredentials at h
  by_cases hroot : accessKeyId = iam.rootAccessKey
  · rw [if_pos hroot] at h
    simp only [Except.ok.injEq, Option.some.injEq, Prod.mk.injEq] at h
    obtain ⟨-, rfl⟩ := h
    exact .inl rfl
  · rw [if_neg hroot] at h
    dsimp only at h
    split at h
    · simp at h
    · rename_i k u hfind
      have hmem := List.mem_of_find?_eq_some hfind
      have hmatch := List.find?_some hfind
      obtain ⟨row, -, hjoin⟩ := List.mem_flatMap.mp hmem
      obtain ⟨v, hv, hpair⟩ := List.mem_map.mp hjoin
      obtain ⟨-, rfl⟩ := Prod.mk.inj hpair
      simp only [Bool.and_eq_true, beq_iff_eq] at hmatch
      cases hsecret : platform.decryptSecret k.secretAccessKeyEncrypted with
      | error e => simp [hsecret, bind, Except.bind] at h
      | ok secret =>
          simp only [hsecret, bind, Except.bind, Except.ok.injEq, Option.some.injEq,
            Prod.mk.injEq] at h
          obtain ⟨-, rfl⟩ := h
          exact .inr ⟨List.mem_of_mem_filter hv, hmatch.2⟩

end IamStore

/-- **What is behind a token of `login`**: root or a live user, of whose name and
flag it was made. -/
theorem login_parts {config : LoginConfig} {now : DateTime} {locked : Bool}
    {accessKeyId secret : String} {iam : IamStore} {session : Session}
    (h : (login config now locked accessKeyId secret iam).1 = .ok session) :
    ∃ user keyId, iam.RootOrLive user ∧ session.username = user.username ∧
      config.session.createToken now user.username keyId user.isRoot = .ok session.token := by
  unfold login at h
  cases locked with
  | true => simp at h
  | false =>
      cases hfound : iam.getCredentials config.keys.platform now accessKeyId with
      | error e => simp [hfound] at h
      | ok found =>
          cases found with
          | none => simp [hfound] at h
          | some pair =>
              obtain ⟨accessKey, user⟩ := pair
              simp only [hfound, Bool.false_eq_true, ↓reduceIte] at h
              by_cases hsecret : accessKey.secretAccessKey = some secret
              · rw [if_pos hsecret] at h
                cases hmint : config.session.createToken now user.username
                    accessKey.accessKeyId user.isRoot with
                | error e => simp [hmint] at h
                | ok token =>
                    simp only [hmint, Except.ok.injEq] at h
                    subst h
                    exact ⟨user, _, IamStore.getCredentials_parts hfound, rfl, hmint⟩
              · rw [if_neg hsecret] at h
                simp at h

/-- Logging in changes no user. -/
theorem users_login (config : LoginConfig) (now : DateTime) (locked : Bool)
    (accessKeyId secret : String) (iam : IamStore) :
    (login config now locked accessKeyId secret iam).2 = iam ∨
      (login config now locked accessKeyId secret iam).2 =
        iam.updateAccessKeyLastUsed now accessKeyId := by
  unfold login
  cases locked with
  | true => exact .inl rfl
  | false =>
      cases iam.getCredentials config.keys.platform now accessKeyId with
      | error e => exact .inl rfl
      | ok found =>
          cases found with
          | none => exact .inl rfl
          | some pair =>
              obtain ⟨accessKey, user⟩ := pair
              dsimp only
              by_cases hsecret : accessKey.secretAccessKey = some secret
              · simp only [hsecret, Bool.false_eq_true, ↓reduceIte]
                cases config.session.createToken now user.username accessKey.accessKeyId
                    user.isRoot with
                | error e => exact .inr rfl
                | ok token => exact .inr rfl
              · simp only [hsecret, Bool.false_eq_true, ↓reduceIte]
                exact .inl trivial

/-- **What is behind a token of `loginWithPassword`**: the same. -/
theorem loginWithPassword_parts {config : LoginConfig} {now : DateTime} {locked : Bool}
    {username password : String} {iam : IamStore} {session : Session}
    (h : loginWithPassword config now locked username password iam = .ok session) :
    ∃ user keyId, iam.RootOrLive user ∧ session.username = user.username ∧
      config.session.createToken now user.username keyId user.isRoot = .ok session.token := by
  unfold loginWithPassword at h
  cases locked with
  | true => simp at h
  | false =>
      cases hverify : iam.verifyUserPassword config now username password with
      | error e => simp [hverify] at h
      | ok verified =>
          cases verified with
          | false => simp [hverify] at h
          | true =>
              cases hget : iam.getUser now username with
              | error e => simp [hverify, hget] at h
              | ok user =>
                  simp only [hverify, hget, Bool.false_eq_true, ↓reduceIte] at h
                  by_cases hstatus : user.status ≠ .active
                  · rw [if_pos hstatus] at h
                    simp at h
                  · rw [if_neg hstatus] at h
                    cases hmint : config.session.createToken now user.username
                        "password-auth" user.isRoot with
                    | error e => simp [hmint] at h
                    | ok token =>
                        simp only [hmint, Except.ok.injEq] at h
                        subst h
                        refine ⟨user, _, ?_, rfl, hmint⟩
                        rcases IamStore.getUser_parts hget with ⟨-, rfl⟩ | ⟨-, hmem, -⟩
                        · exact .inl (IamStore.isRootName_rootAccessKey iam)
                        · exact .inr ⟨hmem, not_not.mp hstatus⟩

end Strix

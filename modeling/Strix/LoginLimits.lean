import Strix.AddressTexts
import Strix.AdminLogins
import Strix.RowTable

/-!
# Password logins and their failures

The admin server keeps the failed logins of each address in the table `rate_limits`,
where they outlive a restart.  `login_with_password` asks `is_rate_limited` first, and
tells `record_login_failure` of a wrong password.

Lengths of time that `chrono` cannot represent are left out: the server runs with the
defaults of `RateLimitConfig`.  Of an error response, the message is kept; the code is
the same in all responses here.

* `recordLoginFailure_ne`: a failure that is recorded shows in the table;
* `passwordLogin_session`: the handler makes the sessions of `loginWithPassword`;
* `passwordLogin_wrong`, `passwordLogin_error`: what it does where no password is verified.
-/

namespace Strix

open RowTable

/-! ## The table -/

/-- A row of `rate_limits`. -/
structure RateLimitRow where
  key : String
  attempts : Int32
  firstAttemptAt : String
  lockedUntil : Option String := none
  deriving DecidableEq, Repr

/-- Rate limiting configuration. -/
structure RateLimitConfig where
  maxAttempts : UInt32 := 5
  windowSecs : Nat := 60
  lockoutSecs : Nat := 15 * 60

/-- Rate limiting result. -/
structure RateLimitStatus where
  isLocked : Bool
  attempts : UInt32
  lockoutRemainingSecs : Option Nat
  deriving DecidableEq, Repr

/-- So many seconds, in the unit of `DateTime`. -/
def DateTime.ofSecs (secs : Nat) : DateTime := secs * 1000000000

theorem DateTime.sub_ofSecs_le (t : DateTime) (secs : Nat) : t - DateTime.ofSecs secs ≤ t :=
  Int.sub_le_self t (Int.mul_nonneg (Int.natCast_nonneg secs) (by decide))

namespace RateLimitRow

variable (platform : IamPlatform) (now : DateTime)

/-- The seconds for which the row is still locked, if it is. -/
def lockedFor (row : RateLimitRow) : Option Nat :=
  match row.lockedUntil.bind platform.parseRfc3339 with
  | some lockedDt =>
    if now < lockedDt then some ((lockedDt - now) / 1000000000).toNat else none
  | none => none

/-- The first attempt that the row counts. -/
def firstAttempt (row : RateLimitRow) : DateTime :=
  (platform.parseRfc3339 row.firstAttemptAt).getD now

/-- The attempts of the row are too old to count. -/
def isExpired (config : RateLimitConfig) (row : RateLimitRow) : Bool :=
  decide (row.firstAttempt platform now < now - DateTime.ofSecs config.windowSecs)

end RateLimitRow

section Table

variable (platform : IamPlatform) (config : RateLimitConfig) (key : String) (now : DateTime)

/-- `is_rate_limited`. -/
def isRateLimited (rows : List RateLimitRow) : RateLimitStatus :=
  match selectFirst (·.key == key) rows with
  | some row =>
    match row.lockedFor platform now with
    | some remaining =>
      { isLocked := true
        attempts := row.attempts.toUInt32
        lockoutRemainingSecs := some remaining }
    | none =>
      if row.isExpired platform now config then
        { isLocked := false, attempts := 0, lockoutRemainingSecs := none }
      else
        { isLocked := decide (config.maxAttempts.toInt32 ≤ row.attempts)
          attempts := row.attempts.toUInt32
          lockoutRemainingSecs := none }
  | none => { isLocked := false, attempts := 0, lockoutRemainingSecs := none }

/-- `record_login_failure`. -/
def recordLoginFailure (rows : List RateLimitRow) : RateLimitStatus × List RateLimitRow :=
  match selectFirst (·.key == key) rows with
  | some row =>
    match row.lockedFor platform now with
    | some remaining =>
      ({ isLocked := true
         attempts := row.attempts.toUInt32
         lockoutRemainingSecs := some remaining }, rows)
    | none =>
      if row.isExpired platform now config then
        ({ isLocked := false, attempts := 1, lockoutRemainingSecs := none },
          updateRows (·.key == key)
            (fun r =>
              { r with
                attempts := 1
                firstAttemptAt := platform.toRfc3339 now
                lockedUntil := none }) rows)
      else
        let newAttempts := row.attempts + 1
        if config.maxAttempts.toInt32 ≤ newAttempts then
          ({ isLocked := true
             attempts := newAttempts.toUInt32
             lockoutRemainingSecs := some config.lockoutSecs },
            updateRows (·.key == key)
              (fun r =>
                { r with
                  attempts := newAttempts
                  lockedUntil :=
                    some (platform.toRfc3339 (now + DateTime.ofSecs config.lockoutSecs)) }) rows)
        else
          ({ isLocked := false
             attempts := newAttempts.toUInt32
             lockoutRemainingSecs := none },
            updateRows (·.key == key) (fun r => { r with attempts := newAttempts }) rows)
  | none =>
    ({ isLocked := false, attempts := 1, lockoutRemainingSecs := none },
      insertRow { key := key, attempts := 1, firstAttemptAt := platform.toRfc3339 now } rows)

/-- `clear_login_attempts`. -/
def clearLoginAttempts (rows : List RateLimitRow) : List RateLimitRow :=
  deleteRows (·.key == key) rows

end Table

/-! ## The handler -/

/-- `Display` of an error of the IAM store. -/
def IamError.text : IamError → String
  | userExists username => "User already exists: " ++ username
  | userNotFound username => "User not found: " ++ username
  | accessKeyNotFound accessKeyId => "Access key not found: " ++ accessKeyId
  | policyNotFound name => "Policy not found: " ++ name
  | groupExists name => "Group already exists: " ++ name
  | groupNotFound name => "Group not found: " ++ name
  | cannotDeleteRoot => "Cannot delete root user"
  | cannotModifyRootKeys => "Cannot modify root user access keys through IAM"
  | maxAccessKeysExceeded => "Maximum access keys (2) per user exceeded"
  | database => "Database error"
  | passwordHash message => "Password hash error: " ++ message
  | invalidCredentials => "Invalid credentials"
  | encryption message => "Encryption error: " ++ message
  | oidc message => "OIDC error: " ++ message

/-- Login response with session token. -/
structure LoginResponse where
  token : String
  expiresAt : String
  username : String
  deriving DecidableEq, Repr

/-- Rate limit error response. -/
structure RateLimitResponse where
  error : String
  retryAfter : Nat
  deriving DecidableEq, Repr

/-- What a login is answered. -/
inductive LoginAnswer
  | ok (response : LoginResponse)
  | tooManyRequests (response : RateLimitResponse)
  | refused (error : AdminError)
  deriving DecidableEq, Repr

/-- The IAM store and its table of failed logins. -/
structure LoginState where
  iam : IamStore
  rateLimits : List RateLimitRow := []

/-- The key under which the failures of an address are kept. -/
def loginKey (ip : IpAddr) : String := "login:" ++ ip.toString

section Handler

variable (config : LoginConfig) (limits : RateLimitConfig) (now later : DateTime)

/-- A failed login is recorded, and refused. -/
def refuseLogin (ip : IpAddr) (s : LoginState) : LoginAnswer × LoginState :=
  (.refused invalidLogin,
    { s with rateLimits :=
        (recordLoginFailure config.keys.platform limits (loginKey ip) later s.rateLimits).2 })

/-- `login_with_password`.  The limit is checked and the password verified at one time;
the failure is recorded, or the token made, at a later one. -/
def passwordLogin (ip : IpAddr) (username password : String) (s : LoginState) :
    LoginAnswer × LoginState :=
  let status := isRateLimited config.keys.platform limits (loginKey ip) now s.rateLimits
  if status.isLocked then
    (.tooManyRequests
      { error := tooManyLogins.message
        retryAfter := status.lockoutRemainingSecs.getD 60 }, s)
  else
    match s.iam.verifyUserPassword config now username password with
    | .ok true =>
      match s.iam.getUser now username with
      | .ok user =>
        if user.status ≠ .active then (.refused ⟨401, "User account is not active"⟩, s)
        else
          let s := { s with rateLimits := clearLoginAttempts (loginKey ip) s.rateLimits }
          match config.session.createToken later user.username "password-auth" user.isRoot with
          | .ok token =>
            (.ok
              { token := token
                expiresAt :=
                  config.keys.platform.toRfc3339 (later + DateTime.ofSecs config.session.expiry)
                username := user.username }, s)
          | .error e => (.refused ⟨500, "Failed to create session: " ++ e⟩, s)
      | .error _ => refuseLogin config limits later ip s
    | .ok false => refuseLogin config limits later ip s
    | .error e => (.refused ⟨500, "Authentication error: " ++ e.text⟩, s)

end Handler

/-! ## What it does -/

section Facts

variable {platform : IamPlatform} {limits : RateLimitConfig} {key : String} {now later : DateTime}
  {rows : List RateLimitRow}

/-- A key that is not locked has no row that is. -/
theorem lockedFor_of_unlocked (h : (isRateLimited platform limits key now rows).isLocked = false)
    {row : RateLimitRow} (hrow : selectFirst (·.key == key) rows = some row) :
    row.lockedFor platform now = none := by
  cases hlocked : row.lockedFor platform now with
  | none => rfl
  | some remaining => simp [isRateLimited, hrow, hlocked] at h

/-- A row that is not locked stays so. -/
theorem lockedFor_later {row : RateLimitRow} (h : row.lockedFor platform now = none)
    (hlater : now ≤ later) : row.lockedFor platform later = none := by
  unfold RateLimitRow.lockedFor at h ⊢
  cases hparse : row.lockedUntil.bind platform.parseRfc3339 with
  | none => rfl
  | some lockedDt =>
      rw [hparse] at h
      by_cases hlt : now < lockedDt
      · simp [hlt] at h
      · have hnot : ¬later < lockedDt := fun hlt' => hlt (Int.lt_of_le_of_lt hlater hlt')
        simp [hnot]

/-- An update that changes a row shows in the table. -/
theorem updateRows_ne_self {ρ : Type} {p : ρ → Bool} {assign : ρ → ρ} {table : List ρ} {row : ρ}
    (hrow : row ∈ table) (hp : p row = true) (hassign : assign row ≠ row) :
    updateRows p assign table ≠ table := by
  intro hsame
  have hkept := List.map_inj_left.mp (hsame.trans (List.map_id table).symm) row hrow
  rw [if_pos hp, id] at hkept
  exact hassign hkept

/-- **A failure that is recorded shows in the table**, if the key was not locked and the
time that is recorded reads back. -/
theorem recordLoginFailure_ne
    (h : (isRateLimited platform limits key now rows).isLocked = false) (hlater : now ≤ later)
    (hreads : platform.parseRfc3339 (platform.toRfc3339 later) = some later) :
    (recordLoginFailure platform limits key later rows).2 ≠ rows := by
  unfold recordLoginFailure
  cases hselect : selectFirst (·.key == key) rows with
  | none =>
      intro hsame
      have hlength := congrArg List.length hsame
      simp [insertRow] at hlength
  | some row =>
      obtain ⟨hmem, hkey⟩ := selectFirst_some hselect
      have hunlocked := lockedFor_later (lockedFor_of_unlocked h hselect) hlater
      have hcount : row.attempts + 1 ≠ row.attempts := by
        intro hsame
        exact absurd (Int32.add_eq_left.mp hsame) (by decide)
      simp only [hunlocked]
      cases hexpired : row.isExpired platform later limits with
      | true =>
          refine updateRows_ne_self hmem hkey fun hsame => ?_
          -- the first attempt would be the present one, and expired already
          have hfirst : row.firstAttemptAt = platform.toRfc3339 later :=
            (congrArg RateLimitRow.firstAttemptAt hsame).symm
          simp only [RateLimitRow.isExpired, RateLimitRow.firstAttempt, hfirst, hreads,
            Option.getD_some, decide_eq_true_eq] at hexpired
          exact Int.not_lt.mpr (later.sub_ofSecs_le limits.windowSecs) hexpired
      | false =>
          simp only [Bool.false_eq_true, if_false]
          split
          · exact updateRows_ne_self hmem hkey fun hsame =>
              hcount (congrArg RateLimitRow.attempts hsame)
          · exact updateRows_ne_self hmem hkey fun hsame =>
              hcount (congrArg RateLimitRow.attempts hsame)

end Facts

/-- The session of an answer. -/
def LoginAnswer.session : LoginAnswer → Option Session
  | ok response => some { token := response.token, username := response.username }
  | tooManyRequests _ => none
  | refused _ => none

section Logins

variable {config : LoginConfig} {limits : RateLimitConfig} {now later : DateTime} {ip : IpAddr}
  {username password : String} {s : LoginState}

/-- **The sessions of the handler** are those of `loginWithPassword`. -/
theorem passwordLogin_session :
    (passwordLogin config limits now now ip username password s).1.session =
      (loginWithPassword config now
        (isRateLimited config.keys.platform limits (loginKey ip) now s.rateLimits).isLocked
        username password s.iam).toOption := by
  unfold passwordLogin loginWithPassword
  cases hlocked :
      (isRateLimited config.keys.platform limits (loginKey ip) now s.rateLimits).isLocked with
  | true =>
      simp only [hlocked, if_true]
      rfl
  | false =>
      simp only [hlocked, Bool.false_eq_true, if_false]
      cases s.iam.verifyUserPassword config now username password with
      | error e => rfl
      | ok verified =>
          cases verified with
          | false => rfl
          | true =>
              cases s.iam.getUser now username with
              | error e => rfl
              | ok user =>
                  by_cases hactive : user.status = .active
                  · simp only [hactive, ne_eq, not_true, if_false]
                    cases config.session.createToken now user.username "password-auth"
                        user.isRoot with
                    | error e => rfl
                    | ok token => rfl
                  · simp only [ne_eq, hactive, not_false_eq_true, if_true]
                    rfl

variable (hunlocked :
  (isRateLimited config.keys.platform limits (loginKey ip) now s.rateLimits).isLocked = false)
include hunlocked

/-- **A wrong password** is recorded and refused. -/
theorem passwordLogin_wrong
    (hverify : s.iam.verifyUserPassword config now username password = .ok false) :
    passwordLogin config limits now later ip username password s =
      refuseLogin config limits later ip s := by
  simp only [passwordLogin, hunlocked, Bool.false_eq_true, if_false, hverify]

/-- **What cannot be verified** is answered with the error, and not recorded. -/
theorem passwordLogin_error {e : IamError}
    (hverify : s.iam.verifyUserPassword config now username password = .error e) :
    passwordLogin config limits now later ip username password s =
      (.refused ⟨500, "Authentication error: " ++ e.text⟩, s) := by
  simp only [passwordLogin, hunlocked, Bool.false_eq_true, if_false, hverify]

end Logins

end Strix

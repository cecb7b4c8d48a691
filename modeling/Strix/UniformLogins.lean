import Strix.LoginLimits
import Strix.SessionLife

/-!
# Whether failed logins are alike

A wrong password is recorded and refused with "Invalid credentials".  A user name that
the store does not know, or a password hash that cannot be read, is an error of
`verify_user_password`: the handler answers with the error, and does not record it.

* `verify_false_iff`: which failures are wrong passwords;
* `failedLogins_alike_iff`: which failures look alike from one address;
* `failedLogins_uniform_iff`: which failures look alike and are recorded.
-/

namespace Strix

section Verification

variable {config : LoginConfig} {now : DateTime} {iam : IamStore} {username password : String}

/-- **The password can be compared**: there is a user of the name, root included, and the
password hash of the user, if any, can be read. -/
def Comparable (config : LoginConfig) (now : DateTime) (iam : IamStore)
    (username password : String) : Prop :=
  ∃ user, iam.getUser now username = .ok user ∧
    ∀ hash, user.passwordHash = some hash →
      ∃ verified, config.verifyPassword password hash = .ok verified

/-- Root's name is known, and no hash is kept of the password. -/
theorem comparable_root (h : iam.isRootName username = true) :
    Comparable config now iam username password := by
  refine ⟨User.rootWithUsername iam.rootAccessKey now, by simp [IamStore.getUser, h], ?_⟩
  intro hash hhash
  cases hhash

section Verified

variable (hroot : username ≠ iam.rootAccessKey)
include hroot

theorem verify_unknown {e : IamError} (huser : iam.getUser now username = .error e) :
    iam.verifyUserPassword config now username password = .error e := by
  rw [IamStore.verifyUserPassword, if_neg hroot, huser]
  rfl

theorem verify_noHash {user : User} (huser : iam.getUser now username = .ok user)
    (hhash : user.passwordHash = none) :
    iam.verifyUserPassword config now username password = .ok false := by
  rw [IamStore.verifyUserPassword, if_neg hroot, huser]
  simp only [bind, Except.bind, hhash]

theorem verify_hash {user : User} {hash : String} (huser : iam.getUser now username = .ok user)
    (hhash : user.passwordHash = some hash) :
    iam.verifyUserPassword config now username password =
      config.verifyPassword password hash := by
  rw [IamStore.verifyUserPassword, if_neg hroot, huser]
  simp only [bind, Except.bind, hhash]

end Verified

/-- **What cannot be compared is an error**, and nothing else is. -/
theorem verify_error_iff :
    (∃ e, iam.verifyUserPassword config now username password = .error e) ↔
      ¬Comparable config now iam username password := by
  by_cases hroot : username = iam.rootAccessKey
  · have hname : iam.isRootName username = true := by simp [IamStore.isRootName, hroot]
    simp [IamStore.verifyUserPassword, hroot, comparable_root (hroot ▸ hname)]
  · cases huser : iam.getUser now username with
    | error e =>
        have hnot : ¬Comparable config now iam username password := by
          rintro ⟨user, huser', -⟩
          rw [huser] at huser'
          cases huser'
        simp [verify_unknown hroot huser, hnot]
    | ok user =>
        cases hhash : user.passwordHash with
        | none =>
            have hgood : Comparable config now iam username password :=
              ⟨user, huser, fun hash hhash' => by rw [hhash] at hhash'; cases hhash'⟩
            simp [verify_noHash hroot huser hhash, hgood]
        | some hash =>
            have hcomparable : Comparable config now iam username password ↔
                ∃ verified, config.verifyPassword password hash = .ok verified := by
              constructor
              · rintro ⟨user', huser', hread⟩
                rw [huser] at huser'
                cases huser'
                exact hread hash hhash
              · intro hread
                refine ⟨user, huser, fun hash' hhash' => ?_⟩
                rw [hhash] at hhash'
                cases hhash'
                exact hread
            rw [hcomparable, verify_hash hroot huser hhash]
            cases config.verifyPassword password hash <;> simp

/-- **A failure is a wrong password** exactly if the password can be compared. -/
theorem verify_false_iff
    (hfails : iam.verifyUserPassword config now username password ≠ .ok true) :
    iam.verifyUserPassword config now username password = .ok false ↔
      Comparable config now iam username password := by
  rw [← not_not (a := Comparable config now iam username password), ← verify_error_iff]
  cases hverify : iam.verifyUserPassword config now username password with
  | error e => simp
  | ok verified =>
      cases verified with
      | false => simp
      | true => exact absurd hverify hfails

end Verification

/-! ## Two failures -/

/-- An attempt to log in with a password. -/
structure LoginAttempt where
  ip : IpAddr
  username : String
  password : String

section Failures

variable (config : LoginConfig) (limits : RateLimitConfig) (now later : DateTime)

/-- The attempt is made. -/
def LoginAttempt.run (attempt : LoginAttempt) (s : LoginState) : LoginAnswer × LoginState :=
  passwordLogin config limits now later attempt.ip attempt.username attempt.password s

/-- **The attempt fails**: its address is not locked out, and the password is not
verified. -/
structure LoginAttempt.Fails (attempt : LoginAttempt) (s : LoginState) : Prop where
  unlocked :
    (isRateLimited config.keys.platform limits (loginKey attempt.ip) now
      s.rateLimits).isLocked = false
  unverified : s.iam.verifyUserPassword config now attempt.username attempt.password ≠ .ok true

/-- The attempt is recorded as a failure of its address. -/
def LoginAttempt.IsRecorded (attempt : LoginAttempt) (s : LoginState) : Prop :=
  (attempt.run config limits now later s).2.rateLimits =
    (recordLoginFailure config.keys.platform limits (loginKey attempt.ip) later
      s.rateLimits).2

/-- The password of the attempt can be compared. -/
def LoginAttempt.IsComparable (attempt : LoginAttempt) (s : LoginState) : Prop :=
  Comparable config now s.iam attempt.username attempt.password

/-- **The failures are uniform**: they get the same answer, and both are recorded. -/
structure UniformFailures (attempt attempt' : LoginAttempt) (s : LoginState) : Prop where
  answer : (attempt.run config limits now later s).1 = (attempt'.run config limits now later s).1
  recorded : attempt.IsRecorded config limits now later s
  recorded' : attempt'.IsRecorded config limits now later s

end Failures

section Facts

variable {config : LoginConfig} {limits : RateLimitConfig} {now later : DateTime}
  {attempt attempt' : LoginAttempt} {s : LoginState}

/-- What can be compared is recorded, and refused. -/
theorem run_of_comparable (h : attempt.Fails config limits now s)
    (hcomparable : attempt.IsComparable config now s) :
    attempt.run config limits now later s = refuseLogin config limits later attempt.ip s :=
  passwordLogin_wrong h.unlocked ((verify_false_iff h.unverified).mpr hcomparable)

/-- What cannot be compared is answered with the error. -/
theorem run_of_not_comparable (h : attempt.Fails config limits now s)
    (hnot : ¬attempt.IsComparable config now s) :
    ∃ e, s.iam.verifyUserPassword config now attempt.username attempt.password = .error e ∧
      attempt.run config limits now later s =
        (.refused ⟨500, "Authentication error: " ++ e.text⟩, s) := by
  obtain ⟨e, hverify⟩ := verify_error_iff.mpr hnot
  exact ⟨e, hverify, passwordLogin_error h.unlocked hverify⟩

/-- The two answers differ in their status. -/
theorem refuseLogin_ne_error {ip : IpAddr} {message : String} :
    refuseLogin config limits later ip s ≠ (.refused ⟨500, message⟩, s) := by
  intro hsame
  have hstatus := congrArg AdminError.status (LoginAnswer.refused.inj (Prod.ext_iff.mp hsame).1)
  cases hstatus

/-- **A failure is recorded** exactly if the password can be compared. -/
theorem isRecorded_iff (h : attempt.Fails config limits now s) (hlater : now ≤ later)
    (hreads : config.keys.platform.parseRfc3339 (config.keys.platform.toRfc3339 later) =
      some later) :
    attempt.IsRecorded config limits now later s ↔ attempt.IsComparable config now s := by
  constructor
  · intro hrecorded
    by_contra hnot
    obtain ⟨e, -, hrun⟩ := run_of_not_comparable h hnot
    rw [LoginAttempt.IsRecorded, hrun] at hrecorded
    exact recordLoginFailure_ne h.unlocked hlater hreads hrecorded.symm
  · intro hcomparable
    rw [LoginAttempt.IsRecorded, run_of_comparable h hcomparable]
    rfl

/-- **Failures from one address look alike** exactly if both passwords can be compared, or
neither can and the errors read alike. -/
theorem failedLogins_alike_iff (h : attempt.Fails config limits now s)
    (h' : attempt'.Fails config limits now s) (hip : attempt.ip = attempt'.ip) :
    attempt.run config limits now later s = attempt'.run config limits now later s ↔
      (attempt.IsComparable config now s ∧ attempt'.IsComparable config now s) ∨
      ∃ e e', e.text = e'.text ∧
        s.iam.verifyUserPassword config now attempt.username attempt.password = .error e ∧
        s.iam.verifyUserPassword config now attempt'.username attempt'.password =
          .error e' := by
  constructor
  · intro hsame
    by_cases hcomparable : attempt.IsComparable config now s
    · by_cases hcomparable' : attempt'.IsComparable config now s
      · exact Or.inl ⟨hcomparable, hcomparable'⟩
      · obtain ⟨e, -, hrun'⟩ := run_of_not_comparable h' hcomparable'
        rw [run_of_comparable h hcomparable, hrun'] at hsame
        exact absurd hsame refuseLogin_ne_error
    · obtain ⟨e, hverify, hrun⟩ := run_of_not_comparable h hcomparable
      by_cases hcomparable' : attempt'.IsComparable config now s
      · rw [hrun, run_of_comparable h' hcomparable'] at hsame
        exact absurd hsame.symm refuseLogin_ne_error
      · obtain ⟨e', hverify', hrun'⟩ := run_of_not_comparable h' hcomparable'
        rw [hrun, hrun'] at hsame
        have htext := congrArg AdminError.message
          (LoginAnswer.refused.inj (Prod.ext_iff.mp hsame).1)
        exact Or.inr ⟨e, e', (String.append_right_inj _).mp htext, hverify, hverify'⟩
  · intro halike
    rcases halike with ⟨hcomparable, hcomparable'⟩ | ⟨e, e', htext, hverify, hverify'⟩
    · rw [run_of_comparable h hcomparable, run_of_comparable h' hcomparable', hip]
    · rw [LoginAttempt.run, LoginAttempt.run, passwordLogin_error h.unlocked hverify,
        passwordLogin_error h'.unlocked hverify', htext]

end Facts

/-- **Failed logins are uniform** exactly if both passwords can be compared: the store knows
the users, and can read their password hashes if there are any. -/
theorem failedLogins_uniform_iff (config : LoginConfig) (limits : RateLimitConfig)
    {now later : DateTime} (attempt attempt' : LoginAttempt) (s : LoginState)
    (h : attempt.Fails config limits now s) (h' : attempt'.Fails config limits now s)
    (hlater : now ≤ later)
    (hreads : config.keys.platform.parseRfc3339 (config.keys.platform.toRfc3339 later) =
      some later) :
    UniformFailures config limits now later attempt attempt' s ↔
      attempt.IsComparable config now s ∧ attempt'.IsComparable config now s := by
  constructor
  · intro huniform
    exact ⟨(isRecorded_iff h hlater hreads).mp huniform.recorded,
      (isRecorded_iff h' hlater hreads).mp huniform.recorded'⟩
  · intro ⟨hcomparable, hcomparable'⟩
    refine
      { answer := ?_
        recorded := (isRecorded_iff h hlater hreads).mpr hcomparable
        recorded' := (isRecorded_iff h' hlater hreads).mpr hcomparable' }
    rw [run_of_comparable h hcomparable, run_of_comparable h' hcomparable']
    rfl

/-- A server on which times are those of the epoch. -/
def epochConfig : LoginConfig where
  keys :=
    { plainKeys with
      platform :=
        { plainIamPlatform with
          toRfc3339 := fun _ => "1970-01-01T00:00:00+00:00"
          parseRfc3339 := fun _ => some 0 } }
  oidcPlatform := aliceConfig.oidcPlatform
  session := aliceConfig.session
  verifyPassword := aliceConfig.verifyPassword

/-- A store that knows `alice`, who has a password, and `carol`, who has none. -/
def aliceAndCarol : LoginState where
  iam :=
    { rootAccessKey := "ROOTKEY"
      rootSecretKey := "root-secret"
      db :=
        { users :=
            [{ User.create "alice" 0 with passwordHash := some "$argon2id$" },
              User.create "carol" 0] } }

/-- Somebody guesses a password. -/
def guessFor (username : String) : LoginAttempt where
  ip := .v4 0x7f000001
  username := username
  password := "guess"

/-- A wrong password, and a user without a password. -/
theorem failedLogins_uniform_known :
    UniformFailures epochConfig {} 0 0 (guessFor "alice") (guessFor "carol") aliceAndCarol :=
  (failedLogins_uniform_iff epochConfig {} (guessFor "alice") (guessFor "carol") aliceAndCarol
    ⟨by decide +kernel, by decide +kernel⟩ ⟨by decide +kernel, by decide +kernel⟩
    (by decide) rfl).mpr
    ⟨⟨_, rfl, fun _ _ => ⟨_, rfl⟩⟩, ⟨_, rfl, fun _ _ => ⟨_, rfl⟩⟩⟩

/-- **The answer tells who is there**: a guess for a user who is not is answered with an
error, and not recorded. -/
theorem failedLogins_reveal :
    (guessFor "alice").Fails epochConfig {} 0 aliceAndCarol ∧
      (guessFor "mallory").Fails epochConfig {} 0 aliceAndCarol ∧
      ((guessFor "alice").run epochConfig {} 0 0 aliceAndCarol).1 =
        .refused ⟨401, "Invalid credentials"⟩ ∧
      ((guessFor "alice").run epochConfig {} 0 0 aliceAndCarol).2.rateLimits.length = 1 ∧
      ((guessFor "mallory").run epochConfig {} 0 0 aliceAndCarol).1 =
        .refused ⟨500, "Authentication error: User not found: unknown"⟩ ∧
      ((guessFor "mallory").run epochConfig {} 0 0 aliceAndCarol).2.rateLimits = [] ∧
      ¬UniformFailures epochConfig {} 0 0 (guessFor "alice") (guessFor "mallory")
        aliceAndCarol := by
  refine ⟨⟨by decide +kernel, by decide +kernel⟩, ⟨by decide +kernel, by decide +kernel⟩,
    by decide +kernel, by decide +kernel, by decide +kernel, by decide +kernel, ?_⟩
  intro huniform
  exact absurd huniform.answer (by decide +kernel)

end Strix

import Strix.LoginLimits
import Strix.MachineRuns
import Strix.Rfc3339

/-!
# The lockout after failed logins

A failed login opens a window for its key if none is open, and the failures until the
window's end count towards the limit.  The failure that reaches it locks the key.

* `counting_opened`, `counting_counted`, `locked_counted`: what one failure does to the
  row of its key;
* `counting_after`: the row counts the failures of the window;
* `loginLockout`: the failure that reaches the limit locks the key for the time of the
  lockout, and what a failure reports is what `is_rate_limited` reports behind it;
* `slidingFailures_unlocked`: failures that lie close together in two windows do not
  lock the key, and a limit of one, or one beyond `i32`, is seen by one of the two
  functions only.
-/

namespace Strix

open MachineRuns RowTable

/-- The failed logins of one key, each at a time. -/
def failureMachine (platform : IamPlatform) (config : RateLimitConfig) (key : String) :
    Machine (List RateLimitRow) DateTime RateLimitStatus where
  init := []
  step rows now := recordLoginFailure platform config key now rows

/-- The text of the time is read back as the time. -/
def IamPlatform.ReadsBack (platform : IamPlatform) (t : DateTime) : Prop :=
  platform.parseRfc3339 (platform.toRfc3339 t) = some t

section Rows

variable {platform : IamPlatform} {config : RateLimitConfig} {key : String}
  {rows : List RateLimitRow} {now opening : DateTime}

/-- **A failure opens a window**: there is no row for the key, or it is not locked and
its attempts are too old. -/
def OpensWindow (platform : IamPlatform) (config : RateLimitConfig) (key : String)
    (now : DateTime) (rows : List RateLimitRow) : Prop :=
  ∀ row, selectFirst (·.key == key) rows = some row →
    row.lockedFor platform now = none ∧ row.isExpired platform now config = true

/-- The row of the key counts so many failures since the window was opened, and has not
locked the key. -/
def Counting (platform : IamPlatform) (key : String) (opening : DateTime) (n : Nat)
    (rows : List RateLimitRow) : Prop :=
  ∃ row, selectFirst (·.key == key) rows = some row ∧ row.attempts = .ofNat n ∧
    row.firstAttemptAt = platform.toRfc3339 opening ∧ row.lockedUntil = none

/-- The row of the key is locked until the time. -/
def LockedUntil (platform : IamPlatform) (key : String) (unlock : DateTime)
    (rows : List RateLimitRow) : Prop :=
  ∃ row, selectFirst (·.key == key) rows = some row ∧
    row.lockedUntil = some (platform.toRfc3339 unlock)

/-- The limit is compared as it is, if it fits into `i32`. -/
theorem maxAttempts_le_iff (hfits : config.maxAttempts.toNat < 2 ^ 31) {n : Nat}
    (hn : n < 2 ^ 31) :
    config.maxAttempts.toInt32 ≤ Int32.ofNat n ↔ config.maxAttempts.toNat ≤ n := by
  have hcast : config.maxAttempts.toInt32 = Int32.ofNat config.maxAttempts.toNat := by
    rw [← UInt32.toInt32_ofNat', UInt32.ofNat_toNat]
  rw [hcast, Int32.le_iff_toInt_le, Int32.toInt_ofNat_of_lt hfits, Int32.toInt_ofNat_of_lt hn]
  exact Int.ofNat_le

/-- What an update of the key's rows does to the first of them. -/
theorem selectFirst_assign {row : RateLimitRow}
    (hrow : selectFirst (·.key == key) rows = some row) (assign : RateLimitRow → RateLimitRow)
    (hkey : ∀ r, (assign r).key = r.key) :
    selectFirst (·.key == key) (updateRows (·.key == key) assign rows) = some (assign row) := by
  rw [selectFirst_updateRows, hrow, Option.map_some]
  intro r hr
  rw [hkey]
  exact hr

/-! ### What one failure does -/

section Cases

variable {row : RateLimitRow}

theorem recordLoginFailure_locked (hrow : selectFirst (·.key == key) rows = some row)
    {remaining : Nat} (hlocked : row.lockedFor platform now = some remaining) :
    recordLoginFailure platform config key now rows =
      ({ isLocked := true
         attempts := row.attempts.toUInt32
         lockoutRemainingSecs := some remaining }, rows) := by
  unfold recordLoginFailure
  simp only [hrow, hlocked]

theorem recordLoginFailure_expired (hrow : selectFirst (·.key == key) rows = some row)
    (hunlocked : row.lockedFor platform now = none)
    (hexpired : row.isExpired platform now config = true) :
    (recordLoginFailure platform config key now rows).1.isLocked = false ∧
      selectFirst (·.key == key) (recordLoginFailure platform config key now rows).2 =
        some { row with
          attempts := 1
          firstAttemptAt := platform.toRfc3339 now
          lockedUntil := none } := by
  unfold recordLoginFailure
  simp only [hrow, hunlocked, hexpired, if_true]
  refine ⟨trivial, ?_⟩
  exact selectFirst_assign hrow (fun r =>
    { r with attempts := 1, firstAttemptAt := platform.toRfc3339 now, lockedUntil := none })
    fun _ => rfl

theorem recordLoginFailure_reached (hrow : selectFirst (·.key == key) rows = some row)
    (hunlocked : row.lockedFor platform now = none)
    (hopen : row.isExpired platform now config = false)
    (hreached : config.maxAttempts.toInt32 ≤ row.attempts + 1) :
    (recordLoginFailure platform config key now rows).1.isLocked = true ∧
      selectFirst (·.key == key) (recordLoginFailure platform config key now rows).2 =
        some { row with
          attempts := row.attempts + 1
          lockedUntil :=
            some (platform.toRfc3339 (now + DateTime.ofSecs config.lockoutSecs)) } := by
  unfold recordLoginFailure
  simp only [hrow, hunlocked, hopen, Bool.false_eq_true, if_false, if_pos hreached]
  refine ⟨trivial, ?_⟩
  exact selectFirst_assign hrow (fun r =>
    { r with
      attempts := row.attempts + 1
      lockedUntil := some (platform.toRfc3339 (now + DateTime.ofSecs config.lockoutSecs)) })
    fun _ => rfl

theorem recordLoginFailure_below (hrow : selectFirst (·.key == key) rows = some row)
    (hunlocked : row.lockedFor platform now = none)
    (hopen : row.isExpired platform now config = false)
    (hbelow : ¬config.maxAttempts.toInt32 ≤ row.attempts + 1) :
    (recordLoginFailure platform config key now rows).1.isLocked = false ∧
      selectFirst (·.key == key) (recordLoginFailure platform config key now rows).2 =
        some { row with attempts := row.attempts + 1 } := by
  unfold recordLoginFailure
  simp only [hrow, hunlocked, hopen, Bool.false_eq_true, if_false, if_neg hbelow]
  refine ⟨trivial, ?_⟩
  exact selectFirst_assign hrow (fun r => { r with attempts := row.attempts + 1 }) fun _ => rfl

end Cases

theorem recordLoginFailure_new (hnone : selectFirst (·.key == key) rows = none) :
    (recordLoginFailure platform config key now rows).1.isLocked = false ∧
      selectFirst (·.key == key) (recordLoginFailure platform config key now rows).2 =
        some { key := key, attempts := 1, firstAttemptAt := platform.toRfc3339 now } := by
  have hfind : rows.find? (·.key == key) = none := hnone
  unfold recordLoginFailure
  simp only [hnone]
  refine ⟨trivial, ?_⟩
  simp [selectFirst, insertRow, List.find?_append, hfind]

/-! ### Windows and locks -/

/-- **A failure that opens a window** is the first one it counts. -/
theorem counting_opened (h : OpensWindow platform config key now rows) :
    Counting platform key now 1 (recordLoginFailure platform config key now rows).2 := by
  cases hselect : selectFirst (·.key == key) rows with
  | none => exact ⟨_, (recordLoginFailure_new hselect).2, rfl, rfl, rfl⟩
  | some row =>
      obtain ⟨hunlocked, hexpired⟩ := h row hselect
      exact ⟨_, (recordLoginFailure_expired hselect hunlocked hexpired).2, rfl, rfl, rfl⟩

/-- A row that was opened at this time has not expired while the window is open. -/
theorem isExpired_of_opening {row : RateLimitRow} (hreads : platform.ReadsBack opening)
    (hfirst : row.firstAttemptAt = platform.toRfc3339 opening)
    (hin : now ≤ opening + DateTime.ofSecs config.windowSecs) :
    row.isExpired platform now config = false := by
  unfold IamPlatform.ReadsBack at hreads
  simp only [RateLimitRow.isExpired, RateLimitRow.firstAttempt, hfirst, hreads, Option.getD_some,
    decide_eq_false_iff_not]
  exact Int.not_lt.mpr (Int.sub_right_le_of_le_add hin)

/-- **A failure that does not reach the limit** is counted. -/
theorem counting_counted (hfits : config.maxAttempts.toNat < 2 ^ 31)
    (hreads : platform.ReadsBack opening) {n : Nat}
    (h : Counting platform key opening n rows)
    (hin : now ≤ opening + DateTime.ofSecs config.windowSecs)
    (hbelow : n + 1 < config.maxAttempts.toNat) :
    Counting platform key opening (n + 1) (recordLoginFailure platform config key now rows).2 := by
  obtain ⟨row, hrow, hattempts, hfirst, hlock⟩ := h
  have hunlocked : row.lockedFor platform now = none := by simp [RateLimitRow.lockedFor, hlock]
  have hopen := isExpired_of_opening hreads hfirst hin
  have hcount : row.attempts + 1 = Int32.ofNat (n + 1) := by
    rw [hattempts, Int32.ofNat_add]
    rfl
  have hno : ¬config.maxAttempts.toInt32 ≤ row.attempts + 1 := by
    rw [hcount, maxAttempts_le_iff hfits (by omega)]
    omega
  exact ⟨_, (recordLoginFailure_below hrow hunlocked hopen hno).2, hcount, hfirst, hlock⟩

/-- **The failure that reaches the limit** locks the key. -/
theorem locked_counted (hfits : config.maxAttempts.toNat < 2 ^ 31)
    (hreads : platform.ReadsBack opening) {n : Nat}
    (h : Counting platform key opening n rows)
    (hin : now ≤ opening + DateTime.ofSecs config.windowSecs)
    (hreached : n + 1 = config.maxAttempts.toNat) :
    (recordLoginFailure platform config key now rows).1.isLocked = true ∧
      LockedUntil platform key (now + DateTime.ofSecs config.lockoutSecs)
        (recordLoginFailure platform config key now rows).2 := by
  obtain ⟨row, hrow, hattempts, hfirst, hlock⟩ := h
  have hunlocked : row.lockedFor platform now = none := by simp [RateLimitRow.lockedFor, hlock]
  have hopen := isExpired_of_opening hreads hfirst hin
  have hcount : row.attempts + 1 = Int32.ofNat (n + 1) := by
    rw [hattempts, Int32.ofNat_add]
    rfl
  have hle : config.maxAttempts.toInt32 ≤ row.attempts + 1 := by
    rw [hcount, maxAttempts_le_iff hfits (by omega)]
    omega
  obtain ⟨hlocked, hselect⟩ := recordLoginFailure_reached hrow hunlocked hopen hle
  exact ⟨hlocked, _, hselect, rfl⟩

/-- A row that is locked until a later time. -/
theorem lockedFor_until {row : RateLimitRow} {unlock : DateTime}
    (hreads : platform.ReadsBack unlock)
    (hlock : row.lockedUntil = some (platform.toRfc3339 unlock)) (hearly : now < unlock) :
    row.lockedFor platform now = some ((unlock - now) / 1000000000).toNat := by
  unfold IamPlatform.ReadsBack at hreads
  simp only [RateLimitRow.lockedFor, hlock, Option.bind_some, hreads, if_pos hearly]

/-- **A locked key stays as it is**, and both functions report it, until the lock ends. -/
theorem lockedUntil_kept {unlock : DateTime} (hreads : platform.ReadsBack unlock)
    (h : LockedUntil platform key unlock rows) (hearly : now < unlock) :
    (recordLoginFailure platform config key now rows).1.isLocked = true ∧
      (recordLoginFailure platform config key now rows).2 = rows ∧
      (isRateLimited platform config key now rows).isLocked = true := by
  obtain ⟨row, hrow, hlock⟩ := h
  have hlocked := lockedFor_until hreads hlock hearly
  rw [recordLoginFailure_locked hrow hlocked]
  simp [isRateLimited, hrow, hlocked]

/-- What `is_rate_limited` reports of a row that is not locked. -/
theorem isRateLimited_unlocked {row : RateLimitRow}
    (hrow : selectFirst (·.key == key) rows = some row)
    (hunlocked : row.lockedFor platform now = none) :
    (isRateLimited platform config key now rows).isLocked =
      (!row.isExpired platform now config && decide (config.maxAttempts.toInt32 ≤ row.attempts)) := by
  simp only [isRateLimited, hrow, hunlocked]
  cases row.isExpired platform now config with
  | true => rfl
  | false => rfl

theorem isRateLimited_locked {row : RateLimitRow}
    (hrow : selectFirst (·.key == key) rows = some row) {remaining : Nat}
    (hlocked : row.lockedFor platform now = some remaining) :
    (isRateLimited platform config key now rows).isLocked = true := by
  simp only [isRateLimited, hrow, hlocked]

/-- **What a failure reports, `is_rate_limited` reports behind it**, if the limit is
neither one nor beyond `i32`. -/
theorem failure_agrees (hmany : 2 ≤ config.maxAttempts.toNat)
    (hfits : config.maxAttempts.toNat < 2 ^ 31)
    (hunlock : platform.ReadsBack (now + DateTime.ofSecs config.lockoutSecs)) :
    (isRateLimited platform config key now
        (recordLoginFailure platform config key now rows).2).isLocked =
      (recordLoginFailure platform config key now rows).1.isLocked := by
  have hone : decide (config.maxAttempts.toInt32 ≤ 1) = false := by
    rw [decide_eq_false_iff_not]
    intro hle
    have hreached : config.maxAttempts.toNat ≤ 1 := (maxAttempts_le_iff hfits (by decide)).mp hle
    omega
  cases hselect : selectFirst (·.key == key) rows with
  | none =>
      obtain ⟨hlocked, hrow⟩ := @recordLoginFailure_new platform config _ _ now hselect
      rw [hlocked, isRateLimited_unlocked hrow rfl, hone, Bool.and_false]
  | some row =>
      cases hlock : row.lockedFor platform now with
      | some remaining =>
          rw [recordLoginFailure_locked hselect hlock]
          exact isRateLimited_locked hselect hlock
      | none =>
          cases hexpired : row.isExpired platform now config with
          | true =>
              obtain ⟨hlocked, hrow⟩ := recordLoginFailure_expired hselect hlock hexpired
              rw [hlocked, isRateLimited_unlocked hrow rfl, hone, Bool.and_false]
          | false =>
              by_cases hreached : config.maxAttempts.toInt32 ≤ row.attempts + 1
              · obtain ⟨hlocked, hrow⟩ :=
                  recordLoginFailure_reached hselect hlock hexpired hreached
                rw [hlocked]
                by_cases hlater : now < now + DateTime.ofSecs config.lockoutSecs
                · exact isRateLimited_locked hrow (lockedFor_until hunlock rfl hlater)
                · -- the lock is over at once, but the attempts still count
                  have hended : RateLimitRow.lockedFor platform now { row with
                      attempts := row.attempts + 1
                      lockedUntil := some (platform.toRfc3339
                        (now + DateTime.ofSecs config.lockoutSecs)) } = none := by
                    unfold IamPlatform.ReadsBack at hunlock
                    simp only [RateLimitRow.lockedFor, Option.bind_some, hunlock, if_neg hlater]
                  rw [isRateLimited_unlocked hrow hended, decide_eq_true hreached, Bool.and_true,
                    Bool.not_eq_true']
                  exact hexpired
              · obtain ⟨hlocked, hrow⟩ := recordLoginFailure_below hselect hlock hexpired hreached
                rw [hlocked, isRateLimited_unlocked hrow hlock, decide_eq_false hreached,
                  Bool.and_false]

end Rows

/-! ## Runs -/

section Runs

variable {platform : IamPlatform} {config : RateLimitConfig} {key : String}
  {rows : List RateLimitRow} {opening : DateTime}

/-- **The row counts the failures of its window**, as long as they do not reach the
limit. -/
theorem counting_after (hfits : config.maxAttempts.toNat < 2 ^ 31)
    (hreads : platform.ReadsBack opening) {failures : List DateTime}
    (hin : ∀ t ∈ failures, t ≤ opening + DateTime.ofSecs config.windowSecs) {n : Nat}
    (hbelow : n + failures.length < config.maxAttempts.toNat)
    (h : Counting platform key opening n rows) :
    Counting platform key opening (n + failures.length)
      ((failureMachine platform config key).after rows failures) := by
  induction failures generalizing n rows with
  | nil => exact h
  | cons t failures ih =>
      rw [List.length_cons] at hbelow ⊢
      have hcounted := counting_counted hfits hreads h (hin t List.mem_cons_self) (by omega)
      have hrest := ih (fun u hu => hin u (List.mem_cons_of_mem _ hu)) (by omega) hcounted
      rw [show n + (failures.length + 1) = n + 1 + failures.length by omega]
      exact hrest

/-- **The lock lasts**: failures before its end do not change the row. -/
theorem lockedUntil_after {unlock : DateTime} (hreads : platform.ReadsBack unlock)
    {failures : List DateTime} (hearly : ∀ t ∈ failures, t < unlock)
    (h : LockedUntil platform key unlock rows) :
    LockedUntil platform key unlock
      ((failureMachine platform config key).after rows failures) := by
  induction failures generalizing rows with
  | nil => exact h
  | cons t failures ih =>
      obtain ⟨-, hkept, -⟩ := @lockedUntil_kept platform config key rows t unlock hreads h
        (hearly t List.mem_cons_self)
      refine ih (fun u hu => hearly u (List.mem_cons_of_mem _ hu)) ?_
      change LockedUntil platform key unlock (recordLoginFailure platform config key t rows).2
      rw [hkept]
      exact h

end Runs

/-- The failures of a window, from the one that opens it to the one that reaches the
limit, behind other failures of the key. -/
structure FillsWindow (platform : IamPlatform) (config : RateLimitConfig) (key : String)
    (before : List DateTime) (opening : DateTime) (middle : List DateTime) (last : DateTime) :
    Prop where
  opens : OpensWindow platform config key opening
    ((failureMachine platform config key).after [] before)
  limit : middle.length + 2 = config.maxAttempts.toNat
  window : ∀ t ∈ middle ++ [last], t ≤ opening + DateTime.ofSecs config.windowSecs

/-- **The lockout.**  For a limit from two on that fits into `i32` and every run of
failures of a key: as soon as so many failures fall into the window that one of them
opened, the key is locked; it is reported locked by both functions at every time before
the lockout has passed; and what a failure reports is what `is_rate_limited` reports
behind it. -/
theorem loginLockout {platform : IamPlatform} {config : RateLimitConfig} {key : String}
    (hmany : 2 ≤ config.maxAttempts.toNat) (hfits : config.maxAttempts.toNat < 2 ^ 31)
    (before : List DateTime) :
    (∀ opening middle last, FillsWindow platform config key before opening middle last →
      platform.ReadsBack opening →
      platform.ReadsBack (last + DateTime.ofSecs config.lockoutSecs) →
      ((failureMachine platform config key).reply
        ((failureMachine platform config key).after [] (before ++ opening :: middle))
        last).isLocked = true ∧
      ∀ more now, (∀ t ∈ more, t < last + DateTime.ofSecs config.lockoutSecs) →
        now < last + DateTime.ofSecs config.lockoutSecs →
        let rows := (failureMachine platform config key).after []
          (before ++ opening :: middle ++ last :: more)
        (isRateLimited platform config key now rows).isLocked = true ∧
          (recordLoginFailure platform config key now rows).1.isLocked = true) ∧
    ∀ now, platform.ReadsBack (now + DateTime.ofSecs config.lockoutSecs) →
      (isRateLimited platform config key now
        ((failureMachine platform config key).after [] (before ++ [now]))).isLocked =
      ((failureMachine platform config key).reply
        ((failureMachine platform config key).after [] before) now).isLocked := by
  constructor
  · intro opening middle last hfills hopening hunlock
    have hin (t : DateTime) (ht : t ∈ middle) :=
      hfills.window t (List.mem_append_left [last] ht)
    have hlast := hfills.window last (List.mem_append_right middle (List.mem_singleton_self last))
    have hlimit := hfills.limit
    have hcounting := counting_after hfits hopening hin (by omega) (counting_opened hfills.opens)
    obtain ⟨hlocked, huntil⟩ := locked_counted hfits hopening hcounting hlast (by omega)
    rw [(failureMachine platform config key).after_append]
    refine ⟨hlocked, ?_⟩
    intro more now hmore hnow
    dsimp only
    rw [(failureMachine platform config key).after_append,
      (failureMachine platform config key).after_append]
    have hkept := @lockedUntil_after platform config key _ _ hunlock more hmore huntil
    obtain ⟨hrecord, -, hlimited⟩ := @lockedUntil_kept platform config key _ now _ hunlock hkept hnow
    exact ⟨hlimited, hrecord⟩
  · intro now hunlock
    rw [(failureMachine platform config key).after_append]
    exact failure_agrees hmany hfits hunlock

/-- A platform that reads the texts of these times. -/
def readingPlatform (times : List DateTime) : IamPlatform :=
  { plainIamPlatform with
    toRfc3339 := Rfc3339.text
    parseRfc3339 := fun text => times.find? fun t => Rfc3339.text t == text }

/-- Five failures in five seconds lock the key: it is locked still after a hundred. -/
theorem loginLockout_fiveFailures :
    (isRateLimited (readingPlatform [0, .ofSecs 904]) {} "login:10.0.0.1" (.ofSecs 100)
      ((failureMachine (readingPlatform [0, .ofSecs 904]) {} "login:10.0.0.1").after []
        ([] ++ 0 :: [.ofSecs 1, .ofSecs 2, .ofSecs 3] ++ .ofSecs 4 :: []))).isLocked = true := by
  have hfills : FillsWindow (readingPlatform [0, .ofSecs 904]) {} "login:10.0.0.1" [] 0
      [.ofSecs 1, .ofSecs 2, .ofSecs 3] (.ofSecs 4) := by
    refine ⟨?_, rfl, by decide +kernel⟩
    intro row hrow
    cases hrow
  have hreads : (readingPlatform [0, .ofSecs 904]).ReadsBack 0 ∧
      (readingPlatform [0, .ofSecs 904]).ReadsBack (.ofSecs 4 + .ofSecs 900) := by
    unfold IamPlatform.ReadsBack
    decide +kernel
  obtain ⟨hlocks, -⟩ := @loginLockout (readingPlatform [0, .ofSecs 904]) {} "login:10.0.0.1"
    (by decide) (by decide) []
  obtain ⟨-, hlocked⟩ := hlocks _ _ _ hfills hreads.1 hreads.2
  exact (hlocked [] (.ofSecs 100) (fun _ ht => absurd ht List.not_mem_nil) (by decide)).1

/-- Failures of which the last five lie within seven seconds. -/
def slidingFailures : List DateTime :=
  [0, .ofSecs 55, .ofSecs 56, .ofSecs 57, .ofSecs 61, .ofSecs 62]

def slidingPlatform : IamPlatform := readingPlatform slidingFailures

/-- The table before the last of them. -/
def slidingRows : List RateLimitRow :=
  (failureMachine slidingPlatform {} "login:10.0.0.1").after [] slidingFailures.dropLast

/-- **Five failures within a minute need not lock the key**: a window that was opened
before them ends between them.  With a limit of one, or one beyond `i32`, the first
failure is reported as not locked by the one function and as locked by the other. -/
theorem slidingFailures_unlocked :
    (slidingFailures.drop 1).length = 5 ∧
      (DateTime.ofSecs 62 ≤ DateTime.ofSecs 55 + DateTime.ofSecs 60) ∧
      (recordLoginFailure slidingPlatform {} "login:10.0.0.1" (.ofSecs 62)
        slidingRows).1.isLocked = false ∧
      (isRateLimited slidingPlatform {} "login:10.0.0.1" (.ofSecs 62)
        (recordLoginFailure slidingPlatform {} "login:10.0.0.1" (.ofSecs 62)
          slidingRows).2).isLocked = false ∧
      [1, 2147483648].all (fun limit =>
        !(recordLoginFailure slidingPlatform { maxAttempts := limit } "login:10.0.0.1" 0
            []).1.isLocked &&
          (isRateLimited slidingPlatform { maxAttempts := limit } "login:10.0.0.1" 0
            (recordLoginFailure slidingPlatform { maxAttempts := limit } "login:10.0.0.1" 0
              []).2).isLocked) = true := by
  decide +kernel

end Strix

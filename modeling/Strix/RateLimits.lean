import Mathlib.Data.List.Count
import Strix.IpAddresses
import Strix.MachineRuns

/-!
# Rate limits

`RateLimiter` counts the attempts of each address: `recordFailure` counts one,
and `isLimited` answers whether the address has used up its attempts and is
still locked out.  The S3 front end asks `isLimited` before every request.

* `limited_needs_failures` — an address is limited only after as many recorded
  failures as the limiter allows attempts;
* `rateLimit_holds_iff` — the front end records none, so that it keeps the rate
  of an address down to the limit exactly when the address does so itself.
-/

namespace Strix

open MachineRuns

/-- A reading of the monotonic clock, in nanoseconds. -/
abbrev Instant := Nat

/-- A length of time, in nanoseconds. -/
abbrev Duration := Nat

/-- `Duration::from_secs`. -/
def Duration.fromSecs (secs : Nat) : Duration := secs * 1000000000

/-- `Duration::as_secs`. -/
def Duration.asSecs (duration : Duration) : Nat := duration / 1000000000

/-- The attempts of one address: how many (a `u32`, not followed to where it
overflows), and when the first of them was. -/
structure Attempts where
  count : Nat
  firstAttempt : Instant
  deriving DecidableEq, Repr

/-- The time since the first attempt. -/
def Attempts.elapsed (entry : Attempts) (now : Instant) : Duration := now - entry.firstAttempt

/-- Rate limiter for protecting against brute-force attacks. -/
structure RateLimiter where
  attempts : IpAddr → Option Attempts
  maxAttempts : Nat
  window : Duration
  lockout : Duration
  lastCleanup : Instant

namespace RateLimiter

/-- `RateLimiter::new`. -/
def create (now : Instant) (maxAttempts : Nat) (window lockout : Duration) : RateLimiter where
  attempts _ := none
  maxAttempts := maxAttempts
  window := window
  lockout := lockout
  lastCleanup := now

/-- Drop the old entries, every five minutes. -/
def cleanupIfNeeded (limiter : RateLimiter) (now : Instant) : RateLimiter :=
  if Duration.fromSecs 300 < now - limiter.lastCleanup then
    { limiter with
      attempts := fun ip =>
        (limiter.attempts ip).filter fun entry => decide (entry.elapsed now < limiter.lockout)
      lastCleanup := now }
  else limiter

/-- Is the address rate limited?  The answer, and the limiter cleaned up. -/
def isLimited (limiter : RateLimiter) (now : Instant) (ip : IpAddr) : Bool × RateLimiter :=
  let limiter := limiter.cleanupIfNeeded now
  match limiter.attempts ip with
  | some entry =>
    (decide (limiter.maxAttempts ≤ entry.count ∧ entry.elapsed now < limiter.lockout), limiter)
  | none => (false, limiter)

/-- Set the entry of one address. -/
def setAttempts (limiter : RateLimiter) (ip : IpAddr) (entry : Option Attempts) : RateLimiter :=
  { limiter with attempts := fun other => if other = ip then entry else limiter.attempts other }

/-- Record a failed attempt of an address. -/
def recordFailure (limiter : RateLimiter) (now : Instant) (ip : IpAddr) : RateLimiter :=
  match limiter.attempts ip with
  | some entry =>
    if limiter.window < entry.elapsed now then
      limiter.setAttempts ip (some { count := 1, firstAttempt := now })
    else limiter.setAttempts ip (some { entry with count := entry.count + 1 })
  | none => limiter.setAttempts ip (some { count := 1, firstAttempt := now })

/-- Clear the attempts of an address (on successful login). -/
def clear (limiter : RateLimiter) (ip : IpAddr) : RateLimiter :=
  limiter.setAttempts ip none

/-- The seconds for which the address is still locked out. -/
def lockoutRemaining (limiter : RateLimiter) (now : Instant) (ip : IpAddr) : Option Nat :=
  match limiter.attempts ip with
  | some entry =>
    if limiter.maxAttempts ≤ entry.count ∧ entry.elapsed now < limiter.lockout then
      some (Duration.asSecs (limiter.lockout - entry.elapsed now))
    else none
  | none => none

end RateLimiter

/-! ## The limiter's calls -/

/-- A call of the limiter. -/
inductive LimiterCall
  | isLimited (ip : IpAddr)
  | recordFailure (ip : IpAddr)
  | clear (ip : IpAddr)
  deriving DecidableEq, Repr

/-- Calls of the limiter, each with the time it is made at; only `isLimited`
says yes to something. -/
def limiterMachine (limiter : RateLimiter) : Machine RateLimiter (Instant × LimiterCall) Bool where
  init := limiter
  step limiter call :=
    match call.2 with
    | .isLimited ip => limiter.isLimited call.1 ip
    | .recordFailure ip => (false, limiter.recordFailure call.1 ip)
    | .clear ip => (false, limiter.clear ip)

/-- The failures of an address that the calls record. -/
def failures (ip : IpAddr) (calls : List (Instant × LimiterCall)) : Nat :=
  calls.countP fun call => call.2 = .recordFailure ip

/-- The limiter has counted at most so many attempts of the address. -/
def RateLimiter.Counts (limiter : RateLimiter) (ip : IpAddr) (most : Nat) : Prop :=
  ∀ entry, limiter.attempts ip = some entry → entry.count ≤ most

/-- A clean-up invents no attempts and keeps the settings. -/
theorem counts_cleanup {limiter : RateLimiter} {ip : IpAddr} {most : Nat}
    (h : limiter.Counts ip most) (now : Instant) :
    (limiter.cleanupIfNeeded now).Counts ip most := by
  intro entry hentry
  unfold RateLimiter.cleanupIfNeeded at hentry
  by_cases hold : Duration.fromSecs 300 < now - limiter.lastCleanup
  · rw [if_pos hold] at hentry
    exact h entry (Option.eq_some_of_filter_eq_some hentry)
  · rw [if_neg hold] at hentry
    exact h entry hentry

/-- The entry of an address after it was set, or after another one was. -/
theorem attempts_setAttempts (limiter : RateLimiter) (ip other : IpAddr)
    (entry : Option Attempts) :
    (limiter.setAttempts other entry).attempts ip =
      if ip = other then entry else limiter.attempts ip :=
  rfl

/-- A recorded failure counts one attempt more, of its own address only. -/
theorem counts_recordFailure {limiter : RateLimiter} {ip : IpAddr} {most : Nat}
    (h : limiter.Counts ip most) (now : Instant) (other : IpAddr) :
    (limiter.recordFailure now other).Counts ip
      (if other = ip then most + 1 else most) := by
  by_cases hsame : other = ip
  · subst hsame
    rw [if_pos rfl]
    intro entry hentry
    unfold RateLimiter.recordFailure at hentry
    cases hbefore : limiter.attempts other with
    | none =>
        simp only [hbefore, attempts_setAttempts, ↓reduceIte, Option.some.injEq] at hentry
        subst hentry
        exact Nat.le_add_left 1 most
    | some before =>
        have hmost := h before hbefore
        simp only [hbefore] at hentry
        by_cases hlate : limiter.window < before.elapsed now
        · simp only [if_pos hlate, attempts_setAttempts, ↓reduceIte, Option.some.injEq] at hentry
          subst hentry
          exact Nat.le_add_left 1 most
        · simp only [if_neg hlate, attempts_setAttempts, ↓reduceIte, Option.some.injEq] at hentry
          subst hentry
          exact Nat.succ_le_succ hmost
  · rw [if_neg hsame]
    intro entry hentry
    refine h entry ?_
    unfold RateLimiter.recordFailure at hentry
    have hother : ip ≠ other := fun hip => hsame hip.symm
    cases hbefore : limiter.attempts other with
    | none =>
        simp only [hbefore, attempts_setAttempts, if_neg hother] at hentry
        exact hentry
    | some before =>
        simp only [hbefore] at hentry
        by_cases hlate : limiter.window < before.elapsed now
        · simp only [if_pos hlate, attempts_setAttempts, if_neg hother] at hentry
          exact hentry
        · simp only [if_neg hlate, attempts_setAttempts, if_neg hother] at hentry
          exact hentry

/-- Clearing an address counts nothing. -/
theorem counts_clear {limiter : RateLimiter} {ip : IpAddr} {most : Nat}
    (h : limiter.Counts ip most) (other : IpAddr) : (limiter.clear other).Counts ip most := by
  intro entry hentry
  unfold RateLimiter.clear at hentry
  rw [attempts_setAttempts] at hentry
  by_cases hsame : ip = other
  · rw [if_pos hsame] at hentry
    exact absurd hentry (by simp)
  · rw [if_neg hsame] at hentry
    exact h entry hentry

/-- Asking leaves the limiter cleaned up. -/
theorem isLimited_snd (limiter : RateLimiter) (now : Instant) (ip : IpAddr) :
    (limiter.isLimited now ip).2 = limiter.cleanupIfNeeded now := by
  unfold RateLimiter.isLimited
  cases h : (limiter.cleanupIfNeeded now).attempts ip with
  | none => simp only [h]
  | some entry => simp only [h]

/-- One call counts at most the failure that it records. -/
theorem counts_next (start : RateLimiter) {limiter : RateLimiter} {ip : IpAddr} {most : Nat}
    (h : limiter.Counts ip most) (call : Instant × LimiterCall) :
    ((limiterMachine start).next limiter call).Counts ip (most + failures ip [call]) := by
  obtain ⟨now, call⟩ := call
  cases call with
  | isLimited other =>
      have hcleaned := counts_cleanup h now
      rw [← isLimited_snd limiter now other] at hcleaned
      exact hcleaned
  | recordFailure other =>
      have hcounted := counts_recordFailure h now other
      by_cases hsame : other = ip
      · rw [if_pos hsame] at hcounted
        have hone : failures ip [(now, .recordFailure other)] = 1 := by
          simp [failures, hsame]
        rw [hone]
        exact hcounted
      · rw [if_neg hsame] at hcounted
        have hzero : failures ip [(now, .recordFailure other)] = 0 := by
          simp [failures, hsame]
        rw [hzero]
        exact hcounted
  | clear other => exact counts_clear h other

/-- A run counts at most the failures that it records. -/
theorem counts_after (start : RateLimiter) {limiter : RateLimiter} {ip : IpAddr} {most : Nat}
    (h : limiter.Counts ip most) (calls : List (Instant × LimiterCall)) :
    ((limiterMachine start).after limiter calls).Counts ip (most + failures ip calls) := by
  induction calls generalizing limiter most with
  | nil => exact h
  | cons call calls ih =>
      have hsplit : failures ip (call :: calls) = failures ip [call] + failures ip calls := by
        unfold failures
        rw [← List.countP_append]
        rfl
      have hrest := ih (counts_next start h call)
      rw [hsplit, ← Nat.add_assoc]
      exact hrest

/-- No call changes the settings. -/
theorem maxAttempts_next (limiter start : RateLimiter) (call : Instant × LimiterCall) :
    ((limiterMachine start).next limiter call).maxAttempts = limiter.maxAttempts := by
  have hclean (now : Instant) :
      (limiter.cleanupIfNeeded now).maxAttempts = limiter.maxAttempts := by
    unfold RateLimiter.cleanupIfNeeded
    by_cases hold : Duration.fromSecs 300 < now - limiter.lastCleanup
    · rw [if_pos hold]
    · rw [if_neg hold]
  obtain ⟨now, call⟩ := call
  cases call with
  | isLimited ip =>
      have h := hclean now
      rw [← isLimited_snd limiter now ip] at h
      exact h
  | recordFailure ip =>
      change (limiter.recordFailure now ip).maxAttempts = limiter.maxAttempts
      unfold RateLimiter.recordFailure
      cases limiter.attempts ip with
      | none => rfl
      | some entry =>
          by_cases hlate : limiter.window < entry.elapsed now
          · simp only [if_pos hlate]
            rfl
          · simp only [if_neg hlate]
            rfl
  | clear ip => rfl

theorem maxAttempts_after (limiter start : RateLimiter) (calls : List (Instant × LimiterCall)) :
    ((limiterMachine start).after limiter calls).maxAttempts = limiter.maxAttempts := by
  induction calls generalizing limiter with
  | nil => rfl
  | cons call calls ih =>
      rw [Machine.after_cons, ih]
      exact maxAttempts_next limiter start call

/-- What a limited address has an entry of. -/
theorem isLimited_iff (limiter : RateLimiter) (now : Instant) (ip : IpAddr) :
    (limiter.isLimited now ip).1 = true ↔
      ∃ entry, (limiter.cleanupIfNeeded now).attempts ip = some entry ∧
        (limiter.cleanupIfNeeded now).maxAttempts ≤ entry.count ∧
        entry.elapsed now < (limiter.cleanupIfNeeded now).lockout := by
  unfold RateLimiter.isLimited
  cases h : (limiter.cleanupIfNeeded now).attempts ip with
  | none => simp [h]
  | some entry => simp [h]

/-- **No limit without failures.**  In every run of a fresh limiter, an address
that is limited has had as many failures recorded as the limiter allows attempts. -/
theorem limited_needs_failures {start now : Instant} {maxAttempts : Nat}
    {window lockout : Duration} {calls : List (Instant × LimiterCall)} {ip : IpAddr}
    (hlimited : (((limiterMachine (.create start maxAttempts window lockout)).after
      (.create start maxAttempts window lockout) calls).isLimited now ip).1 = true) :
    maxAttempts ≤ failures ip calls := by
  obtain ⟨entry, hentry, hmost, -⟩ := (isLimited_iff _ now ip).mp hlimited
  have hfresh : (RateLimiter.create start maxAttempts window lockout).Counts ip 0 := by
    intro entry hentry
    exact absurd hentry (by simp [RateLimiter.create])
  have hcounts := counts_cleanup
    (counts_after (.create start maxAttempts window lockout) hfresh calls) now
  have hle := hcounts entry hentry
  have hsettings := maxAttempts_after (.create start maxAttempts window lockout)
    (.create start maxAttempts window lockout) (calls ++ [(now, .isLimited ip)])
  rw [Machine.after_append] at hsettings
  have hlast : ((limiterMachine (.create start maxAttempts window lockout)).after
      (.create start maxAttempts window lockout) calls |>.cleanupIfNeeded now).maxAttempts =
        maxAttempts := by
    rw [← isLimited_snd _ now ip]
    exact hsettings
  omega

/-! ## The front end -/

/-- The response to a request that is turned away. -/
structure SlowDown where
  status : Nat := 429
  retryAfter : String
  contentType : String := "application/xml"
  body : String
  deriving DecidableEq, Repr

/-- The body of the response. -/
def slowDownBody (retryAfter : Nat) : String :=
  "<?xml version=\"1.0\" encoding=\"UTF-8\"?>\n<Error>\n    <Code>SlowDown</Code>\n" ++
    "    <Message>Please reduce your request rate.</Message>\n    <RetryAfterSeconds>" ++
    toString retryAfter ++ "</RetryAfterSeconds>\n</Error>"

/-- A request arrives from an address. -/
structure Arrival where
  ip : IpAddr
  time : Instant
  deriving DecidableEq, Repr

/-- `s3_rate_limit_middleware`: turn the request away, or forward it (`none`). -/
def s3RateLimitMiddleware (limiter : RateLimiter) (request : Arrival) :
    Option SlowDown × RateLimiter :=
  match limiter.isLimited request.time request.ip with
  | (true, limiter) =>
    let retryAfter := (limiter.lockoutRemaining request.time request.ip).getD 60
    (some { retryAfter := toString retryAfter, body := slowDownBody retryAfter }, limiter)
  | (false, limiter) => (none, limiter)

/-- The limiter of the S3 front end, for a limit of requests per minute; zero
switches it off. -/
def s3RateLimiter (s3RateLimit : Nat) (now : Instant) : Option RateLimiter :=
  if 0 < s3RateLimit then
    some (.create now s3RateLimit (Duration.fromSecs 60) (Duration.fromSecs 30))
  else none

/-- The S3 front end takes the requests as they arrive. -/
def s3FrontEnd (s3RateLimit : Nat) (now : Instant) :
    Machine (Option RateLimiter) Arrival (Option SlowDown) where
  init := s3RateLimiter s3RateLimit now
  step
    | none, _ => (none, none)
    | some limiter, request =>
      let (response, limiter) := s3RateLimitMiddleware limiter request
      (response, some limiter)

/-! ## Its rate -/

/-- The requests of a run that are forwarded. -/
def forwarded (M : Machine (Option RateLimiter) Arrival (Option SlowDown)) :
    Option RateLimiter → List Arrival → List Arrival
  | _, [] => []
  | limiter, request :: rest =>
    if M.reply limiter request = none then
      request :: forwarded M (M.next limiter request) rest
    else forwarded M (M.next limiter request) rest

/-- The requests of an address within the minute that starts then. -/
def withinMinute (ip : IpAddr) (start : Instant) (requests : List Arrival) : List Arrival :=
  requests.filter fun request =>
    decide (request.ip = ip ∧ start ≤ request.time ∧
      request.time < start + Duration.fromSecs 60)

/-- No minute that starts with one of the requests of the address has more of
them than the limit. -/
def KeepsRate (limit : Nat) (ip : IpAddr) (requests : List Arrival) : Prop :=
  ∀ first ∈ requests, first.ip = ip →
    (withinMinute ip first.time requests).length ≤ limit

instance (limit : Nat) (ip : IpAddr) (requests : List Arrival) :
    Decidable (KeepsRate limit ip requests) :=
  inferInstanceAs (Decidable (∀ first ∈ requests, first.ip = ip →
    (withinMinute ip first.time requests).length ≤ limit))

/-- **The rate limit limits**: of the address, at most the limit is forwarded in
a minute that starts with a forwarded request, and it is not turned away before
it has made that many requests. -/
structure RateLimited (limit : Nat) (now : Instant) (requests : List Arrival) (ip : IpAddr) :
    Prop where
  atMost : KeepsRate limit ip
    (forwarded (s3FrontEnd limit now) (s3FrontEnd limit now).init requests)
  notEarly : Machine.EachStep (fun before request => request.ip = ip →
    (s3FrontEnd limit now).reply
      ((s3FrontEnd limit now).after (s3FrontEnd limit now).init before) request ≠ none →
    limit ≤ before.countP fun earlier => earlier.ip = ip) requests

/-- The limiter's call that a request makes. -/
def Arrival.call (request : Arrival) : Instant × LimiterCall :=
  (request.time, .isLimited request.ip)

/-- The middleware leaves the limiter as the call does. -/
theorem s3RateLimitMiddleware_snd (limiter start : RateLimiter) (request : Arrival) :
    (s3RateLimitMiddleware limiter request).2 =
      (limiterMachine start).next limiter request.call := by
  have hnext : (limiterMachine start).next limiter request.call =
      (limiter.isLimited request.time request.ip).2 := rfl
  rw [hnext]
  unfold s3RateLimitMiddleware
  cases h : limiter.isLimited request.time request.ip with
  | mk answer cleaned => cases answer <;> rfl

/-- It turns the request away if the limiter says so. -/
theorem s3RateLimitMiddleware_fst (limiter : RateLimiter) (request : Arrival) :
    (s3RateLimitMiddleware limiter request).1 ≠ none ↔
      (limiter.isLimited request.time request.ip).1 = true := by
  unfold s3RateLimitMiddleware
  cases h : limiter.isLimited request.time request.ip with
  | mk answer cleaned => cases answer <;> simp

/-- The front end's limiter after a run is the one after the calls. -/
theorem s3FrontEnd_after (limit : Nat) (now : Instant) (limiter start : RateLimiter)
    (requests : List Arrival) :
    (s3FrontEnd limit now).after (some limiter) requests =
      some ((limiterMachine start).after limiter (requests.map Arrival.call)) := by
  induction requests generalizing limiter with
  | nil => rfl
  | cons request rest ih =>
      have hnext : (s3FrontEnd limit now).next (some limiter) request =
          some ((limiterMachine start).next limiter request.call) := by
        rw [← s3RateLimitMiddleware_snd]
        rfl
      rw [Machine.after_cons, hnext, ih, List.map_cons, Machine.after_cons]

/-- Requests record no failures. -/
theorem failures_calls (ip : IpAddr) (requests : List Arrival) :
    failures ip (requests.map Arrival.call) = 0 := by
  unfold failures
  rw [List.countP_eq_zero]
  intro call hcall
  obtain ⟨request, -, rfl⟩ := List.mem_map.mp hcall
  simp [Arrival.call]

/-- **The front end never turns a request away.** -/
theorem s3FrontEnd_forwards (limit : Nat) (now : Instant) (before : List Arrival)
    (request : Arrival) :
    (s3FrontEnd limit now).reply
      ((s3FrontEnd limit now).after (s3FrontEnd limit now).init before) request = none := by
  by_cases hlimit : 0 < limit
  · have hinit : (s3FrontEnd limit now).init =
        some (.create now limit (Duration.fromSecs 60) (Duration.fromSecs 30)) := if_pos hlimit
    rw [hinit, s3FrontEnd_after limit now _ (.create now limit _ _)]
    by_contra hrefused
    have hlimited := (s3RateLimitMiddleware_fst _ request).mp hrefused
    have hneeds := limited_needs_failures hlimited
    rw [failures_calls] at hneeds
    omega
  · have hinit : (s3FrontEnd limit now).init = none := if_neg hlimit
    have hoff : (s3FrontEnd limit now).after none before = none := by
      induction before with
      | nil => rfl
      | cons earlier rest ih => exact ih
    rw [hinit, hoff]
    rfl

/-- So it forwards all of them. -/
theorem forwarded_eq (limit : Nat) (now : Instant) (requests : List Arrival) :
    forwarded (s3FrontEnd limit now) (s3FrontEnd limit now).init requests = requests := by
  have hfrom (before rest : List Arrival) :
      forwarded (s3FrontEnd limit now)
        ((s3FrontEnd limit now).after (s3FrontEnd limit now).init before) rest = rest := by
    induction rest generalizing before with
    | nil => rfl
    | cons request rest ih =>
        have hnext := ih (before ++ [request])
        rw [Machine.after_append] at hnext
        rw [forwarded, if_pos (s3FrontEnd_forwards limit now before request)]
        exact congrArg (request :: ·) hnext
  exact hfrom [] requests

/-- **When the rate limit limits.**  For every limit, every run and every address:
exactly when the address itself keeps to the limit. -/
theorem rateLimit_holds_iff (limit : Nat) (now : Instant) (requests : List Arrival)
    (ip : IpAddr) :
    RateLimited limit now requests ip ↔ KeepsRate limit ip requests := by
  constructor
  · intro h
    have hmost := h.atMost
    rw [forwarded_eq] at hmost
    exact hmost
  · intro h
    refine ⟨?_, ?_⟩
    · rw [forwarded_eq]
      exact h
    · intro before request rest _ _ hrefused
      exact absurd (s3FrontEnd_forwards limit now before request) hrefused

/-- With a limit of one request per minute, the second request of an address is
forwarded too, a second after the first. -/
theorem rateLimit_exceeded :
    ¬∀ (limit : Nat) (now : Instant) (requests : List Arrival) (ip : IpAddr), 0 < limit →
      requests.Pairwise (fun earlier later => earlier.time ≤ later.time) →
      RateLimited limit now requests ip := by
  intro hall
  have h := (hall 1 0 [⟨.v4 3232235777, 0⟩, ⟨.v4 3232235777, Duration.fromSecs 1⟩]
    (.v4 3232235777) (by decide) (by simp)).atMost
  rw [forwarded_eq] at h
  exact absurd h (by decide)

end Strix

import Strix.Dispatcher
import Strix.ExecutablePlatform
import Strix.RetryLoops

/-!
# What the delivery records say

A record of a delivery says how often the webhook was posted to and what came of it.
The loop carries the last status code through attempts that got no response at all, so
that the code that is recorded need not be that of the last attempt.

* `deliverWebhook_panics`, `deliverWebhook_outcome`: what `deliver_webhook` returns;
* `deliversTruthfully_iff`: when the outcome of a delivery is truthful;
* `dispatch_eq`: the dispatcher keeps one row for each rule that an event matches;
* `truthfulDeliveries_iff`: when the rows are truthful.
-/

namespace Strix

open RetryLoops

variable {config : DispatcherConfig} {posts : Nat → PostResult}

namespace PostResult

/-- The status code of the response, if there was one. -/
def code : PostResult → Option Nat
  | response status => some status
  | failed _ => none

/-- What went wrong with the post. -/
def error (statusText : Nat → String) : PostResult → String
  | response status => "non-success status " ++ statusText status
  | failed message => message

end PostResult

/-! ## The loop -/

/-- The error of the attempt before. -/
def errorBefore (statusText : Nat → String) (posts : Nat → PostResult) : Nat → Option String
  | 0 => none
  | n + 1 => some ((posts n).error statusText)

/-- The loop of `deliver_webhook` after so many failed attempts. -/
def deliverAfter (config : DispatcherConfig) (posts : Nat → PostResult) (n : Nat) :
    List PostResult × Option DeliveryOutcome :=
  deliverFrom config.statusText config.maxRetries config.retryBaseDelay posts
    (config.maxRetries.toNat + 1 - n) n (latest PostResult.code posts n)
    (errorBefore config.statusText posts n)

/-- The pause after an attempt can be taken, if there is one. -/
def Pauses (config : DispatcherConfig) (attempt : Nat) : Prop :=
  attempt < config.maxRetries.toNat → retryDelay config.retryBaseDelay attempt ≠ none

instance (attempt : Nat) : Decidable (Pauses config attempt) :=
  inferInstanceAs (Decidable (_ → _))

/-- A successful attempt ends the loop. -/
theorem deliverAfter_success {n : Nat} (hn : n ≤ config.maxRetries.toNat)
    (hsuccess : (posts n).isSuccess = true) :
    deliverAfter config posts n =
      ([posts n], some
        { attempts := UInt32.ofNat n + 1
          status := .success
          responseCode := (posts n).code
          lastError := none }) := by
  have hleft : config.maxRetries.toNat + 1 - n = config.maxRetries.toNat - n + 1 := by omega
  rw [deliverAfter, hleft]
  cases hpost : posts n with
  | response status =>
      rw [hpost] at hsuccess
      simp only [deliverFrom, hpost, hsuccess, if_true, PostResult.code]
  | failed message =>
      rw [hpost] at hsuccess
      cases hsuccess

/-- A failed attempt whose pause is too long stops the process. -/
theorem deliverAfter_panics {n : Nat} (hn : n ≤ config.maxRetries.toNat)
    (hfailed : (posts n).isSuccess = false) (hpause : ¬Pauses config n) :
    deliverAfter config posts n = ([posts n], none) := by
  have hleft : config.maxRetries.toNat + 1 - n = config.maxRetries.toNat - n + 1 := by omega
  have hpause' : n < config.maxRetries.toNat ∧ retryDelay config.retryBaseDelay n = none := by
    simpa only [Pauses, Classical.not_imp, not_not] using hpause
  rw [deliverAfter, hleft]
  cases hpost : posts n with
  | response status =>
      rw [hpost] at hfailed
      rw [deliverFrom]
      simp only [hpost, hfailed, Bool.false_eq_true, if_false, if_pos hpause']
  | failed message =>
      rw [deliverFrom]
      simp only [hpost, if_pos hpause']

/-- After any other failed attempt the loop goes on, with the code of the attempt if it
got a response. -/
theorem deliverFrom_failed {n : Nat} (hfailed : (posts n).isSuccess = false)
    (hpause : Pauses config n) (left : Nat) (code : Option Nat) (error : Option String) :
    deliverFrom config.statusText config.maxRetries config.retryBaseDelay posts
        (left + 1) n code error =
      (posts n :: (deliverFrom config.statusText config.maxRetries config.retryBaseDelay posts
          left (n + 1) ((posts n).code.or code) (some ((posts n).error config.statusText))).1,
        (deliverFrom config.statusText config.maxRetries config.retryBaseDelay posts
          left (n + 1) ((posts n).code.or code)
            (some ((posts n).error config.statusText))).2) := by
  have hpause' : ¬(n < config.maxRetries.toNat ∧
      retryDelay config.retryBaseDelay n = none) := fun h => hpause h.1 h.2
  cases hpost : posts n with
  | response status =>
      rw [hpost] at hfailed
      rw [deliverFrom]
      simp only [hpost, hfailed, Bool.false_eq_true, if_false, if_neg hpause']
      rfl
  | failed message =>
      rw [deliverFrom]
      simp only [hpost, if_neg hpause']
      rfl

/-- The same, said of the loop after so many failed attempts. -/
theorem deliverAfter_failed {n : Nat} (hn : n ≤ config.maxRetries.toNat)
    (hfailed : (posts n).isSuccess = false) (hpause : Pauses config n) :
    deliverAfter config posts n =
      (posts n :: (deliverAfter config posts (n + 1)).1,
        (deliverAfter config posts (n + 1)).2) := by
  have hleft : config.maxRetries.toNat + 1 - n = config.maxRetries.toNat + 1 - (n + 1) + 1 := by
    omega
  rw [deliverAfter, hleft, deliverFrom_failed hfailed hpause]
  rfl

/-- The loop ends when all attempts are used up. -/
theorem deliverAfter_all :
    deliverAfter config posts (config.maxRetries.toNat + 1) =
      ([], some
        { attempts := config.maxRetries + 1
          status := .failed
          responseCode := latest PostResult.code posts (config.maxRetries.toNat + 1)
          lastError := some ((posts config.maxRetries.toNat).error config.statusText) }) := by
  rw [deliverAfter, Nat.sub_self]
  rfl

/-- **The attempts that have failed** were posted, and the loop goes on with the latest
code and the last error. -/
theorem deliverWebhook_after {n : Nat} (hn : n ≤ config.maxRetries.toNat + 1)
    (hfailed : ∀ i, i < n → (posts i).isSuccess = false)
    (hpauses : ∀ i, i < n → Pauses config i) :
    deliverWebhook config.statusText config.maxRetries config.retryBaseDelay posts =
      ((List.range n).map posts ++ (deliverAfter config posts n).1,
        (deliverAfter config posts n).2) := by
  induction n with
  | zero => rfl
  | succ n ih =>
      have hbefore := ih (by omega) (fun i hi => hfailed i (by omega))
        (fun i hi => hpauses i (by omega))
      have hlast := hfailed n (Nat.lt_succ_self n)
      have hpause := hpauses n (Nat.lt_succ_self n)
      rw [hbefore, deliverAfter_failed (by omega) hlast hpause, List.range_succ]
      simp

/-- The pauses after the attempts that fail in a row can be taken. -/
def PausesFit (config : DispatcherConfig) (posts : Nat → PostResult) : Prop :=
  ∀ attempt, (∀ i, i ≤ attempt → (posts i).isSuccess = false) → Pauses config attempt

/-- A pause that is too long stops the process. -/
theorem deliverWebhook_panics (h : ¬PausesFit config posts) :
    (deliverWebhook config.statusText config.maxRetries config.retryBaseDelay posts).2 = none := by
  unfold PausesFit at h
  push Not at h
  -- the first pause that cannot be taken
  have hfirst := Nat.find_spec h
  have hbefore {i : Nat} (hi : i < Nat.find h) : Pauses config i := by
    by_contra hpause
    exact Nat.find_min h hi ⟨fun j hj => hfirst.1 j (by omega), hpause⟩
  have hlt : Nat.find h < config.maxRetries.toNat := (Classical.not_imp.mp hfirst.2).1
  rw [deliverWebhook_after (Nat.le_of_lt (Nat.lt_succ_of_lt hlt))
    (fun i hi => hfirst.1 i (Nat.le_of_lt hi)) (fun i hi => hbefore hi),
    deliverAfter_panics (Nat.le_of_lt hlt) (hfirst.1 _ (Nat.le_refl _)) hfirst.2]

/-- The outcome after so many posts, the last of which ends the loop. -/
def outcomeAfter (config : DispatcherConfig) (posts : Nat → PostResult) (tries : Nat) :
    DeliveryOutcome :=
  let last := posts (tries - 1)
  if last.isSuccess then
    { attempts := UInt32.ofNat tries
      status := .success
      responseCode := last.code
      lastError := none }
  else
    { attempts := UInt32.ofNat tries
      status := .failed
      responseCode := latest PostResult.code posts tries
      lastError := some (last.error config.statusText) }

theorem attempts_outcomeAfter (tries : Nat) :
    (outcomeAfter config posts tries).attempts.toNat = tries % 2 ^ 32 := by
  unfold outcomeAfter
  cases hlast : (posts (tries - 1)).isSuccess <;> simp [hlast]

theorem status_outcomeAfter (tries : Nat) :
    (outcomeAfter config posts tries).status = .success ↔
      (posts (tries - 1)).isSuccess = true := by
  unfold outcomeAfter
  cases hlast : (posts (tries - 1)).isSuccess <;> simp [hlast]

theorem lastError_outcomeAfter (tries : Nat) :
    (outcomeAfter config posts tries).lastError =
      if (posts (tries - 1)).isSuccess then none
      else some ((posts (tries - 1)).error config.statusText) := by
  unfold outcomeAfter
  cases hlast : (posts (tries - 1)).isSuccess <;> simp [hlast]

/-- **What a delivery comes to** if its pauses can be taken. -/
theorem deliverWebhook_outcome {tries : Nat}
    (h : Tried posts PostResult.isSuccess (config.maxRetries.toNat + 1) tries)
    (hpauses : PausesFit config posts) :
    deliverWebhook config.statusText config.maxRetries config.retryBaseDelay posts =
      ((List.range tries).map posts, some (outcomeAfter config posts tries)) := by
  obtain ⟨n, rfl⟩ : ∃ n, tries = n + 1 := ⟨tries - 1, by have := h.pos; omega⟩
  have hn : n ≤ config.maxRetries.toNat := by have := h.le; omega
  have hfailed (i : Nat) (hi : i < n) : (posts i).isSuccess = false := h.before i (by omega)
  have hfit (i : Nat) (hi : i < n) : Pauses config i :=
    hpauses i fun j hj => hfailed j (by omega)
  rw [deliverWebhook_after (by omega) hfailed hfit, List.range_succ, List.map_append]
  unfold outcomeAfter
  rw [Nat.add_sub_cancel]
  cases hlast : (posts n).isSuccess with
  | true =>
      rw [deliverAfter_success hn hlast, UInt32.ofNat_add]
      simp [hlast]
  | false =>
      -- the last attempt failed, so that all were made
      have hall : n = config.maxRetries.toNat := by
        by_contra hne
        have hstop := h.last (by omega)
        rw [Nat.add_sub_cancel, hlast] at hstop
        cases hstop
      subst hall
      have hpause : Pauses config config.maxRetries.toNat := fun hlt =>
        absurd hlt (Nat.lt_irrefl _)
      rw [deliverAfter_failed hn hlast hpause, deliverAfter_all, UInt32.ofNat_add,
        UInt32.ofNat_toNat]
      simp [hlast]

/-! ## Truthful outcomes -/

/-- **The outcome of a delivery is truthful**: the webhook was posted to until a post
succeeded or as often as is allowed, and the outcome says how often and what came of the
last post. -/
structure Truthful (config : DispatcherConfig) (posts : Nat → PostResult)
    (made : List PostResult) (outcome : DeliveryOutcome) : Prop where
  tried : Tried posts PostResult.isSuccess (config.maxRetries.toNat + 1) made.length
  posted : made = (List.range made.length).map posts
  attempts : outcome.attempts.toNat = made.length
  status : outcome.status = .success ↔ (posts (made.length - 1)).isSuccess = true
  responseCode : outcome.responseCode = (posts (made.length - 1)).code
  lastError : outcome.lastError =
    if (posts (made.length - 1)).isSuccess then none
    else some ((posts (made.length - 1)).error config.statusText)

/-- A delivery returns, with a truthful outcome. -/
def DeliversTruthfully (config : DispatcherConfig) (posts : Nat → PostResult) : Prop :=
  ∃ outcome,
    (deliverWebhook config.statusText config.maxRetries config.retryBaseDelay posts).2 =
        some outcome ∧
      Truthful config posts
        (deliverWebhook config.statusText config.maxRetries config.retryBaseDelay posts).1 outcome

/-- **The deliveries that go well**: no pause is too long, the number of attempts fits,
and no attempt that got a response comes before a last one that got none. -/
structure Deliverable (config : DispatcherConfig) (posts : Nat → PostResult) : Prop where
  pauses : PausesFit config posts
  counted : config.maxRetries.toNat + 1 < 2 ^ 32 ∨
    ∃ i, i < config.maxRetries.toNat ∧ (posts i).isSuccess = true
  code : (∃ i, i ≤ config.maxRetries.toNat ∧ (posts i).isSuccess = true) ∨
    (posts config.maxRetries.toNat).code.isSome = true ∨
    ∀ i, i < config.maxRetries.toNat → (posts i).code = none

section Tries

variable {tries : Nat}
  (h : Tried posts PostResult.isSuccess (config.maxRetries.toNat + 1) tries)
include h

/-- If the last post failed, all attempts were made. -/
theorem tries_of_failed (hfailed : (posts (tries - 1)).isSuccess = false) :
    tries = config.maxRetries.toNat + 1 ∧
      ∀ i, i ≤ config.maxRetries.toNat → (posts i).isSuccess = false := by
  have hall : tries = config.maxRetries.toNat + 1 := by
    by_contra hne
    have hle := h.le
    have hstop := h.last (by omega)
    rw [hfailed] at hstop
    cases hstop
  refine ⟨hall, fun i hi => ?_⟩
  by_cases hlast : i = tries - 1
  · rw [hlast]
    exact hfailed
  · exact h.before i (by omega)

/-- The number of attempts fits exactly if they can be counted. -/
theorem tries_lt_iff : tries < 2 ^ 32 ↔
    (config.maxRetries.toNat + 1 < 2 ^ 32 ∨
      ∃ i, i < config.maxRetries.toNat ∧ (posts i).isSuccess = true) := by
  have hpos := h.pos
  have hle := h.le
  have hbound := config.maxRetries.toNat_lt
  constructor
  · intro hlt
    by_cases hfits : config.maxRetries.toNat + 1 < 2 ^ 32
    · exact Or.inl hfits
    · exact Or.inr ⟨tries - 1, by omega, h.last (by omega)⟩
  · intro hcounted
    rcases hcounted with hfits | ⟨i, hi, hsuccess⟩
    · omega
    · have hstop : tries ≤ i + 1 := by
        by_contra hmore
        have hfailed := h.before i (by omega)
        rw [hsuccess] at hfailed
        cases hfailed
      omega

/-- The code that is recorded is the last post's exactly if no code of an earlier post is
kept. -/
theorem responseCode_iff :
    (outcomeAfter config posts tries).responseCode = (posts (tries - 1)).code ↔
      ((∃ i, i ≤ config.maxRetries.toNat ∧ (posts i).isSuccess = true) ∨
        (posts config.maxRetries.toNat).code.isSome = true ∨
        ∀ i, i < config.maxRetries.toNat → (posts i).code = none) := by
  unfold outcomeAfter
  cases hlast : (posts (tries - 1)).isSuccess with
  | true =>
      have hpos := h.pos
      have hle := h.le
      simp only [hlast, if_true, true_iff]
      exact Or.inl ⟨tries - 1, by omega, hlast⟩
  | false =>
      obtain ⟨rfl, hfailed⟩ := tries_of_failed h hlast
      rw [Nat.add_sub_cancel] at hlast
      have hnone : ¬∃ i, i ≤ config.maxRetries.toNat ∧ (posts i).isSuccess = true := by
        rintro ⟨i, hi, hsuccess⟩
        rw [hfailed i hi] at hsuccess
        cases hsuccess
      simp only [Nat.add_sub_cancel, hlast, Bool.false_eq_true, if_false, latest_eq_iff, hnone,
        false_or]

/-- When the outcome after these posts is truthful. -/
theorem truthful_outcomeAfter_iff :
    Truthful config posts ((List.range tries).map posts) (outcomeAfter config posts tries) ↔
      (config.maxRetries.toNat + 1 < 2 ^ 32 ∨
        ∃ i, i < config.maxRetries.toNat ∧ (posts i).isSuccess = true) ∧
      ((∃ i, i ≤ config.maxRetries.toNat ∧ (posts i).isSuccess = true) ∨
        (posts config.maxRetries.toNat).code.isSome = true ∨
        ∀ i, i < config.maxRetries.toNat → (posts i).code = none) := by
  have hlength : ((List.range tries).map posts).length = tries := by simp
  have hattempts : (outcomeAfter config posts tries).attempts.toNat = tries % 2 ^ 32 :=
    attempts_outcomeAfter tries
  rw [← tries_lt_iff h, ← responseCode_iff h]
  constructor
  · intro htruthful
    have hcount := htruthful.attempts
    have hcode := htruthful.responseCode
    rw [hlength] at hcount hcode
    rw [hattempts] at hcount
    exact ⟨by omega, hcode⟩
  · intro ⟨hlt, hcode⟩
    exact
      { tried := by rw [hlength]; exact h
        posted := by rw [hlength]
        attempts := by rw [hlength, hattempts, Nat.mod_eq_of_lt hlt]
        status := by rw [hlength]; exact status_outcomeAfter tries
        responseCode := by rw [hlength]; exact hcode
        lastError := by rw [hlength]; exact lastError_outcomeAfter tries }

end Tries

/-- **A delivery is truthful** exactly if it is one of those that go well. -/
theorem deliversTruthfully_iff :
    DeliversTruthfully config posts ↔ Deliverable config posts := by
  obtain ⟨tries, htried⟩ : ∃ tries,
      Tried posts PostResult.isSuccess (config.maxRetries.toNat + 1) tries :=
    exists_tried (Nat.succ_pos _)
  unfold DeliversTruthfully
  by_cases hpauses : PausesFit config posts
  · rw [deliverWebhook_outcome htried hpauses]
    constructor
    · rintro ⟨outcome, houtcome, htruthful⟩
      cases houtcome
      obtain ⟨hcounted, hcode⟩ := (truthful_outcomeAfter_iff htried).mp htruthful
      exact ⟨hpauses, hcounted, hcode⟩
    · intro hgood
      exact ⟨_, rfl, (truthful_outcomeAfter_iff htried).mpr ⟨hgood.counted, hgood.code⟩⟩
  · rw [deliverWebhook_panics hpauses]
    constructor
    · rintro ⟨outcome, houtcome, -⟩
      cases houtcome
    · intro hgood
      exact absurd hgood.pauses hpauses

/-! ## The rows -/

/-- The outcome that a row records. -/
def NotificationDeliveryAttempt.outcome (row : NotificationDeliveryAttempt) :
    DeliveryOutcome where
  attempts := row.attempts
  status := row.status
  responseCode := row.responseCode
  lastError := row.lastError

/-- The destination of the rule is a webhook. -/
def RuleTurn.ToWebhook (turn : RuleTurn) : Prop :=
  ∃ url, turn.rule.destination = .webhook url

theorem RuleTurn.ToWebhook.outcome_eq {turn : RuleTurn} (h : turn.ToWebhook) :
    turn.outcome config =
      (deliverWebhook config.statusText config.maxRetries config.retryBaseDelay
        turn.posts).2 := by
  obtain ⟨url, hurl⟩ := h
  simp only [RuleTurn.outcome, hurl]

/-- Any other destination is unsupported. -/
theorem RuleTurn.outcome_other {turn : RuleTurn} (h : ¬turn.ToWebhook) :
    ∃ outcome, turn.outcome config = some outcome ∧ outcome.status = .unsupported ∧
      outcome.attempts = 0 ∧ outcome.responseCode = none := by
  unfold RuleTurn.outcome
  split
  next url hurl => exact absurd ⟨url, hurl⟩ h
  next => exact ⟨_, rfl, rfl, rfl, rfl⟩

/-- The events with the rules that they match, in the order of the dispatcher. -/
def matching (events : List (S3Event × List RuleTurn)) : List (S3Event × RuleTurn) :=
  events.flatMap fun (event, turns) =>
    (turns.filter fun turn => matchesRule turn.rule event).map (event, ·)

/-- Only rules that match are delivered for. -/
theorem mem_matching {events : List (S3Event × List RuleTurn)} {delivery : S3Event × RuleTurn} :
    delivery ∈ matching events ↔
      ∃ turns, (delivery.1, turns) ∈ events ∧ delivery.2 ∈ turns ∧
        matchesRule delivery.2.rule delivery.1 = true := by
  simp only [matching, List.mem_flatMap, List.mem_map, List.mem_filter]
  constructor
  · rintro ⟨⟨event, turns⟩, hevent, turn, ⟨hturn, hmatch⟩, rfl⟩
    exact ⟨turns, hevent, hturn, hmatch⟩
  · rintro ⟨turns, hevent, hturn, hmatch⟩
    exact ⟨_, hevent, delivery.2, ⟨hturn, hmatch⟩, rfl⟩

/-- **A row is the truthful record of a delivery**: it names the event, the rule and the
destination, and its outcome is truthful.  What cannot be delivered is unsupported. -/
structure RecordsDelivery (config : DispatcherConfig) (delivery : S3Event × RuleTurn)
    (row : NotificationDeliveryAttempt) : Prop where
  bucket : row.bucket = delivery.1.bucket
  ruleId : row.ruleId = delivery.2.rule.id
  destination : (row.destinationType, row.target) =
    describeDestination delivery.2.rule.destination
  eventType : row.eventType = delivery.1.eventType.text
  objectKey : row.objectKey = delivery.1.key
  webhook : delivery.2.ToWebhook →
    Truthful config delivery.2.posts
      (deliverWebhook config.statusText config.maxRetries config.retryBaseDelay
        delivery.2.posts).1 row.outcome
  other : ¬delivery.2.ToWebhook →
    row.status = .unsupported ∧ row.attempts = 0 ∧ row.responseCode = none

/-- The record of a delivery is truthful exactly if a delivery to a webhook goes well. -/
theorem recordsDelivery_iff {event : S3Event} {turn : RuleTurn} {id : String} :
    (∃ outcome, turn.outcome config = some outcome ∧
        RecordsDelivery config (event, turn) (turn.record event id outcome)) ↔
      (turn.ToWebhook → Deliverable config turn.posts) := by
  constructor
  · intro ⟨outcome, houtcome, hrecords⟩ hwebhook
    rw [hwebhook.outcome_eq] at houtcome
    exact deliversTruthfully_iff.mp ⟨outcome, houtcome, hrecords.webhook hwebhook⟩
  · intro hgood
    by_cases hwebhook : turn.ToWebhook
    · obtain ⟨outcome, houtcome, htruthful⟩ := deliversTruthfully_iff.mpr (hgood hwebhook)
      rw [← hwebhook.outcome_eq] at houtcome
      exact ⟨outcome, houtcome, rfl, rfl, rfl, rfl, rfl, fun _ => htruthful,
        fun hother => absurd hwebhook hother⟩
    · obtain ⟨outcome, houtcome, hunsupported⟩ := turn.outcome_other hwebhook
      exact ⟨outcome, houtcome, rfl, rfl, rfl, rfl, rfl, fun h => absurd h hwebhook,
        fun _ => hunsupported⟩

/-- The rows of deliveries, whose ids are drawn one after the other. -/
def rowsOf (config : DispatcherConfig) :
    List (S3Event × RuleTurn) → Nat → Option (List NotificationDeliveryAttempt)
  | [], _ => some []
  | (event, turn) :: deliveries, uuids => do
    let outcome ← turn.outcome config
    let rows ← rowsOf config deliveries (uuids + 1)
    some (turn.record event (config.uuid uuids) outcome :: rows)

/-- **The rows are truthful** exactly if all deliveries to webhooks go well. -/
theorem rowsOf_truthful_iff (deliveries : List (S3Event × RuleTurn)) (uuids : Nat) :
    (∃ rows, rowsOf config deliveries uuids = some rows ∧
        List.Forall₂ (RecordsDelivery config) deliveries rows) ↔
      ∀ delivery ∈ deliveries, delivery.2.ToWebhook → Deliverable config delivery.2.posts := by
  induction deliveries generalizing uuids with
  | nil => simp [rowsOf]
  | cons delivery deliveries ih =>
      obtain ⟨event, turn⟩ := delivery
      rw [List.forall_mem_cons, ← ih (uuids + 1),
        ← @recordsDelivery_iff config event turn (config.uuid uuids)]
      constructor
      · intro ⟨rows, hrows, hall⟩
        cases houtcome : turn.outcome config with
        | none => simp [rowsOf, houtcome] at hrows
        | some outcome =>
            cases hrest : rowsOf config deliveries (uuids + 1) with
            | none => simp [rowsOf, houtcome, hrest] at hrows
            | some rest =>
                simp only [rowsOf, houtcome, hrest, Option.bind_eq_bind, Option.bind_some,
                  Option.some.injEq] at hrows
                subst hrows
                obtain ⟨hfirst, hothers⟩ := List.forall₂_cons.mp hall
                exact ⟨⟨outcome, rfl, hfirst⟩, rest, rfl, hothers⟩
      · intro ⟨⟨outcome, houtcome, hfirst⟩, rest, hrest, hothers⟩
        refine ⟨turn.record event (config.uuid uuids) outcome :: rest, ?_, .cons hfirst hothers⟩
        simp [rowsOf, houtcome, hrest]

/-! ## The dispatcher -/

/-- The ids of the rows that are kept were drawn before. -/
def Drawn (config : DispatcherConfig) (s : DispatcherState) : Prop :=
  ∀ row ∈ s.deliveries, ∃ n, n < s.uuids ∧ row.id = config.uuid n

/-- The state with these rows added. -/
def DispatcherState.added (s : DispatcherState) (rows : List NotificationDeliveryAttempt) :
    DispatcherState where
  deliveries := s.deliveries ++ rows
  uuids := s.uuids + rows.length

theorem added_nil (s : DispatcherState) : s.added [] = s := by
  simp [DispatcherState.added]

theorem added_added (s : DispatcherState) (rows rows' : List NotificationDeliveryAttempt) :
    (s.added rows).added rows' = s.added (rows ++ rows') := by
  simp [DispatcherState.added, Nat.add_assoc]

theorem rowsOf_append (deliveries deliveries' : List (S3Event × RuleTurn)) (uuids : Nat) :
    rowsOf config (deliveries ++ deliveries') uuids =
      (rowsOf config deliveries uuids).bind fun rows =>
        (rowsOf config deliveries' (uuids + rows.length)).map (rows ++ ·) := by
  induction deliveries generalizing uuids with
  | nil => simp [rowsOf]
  | cons delivery deliveries ih =>
      obtain ⟨event, turn⟩ := delivery
      rw [List.cons_append, rowsOf, rowsOf, ih]
      cases turn.outcome config with
      | none => rfl
      | some outcome =>
          cases rowsOf config deliveries (uuids + 1) with
          | none => rfl
          | some rows =>
              have hcount : uuids + 1 + rows.length = uuids + (rows.length + 1) := by omega
              simp only [Option.bind_eq_bind, Option.bind_some, List.length_cons, hcount]
              cases rowsOf config deliveries' (uuids + (rows.length + 1)) <;> rfl

/-- Rows are added one part after the other. -/
theorem map_added_append (deliveries deliveries' : List (S3Event × RuleTurn))
    (s : DispatcherState) :
    (rowsOf config (deliveries ++ deliveries') s.uuids).map s.added =
      (rowsOf config deliveries s.uuids).bind fun rows =>
        (rowsOf config deliveries' (s.added rows).uuids).map (s.added rows).added := by
  rw [rowsOf_append]
  cases rowsOf config deliveries s.uuids with
  | none => rfl
  | some rows =>
      rw [Option.bind_some, Option.bind_some, Option.map_map]
      congr 1
      funext rows'
      exact (added_added s rows rows').symm

/-- The ids of new rows are drawn with them. -/
theorem exists_uuid_of_mem {deliveries : List (S3Event × RuleTurn)} {uuids : Nat}
    {rows : List NotificationDeliveryAttempt}
    (hrows : rowsOf config deliveries uuids = some rows) {row : NotificationDeliveryAttempt}
    (hrow : row ∈ rows) : ∃ n, n < uuids + rows.length ∧ row.id = config.uuid n := by
  induction deliveries generalizing uuids rows with
  | nil =>
      cases hrows
      cases hrow
  | cons delivery deliveries ih =>
      obtain ⟨event, turn⟩ := delivery
      cases houtcome : turn.outcome config with
      | none => simp [rowsOf, houtcome] at hrows
      | some outcome =>
          cases hrest : rowsOf config deliveries (uuids + 1) with
          | none => simp [rowsOf, houtcome, hrest] at hrows
          | some rest =>
              simp only [rowsOf, houtcome, hrest, Option.bind_eq_bind, Option.bind_some,
                Option.some.injEq] at hrows
              subst hrows
              rw [List.length_cons]
              rcases List.mem_cons.mp hrow with hfirst | hother
              · exact ⟨uuids, by omega, by rw [hfirst]; rfl⟩
              · obtain ⟨n, hn, hid⟩ := ih hrest hother
                exact ⟨n, by omega, hid⟩

/-- With its rows added, the ids were drawn before. -/
theorem Drawn.added {s : DispatcherState} (h : Drawn config s)
    {deliveries : List (S3Event × RuleTurn)} {rows : List NotificationDeliveryAttempt}
    (hrows : rowsOf config deliveries s.uuids = some rows) : Drawn config (s.added rows) := by
  intro row hrow
  rcases List.mem_append.mp hrow with hkept | hnew
  · obtain ⟨n, hn, hid⟩ := h row hkept
    exact ⟨n, Nat.lt_of_lt_of_le hn (Nat.le_add_right _ _), hid⟩
  · exact exists_uuid_of_mem hrows hnew

section Runs

variable (hinjective : Function.Injective config.uuid)
include hinjective

/-- **A rule is recorded once** if the event matches it, and else not at all. -/
theorem handleRule_eq {event : S3Event} {turn : RuleTurn} {s : DispatcherState}
    (h : Drawn config s) :
    handleRule config event turn s =
      (rowsOf config (([turn].filter fun turn => matchesRule turn.rule event).map (event, ·))
        s.uuids).map s.added := by
  unfold handleRule
  cases hmatch : matchesRule turn.rule event with
  | false => simp [hmatch, rowsOf, added_nil]
  | true =>
      cases houtcome : turn.outcome config with
      | none => simp [hmatch, rowsOf, houtcome]
      | some outcome =>
          have hnew : s.deliveries.any (·.id == config.uuid s.uuids) = false := by
            rw [List.any_eq_false]
            intro row hrow hid
            obtain ⟨n, hn, hrow'⟩ := h row hrow
            rw [beq_iff_eq, hrow'] at hid
            exact Nat.ne_of_lt hn (hinjective hid)
          simp [hmatch, rowsOf, houtcome, logNotificationDelivery, RuleTurn.record, hnew,
            DispatcherState.added, RowTable.insertRow]

/-- **An event is recorded once for each rule that it matches.** -/
theorem handleEvent_eq {event : S3Event} (turns : List RuleTurn) {s : DispatcherState}
    (h : Drawn config s) :
    handleEvent config event turns s =
      (rowsOf config ((turns.filter fun turn => matchesRule turn.rule event).map (event, ·))
        s.uuids).map s.added := by
  induction turns generalizing s with
  | nil => simp [handleEvent, rowsOf, added_nil]
  | cons turn turns ih =>
      have hsplit : (turn :: turns).filter (fun turn => matchesRule turn.rule event) =
          [turn].filter (fun turn => matchesRule turn.rule event) ++
            turns.filter (fun turn => matchesRule turn.rule event) := by
        rw [← List.filter_append, List.singleton_append]
      rw [handleEvent, handleRule_eq hinjective h, hsplit, List.map_append, map_added_append]
      cases hrows : rowsOf config
          (([turn].filter fun turn => matchesRule turn.rule event).map (event, ·)) s.uuids with
      | none => rfl
      | some rows =>
          rw [Option.map_some, Option.bind_some, Option.bind_some]
          exact ih (h.added hrows)

/-- **So are the events of a run.** -/
theorem dispatch_eq (events : List (S3Event × List RuleTurn)) {s : DispatcherState}
    (h : Drawn config s) :
    dispatch config events s = (rowsOf config (matching events) s.uuids).map s.added := by
  induction events generalizing s with
  | nil => simp [dispatch, matching, rowsOf, added_nil]
  | cons event events ih =>
      obtain ⟨event, turns⟩ := event
      have hsplit : matching ((event, turns) :: events) =
          (turns.filter fun turn => matchesRule turn.rule event).map (event, ·) ++
            matching events := List.flatMap_cons
      rw [dispatch, handleEvent_eq hinjective turns h, hsplit, map_added_append]
      cases hrows : rowsOf config
          ((turns.filter fun turn => matchesRule turn.rule event).map (event, ·)) s.uuids with
      | none => rfl
      | some rows =>
          rw [Option.map_some, Option.bind_some, Option.bind_some]
          exact ih (h.added hrows)

/-- **The rows of a run** are truthful records of its deliveries, one for each, exactly if
all deliveries to webhooks go well. -/
theorem dispatch_records_iff (events : List (S3Event × List RuleTurn)) {s : DispatcherState}
    (h : Drawn config s) :
    (∃ s' rows, dispatch config events s = some s' ∧ s'.deliveries = s.deliveries ++ rows ∧
        List.Forall₂ (RecordsDelivery config) (matching events) rows) ↔
      ∀ delivery ∈ matching events, delivery.2.ToWebhook →
        Deliverable config delivery.2.posts := by
  rw [← rowsOf_truthful_iff (matching events) s.uuids, dispatch_eq hinjective events h]
  constructor
  · intro ⟨s', rows, hrun, hrows, hall⟩
    obtain ⟨rows', hrows', rfl⟩ := Option.map_eq_some_iff.mp hrun
    have hsame : rows' = rows := List.append_cancel_left hrows
    exact ⟨rows, by rw [hrows', hsame], hall⟩
  · intro ⟨rows, hrows, hall⟩
    exact ⟨s.added rows, rows, by rw [hrows]; rfl, rfl, hall⟩

end Runs

/-- **Delivery records are truthful** exactly where the deliveries go well: of each single
delivery, and of all that a run of the dispatcher makes. -/
theorem truthfulDeliveries_iff (config : DispatcherConfig) (posts : Nat → PostResult) :
    (DeliversTruthfully config posts ↔ Deliverable config posts) ∧
    (Function.Injective config.uuid →
      ∀ (s : DispatcherState) (events : List (S3Event × List RuleTurn)), Drawn config s →
        ((∃ s' rows, dispatch config events s = some s' ∧
            s'.deliveries = s.deliveries ++ rows ∧
            List.Forall₂ (RecordsDelivery config) (matching events) rows) ↔
          ∀ delivery ∈ matching events, delivery.2.ToWebhook →
            Deliverable config delivery.2.posts)) := by
  constructor
  · exact deliversTruthfully_iff
  · intro hinjective s events hdrawn
    exact dispatch_records_iff hinjective events hdrawn

/-- A dispatcher that tries again once. -/
def oneRetry : DispatcherConfig where
  maxRetries := 1
  statusText status := Nat.repr status
  uuid := numberedUlid

/-- A webhook that answers at once. -/
def answeredPosts (_ : Nat) : PostResult := .response 200

/-- A webhook that fails, and then cannot be reached. -/
def droppedPosts : Nat → PostResult
  | 0 => .response 500
  | _ => .failed "connection refused"

/-- A rule for pictures of a kind. -/
def picturesRule (kind : String) : NotificationRule where
  id := kind
  events := [.objectCreatedAll]
  filter := { keySuffix := some ("." ++ kind) }
  destination := .webhook "http://hooks/photos"

/-- An upload, and a rule for it beside one for pictures of another kind. -/
def uploadTurns : List (S3Event × List RuleTurn) :=
  [({ eventType := .objectCreatedPut, bucket := "photos", key := "cat.jpg", size := some 1
      etag := none, versionId := none, requestId := "1", sourceIp := none },
    [⟨picturesRule "jpg", answeredPosts, 0⟩, ⟨picturesRule "png", answeredPosts, 0⟩])]

/-- The upload is recorded once, for the rule that it matches. -/
theorem truthfulDeliveries_upload :
    (matching uploadTurns).map (·.2.rule.id) = ["jpg"] ∧
    ∃ s' rows, dispatch oneRetry uploadTurns {} = some s' ∧
      s'.deliveries = [] ++ rows ∧
      List.Forall₂ (RecordsDelivery oneRetry) (matching uploadTurns) rows := by
  refine ⟨by decide +kernel,
    ((truthfulDeliveries_iff oneRetry answeredPosts).2 numberedUlid_injective {} uploadTurns
      (fun row hrow => absurd hrow List.not_mem_nil)).mpr ?_⟩
  intro delivery hdelivery _
  have hposts : delivery.2.posts = answeredPosts := by
    obtain ⟨turns, hevent, hturn, -⟩ := mem_matching.mp hdelivery
    obtain ⟨-, rfl⟩ := Prod.mk.inj (List.mem_singleton.mp hevent)
    rcases List.mem_cons.mp hturn with hjpg | hpng
    · rw [hjpg]
    · rw [List.mem_singleton.mp hpng]
  rw [hposts]
  refine ⟨fun attempt hfailed => ?_, Or.inl (by decide), Or.inl ⟨0, by decide, rfl⟩⟩
  cases hfailed 0 (Nat.zero_le _)

/-- **The code of an earlier attempt is recorded**, although the last one got no response. -/
theorem delivery_keepsOldCode :
    (deliverWebhook oneRetry.statusText oneRetry.maxRetries oneRetry.retryBaseDelay
        droppedPosts).2 =
      some { attempts := 2, status := .failed, responseCode := some 500
             lastError := some "connection refused" } ∧
    ¬DeliversTruthfully oneRetry droppedPosts := by
  have houtcome : deliverWebhook oneRetry.statusText oneRetry.maxRetries
      oneRetry.retryBaseDelay droppedPosts =
      ([.response 500, .failed "connection refused"],
        some { attempts := 2, status := .failed, responseCode := some 500
               lastError := some "connection refused" }) := by decide +kernel
  rw [houtcome]
  refine ⟨rfl, ?_⟩
  rintro ⟨outcome, hsome, htruthful⟩
  rw [houtcome] at hsome htruthful
  cases hsome
  exact absurd htruthful.responseCode (by decide)

end Strix

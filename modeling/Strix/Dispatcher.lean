import Strix.Notifications
import Strix.RateLimits
import Strix.S3Audit

/-!
# The notification dispatcher

A background task takes the events that the S3 service has sent, one after the other.
For each rule of the bucket's notification configuration that an event matches it
delivers the event, and keeps a record of the delivery.  Webhooks are posted to, again
and again while the posts fail, with a pause that doubles; other destinations are
recorded as unsupported.

What is posted and the alerts about failed deliveries are left out.  Arithmetic is that
of the release build: unsigned numbers wrap, and a length of time that does not fit
stops the process.
-/

namespace Strix

/-- What comes of a post: a response with its status, or the text of a transport error. -/
inductive PostResult
  | response (status : Nat)
  | failed (message : String)
  deriving DecidableEq, Repr

namespace PostResult

/-- `StatusCode::is_success`. -/
def isSuccess : PostResult → Bool
  | response status => 200 ≤ status && status < 300
  | failed _ => false

end PostResult

/-- The status of a delivery. -/
inductive DeliveryStatus
  | success
  | failed
  | unsupported
  deriving DecidableEq, Repr

/-- The outcome of attempting to deliver a single notification. -/
structure DeliveryOutcome where
  attempts : UInt32
  status : DeliveryStatus
  responseCode : Option Nat
  lastError : Option String
  deriving DecidableEq, Repr

/-- `Duration::MAX`. -/
def Duration.max : Duration := 2 ^ 64 * 1000000000 - 1

/-- `Duration * u32`; none where it panics. -/
def Duration.mul (duration : Duration) (factor : Nat) : Option Duration :=
  if duration * factor ≤ Duration.max then some (duration * factor) else none

/-- The pause after an attempt, `retry_base_delay * 2u32.pow(attempt)`. -/
def retryDelay (retryBaseDelay : Duration) (attempt : Nat) : Option Duration :=
  retryBaseDelay.mul (2 ^ attempt % 2 ^ 32)

/-- The loop of `deliver_webhook` from an attempt on, with as many attempts left, and
the last code and the last error so far.  The posts it makes, and the outcome that it
returns unless it panics. -/
def deliverFrom (statusText : Nat → String) (maxRetries : UInt32) (retryBaseDelay : Duration)
    (posts : Nat → PostResult) :
    Nat → Nat → Option Nat → Option String → List PostResult × Option DeliveryOutcome
  | 0, _, lastResponseCode, lastError =>
    ([], some
      { attempts := maxRetries + 1
        status := .failed
        responseCode := lastResponseCode
        lastError := lastError })
  | left + 1, attempt, lastResponseCode, _ =>
    let result := posts attempt
    -- after a failed attempt, unless it was the last one, there is a pause
    let retry (code : Option Nat) (error : Option String) :=
      if attempt < maxRetries.toNat ∧ retryDelay retryBaseDelay attempt = none then
        ([result], none)
      else
        let (posted, outcome) :=
          deliverFrom statusText maxRetries retryBaseDelay posts left (attempt + 1) code error
        (result :: posted, outcome)
    match result with
    | .response status =>
      if result.isSuccess then
        ([result], some
          { attempts := UInt32.ofNat attempt + 1
            status := .success
            responseCode := some status
            lastError := none })
      else retry (some status) (some ("non-success status " ++ statusText status))
    | .failed message => retry lastResponseCode (some message)

/-- `deliver_webhook`: attempts `0..=max_retries`, each with what its post comes to. -/
def deliverWebhook (statusText : Nat → String) (maxRetries : UInt32) (retryBaseDelay : Duration)
    (posts : Nat → PostResult) : List PostResult × Option DeliveryOutcome :=
  deliverFrom statusText maxRetries retryBaseDelay posts (maxRetries.toNat + 1) 0 none none

/-! ## Rules -/

/-- An event type of a rule stands for the type of an event. -/
def S3EventType.covers (rule event : S3EventType) : Bool :=
  rule == event ||
    match rule, event with
    | .objectCreatedAll, .objectCreatedPut => true
    | .objectCreatedAll, .objectCreatedPost => true
    | .objectCreatedAll, .objectCreatedCopy => true
    | .objectCreatedAll, .objectCreatedCompleteMultipartUpload => true
    | .objectRemovedAll, .objectRemovedDelete => true
    | .objectRemovedAll, .objectRemovedDeleteMarkerCreated => true
    | _, _ => false

/-- `matches_rule`. -/
def matchesRule (rule : NotificationRule) (event : S3Event) : Bool :=
  rule.events.any (·.covers event.eventType) &&
    rule.filter.keyPrefix.all (startsWith event.key) &&
    rule.filter.keySuffix.all (endsWith event.key)

/-- `describe_destination`: its kind and its target. -/
def describeDestination : NotificationDestination → String × String
  | .webhook url => ("webhook", url)
  | .amqp url _ _ => ("amqp", url)
  | .kafka brokers topic => ("kafka", ",".intercalate brokers ++ "/" ++ topic)
  | .redis url channel => ("redis", url ++ "/" ++ channel)

/-! ## Records -/

/-- A persisted record of a notification delivery attempt. -/
structure NotificationDeliveryAttempt where
  id : String
  timestamp : DateTime
  bucket : String
  ruleId : String
  destinationType : String
  target : String
  eventType : String
  objectKey : String
  attempts : UInt32
  status : DeliveryStatus
  responseCode : Option Nat
  lastError : Option String
  deriving DecidableEq, Repr

/-- Dispatcher configuration, with the texts of status codes and the UUIDs. -/
structure DispatcherConfig where
  maxRetries : UInt32 := 3
  retryBaseDelay : Duration := Duration.fromSecs 1
  statusText : Nat → String
  uuid : Nat → String

/-- The table `notification_delivery` and the number of UUIDs drawn. -/
structure DispatcherState where
  deliveries : List NotificationDeliveryAttempt := []
  uuids : Nat := 0
  deriving DecidableEq, Repr

/-- A rule of the configuration that was read for an event, with what posts to its
webhook would come to and the time at which it is done with. -/
structure RuleTurn where
  rule : NotificationRule
  posts : Nat → PostResult
  now : DateTime

/-- The outcome of delivering to the destination of a rule. -/
def RuleTurn.outcome (turn : RuleTurn) (config : DispatcherConfig) : Option DeliveryOutcome :=
  match turn.rule.destination with
  | .webhook _ =>
    (deliverWebhook config.statusText config.maxRetries config.retryBaseDelay turn.posts).2
  | other =>
    some
      { attempts := 0
        status := .unsupported
        responseCode := none
        lastError := some ("destination type '" ++ (describeDestination other).1 ++
          "' is not yet supported for delivery") }

/-- The record of a delivery. -/
def RuleTurn.record (turn : RuleTurn) (event : S3Event) (id : String)
    (outcome : DeliveryOutcome) : NotificationDeliveryAttempt where
  id := id
  timestamp := turn.now
  bucket := event.bucket
  ruleId := turn.rule.id
  destinationType := (describeDestination turn.rule.destination).1
  target := (describeDestination turn.rule.destination).2
  eventType := event.eventType.text
  objectKey := event.key
  attempts := outcome.attempts
  status := outcome.status
  responseCode := outcome.responseCode
  lastError := outcome.lastError

/-- `log_notification_delivery`: an id that is taken is not inserted, which the
dispatcher only warns about. -/
def logNotificationDelivery (attempt : NotificationDeliveryAttempt)
    (deliveries : List NotificationDeliveryAttempt) : List NotificationDeliveryAttempt :=
  if deliveries.any (·.id == attempt.id) then deliveries
  else RowTable.insertRow attempt deliveries

/-- One rule of an event's configuration. -/
def handleRule (config : DispatcherConfig) (event : S3Event) (turn : RuleTurn)
    (s : DispatcherState) : Option DispatcherState :=
  if matchesRule turn.rule event then do
    let outcome ← turn.outcome config
    some
      { deliveries :=
          logNotificationDelivery (turn.record event (config.uuid s.uuids) outcome) s.deliveries
        uuids := s.uuids + 1 }
  else some s

/-- The rules of an event's configuration, one after the other. -/
def handleEvent (config : DispatcherConfig) (event : S3Event) :
    List RuleTurn → DispatcherState → Option DispatcherState
  | [], s => some s
  | turn :: turns, s => (handleRule config event turn s).bind (handleEvent config event turns)

/-- The events that the dispatcher receives, each with the rules of the configuration
that is stored then. -/
def dispatch (config : DispatcherConfig) :
    List (S3Event × List RuleTurn) → DispatcherState → Option DispatcherState
  | [], s => some s
  | (event, turns) :: events, s =>
    (handleEvent config event turns s).bind (dispatch config events)

end Strix

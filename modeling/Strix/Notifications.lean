import Strix.RustText
import Strix.StoreSql

/-!
# Notification rules of a bucket

The admin API adds and removes single rules of a notification configuration.  The
store knows whole configurations only: a handler reads the one there is, edits it
and writes it back.  Reading and writing are two calls of the store, and each may
also fail for reasons of the database.
-/

namespace Strix

open AtomicProgram AtomicProgram.Prog RowTable

/-! ## Configurations -/

/-- Types of S3 events that can trigger notifications. -/
inductive S3EventType
  | objectCreatedAll
  | objectCreatedPut
  | objectCreatedPost
  | objectCreatedCopy
  | objectCreatedCompleteMultipartUpload
  | objectRemovedAll
  | objectRemovedDelete
  | objectRemovedDeleteMarkerCreated
  deriving DecidableEq, Repr

/-- `Display` of an event type, which is also its name in the stored JSON. -/
def S3EventType.text : S3EventType → String
  | objectCreatedAll => "s3:ObjectCreated:*"
  | objectCreatedPut => "s3:ObjectCreated:Put"
  | objectCreatedPost => "s3:ObjectCreated:Post"
  | objectCreatedCopy => "s3:ObjectCreated:Copy"
  | objectCreatedCompleteMultipartUpload => "s3:ObjectCreated:CompleteMultipartUpload"
  | objectRemovedAll => "s3:ObjectRemoved:*"
  | objectRemovedDelete => "s3:ObjectRemoved:Delete"
  | objectRemovedDeleteMarkerCreated => "s3:ObjectRemoved:DeleteMarkerCreated"

inductive NotificationDestination
  | webhook (url : String)
  | amqp (url exchange routingKey : String)
  | kafka (brokers : List String) (topic : String)
  | redis (url channel : String)
  deriving DecidableEq, Repr

structure NotificationFilter where
  keyPrefix : Option String := none
  keySuffix : Option String := none
  deriving DecidableEq, Repr

/-- A notification configuration rule. -/
structure NotificationRule where
  id : String
  events : List S3EventType
  filter : NotificationFilter := {}
  destination : NotificationDestination
  deriving DecidableEq, Repr

structure NotificationConfiguration where
  rules : List NotificationRule := []
  deriving DecidableEq, Repr

/-! ## The calls of the store -/

/-- A row of `bucket_notification`. -/
structure NotificationRow where
  bucket : String
  notificationConfig : NotificationConfiguration
  deriving DecidableEq, Repr

/-- The buckets, their notification configurations, and what the database
currently answers reads and writes with where they fail. -/
structure NotificationWorld where
  buckets : List String := []
  notifications : List NotificationRow := []
  readFault : Option String := none
  writeFault : Option String := none
  deriving DecidableEq, Repr

/-- What else can happen: reads or writes begin to fail, or work again. -/
inductive DatabaseEvent
  | reads (fault : Option String)
  | writes (fault : Option String)

def DatabaseEvent.happens : DatabaseEvent → NotificationWorld → NotificationWorld
  | reads fault, w => { w with readFault := fault }
  | writes fault, w => { w with writeFault := fault }

/-- The configuration in the table. -/
def NotificationWorld.stored (bucket : String) (w : NotificationWorld) :
    Option NotificationConfiguration :=
  (selectFirst (fun r => r.bucket == bucket) w.notifications).map (·.notificationConfig)

/-- The rules in the table. -/
def NotificationWorld.rules (bucket : String) (w : NotificationWorld) : List NotificationRule :=
  ((w.stored bucket).getD {}).rules

def getBucketNotification (bucket : String) (w : NotificationWorld) :
    Except Error (Option NotificationConfiguration) :=
  match w.readFault with
  | some message => .error (dbErr (.fault message))
  | none =>
    if w.buckets.contains bucket then .ok (w.stored bucket)
    else .error (.bucketNotFound bucket)

/-- The first id that a rule before it has. -/
def duplicateId (seen : List String) : List NotificationRule → Option String
  | [] => none
  | rule :: rules =>
    if seen.contains rule.id then some rule.id else duplicateId (rule.id :: seen) rules

/-- `INSERT INTO bucket_notification … ON CONFLICT(bucket) DO UPDATE`. -/
def upsertNotification (bucket : String) (config : NotificationConfiguration)
    (rows : List NotificationRow) : List NotificationRow :=
  if rows.any fun r => r.bucket == bucket then
    updateRows (fun r => r.bucket == bucket) (fun r => { r with notificationConfig := config }) rows
  else insertRow { bucket := bucket, notificationConfig := config } rows

def putBucketNotification (bucket : String) (config : NotificationConfiguration)
    (w : NotificationWorld) : Except Error Unit × NotificationWorld :=
  match w.writeFault with
  | some message => (.error (dbErr (.fault message)), w)
  | none =>
    if w.buckets.contains bucket then
      match duplicateId [] config.rules with
      | some id => (.error (.invalidArgument ("Duplicate notification rule ID: " ++ id)), w)
      | none =>
        (.ok (), { w with notifications := upsertNotification bucket config w.notifications })
    else (.error (.bucketNotFound bucket), w)

/-! ## The handlers -/

/-- `Display` of a store error. -/
def Error.text : Error → String
  | bucketNotFound bucket => "bucket not found: " ++ bucket
  | bucketAlreadyExists bucket => "bucket already exists: " ++ bucket
  | bucketNotEmpty bucket => "bucket not empty: " ++ bucket
  | invalidBucketName message => "invalid bucket name: " ++ message
  | tenantNotFound slug => "tenant not found: " ++ slug
  | tenantAlreadyExists slug => "tenant already exists: " ++ slug
  | objectNotFound bucket key => "object not found: " ++ bucket ++ "/" ++ key
  | uploadNotFound uploadId => "upload not found: " ++ uploadId
  | invalidPartNumber partNumber => "invalid part number: " ++ toString partNumber
  | invalidPartOrder => "invalid part order"
  | entityTooSmall => "entity too small"
  | noSuchPart partNumber => "no such part: " ++ toString partNumber
  | accessDenied => "access denied"
  | preconditionFailed => "precondition failed"
  | notModified => "not modified"
  | invalidRange message => "invalid range: " ++ message
  | objectLocked => "object locked"
  | io message => "storage I/O error: " ++ message
  | serialization message => "serialization error: " ++ message
  | invalidArgument message => "invalid argument: " ++ message
  | missingSecurityHeader => "SSE-C key missing"
  | internal message => "internal error: " ++ message

/-- `CreateNotificationRuleRequest`. -/
structure CreateNotificationRuleRequest where
  id : Option String := none
  events : List String
  keyPrefix : Option String := none
  keySuffix : Option String := none
  destinationType : String
  destinationUrl : String

/-- `NotificationRuleInfo`. -/
structure NotificationRuleInfo where
  id : String
  events : List String
  keyPrefix : Option String
  keySuffix : Option String
  destinationType : String
  destinationUrl : String
  deriving DecidableEq, Repr

/-- The bodies of the replies. -/
inductive NotificationBody
  | empty
  | rule (info : NotificationRuleInfo)
  | error (message : String)
  deriving DecidableEq, Repr

structure NotificationReply where
  status : Nat
  body : NotificationBody := .empty
  deriving DecidableEq, Repr

/-- A status with an `ErrorResponse`. -/
def NotificationReply.refusal (status : Nat) (message : String) : NotificationReply :=
  { status, body := .error message }

/-- The event types that a request may name. -/
def parseEvent : String → Option S3EventType
  | "s3:ObjectCreated:*" => some .objectCreatedAll
  | "s3:ObjectCreated:Put" => some .objectCreatedPut
  | "s3:ObjectCreated:Post" => some .objectCreatedPost
  | "s3:ObjectCreated:Copy" => some .objectCreatedCopy
  | "s3:ObjectCreated:CompleteMultipartUpload" => some .objectCreatedCompleteMultipartUpload
  | "s3:ObjectRemoved:*" => some .objectRemovedAll
  | "s3:ObjectRemoved:Delete" => some .objectRemovedDelete
  | "s3:ObjectRemoved:DeleteMarkerCreated" => some .objectRemovedDeleteMarkerCreated
  | _ => none

/-- Every event type is read back from its text. -/
theorem parseEvent_text (event : S3EventType) : parseEvent event.text = some event := by
  cases event <;> rfl

/-- Kafka's brokers and topic, expected as `brokers:topic`. -/
def parseKafka (destinationUrl : String) : Except NotificationReply NotificationDestination :=
  let parts := destinationUrl.toList.splitOn ':'
  if parts.length < 2 then
    .error (.refusal 400 "Kafka destination should be 'brokers:topic'")
  else
    let brokers := (List.intercalate [':'] parts.dropLast).splitOn ','
    .ok (.kafka (brokers.map String.ofList) (String.ofList (parts.getLastD [])))

def parseDestination (destinationType destinationUrl : String) :
    Except NotificationReply NotificationDestination :=
  match destinationType with
  | "webhook" => .ok (.webhook destinationUrl)
  | "amqp" => .ok (.amqp destinationUrl "strix" "events")
  | "kafka" => parseKafka destinationUrl
  | "redis" => .ok (.redis destinationUrl "strix:events")
  | _ =>
    .error (.refusal 400 "Invalid destination type. Use 'webhook', 'amqp', 'kafka', or 'redis'")

/-- The rule that a request asks for.  A request without an id gets the ULID that
is drawn for it. -/
def CreateNotificationRuleRequest.newRule (req : CreateNotificationRuleRequest) (drawn : String) :
    Except NotificationReply NotificationRule :=
  let events := req.events.filterMap parseEvent
  if events.isEmpty then .error (.refusal 400 "No valid events specified")
  else
    match parseDestination req.destinationType req.destinationUrl with
    | .error refusal => .error refusal
    | .ok destination =>
      .ok { id := req.id.getD drawn
            events := events
            filter := { keyPrefix := req.keyPrefix, keySuffix := req.keySuffix }
            destination := destination }

/-- What a read of the configuration gives. -/
abbrev ReadResult := Except Error (Option NotificationConfiguration)

/-- `.ok().flatten().unwrap_or_default()`: a failed read is an empty configuration. -/
def ReadResult.orDefault (read : ReadResult) : NotificationConfiguration :=
  (read.toOption.join).getD {}

/-- A new rule at the end of what was read. -/
def ReadResult.withRule (read : ReadResult) (rule : NotificationRule) :
    NotificationConfiguration :=
  { rules := read.orDefault.rules ++ [rule] }

/-- Everything but the rules of the id. -/
def NotificationConfiguration.withoutRule (config : NotificationConfiguration) (ruleId : String) :
    NotificationConfiguration :=
  { rules := config.rules.filter fun r => r.id != ruleId }

/-- The reply to a creation that has written. -/
def createdReply (req : CreateNotificationRuleRequest) (rule : NotificationRule) :
    Except Error Unit → NotificationReply
  | .ok () =>
    { status := 201
      body := .rule
        { id := rule.id, events := req.events, keyPrefix := req.keyPrefix
          keySuffix := req.keySuffix, destinationType := req.destinationType
          destinationUrl := req.destinationUrl } }
  | .error e =>
    .refusal (if (textBefore e.text "not found").isSome then 404 else 500) e.text

/-- The reply to a deletion that has written. -/
def deletedReply : Except Error Unit → NotificationReply
  | .ok () => { status := 204 }
  | .error e => .refusal 500 e.text

/-- The program of an admin request. -/
abbrev NotificationProg := Prog NotificationWorld Empty NotificationReply

/-- The rest of `create_bucket_notification`, once the configuration is read. -/
def saveWithRule (bucket : String) (req : CreateNotificationRuleRequest) (rule : NotificationRule)
    (read : ReadResult) : NotificationProg := do
  let saved ← perform (putBucketNotification bucket (read.withRule rule))
  done (createdReply req rule saved)

def createBucketNotification (bucket : String) (req : CreateNotificationRuleRequest)
    (drawn : String) : NotificationProg :=
  match req.newRule drawn with
  | .error refusal => done refusal
  | .ok rule => do
    let read ← observe (getBucketNotification bucket)
    saveWithRule bucket req rule read

/-- The rest of `delete_bucket_notification`, once the configuration is read. -/
def saveWithoutRule (bucket ruleId : String) : ReadResult → NotificationProg
  | .error e => done (.refusal 500 e.text)
  | .ok none => done (.refusal 404 "No notification rules configured")
  | .ok (some config) =>
    if (config.withoutRule ruleId).rules.length = config.rules.length then
      done (.refusal 404 ("Rule '" ++ ruleId ++ "' not found"))
    else do
      let saved ← perform (putBucketNotification bucket (config.withoutRule ruleId))
      done (deletedReply saved)

def deleteBucketNotification (bucket ruleId : String) : NotificationProg := do
  let read ← observe (getBucketNotification bucket)
  saveWithoutRule bucket ruleId read

/-! ## What the calls do -/

theorem duplicateId_eq_none {seen : List String} {rules : List NotificationRule} :
    duplicateId seen rules = none ↔
      Keyed NotificationRule.id rules ∧ ∀ rule ∈ rules, rule.id ∉ seen := by
  induction rules generalizing seen with
  | nil => simp [duplicateId, Keyed]
  | cons rule rules ih =>
      unfold duplicateId
      by_cases hseen : seen.contains rule.id
      · have hmem : rule.id ∈ seen := by simpa using hseen
        simp [hmem]
      · have hmem : rule.id ∉ seen := by simpa using hseen
        rw [if_neg hseen, ih]
        simp only [Keyed, List.map_cons, List.nodup_cons, List.mem_cons, not_or, List.mem_map]
        grind

/-- **A write that succeeds** makes its configuration the stored one. -/
theorem rules_upsert (bucket : String) (config : NotificationConfiguration)
    (w : NotificationWorld) :
    NotificationWorld.rules bucket
        { w with notifications := upsertNotification bucket config w.notifications } =
      config.rules := by
  have hstored : NotificationWorld.stored bucket
      { w with notifications := upsertNotification bucket config w.notifications } =
      some config := by
    have hfound : selectFirst (fun r => r.bucket == bucket)
        (upsertNotification bucket config w.notifications) = _ :=
      selectFirst_upsertRow (fun _ hr => hr) (beq_self_eq_true bucket)
    unfold NotificationWorld.stored
    rw [hfound]
    cases selectFirst (fun r => r.bucket == bucket) w.notifications with
    | none => rfl
    | some row => rfl
  unfold NotificationWorld.rules
  rw [hstored]
  rfl

/-- The store takes the configuration. -/
structure NotificationWorld.Takes (bucket : String) (config : NotificationConfiguration)
    (w : NotificationWorld) : Prop where
  working : w.writeFault = none
  found : bucket ∈ w.buckets
  distinct : Keyed NotificationRule.id config.rules

/-- **What a write does**: it is taken, or it fails and changes nothing. -/
theorem putBucketNotification_cases (bucket : String) (config : NotificationConfiguration)
    (w : NotificationWorld) :
    (w.Takes bucket config ∧ (putBucketNotification bucket config w).1 = .ok () ∧
      (putBucketNotification bucket config w).2.rules bucket = config.rules) ∨
    (¬w.Takes bucket config ∧ (∃ e, (putBucketNotification bucket config w).1 = .error e) ∧
      (putBucketNotification bucket config w).2 = w) := by
  cases hfault : w.writeFault with
  | some message =>
      refine Or.inr ⟨fun htakes => ?_, ⟨dbErr (.fault message), ?_⟩, ?_⟩
      · exact nomatch hfault.symm.trans htakes.working
      · simp [putBucketNotification, hfault]
      · simp [putBucketNotification, hfault]
  | none =>
      by_cases hfound : bucket ∈ w.buckets
      · cases hid : duplicateId [] config.rules with
        | some id =>
            refine Or.inr ⟨fun htakes => ?_,
              ⟨.invalidArgument ("Duplicate notification rule ID: " ++ id), ?_⟩, ?_⟩
            · have hnone := duplicateId_eq_none.mpr ⟨htakes.distinct, fun _ _ => List.not_mem_nil⟩
              exact nomatch hid.symm.trans hnone
            · simp [putBucketNotification, hfault, hfound, hid]
            · simp [putBucketNotification, hfault, hfound, hid]
        | none =>
            refine Or.inl ⟨⟨hfault, hfound, (duplicateId_eq_none.mp hid).1⟩, ?_, ?_⟩
            · simp [putBucketNotification, hfault, hfound, hid]
            · rw [← rules_upsert bucket config w]
              simp [putBucketNotification, hfault, hfound, hid]
      · refine Or.inr ⟨fun htakes => hfound htakes.found, ⟨.bucketNotFound bucket, ?_⟩, ?_⟩
        · simp [putBucketNotification, hfault, hfound]
        · simp [putBucketNotification, hfault, hfound]

end Strix

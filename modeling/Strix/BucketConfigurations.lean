import Strix.CreatedBuckets
import Strix.JsonRecords

/-!
# Configurations of buckets

CORS and lifecycle configurations are kept as JSON in tables of their own, one row for a
bucket, until they or their bucket are deleted.

* `asCorsConfiguration_toValue`, `asLifecycleConfiguration_toValue`: what is written is read
  back.
-/

namespace Strix

open AtomicProgram AtomicProgram.Prog RowTable

/-- What the calls use of other code for these texts: how `chrono` writes and reads dates,
and what `serde_json` says of a text that it cannot read. -/
structure ConfigTexts where
  ofDate : DateTime → String
  asDate : String → Option DateTime
  unreadable : Value → String

/-! ## CORS configurations -/

/-- HTTP methods allowed in CORS. -/
inductive CorsMethod
  | get
  | put
  | post
  | delete
  | head
  deriving DecidableEq, Repr

/-- `Display` of a method, which is also its name in JSON. -/
def CorsMethod.text : CorsMethod → String
  | get => "GET"
  | put => "PUT"
  | post => "POST"
  | delete => "DELETE"
  | head => "HEAD"

/-- The method with this text. -/
def CorsMethod.ofName (name : String) : Option CorsMethod :=
  [get, put, post, delete, head].find? (·.text == name)

/-- A single CORS rule for a bucket. -/
structure CorsRule where
  id : Option String
  allowedOrigins : List String
  allowedMethods : List CorsMethod
  allowedHeaders : List String
  exposeHeaders : List String
  maxAgeSeconds : Option UInt32
  deriving DecidableEq, Repr

/-- The names of the fields in JSON. -/
def CorsRule.names : List String :=
  ["id", "allowed_origins", "allowed_methods", "allowed_headers", "expose_headers",
    "max_age_seconds"]

/-- CORS configuration for a bucket. -/
structure CorsConfiguration where
  rules : List CorsRule
  deriving DecidableEq, Repr

namespace Value

/-- `CorsRule`. -/
def asCorsRule (value : Value) : Option CorsRule := do
  let entries ← value.asRecord CorsRule.names 6
  let id ← asOption asStr (← fieldOf entries "id")
  let allowedOrigins ← (← required entries "allowed_origins").asStrings
  let allowedMethods ← asList (asVariant CorsMethod.ofName) (← required entries "allowed_methods")
  let allowedHeaders ← asDefault [] asStrings (← fieldOf entries "allowed_headers")
  let exposeHeaders ← asDefault [] asStrings (← fieldOf entries "expose_headers")
  let maxAgeSeconds ← asOption asU32 (← fieldOf entries "max_age_seconds")
  some { id, allowedOrigins, allowedMethods, allowedHeaders, exposeHeaders, maxAgeSeconds }

/-- `CorsConfiguration`. -/
def asCorsConfiguration (value : Value) : Option CorsConfiguration := do
  let entries ← value.asRecord ["rules"] 1
  let rules ← asList asCorsRule (← required entries "rules")
  some { rules }

end Value

def CorsMethod.toValue (method : CorsMethod) : Value := .string method.text

def CorsRule.fields (rule : CorsRule) : List (String × Option Value) :=
  [("id", rule.id.map .string),
   ("allowed_origins", some (ofStrings rule.allowedOrigins)),
   ("allowed_methods", some (ofList CorsMethod.toValue rule.allowedMethods)),
   ("allowed_headers", some (ofStrings rule.allowedHeaders)),
   ("expose_headers", some (ofStrings rule.exposeHeaders)),
   ("max_age_seconds", rule.maxAgeSeconds.map ofU32)]

def CorsRule.toValue (rule : CorsRule) : Value := .object (written rule.fields)

def CorsConfiguration.fields (config : CorsConfiguration) : List (String × Option Value) :=
  [("rules", some (ofList CorsRule.toValue config.rules))]

def CorsConfiguration.toValue (config : CorsConfiguration) : Value :=
  .object (written config.fields)

@[simp] theorem CorsMethod.ofName_text (method : CorsMethod) :
    ofName method.text = some method := by
  cases method <;> decide

/-- A method has one text. -/
theorem CorsMethod.text_of_ofName {name : String} {method : CorsMethod}
    (h : ofName name = some method) : method.text = name := by
  have htext := List.find?_some h
  simpa using htext

/-- An option of a text, as it is written. -/
theorem asOption_string (text : Option String) :
    Value.asOption Value.asStr (text.map .string) = some text :=
  asOption_map (fun _ h => Value.noConfusion h) fun _ _ => rfl

/-- An option of a number, as it is written. -/
theorem asOption_ofU32 (n : Option UInt32) :
    Value.asOption Value.asU32 (n.map ofU32) = some n :=
  asOption_map (fun _ h => Value.noConfusion h) fun n _ => asU32_ofU32 n

theorem asCorsRule_toValue (rule : CorsRule) : rule.toValue.asCorsRule = some rule := by
  have hnodup : (rule.fields.map (·.1)).Nodup :=
    (by decide +kernel : CorsRule.names.Nodup)
  have hmethods : Value.asList (Value.asVariant CorsMethod.ofName)
      (ofList CorsMethod.toValue rule.allowedMethods) = some rule.allowedMethods :=
    asList_ofList fun method _ => method.ofName_text
  unfold Value.asCorsRule
  refine bind_read rfl ?_
  refine bind_read (fieldOf_at hnodup 0 rfl) (bind_read (asOption_string _) ?_)
  refine bind_read (required_at hnodup 1 rfl) (bind_read (asStrings_ofStrings _) ?_)
  refine bind_read (required_at hnodup 2 rfl) (bind_read hmethods ?_)
  refine bind_read (fieldOf_at hnodup 3 rfl) (bind_read (asStrings_ofStrings _) ?_)
  refine bind_read (fieldOf_at hnodup 4 rfl) (bind_read (asStrings_ofStrings _) ?_)
  exact bind_read (fieldOf_at hnodup 5 rfl) (bind_read (asOption_ofU32 _) rfl)

/-- **A CORS configuration is read back.** -/
theorem asCorsConfiguration_toValue (config : CorsConfiguration) :
    config.toValue.asCorsConfiguration = some config := by
  have hnodup : (config.fields.map (·.1)).Nodup := List.nodup_singleton _
  have hrules := asList_ofList fun rule (_ : rule ∈ config.rules) => asCorsRule_toValue rule
  unfold Value.asCorsConfiguration
  refine bind_read rfl ?_
  exact bind_read (required_at hnodup 0 rfl) (bind_read hrules rfl)

/-! ## Lifecycle configurations -/

/-- Expiration settings for current object versions. -/
structure LifecycleExpiration where
  days : Option UInt32
  date : Option DateTime
  expiredObjectDeleteMarker : Bool
  deriving DecidableEq, Repr

/-- Transition to a different storage class. -/
structure LifecycleTransition where
  days : Option UInt32
  date : Option DateTime
  storageClass : StorageClass
  deriving DecidableEq, Repr

/-- Expiration for noncurrent object versions. -/
structure NoncurrentVersionExpiration where
  noncurrentDays : UInt32
  newerNoncurrentVersions : Option UInt32
  deriving DecidableEq, Repr

/-- Settings for aborting incomplete multipart uploads. -/
structure AbortIncompleteMultipartUpload where
  daysAfterInitiation : UInt32
  deriving DecidableEq, Repr

/-- A lifecycle rule for automatic object management. -/
structure LifecycleRule where
  id : String
  enabled : Bool
  keyPrefix : Option String
  tags : List (String × String)
  expiration : Option LifecycleExpiration
  transitions : List LifecycleTransition
  noncurrentVersionExpiration : Option NoncurrentVersionExpiration
  abortIncompleteMultipartUpload : Option AbortIncompleteMultipartUpload
  deriving DecidableEq, Repr

/-- Lifecycle configuration for a bucket. -/
structure LifecycleConfiguration where
  rules : List LifecycleRule
  deriving DecidableEq, Repr

/-- `Display` of a storage class, which is also its name in JSON. -/
def StorageClass.text : StorageClass → String
  | standard => "STANDARD"
  | reducedRedundancy => "REDUCED_REDUNDANCY"
  | glacier => "GLACIER"
  | deepArchive => "DEEP_ARCHIVE"

/-- The storage class with this text. -/
def StorageClass.ofName (name : String) : Option StorageClass :=
  [standard, reducedRedundancy, glacier, deepArchive].find? (·.text == name)

def LifecycleExpiration.names : List String := ["days", "date", "expired_object_delete_marker"]

def LifecycleTransition.names : List String := ["days", "date", "storage_class"]

def NoncurrentVersionExpiration.names : List String :=
  ["noncurrent_days", "newer_noncurrent_versions"]

def AbortIncompleteMultipartUpload.names : List String := ["days_after_initiation"]

def LifecycleRule.names : List String :=
  ["id", "enabled", "prefix", "tags", "expiration", "transitions",
    "noncurrent_version_expiration", "abort_incomplete_multipart_upload"]

namespace Value

/-- A date. -/
def asDate (texts : ConfigTexts) (value : Value) : Option DateTime :=
  value.asStr.bind texts.asDate

/-- `(String, String)`. -/
def asPair : Value → Option (String × String)
  | array [string first, string second] => some (first, second)
  | _ => none

/-- `LifecycleExpiration`. -/
def asLifecycleExpiration (texts : ConfigTexts) (value : Value) : Option LifecycleExpiration := do
  let entries ← value.asRecord LifecycleExpiration.names 0
  let days ← asOption asU32 (← fieldOf entries "days")
  let date ← asOption (asDate texts) (← fieldOf entries "date")
  let marker ← asDefault false asBool (← fieldOf entries "expired_object_delete_marker")
  some { days, date, expiredObjectDeleteMarker := marker }

/-- `LifecycleTransition`. -/
def asLifecycleTransition (texts : ConfigTexts) (value : Value) : Option LifecycleTransition := do
  let entries ← value.asRecord LifecycleTransition.names 3
  let days ← asOption asU32 (← fieldOf entries "days")
  let date ← asOption (asDate texts) (← fieldOf entries "date")
  let storageClass ← asVariant StorageClass.ofName (← required entries "storage_class")
  some { days, date, storageClass }

/-- `NoncurrentVersionExpiration`. -/
def asNoncurrentVersionExpiration (value : Value) : Option NoncurrentVersionExpiration := do
  let entries ← value.asRecord NoncurrentVersionExpiration.names 1
  let noncurrentDays ← (← required entries "noncurrent_days").asU32
  let newerNoncurrentVersions ← asOption asU32 (← fieldOf entries "newer_noncurrent_versions")
  some { noncurrentDays, newerNoncurrentVersions }

/-- `AbortIncompleteMultipartUpload`. -/
def asAbortIncompleteMultipartUpload (value : Value) :
    Option AbortIncompleteMultipartUpload := do
  let entries ← value.asRecord AbortIncompleteMultipartUpload.names 1
  let daysAfterInitiation ← (← required entries "days_after_initiation").asU32
  some { daysAfterInitiation }

/-- `LifecycleRule`. -/
def asLifecycleRule (texts : ConfigTexts) (value : Value) : Option LifecycleRule := do
  let entries ← value.asRecord LifecycleRule.names 2
  let id ← (← required entries "id").asStr
  let enabled ← (← required entries "enabled").asBool
  let keyPrefix ← asOption asStr (← fieldOf entries "prefix")
  let tags ← asDefault [] (asList asPair) (← fieldOf entries "tags")
  let expiration ← asOption (asLifecycleExpiration texts) (← fieldOf entries "expiration")
  let transitions ←
    asDefault [] (asList (asLifecycleTransition texts)) (← fieldOf entries "transitions")
  let noncurrentVersionExpiration ←
    asOption asNoncurrentVersionExpiration (← fieldOf entries "noncurrent_version_expiration")
  let abortIncompleteMultipartUpload ←
    asOption asAbortIncompleteMultipartUpload
      (← fieldOf entries "abort_incomplete_multipart_upload")
  some
    { id, enabled, keyPrefix, tags, expiration, transitions, noncurrentVersionExpiration,
      abortIncompleteMultipartUpload }

/-- `LifecycleConfiguration`. -/
def asLifecycleConfiguration (texts : ConfigTexts) (value : Value) :
    Option LifecycleConfiguration := do
  let entries ← value.asRecord ["rules"] 1
  let rules ← asList (asLifecycleRule texts) (← required entries "rules")
  some { rules }

end Value

def ofPair (pair : String × String) : Value := .array [.string pair.1, .string pair.2]

def ConfigTexts.dateValue (texts : ConfigTexts) (date : DateTime) : Value :=
  .string (texts.ofDate date)

def LifecycleExpiration.fields (texts : ConfigTexts) (expiration : LifecycleExpiration) :
    List (String × Option Value) :=
  [("days", expiration.days.map ofU32),
   ("date", expiration.date.map texts.dateValue),
   ("expired_object_delete_marker", some (.bool expiration.expiredObjectDeleteMarker))]

def LifecycleExpiration.toValue (texts : ConfigTexts) (expiration : LifecycleExpiration) : Value :=
  .object (written (expiration.fields texts))

def LifecycleTransition.fields (texts : ConfigTexts) (transition : LifecycleTransition) :
    List (String × Option Value) :=
  [("days", transition.days.map ofU32),
   ("date", transition.date.map texts.dateValue),
   ("storage_class", some (.string transition.storageClass.text))]

def LifecycleTransition.toValue (texts : ConfigTexts) (transition : LifecycleTransition) : Value :=
  .object (written (transition.fields texts))

def NoncurrentVersionExpiration.fields (expiration : NoncurrentVersionExpiration) :
    List (String × Option Value) :=
  [("noncurrent_days", some (ofU32 expiration.noncurrentDays)),
   ("newer_noncurrent_versions", expiration.newerNoncurrentVersions.map ofU32)]

def NoncurrentVersionExpiration.toValue (expiration : NoncurrentVersionExpiration) : Value :=
  .object (written expiration.fields)

def AbortIncompleteMultipartUpload.fields (abort : AbortIncompleteMultipartUpload) :
    List (String × Option Value) :=
  [("days_after_initiation", some (ofU32 abort.daysAfterInitiation))]

def AbortIncompleteMultipartUpload.toValue (abort : AbortIncompleteMultipartUpload) : Value :=
  .object (written abort.fields)

def LifecycleRule.fields (texts : ConfigTexts) (rule : LifecycleRule) :
    List (String × Option Value) :=
  [("id", some (.string rule.id)),
   ("enabled", some (.bool rule.enabled)),
   ("prefix", rule.keyPrefix.map .string),
   ("tags", ofNonempty ofPair rule.tags),
   ("expiration", rule.expiration.map (·.toValue texts)),
   ("transitions", ofNonempty (·.toValue texts) rule.transitions),
   ("noncurrent_version_expiration", rule.noncurrentVersionExpiration.map (·.toValue)),
   ("abort_incomplete_multipart_upload", rule.abortIncompleteMultipartUpload.map (·.toValue))]

def LifecycleRule.toValue (texts : ConfigTexts) (rule : LifecycleRule) : Value :=
  .object (written (rule.fields texts))

def LifecycleConfiguration.fields (texts : ConfigTexts) (config : LifecycleConfiguration) :
    List (String × Option Value) :=
  [("rules", some (ofList (·.toValue texts) config.rules))]

def LifecycleConfiguration.toValue (texts : ConfigTexts) (config : LifecycleConfiguration) :
    Value :=
  .object (written (config.fields texts))

/-- A date that is read as it was written. -/
def ConfigTexts.ReadsBack (texts : ConfigTexts) (date : Option DateTime) : Prop :=
  ∀ d ∈ date, texts.asDate (texts.ofDate d) = some d

/-- All dates of the rule are read as they were written. -/
def LifecycleRule.DatesReadBack (texts : ConfigTexts) (rule : LifecycleRule) : Prop :=
  (∀ expiration ∈ rule.expiration, texts.ReadsBack expiration.date) ∧
    ∀ transition ∈ rule.transitions, texts.ReadsBack transition.date

@[simp] theorem StorageClass.ofName_text (storageClass : StorageClass) :
    ofName storageClass.text = some storageClass := by
  cases storageClass <;> decide

section Dates

variable {texts : ConfigTexts}

theorem asOption_date {date : Option DateTime} (h : texts.ReadsBack date) :
    Value.asOption (Value.asDate texts) (date.map texts.dateValue) = some date :=
  asOption_map (fun _ hnull => Value.noConfusion hnull) h

theorem asLifecycleExpiration_toValue {expiration : LifecycleExpiration}
    (h : texts.ReadsBack expiration.date) :
    (expiration.toValue texts).asLifecycleExpiration texts = some expiration := by
  have hnodup : ((expiration.fields texts).map (·.1)).Nodup :=
    (by decide +kernel : LifecycleExpiration.names.Nodup)
  unfold Value.asLifecycleExpiration
  refine bind_read rfl ?_
  refine bind_read (fieldOf_at hnodup 0 rfl) (bind_read (asOption_ofU32 _) ?_)
  refine bind_read (fieldOf_at hnodup 1 rfl) (bind_read (asOption_date h) ?_)
  exact bind_read (fieldOf_at hnodup 2 rfl) (bind_read rfl rfl)

theorem asLifecycleTransition_toValue {transition : LifecycleTransition}
    (h : texts.ReadsBack transition.date) :
    (transition.toValue texts).asLifecycleTransition texts = some transition := by
  have hnodup : ((transition.fields texts).map (·.1)).Nodup :=
    (by decide +kernel : LifecycleTransition.names.Nodup)
  unfold Value.asLifecycleTransition
  refine bind_read rfl ?_
  refine bind_read (fieldOf_at hnodup 0 rfl) (bind_read (asOption_ofU32 _) ?_)
  refine bind_read (fieldOf_at hnodup 1 rfl) (bind_read (asOption_date h) ?_)
  exact bind_read (required_at hnodup 2 rfl) (bind_read transition.storageClass.ofName_text rfl)

theorem asNoncurrentVersionExpiration_toValue (expiration : NoncurrentVersionExpiration) :
    expiration.toValue.asNoncurrentVersionExpiration = some expiration := by
  have hnodup : (expiration.fields.map (·.1)).Nodup :=
    (by decide +kernel : NoncurrentVersionExpiration.names.Nodup)
  unfold Value.asNoncurrentVersionExpiration
  refine bind_read rfl ?_
  refine bind_read (required_at hnodup 0 rfl) (bind_read (asU32_ofU32 _) ?_)
  exact bind_read (fieldOf_at hnodup 1 rfl) (bind_read (asOption_ofU32 _) rfl)

theorem asAbortIncompleteMultipartUpload_toValue (abort : AbortIncompleteMultipartUpload) :
    abort.toValue.asAbortIncompleteMultipartUpload = some abort := by
  have hnodup : (abort.fields.map (·.1)).Nodup := List.nodup_singleton _
  unfold Value.asAbortIncompleteMultipartUpload
  refine bind_read rfl ?_
  exact bind_read (required_at hnodup 0 rfl) (bind_read (asU32_ofU32 _) rfl)

theorem asLifecycleRule_toValue {rule : LifecycleRule} (h : rule.DatesReadBack texts) :
    (rule.toValue texts).asLifecycleRule texts = some rule := by
  obtain ⟨hexpires, hmoves⟩ := h
  have hnodup : ((rule.fields texts).map (·.1)).Nodup :=
    (by decide +kernel : LifecycleRule.names.Nodup)
  -- lists and options of records are read back as the records are
  have hpairs := asDefault_ofNonempty fun pair (_ : pair ∈ rule.tags) =>
    (rfl : (ofPair pair).asPair = some pair)
  have hexpiration := asOption_map (fun _ hnull => Value.noConfusion hnull)
    fun expiration hmem => asLifecycleExpiration_toValue (hexpires expiration hmem)
  have htransitions := asDefault_ofNonempty
    fun transition hmem => asLifecycleTransition_toValue (hmoves transition hmem)
  have hnoncurrent := asOption_map (fun _ hnull => Value.noConfusion hnull)
    fun expiration (_ : expiration ∈ rule.noncurrentVersionExpiration) =>
      asNoncurrentVersionExpiration_toValue expiration
  have habort := asOption_map (fun _ hnull => Value.noConfusion hnull)
    fun abort (_ : abort ∈ rule.abortIncompleteMultipartUpload) =>
      asAbortIncompleteMultipartUpload_toValue abort
  unfold Value.asLifecycleRule
  refine bind_read rfl ?_
  refine bind_read (required_at hnodup 0 rfl) (bind_read rfl ?_)
  refine bind_read (required_at hnodup 1 rfl) (bind_read rfl ?_)
  refine bind_read (fieldOf_at hnodup 2 rfl) (bind_read (asOption_string _) ?_)
  refine bind_read (fieldOf_at hnodup 3 rfl) (bind_read hpairs ?_)
  refine bind_read (fieldOf_at hnodup 4 rfl) (bind_read hexpiration ?_)
  refine bind_read (fieldOf_at hnodup 5 rfl) (bind_read htransitions ?_)
  refine bind_read (fieldOf_at hnodup 6 rfl) (bind_read hnoncurrent ?_)
  exact bind_read (fieldOf_at hnodup 7 rfl) (bind_read habort rfl)

/-- **A lifecycle configuration is read back**, if its dates are. -/
theorem asLifecycleConfiguration_toValue {config : LifecycleConfiguration}
    (h : ∀ rule ∈ config.rules, rule.DatesReadBack texts) :
    (config.toValue texts).asLifecycleConfiguration texts = some config := by
  have hnodup : ((config.fields texts).map (·.1)).Nodup := List.nodup_singleton _
  have hrules := asList_ofList fun rule hmem => asLifecycleRule_toValue (h rule hmem)
  unfold Value.asLifecycleConfiguration
  refine bind_read rfl ?_
  exact bind_read (required_at hnodup 0 rfl) (bind_read hrules rfl)

end Dates

/-! ## The store -/

/-- A row of `bucket_cors` or `bucket_lifecycle`. -/
structure ConfigRow where
  bucket : String
  config : Value

/-- The store with its tables of configurations. -/
structure ConfiguredWorld where
  world : World := {}
  cors : List ConfigRow := []
  lifecycles : List ConfigRow := []
  notifications : List NotificationRow := []

/-- The configuration in the table. -/
def storedConfig (bucket : String) (rows : List ConfigRow) : Option Value :=
  (selectFirst (·.bucket == bucket) rows).map (·.config)

/-- `INSERT … ON CONFLICT(bucket) DO UPDATE`. -/
def upsertConfig (bucket : String) (config : Value) (rows : List ConfigRow) : List ConfigRow :=
  upsertRow (·.bucket == bucket) (fun row => { row with config := config })
    { bucket := bucket, config := config } rows

/-- The configuration of a bucket that exists, read from its JSON. -/
def ConfiguredWorld.readConfig {γ : Type} (s : ConfiguredWorld) (texts : ConfigTexts)
    (read : Value → Option γ) (bucket : String) (rows : List ConfigRow) :
    Except Error (Option γ) :=
  if bucketRowExists bucket s.world.db then
    match storedConfig bucket rows with
    | none => .ok none
    | some json =>
      match read json with
      | some config => .ok (some config)
      | none => .error (.serialization (texts.unreadable json))
  else .error (.bucketNotFound bucket)

def getBucketCors (texts : ConfigTexts) (bucket : String) (s : ConfiguredWorld) :
    Except Error (Option CorsConfiguration) :=
  s.readConfig texts Value.asCorsConfiguration bucket s.cors

def getBucketLifecycle (texts : ConfigTexts) (bucket : String) (s : ConfiguredWorld) :
    Except Error (Option LifecycleConfiguration) :=
  s.readConfig texts (Value.asLifecycleConfiguration texts) bucket s.lifecycles

/-- What is wrong with a CORS rule. -/
def CorsRule.refusal (rule : CorsRule) : Option Error :=
  if rule.allowedOrigins.isEmpty then
    some (.invalidArgument "CORS rule must have at least one allowed origin")
  else if rule.allowedMethods.isEmpty then
    some (.invalidArgument "CORS rule must have at least one allowed method")
  else none

/-- The first id that one before it is. -/
def repeatedId (seen : List String) : List String → Option String
  | [] => none
  | id :: ids => if seen.contains id then some id else repeatedId (id :: seen) ids

/-- A call on a bucket that exists. -/
def ConfiguredWorld.onBucket (s : ConfiguredWorld) (bucket : String)
    (call : Except Error ConfiguredWorld) : Except Error Unit × ConfiguredWorld :=
  if bucketRowExists bucket s.world.db then
    match call with
    | .ok after => (.ok (), after)
    | .error e => (.error e, s)
  else (.error (.bucketNotFound bucket), s)

/-- The configuration written, if nothing is wrong with its rules. -/
def ConfiguredWorld.withCors (bucket : String) (config : CorsConfiguration)
    (s : ConfiguredWorld) : Except Error ConfiguredWorld :=
  match config.rules.findSome? CorsRule.refusal with
  | some e => .error e
  | none => .ok { s with cors := upsertConfig bucket config.toValue s.cors }

def putBucketCors (bucket : String) (config : CorsConfiguration) (s : ConfiguredWorld) :
    Except Error Unit × ConfiguredWorld :=
  s.onBucket bucket (s.withCors bucket config)

def ConfiguredWorld.withoutCors (bucket : String) (s : ConfiguredWorld) : ConfiguredWorld :=
  { s with cors := deleteRows (·.bucket == bucket) s.cors }

def deleteBucketCors (bucket : String) (s : ConfiguredWorld) :
    Except Error Unit × ConfiguredWorld :=
  s.onBucket bucket (.ok (s.withoutCors bucket))

/-- The configuration written, if no two of its rules have one id. -/
def ConfiguredWorld.withLifecycle (texts : ConfigTexts) (bucket : String)
    (config : LifecycleConfiguration) (s : ConfiguredWorld) : Except Error ConfiguredWorld :=
  match repeatedId [] (config.rules.map (·.id)) with
  | some id => .error (.invalidArgument ("Duplicate lifecycle rule ID: " ++ id))
  | none => .ok { s with lifecycles := upsertConfig bucket (config.toValue texts) s.lifecycles }

def putBucketLifecycle (texts : ConfigTexts) (bucket : String) (config : LifecycleConfiguration)
    (s : ConfiguredWorld) : Except Error Unit × ConfiguredWorld :=
  s.onBucket bucket (s.withLifecycle texts bucket config)

def ConfiguredWorld.withoutLifecycle (bucket : String) (s : ConfiguredWorld) : ConfiguredWorld :=
  { s with lifecycles := deleteRows (·.bucket == bucket) s.lifecycles }

def deleteBucketLifecycle (bucket : String) (s : ConfiguredWorld) :
    Except Error Unit × ConfiguredWorld :=
  s.onBucket bucket (.ok (s.withoutLifecycle bucket))

/-- What a call of the store leaves: a deleted bucket's configurations go with it. -/
def ConfiguredWorld.cascade (s : ConfiguredWorld) (op : Op) (reply : Except Error Reply)
    (world : World) : ConfiguredWorld :=
  match op, reply with
  | .deleteBucket bucket, .ok _ =>
    { world
      cors := deleteRows (·.bucket == bucket) s.cors
      lifecycles := deleteRows (·.bucket == bucket) s.lifecycles
      notifications := deleteRows (·.bucket == bucket) s.notifications }
  | _, _ => { s with world }

/-- The tables that the calls on notifications see. -/
def ConfiguredWorld.notificationWorld (s : ConfiguredWorld) : NotificationWorld where
  buckets := s.world.db.buckets.map (·.name)
  notifications := s.notifications

/-! ## What is stored -/

theorem storedConfig_upsertConfig (bucket : String) (config : Value) (rows : List ConfigRow) :
    storedConfig bucket (upsertConfig bucket config rows) = some config := by
  unfold storedConfig upsertConfig
  rw [selectFirst_upsertRow]
  case hassign => exact fun _ h => h
  case hrow => exact beq_self_eq_true bucket
  cases selectFirst (·.bucket == bucket) rows with
  | none => rfl
  | some row => rfl

/-- A row of another bucket is not one of this. -/
theorem other_bucket {bucket other : String} (hne : other ≠ bucket) {name : String}
    (h : (name == other) = true) : (name == bucket) = false := by
  rw [beq_iff_eq.mp h]
  exact beq_eq_false_iff_ne.mpr hne

theorem storedConfig_upsertConfig_other {bucket other : String} (hne : other ≠ bucket)
    (config : Value) (rows : List ConfigRow) :
    storedConfig bucket (upsertConfig other config rows) = storedConfig bucket rows := by
  unfold storedConfig upsertConfig
  rw [selectFirst_upsertRow_other]
  case h => exact fun _ h => other_bucket hne h
  case hassign => exact fun _ h => other_bucket hne h
  case hrow => exact beq_eq_false_iff_ne.mpr hne

theorem storedConfig_deleteRows_other {bucket other : String} (hne : other ≠ bucket)
    (rows : List ConfigRow) :
    storedConfig bucket (deleteRows (·.bucket == other) rows) = storedConfig bucket rows := by
  unfold storedConfig
  rw [selectFirst_deleteRows_other fun _ h => other_bucket hne h]

/-- What is stored, and readable, is what the calls return. -/
theorem ConfiguredWorld.readConfig_stored {γ : Type} {s : ConfiguredWorld} {texts : ConfigTexts}
    {read : Value → Option γ} {bucket : String} {rows : List ConfigRow} {json : Value} {config : γ}
    (hthere : bucketRowExists bucket s.world.db = true)
    (hstored : storedConfig bucket rows = some json) (hread : read json = some config) :
    s.readConfig texts read bucket rows = .ok (some config) := by
  simp [readConfig, hthere, hstored, hread]

/-- A call that succeeded was on a bucket that exists. -/
theorem ConfiguredWorld.onBucket_ok {s after : ConfiguredWorld} {bucket : String}
    {call : Except Error ConfiguredWorld} (h : s.onBucket bucket call = (.ok (), after)) :
    bucketRowExists bucket s.world.db = true ∧ call = .ok after := by
  unfold onBucket at h
  by_cases hthere : bucketRowExists bucket s.world.db = true
  · rw [if_pos hthere] at h
    cases hcall : call with
    | error e => simp [hcall] at h
    | ok result =>
        rw [hcall] at h
        obtain rfl := (Prod.mk.inj h).2
        exact ⟨hthere, rfl⟩
  · simp [hthere] at h

/-- A call that was refused changes nothing. -/
theorem ConfiguredWorld.onBucket_error {s after : ConfiguredWorld} {bucket : String}
    {call : Except Error ConfiguredWorld} {e : Error}
    (h : s.onBucket bucket call = (.error e, after)) : after = s := by
  unfold onBucket at h
  split at h
  · cases call with
    | ok result => simp at h
    | error e' => exact (Prod.mk.inj h).2.symm
  · exact (Prod.mk.inj h).2.symm

end Strix

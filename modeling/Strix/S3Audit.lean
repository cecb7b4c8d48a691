import Strix.AuditLog
import Strix.Buckets
import Strix.Notifications
import Strix.ObjectDeletes
import Strix.S3Handlers

/-!
# Auditing the S3 API

Three handlers log what they have carried out, under the id of the request, and the
authorization check logs what it refuses at its end, under a new UUID.  A refusal by
a bucket policy and one for want of an IAM provider leave the check before its end.

* `auditedCheck_cases`: what the check logs of its refusals.

The second half has the handlers that log, over the store with its audit log and the
events that the service emits.
-/

namespace Strix

open RowTable

/-! ## The authorization check and its log -/

/-- What a handler asks the authorization check about. -/
structure Check where
  action : String
  bucket : Option String
  key : Option String
  deriving DecidableEq, Repr

/-- `AuditEvent`. -/
structure AuditEvent where
  operation : String
  bucket : Option String
  key : Option String
  principal : Option String
  success : Bool
  errorMessage : Option String
  deriving DecidableEq, Repr

/-- The event of a refusal by default. -/
def refusalEvent (check : Check) (username : String) : AuditEvent where
  operation := check.action
  bucket := check.bucket
  key := check.key
  principal := some username
  success := false
  errorMessage := some "Access denied"

/-- The rest of the check where the IAM policies do not allow the request. -/
def auditedBucketCheck (iam : IamStore) (username : String) (resource : Resource)
    (check : Check) : Except S3Error Unit × Option AuditEvent :=
  let denied : Except S3Error Unit × Option AuditEvent :=
    (.error (s3Error .accessDenied "Access denied"), some (refusalEvent check username))
  match check.bucket with
  | none => denied
  | some bucketName =>
    match iam.isAuthorizedByBucketPolicy bucketName (S3Auth.requestPrincipal username)
        (S3Auth.requestAction check.action) resource with
    | .error _ => (.error (s3Error .internalError "Authorization check failed"), none)
    | .ok (some .allow) => (.ok (), none)
    | .ok (some .deny) => (.error (s3Error .accessDenied "Access denied by bucket policy"), none)
    | .ok none => denied

/-- A denial by the policy of the addressed bucket. -/
def DeniedByPolicy (iam : IamStore) (username : String) (resource : Resource) (check : Check) :
    Prop :=
  ∃ bucketName, check.bucket = some bucketName ∧
    iam.isAuthorizedByBucketPolicy bucketName (S3Auth.requestPrincipal username)
      (S3Auth.requestAction check.action) resource = .ok (some .deny)

namespace Caller

variable (caller : Caller) (now : DateTime) (check : Check)

/-- `check_authorization`, with the event that it logs. -/
def auditedCheck : Except S3Error Unit × Option AuditEvent :=
  match caller.auth.validateSessionToken now caller.credentials caller.headers with
  | .error e => (.error e, none)
  | .ok () =>
    match caller.auth.getUsername now caller.credentials with
    | .error e => (.error e, none)
    | .ok username =>
      if username = "root" then (.ok (), none)
      else
        match caller.auth.iam with
        | none => (.error (s3Error .accessDenied "Access denied"), none)
        | some iam =>
          match S3Auth.requestResource check.bucket check.key with
          | .error e => (.error e, none)
          | .ok resource =>
            if iam.isAuthorized username (S3Auth.requestAction check.action) resource then
              (.ok (), none)
            else auditedBucketCheck iam username resource check

/-- What the check answers. -/
def answer : Except S3Error Unit :=
  caller.auth.checkAuthorization now caller.credentials caller.headers check.action check.bucket
    check.key

/-- **Refused for lack of permission**: the user is known, and the answer is that
access is denied. -/
def refused : Option String :=
  match caller.auth.validateSessionToken now caller.credentials caller.headers,
    caller.auth.getUsername now caller.credentials, caller.answer now check with
  | .ok (), .ok username, .error e => if e.code = .accessDenied then some username else none
  | _, _, _ => none

/-- **The check is left early with a refusal**: there is no IAM provider, or the
policy of the bucket denies what the IAM policies have not allowed. -/
def LeavesEarly : Prop :=
  caller.auth.validateSessionToken now caller.credentials caller.headers = .ok () ∧
    ∃ username, caller.auth.getUsername now caller.credentials = .ok username ∧
      username ≠ "root" ∧
      (caller.auth.iam = none ∨ ∃ iam resource, caller.auth.iam = some iam ∧
        S3Auth.requestResource check.bucket check.key = .ok resource ∧
        iam.isAuthorized username (S3Auth.requestAction check.action) resource = false ∧
        DeniedByPolicy iam username resource check)

end Caller

/-- **What the bucket's half logs**: a refusal, unless the policy has denied. -/
theorem auditedBucketCheck_cases (iam : IamStore) (username : String) (resource : Resource)
    (check : Check) :
    (auditedBucketCheck iam username resource check).1 =
        S3Auth.checkBucketPolicy iam username (S3Auth.requestAction check.action) resource
          check.bucket ∧
      ((auditedBucketCheck iam username resource check).2 = some (refusalEvent check username) ∧
          (∃ e, (auditedBucketCheck iam username resource check).1 = .error e ∧
            e.code = .accessDenied) ∧ ¬DeniedByPolicy iam username resource check ∨
        (auditedBucketCheck iam username resource check).2 = none ∧
          ((∃ e, (auditedBucketCheck iam username resource check).1 = .error e ∧
            e.code = .accessDenied) ↔ DeniedByPolicy iam username resource check)) := by
  unfold auditedBucketCheck S3Auth.checkBucketPolicy DeniedByPolicy
  cases check.bucket with
  | none => simp [s3Error]
  | some bucketName =>
      cases hpolicy : iam.isAuthorizedByBucketPolicy bucketName (S3Auth.requestPrincipal username)
        (S3Auth.requestAction check.action) resource with
      | error e => simp [hpolicy, s3Error]
      | ok effect =>
          cases effect with
          | none => simp [hpolicy, s3Error]
          | some effect => cases effect <;> simp [hpolicy, s3Error]

/-- A request without a resource is not refused for lack of permission. -/
theorem requestResource_error {bucket key : Option String} {e : S3Error}
    (h : S3Auth.requestResource bucket key = .error e) : e.code ≠ .accessDenied := by
  cases bucket with
  | some b => cases key <;> cases h
  | none =>
      cases key with
      | none => cases h
      | some k =>
          cases h
          simp [s3Error]

/-- **What the check logs**: a refusal, unless it is left early. -/
theorem auditedCheck_cases (caller : Caller) (now : DateTime) (check : Check) :
    (caller.auditedCheck now check).1 = caller.answer now check ∧
      ((∃ username, caller.refused now check = some username ∧
          (caller.auditedCheck now check).2 = some (refusalEvent check username) ∧
          ¬caller.LeavesEarly now check) ∨
        ((caller.auditedCheck now check).2 = none ∧
          ((caller.refused now check).isSome ↔ caller.LeavesEarly now check))) := by
  unfold Caller.refused Caller.LeavesEarly Caller.answer Caller.auditedCheck
    S3Auth.checkAuthorization
  cases caller.auth.validateSessionToken now caller.credentials caller.headers with
  | error e => simp [bind, Except.bind]
  | ok _ =>
      cases caller.auth.getUsername now caller.credentials with
      | error e => simp [bind, Except.bind]
      | ok username =>
          by_cases hroot : username = "root"
          · simp [bind, Except.bind, hroot]
          · cases caller.auth.iam with
            | none => simp [bind, Except.bind, hroot, s3Error]
            | some iam =>
                cases hresource : S3Auth.requestResource check.bucket check.key with
                | error e => simp [bind, Except.bind, hroot, requestResource_error hresource]
                | ok resource =>
                    cases hauth : iam.isAuthorized username (S3Auth.requestAction check.action)
                        resource with
                    | true => simp [bind, Except.bind, hroot, hauth]
                    | false =>
                        obtain ⟨hanswer, hcases⟩ :=
                          auditedBucketCheck_cases iam username resource check
                        rw [hanswer] at hcases
                        simp only [bind, Except.bind, if_neg hroot, hauth, Bool.false_eq_true,
                          if_false, hanswer, true_and]
                        rcases hcases with ⟨hevent, ⟨e, he, hcode⟩, hnot⟩ | ⟨hevent, hiff⟩
                        · left
                          simp [he, hcode, hevent, hnot, hauth, hroot]
                        · right
                          refine ⟨hevent, ?_⟩
                          cases hpolicy : S3Auth.checkBucketPolicy iam username
                              (S3Auth.requestAction check.action) resource check.bucket with
                          | ok _ => simpa [hpolicy, hroot, hauth] using hiff
                          | error e => simpa [hpolicy, hroot, hauth] using hiff

/-! ## The service with its log and its events -/

/-- An event emitted by an S3 operation. -/
structure S3Event where
  eventType : S3EventType
  bucket : String
  key : String
  size : Option Nat
  etag : Option String
  versionId : Option String
  requestId : String
  sourceIp : Option String
  deriving DecidableEq, Repr

/-- `RequestAuditContext`. -/
structure RequestAuditContext where
  sourceIp : Option String
  requestId : String

/-- The store, the audit log, the number of UUIDs drawn, and what has been sent to
the dispatcher, if there is a sender. -/
structure ServiceWorld where
  store : World := {}
  log : AuditLog := []
  uuids : Nat := 0
  events : Option (List S3Event) := some []

/-- `emit_event`. -/
def ServiceWorld.emitEvent (event : S3Event) (s : ServiceWorld) : ServiceWorld :=
  { s with events := s.events.map fun sent => sent ++ [event] }

/-- The entry of an event, given the next UUIDs. -/
def auditEntry (uuid : Nat → String) (event : AuditEvent) (ctx : Option RequestAuditContext)
    (now : DateTime) (n : Nat) : AuditLogEntry where
  id := (ctx.map (·.requestId)).getD (uuid n)
  timestamp := now
  operation := event.operation
  bucket := event.bucket
  key := event.key
  principal := event.principal
  sourceIp := ctx.bind (·.sourceIp)
  statusCode := if event.success then 200 else 403
  errorCode := event.errorMessage
  requestId := (ctx.map (·.requestId)).getD (uuid (n + 1))

variable (P : Platform) (uuid : Nat → String)

/-- `log_audit`: a failed insert is not reported. -/
def ServiceWorld.logAudit (event : AuditEvent) (ctx : Option RequestAuditContext) (now : DateTime)
    (s : ServiceWorld) : ServiceWorld :=
  { s with
    log := (logAuditEvent (auditEntry uuid event ctx now s.uuids) s.log).2
    uuids := if ctx.isSome then s.uuids else s.uuids + 2 }

/-- The context of a request: the client's request id, or a new UUID. -/
def ServiceWorld.requestContext (headers : RawHeaders) (s : ServiceWorld) :
    RequestAuditContext × ServiceWorld :=
  match headers.text "x-amz-request-id" with
  | some requestId => ({ sourceIp := forwardedIp headers, requestId }, s)
  | none =>
    ({ sourceIp := forwardedIp headers, requestId := uuid s.uuids },
      { s with uuids := s.uuids + 1 })

/-- The authorization check of a handler. -/
def ServiceWorld.authorize (caller : Caller) (now : DateTime) (check : Check) (s : ServiceWorld) :
    Except S3Error Unit × ServiceWorld :=
  ((caller.auditedCheck now check).1,
    match (caller.auditedCheck now check).2 with
    | some event => s.logAudit uuid event none now
    | none => s)

/-- Checks leave the store and the events alone. -/
theorem authorize_keeps (caller : Caller) (now : DateTime) (check : Check)
    (s : ServiceWorld) :
    (s.authorize uuid caller now check).2.store = s.store ∧
      (s.authorize uuid caller now check).2.events = s.events := by
  unfold ServiceWorld.authorize
  cases (caller.auditedCheck now check).2 <;> exact ⟨rfl, rfl⟩

/-- The event of an operation that was carried out. -/
def successEvent (caller : Caller) (now : DateTime) (check : Check) : AuditEvent where
  operation := check.action
  bucket := check.bucket
  key := check.key
  principal := (caller.auth.getUsername now caller.credentials).toOption
  success := true
  errorMessage := none

/-- A handler that logs what it has carried out: the check, the call of the store,
and the log. -/
def auditedCall {α : Type} (caller : Caller) (ctx : RequestAuditContext) (now : DateTime)
    (check : Check) (call : StoreProg α) (s : ServiceWorld) : Except S3Error α × ServiceWorld :=
  match s.authorize uuid caller now check with
  | (.error e, s) => (.error e, s)
  | (.ok (), s) =>
    match call.run s.store with
    | (.error e, w) => (.error (toS3Error e), { s with store := w })
    | (.ok a, w) =>
      (.ok a, ({ s with store := w } : ServiceWorld).logAudit uuid
        (successEvent caller now check) (some ctx) now)

/-- The check of an operation on a bucket. -/
def bucketCheck (action bucket : String) : Check := { action, bucket := some bucket, key := none }

/-- The check of an operation on an object. -/
def objectCheck (action bucket key : String) : Check :=
  { action, bucket := some bucket, key := some key }

/-- An error of `DeleteObjects`. -/
structure DeleteError where
  key : String
  versionId : Option String
  code : String
  deriving DecidableEq, Repr

/-- What the handlers below answer. -/
inductive S3Output
  | bucketCreated (location : String)
  | bucketDeleted
  | objectDeleted (response : DeleteObjectResponse)
  | objectsDeleted (deleted : List (String × Option String)) (errors : List DeleteError)
  | other
  deriving DecidableEq, Repr

namespace S3Service

variable (caller : Caller) (ctx : RequestAuditContext) (now : DateTime)

/-- `create_bucket`. -/
def createBucket (bucket : String) (region : Option String) (s : ServiceWorld) :
    Except S3Error S3Output × ServiceWorld :=
  let (result, s) := auditedCall uuid caller ctx now (bucketCheck "CreateBucket" bucket)
    (Strix.createBucket bucket { region }) s
  (result.map fun _ => .bucketCreated ("/" ++ bucket), s)

/-- `delete_bucket`. -/
def deleteBucket (bucket : String) (s : ServiceWorld) : Except S3Error S3Output × ServiceWorld :=
  let (result, s) := auditedCall uuid caller ctx now (bucketCheck "DeleteBucket" bucket)
    (Strix.deleteBucket bucket) s
  (result.map fun _ => .bucketDeleted, s)

/-- The event of a deleted object. -/
def deletedEvent (ctx : RequestAuditContext) (bucket key : String)
    (response : DeleteObjectResponse) : S3Event where
  eventType :=
    if response.deleteMarker then .objectRemovedDeleteMarkerCreated else .objectRemovedDelete
  bucket := bucket
  key := key
  size := none
  etag := none
  versionId := response.versionId
  requestId := ctx.requestId
  sourceIp := ctx.sourceIp

/-- `delete_object`. -/
def deleteObject (bucket key : String) (versionId : Option String) (s : ServiceWorld) :
    Except S3Error S3Output × ServiceWorld :=
  match auditedCall uuid caller ctx now (objectCheck "DeleteObject" bucket key)
      (deleteObjectVersion P bucket key versionId) s with
  | (.ok response, s) =>
    (.ok (.objectDeleted response), s.emitEvent (deletedEvent ctx bucket key response))
  | (.error e, s) => (.error e, s)

/-- The loop of `delete_objects`. -/
def deleteEach (bucket : String) : List (String × Option String) → ServiceWorld →
    (List (String × Option String) × List DeleteError) × ServiceWorld
  | [], s => (([], []), s)
  | (key, versionId) :: objects, s =>
    match s.authorize uuid caller now (objectCheck "DeleteObject" bucket key) with
    | (.error _, s) =>
      let ((deleted, errors), s) := deleteEach bucket objects s
      ((deleted, { key, versionId, code := "AccessDenied" } :: errors), s)
    | (.ok (), s) =>
      match (deleteObjectVersion P bucket key versionId).run s.store with
      | (.ok _, w) =>
        let ((deleted, errors), s) := deleteEach bucket objects { s with store := w }
        (((key, versionId) :: deleted, errors), s)
      | (.error _, w) =>
        let ((deleted, errors), s) := deleteEach bucket objects { s with store := w }
        ((deleted, { key, versionId := none, code := "InternalError" } :: errors), s)

/-- `delete_objects`. -/
def deleteObjects (bucket : String) (objects : List (String × Option String))
    (s : ServiceWorld) : Except S3Error S3Output × ServiceWorld :=
  match s.authorize uuid caller now (bucketCheck "DeleteObjects" bucket) with
  | (.error e, s) => (.error e, s)
  | (.ok (), s) =>
    let ((deleted, errors), s) := deleteEach P uuid caller now bucket objects s
    (.ok (.objectsDeleted deleted errors), s)

/-- Checks one after another, as far as they are passed. -/
def authorizeAll : List Check → ServiceWorld → Except S3Error Unit × ServiceWorld
  | [], s => (.ok (), s)
  | check :: checks, s =>
    match s.authorize uuid caller now check with
    | (.error e, s) => (.error e, s)
    | (.ok (), s) => authorizeAll checks s

end S3Service

end Strix

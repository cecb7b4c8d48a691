import Strix.S3Authorization
import Strix.StoreSql

/-!
# Handlers of the S3 service

What the S3 handlers share: the errors that they make of the store's, the
caller whose authorization they check first, and the casts of the integers of a
request.  A handler runs the atomic steps of the store's calls.
-/

namespace Strix

open AtomicProgram AtomicProgram.Prog

/-- `to_s3_error`. -/
def toS3Error : Error → S3Error
  | .bucketNotFound name => s3Error .noSuchBucket ("Bucket not found: " ++ name)
  | .bucketAlreadyExists name =>
    s3Error .bucketAlreadyOwnedByYou ("Bucket already exists: " ++ name)
  | .bucketNotEmpty name => s3Error .bucketNotEmpty ("Bucket not empty: " ++ name)
  | .invalidBucketName message => s3Error .invalidBucketName message
  | .tenantNotFound slug => s3Error .invalidArgument ("Tenant not found: " ++ slug)
  | .tenantAlreadyExists slug =>
    s3Error .bucketAlreadyOwnedByYou ("Tenant already exists: " ++ slug)
  | .objectNotFound bucket key =>
    s3Error .noSuchKey ("Object not found: " ++ bucket ++ "/" ++ key)
  | .uploadNotFound id => s3Error .noSuchUpload ("Upload not found: " ++ id)
  | .invalidPartNumber n => s3Error .invalidPart ("Invalid part number: " ++ toString n)
  | .invalidPartOrder => s3Error .invalidPartOrder "Parts not in ascending order"
  | .entityTooSmall => s3Error .entityTooSmall "Part size too small"
  | .noSuchPart n => s3Error .invalidPart ("No such part: " ++ toString n)
  | .accessDenied => { code := .accessDenied }
  | .preconditionFailed => { code := .preconditionFailed }
  | .notModified => { code := .notModified }
  | .invalidRange message => s3Error .invalidRange message
  | .objectLocked => s3Error .accessDenied "Object is locked"
  | .io message => s3Error .internalError ("I/O error: " ++ message)
  | .serialization message => s3Error .internalError ("Serialization error: " ++ message)
  | .invalidArgument message => s3Error .invalidArgument message
  | .missingSecurityHeader => s3Error .invalidArgument "Missing required security header"
  | .internal message => s3Error .internalError message

/-- A handler of the S3 service: the atomic steps of the store, with S3 errors. -/
abbrev S3Prog (α : Type) := Prog World S3Error α

/-- A call of the store from a handler. -/
def ofStore {α : Type} (call : StoreProg α) : S3Prog α :=
  call.mapError toS3Error

/-- Who sends a request: the settings it is checked against, its credentials and
its headers. -/
structure Caller where
  auth : S3Auth
  credentials : Option Credentials
  headers : HeaderMap

/-- The root user, in a service without an IAM store. -/
def rootCaller : Caller where
  auth := { platform := plainIamPlatform, rootAccessKey := "ROOTKEY", iam := none }
  credentials := some ⟨"ROOTKEY"⟩
  headers := []

/-- What the authorization check answers the caller. -/
def Caller.check (caller : Caller) (now : DateTime) (action bucket key : String) :
    Except S3Error Unit :=
  caller.auth.checkAuthorization now caller.credentials caller.headers action (some bucket)
    (some key)

/-- What the check answers the caller of a handler that addresses a bucket. -/
def Caller.checkBucket (caller : Caller) (now : DateTime) (action bucket : String) :
    Except S3Error Unit :=
  caller.auth.checkAuthorization now caller.credentials caller.headers action (some bucket) none

/-- The authorization check of a handler. -/
def Caller.authorize (caller : Caller) (action bucket key : String) : S3Prog Unit := do
  let now ← observe (·.now)
  lift (caller.check now action bucket key)

/-- `as u16` of an `i32`. -/
def asU16 (n : Int) : Nat := (n % 65536).toNat

/-- `as u32` of an `i32`. -/
def asU32 (n : Int) : Nat := (n % 4294967296).toNat

theorem run_ofStore {α : Type} (call : StoreProg α) (w : World) :
    (ofStore call).run w = ((call.run w).1.mapError toS3Error, (call.run w).2) :=
  run_mapError _ _ _

@[simp] theorem run_authorize_bind {α : Type} (caller : Caller) (action bucket key : String)
    (next : Unit → S3Prog α) (w : World) :
    (caller.authorize action bucket key >>= next).run w =
      match caller.check w.now action bucket key with
      | .ok () => (next ()).run w
      | .error e => (.error e, w) := by
  cases h : caller.check w.now action bucket key <;>
    simp [Caller.authorize, run_bind, h]

/-- A refused store call, as the handler reports it. -/
theorem run_ofStore_error {α : Type} {call : StoreProg α} {e : Error} {w w' : World}
    (h : call.run w = (.error e, w')) : (ofStore call).run w = (.error (toS3Error e), w') := by
  rw [run_ofStore, h]
  rfl

theorem run_ofStore_ok {α : Type} {call : StoreProg α} {a : α} {w w' : World}
    (h : call.run w = (.ok a, w')) : (ofStore call).run w = (.ok a, w') := by
  rw [run_ofStore, h]
  rfl

/-- A handler that has called the store was authorized. -/
theorem authorize_bind_ok {α : Type} {caller : Caller} {action bucket key : String}
    {next : Unit → S3Prog α} {w w' : World} {a : α}
    (h : (caller.authorize action bucket key >>= next).run w = (.ok a, w')) :
    (next ()).run w = (.ok a, w') := by
  rw [run_authorize_bind] at h
  cases hcheck : caller.check w.now action bucket key with
  | error e => simp [hcheck] at h
  | ok _ => simpa only [hcheck] using h

/-- A handler's call that succeeded is one of the store's that did. -/
theorem ofStore_ok {α : Type} {call : StoreProg α} {w w' : World} {a : α}
    (h : (ofStore call).run w = (.ok a, w')) : call.run w = (.ok a, w') := by
  rw [run_ofStore] at h
  obtain ⟨hreply, rfl⟩ := Prod.mk.inj h
  cases hrun : call.run w with
  | mk result after =>
      rw [hrun] at hreply
      cases result with
      | error e => cases hreply
      | ok a' => rw [Except.ok.inj hreply]

end Strix

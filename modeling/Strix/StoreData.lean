import Mathlib.Data.List.Basic
import Mathlib.Logic.Function.Basic

/-!
# The data of the local file store

The store keeps object contents in files and everything else in SQLite.
`ObjectRow`, `BucketRow`, `UploadRow` and `PartRow` are the rows of the four
tables that object operations touch, with the columns they read or write and
the schema's defaults; `Files` holds the blob files under `objects/` and the
part files under `multipart/`; `World` adds the clock and a counter of the
random draws made so far.

`Platform` gathers what the store takes from outside: random draws, digests,
AES-GCM, base64 and SQLite's choice among rows of equal sort key.  The fields
that are propositions state what that code is documented to do.
-/

namespace Strix

/-- Bytes of a file or a message. -/
abbrev Bytes := List UInt8

/-- Instants in nanoseconds since the epoch. -/
abbrev DateTime := Int

/-- SQLite's `datetime('now')` keeps whole seconds. -/
def DateTime.seconds (t : DateTime) : DateTime := t / 1000000000 * 1000000000

/-- `KEY_SIZE`: AES-256 keys have 32 bytes. -/
def keySize : Nat := 32

/-- `NONCE_SIZE`: AES-GCM nonces have 12 bytes. -/
def nonceSize : Nat := 12

/-- `TAG_SIZE`: AES-GCM tags have 16 bytes. -/
def tagSize : Nat := 16

/-- `[u8; KEY_SIZE]`. -/
abbrev EncryptionKey := { bytes : Bytes // bytes.length = keySize }

/-- `[u8; NONCE_SIZE]`. -/
abbrev Nonce := { bytes : Bytes // bytes.length = nonceSize }

/-- User metadata, name by name.  The column holds it as JSON. -/
abbrev Metadata := List (String × String)

/-- The errors of `strix_core::Error` that the store returns. -/
inductive Error
  | bucketNotFound (bucket : String)
  | bucketAlreadyExists (bucket : String)
  | bucketNotEmpty (bucket : String)
  | invalidBucketName (message : String)
  | tenantNotFound (slug : String)
  | tenantAlreadyExists (slug : String)
  | objectNotFound (bucket key : String)
  | uploadNotFound (uploadId : String)
  | invalidPartNumber (partNumber : Nat)
  | invalidPartOrder
  | entityTooSmall
  | noSuchPart (partNumber : Nat)
  | accessDenied
  | preconditionFailed
  | notModified
  | invalidRange (message : String)
  | objectLocked
  | io (message : String)
  | serialization (message : String)
  | invalidArgument (message : String)
  | missingSecurityHeader
  | internal (message : String)
  deriving DecidableEq, Repr

inductive VersioningStatus
  | unversioned
  | enabled
  | suspended
  deriving DecidableEq, Repr

inductive StorageClass
  | standard
  | reducedRedundancy
  | glacier
  | deepArchive
  deriving DecidableEq, Repr

/-- The two values of the `encryption_algorithm` column. -/
inductive ServerSideEncryption
  | aes256
  | sseC
  deriving DecidableEq, Repr

inductive RetentionMode
  | governance
  | compliance
  deriving DecidableEq, Repr

inductive LegalHoldStatus
  | on
  | off
  deriving DecidableEq, Repr

structure BucketRow where
  name : String
  tenantSlug : Option String
  region : Option String
  versioningStatus : VersioningStatus := .unversioned
  objectLockEnabled : Bool := false
  createdAt : DateTime
  deriving DecidableEq, Repr

/-- A row of `objects`.  Rows with `isDeleteMarker` have no blob file. -/
structure ObjectRow where
  id : String
  bucket : String
  key : String
  versionId : String
  size : Nat
  etag : String
  contentType : Option String := none
  contentEncoding : Option String := none
  contentDisposition : Option String := none
  cacheControl : Option String := none
  storageClass : StorageClass := .standard
  userMetadata : Option Metadata := none
  isMultipart : Bool := false
  partCount : Option Nat := none
  isLatest : Bool := true
  isDeleteMarker : Bool := false
  encryptionAlgorithm : Option ServerSideEncryption := none
  encryptionKeyMd5 : Option String := none
  retentionMode : Option RetentionMode := none
  retainUntilDate : Option DateTime := none
  legalHold : Bool := false
  createdAt : DateTime
  lastModified : DateTime
  deriving DecidableEq, Repr

structure UploadRow where
  uploadId : String
  bucket : String
  key : String
  contentType : Option String
  contentEncoding : Option String
  contentDisposition : Option String
  cacheControl : Option String
  storageClass : StorageClass
  userMetadata : Option Metadata
  encryptionAlgorithm : Option ServerSideEncryption
  encryptionKeyMd5 : Option String
  initiatedAt : DateTime
  deriving DecidableEq, Repr

structure PartRow where
  uploadId : String
  partNumber : Nat
  blobId : String
  size : Nat
  etag : String
  createdAt : DateTime
  deriving DecidableEq, Repr

/-- The tables, rows in insertion order. -/
structure Db where
  buckets : List BucketRow := []
  objects : List ObjectRow := []
  uploads : List UploadRow := []
  parts : List PartRow := []
  deriving DecidableEq, Repr

/-- A part file.  `inode` tells a file from a later one of the same name. -/
structure PartFile where
  inode : Nat
  data : Bytes
  deriving DecidableEq, Repr

/-- The files of the store: `objects` by object id, `multipart` by upload id
and part number.  A directory that does not exist is `none`. -/
structure Files where
  objects : String → Option Bytes := fun _ => none
  multipart : String → Option (Nat → Option PartFile) := fun _ => none

/-- Everything an operation can read or change. -/
structure World where
  db : Db := {}
  files : Files := {}
  draws : Nat := 0
  now : DateTime := 0

/-- The code the store calls and does not contain. -/
structure Platform where
  /-- The key file's contents. -/
  masterKey : EncryptionKey
  /-- The ULID that the `n`th random draw yields. -/
  ulid : Nat → String
  ulid_injective : Function.Injective ulid
  ulid_ne_null : ∀ n, ulid n ≠ "null"
  /-- The nonce that the `n`th random draw yields. -/
  nonce : Nat → Nonce
  md5 : Bytes → Bytes
  hmacSha256 : Bytes → Bytes → EncryptionKey
  /-- AES-256-GCM: ciphertext and tag. -/
  gcmEncrypt : EncryptionKey → Nonce → Bytes → Option Bytes
  gcmDecrypt : EncryptionKey → Nonce → Bytes → Option Bytes
  /-- The longest plaintext AES-GCM takes. -/
  maxPlaintext : Nat
  gcmEncrypt_isSome : ∀ k n plain,
    (gcmEncrypt k n plain).isSome ↔ plain.length ≤ maxPlaintext
  gcmEncrypt_length : ∀ k n plain cipher, gcmEncrypt k n plain = some cipher →
    cipher.length = plain.length + tagSize
  gcmDecrypt_gcmEncrypt : ∀ k n plain cipher, gcmEncrypt k n plain = some cipher →
    gcmDecrypt k n cipher = some plain
  base64Encode : Bytes → String
  base64Decode : String → Option Bytes
  /-- The row that `ORDER BY created_at DESC LIMIT 1` yields. -/
  newest : List ObjectRow → Option ObjectRow
  newest_isSome : ∀ rows, (newest rows).isSome ↔ rows ≠ []
  newest_mem : ∀ rows r, newest rows = some r → r ∈ rows
  newest_le : ∀ rows r, newest rows = some r → ∀ r' ∈ rows, r'.createdAt ≤ r.createdAt

/-- The message stream of a request body: chunks, or an error of the source. -/
abbrev ObjectBody := List (Except String Bytes)

structure CreateBucketOpts where
  region : Option String := none
  tenantSlug : Option String := none

structure PutObjectOpts where
  contentType : Option String := none
  contentEncoding : Option String := none
  contentDisposition : Option String := none
  cacheControl : Option String := none
  metadata : Metadata := []
  storageClass : Option StorageClass := none
  serverSideEncryption : Option ServerSideEncryption := none
  sseCustomerKey : Option String := none
  sseCustomerKeyMd5 : Option String := none

structure GetObjectOpts where
  range : Option (Nat × Option Nat) := none
  ifMatch : Option String := none
  ifNoneMatch : Option String := none
  ifModifiedSince : Option DateTime := none
  ifUnmodifiedSince : Option DateTime := none
  versionId : Option String := none
  sseCustomerKey : Option String := none
  sseCustomerKeyMd5 : Option String := none

inductive MetadataDirective
  | copy
  | replace
  deriving DecidableEq, Repr

structure CopyObjectOpts where
  metadataDirective : MetadataDirective := .copy
  metadata : Metadata := []

structure EncryptionInfo where
  algorithm : ServerSideEncryption
  sseCustomerKeyMd5 : Option String
  deriving DecidableEq, Repr

structure ObjectInfo where
  key : String
  size : Nat
  etag : String
  contentType : Option String
  lastModified : DateTime
  metadata : Metadata
  storageClass : StorageClass
  versionId : Option String
  isLatest : Bool
  isDeleteMarker : Bool
  encryption : Option EncryptionInfo
  deriving DecidableEq, Repr

structure GetObjectResponse where
  info : ObjectInfo
  body : Bytes
  deriving DecidableEq, Repr

structure PutObjectResponse where
  etag : String
  versionId : Option String
  deriving DecidableEq, Repr

structure CopyObjectResponse where
  etag : String
  lastModified : DateTime
  versionId : Option String
  deriving DecidableEq, Repr

structure DeleteObjectResponse where
  deleteMarker : Bool
  versionId : Option String
  deriving DecidableEq, Repr

structure MultipartUpload where
  uploadId : String
  bucket : String
  key : String
  initiated : DateTime
  deriving DecidableEq, Repr

structure PartInfo where
  partNumber : Nat
  etag : String
  size : Nat
  lastModified : DateTime
  deriving DecidableEq, Repr

structure CompletePart where
  partNumber : Nat
  etag : String
  deriving DecidableEq, Repr

structure ListPartsOpts where
  maxParts : Option Nat := none
  partNumberMarker : Option Nat := none

structure ListPartsResponse where
  parts : List PartInfo
  isTruncated : Bool
  nextPartNumberMarker : Option Nat
  deriving DecidableEq, Repr

structure ObjectRetention where
  mode : RetentionMode
  retainUntilDate : DateTime
  deriving DecidableEq, Repr

end Strix

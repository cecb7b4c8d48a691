import Strix.MultipartRequests

/-!
# Object requests

The S3 handlers that write, read and copy one object: `PutObject`,
`CreateMultipartUpload`, `GetObject`, `HeadObject`, `GetObjectTagging` and
`CopyObject`.  Each checks the caller's authorization, translates the request
into the store's options and reports what the store answers.

`PutObject` and `CreateMultipartUpload` read the same headers; what encryption
they ask for is decided by `WriteHeaders.putEncryption` and
`WriteHeaders.uploadEncryption`.
-/

namespace Strix

open AtomicProgram AtomicProgram.Prog RowTable

/-- The headers of a request that writes an object. -/
structure WriteHeaders where
  contentType : Option String := none
  contentEncoding : Option String := none
  contentDisposition : Option String := none
  cacheControl : Option String := none
  metadata : Option Metadata := none
  storageClass : Option String := none
  serverSideEncryption : Option String := none
  sseCustomerAlgorithm : Option String := none
  sseCustomerKey : Option String := none
  sseCustomerKeyMd5 : Option String := none

/-- The storage class of a name; an unknown one is the standard class. -/
def storageClassOf (name : String) : StorageClass :=
  if name = "REDUCED_REDUNDANCY" then .reducedRedundancy
  else if name = "GLACIER" then .glacier
  else if name = "DEEP_ARCHIVE" then .deepArchive
  else .standard

namespace WriteHeaders

/-- The encryption that `put_object` asks for: it reads
`x-amz-server-side-encryption` alone. -/
def putEncryption (headers : WriteHeaders) : Option ServerSideEncryption :=
  headers.serverSideEncryption.bind fun sse => if sse = "AES256" then some .aes256 else none

/-- The encryption that `create_multipart_upload` asks for: without AES256,
any of the customer key's headers means SSE-C. -/
def uploadEncryption (headers : WriteHeaders) : Option ServerSideEncryption :=
  if headers.serverSideEncryption = some "AES256" then some .aes256
  else if headers.sseCustomerAlgorithm = some "AES256" ∨ headers.sseCustomerKey.isSome ∨
      headers.sseCustomerKeyMd5.isSome then some .sseC
  else none

/-- The options for the store. -/
def opts (headers : WriteHeaders) (encryption : Option ServerSideEncryption) :
    PutObjectOpts where
  contentType := headers.contentType
  contentEncoding := headers.contentEncoding
  contentDisposition := headers.contentDisposition
  cacheControl := headers.cacheControl
  metadata := headers.metadata.getD []
  storageClass := headers.storageClass.map storageClassOf
  serverSideEncryption := encryption
  sseCustomerKey := headers.sseCustomerKey
  sseCustomerKeyMd5 := headers.sseCustomerKeyMd5

end WriteHeaders

structure PutObjectInput where
  bucket : String
  key : String
  body : Option ObjectBody
  headers : WriteHeaders := {}

structure CreateMultipartUploadInput where
  bucket : String
  key : String
  headers : WriteHeaders := {}

/-- `Range`, as the request parser yields it. -/
inductive HttpRange
  | int (first : Nat) (last : Option Nat)
  | suffix (length : Nat)

/-- `ETagCondition`. -/
inductive ETagCondition
  | any
  | etag (value : String)

structure GetObjectInput where
  bucket : String
  key : String
  versionId : Option String := none
  range : Option HttpRange := none
  ifMatch : Option ETagCondition := none
  ifNoneMatch : Option ETagCondition := none
  ifModifiedSince : Option DateTime := none
  ifUnmodifiedSince : Option DateTime := none
  sseCustomerKey : Option String := none
  sseCustomerKeyMd5 : Option String := none

/-- The handler does not read the version id. -/
structure HeadObjectInput where
  bucket : String
  key : String
  versionId : Option String := none

/-- The handler repeats the version id and does not use it. -/
structure GetObjectTaggingInput where
  bucket : String
  key : String
  versionId : Option String := none

structure CopyObjectInput where
  bucket : String
  key : String
  copySource : CopySource
  metadataDirective : Option String := none
  metadata : Option Metadata := none

/-- What `HeadObject` reports of an object. -/
structure HeadObjectOutput where
  contentLength : Nat
  contentType : Option String
  eTag : String
  lastModified : DateTime
  metadata : Option Metadata
  storageClass : StorageClass
  deriving DecidableEq, Repr

structure GetObjectOutput extends HeadObjectOutput where
  contentRange : Option String
  body : Bytes
  deriving DecidableEq, Repr

structure GetObjectTaggingOutput where
  tagSet : List (String × String)
  versionId : Option String
  deriving DecidableEq, Repr

/-- `dto_etag_condition`. -/
def dtoEtagCondition : ETagCondition → String
  | .any => "*"
  | .etag value => value

/-- `parse_http_range_header`. -/
def parseHttpRangeHeader (range : String) : Option (Nat × Option Nat) := do
  let rest ← stripHead range "bytes="
  let (start, «end») ← splitOnce '-' rest
  let start ← parseUnsigned 64 start
  if «end».isEmpty then some (start, none)
  else
    let last ← parseUnsigned 64 «end»
    if last < start then none else some (start, some last)

namespace GetObjectInput

/-- The range of a request: the parsed one, or what the header itself says. -/
def requestedRange (input : GetObjectInput) (headers : HeaderMap) : Option (Nat × Option Nat) :=
  let parsed := input.range.bind fun
    | .int first last => some (first, last)
    | .suffix _ => none
  parsed.or ((headers.lookup "range").bind parseHttpRangeHeader)

/-- The options for the store; time stamps come with whole seconds. -/
def opts (input : GetObjectInput) (headers : HeaderMap) : GetObjectOpts where
  range := input.requestedRange headers
  ifMatch := input.ifMatch.map dtoEtagCondition
  ifNoneMatch := input.ifNoneMatch.map dtoEtagCondition
  ifModifiedSince := input.ifModifiedSince.map DateTime.seconds
  ifUnmodifiedSince := input.ifUnmodifiedSince.map DateTime.seconds
  versionId := input.versionId
  sseCustomerKey := input.sseCustomerKey
  sseCustomerKeyMd5 := input.sseCustomerKeyMd5

end GetObjectInput

/-- `Content-Range` of a body that starts at `start`; sums of `u64` saturate. -/
def contentRangeOf (start length fullSize : Nat) : String :=
  let last := min (start + (length - 1)) (2 ^ 64 - 1)
  "bytes " ++ toString start ++ "-" ++ toString last ++ "/" ++ toString fullSize

/-- The report of an object. -/
def headObjectOutput (info : ObjectInfo) : HeadObjectOutput where
  contentLength := info.size
  contentType := info.contentType
  eTag := info.etag
  lastModified := info.lastModified
  metadata := if info.metadata.isEmpty then none else some info.metadata
  storageClass := info.storageClass

/-- The report of an object with its body: a range is as long as what was
read, everything else as long as the object. -/
def getObjectOutput (requested : Option (Nat × Option Nat)) (response : GetObjectResponse) :
    GetObjectOutput where
  toHeadObjectOutput := { headObjectOutput response.info with
    contentLength := if requested.isSome then response.body.length else response.info.size }
  contentRange := requested.map fun range =>
    contentRangeOf range.1 response.body.length response.info.size
  body := response.body

/-- `OBJECT_TAGS_METADATA_KEY`. -/
def objectTagsMetadataKey : String := "strix-object-tags"

/-- `decode_object_tags`, given how the JSON text of the tags is read. -/
def decodeObjectTags (readTags : String → Option (List (String × String)))
    (metadata : Metadata) : Except S3Error (List (String × String)) :=
  match metadata.lookup objectTagsMetadataKey with
  | none => .ok []
  | some raw =>
    match readTags raw with
    | some tags => .ok tags
    | none => .error (s3Error .internalError "Invalid stored object tags")

/-- The bucket and the key of a copy's source: joined, and split at the first
slash. -/
def copySourceOf : CopySource → Except S3Error (String × String)
  | .accessPoint => .error (s3Error .invalidArgument "Access point not supported")
  | .outpost => .error (s3Error .invalidArgument "Outpost copy source not supported")
  | .bucket bucket key _ =>
    match splitOnce '/' (bucket ++ "/" ++ key) with
    | some source => .ok source
    | none => .error (s3Error .invalidArgument "Invalid copy source format")

/-- The options of a copy. -/
def CopyObjectInput.opts (input : CopyObjectInput) : CopyObjectOpts where
  metadataDirective := if input.metadataDirective = some "REPLACE" then .replace else .copy
  metadata := input.metadata.getD []

/-! ## The handlers -/

namespace S3Service

variable (P : Platform)

/-- `put_object`. -/
def putObject (caller : Caller) (input : PutObjectInput) : S3Prog PutObjectResponse := do
  caller.authorize "PutObject" input.bucket input.key
  let body ← require input.body (s3Error .invalidRequest "Missing body")
  ofStore (Strix.putObject P input.bucket input.key body
    (input.headers.opts input.headers.putEncryption))

/-- `create_multipart_upload`. -/
def createMultipartUpload (caller : Caller) (input : CreateMultipartUploadInput) :
    S3Prog MultipartUpload := do
  caller.authorize "PutObject" input.bucket input.key
  ofStore (Strix.createMultipartUpload P input.bucket input.key
    (input.headers.opts input.headers.uploadEncryption))

/-- `get_object`. -/
def getObject (caller : Caller) (input : GetObjectInput) : S3Prog GetObjectOutput := do
  caller.authorize "GetObject" input.bucket input.key
  let response ← ofStore (Strix.getObject P input.bucket input.key (input.opts caller.headers))
  return getObjectOutput (input.requestedRange caller.headers) response

/-- `head_object`. -/
def headObject (caller : Caller) (input : HeadObjectInput) : S3Prog HeadObjectOutput := do
  caller.authorize "HeadObject" input.bucket input.key
  let info ← ofStore (Strix.headObject input.bucket input.key)
  return headObjectOutput info

/-- `get_object_tagging`, given how the JSON text of the tags is read. -/
def getObjectTagging (readTags : String → Option (List (String × String))) (caller : Caller)
    (input : GetObjectTaggingInput) : S3Prog GetObjectTaggingOutput := do
  caller.authorize "GetObjectTagging" input.bucket input.key
  let info ← ofStore (Strix.headObject input.bucket input.key)
  let tagSet ← lift (decodeObjectTags readTags info.metadata)
  return { tagSet, versionId := input.versionId }

/-- `copy_object`. -/
def copyObject (caller : Caller) (input : CopyObjectInput) : S3Prog CopyObjectResponse := do
  caller.authorize "PutObject" input.bucket input.key
  let source ← lift (copySourceOf input.copySource)
  caller.authorize "GetObject" source.1 source.2
  ofStore (Strix.copyObject P source.1 source.2 input.bucket input.key input.opts)

end S3Service

end Strix

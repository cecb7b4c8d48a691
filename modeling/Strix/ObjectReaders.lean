import Strix.StoreSql

/-!
# Reading objects

`headObject` and `getObject`: the row is read in one database closure, the
content in a later file operation.  Neither changes anything.

* `getObject_run`: what a read answers is a function of the row it selects and
  that row's blob, `readContent`;
* `readContent_plain`: without a range it is the whole decrypted content.
-/

namespace Strix

open AtomicProgram AtomicProgram.Prog RowTable

/-- The version id in a response: none for the unversioned marker. -/
def ObjectRow.responseVersion (r : ObjectRow) : Option String :=
  if r.versionId = "null" then none else some r.versionId

/-- `parse_encryption_info`. -/
def parseEncryptionInfo (algorithm : Option ServerSideEncryption) (keyMd5 : Option String) :
    Option EncryptionInfo :=
  algorithm.map fun a => { algorithm := a, sseCustomerKeyMd5 := keyMd5 }

/-- The object information of a row. -/
def ObjectRow.info (r : ObjectRow) : ObjectInfo where
  key := r.key
  size := r.size
  etag := r.etag
  contentType := r.contentType
  lastModified := r.lastModified
  metadata := r.userMetadata.getD []
  storageClass := r.storageClass
  versionId := r.responseVersion
  isLatest := r.isLatest
  isDeleteMarker := r.isDeleteMarker
  encryption := parseEncryptionInfo r.encryptionAlgorithm r.encryptionKeyMd5

/-- The version id that a row's object key is derived from. -/
theorem ObjectRow.responseVersion_getD (r : ObjectRow) :
    r.responseVersion.getD "null" = r.versionId := by
  unfold ObjectRow.responseVersion
  by_cases h : r.versionId = "null" <;> simp [h]

/-- `head_object`. -/
def headObject (bucket key : String) : StoreProg ObjectInfo := do
  let selected ← query (selectObject bucket key none)
  let obj ← require selected (.objectNotFound bucket key)
  ensure (!obj.isDeleteMarker) (.objectNotFound bucket key)
  return obj.info

/-- The conditional headers, in the order `get_object` checks them. -/
def checkPreconditions (row : ObjectRow) (opts : GetObjectOpts) : Except Error Unit :=
  let etag := trimQuotes row.etag
  if opts.ifMatch.any fun m => etag ≠ trimQuotes m ∧ m ≠ "*" then .error .preconditionFailed
  else if opts.ifNoneMatch.any fun m => etag = trimQuotes m ∨ m = "*" then .error .notModified
  else if opts.ifModifiedSince.any fun t => row.lastModified ≤ t then .error .notModified
  else if opts.ifUnmodifiedSince.any fun t => t < row.lastModified then
    .error .preconditionFailed
  else .ok ()

/-- The start and the length of the requested range. -/
def resolveRange (totalSize : Nat) : Option (Nat × Option Nat) → Except Error (Nat × Nat)
  | none => .ok (0, totalSize)
  | some (start, reqEnd) =>
      let stop := reqEnd.getD (totalSize - 1)
      if totalSize = 0 then .error (.invalidRange "Range requested on empty object")
      else if totalSize ≤ start then
        .error (.invalidRange ("Range start " ++ toString start ++ " beyond object size " ++
          toString totalSize))
      else if stop < start then
        .error (.invalidRange ("Range end " ++ toString stop ++ " before start " ++
          toString start))
      else .ok (start, min stop (totalSize - 1) - start + 1)

variable (P : Platform)

/-- The customer key of a request, or the error the store answers. -/
def customerKey (keyBase64 : String) (keyMd5 : Option String) : Except Error EncryptionKey :=
  (validateSseCKey P keyBase64 keyMd5).mapError
    fun e => .invalidArgument ("Invalid SSE-C key: " ++ e.message)

/-- The plain content of a row's blob. -/
def decryptRow (bucket key : String) (row : ObjectRow) (opts : GetObjectOpts)
    (ciphertext : Bytes) : Except Error Bytes :=
  match row.encryptionAlgorithm with
  | none => .ok ciphertext
  | some .aes256 => decryptSseS3 P bucket key (row.responseVersion.getD "null") ciphertext
  | some .sseC =>
      match opts.sseCustomerKey with
      | none =>
          .error (.invalidArgument "Object is encrypted with SSE-C, customer key required")
      | some keyBase64 =>
          match customerKey P keyBase64 opts.sseCustomerKeyMd5 with
          | .ok sseKey => decryptSseC P sseKey ciphertext
          | .error e => .error e

/-- `get_object`. -/
def getObject (bucket key : String) (opts : GetObjectOpts) : StoreProg GetObjectResponse := do
  let selected ← query (selectObject bucket key opts.versionId)
  let row ← require selected (.objectNotFound bucket key)
  ensure (!row.isDeleteMarker) (.objectNotFound bucket key)
  lift (checkPreconditions row opts)
  let blob ← readBlob row.id
  let ciphertext ← require blob (.objectNotFound bucket key)
  let plaintext ← lift (decryptRow P bucket key row opts ciphertext)
  let range ← lift (resolveRange plaintext.length opts.range)
  return {
    info := row.info
    body := (plaintext.drop range.1).take (min range.2 (plaintext.length - range.1)) }

/-- The content that `get_object` makes of the row it has selected and its
blob. -/
def readContent (bucket key : String) (opts : GetObjectOpts) (row : ObjectRow)
    (blob : Option Bytes) : Except Error Bytes :=
  if row.isDeleteMarker then .error (.objectNotFound bucket key)
  else
    match checkPreconditions row opts, blob with
    | .error e, _ => .error e
    | .ok (), none => .error (.objectNotFound bucket key)
    | .ok (), some ciphertext =>
        match decryptRow P bucket key row opts ciphertext with
        | .error e => .error e
        | .ok plaintext =>
            match resolveRange plaintext.length opts.range with
            | .error e => .error e
            | .ok range => .ok
                ((plaintext.drop range.1).take (min range.2 (plaintext.length - range.1)))

/-- **A read changes nothing** and depends on the selected row and its blob
alone. -/
theorem getObject_run (bucket key : String) (opts : GetObjectOpts) (w : World) :
    (getObject P bucket key opts).run w =
      (match selectObject bucket key opts.versionId w.db with
        | none => .error (.objectNotFound bucket key)
        | some row => (readContent P bucket key opts row (w.files.objects row.id)).map
            fun body => { info := row.info, body }, w) := by
  cases hselect : selectObject bucket key opts.versionId w.db with
  | none => simp [getObject, query, hselect]
  | some row =>
      cases hmarker : row.isDeleteMarker with
      | true => simp [getObject, query, readContent, Except.map, hselect, hmarker]
      | false =>
          cases hpre : checkPreconditions row opts with
          | error e => simp [getObject, query, readContent, Except.map, hselect, hmarker, hpre]
          | ok _ =>
              cases hblob : w.files.objects row.id with
              | none =>
                  simp [getObject, query, readBlob, readContent, Except.map, hselect, hmarker,
                    hpre, hblob]
              | some ciphertext =>
                  cases hplain : decryptRow P bucket key row opts ciphertext with
                  | error e =>
                      simp [getObject, query, readBlob, readContent, Except.map, hselect, hmarker,
                        hpre, hblob, hplain]
                  | ok plaintext =>
                      cases hrange : resolveRange plaintext.length opts.range <;>
                        simp [getObject, query, readBlob, readContent, Except.map, hselect,
                          hmarker, hpre, hblob, hplain, hrange]

/-- **A read of the whole content** answers what decryption yields. -/
theorem readContent_plain {bucket key : String} {opts : GetObjectOpts} {row : ObjectRow}
    {blob content : Bytes} (hmarker : row.isDeleteMarker = false)
    (hpre : checkPreconditions row opts = .ok ()) (hrange : opts.range = none)
    (hplain : decryptRow P bucket key row opts blob = .ok content) :
    readContent P bucket key opts row (some blob) = .ok content := by
  simp [readContent, hmarker, hpre, hplain, hrange, resolveRange]

end Strix

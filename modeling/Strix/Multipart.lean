import Mathlib.Data.List.Sort
import Strix.ObjectWriters

/-!
# Multipart uploads

An upload is a row of `multipart_uploads` and a directory; a part is a row of
`parts` and a file in that directory.  `uploadPart` truncates and rewrites the
part file chunk by chunk before it touches the row; `completeMultipartUpload`
checks the listed ETags against the rows and then reads the files.

* `UploadPartAccepted` and `CompleteAccepted` say, of the request and the
  state before, that the call succeeds;
* `uploadPart_cases`, `completeMultipartUpload_cases`,
  `createMultipartUpload_cases` and `abortMultipartUpload_cases` say everything
  such a call can do.
-/

namespace Strix

open AtomicProgram AtomicProgram.Prog RowTable

/-! ## Part files -/

/-- `pwrite`: the file with `chunk` written at `offset`, zeros in between. -/
def pwrite (data : Bytes) (offset : Nat) (chunk : Bytes) : Bytes :=
  (data ++ List.replicate (offset - data.length) 0).take offset ++ chunk ++
    data.drop (offset + chunk.length)

/-- Appending is writing at the end. -/
theorem pwrite_end (data chunk : Bytes) : pwrite data data.length chunk = data ++ chunk := by
  simp [pwrite]

/-- The part file, when there is one. -/
def Files.part (files : Files) (uploadId : String) (partNumber : Nat) : Option PartFile :=
  files.multipart uploadId >>= fun dir => dir partNumber

/-- Replace one part file of an upload whose directory exists. -/
def Files.setPart (files : Files) (uploadId : String) (partNumber : Nat)
    (file : PartFile) : Files :=
  { files with
    multipart := fun id =>
      if id = uploadId then
        (files.multipart id).map fun dir => Function.update dir partNumber (some file)
      else files.multipart id }

/-- The files with a directory for the upload. -/
def Files.ensureDir (files : Files) (uploadId : String) : Files :=
  { files with
    multipart := Function.update files.multipart uploadId
      (some ((files.multipart uploadId).getD fun _ => none)) }

theorem Files.part_setPart {files : Files} {uploadId : String} (partNumber : Nat)
    (file : PartFile) (hdir : (files.multipart uploadId).isSome) (id : String) (n : Nat) :
    (files.setPart uploadId partNumber file).part id n =
      if id = uploadId ∧ n = partNumber then some file else files.part id n := by
  obtain ⟨dir, hdir⟩ := Option.isSome_iff_exists.mp hdir
  by_cases hid : id = uploadId
  · subst hid
    by_cases hn : n = partNumber
    · simp [Files.part, Files.setPart, hdir, hn]
    · simp [Files.part, Files.setPart, hdir, hn]
  · simp [Files.part, Files.setPart, hid]

theorem Files.setPart_setPart (files : Files) (uploadId : String) (partNumber : Nat)
    (file file' : PartFile) :
    (files.setPart uploadId partNumber file).setPart uploadId partNumber file' =
      files.setPart uploadId partNumber file' := by
  simp only [Files.setPart, Files.mk.injEq, true_and]
  funext id
  by_cases hid : id = uploadId
  · simp [hid, Function.comp_def]
  · simp [hid]

/-- Writing back what is there changes nothing. -/
theorem Files.setPart_self {files : Files} {uploadId : String} {partNumber : Nat}
    {file : PartFile} (h : files.part uploadId partNumber = some file) :
    files.setPart uploadId partNumber file = files := by
  obtain ⟨dir, hdir, hfile⟩ := Option.bind_eq_some_iff.mp h
  cases files with
  | mk objects multipart =>
      simp only [Files.setPart, Files.mk.injEq, true_and]
      funext id
      by_cases hid : id = uploadId
      · subst hid
        have hdir' : multipart id = some dir := hdir
        rw [if_pos rfl, hdir', Option.map_some, ← hfile, Function.update_eq_self]
      · rw [if_neg hid]

@[simp] theorem Files.part_ensureDir (files : Files) (uploadId id : String) (n : Nat) :
    (files.ensureDir uploadId).part id n = files.part id n := by
  by_cases hid : id = uploadId
  · subst hid
    cases h : files.multipart id <;> simp [Files.part, Files.ensureDir, h]
  · simp [Files.part, Files.ensureDir, hid]

theorem Files.ensureDir_isSome (files : Files) (uploadId : String) :
    ((files.ensureDir uploadId).multipart uploadId).isSome := by
  simp [Files.ensureDir]

/-- `create_dir_all` on an upload's directory. -/
def createUploadDir (uploadId : String) : StoreProg Unit :=
  update fun w => { w with files := w.files.ensureDir uploadId }

/-- `remove_dir_all` on an upload's directory; a failure is ignored. -/
def removeUploadDir (uploadId : String) : StoreProg Unit :=
  update fun w => { w with
    files.multipart := Function.update w.files.multipart uploadId none }

/-- Open a part file for writing: an existing one is truncated, a new one gets
a new inode.  Without the directory there is nothing to open. -/
def openPart (uploadId : String) (partNumber inode : Nat) : StoreProg (Option Nat) :=
  perform fun w =>
    match w.files.multipart uploadId with
    | none => (none, w)
    | some dir =>
        let opened := ((dir partNumber).map (·.inode)).getD inode
        (some opened, { w with
          files := w.files.setPart uploadId partNumber { inode := opened, data := [] } })

/-- Write through an open handle; a file that is no longer there under its
name swallows the write. -/
def writePart (uploadId : String) (partNumber inode offset : Nat) (chunk : Bytes) :
    StoreProg Unit :=
  update fun w =>
    match w.files.part uploadId partNumber with
    | none => w
    | some file =>
        if file.inode = inode then
          { w with
            files := w.files.setPart uploadId partNumber
              { file with data := pwrite file.data offset chunk } }
        else w

/-- The streaming loop of `upload_part`; `written` is what the loop has read
so far. -/
def writeChunks (uploadId : String) (partNumber inode : Nat) (written : Bytes) :
    ObjectBody → StoreProg Bytes
  | [] => return written
  | .error e :: _ => fail (.io e)
  | .ok chunk :: rest => do
      writePart uploadId partNumber inode written.length chunk
      writeChunks uploadId partNumber inode (written ++ chunk) rest

/-- What arrives of a body before its first error. -/
def receivedBytes : ObjectBody → Bytes
  | [] => []
  | .error _ :: _ => []
  | .ok chunk :: rest => chunk ++ receivedBytes rest

theorem receivedBytes_of_ok {body : ObjectBody} {content : Bytes}
    (h : readBody body = .ok content) : receivedBytes body = content := by
  induction body generalizing content with
  | nil =>
      cases h
      rfl
  | cons item rest ih =>
      cases item with
      | error e => cases h
      | ok chunk =>
          cases hrest : readBody rest with
          | error e => simp [readBody, hrest] at h
          | ok more =>
              simp only [readBody, hrest, Except.ok.injEq] at h
              rw [receivedBytes, ih hrest, h]

/-- **The loop writes what arrives.**  As long as the file is there under the
handle's inode, it ends up holding everything received, whether or not the
body ends in an error. -/
theorem writeChunks_run {uploadId : String} {partNumber inode : Nat} (written : Bytes)
    {body : ObjectBody} {w : World}
    (hfile : w.files.part uploadId partNumber = some { inode, data := written }) :
    (writeChunks uploadId partNumber inode written body).run w =
      (match readBody body with
        | .ok content => .ok (written ++ content)
        | .error e => .error e,
       { w with
          files := w.files.setPart uploadId partNumber
            { inode, data := written ++ receivedBytes body } }) := by
  induction body generalizing written w with
  | nil => simp [writeChunks, readBody, receivedBytes, Files.setPart_self hfile]
  | cons item rest ih =>
      cases item with
      | error e => simp [writeChunks, readBody, receivedBytes, Files.setPart_self hfile]
      | ok chunk =>
          obtain ⟨dir, hdir, -⟩ := Option.bind_eq_some_iff.mp hfile
          have hwritten : (w.files.setPart uploadId partNumber
              { inode, data := written ++ chunk }).part uploadId partNumber =
              some { inode, data := written ++ chunk } := by
            rw [Files.part_setPart _ _ (by simp [hdir]), if_pos ⟨rfl, rfl⟩]
          have hrest := ih (written ++ chunk) (w := { w with
            files := w.files.setPart uploadId partNumber
              { inode, data := written ++ chunk } }) hwritten
          simp only [writeChunks, writePart, run_update_bind, hfile, ↓reduceIte, pwrite_end,
            hrest, Files.setPart_setPart, readBody, receivedBytes]
          cases readBody rest <;> simp

/-! ## The operations -/

variable (P : Platform)

def uploadRow (bucket key : String) (opts : PutObjectOpts) (uploadId : String)
    (now : DateTime) : UploadRow where
  uploadId := uploadId
  bucket := bucket
  key := key
  contentType := opts.contentType
  contentEncoding := opts.contentEncoding
  contentDisposition := opts.contentDisposition
  cacheControl := opts.cacheControl
  storageClass := opts.storageClass.getD .standard
  userMetadata := some opts.metadata
  encryptionAlgorithm := opts.serverSideEncryption
  encryptionKeyMd5 :=
    if opts.serverSideEncryption = some .sseC then opts.sseCustomerKeyMd5 else none
  initiatedAt := now

/-- `create_multipart_upload`. -/
def createMultipartUpload (bucket key : String) (opts : PutObjectOpts) :
    StoreProg MultipartUpload := do
  let there ← query (bucketRowExists bucket)
  ensure there (.bucketNotFound bucket)
  let n ← draw
  let uploadId := P.ulid n
  let now ← clock
  createUploadDir uploadId
  call [insertUpload (uploadRow bucket key opts uploadId)]
  return { uploadId, bucket, key, initiated := now }

/-- The row of one part. -/
def atPart (uploadId : String) (partNumber : Nat) (p : PartRow) : Bool :=
  p.uploadId == uploadId && p.partNumber == partNumber

@[simp] theorem atPart_iff {uploadId : String} {partNumber : Nat} {p : PartRow} :
    atPart uploadId partNumber p = true ↔
      p.uploadId = uploadId ∧ p.partNumber = partNumber := by
  simp [atPart]

/-- The row that a part upload inserts. -/
def partRow (uploadId : String) (partNumber : Nat) (blobId : String) (content : Bytes)
    (now : DateTime) : PartRow where
  uploadId := uploadId
  partNumber := partNumber
  blobId := blobId
  size := content.length
  etag := contentEtag P content
  createdAt := now

/-- `upload_part`. -/
def uploadPart (upload : MultipartUpload) (partNumber : Nat) (body : ObjectBody) :
    StoreProg PartInfo := do
  ensure (1 ≤ partNumber && partNumber ≤ 10000) (.invalidPartNumber partNumber)
  let there ← query (uploadRowExists upload.uploadId)
  ensure there (.uploadNotFound upload.uploadId)
  let n ← draw
  let blobId := P.ulid n
  createUploadDir upload.uploadId
  let handle ← openPart upload.uploadId partNumber n
  let inode ← require handle noSuchFile
  let content ← writeChunks upload.uploadId partNumber inode [] body
  let etag := contentEtag P content
  let now ← clock
  call [deleteParts (atPart upload.uploadId partNumber),
    insertPart (partRow P upload.uploadId partNumber blobId content)]
  return { partNumber, etag, size := content.length, lastModified := now }

/-- Part numbers rise from one listed part to the next. -/
def partsInOrder : Nat → List CompletePart → Bool
  | _, [] => true
  | lastPart, part :: rest =>
      if part.partNumber ≤ lastPart then false else partsInOrder part.partNumber rest

/-- `MIN_PART_SIZE`: 5 MiB. -/
def minPartSize : Nat := 5 * 1024 * 1024

/-- The verdicts of the validation closure: 0, 1, 2 and 3 in the source. -/
inductive PartsVerdict
  | valid
  | etagMismatch
  | tooSmall
  | notFound
  deriving DecidableEq, Repr

/-- The validation closure: every listed part has a row with its ETag, and
only the last may be small. -/
def validateParts (uploadId : String) (db : Db) : List CompletePart → PartsVerdict
  | [] => .valid
  | part :: rest =>
      match selectFirst (atPart uploadId part.partNumber) db.parts with
      | none => .notFound
      | some stored =>
          if trimQuotes stored.etag ≠ trimQuotes part.etag then .etagMismatch
          else if rest ≠ [] ∧ stored.size < minPartSize then .tooSmall
          else validateParts uploadId db rest

/-- What a verdict answers. -/
def PartsVerdict.result : PartsVerdict → Except Error Unit
  | valid => .ok ()
  | etagMismatch => .error (.invalidArgument "Part ETag mismatch")
  | tooSmall => .error .entityTooSmall
  | notFound => .error (.noSuchPart 0)

theorem PartsVerdict.result_error {verdict : PartsVerdict} (h : verdict ≠ .valid) :
    ∃ e, verdict.result = .error e := by
  cases verdict with
  | valid => exact absurd rfl h
  | etagMismatch => exact ⟨_, rfl⟩
  | tooSmall => exact ⟨_, rfl⟩
  | notFound => exact ⟨_, rfl⟩

/-- The assembly loop: the part files' bytes, one after another. -/
def readParts (uploadId : String) : List CompletePart → StoreProg Bytes
  | [] => return []
  | part :: rest => do
      let there ← observe fun w => (w.files.part uploadId part.partNumber).isSome
      ensure there (.noSuchPart part.partNumber)
      let file ← observe fun w => w.files.part uploadId part.partNumber
      let file ← require file noSuchFile
      let more ← readParts uploadId rest
      return file.data ++ more

/-- The bytes of the final object. -/
def sealUpload (uploadMeta : UploadRow) (versionId : String) (plaintext : Bytes) :
    StoreProg Bytes :=
  match uploadMeta.encryptionAlgorithm with
  | none => return plaintext
  | some .aes256 => encryptSseS3 P uploadMeta.bucket uploadMeta.key versionId plaintext
  | some .sseC => fail .missingSecurityHeader

/-- The row that a completion inserts. -/
def completedRow (uploadMeta : UploadRow) (parts : List CompletePart) (objectId versionId : String)
    (size : Nat) (etag : String) (now : DateTime) : ObjectRow where
  id := objectId
  bucket := uploadMeta.bucket
  key := uploadMeta.key
  versionId := versionId
  size := size
  etag := etag
  contentType := uploadMeta.contentType
  contentEncoding := uploadMeta.contentEncoding
  contentDisposition := uploadMeta.contentDisposition
  cacheControl := uploadMeta.cacheControl
  storageClass := uploadMeta.storageClass
  userMetadata := uploadMeta.userMetadata
  isMultipart := true
  partCount := some parts.length
  encryptionAlgorithm := uploadMeta.encryptionAlgorithm
  createdAt := now
  lastModified := now

/-- The upload's row, found by its id alone. -/
def selectUpload (uploadId : String) (db : Db) : Option UploadRow :=
  selectFirst (·.uploadId == uploadId) db.uploads

/-- `complete_multipart_upload`. -/
def completeMultipartUpload (upload : MultipartUpload) (parts : List CompletePart) :
    StoreProg PutObjectResponse := do
  ensure (partsInOrder 0 parts) .invalidPartOrder
  let uploadMeta ← query (selectUpload upload.uploadId)
  let uploadMeta ← require uploadMeta (.uploadNotFound upload.uploadId)
  let selected ← query (versioningStatus uploadMeta.bucket)
  let status ← require selected (.bucketNotFound uploadMeta.bucket)
  let verdict ← query fun db => validateParts upload.uploadId db parts
  lift verdict.result
  let n ← draw
  let objectId := P.ulid n
  let versionId := newVersionId status objectId
  let plaintext ← readParts upload.uploadId parts
  let etag := formatMultipartEtag P (parts.map (·.etag))
  let data ← sealUpload P uploadMeta versionId plaintext
  writeBlob objectId data
  call [makeRoom status uploadMeta.bucket uploadMeta.key,
    insertObject (completedRow uploadMeta parts objectId versionId plaintext.length etag),
    deleteParts (·.uploadId == upload.uploadId),
    deleteUpload upload.uploadId]
  removeUploadDir upload.uploadId
  return { etag, versionId := answeredVersionId status versionId }

/-- `complete_multipart_upload`, given how its metadata closure runs. -/
def completeMultipartUploadVia (closure : List Statement → StoreProg Unit)
    (upload : MultipartUpload) (parts : List CompletePart) : StoreProg PutObjectResponse := do
  ensure (partsInOrder 0 parts) .invalidPartOrder
  let uploadMeta ← query (selectUpload upload.uploadId)
  let uploadMeta ← require uploadMeta (.uploadNotFound upload.uploadId)
  let selected ← query (versioningStatus uploadMeta.bucket)
  let status ← require selected (.bucketNotFound uploadMeta.bucket)
  let verdict ← query fun db => validateParts upload.uploadId db parts
  lift verdict.result
  let n ← draw
  let objectId := P.ulid n
  let versionId := newVersionId status objectId
  let plaintext ← readParts upload.uploadId parts
  let etag := formatMultipartEtag P (parts.map (·.etag))
  let data ← sealUpload P uploadMeta versionId plaintext
  writeBlob objectId data
  closure [makeRoom status uploadMeta.bucket uploadMeta.key,
    insertObject (completedRow uploadMeta parts objectId versionId plaintext.length etag),
    deleteParts (·.uploadId == upload.uploadId),
    deleteUpload upload.uploadId]
  removeUploadDir upload.uploadId
  return { etag, versionId := answeredVersionId status versionId }

theorem completeMultipartUploadVia_call (upload : MultipartUpload) (parts : List CompletePart) :
    completeMultipartUploadVia P call upload parts = completeMultipartUpload P upload parts := rfl

/-- `abort_multipart_upload`. -/
def abortMultipartUpload (upload : MultipartUpload) : StoreProg Unit := do
  let there ← query (uploadRowExists upload.uploadId)
  ensure there (.uploadNotFound upload.uploadId)
  call [deleteParts (·.uploadId == upload.uploadId), deleteUpload upload.uploadId]
  removeUploadDir upload.uploadId

/-- `abort_stale_multipart`: what the cleanup task does to one upload it has
found to be stale. -/
def abortStaleMultipart (uploadId : String) : StoreProg Unit := do
  removeUploadDir uploadId
  call [deleteParts (·.uploadId == uploadId), deleteUpload uploadId]

/-- `list_parts`. -/
def listParts (upload : MultipartUpload) (opts : ListPartsOpts) :
    StoreProg ListPartsResponse := do
  let maxParts := opts.maxParts.getD 1000
  let marker := opts.partNumberMarker.getD 0
  let rows ← query fun db =>
    (db.parts.filter fun p => p.uploadId == upload.uploadId && marker < p.partNumber)
      |>.insertionSort (fun a b => a.partNumber ≤ b.partNumber)
  let found := rows.map fun p => ({
    partNumber := p.partNumber
    etag := p.etag
    size := p.size
    lastModified := p.createdAt } : PartInfo)
  let isTruncated := maxParts < found.length
  let shown := if isTruncated then found.take maxParts else found
  return {
    parts := shown
    isTruncated
    nextPartNumberMarker :=
      if isTruncated then shown.getLast?.map (·.partNumber) else none }

/-! ## What each operation can do -/

/-- The upload's row, its parts and its directory gone. -/
def World.closeUpload (w : World) (uploadId : String) : World :=
  { w with
    db := { w.db with
      uploads := deleteRows (·.uploadId == uploadId) w.db.uploads
      parts := deleteRows (·.uploadId == uploadId) w.db.parts }
    files := { w.files with
      multipart := Function.update w.files.multipart uploadId none } }

/-- The statements that close an upload. -/
theorem runStatements_closeUpload (uploadId : String) (now : DateTime) (db : Db) :
    runStatements [deleteParts (·.uploadId == uploadId), deleteUpload uploadId] now db =
      (.ok (), { db with
        uploads := deleteRows (·.uploadId == uploadId) db.uploads
        parts := deleteRows (·.uploadId == uploadId) db.parts }) := by
  simp [runStatements, deleteParts, deleteUpload]

/-- A part file rewritten with `data`; a new one takes the draw's number for
its inode. -/
def World.rewritePart (w : World) (uploadId : String) (partNumber : Nat) (data : Bytes) :
    World :=
  { w with
    files := (w.files.ensureDir uploadId).setPart uploadId partNumber {
      inode := ((w.files.part uploadId partNumber).map (·.inode)).getD w.draws
      data }
    draws := w.draws + 1 }

/-- The ids of all upload rows were drawn before. -/
def UploadsDrawn (w : World) : Prop :=
  ∀ u ∈ w.db.uploads, ∃ i, i < w.draws ∧ u.uploadId = P.ulid i

/-- A part upload reaches the part file. -/
def UploadPartReaches (w : World) (upload : MultipartUpload) (partNumber : Nat) : Prop :=
  (1 ≤ partNumber ∧ partNumber ≤ 10000) ∧ uploadRowExists upload.uploadId w.db = true

/-- **A part upload is accepted** when its number is in range, its upload
exists and its body arrives whole. -/
def UploadPartAccepted (w : World) (upload : MultipartUpload) (partNumber : Nat)
    (body : ObjectBody) : Prop :=
  UploadPartReaches w upload partNumber ∧ ∃ content, readBody body = .ok content

variable {P}

/-- The part files after one is rewritten. -/
theorem World.part_rewritePart (w : World) (uploadId : String) (partNumber : Nat)
    (data : Bytes) (id : String) (n : Nat) :
    ((w.rewritePart uploadId partNumber data).files.part id n).map (·.data) =
      if id = uploadId ∧ n = partNumber then some data
      else (w.files.part id n).map (·.data) := by
  simp only [World.rewritePart]
  rw [Files.part_setPart _ _ (Files.ensureDir_isSome _ _)]
  by_cases h : id = uploadId ∧ n = partNumber <;> simp [h]

@[simp] theorem World.rewritePart_db (w : World) (uploadId : String) (partNumber : Nat)
    (data : Bytes) : (w.rewritePart uploadId partNumber data).db = w.db := rfl

@[simp] theorem World.rewritePart_now (w : World) (uploadId : String) (partNumber : Nat)
    (data : Bytes) : (w.rewritePart uploadId partNumber data).now = w.now := rfl

/-- The closure of a part upload replaces the part's row. -/
theorem runStatements_replacePart {db : Db} (now : DateTime) (row : DateTime → PartRow)
    (uploadId : String) (partNumber : Nat) (hid : (row now.seconds).uploadId = uploadId)
    (hnumber : (row now.seconds).partNumber = partNumber)
    (hthere : uploadRowExists uploadId db = true) :
    runStatements [deleteParts (atPart uploadId partNumber), insertPart row] now db =
      (.ok (), { db with
        parts := insertRow (row now.seconds)
          (deleteRows (atPart uploadId partNumber) db.parts) }) := by
  subst hid hnumber
  have hgone : (deleteRows (atPart (row now.seconds).uploadId (row now.seconds).partNumber)
      db.parts).any (fun p => p.uploadId == (row now.seconds).uploadId &&
        p.partNumber == (row now.seconds).partNumber) = false := by
    rw [List.any_eq_false]
    intro p hp
    have := (mem_deleteRows.mp hp).2
    simpa [atPart] using this
  have hupload : db.uploads.any (·.uploadId == (row now.seconds).uploadId) = true := by
    simpa using uploadRowExists_iff.mp hthere
  rw [runStatements_cons_ok rfl]
  simp [runStatements, insertPart, hgone, hupload]

/-- Opening and streaming, once the upload is known to exist. -/
theorem openPart_writeChunks_run (w : World) (uploadId : String) (partNumber : Nat)
    (body : ObjectBody) :
    ∃ inode, (openPart uploadId partNumber w.draws).run
        { w with files := w.files.ensureDir uploadId, draws := w.draws + 1 } =
        (.ok (some inode), w.rewritePart uploadId partNumber []) ∧
      (writeChunks uploadId partNumber inode [] body).run
          (w.rewritePart uploadId partNumber []) =
        (readBody body, w.rewritePart uploadId partNumber (receivedBytes body)) := by
  obtain ⟨dir, hdir⟩ := Option.isSome_iff_exists.mp (w.files.ensureDir_isSome uploadId)
  have hpart : dir partNumber = w.files.part uploadId partNumber := by
    rw [← Files.part_ensureDir w.files uploadId uploadId partNumber, Files.part, hdir]
    rfl
  refine ⟨((w.files.part uploadId partNumber).map (·.inode)).getD w.draws, ?_, ?_⟩
  · simp [openPart, hdir, hpart, World.rewritePart]
  · rw [writeChunks_run []]
    · simp only [World.rewritePart, Files.setPart_setPart, List.nil_append]
      cases readBody body <;> rfl
    · rw [World.rewritePart, Files.part_setPart _ _ (Files.ensureDir_isSome _ _),
        if_pos ⟨rfl, rfl⟩]

/-- **Everything a part upload can do.**  Refused by its arguments it changes
nothing; with a body that breaks off it leaves the part file holding what
arrived; else the file and the row describe the body. -/
theorem uploadPart_cases (w : World) (upload : MultipartUpload) (partNumber : Nat)
    (body : ObjectBody) :
    (¬ UploadPartReaches w upload partNumber ∧
      ∃ e, (uploadPart P upload partNumber body).run w = (.error e, w)) ∨
    (UploadPartReaches w upload partNumber ∧ ∃ e, readBody body = .error e ∧
      (uploadPart P upload partNumber body).run w =
        (.error e, w.rewritePart upload.uploadId partNumber (receivedBytes body))) ∨
    (UploadPartReaches w upload partNumber ∧ ∃ content, readBody body = .ok content ∧
      (uploadPart P upload partNumber body).run w =
        (.ok {
            partNumber
            etag := contentEtag P content
            size := content.length
            lastModified := w.now },
          { w.rewritePart upload.uploadId partNumber content with
            db := { w.db with
              parts := insertRow (partRow P upload.uploadId partNumber (P.ulid w.draws) content
                  w.now.seconds)
                (deleteRows (atPart upload.uploadId partNumber) w.db.parts) } })) := by
  by_cases hrange : 1 ≤ partNumber ∧ partNumber ≤ 10000
  · cases hthere : uploadRowExists upload.uploadId w.db with
    | false =>
        refine Or.inl ⟨?_, .uploadNotFound upload.uploadId, ?_⟩
        · rintro ⟨-, h⟩
          rw [hthere] at h
          cases h
        · simp [uploadPart, query, hrange, hthere]
    | true =>
        have hreaches : UploadPartReaches w upload partNumber := ⟨hrange, hthere⟩
        obtain ⟨inode, hopen, hwrite⟩ :=
          openPart_writeChunks_run w upload.uploadId partNumber body
        cases hbody : readBody body with
        | error e =>
            refine Or.inr (Or.inl ⟨hreaches, e, rfl, ?_⟩)
            simp [uploadPart, query, draw, createUploadDir, run_bind, hrange, hthere, hopen,
              hwrite, hbody]
        | ok content =>
            refine Or.inr (Or.inr ⟨hreaches, content, rfl, ?_⟩)
            have hcontent := receivedBytes_of_ok hbody
            have hcall := runStatements_replacePart w.now
              (partRow P upload.uploadId partNumber (P.ulid w.draws) content) upload.uploadId
              partNumber rfl rfl hthere
            simp [uploadPart, query, draw, createUploadDir, clock, run_bind, hrange, hthere,
              hopen, hwrite, hbody, hcontent, hcall]
  · refine Or.inl ⟨fun h => hrange h.1, .invalidPartNumber partNumber, ?_⟩
    simp [uploadPart, hrange]

/-- The part files of the listed parts, joined. -/
def assembled (files : Files) (uploadId : String) : List CompletePart → Option Bytes
  | [] => some []
  | part :: rest =>
      match files.part uploadId part.partNumber, assembled files uploadId rest with
      | some file, some more => some (file.data ++ more)
      | _, _ => none

theorem readParts_run (w : World) (uploadId : String) (parts : List CompletePart) :
    (∃ e, (readParts uploadId parts).run w = (.error e, w) ∧
      assembled w.files uploadId parts = none) ∨
    ∃ plaintext, (readParts uploadId parts).run w = (.ok plaintext, w) ∧
      assembled w.files uploadId parts = some plaintext := by
  induction parts with
  | nil => exact Or.inr ⟨[], rfl, rfl⟩
  | cons part rest ih =>
      cases hfile : w.files.part uploadId part.partNumber with
      | none =>
          refine Or.inl ⟨.noSuchPart part.partNumber, ?_, by simp [assembled, hfile]⟩
          simp [readParts, hfile]
      | some file =>
          rcases ih with ⟨e, hrun, hnone⟩ | ⟨more, hrun, hsome⟩
          · refine Or.inl ⟨e, ?_, by simp [assembled, hfile, hnone]⟩
            simp [readParts, hfile, run_bind, hrun]
          · refine Or.inr ⟨file.data ++ more, ?_, by simp [assembled, hfile, hsome]⟩
            simp [readParts, hfile, run_bind, hrun]

variable (P) in
/-- **A completion is accepted** when the parts are listed in order, the
upload and its bucket are there, every listed part has a row with its ETag
and, but for the last, enough bytes, every part file is there, and the upload
asks for no customer key. -/
def CompleteAccepted (w : World) (uploadId : String) (parts : List CompletePart) : Prop :=
  partsInOrder 0 parts = true ∧
  validateParts uploadId w.db parts = .valid ∧
  ∃ uploadMeta plaintext, selectUpload uploadId w.db = some uploadMeta ∧
    (∃ status, versioningStatus uploadMeta.bucket w.db = some status) ∧
    assembled w.files uploadId parts = some plaintext ∧
    (uploadMeta.encryptionAlgorithm = some .aes256 → plaintext.length ≤ P.maxPlaintext) ∧
    uploadMeta.encryptionAlgorithm ≠ some .sseC

/-- The final object holds the joined parts, whatever customer key comes
with a later read. -/
theorem sealUpload_cases (w : World) (uploadMeta : UploadRow) (row : ObjectRow)
    (plaintext : Bytes) (halg : row.encryptionAlgorithm = uploadMeta.encryptionAlgorithm)
    (hbucket : row.bucket = uploadMeta.bucket) (hkey : row.key = uploadMeta.key) :
    (∃ e n, (sealUpload P uploadMeta row.versionId plaintext).run w =
        (.error e, { w with draws := n }) ∧ w.draws ≤ n ∧
        ¬ ((uploadMeta.encryptionAlgorithm = some .aes256 →
            plaintext.length ≤ P.maxPlaintext) ∧
          uploadMeta.encryptionAlgorithm ≠ some .sseC)) ∨
      ∃ data n, (sealUpload P uploadMeta row.versionId plaintext).run w =
        (.ok data, { w with draws := n }) ∧ w.draws ≤ n ∧
        (uploadMeta.encryptionAlgorithm = some .aes256 →
          plaintext.length ≤ P.maxPlaintext) ∧
        uploadMeta.encryptionAlgorithm ≠ some .sseC ∧
        ∀ sseKey, Holds P row sseKey plaintext data := by
  cases hmeta : uploadMeta.encryptionAlgorithm with
  | none =>
      exact Or.inr ⟨plaintext, w.draws, by simp [sealUpload, hmeta], Nat.le_refl _, by simp,
        by simp, fun sseKey => by simp [Holds, halg, hmeta]⟩
  | some algorithm =>
      cases algorithm with
      | aes256 =>
          rcases encryptFresh_cases P w
              (deriveObjectKey P uploadMeta.bucket uploadMeta.key row.versionId) plaintext with
            ⟨e, hrun, hlong⟩ | ⟨c, hrun, hlen, hopen⟩
          · exact Or.inl ⟨e, w.draws + 1, by simp [sealUpload, hmeta, encryptSseS3, hrun],
              Nat.le_succ _, fun h => hlong (h.1 rfl)⟩
          · refine Or.inr ⟨c, w.draws + 1, by simp [sealUpload, hmeta, encryptSseS3, hrun],
              Nat.le_succ _, fun _ => hlen, by simp, fun sseKey => ?_⟩
            simpa [Holds, halg, hmeta, hbucket, hkey, decryptSseS3] using hopen
      | sseC =>
          exact Or.inl ⟨.missingSecurityHeader, w.draws, by simp [sealUpload, hmeta],
            Nat.le_refl _, fun h => h.2 rfl⟩

/-- **Everything completing an upload does up to its closure.** -/
theorem completeMultipartUploadVia_cases (w : World) (upload : MultipartUpload)
    (parts : List CompletePart) :
    (¬ CompleteAccepted P w upload.uploadId parts ∧ ∃ e n, w.draws ≤ n ∧
      ∀ closure, (completeMultipartUploadVia P closure upload parts).run w =
        (.error e, { w with draws := n })) ∨
    (CompleteAccepted P w upload.uploadId parts ∧ ∃ status uploadMeta plaintext data n,
      w.draws < n ∧ versioningStatus uploadMeta.bucket w.db = some status ∧
      selectUpload upload.uploadId w.db = some uploadMeta ∧
      assembled w.files upload.uploadId parts = some plaintext ∧
      let versionId := newVersionId status (P.ulid w.draws)
      let row := completedRow uploadMeta parts (P.ulid w.draws) versionId plaintext.length
        (formatMultipartEtag P (parts.map (·.etag)))
      (∀ sseKey, Holds P (row w.now.seconds) sseKey plaintext data) ∧
      ∀ closure, (completeMultipartUploadVia P closure upload parts).run w =
        (closure [makeRoom status uploadMeta.bucket uploadMeta.key, insertObject row,
            deleteParts (·.uploadId == upload.uploadId), deleteUpload upload.uploadId] >>=
          fun _ => removeUploadDir upload.uploadId >>= fun _ =>
            done { etag := formatMultipartEtag P (parts.map (·.etag))
                   versionId := answeredVersionId status versionId }).run
              (w.withBlob (P.ulid w.draws) data n)) := by
  cases horder : partsInOrder 0 parts with
  | false =>
      refine Or.inl ⟨?_, .invalidPartOrder, w.draws, Nat.le_refl _, fun closure => ?_⟩
      · rintro ⟨h, -⟩
        rw [horder] at h
        cases h
      · simp [completeMultipartUploadVia, horder]
  | true =>
      cases hmeta : selectUpload upload.uploadId w.db with
      | none =>
          refine Or.inl ⟨?_, .uploadNotFound upload.uploadId, w.draws, Nat.le_refl _,
            fun closure => ?_⟩
          · rintro ⟨-, -, uploadMeta, plaintext, h, -⟩
            rw [hmeta] at h
            cases h
          · simp [completeMultipartUploadVia, query, horder, hmeta]
      | some uploadMeta =>
          cases hstatus : versioningStatus uploadMeta.bucket w.db with
          | none =>
              refine Or.inl ⟨?_, .bucketNotFound uploadMeta.bucket, w.draws, Nat.le_refl _,
                fun closure => ?_⟩
              · rintro ⟨-, -, uploadMeta', plaintext, h, ⟨status, hsome⟩, -⟩
                rw [hmeta] at h
                cases h
                rw [hstatus] at hsome
                cases hsome
              · simp [completeMultipartUploadVia, query, horder, hmeta, hstatus]
          | some status =>
              by_cases hvalid : validateParts upload.uploadId w.db parts = .valid
              · rcases readParts_run { w with draws := w.draws + 1 } upload.uploadId parts with
                  ⟨e, hread, hnone⟩ | ⟨plaintext, hread, hsome⟩
                · refine Or.inl ⟨?_, e, w.draws + 1, Nat.le_succ _, fun closure => ?_⟩
                  · rintro ⟨-, -, uploadMeta', plaintext, -, -, hsome, -⟩
                    rw [show assembled w.files upload.uploadId parts = none from hnone] at hsome
                    cases hsome
                  · simp [completeMultipartUploadVia, query, draw, run_bind, horder, hmeta,
                      hstatus, hvalid, PartsVerdict.result, hread]
                · let row := completedRow uploadMeta parts (P.ulid w.draws)
                    (newVersionId status (P.ulid w.draws)) plaintext.length
                    (formatMultipartEtag P (parts.map (·.etag))) w.now.seconds
                  rcases sealUpload_cases (P := P) { w with draws := w.draws + 1 } uploadMeta row
                      plaintext rfl rfl rfl with
                    ⟨e, n, hrun, hn, hno⟩ | ⟨data, n, hrun, hn, hlen, hplain, hholds⟩
                  · refine Or.inl ⟨?_, e, n, Nat.le_of_succ_le hn, fun closure => ?_⟩
                    · rintro ⟨-, -, uploadMeta', plaintext', hmeta', -, hsome', hyes⟩
                      rw [hmeta] at hmeta'
                      cases hmeta'
                      rw [show assembled w.files upload.uploadId parts = some plaintext
                        from hsome] at hsome'
                      cases hsome'
                      exact hno hyes
                    · have hseal : (sealUpload P uploadMeta (newVersionId status (P.ulid w.draws))
                          plaintext).run { w with draws := w.draws + 1 } =
                          (.error e, { w with draws := n }) := hrun
                      simp [completeMultipartUploadVia, query, draw, run_bind, horder, hmeta,
                        hstatus, hvalid, PartsVerdict.result, hread, hseal]
                  · refine Or.inr ⟨⟨horder, hvalid, uploadMeta, plaintext, hmeta,
                      ⟨status, hstatus⟩, hsome, hlen, hplain⟩, status, uploadMeta, plaintext,
                      data, n, hn, hstatus, rfl, hsome, hholds, fun closure => ?_⟩
                    have hseal : (sealUpload P uploadMeta (newVersionId status (P.ulid w.draws))
                        plaintext).run { w with draws := w.draws + 1 } =
                        (.ok data, { w with draws := n }) := hrun
                    simp [completeMultipartUploadVia, query, draw, run_bind, horder, hmeta,
                      hstatus, hvalid, PartsVerdict.result, hread, hseal, World.withBlob]
              · obtain ⟨e, he⟩ := PartsVerdict.result_error hvalid
                refine Or.inl ⟨fun h => hvalid h.2.1, e, w.draws, Nat.le_refl _,
                  fun closure => ?_⟩
                simp [completeMultipartUploadVia, query, horder, hmeta, hstatus, he]

/-- **Everything a completion can do.** -/
theorem completeMultipartUpload_cases {w : World} (upload : MultipartUpload)
    (parts : List CompletePart) (hids : IdsDrawn P w) :
    (¬ CompleteAccepted P w upload.uploadId parts ∧
      ∃ e n, (completeMultipartUpload P upload parts).run w =
        (.error e, { w with draws := n }) ∧ w.draws ≤ n) ∨
    (CompleteAccepted P w upload.uploadId parts ∧
      ∃ status row uploadMeta plaintext data n,
        (completeMultipartUpload P upload parts).run w =
          (.ok { etag := row.etag, versionId := answeredVersionId status row.versionId },
            (w.install status row data n).closeUpload upload.uploadId) ∧
        w.draws < n ∧ NewVersion P w uploadMeta.bucket uploadMeta.key status row ∧
        selectUpload upload.uploadId w.db = some uploadMeta ∧
        assembled w.files upload.uploadId parts = some plaintext ∧
        row = completedRow uploadMeta parts (P.ulid w.draws) row.versionId plaintext.length
          (formatMultipartEtag P (parts.map (·.etag))) w.now.seconds ∧
        ∀ sseKey, Holds P row sseKey plaintext data) := by
  rcases completeMultipartUploadVia_cases (P := P) w upload parts with
    ⟨hno, e, n, hn, hrun⟩ |
      ⟨hyes, status, uploadMeta, plaintext, data, n, hn, hstatus, hmeta, hsome, hholds, hrun⟩
  · exact Or.inl ⟨hno, e, n, hrun call, hn⟩
  · obtain ⟨b, hb, hname, -⟩ := versioningStatus_bucket hstatus
    have hcall := runStatements_install w.now status uploadMeta.bucket uploadMeta.key
      (completedRow uploadMeta parts (P.ulid w.draws) (newVersionId status (P.ulid w.draws))
        plaintext.length (formatMultipartEtag P (parts.map (·.etag))))
      [deleteParts (·.uploadId == upload.uploadId), deleteUpload upload.uploadId] rfl
      (fun r hr => hids.fresh (Nat.le_refl _) hr) ⟨b, hb, hname⟩
    refine Or.inr ⟨hyes, status, _, uploadMeta, plaintext, data, n, ?_, hn, ?_, hmeta, hsome, rfl,
      hholds⟩
    · rw [← completeMultipartUploadVia_call, hrun call]
      simp [run_bind, World.withBlob, hcall, runStatements_closeUpload, removeUploadDir]
      exact ⟨⟨rfl, rfl⟩, rfl⟩
    · exact {
        bucket_eq := rfl
        key_eq := rfl
        status_eq := hstatus
        id_eq := rfl
        versionId_eq := rfl
        latest := rfl
        notMarker := rfl
        unlocked := ⟨rfl, rfl, rfl⟩
        createdAt_eq := rfl }

/-- **Everything creating an upload can do.** -/
theorem createMultipartUpload_cases {w : World} (bucket key : String) (opts : PutObjectOpts)
    (hids : UploadsDrawn P w) :
    (bucketRowExists bucket w.db = false ∧
      (createMultipartUpload P bucket key opts).run w = (.error (.bucketNotFound bucket), w)) ∨
    (bucketRowExists bucket w.db = true ∧
      (createMultipartUpload P bucket key opts).run w =
        (.ok { uploadId := P.ulid w.draws, bucket, key, initiated := w.now },
          { w with
            db := { w.db with
              uploads := insertRow (uploadRow bucket key opts (P.ulid w.draws) w.now.seconds)
                w.db.uploads }
            files := w.files.ensureDir (P.ulid w.draws)
            draws := w.draws + 1 })) := by
  cases hthere : bucketRowExists bucket w.db with
  | false => exact Or.inl ⟨rfl, by simp [createMultipartUpload, query, hthere]⟩
  | true =>
      refine Or.inr ⟨rfl, ?_⟩
      have hfresh : w.db.uploads.any (·.uploadId == P.ulid w.draws) = false := by
        rw [List.any_eq_false]
        intro u hu
        obtain ⟨i, hi, hid⟩ := hids u hu
        have hne : i ≠ w.draws := by omega
        simp only [hid, beq_iff_eq]
        exact fun h => hne (P.ulid_injective h)
      have hbucket : w.db.buckets.any (·.name == bucket) = true := by
        simpa using bucketRowExists_iff.mp hthere
      simp [createMultipartUpload, query, draw, clock, createUploadDir, run_bind, hthere,
        runStatements, insertUpload, uploadRow, hfresh, hbucket]

/-- **Everything an abort can do.** -/
theorem abortMultipartUpload_cases (w : World) (upload : MultipartUpload) :
    (uploadRowExists upload.uploadId w.db = false ∧
      (abortMultipartUpload upload).run w =
        (.error (.uploadNotFound upload.uploadId), w)) ∨
    (uploadRowExists upload.uploadId w.db = true ∧
      (abortMultipartUpload upload).run w = (.ok (), w.closeUpload upload.uploadId)) := by
  cases hthere : uploadRowExists upload.uploadId w.db with
  | false => exact Or.inl ⟨rfl, by simp [abortMultipartUpload, query, hthere]⟩
  | true =>
      refine Or.inr ⟨rfl, ?_⟩
      simp [abortMultipartUpload, query, removeUploadDir, run_bind, hthere,
        runStatements_closeUpload, World.closeUpload]

theorem abortStaleMultipart_run (w : World) (uploadId : String) :
    (abortStaleMultipart uploadId).run w = (.ok (), w.closeUpload uploadId) := by
  simp [abortStaleMultipart, removeUploadDir, runStatements_closeUpload, World.closeUpload]

end Strix

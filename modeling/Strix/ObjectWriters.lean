import Strix.ObjectReaders

/-!
# Writing objects

`putObject` and `copyObject`.  Each prepares everything first (the row it is
about to insert, the blob file under a fresh id) and then runs one metadata
closure that makes room for the row and inserts it: in a bucket with
versioning enabled the key's rows lose their latest flag, in any other bucket
they are deleted.

* `PutAccepted` and `CopyAccepted` say, of the request and the state before,
  that the call reaches its closure;
* `putObject_cases` and `copyObject_cases` say everything such a call can do:
  refused, it changes nothing but the draws; accepted, it is `World.install`
  of a new version that holds the content.
-/

namespace Strix

open AtomicProgram AtomicProgram.Prog RowTable

/-- Read a body to its end; an error of the source ends the request. -/
def readBody : ObjectBody → Except Error Bytes
  | [] => .ok []
  | .error e :: _ => .error (.io e)
  | .ok chunk :: rest =>
      match readBody rest with
      | .ok more => .ok (chunk ++ more)
      | .error e => .error e

/-- The version id of a new row: its own id where versioning is enabled. -/
def newVersionId (status : VersioningStatus) (objectId : String) : String :=
  if status = .enabled then objectId else "null"

/-- The version id that a writer answers. -/
def answeredVersionId (status : VersioningStatus) (versionId : String) : Option String :=
  if status = .enabled then some versionId else none

/-- The first statement of the writers' closures: make room for a new row. -/
def makeRoom (status : VersioningStatus) (bucket key : String) : Statement :=
  if status = .enabled then updateObjects (atKey bucket key) ObjectRow.demote
  else deleteObjects (atKey bucket key)

/-- What `makeRoom` leaves of the table. -/
def roomMade (status : VersioningStatus) (bucket key : String) (rows : List ObjectRow) :
    List ObjectRow :=
  if status = .enabled then updateRows (atKey bucket key) ObjectRow.demote rows
  else deleteRows (atKey bucket key) rows

theorem makeRoom_ok (status : VersioningStatus) (bucket key : String) (now : DateTime)
    (db : Db) :
    makeRoom status bucket key now db =
      .ok { db with objects := roomMade status bucket key db.objects } := by
  unfold makeRoom roomMade
  by_cases h : status = .enabled <;> simp [h, updateObjects, deleteObjects]

/-- Every row that is left is an old row, perhaps without its latest flag. -/
theorem mem_roomMade {status : VersioningStatus} {bucket key : String}
    {rows : List ObjectRow} {r : ObjectRow} (h : r ∈ roomMade status bucket key rows) :
    ∃ old ∈ rows, r = old ∨ (r = old.demote ∧ atKey bucket key old = true) := by
  unfold roomMade at h
  by_cases hs : status = .enabled
  · rw [if_pos hs] at h
    obtain ⟨old, hmem, hr⟩ := mem_updateRows.mp h
    by_cases hp : atKey bucket key old = true
    · exact ⟨old, hmem, Or.inr ⟨by rw [← hr, if_pos hp], hp⟩⟩
    · exact ⟨old, hmem, Or.inl (by rw [← hr, if_neg hp])⟩
  · rw [if_neg hs] at h
    exact ⟨r, (mem_deleteRows.mp h).1, Or.inl rfl⟩

/-- Store a new version: its blob, the room for its row and the row. -/
def World.install (w : World) (status : VersioningStatus) (row : ObjectRow) (data : Bytes)
    (draws : Nat) : World where
  db := { w.db with
    objects := insertRow row (roomMade status row.bucket row.key w.db.objects) }
  files := { w.files with
    objects := Function.update w.files.objects row.id (some data) }
  draws := draws
  now := w.now

variable (P : Platform)

/-- **What every writer's new row is like.**  It is a latest, unlocked row
under the id of the draw. -/
structure NewVersion (w : World) (bucket key : String) (status : VersioningStatus)
    (row : ObjectRow) : Prop where
  bucket_eq : row.bucket = bucket
  key_eq : row.key = key
  status_eq : versioningStatus bucket w.db = some status
  id_eq : row.id = P.ulid w.draws
  versionId_eq : row.versionId = newVersionId status row.id
  latest : row.isLatest = true
  notMarker : row.isDeleteMarker = false
  unlocked : row.retentionMode = none ∧ row.retainUntilDate = none ∧ row.legalHold = false
  createdAt_eq : row.createdAt = w.now.seconds

/-- **The blob `data` of a row holds `content`.**  A customer key comes into
it for SSE-C only. -/
def Holds (row : ObjectRow) (sseKey : Option EncryptionKey) (content data : Bytes) : Prop :=
  match row.encryptionAlgorithm with
  | none => data = content
  | some .aes256 => decryptSseS3 P row.bucket row.key row.versionId data = .ok content
  | some .sseC => ∃ k, sseKey = some k ∧ decryptSseC P k data = .ok content

variable {P} in
/-- What a row holds under no key of the customer's is decrypted under any. -/
theorem decryptRow_of_holds {row : ObjectRow} {sseKey : Option EncryptionKey}
    {content data : Bytes} {opts : GetObjectOpts} (halg : row.encryptionAlgorithm ≠ some .sseC)
    (hholds : Holds P row sseKey content data) :
    decryptRow P row.bucket row.key row opts data = .ok content := by
  unfold decryptRow
  cases hrow : row.encryptionAlgorithm with
  | none =>
      simp only [Holds, hrow] at hholds
      rw [hholds]
  | some algorithm =>
      cases algorithm with
      | aes256 =>
          simp only [Holds, hrow] at hholds
          simpa [ObjectRow.responseVersion_getD] using hholds
      | sseC => exact absurd hrow halg

/-! ## Encrypting under a fresh nonce -/

/-- `encrypt_aes256_gcm` draws the nonce it puts in front. -/
def encryptFresh (key : EncryptionKey) (data : Bytes) : StoreProg Bytes := do
  let n ← draw
  lift (encryptWith P key (P.nonce n) data)

/-- `encrypt_sse_s3`. -/
def encryptSseS3 (bucket key versionId : String) (data : Bytes) : StoreProg Bytes :=
  encryptFresh P (deriveObjectKey P bucket key versionId) data

/-- `encrypt_sse_c`. -/
def encryptSseC (key : EncryptionKey) (data : Bytes) : StoreProg Bytes :=
  encryptFresh P key data

/-- Encryption draws one nonce; it fails on too long a plaintext only, and
else decrypts to the plaintext. -/
theorem encryptFresh_cases (w : World) (key : EncryptionKey) (data : Bytes) :
    (∃ e, (encryptFresh P key data).run w = (.error e, { w with draws := w.draws + 1 }) ∧
        ¬ data.length ≤ P.maxPlaintext) ∨
      ∃ c, (encryptFresh P key data).run w = (.ok c, { w with draws := w.draws + 1 }) ∧
        data.length ≤ P.maxPlaintext ∧ decryptWith P key c = .ok data := by
  have hok := encryptWith_isOk (P := P) key (P.nonce w.draws) data
  cases hc : encryptWith P key (P.nonce w.draws) data with
  | error e =>
      refine Or.inl ⟨e, by simp [encryptFresh, draw, hc], fun hlen => ?_⟩
      obtain ⟨c, hc'⟩ := hok.mpr hlen
      rw [hc] at hc'
      cases hc'
  | ok c =>
      exact Or.inr ⟨c, by simp [encryptFresh, draw, hc], hok.mp ⟨c, hc⟩,
        decryptWith_encryptWith hc⟩

/-! ## Put -/

/-- The customer key of a put, when it sends one. -/
def putCustomerKey (opts : PutObjectOpts) : Except Error (Option EncryptionKey) :=
  match opts.sseCustomerKey with
  | none => .ok none
  | some keyBase64 =>
      match customerKey P keyBase64 opts.sseCustomerKeyMd5 with
      | .ok key => .ok (some key)
      | .error e => .error e

/-- The bytes a put writes to the blob file. -/
def sealContent (bucket key versionId : String) (sseCKey : Option EncryptionKey)
    (content : Bytes) : Option ServerSideEncryption → StoreProg Bytes
  | none => return content
  | some .aes256 => encryptSseS3 P bucket key versionId content
  | some .sseC => do
      let sseKey ← require sseCKey (.invalidArgument "SSE-C requires customer key")
      encryptSseC P sseKey content

/-- The row that a put inserts. -/
def putRow (bucket key : String) (opts : PutObjectOpts) (objectId versionId : String)
    (size : Nat) (etag : String) (now : DateTime) : ObjectRow where
  id := objectId
  bucket := bucket
  key := key
  versionId := versionId
  size := size
  etag := etag
  contentType := opts.contentType
  contentEncoding := opts.contentEncoding
  contentDisposition := opts.contentDisposition
  cacheControl := opts.cacheControl
  storageClass := opts.storageClass.getD .standard
  userMetadata := some opts.metadata
  encryptionAlgorithm := opts.serverSideEncryption
  encryptionKeyMd5 :=
    if opts.serverSideEncryption = some .sseC then opts.sseCustomerKeyMd5 else none
  createdAt := now
  lastModified := now

/-- `put_object`. -/
def putObject (bucket key : String) (body : ObjectBody) (opts : PutObjectOpts) :
    StoreProg PutObjectResponse := do
  let selected ← query (versioningStatus bucket)
  let status ← require selected (.bucketNotFound bucket)
  let n ← draw
  let objectId := P.ulid n
  let versionId := newVersionId status objectId
  let sseCKey ← lift (putCustomerKey P opts)
  let content ← lift (readBody body)
  let etag := contentEtag P content
  let data ← sealContent P bucket key versionId sseCKey content opts.serverSideEncryption
  writeBlob objectId data
  call [makeRoom status bucket key,
    insertObject (putRow bucket key opts objectId versionId content.length etag)]
  return { etag, versionId := answeredVersionId status versionId }

/-- `put_object`, given how its metadata closure runs. -/
def putObjectVia (closure : List Statement → StoreProg Unit) (bucket key : String)
    (body : ObjectBody) (opts : PutObjectOpts) : StoreProg PutObjectResponse := do
  let selected ← query (versioningStatus bucket)
  let status ← require selected (.bucketNotFound bucket)
  let n ← draw
  let objectId := P.ulid n
  let versionId := newVersionId status objectId
  let sseCKey ← lift (putCustomerKey P opts)
  let content ← lift (readBody body)
  let etag := contentEtag P content
  let data ← sealContent P bucket key versionId sseCKey content opts.serverSideEncryption
  writeBlob objectId data
  closure [makeRoom status bucket key,
    insertObject (putRow bucket key opts objectId versionId content.length etag)]
  return { etag, versionId := answeredVersionId status versionId }

theorem putObjectVia_call (bucket key : String) (body : ObjectBody) (opts : PutObjectOpts) :
    putObjectVia P call bucket key body opts = putObject P bucket key body opts := rfl

/-- The world in which a writer's closure runs. -/
def World.withBlob (w : World) (objectId : String) (data : Bytes) (draws : Nat) : World :=
  { w with
    files.objects := Function.update w.files.objects objectId (some data)
    draws := draws }

/-- Encrypting as asked goes through: AES-GCM takes the content, and SSE-C has
its key. -/
def Sealable (algorithm : Option ServerSideEncryption) (sseCKey : Option EncryptionKey)
    (content : Bytes) : Prop :=
  (algorithm ≠ none → content.length ≤ P.maxPlaintext) ∧
    (algorithm = some .sseC → sseCKey ≠ none)

/-- **A put is accepted** when its bucket exists, its customer key is good,
its body arrives whole and it can be encrypted as asked. -/
def PutAccepted (w : World) (bucket : String) (body : ObjectBody) (opts : PutObjectOpts) :
    Prop :=
  (∃ status, versioningStatus bucket w.db = some status) ∧
  ∃ sseCKey content, putCustomerKey P opts = .ok sseCKey ∧ readBody body = .ok content ∧
    Sealable P opts.serverSideEncryption sseCKey content

/-- Encrypting draws nonces and touches nothing else; what it yields holds
the content. -/
theorem sealContent_cases (w : World) (row : ObjectRow) (sseCKey : Option EncryptionKey)
    (content : Bytes) :
    (∃ e n, (sealContent P row.bucket row.key row.versionId sseCKey content
          row.encryptionAlgorithm).run w = (.error e, { w with draws := n }) ∧
        w.draws ≤ n ∧ ¬ Sealable P row.encryptionAlgorithm sseCKey content) ∨
      ∃ data n, (sealContent P row.bucket row.key row.versionId sseCKey content
          row.encryptionAlgorithm).run w = (.ok data, { w with draws := n }) ∧
        w.draws ≤ n ∧ Sealable P row.encryptionAlgorithm sseCKey content ∧
        Holds P row sseCKey content data := by
  cases halg : row.encryptionAlgorithm with
  | none =>
      exact Or.inr ⟨content, w.draws, rfl, Nat.le_refl _, ⟨by simp, by simp⟩,
        by simp [Holds, halg]⟩
  | some algorithm =>
      cases algorithm with
      | aes256 =>
          rcases encryptFresh_cases P w (deriveObjectKey P row.bucket row.key row.versionId)
              content with ⟨e, hrun, hlong⟩ | ⟨c, hrun, hlen, hdec⟩
          · exact Or.inl ⟨e, w.draws + 1, hrun, by omega, fun h => hlong (h.1 (by simp))⟩
          · exact Or.inr ⟨c, w.draws + 1, hrun, by omega, ⟨fun _ => hlen, by simp⟩,
              by simpa [Holds, halg, decryptSseS3] using hdec⟩
      | sseC =>
          cases sseCKey with
          | none => exact Or.inl ⟨_, w.draws, rfl, Nat.le_refl _, fun h => h.2 rfl rfl⟩
          | some k =>
              rcases encryptFresh_cases P w k content with
                ⟨e, hrun, hlong⟩ | ⟨c, hrun, hlen, hdec⟩
              · exact Or.inl ⟨e, w.draws + 1, hrun, by omega, fun h => hlong (h.1 (by simp))⟩
              · exact Or.inr ⟨c, w.draws + 1, hrun, by omega, ⟨fun _ => hlen, by simp⟩,
                  by simpa [Holds, halg, decryptSseC] using hdec⟩

/-- The ids of all object rows were drawn before. -/
def IdsDrawn (w : World) : Prop := ∀ r ∈ w.db.objects, ∃ i, i < w.draws ∧ r.id = P.ulid i

variable {P}

/-- A draw that is still to come yields an id of no row. -/
theorem IdsDrawn.fresh {w : World} (h : IdsDrawn P w) {n : Nat} (hn : w.draws ≤ n)
    {r : ObjectRow} (hr : r ∈ w.db.objects) : r.id ≠ P.ulid n := by
  obtain ⟨i, hi, hid⟩ := h r hr
  intro heq
  have := P.ulid_injective (hid.symm.trans heq)
  omega

/-- The writers' closure makes room and inserts when the bucket is there and
the id is new. -/
theorem runStatements_install {db : Db} (now : DateTime) (status : VersioningStatus)
    (bucket key : String) (row : DateTime → ObjectRow) (rest : List Statement)
    (hbucket : (row now.seconds).bucket = bucket)
    (hid : ∀ r ∈ db.objects, r.id ≠ (row now.seconds).id)
    (hthere : ∃ b ∈ db.buckets, b.name = bucket) :
    runStatements (makeRoom status bucket key :: insertObject row :: rest) now db =
      runStatements rest now { db with
        objects := insertRow (row now.seconds) (roomMade status bucket key db.objects) } := by
  rw [runStatements_cons_ok (makeRoom_ok status bucket key now db)]
  apply runStatements_cons_ok
  apply insertObject_ok
  · intro old hold
    obtain ⟨old', hmem, rfl | ⟨rfl, -⟩⟩ := mem_roomMade hold
    · exact hid _ hmem
    · exact hid old' hmem
  · exact hbucket ▸ hthere

/-- **Everything a put does up to its closure.** -/
theorem putObjectVia_cases (w : World) (bucket key : String) (body : ObjectBody)
    (opts : PutObjectOpts) :
    (¬ PutAccepted P w bucket body opts ∧ ∃ e n, w.draws ≤ n ∧
      ∀ closure, (putObjectVia P closure bucket key body opts).run w =
        (.error e, { w with draws := n })) ∨
    (PutAccepted P w bucket body opts ∧ ∃ status sseCKey content data n,
      w.draws < n ∧ versioningStatus bucket w.db = some status ∧
      putCustomerKey P opts = .ok sseCKey ∧ readBody body = .ok content ∧
      let versionId := newVersionId status (P.ulid w.draws)
      let row := putRow bucket key opts (P.ulid w.draws) versionId content.length
        (contentEtag P content)
      Holds P (row w.now.seconds) sseCKey content data ∧
      ∀ closure, (putObjectVia P closure bucket key body opts).run w =
        (closure [makeRoom status bucket key, insertObject row] >>= fun _ =>
          done { etag := contentEtag P content
                 versionId := answeredVersionId status versionId }).run
            (w.withBlob (P.ulid w.draws) data n)) := by
  cases hstatus : versioningStatus bucket w.db with
  | none =>
      refine Or.inl ⟨?_, .bucketNotFound bucket, w.draws, Nat.le_refl _, fun closure => ?_⟩
      · rintro ⟨⟨status, hsome⟩, -⟩
        rw [hstatus] at hsome
        cases hsome
      · simp [putObjectVia, query, hstatus]
  | some status =>
      cases hkey : putCustomerKey P opts with
      | error e =>
          refine Or.inl ⟨?_, e, w.draws + 1, Nat.le_succ _, fun closure => ?_⟩
          · rintro ⟨-, sseCKey, content, hok, -⟩
            rw [hkey] at hok
            cases hok
          · simp [putObjectVia, query, draw, hstatus, hkey]
      | ok sseCKey =>
          cases hbody : readBody body with
          | error e =>
              refine Or.inl ⟨?_, e, w.draws + 1, Nat.le_succ _, fun closure => ?_⟩
              · rintro ⟨-, _, content, -, hok, -⟩
                rw [hbody] at hok
                cases hok
              · simp [putObjectVia, query, draw, hstatus, hkey, hbody]
          | ok content =>
              let versionId := newVersionId status (P.ulid w.draws)
              let row := putRow bucket key opts (P.ulid w.draws) versionId content.length
                (contentEtag P content) w.now.seconds
              rcases sealContent_cases P { w with draws := w.draws + 1 } row sseCKey content
                with ⟨e, n, hrun, hn, hno⟩ | ⟨data, n, hrun, hn, hyes, hholds⟩
              · refine Or.inl ⟨?_, e, n, Nat.le_of_succ_le hn, fun closure => ?_⟩
                · rintro ⟨-, sseCKey', content', hkey', hbody', hyes⟩
                  rw [hkey] at hkey'
                  rw [hbody] at hbody'
                  cases hkey'
                  cases hbody'
                  exact hno hyes
                · have hseal : (sealContent P bucket key versionId sseCKey content
                      opts.serverSideEncryption).run { w with draws := w.draws + 1 } =
                      (.error e, { w with draws := n }) := hrun
                  simp [putObjectVia, query, draw, hstatus, hkey, hbody, run_bind, hseal, versionId]
              · refine Or.inr ⟨⟨⟨status, hstatus⟩, sseCKey, content, hkey, hbody, hyes⟩,
                  status, sseCKey, content, data, n, hn, rfl, rfl, rfl, hholds, fun closure => ?_⟩
                have hseal : (sealContent P bucket key versionId sseCKey content
                    opts.serverSideEncryption).run { w with draws := w.draws + 1 } =
                    (.ok data, { w with draws := n }) := hrun
                simp [putObjectVia, query, draw, hstatus, hkey, hbody, run_bind, hseal, versionId,
                  World.withBlob]

/-- **Everything a put can do.** -/
theorem putObject_cases {w : World} (bucket key : String) (body : ObjectBody)
    (opts : PutObjectOpts) (hids : IdsDrawn P w) :
    (¬ PutAccepted P w bucket body opts ∧
      ∃ e n, (putObject P bucket key body opts).run w = (.error e, { w with draws := n }) ∧
        w.draws ≤ n) ∨
    (PutAccepted P w bucket body opts ∧
      ∃ status row sseCKey content data n,
        (putObject P bucket key body opts).run w =
          (.ok { etag := row.etag, versionId := answeredVersionId status row.versionId },
            w.install status row data n) ∧
        w.draws < n ∧ NewVersion P w bucket key status row ∧
        putCustomerKey P opts = .ok sseCKey ∧ readBody body = .ok content ∧
        row = putRow bucket key opts (P.ulid w.draws) row.versionId content.length
          (contentEtag P content) w.now.seconds ∧
        Holds P row sseCKey content data) := by
  rcases putObjectVia_cases (P := P) w bucket key body opts with ⟨hno, e, n, hn, hrun⟩ |
      ⟨hyes, status, sseCKey, content, data, n, hn, hstatus, hkey, hbody, hholds, hrun⟩
  · exact Or.inl ⟨hno, e, n, hrun call, hn⟩
  · obtain ⟨b, hb, hname, -⟩ := versioningStatus_bucket hstatus
    have hcall := runStatements_install w.now status bucket key
      (putRow bucket key opts (P.ulid w.draws) (newVersionId status (P.ulid w.draws))
        content.length (contentEtag P content)) [] rfl
      (fun r hr => hids.fresh (Nat.le_refl _) hr) ⟨b, hb, hname⟩
    refine Or.inr ⟨hyes, status, _, sseCKey, content, data, n, ?_, hn, ?_, hkey, hbody, rfl, hholds⟩
    · rw [← putObjectVia_call, hrun call]
      simp [run_bind, World.withBlob, hcall]
      exact ⟨⟨rfl, rfl⟩, rfl⟩
    · exact {
        bucket_eq := rfl
        key_eq := rfl
        status_eq := hstatus
        id_eq := rfl
        versionId_eq := rfl
        latest := rfl
        notMarker := rfl
        unlocked := ⟨rfl, rfl, rfl⟩
        createdAt_eq := rfl }

/-! ## Copy -/

variable (P)

/-- What a file operation answers for a file that is not there. -/
def noSuchFile : Error := .io "No such file or directory (os error 2)"

/-- What a query for one row answers when there is none. -/
def noRows : Error := .internal "Database error: Query returned no rows"

/-- Write the copy's blob: under SSE-S3 decrypted with the source's key and
encrypted with the copy's, else byte for byte. -/
def copyBlob (src : ObjectRow) (srcBucket srcKey srcVersion : String)
    (dstBucket dstKey versionId newObjectId : String) : StoreProg Unit := do
  let blob ← readBlob src.id
  let ciphertext ← require blob noSuchFile
  if src.encryptionAlgorithm = some .aes256 then do
    let plaintext ← lift (decryptSseS3 P srcBucket srcKey srcVersion ciphertext)
    let newCiphertext ← encryptSseS3 P dstBucket dstKey versionId plaintext
    writeBlob newObjectId newCiphertext
  else writeBlob newObjectId ciphertext

/-- The row that a copy inserts.  The columns it does not name take their
defaults. -/
def copyRow (dstBucket dstKey : String) (srcInfo : ObjectInfo) (src : ObjectRow)
    (opts : CopyObjectOpts) (objectId versionId : String) (lastModified now : DateTime) :
    ObjectRow where
  id := objectId
  bucket := dstBucket
  key := dstKey
  versionId := versionId
  size := srcInfo.size
  etag := srcInfo.etag
  contentType := srcInfo.contentType
  storageClass := srcInfo.storageClass
  userMetadata := some <|
    match opts.metadataDirective with
    | .copy => srcInfo.metadata
    | .replace => opts.metadata
  encryptionAlgorithm := src.encryptionAlgorithm
  encryptionKeyMd5 := src.encryptionKeyMd5
  createdAt := now
  lastModified := lastModified

/-- `copy_object`. -/
def copyObject (srcBucket srcKey dstBucket dstKey : String) (opts : CopyObjectOpts) :
    StoreProg CopyObjectResponse := do
  let srcInfo ← headObject srcBucket srcKey
  let current ← query (selectObject srcBucket srcKey none)
  let src ← require current noRows
  let selected ← query (versioningStatus dstBucket)
  let status ← require selected (.bucketNotFound dstBucket)
  let n ← draw
  let newObjectId := P.ulid n
  let versionId := newVersionId status newObjectId
  copyBlob P src srcBucket srcKey (srcInfo.versionId.getD "null") dstBucket dstKey versionId
    newObjectId
  let now ← clock
  call [makeRoom status dstBucket dstKey,
    insertObject (copyRow dstBucket dstKey srcInfo src opts newObjectId versionId now.seconds)]
  return {
    etag := srcInfo.etag
    lastModified := now
    versionId := answeredVersionId status versionId }

/-- `copy_object`, given how its metadata closure runs. -/
def copyObjectVia (closure : List Statement → StoreProg Unit)
    (srcBucket srcKey dstBucket dstKey : String) (opts : CopyObjectOpts) :
    StoreProg CopyObjectResponse := do
  let srcInfo ← headObject srcBucket srcKey
  let current ← query (selectObject srcBucket srcKey none)
  let src ← require current noRows
  let selected ← query (versioningStatus dstBucket)
  let status ← require selected (.bucketNotFound dstBucket)
  let n ← draw
  let newObjectId := P.ulid n
  let versionId := newVersionId status newObjectId
  copyBlob P src srcBucket srcKey (srcInfo.versionId.getD "null") dstBucket dstKey versionId
    newObjectId
  let now ← clock
  closure [makeRoom status dstBucket dstKey,
    insertObject (copyRow dstBucket dstKey srcInfo src opts newObjectId versionId now.seconds)]
  return {
    etag := srcInfo.etag
    lastModified := now
    versionId := answeredVersionId status versionId }

theorem copyObjectVia_call (srcBucket srcKey dstBucket dstKey : String) (opts : CopyObjectOpts) :
    copyObjectVia P call srcBucket srcKey dstBucket dstKey opts =
      copyObject P srcBucket srcKey dstBucket dstKey opts := rfl

/-- The copied row's content, as far as the copy has to know it: under
SSE-S3 the plaintext, else the blob itself. -/
def copiedData (src : ObjectRow) (blob : Bytes) : Except Error Bytes :=
  if src.encryptionAlgorithm = some .aes256 then
    decryptSseS3 P src.bucket src.key src.versionId blob
  else .ok blob

/-- The blob of a row can be copied: it is there, it is readable, and under
SSE-S3 its content can be encrypted again. -/
def Copyable (w : World) (src : ObjectRow) : Prop :=
  ∃ blob data, w.files.objects src.id = some blob ∧ copiedData P src blob = .ok data ∧
    (src.encryptionAlgorithm = some .aes256 → data.length ≤ P.maxPlaintext)

/-- **A copy is accepted** when the source's latest row is no delete marker
and its blob can be copied, and the target bucket exists. -/
def CopyAccepted (w : World) (srcBucket srcKey dstBucket : String) : Prop :=
  (∃ status, versioningStatus dstBucket w.db = some status) ∧
  ∃ src, selectObject srcBucket srcKey none w.db = some src ∧ src.isDeleteMarker = false ∧
    Copyable P w src

/-- Whatever the source's blob holds, the copy's blob holds for the copy's
row. -/
theorem copyBlob_cases (w : World) (src row : ObjectRow)
    (halg : row.encryptionAlgorithm = src.encryptionAlgorithm) :
    (∃ e n, (copyBlob P src src.bucket src.key src.versionId row.bucket row.key
          row.versionId row.id).run w = (.error e, { w with draws := n }) ∧
        w.draws ≤ n ∧ ¬ Copyable P w src) ∨
      ∃ blob data n, (copyBlob P src src.bucket src.key src.versionId row.bucket row.key
          row.versionId row.id).run w =
            (.ok (), { w with
              files.objects := Function.update w.files.objects row.id (some data)
              draws := n }) ∧
        w.draws ≤ n ∧ Copyable P w src ∧ w.files.objects src.id = some blob ∧
        ∀ sseKey content, Holds P src sseKey content blob → Holds P row sseKey content data := by
  cases hblob : w.files.objects src.id with
  | none =>
      refine Or.inl ⟨noSuchFile, w.draws, by simp [copyBlob, readBlob, hblob],
        Nat.le_refl _, ?_⟩
      rintro ⟨blob, data, hthere, -⟩
      rw [hblob] at hthere
      cases hthere
  | some blob =>
      by_cases haes : src.encryptionAlgorithm = some .aes256
      · cases hdec : decryptSseS3 P src.bucket src.key src.versionId blob with
        | error e =>
            refine Or.inl ⟨e, w.draws, by simp [copyBlob, readBlob, hblob, haes, hdec],
              Nat.le_refl _, ?_⟩
            rintro ⟨blob', data, hthere, hdata, -⟩
            rw [hblob] at hthere
            cases hthere
            rw [copiedData, if_pos haes, hdec] at hdata
            cases hdata
        | ok plaintext =>
            rcases encryptFresh_cases P w (deriveObjectKey P row.bucket row.key row.versionId)
                plaintext with ⟨e, hrun, hlong⟩ | ⟨c, hrun, hlen, hopen⟩
            · refine Or.inl ⟨e, w.draws + 1, ?_, Nat.le_succ _, ?_⟩
              · simp [copyBlob, readBlob, hblob, haes, hdec, encryptSseS3, run_bind, hrun]
              · rintro ⟨blob', data, hthere, hdata, hshort⟩
                rw [hblob] at hthere
                cases hthere
                rw [copiedData, if_pos haes, hdec] at hdata
                cases hdata
                exact hlong (hshort haes)
            · refine Or.inr ⟨blob, c, w.draws + 1, ?_, Nat.le_succ _,
                ⟨blob, plaintext, hblob, by rw [copiedData, if_pos haes, hdec],
                  fun _ => hlen⟩, rfl, ?_⟩
              · simp [copyBlob, readBlob, hblob, haes, hdec, encryptSseS3, run_bind, hrun]
              · intro sseKey content hholds
                simp only [Holds, haes, hdec, Except.ok.injEq] at hholds
                subst hholds
                simpa [Holds, halg, haes, decryptSseS3] using hopen
      · refine Or.inr ⟨blob, blob, w.draws, ?_, Nat.le_refl _,
          ⟨blob, blob, hblob, by rw [copiedData, if_neg haes], fun h => absurd h haes⟩,
          rfl, ?_⟩
        · simp [copyBlob, readBlob, hblob, haes]
        · intro sseKey content hholds
          cases hsrc : src.encryptionAlgorithm with
          | none => simpa [Holds, halg, hsrc] using hholds
          | some algorithm =>
              cases algorithm with
              | aes256 => exact absurd hsrc haes
              | sseC => simpa [Holds, halg, hsrc] using hholds

variable {P}

/-- **Everything a copy does up to its closure.** -/
theorem copyObjectVia_cases (w : World) (srcBucket srcKey dstBucket dstKey : String)
    (opts : CopyObjectOpts) :
    (¬ CopyAccepted P w srcBucket srcKey dstBucket ∧ ∃ e n, w.draws ≤ n ∧
      ∀ closure, (copyObjectVia P closure srcBucket srcKey dstBucket dstKey opts).run w =
        (.error e, { w with draws := n })) ∨
    (CopyAccepted P w srcBucket srcKey dstBucket ∧ ∃ status src blob data n,
      w.draws < n ∧ versioningStatus dstBucket w.db = some status ∧
      selectObject srcBucket srcKey none w.db = some src ∧ src.isDeleteMarker = false ∧
      w.files.objects src.id = some blob ∧
      let versionId := newVersionId status (P.ulid w.draws)
      let row := copyRow dstBucket dstKey src.info src opts (P.ulid w.draws) versionId
        w.now.seconds
      (∀ sseKey content, Holds P src sseKey content blob →
        Holds P (row w.now.seconds) sseKey content data) ∧
      ∀ closure, (copyObjectVia P closure srcBucket srcKey dstBucket dstKey opts).run w =
        (closure [makeRoom status dstBucket dstKey, insertObject row] >>= fun _ =>
          done { etag := src.info.etag
                 lastModified := w.now
                 versionId := answeredVersionId status versionId }).run
            (w.withBlob (P.ulid w.draws) data n)) := by
  cases hsrc : selectObject srcBucket srcKey none w.db with
  | none =>
      refine Or.inl ⟨?_, .objectNotFound srcBucket srcKey, w.draws, Nat.le_refl _,
        fun closure => ?_⟩
      · rintro ⟨-, src, hsome, -⟩
        rw [hsrc] at hsome
        cases hsome
      · simp [copyObjectVia, headObject, query, run_bind, hsrc]
  | some src =>
      cases hmarker : src.isDeleteMarker with
      | true =>
          refine Or.inl ⟨?_, .objectNotFound srcBucket srcKey, w.draws, Nat.le_refl _,
            fun closure => ?_⟩
          · rintro ⟨-, src', hsome, hno, -⟩
            rw [hsrc] at hsome
            cases hsome
            rw [hmarker] at hno
            cases hno
          · simp [copyObjectVia, headObject, query, run_bind, hsrc, hmarker]
      | false =>
          cases hstatus : versioningStatus dstBucket w.db with
          | none =>
              refine Or.inl ⟨?_, .bucketNotFound dstBucket, w.draws, Nat.le_refl _,
                fun closure => ?_⟩
              · rintro ⟨⟨status, hsome⟩, -⟩
                rw [hstatus] at hsome
                cases hsome
              · simp [copyObjectVia, headObject, query, run_bind, hsrc, hmarker, hstatus]
          | some status =>
              obtain ⟨-, rfl, rfl⟩ := selectObject_some hsrc
              have hversion : src.info.versionId.getD "null" = src.versionId :=
                src.responseVersion_getD
              let row := copyRow dstBucket dstKey src.info src opts (P.ulid w.draws)
                (newVersionId status (P.ulid w.draws)) w.now.seconds w.now.seconds
              rcases copyBlob_cases P { w with draws := w.draws + 1 } src row rfl with
                ⟨e, n, hrun, hn, hno⟩ | ⟨blob, data, n, hrun, hn, hyes, hblob, hholds⟩
              · refine Or.inl ⟨?_, e, n, Nat.le_of_succ_le hn, fun closure => ?_⟩
                · rintro ⟨-, src', hsome, -, hyes⟩
                  rw [hsrc] at hsome
                  cases hsome
                  exact hno hyes
                · have hcopy : (copyBlob P src src.bucket src.key src.versionId dstBucket dstKey
                      (newVersionId status (P.ulid w.draws)) (P.ulid w.draws)).run
                      { w with draws := w.draws + 1 } = (.error e, { w with draws := n }) := hrun
                  simp [copyObjectVia, headObject, query, draw, run_bind, hsrc, hmarker, hstatus,
                    hversion, hcopy]
              · refine Or.inr ⟨⟨⟨status, hstatus⟩, src, hsrc, hmarker, hyes⟩,
                  status, src, blob, data, n, hn, rfl, rfl, hmarker, hblob, hholds,
                  fun closure => ?_⟩
                have hcopy : (copyBlob P src src.bucket src.key src.versionId dstBucket dstKey
                    (newVersionId status (P.ulid w.draws)) (P.ulid w.draws)).run
                    { w with draws := w.draws + 1 } =
                    (.ok (), w.withBlob (P.ulid w.draws) data n) := hrun
                simp [copyObjectVia, headObject, query, draw, clock, run_bind, hsrc, hmarker,
                  hstatus, hversion, hcopy]
                rfl

/-- **Everything a copy can do.** -/
theorem copyObject_cases {w : World} (srcBucket srcKey dstBucket dstKey : String)
    (opts : CopyObjectOpts) (hids : IdsDrawn P w) :
    (¬ CopyAccepted P w srcBucket srcKey dstBucket ∧
      ∃ e n, (copyObject P srcBucket srcKey dstBucket dstKey opts).run w =
        (.error e, { w with draws := n }) ∧ w.draws ≤ n) ∨
    (CopyAccepted P w srcBucket srcKey dstBucket ∧
      ∃ status row src blob data n,
        (copyObject P srcBucket srcKey dstBucket dstKey opts).run w =
          (.ok {
              etag := row.etag
              lastModified := w.now
              versionId := answeredVersionId status row.versionId },
            w.install status row data n) ∧
        w.draws < n ∧ NewVersion P w dstBucket dstKey status row ∧
        selectObject srcBucket srcKey none w.db = some src ∧ src.isDeleteMarker = false ∧
        row = copyRow dstBucket dstKey src.info src opts (P.ulid w.draws) row.versionId
          w.now.seconds w.now.seconds ∧
        w.files.objects src.id = some blob ∧
        ∀ sseKey content, Holds P src sseKey content blob →
          Holds P row sseKey content data) := by
  rcases copyObjectVia_cases (P := P) w srcBucket srcKey dstBucket dstKey opts with
    ⟨hno, e, n, hn, hrun⟩ |
      ⟨hyes, status, src, blob, data, n, hn, hstatus, hsrc, hmarker, hblob, hholds, hrun⟩
  · exact Or.inl ⟨hno, e, n, hrun call, hn⟩
  · obtain ⟨b, hb, hname, -⟩ := versioningStatus_bucket hstatus
    have hcall := runStatements_install w.now status dstBucket dstKey
      (copyRow dstBucket dstKey src.info src opts (P.ulid w.draws)
        (newVersionId status (P.ulid w.draws)) w.now.seconds) [] rfl
      (fun r hr => hids.fresh (Nat.le_refl _) hr) ⟨b, hb, hname⟩
    refine Or.inr ⟨hyes, status, _, src, blob, data, n, ?_, hn, ?_, hsrc, hmarker, rfl, hblob,
      hholds⟩
    · rw [← copyObjectVia_call, hrun call]
      simp [run_bind, World.withBlob, hcall]
      exact ⟨⟨rfl, rfl⟩, rfl⟩
    · exact {
        bucket_eq := rfl
        key_eq := rfl
        status_eq := hstatus
        id_eq := rfl
        versionId_eq := rfl
        latest := rfl
        notMarker := rfl
        unlocked := ⟨rfl, rfl, rfl⟩
        createdAt_eq := rfl }

end Strix

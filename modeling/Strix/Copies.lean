import Strix.CustomerKeys

/-!
# Copies

A copy without new metadata is to be the source under another name.  The store
reads the source twice, once as `head_object` reports it and once for its
encryption, and inserts a row of the columns that it has read; three headers that
the writers keep are not among them.

* `copied_of_run`: whoever can read the source reads the same from the copy, also
  when the content had to be encrypted again;
* `copy_faithful_iff`: a copy is faithful exactly when the source has no content
  encoding, no content disposition and no cache control;
* `encodingLost`: the copy of an object with a content encoding has none.
-/

namespace Strix

open AtomicProgram AtomicProgram.Prog MachineRuns RowTable

/-- What clients see of an object besides its content. -/
structure ObjectDescription where
  size : Nat
  etag : String
  contentType : Option String
  contentEncoding : Option String
  contentDisposition : Option String
  cacheControl : Option String
  storageClass : StorageClass
  userMetadata : Metadata
  deriving DecidableEq, Repr

/-- The description of a row. -/
def ObjectRow.description (r : ObjectRow) : ObjectDescription where
  size := r.size
  etag := r.etag
  contentType := r.contentType
  contentEncoding := r.contentEncoding
  contentDisposition := r.contentDisposition
  cacheControl := r.cacheControl
  storageClass := r.storageClass
  userMetadata := r.userMetadata.getD []

/-- The row has none of the headers that only the writers keep. -/
structure ObjectRow.Headerless (r : ObjectRow) : Prop where
  contentEncoding : r.contentEncoding = none
  contentDisposition : r.contentDisposition = none
  cacheControl : r.cacheControl = none

variable (P : Platform)

/-- What a read of a whole object answers, with or without a customer key. -/
def wholeRead (bucket key : String) (sseCustomerKey sseCustomerKeyMd5 : Option String)
    (w : World) : Except Error Bytes :=
  ((getObject P bucket key { sseCustomerKey, sseCustomerKeyMd5 }).run w).1.map (·.body)

/-- **The copy is faithful:** it is described as the source was and reads as the source
did, and a source of another name is as it was, row and blob. -/
structure CopiedFaithfully (w w' : World) (srcBucket srcKey dstBucket dstKey : String) :
    Prop where
  described : ∃ src row, selectObject srcBucket srcKey none w.db = some src ∧
    selectObject dstBucket dstKey none w'.db = some row ∧ row.description = src.description
  content : ∀ sseCustomerKey sseCustomerKeyMd5,
    wholeRead P dstBucket dstKey sseCustomerKey sseCustomerKeyMd5 w' =
      wholeRead P srcBucket srcKey sseCustomerKey sseCustomerKeyMd5 w
  source : (srcBucket, srcKey) ≠ (dstBucket, dstKey) →
    ∀ src, selectObject srcBucket srcKey none w.db = some src →
      selectObject srcBucket srcKey none w'.db = some src ∧
        w'.files.objects src.id = w.files.objects src.id

variable {P} {w w' : World} {srcBucket srcKey dstBucket dstKey : String} {opts : CopyObjectOpts}
  {reply : CopyObjectResponse}

/-! ## Reading the copy -/

/-- A read of a whole object decrypts its blob. -/
theorem wholeRead_eq {bucket key : String} {row : ObjectRow} {blob : Bytes}
    (hselect : selectObject bucket key none w.db = some row)
    (hmarker : row.isDeleteMarker = false) (hblob : w.files.objects row.id = some blob)
    (sseCustomerKey sseCustomerKeyMd5 : Option String) :
    wholeRead P bucket key sseCustomerKey sseCustomerKeyMd5 w =
      decryptRow P row.bucket row.key row { sseCustomerKey, sseCustomerKeyMd5 } blob := by
  obtain ⟨-, rfl, rfl⟩ := selectObject_some hselect
  unfold wholeRead
  rw [getObject_run, hselect]
  simp only [hblob, readContent, hmarker]
  have hpre : checkPreconditions row { sseCustomerKey, sseCustomerKeyMd5 } = .ok () := rfl
  rw [hpre]
  cases hplain : decryptRow P row.bucket row.key row { sseCustomerKey, sseCustomerKeyMd5 } blob with
  | error e => simp [Except.map, hplain]
  | ok content => simp [Except.map, hplain, resolveRange]

/-- What `copy_object` writes is the source's blob, unless that is under SSE-S3. -/
theorem copied_blob {src : ObjectRow}
    (hrun : (copyObject P srcBucket srcKey dstBucket dstKey opts).run w = (.ok reply, w'))
    (hsrc : selectObject srcBucket srcKey none w.db = some src)
    (hplain : src.encryptionAlgorithm ≠ some .aes256) :
    w'.files.objects (P.ulid w.draws) = w.files.objects src.id := by
  obtain ⟨-, rfl, rfl⟩ := selectObject_some hsrc
  cases hmarker : src.isDeleteMarker with
  | true => simp [copyObject, headObject, query, run_bind, hsrc, hmarker] at hrun
  | false =>
      cases hstatus : versioningStatus dstBucket w.db with
      | none => simp [copyObject, headObject, query, run_bind, hsrc, hmarker, hstatus] at hrun
      | some status =>
          cases hblob : w.files.objects src.id with
          | none =>
              simp [copyObject, copyBlob, headObject, query, draw, readBlob, run_bind, hsrc,
                hmarker, hstatus, hblob] at hrun
          | some blob =>
              simp [copyObject, copyBlob, headObject, query, draw, clock, readBlob, writeBlob,
                run_bind, hsrc, hmarker, hstatus, hblob, hplain] at hrun
              generalize runStatements _ w.now w.db = outcome at hrun
              obtain ⟨result, db⟩ := outcome
              cases result with
              | error e => cases (Prod.mk.inj hrun).1
              | ok _ =>
                  rw [← (Prod.mk.inj hrun).2]
                  exact Function.update_self ..

/-- What a copy that succeeds has done. -/
structure Copied (P : Platform) (w w' : World) (srcBucket srcKey dstBucket dstKey : String)
    (opts : CopyObjectOpts) (status : VersioningStatus) (src row : ObjectRow) : Prop where
  source : selectObject srcBucket srcKey none w.db = some src
  isNew : NewVersion P w dstBucket dstKey status row
  row_eq : row = copyRow dstBucket dstKey src.info src opts (P.ulid w.draws) row.versionId
    w.now.seconds w.now.seconds
  objects : w'.db.objects =
    insertRow row (roomMade status dstBucket dstKey w.db.objects)
  latest : selectObject dstBucket dstKey none w'.db = some row
  blobs : ∀ id, id ≠ row.id → w'.files.objects id = w.files.objects id
  content : ∀ sseCustomerKey sseCustomerKeyMd5,
    wholeRead P dstBucket dstKey sseCustomerKey sseCustomerKeyMd5 w' =
      wholeRead P srcBucket srcKey sseCustomerKey sseCustomerKeyMd5 w

/-- A blob that holds what another does decrypts as that does, under customer keys if it is
the same blob. -/
theorem decryptRow_eq_of_holds {src row : ObjectRow} {blob data : Bytes} {opts : GetObjectOpts}
    (halg : row.encryptionAlgorithm = src.encryptionAlgorithm)
    (hplain : src.encryptionAlgorithm ≠ some .aes256 → data = blob)
    (hsealed : src.encryptionAlgorithm = some .aes256 →
      ∃ content, decryptSseS3 P src.bucket src.key src.versionId blob = .ok content)
    (hholds : ∀ sseKey content, Holds P src sseKey content blob →
      Holds P row sseKey content data) :
    decryptRow P row.bucket row.key row opts data =
      decryptRow P src.bucket src.key src opts blob := by
  unfold decryptRow
  cases hsrc : src.encryptionAlgorithm with
  | none => rw [halg, hsrc, hplain (by simp [hsrc])]
  | some algorithm =>
      cases algorithm with
      | aes256 =>
          obtain ⟨content, hcontent⟩ := hsealed hsrc
          have hcopy := hholds none content (by simpa [Holds, hsrc] using hcontent)
          simp only [Holds, halg, hsrc] at hcopy
          simp only [halg, hsrc, ObjectRow.responseVersion_getD, hcopy, hcontent]
      | sseC => rw [halg, hsrc, hplain (by simp [hsrc])]

/-- **Whoever can read the source reads the same from the copy**, which is the latest row
of its key. -/
theorem copied_of_run (hw : (store P).Reachable w)
    (hrun : (copyObject P srcBucket srcKey dstBucket dstKey opts).run w = (.ok reply, w')) :
    ∃ status src row, Copied P w w' srcBucket srcKey dstBucket dstKey opts status src row := by
  have hids := (wellFormed_reachable hw).ids
  rcases copyObject_cases srcBucket srcKey dstBucket dstKey opts hids with
    ⟨-, e, n, hfails, -⟩ |
      ⟨⟨-, src', hsrc', -, hcopyable⟩, status, row, src, blob, data, n, hok, -, hnew, hsrc, hmarker,
        hrow, hblob, hholds⟩
  · rw [hfails] at hrun
    cases hrun
  · obtain rfl : src' = src := Option.some.inj (hsrc'.symm.trans hsrc)
    have hcopied := copied_blob hrun hsrc
    rw [hok] at hrun
    obtain ⟨-, rfl⟩ := Prod.mk.inj hrun
    have hlatest : selectObject dstBucket dstKey none (w.install status row data n).db = some row :=
      selectObject_install hnew
    have hdata : (w.install status row data n).files.objects row.id = some data :=
      Function.update_self ..
    have halg : row.encryptionAlgorithm = src'.encryptionAlgorithm := by rw [hrow]; rfl
    refine ⟨status, src', row, hsrc, hnew, hrow, ?_, hlatest, ?_, ?_⟩
    · rw [← hnew.bucket_eq, ← hnew.key_eq]
      rfl
    · intro id hid
      exact Function.update_of_ne hid ..
    · intro sseCustomerKey sseCustomerKeyMd5
      rw [wholeRead_eq hlatest hnew.notMarker hdata, wholeRead_eq hsrc hmarker hblob]
      refine decryptRow_eq_of_holds halg (fun hplain => ?_) (fun hsealed => ?_) hholds
      · rw [← hnew.id_eq, hdata, hblob] at hcopied
        exact Option.some.inj (hcopied hplain)
      · obtain ⟨blob', content, hblob', hcontent, -⟩ := hcopyable
        obtain rfl : blob' = blob := Option.some.inj (hblob'.symm.trans hblob)
        rw [copiedData, if_pos hsealed] at hcontent
        exact ⟨content, hcontent⟩

/-! ## The description of the copy -/

/-- The latest row of another key is found as before. -/
theorem selectObject_insertRow_other {db db' : Db} {status : VersioningStatus} {row : ObjectRow}
    {bucket key b k : String} (hother : (b, k) ≠ (bucket, key))
    (hrow : row.bucket = bucket ∧ row.key = key)
    (hobjects : db'.objects = insertRow row (roomMade status bucket key db.objects)) :
    selectObject b k none db' = selectObject b k none db := by
  have hnot : ¬ (b = bucket ∧ k = key) := fun h => hother (Prod.ext h.1 h.2)
  have hfilter : db'.objects.filter (atKey b k) = db.objects.filter (atKey b k) := by
    have hat : atKey b k row = false := atKey_other hnot (atKey_iff.mpr hrow)
    rw [hobjects, filter_insertRow_of_neg (by simp [hat]), filter_roomMade_other hnot]
  have hfind (rows : List ObjectRow) : selectFirst (atLatest b k) rows =
      (rows.filter (atKey b k)).find? ObjectRow.isLatest := by
    rw [List.find?_filter, selectFirst]
    congr 1
    funext r
    cases hat : atKey b k r <;> simp [atLatest, hat]
  simp only [selectObject, addressed, hfind, hfilter]

/-- The copy of a row is described as the row, when that has none of the headers. -/
theorem Copied.description_eq_iff {status : VersioningStatus} {src row : ObjectRow}
    (h : Copied P w w' srcBucket srcKey dstBucket dstKey opts status src row)
    (hdirective : opts.metadataDirective = .copy) :
    row.description = src.description ↔ src.Headerless := by
  rw [h.row_eq]
  simp only [ObjectRow.description, copyRow, ObjectRow.info, hdirective, Option.getD_some,
    ObjectDescription.mk.injEq, true_and, and_true]
  constructor
  · rintro ⟨hencoding, hdisposition, hcontrol⟩
    exact ⟨hencoding.symm, hdisposition.symm, hcontrol.symm⟩
  · intro hnone
    exact ⟨hnone.contentEncoding.symm, hnone.contentDisposition.symm, hnone.cacheControl.symm⟩

/-- **A copy that keeps the metadata is faithful, exactly** when the source has no content
encoding, no content disposition and no cache control. -/
theorem copy_faithful_iff (hw : (store P).Reachable w)
    (hdirective : opts.metadataDirective = .copy)
    (hrun : (copyObject P srcBucket srcKey dstBucket dstKey opts).run w = (.ok reply, w')) :
    CopiedFaithfully P w w' srcBucket srcKey dstBucket dstKey ↔
      ∃ src, selectObject srcBucket srcKey none w.db = some src ∧ src.Headerless := by
  obtain ⟨status, src, row, hcopied⟩ := copied_of_run hw hrun
  have hiff := hcopied.description_eq_iff hdirective
  constructor
  · rintro ⟨⟨src', row', hsrc, hrow, hdescribed⟩, -, -⟩
    obtain rfl : src' = src := Option.some.inj (hsrc.symm.trans hcopied.source)
    obtain rfl : row' = row := Option.some.inj (hrow.symm.trans hcopied.latest)
    exact ⟨src', hsrc, hiff.mp hdescribed⟩
  · rintro ⟨src', hsrc, hnone⟩
    obtain rfl : src' = src := Option.some.inj (hsrc.symm.trans hcopied.source)
    constructor
    case described => exact ⟨src', row, hsrc, hcopied.latest, hiff.mpr hnone⟩
    case content => exact hcopied.content
    case source =>
      intro hother src hsrc
      have hids := (wellFormed_reachable hw).ids
      have hid : src.id ≠ row.id := by
        rw [hcopied.isNew.id_eq]
        exact hids.fresh (Nat.le_refl _) (selectObject_some hsrc).1
      refine ⟨?_, hcopied.blobs _ hid⟩
      rw [← hsrc]
      exact selectObject_insertRow_other hother ⟨hcopied.isNew.bucket_eq, hcopied.isNew.key_eq⟩
        hcopied.objects

/-! ## An object with a content encoding -/

/-- A bucket with the letter `a` under a key, stored with these options. -/
def letterRun (opts : PutObjectOpts) : List Op :=
  [.createBucket "docs" {}, .putObject "docs" "k" [.ok [97]] opts]

def letterWorld (opts : PutObjectOpts) : World :=
  (store executablePlatform).after (store executablePlatform).init (letterRun opts)

/-- The copy of that object to another key. -/
def letterCopy (opts : PutObjectOpts) : Except Error CopyObjectResponse × World :=
  (copyObject executablePlatform "docs" "k" "docs" "c" {}).run (letterWorld opts)

/-- What every copy of it answers. -/
def letterReply : CopyObjectResponse where
  etag := "\"0cc175b9c0f1b6a831c399e269772661\""
  lastModified := 0
  versionId := none

/-- The copy of a plain object is faithful. -/
theorem copy_faithful_iff_letter :
    CopiedFaithfully executablePlatform (letterWorld {}) (letterCopy {}).2 "docs" "k" "docs" "c" := by
  have hrun : letterCopy {} = (.ok letterReply, (letterCopy {}).2) := Prod.ext (by decide) rfl
  refine (copy_faithful_iff ⟨letterRun {}, rfl⟩ rfl hrun).mpr ?_
  obtain ⟨src, hsrc⟩ : ∃ src, selectObject "docs" "k" none (letterWorld {}).db = some src :=
    Option.isSome_iff_exists.mp (by decide)
  have hheaders : (selectObject "docs" "k" none (letterWorld {}).db).map
      (fun r => (r.contentEncoding, r.contentDisposition, r.cacheControl)) =
        some (none, none, none) := by decide
  rw [hsrc] at hheaders
  obtain ⟨hencoding, hrest⟩ := Prod.mk.inj (Option.some.inj hheaders)
  exact ⟨src, hsrc, hencoding, (Prod.mk.inj hrest).1, (Prod.mk.inj hrest).2⟩

/-- The copy of an object with a content encoding has none. -/
theorem encodingLost :
    ¬ ∀ (P : Platform) (w w' : World) (srcBucket srcKey dstBucket dstKey : String)
      (opts : CopyObjectOpts) (reply : CopyObjectResponse), (store P).Reachable w →
      opts.metadataDirective = .copy →
      (copyObject P srcBucket srcKey dstBucket dstKey opts).run w = (.ok reply, w') →
      CopiedFaithfully P w w' srcBucket srcKey dstBucket dstKey := by
  intro hall
  let gzip : PutObjectOpts := { contentEncoding := some "gzip" }
  have hrun : letterCopy gzip = (.ok letterReply, (letterCopy gzip).2) := Prod.ext (by decide) rfl
  obtain ⟨src, row, hsrc, hrow, hdescribed⟩ :=
    (hall executablePlatform (letterWorld gzip) _ "docs" "k" "docs" "c" {} letterReply
      ⟨letterRun gzip, rfl⟩ rfl hrun).described
  have hbefore : (selectObject "docs" "k" none (letterWorld gzip).db).map (·.contentEncoding) =
      some (some "gzip") := by decide
  have hafter : (selectObject "docs" "c" none (letterCopy gzip).2.db).map (·.contentEncoding) =
      some none := by decide
  rw [hsrc] at hbefore
  rw [hrow] at hafter
  have hsame : row.contentEncoding = src.contentEncoding :=
    congrArg ObjectDescription.contentEncoding hdescribed
  have hgzip : src.contentEncoding = some "gzip" := Option.some.inj hbefore
  have hnone : row.contentEncoding = none := Option.some.inj hafter
  rw [hgzip, hnone] at hsame
  cases hsame

end Strix

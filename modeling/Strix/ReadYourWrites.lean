import Strix.PartFiles

/-!
# Reading back what was written

Four writers and one reader have to agree on the blob of a version, on its
size, and under encryption on the key: under SSE-S3 it is derived from bucket,
key and version id on every read, and a copy encrypts again under the target's
name.

* `reads_return_writes`: in every state that a run with no failed part upload
  leads to, each version that is no delete marker reads back as the content
  the ledger has for it, and a put into a bucket with versioning enabled
  changes no earlier version's reads;
* `VersionsHeld.next`: one call keeps the blobs and the ledger together.
-/

namespace Strix

open AtomicProgram AtomicProgram.Prog MachineRuns RowTable

variable (P : Platform)

/-- The request comes with the customer key. -/
def RightKey (opts : GetObjectOpts) (key : EncryptionKey) : Prop :=
  ∃ keyBase64, opts.sseCustomerKey = some keyBase64 ∧
    customerKey P keyBase64 opts.sseCustomerKeyMd5 = .ok key

/-- **The version reads back as written:** its blob is there, its size is the
content's, and every read of the version that meets its own conditions, asks
for no range and under SSE-C brings the customer key of the put answers the
content. -/
def ReadsBack (w : World) (r : ObjectRow) (written : Written) : Prop :=
  (w.files.objects r.id).isSome ∧ r.size = written.content.length ∧
  (r.encryptionAlgorithm = some .sseC → written.sseKey.isSome) ∧
  ∀ opts, opts.versionId = some r.versionId → opts.range = none →
    checkPreconditions r opts = .ok () →
    (r.encryptionAlgorithm = some .sseC → ∀ k, written.sseKey = some k → RightKey P opts k) →
      (getObject P r.bucket r.key opts).run w =
        (.ok { info := r.info, body := written.content }, w)

/-- No part upload of the run fails; any other call may. -/
def PartUploadSucceeds (w : World) (op : Op) : Prop :=
  ∀ upload partNumber body, op = .uploadPart upload partNumber body →
    ∃ answer, (store P).reply w op = .ok answer

/-- **Every version's blob holds what the ledger has for it.** -/
def VersionsHeld (w : World) (l : Ledger) : Prop :=
  ∀ r ∈ w.db.objects, r.isDeleteMarker = false → ∃ data written,
    w.files.objects r.id = some data ∧
    l.versions (r.bucket, r.key, r.versionId) = some written ∧
    r.size = written.content.length ∧ Holds P r written.sseKey written.content data

variable {P}

/-- What a blob holds depends on the version alone. -/
theorem Holds.sameVersion {r r' : ObjectRow} (hsame : SameVersion r r')
    {sseKey : Option EncryptionKey} {content data : Bytes} (h : Holds P r sseKey content data) :
    Holds P r' sseKey content data := by
  rw [hsame.eq_with]
  exact h

/-! ## One step -/

/-- A call that writes no version keeps the blobs and the ledger together. -/
theorem VersionsHeld.kept {w w' : World} {l l' : Ledger} {op : Op} (hw : WellFormed P w)
    (h : VersionsHeld P w l) (heffect : ObjectsEffect P w w' op)
    (hnone : ∀ bucket key, ¬ op.Writes P w bucket key) (hledger : l'.versions = l.versions) :
    VersionsHeld P w' l' := by
  intro r' hr' hmarker
  obtain ⟨r, hr, hsame, hold, hkept⟩ := heffect.row_unwritten hw hnone hr' hmarker
  obtain ⟨data, written, hblob, hentry, hsize, hholds⟩ := h r hr hold
  refine ⟨data, written, hkept.trans hblob, ?_, ?_, hholds.sameVersion hsame⟩
  · rw [hledger, hsame.bucket_eq, hsame.key_eq, hsame.versionId_eq, hentry]
  · rw [hsame.eq_with]
    exact hsize

/-- A writer's new version is noted under its own version id; no other
version is noted under that. -/
theorem VersionsHeld.install {w w' : World} {l : Ledger} (hw' : WellFormed P w')
    (h : VersionsHeld P w l) {bucket key : String}
    {status : VersioningStatus} {row : ObjectRow} {data : Bytes} {written : Written}
    (hnew : NewVersion P w bucket key status row)
    (hobjects : w'.db.objects = insertRow row (roomMade status row.bucket row.key w.db.objects))
    (hblobs : w'.files.objects = Function.update w.files.objects row.id (some data))
    (hsize : row.size = written.content.length)
    (hholds : Holds P row written.sseKey written.content data) :
    VersionsHeld P w' (l.noteVersion bucket key (answeredVersionId status row.versionId)
      (some written)) := by
  have hentry : (l.noteVersion bucket key (answeredVersionId status row.versionId)
      (some written)).versions =
      Function.update l.versions (row.bucket, row.key, row.versionId) (some written) := by
    rw [Ledger.noteVersion, answeredVersionId_getD hnew.versionId_eq, hnew.bucket_eq, hnew.key_eq]
  intro r' hr' hmarker
  rw [hentry]
  rcases row_of_install hw' hobjects hblobs hr' with rfl | ⟨hid, r, hr, hsame, hkept⟩
  · exact ⟨data, written, by rw [hblobs, Function.update_self], Function.update_self .., hsize,
      hholds⟩
  · have hrow : row ∈ w'.db.objects := by
      rw [hobjects]
      exact mem_insertRow.mpr (Or.inr rfl)
    have hother : (r'.bucket, r'.key, r'.versionId) ≠ (row.bucket, row.key, row.versionId) :=
      fun heq => hid (congrArg _ (hw'.keyedVersion.eq_of_mem hr' hrow heq))
    have hunmarked : r.isDeleteMarker = false := hsame.isDeleteMarker_eq.symm.trans hmarker
    obtain ⟨olddata, oldwritten, hblob, hledger, holdsize, holdholds⟩ := h r hr hunmarked
    refine ⟨olddata, oldwritten, hkept.trans hblob, ?_, ?_, holdholds.sameVersion hsame⟩
    · rw [Function.update_of_ne hother, hsame.bucket_eq, hsame.key_eq, hsame.versionId_eq, hledger]
    · rw [hsame.eq_with]
      exact holdsize

/-- **One call keeps the blobs and the ledger together.** -/
theorem VersionsHeld.next {w : World} {l : Ledger} (hw : WellFormed P w)
    (hparts : PartsIssued P w l) (h : VersionsHeld P w l) (op : Op) :
    VersionsHeld P ((store P).next w op) (l.note P w op ((store P).reply w op)) := by
  have hw' := hw.next op
  cases op with
  | putObject bucket key body opts =>
      simp only [Machine.next, Machine.reply, store, step, answering] at hw' ⊢
      rcases putObject_cases bucket key body opts hw.ids with ⟨-, e, n, hrun, -⟩ |
        ⟨-, status, row, sseCKey, content, data, n, hrun, -, hnew, hkey, hbody, hrow, hholds⟩
      · rw [hrun]
        exact h
      · rw [hrun] at hw' ⊢
        have hnote : l.note P w (.putObject bucket key body opts) (.ok (.put {
            etag := row.etag
            versionId := answeredVersionId status row.versionId })) =
            l.noteVersion bucket key (answeredVersionId status row.versionId)
              (some { content := content, sseKey := sseCKey }) := by
          simp [Ledger.note, hkey, receivedBytes_of_ok hbody, Except.toOption]
        simp only [Except.map, hnote]
        exact h.install hw' hnew rfl rfl (by rw [hrow]; rfl) hholds
  | copyObject srcBucket srcKey dstBucket dstKey opts =>
      simp only [Machine.next, Machine.reply, store, step, answering] at hw' ⊢
      rcases copyObject_cases srcBucket srcKey dstBucket dstKey opts hw.ids with
        ⟨-, e, n, hrun, -⟩ | ⟨-, status, row, src, blob, data, n, hrun, -, hnew, hsrc, hmarker,
          hrow, hblob, hholds⟩
      · rw [hrun]
        exact h
      · rw [hrun] at hw' ⊢
        obtain ⟨hmem, rfl, rfl⟩ := selectObject_some hsrc
        obtain ⟨srcdata, written, hsrcblob, hledger, hsize, hsrcholds⟩ := h src hmem hmarker
        rw [hblob, Option.some.injEq] at hsrcblob
        subst hsrcblob
        have hnote : l.note P w (.copyObject src.bucket src.key dstBucket dstKey opts)
            (.ok (.copied {
              etag := row.etag
              lastModified := w.now
              versionId := answeredVersionId status row.versionId })) =
            l.noteVersion dstBucket dstKey (answeredVersionId status row.versionId)
              (some written) := by
          simp [Ledger.note, hsrc, hledger]
        simp only [Except.map, hnote]
        exact h.install hw' hnew rfl rfl (by rw [hrow]; exact hsize) (hholds _ _ hsrcholds)
  | completeMultipartUpload upload parts =>
      simp only [Machine.next, Machine.reply, store, step, answering] at hw' ⊢
      rcases completeMultipartUpload_cases upload parts hw.ids with ⟨-, e, n, hrun, -⟩ |
        ⟨haccepted, status, row, uploadMeta, plaintext, data, n, hrun, -, hnew, hselect, hassembled,
          hrow, hholds⟩
      · rw [hrun]
        exact h
      · rw [hrun] at hw' ⊢
        have hjoined := (assembled_issued hparts haccepted.2.1).1
        rw [hassembled, Option.some.injEq] at hjoined
        have hnote : l.note P w (.completeMultipartUpload upload parts) (.ok (.put {
            etag := row.etag
            versionId := answeredVersionId status row.versionId })) =
            l.noteVersion uploadMeta.bucket uploadMeta.key
              (answeredVersionId status row.versionId)
              (some { content := plaintext, sseKey := none }) := by
          simp [Ledger.note, hselect, hjoined]
        simp only [Except.map, hnote]
        exact h.install hw' hnew rfl rfl (by rw [hrow]; rfl) (hholds none)
  | uploadPart upload partNumber body =>
      refine h.kept hw (step_effect hw.ids hw.uploadIds _).objects (fun _ _ hno => hno.elim) ?_
      exact Ledger.note_versions_uploadPart
  | _ => exact h.kept hw (step_effect hw.ids hw.uploadIds _).objects (fun _ _ hno => hno.elim) rfl

/-! ## Reading -/

/-- A blob that holds the content decrypts to it for whoever has the key. -/
theorem Holds.decryptRow {r : ObjectRow} {written : Written} {data : Bytes}
    {opts : GetObjectOpts} (h : Holds P r written.sseKey written.content data)
    (hkey : r.encryptionAlgorithm = some .sseC → ∀ k, written.sseKey = some k →
      RightKey P opts k) :
    decryptRow P r.bucket r.key r opts data = .ok written.content := by
  by_cases halg : r.encryptionAlgorithm = some .sseC
  · unfold Strix.decryptRow
    unfold Holds at h
    rw [halg] at h ⊢
    obtain ⟨k, hsome, hopen⟩ := h
    obtain ⟨keyBase64, hsent, hgood⟩ := hkey halg k hsome
    simp only [hsent, hgood]
    exact hopen
  · exact decryptRow_of_holds halg h

/-- A version whose blob holds the ledger's content reads back as it. -/
theorem VersionsHeld.readsBack {w : World} {l : Ledger} (hw : WellFormed P w)
    (h : VersionsHeld P w l) {r : ObjectRow} (hr : r ∈ w.db.objects)
    (hmarker : r.isDeleteMarker = false) :
    ∃ written, l.versions (r.bucket, r.key, r.versionId) = some written ∧
      ReadsBack P w r written := by
  obtain ⟨data, written, hblob, hledger, hsize, hholds⟩ := h r hr hmarker
  refine ⟨written, hledger, by simp [hblob], hsize, ?_, ?_⟩
  · intro halg
    unfold Holds at hholds
    rw [halg] at hholds
    obtain ⟨k, hsome, -⟩ := hholds
    simp [hsome]
  · intro opts hversion hrange hpre hkey
    have hselect : selectObject r.bucket r.key opts.versionId w.db = some r := by
      rw [hversion]
      exact hw.selectObject_version hr
    rw [getObject_run, hselect]
    simp only
    rw [hblob, readContent_plain P hmarker hpre hrange (hholds.decryptRow hkey)]
    rfl

/-- A version that stays the same, with its blob, has the same content. -/
theorem readContent_sameVersion {r r' : ObjectRow} (hsame : SameVersion r r')
    (bucket key : String) (opts : GetObjectOpts) (blob : Option Bytes) :
    readContent P bucket key opts r' blob = readContent P bucket key opts r blob := by
  rw [hsame.eq_with]
  rfl

/-- **A version that survives a call reads the same after it,** whatever the
request. -/
theorem read_survives {w : World} (hw : WellFormed P w) {op : Op} {r r' : ObjectRow}
    (hr : r ∈ w.db.objects) (hr' : r' ∈ ((store P).next w op).db.objects)
    (hsame : SameVersion r r') {opts : GetObjectOpts}
    (hversion : opts.versionId = some r.versionId) :
    (((getObject P r.bucket r.key opts).run ((store P).next w op)).1).map (·.body) =
      (((getObject P r.bucket r.key opts).run w).1).map (·.body) := by
  have hselect : selectObject r.bucket r.key opts.versionId w.db = some r := by
    rw [hversion]
    exact hw.selectObject_version hr
  have hselect' : selectObject r.bucket r.key opts.versionId ((store P).next w op).db =
      some r' := by
    rw [hversion, ← hsame.bucket_eq, ← hsame.key_eq, ← hsame.versionId_eq]
    exact (hw.next op).selectObject_version hr'
  have hblob := (step_effect hw.ids hw.uploadIds op).objects.blob_kept hw hr hr' hsame.id_eq
  rw [getObject_run, getObject_run, hselect, hselect']
  simp only
  rw [hsame.id_eq, hblob, readContent_sameVersion hsame]
  cases readContent P r.bucket r.key opts r (w.files.objects r.id) <;> rfl

/-- In a bucket with versioning enabled, every version survives a put. -/
theorem put_survives {w : World} (hw : WellFormed P w) {bucket key : String}
    {body : ObjectBody} {opts : PutObjectOpts}
    (hstatus : versioningStatus bucket w.db = some .enabled) {r : ObjectRow}
    (hr : r ∈ w.db.objects) :
    ∃ r' ∈ ((store P).next w (.putObject bucket key body opts)).db.objects,
      SameVersion r r' := by
  rcases (step_effect hw.ids hw.uploadIds _).objects.row_forth hr with
    ⟨r', hr', hsame, -⟩ | hremoves
  · exact ⟨r', hr', hsame⟩
  · cases hremoves with
    | write hwrites hnot hat =>
        obtain ⟨⟨rfl, rfl⟩, -⟩ := hwrites
        exact absurd hstatus hnot
    | key hop =>
        rcases hop with hop | hop
        · cases hop
        · cases hop

/-! ## The promise -/

/-- An answered part upload keeps within the condition on part files. -/
theorem PartUploadSucceeds.sparesStoredPart {w : World} {op : Op}
    (h : PartUploadSucceeds P w op) : SparesStoredPart w op := by
  rintro upload partNumber body rfl - hbroken -
  obtain ⟨answer, hreply⟩ := h upload partNumber body rfl
  exact absurd (uploadPart_answered hreply) (hbroken _)

/-- **Reads return what was written.** -/
theorem reads_return_writes (run : List Op)
    (hrun : (store P).AllSteps (PartUploadSucceeds P) (store P).init run) :
    let w := (store P).after (store P).init run
    (∀ r ∈ w.db.objects, r.isDeleteMarker = false → ∃ written,
      (ledger P run).versions (r.bucket, r.key, r.versionId) = some written ∧
        ReadsBack P w r written) ∧
    ∀ bucket key body opts, versioningStatus bucket w.db = some .enabled →
      ∀ r ∈ w.db.objects, ∀ getOpts : GetObjectOpts, getOpts.versionId = some r.versionId →
        (((getObject P r.bucket r.key getOpts).run
          ((store P).next w (.putObject bucket key body opts))).1).map (·.body) =
        (((getObject P r.bucket r.key getOpts).run w).1).map (·.body) := by
  intro w
  have hw : WellFormed P w := wellFormed_reachable ⟨run, rfl⟩
  have hheld : PartsIssued P w (ledger P run) ∧ VersionsHeld P w (ledger P run) := by
    refine ledger_invariant (I := fun w l => PartsIssued P w l ∧ VersionsHeld P w l)
      ⟨fun _ hp => (nomatch hp), fun _ hr => (nomatch hr)⟩ ?_ hrun
    intro w l op hw h hsucceeds
    exact ⟨h.1.next hw hsucceeds.sparesStoredPart, h.2.next hw h.1 op⟩
  refine ⟨fun r hr hmarker => hheld.2.readsBack hw hr hmarker, ?_⟩
  intro bucket key body opts hstatus r hr getOpts hversion
  obtain ⟨r', hr', hsame⟩ := put_survives hw hstatus hr
  exact read_survives hw hr hr' hsame hversion

/-! ## A run of every writer -/

/-- A put under SSE-S3, its copy under another key, and an upload of one
part. -/
def everyWriter : List Op := [
  .createBucket "docs" {},
  .putObject "docs" "a" [.ok [97]] { serverSideEncryption := some .aes256 },
  .copyObject "docs" "a" "docs" "copy" {},
  .createMultipartUpload "docs" "big" {},
  .uploadPart {
      uploadId := "01ARZ3NDEKTSV4RRFFQ69G5FA4"
      bucket := "docs"
      key := "big"
      initiated := 0 } 1 [.ok [98]],
  .completeMultipartUpload {
      uploadId := "01ARZ3NDEKTSV4RRFFQ69G5FA4"
      bucket := "docs"
      key := "big"
      initiated := 0 } [{ partNumber := 1, etag := contentEtag executablePlatform [98] }]]

/-- Its three versions read back as written. -/
theorem reads_return_writes_everyWriter :
    ((store executablePlatform).after (store executablePlatform).init everyWriter).db.objects.map
        (·.key) = ["a", "copy", "big"] ∧
    ∀ r ∈ ((store executablePlatform).after (store executablePlatform).init everyWriter).db.objects,
      r.isDeleteMarker = false → ∃ written,
        (ledger executablePlatform everyWriter).versions (r.bucket, r.key, r.versionId) =
          some written ∧
        ReadsBack executablePlatform
          ((store executablePlatform).after (store executablePlatform).init everyWriter) r
          written := by
  have hsteps : (store executablePlatform).AllSteps (PartUploadSucceeds executablePlatform)
      (store executablePlatform).init everyWriter := by
    refine ⟨?_, ?_, ?_, ?_, ?_, ?_, trivial⟩
    · intro upload partNumber body hop
      cases hop
    · intro upload partNumber body hop
      cases hop
    · intro upload partNumber body hop
      cases hop
    · intro upload partNumber body hop
      cases hop
    · intro upload partNumber body hop
      exact ⟨_, rfl⟩
    · intro upload partNumber body hop
      cases hop
  exact ⟨by decide, (reads_return_writes everyWriter hsteps).1⟩

end Strix

import Strix.ConcurrentParts
import Strix.FilePaths
import Strix.NotedPrograms
import Strix.ObjectKeys
import Strix.SharedInvariants
import Strix.UploadRows

/-!
# The paths of part files

The files of an upload lie in a directory under `multipart`, and the path of the directory is
made by joining the upload id as the request has it.  The calls that take an upload id look for
its row first, and rows have no ids but those that `createMultipartUpload` has drawn; the
clean-up, whose `abortStaleMultipart` looks for nothing, takes its ids from the rows.

The programs here are those of the store, and every file call under `multipart` leaves a note
of the id that was joined and of the path.

* `erase_program`: without the notes they are the programs of the store;
* `uploadFiles_confined`: under every schedule of any calls, every file call has joined an id
  that was generated before, a plain name, so its path leads into the directory of that upload;
* `unlisted_touches_nothing`: a request whose upload id is not in the table touches no file;
* `abortStaleMultipart_unchecked`: `abortStaleMultipart` itself would join any text.
-/

namespace Strix

open AtomicProgram AtomicProgram.Prog MachineRuns RowTable FilePaths

/-! ## Paths -/

def multipartDir (root : String) : String := join root "multipart"

/-- The directory of an upload. -/
def uploadDir (root uploadId : String) : String := join (multipartDir root) uploadId

/-- `{:05}.part`. -/
def partFileName (partNumber : Nat) : String :=
  String.ofList (List.replicate (5 - (Nat.toDigits 10 partNumber).length) '0' ++
    Nat.toDigits 10 partNumber) ++ ".part"

/-- `part_path`. -/
def partPath (root uploadId : String) (partNumber : Nat) : String :=
  join (uploadDir root uploadId) (partFileName partNumber)

/-! ## File calls -/

inductive FileAction
  | createDirAll
  | openTruncated
  | writeAll
  | exists
  | read
  | removeDirAll
  deriving DecidableEq, Repr

/-- A call on a file or directory under `multipart`: what was joined as the upload's component,
and the path that came of it. -/
structure FileCall where
  action : FileAction
  uploadId : String
  path : String
  deriving DecidableEq, Repr

inductive UploadNote
  /-- `create_multipart_upload` has generated an id. -/
  | generated (uploadId : String)
  | touched (call : FileCall)
  deriving DecidableEq, Repr

/-- A program of the store that leaves notes. -/
abbrev DiskProg (α : Type) := Prog (Noted World UploadNote) Error α

/-! ## The programs with their file calls -/

namespace OnDisk

variable (P : Platform) (root : String)

/-- A file call. -/
def touching {α : Type} (action : FileAction) (uploadId path : String) (p : StoreProg α) :
    DiskProg α :=
  noting (fun _ => .touched { action, uploadId, path }) p

/-- `create_multipart_upload`. -/
def createMultipartUpload (bucket key : String) (opts : PutObjectOpts) :
    DiskProg MultipartUpload := do
  let there ← plain (query (bucketRowExists bucket))
  ensure there (.bucketNotFound bucket)
  let n ← noting (fun w => .generated (P.ulid w.draws)) draw
  let uploadId := P.ulid n
  let now ← plain clock
  touching .createDirAll uploadId (uploadDir root uploadId) (createUploadDir uploadId)
  plain (call [insertUpload (uploadRow bucket key opts uploadId)])
  return { uploadId, bucket, key, initiated := now }

/-- The streaming loop of `upload_part`. -/
def writeChunks (uploadId : String) (partNumber inode : Nat) (written : Bytes) :
    ObjectBody → DiskProg Bytes
  | [] => return written
  | .error e :: _ => fail (.io e)
  | .ok chunk :: rest => do
      touching .writeAll uploadId (partPath root uploadId partNumber)
        (writePart uploadId partNumber inode written.length chunk)
      writeChunks uploadId partNumber inode (written ++ chunk) rest

/-- `upload_part`. -/
def uploadPart (upload : MultipartUpload) (partNumber : Nat) (body : ObjectBody) :
    DiskProg PartInfo := do
  ensure (1 ≤ partNumber && partNumber ≤ 10000) (.invalidPartNumber partNumber)
  let there ← plain (query (uploadRowExists upload.uploadId))
  ensure there (.uploadNotFound upload.uploadId)
  let n ← plain draw
  let blobId := P.ulid n
  let path := partPath root upload.uploadId partNumber
  touching .createDirAll upload.uploadId (parent path) (createUploadDir upload.uploadId)
  let handle ← touching .openTruncated upload.uploadId path
    (openPart upload.uploadId partNumber n)
  let inode ← require handle noSuchFile
  let content ← writeChunks root upload.uploadId partNumber inode [] body
  let etag := contentEtag P content
  let now ← plain clock
  plain (call [deleteParts (atPart upload.uploadId partNumber),
    insertPart (partRow P upload.uploadId partNumber blobId content)])
  return { partNumber, etag, size := content.length, lastModified := now }

/-- The assembly loop. -/
def readParts (uploadId : String) : List CompletePart → DiskProg Bytes
  | [] => return []
  | part :: rest => do
      let path := partPath root uploadId part.partNumber
      let there ← touching .exists uploadId path
        (observe fun w => (w.files.part uploadId part.partNumber).isSome)
      ensure there (.noSuchPart part.partNumber)
      let file ← touching .read uploadId path
        (observe fun w => w.files.part uploadId part.partNumber)
      let file ← require file noSuchFile
      let more ← readParts uploadId rest
      return file.data ++ more

/-- The end of a call that closes an upload. -/
def removeUploadDir (uploadId : String) : DiskProg Unit :=
  touching .removeDirAll uploadId (uploadDir root uploadId) (Strix.removeUploadDir uploadId)

/-- `complete_multipart_upload`. -/
def completeMultipartUpload (upload : MultipartUpload) (parts : List CompletePart) :
    DiskProg PutObjectResponse := do
  ensure (partsInOrder 0 parts) .invalidPartOrder
  let uploadMeta ← plain (query (selectUpload upload.uploadId))
  let uploadMeta ← require uploadMeta (.uploadNotFound upload.uploadId)
  let selected ← plain (query (versioningStatus uploadMeta.bucket))
  let status ← require selected (.bucketNotFound uploadMeta.bucket)
  let verdict ← plain (query fun db => validateParts upload.uploadId db parts)
  lift verdict.result
  let n ← plain draw
  let objectId := P.ulid n
  let versionId := newVersionId status objectId
  let plaintext ← readParts root upload.uploadId parts
  let etag := formatMultipartEtag P (parts.map (·.etag))
  let data ← plain (sealUpload P uploadMeta versionId plaintext)
  plain (writeBlob objectId data)
  plain (call [makeRoom status uploadMeta.bucket uploadMeta.key,
    insertObject (completedRow uploadMeta parts objectId versionId plaintext.length etag),
    deleteParts (·.uploadId == upload.uploadId),
    deleteUpload upload.uploadId])
  removeUploadDir root upload.uploadId
  return { etag, versionId := answeredVersionId status versionId }

/-- `abort_multipart_upload`. -/
def abortMultipartUpload (upload : MultipartUpload) : DiskProg Unit := do
  let there ← plain (query (uploadRowExists upload.uploadId))
  ensure there (.uploadNotFound upload.uploadId)
  plain (call [deleteParts (·.uploadId == upload.uploadId), deleteUpload upload.uploadId])
  removeUploadDir root upload.uploadId

/-- `abort_stale_multipart`. -/
def abortStaleMultipart (uploadId : String) : DiskProg Unit := do
  removeUploadDir root uploadId
  plain (call [deleteParts (·.uploadId == uploadId), deleteUpload uploadId])

/-- `find_stale_multipart_uploads`: the ids of the rows that are older than the cutoff. -/
def findStaleMultipartUploads (cutoff : DateTime) : StoreProg (List String) :=
  query fun db => (db.uploads.filter fun u => u.initiatedAt < cutoff.seconds).map (·.uploadId)

/-- The loop of the clean-up: one failure does not end it. -/
def abortStale : List String → DiskProg Unit
  | [] => return ()
  | uploadId :: rest => do
      let _ ← (caught (abortStaleMultipart root uploadId) : DiskProg (Except Error Unit))
      abortStale rest

/-- `cleanup_stale_multipart_uploads`, with the age in nanoseconds. -/
def cleanupStaleMultipartUploads (maxAge : Nat) : DiskProg Unit := do
  let now ← plain clock
  let staleUploads ← plain (findStaleMultipartUploads (now - maxAge))
  abortStale root staleUploads

/-! ## Without the notes -/

section Erase

theorem blind_touching {α : Type} (action : FileAction) (uploadId path : String)
    (p : StoreProg α) : Only Blind (touching action uploadId path p) :=
  blind_noting _ p

theorem blind_createMultipartUpload (bucket key : String) (opts : PutObjectOpts) :
    Only Blind (createMultipartUpload P root bucket key opts) := by
  refine (blind_plain _).bind fun _ => (only_ensure _ _).bind fun _ => ?_
  refine (blind_noting _ _).bind fun _ => (blind_plain _).bind fun _ => ?_
  refine (blind_touching _ _ _ _).bind fun _ => (blind_plain _).bind fun _ => ?_
  exact only_pure _

theorem blind_writeChunks (uploadId : String) (partNumber inode : Nat) (written : Bytes)
    (body : ObjectBody) : Only Blind (writeChunks root uploadId partNumber inode written body) := by
  induction body generalizing written with
  | nil => exact only_pure _
  | cons item rest ih =>
      cases item with
      | error e => exact only_fail _
      | ok chunk => exact (blind_touching _ _ _ _).bind fun _ => ih _

theorem blind_uploadPart (upload : MultipartUpload) (partNumber : Nat) (body : ObjectBody) :
    Only Blind (uploadPart P root upload partNumber body) := by
  rw [uploadPart]
  refine (only_ensure _ _).bind fun _ => (blind_plain _).bind fun _ => ?_
  refine (only_ensure _ _).bind fun _ => (blind_plain _).bind fun _ => ?_
  refine (blind_touching _ _ _ _).bind fun _ => (blind_touching _ _ _ _).bind fun _ => ?_
  refine (only_require _ _).bind fun _ => (blind_writeChunks root _ _ _ _ _).bind fun _ => ?_
  exact (blind_plain _).bind fun _ => (blind_plain _).bind fun _ => only_pure _

theorem blind_readParts (uploadId : String) (parts : List CompletePart) :
    Only Blind (readParts root uploadId parts) := by
  induction parts with
  | nil => exact only_pure _
  | cons part rest ih =>
      refine (blind_touching _ _ _ _).bind fun _ => (only_ensure _ _).bind fun _ => ?_
      refine (blind_touching _ _ _ _).bind fun _ => (only_require _ _).bind fun _ => ?_
      exact ih.bind fun _ => only_pure _

theorem blind_completeMultipartUpload (upload : MultipartUpload) (parts : List CompletePart) :
    Only Blind (completeMultipartUpload P root upload parts) := by
  refine (only_ensure _ _).bind fun _ => (blind_plain _).bind fun _ => ?_
  refine (only_require _ _).bind fun _ => (blind_plain _).bind fun _ => ?_
  refine (only_require _ _).bind fun _ => (blind_plain _).bind fun _ => ?_
  refine (only_lift _).bind fun _ => (blind_plain _).bind fun _ => ?_
  refine (blind_readParts root _ _).bind fun _ => (blind_plain _).bind fun _ => ?_
  refine (blind_plain _).bind fun _ => (blind_plain _).bind fun _ => ?_
  exact (blind_touching _ _ _ _).bind fun _ => only_pure _

theorem blind_abortMultipartUpload (upload : MultipartUpload) :
    Only Blind (abortMultipartUpload root upload) := by
  refine (blind_plain _).bind fun _ => (only_ensure _ _).bind fun _ => ?_
  exact (blind_plain _).bind fun _ => blind_touching _ _ _ _

theorem blind_abortStale (uploadIds : List String) : Only Blind (abortStale root uploadIds) := by
  induction uploadIds with
  | nil => exact only_pure _
  | cons uploadId rest ih =>
      have habort : Only Blind (abortStaleMultipart root uploadId) :=
        (blind_touching _ _ _ _).bind fun _ => blind_plain _
      exact habort.caught.bind fun _ => ih

theorem blind_cleanupStaleMultipartUploads (maxAge : Nat) :
    Only Blind (cleanupStaleMultipartUploads root maxAge) :=
  (blind_plain _).bind fun _ => (blind_plain _).bind fun _ => blind_abortStale root _

@[simp] theorem erase_touching {α : Type} (action : FileAction) (uploadId path : String)
    (p : StoreProg α) : erase (touching action uploadId path p) = p :=
  erase_noting _ p

@[simp] theorem erase_removeUploadDir (uploadId : String) :
    erase (removeUploadDir root uploadId) = Strix.removeUploadDir uploadId :=
  erase_touching _ _ _ _

@[simp] theorem erase_writeChunks (uploadId : String) (partNumber inode : Nat) (written : Bytes)
    (body : ObjectBody) :
    erase (writeChunks root uploadId partNumber inode written body) =
      Strix.writeChunks uploadId partNumber inode written body := by
  induction body generalizing written with
  | nil => rfl
  | cons item rest ih =>
      cases item with
      | error e => rfl
      | ok chunk => simp [writeChunks, Strix.writeChunks, ih]

@[simp] theorem erase_readParts (uploadId : String) (parts : List CompletePart) :
    erase (readParts root uploadId parts) = Strix.readParts uploadId parts := by
  induction parts with
  | nil => rfl
  | cons part rest ih => simp [readParts, Strix.readParts, ih]

theorem erase_createMultipartUpload (bucket key : String) (opts : PutObjectOpts) :
    erase (createMultipartUpload P root bucket key opts) =
      Strix.createMultipartUpload P bucket key opts := by
  simp [createMultipartUpload, Strix.createMultipartUpload]

theorem erase_uploadPart (upload : MultipartUpload) (partNumber : Nat) (body : ObjectBody) :
    erase (uploadPart P root upload partNumber body) =
      Strix.uploadPart P upload partNumber body := by
  simp [uploadPart, Strix.uploadPart]

theorem erase_completeMultipartUpload (upload : MultipartUpload) (parts : List CompletePart) :
    erase (completeMultipartUpload P root upload parts) =
      Strix.completeMultipartUpload P upload parts := by
  simp [completeMultipartUpload, Strix.completeMultipartUpload]

theorem erase_abortMultipartUpload (upload : MultipartUpload) :
    erase (abortMultipartUpload root upload) = Strix.abortMultipartUpload upload := by
  simp [abortMultipartUpload, Strix.abortMultipartUpload]

theorem erase_abortStaleMultipart (uploadId : String) :
    erase (abortStaleMultipart root uploadId) = Strix.abortStaleMultipart uploadId := by
  simp [abortStaleMultipart, Strix.abortStaleMultipart]

end Erase

end OnDisk

/-! ## The invariant -/

/-- The path is made of what was joined: that of the upload's directory or of a part in it. -/
inductive FileCall.Built (root : String) : FileCall → Prop
  | dir (action : FileAction) (uploadId : String) :
      Built root ⟨action, uploadId, uploadDir root uploadId⟩
  | part (action : FileAction) (uploadId : String) (partNumber : Nat) :
      Built root ⟨action, uploadId, partPath root uploadId partNumber⟩
  | dirOfPart (action : FileAction) (uploadId : String) (partNumber : Nat) :
      Built root ⟨action, uploadId, parent (partPath root uploadId partNumber)⟩

/-- **The ids of the rows and of the file calls were generated**, those of a file call before
it, and what was generated was drawn. -/
structure UploadsGenerated (P : Platform) (root : String) (n : Noted World UploadNote) :
    Prop where
  rows : ∀ u ∈ n.state.db.uploads, .generated u.uploadId ∈ n.notes
  drawn : ∀ uploadId, .generated uploadId ∈ n.notes → ∃ k, uploadId = P.ulid k
  touched : ∀ call older, (.touched call :: older) <:+ n.notes →
    .generated call.uploadId ∈ older ∧ call.Built root

/-- The ids have been generated. -/
def Generated (ids : List String) (n : Noted World UploadNote) : Prop :=
  ∀ uploadId ∈ ids, .generated uploadId ∈ n.notes

/-- The calls share the invariant, and notes are only ever added. -/
def uploadSharing (P : Platform) (root : String) : Sharing (Noted World UploadNote) where
  Inv := UploadsGenerated P root
  Moves n n' := n.notes <:+ n'.notes
  refl n := List.suffix_refl n.notes
  trans h h' := h.trans h'

section Steps

variable {P : Platform} {root : String} {ids : List String}

theorem noNewUpload_of_aside {α : Type} {p : StoreProg α} (hp : Only Aside p) :
    Only NoNewUpload p :=
  noNewUpload_of_quiet (hp.mono fun _ _ hact => hact.1)

theorem lasting_generated : (uploadSharing P root).Lasting (Generated ids) :=
  fun _ _ hmoves hids uploadId hid => hmoves.subset (hids uploadId hid)

/-- A step without a note, whose new rows have generated ids. -/
theorem safe_plainStep {β : Type} {act : World → β × World}
    (h : ∀ w, ∀ u ∈ (act w).2.db.uploads, u ∈ w.db.uploads ∨ u.uploadId ∈ ids) :
    SafeWhile (uploadSharing P root) (Generated ids) (plainStep act) := by
  intro n hn hids
  refine ⟨⟨fun u hu => ?_, hn.drawn, hn.touched⟩, List.suffix_refl _⟩
  rcases h n.state u hu with hold | hid
  · exact hn.rows u hold
  · exact hids _ hid

theorem safe_plain {α : Type} {p : StoreProg α} (hp : Only NoNewUpload p) :
    Only (SafeWhile (uploadSharing P root) (Generated ids)) (plain p : DiskProg α) :=
  hp.plain fun _ _ hact => safe_plainStep fun w _ hu => Or.inl (hact w _ hu)

/-- **A file call with a generated id** is safe. -/
theorem safe_touching {α : Type} {action : FileAction} {uploadId path : String}
    {p : StoreProg α} (hp : Only NoNewUpload p) (hid : uploadId ∈ ids)
    (hbuilt : FileCall.Built root { action, uploadId, path }) :
    Only (SafeWhile (uploadSharing P root) (Generated ids))
      (OnDisk.touching action uploadId path p) := by
  cases p with
  | done a => trivial
  | fail e => trivial
  | step act next =>
      refine ⟨fun n hn hids => ⟨⟨?_, ?_, ?_⟩, List.suffix_cons _ _⟩, fun b => safe_plain (hp.2 b)⟩
      · intro u hu
        exact List.mem_cons_of_mem _ (hn.rows u (hp.1 n.state u hu))
      · intro id hmem
        rcases List.mem_cons.mp hmem with heq | hmem
        · cases heq
        · exact hn.drawn id hmem
      · intro call older hsuffix
        rcases List.suffix_cons_iff.mp hsuffix with heq | hsuffix
        · cases heq
          exact ⟨hids uploadId hid, hbuilt⟩
        · exact hn.touched call older hsuffix

theorem safe_insertUpload {row : DateTime → UploadRow} (hid : ∀ now, (row now).uploadId ∈ ids) :
    Only (SafeWhile (uploadSharing P root) (Generated ids))
      (plain (call [insertUpload row]) : DiskProg Unit) := by
  refine ⟨safe_plainStep fun w u hu => ?_, fun outcome => ?_⟩
  · have hrow : ∀ db', insertUpload row w.now w.db = .ok db' →
        ∀ u ∈ db'.uploads, u ∈ w.db.uploads ∨ u.uploadId ∈ ids := by
      intro db' h u hu
      simp only [insertUpload] at h
      split at h
      · cases h
      · split at h
        · cases h
          rcases mem_insertRow.mp hu with hold | rfl
          · exact Or.inl hold
          · exact Or.inr (hid _)
        · cases h
    cases hrun : insertUpload row w.now w.db with
    | ok db' =>
        simp only [runStatements_cons_ok hrun, runStatements_nil] at hu
        exact hrow db' hrun u hu
    | error e =>
        simp only [runStatements_cons_error hrun] at hu
        exact Or.inl hu
  · cases outcome <;> trivial

/-- What has been read is known to what follows. -/
theorem keeps_observe {α β : Type} {read : World → α} {f : α → DiskProg β}
    {n : Noted World UploadNote}
    (h : ∀ n', UploadsGenerated P root n' →
      (f (read n'.state)).Keeps (uploadSharing P root) n') :
    (plain (observe read) >>= f).Keeps (uploadSharing P root) n :=
  fun n' _ hn => ⟨⟨hn, List.suffix_refl _⟩, h n' hn⟩

/-- What follows a draw of an upload id knows that it was generated. -/
theorem keeps_generate {β : Type} {f : Nat → DiskProg β} {n : Noted World UploadNote}
    (h : ∀ k n', Generated [P.ulid k] n' → (f k).Keeps (uploadSharing P root) n') :
    (noting (fun w => .generated (P.ulid w.draws)) draw >>= f).Keeps
      (uploadSharing P root) n := by
  refine fun n' _ hn => ⟨⟨⟨?_, ?_, ?_⟩, List.suffix_cons _ _⟩, h _ _ ?_⟩
  · intro u hu
    exact List.mem_cons_of_mem _ (hn.rows u hu)
  · intro id hmem
    rcases List.mem_cons.mp hmem with heq | hmem
    · cases heq
      exact ⟨_, rfl⟩
    · exact hn.drawn id hmem
  · intro call older hsuffix
    rcases List.suffix_cons_iff.mp hsuffix with heq | hsuffix
    · cases heq
    · exact hn.touched call older hsuffix
  · intro id hid
    rw [List.mem_singleton.mp hid]
    exact List.mem_cons_self

/-- **Where the check has found a row**, the id was generated. -/
theorem generated_of_exists {uploadId : String} {n : Noted World UploadNote}
    (hn : UploadsGenerated P root n) (h : uploadRowExists uploadId n.state.db = true) :
    Generated [uploadId] n := by
  obtain ⟨u, hu, rfl⟩ := uploadRowExists_iff.mp h
  intro id hid
  rw [List.mem_singleton.mp hid]
  exact hn.rows u hu

/-! ## The calls keep the invariant -/

theorem safe_removeUploadDir {uploadId : String} (hid : uploadId ∈ ids) :
    Only (SafeWhile (uploadSharing P root) (Generated ids))
      (OnDisk.removeUploadDir root uploadId) :=
  safe_touching (noNewUpload_of_quiet (quiet_removeUploadDir uploadId)) hid (.dir _ _)

theorem safe_closeUpload {uploadId : String} :
    Only (SafeWhile (uploadSharing P root) (Generated ids))
      (plain (call [deleteParts (·.uploadId == uploadId), deleteUpload uploadId]) :
        DiskProg Unit) :=
  safe_plain (noNewUpload_closeUpload uploadId)

theorem safe_writeChunks {uploadId : String} (hid : uploadId ∈ ids) (partNumber inode : Nat)
    (written : Bytes) (body : ObjectBody) :
    Only (SafeWhile (uploadSharing P root) (Generated ids))
      (OnDisk.writeChunks root uploadId partNumber inode written body) := by
  induction body generalizing written with
  | nil => exact only_pure _
  | cons item rest ih =>
      cases item with
      | error e => exact only_fail _
      | ok chunk =>
          exact (safe_touching (noNewUpload_of_aside (aside_writePart _ _ _ _ _)) hid
            (.part _ _ _)).bind fun _ => ih _

theorem safe_readParts {uploadId : String} (hid : uploadId ∈ ids) (parts : List CompletePart) :
    Only (SafeWhile (uploadSharing P root) (Generated ids))
      (OnDisk.readParts root uploadId parts) := by
  induction parts with
  | nil => exact only_pure _
  | cons part rest ih =>
      have hread : ∀ {α : Type} (read : World → α), Only NoNewUpload (observe read : StoreProg α) :=
        fun read => noNewUpload_of_quiet (quiet_of_still (still_observe read))
      refine (safe_touching (hread _) hid (.part _ _ _)).bind fun _ => ?_
      refine (only_ensure _ _).bind fun _ => ?_
      refine (safe_touching (hread _) hid (.part _ _ _)).bind fun _ => ?_
      exact (only_require _ _).bind fun _ => ih.bind fun _ => only_pure _

theorem safe_abortStale {uploadIds : List String} (h : uploadIds ⊆ ids) :
    Only (SafeWhile (uploadSharing P root) (Generated ids))
      (OnDisk.abortStale root uploadIds) := by
  induction uploadIds with
  | nil => exact only_pure _
  | cons uploadId rest ih =>
      have habort : Only (SafeWhile (uploadSharing P root) (Generated ids))
          (OnDisk.abortStaleMultipart root uploadId) :=
        (safe_removeUploadDir (h List.mem_cons_self)).bind fun _ => safe_closeUpload
      exact habort.caught.bind fun _ => ih fun _ hmem => h (List.mem_cons_of_mem _ hmem)

variable {n : Noted World UploadNote}

theorem keeps_createMultipartUpload (bucket key : String) (opts : PutObjectOpts) :
    (OnDisk.createMultipartUpload P root bucket key opts).Keeps (uploadSharing P root) n := by
  refine keeps_observe fun _ _ => Prog.Keeps.ensure_bind fun _ => ?_
  refine keeps_generate fun k n' hids => Only.keeps lasting_generated ?_ hids
  have hid : P.ulid k ∈ [P.ulid k] := List.mem_cons_self
  refine (safe_plain (noNewUpload_of_quiet quiet_clock)).bind fun _ => ?_
  refine (safe_touching (noNewUpload_of_aside (aside_createUploadDir _)) hid
    (.dir _ _)).bind fun _ => ?_
  have hrow : ∀ now, (uploadRow bucket key opts (P.ulid k) now).uploadId ∈ [P.ulid k] :=
    fun _ => hid
  exact (safe_insertUpload hrow).bind fun _ => only_pure _

theorem keeps_uploadPart (upload : MultipartUpload) (partNumber : Nat) (body : ObjectBody) :
    (OnDisk.uploadPart P root upload partNumber body).Keeps (uploadSharing P root) n := by
  rw [OnDisk.uploadPart]
  refine Prog.Keeps.ensure_bind fun _ => ?_
  refine keeps_observe fun n' hn => Prog.Keeps.ensure_bind fun hthere => ?_
  refine Only.keeps lasting_generated ?_ (generated_of_exists hn hthere)
  have hid : upload.uploadId ∈ [upload.uploadId] := List.mem_cons_self
  refine (safe_plain (noNewUpload_of_quiet quiet_draw)).bind fun _ => ?_
  refine (safe_touching (noNewUpload_of_aside (aside_createUploadDir _)) hid
    (.dirOfPart _ _ _)).bind fun _ => ?_
  refine (safe_touching (noNewUpload_of_aside (aside_openPart _ _ _)) hid (.part _ _ _)).bind
    fun _ => ?_
  refine (only_require _ _).bind fun _ => (safe_writeChunks hid _ _ _ _).bind fun _ => ?_
  refine (safe_plain (noNewUpload_of_quiet quiet_clock)).bind fun _ => ?_
  refine (safe_plain (noNewUpload_call ?_)).bind fun _ => only_pure _
  simp [deleteParts_keepsOldUploads, insertPart_keepsOldUploads]

theorem keeps_completeMultipartUpload (upload : MultipartUpload) (parts : List CompletePart) :
    (OnDisk.completeMultipartUpload P root upload parts).Keeps (uploadSharing P root) n := by
  refine Prog.Keeps.ensure_bind fun _ => ?_
  refine keeps_observe fun n' hn => Prog.Keeps.require_bind fun uploadMeta hselected => ?_
  have hids : Generated [upload.uploadId] n' := by
    obtain ⟨hmem, hid⟩ := selectFirst_some hselected
    have heq : uploadMeta.uploadId = upload.uploadId := by simpa using hid
    intro id hmem'
    rw [List.mem_singleton.mp hmem', ← heq]
    exact hn.rows uploadMeta hmem
  refine Only.keeps lasting_generated ?_ hids
  have hid : upload.uploadId ∈ [upload.uploadId] := List.mem_cons_self
  refine (safe_plain (noNewUpload_of_quiet (quiet_query _))).bind fun _ => ?_
  refine (only_require _ _).bind fun _ => ?_
  refine (safe_plain (noNewUpload_of_quiet (quiet_query _))).bind fun _ => ?_
  refine (only_lift _).bind fun _ => ?_
  refine (safe_plain (noNewUpload_of_quiet quiet_draw)).bind fun _ => ?_
  refine (safe_readParts hid parts).bind fun _ => ?_
  refine (safe_plain (noNewUpload_of_quiet (quiet_sealUpload _ _ _))).bind fun _ => ?_
  refine (safe_plain (noNewUpload_of_quiet (quiet_writeBlob _ _))).bind fun _ => ?_
  refine (safe_plain (noNewUpload_call ?_)).bind fun _ => ?_
  · exact writesRow_keepsOldUploads (.multipart _ _)
  · exact (safe_removeUploadDir hid).bind fun _ => only_pure _

theorem keeps_abortMultipartUpload (upload : MultipartUpload) :
    (OnDisk.abortMultipartUpload root upload).Keeps (uploadSharing P root) n := by
  refine keeps_observe fun n' hn => Prog.Keeps.ensure_bind fun hthere => ?_
  refine Only.keeps lasting_generated ?_ (generated_of_exists hn hthere)
  exact safe_closeUpload.bind fun _ => safe_removeUploadDir List.mem_cons_self

/-- **The clean-up takes its ids from the rows.** -/
theorem keeps_cleanupStaleMultipartUploads (maxAge : Nat) :
    (OnDisk.cleanupStaleMultipartUploads root maxAge).Keeps (uploadSharing P root) n := by
  refine keeps_observe fun _ _ => keeps_observe fun n' hn => ?_
  refine Only.keeps lasting_generated (safe_abortStale (List.Subset.refl _)) ?_
  intro id hid
  obtain ⟨u, hu, rfl⟩ := List.mem_map.mp hid
  exact hn.rows u (List.mem_of_mem_filter hu)

end Steps

/-! ## All calls side by side -/

/-- What the server calls.  Of `abort_stale_multipart` the clean-up is the only caller. -/
inductive ServerCall
  | createMultipartUpload (bucket key : String) (opts : PutObjectOpts)
  | uploadPart (upload : MultipartUpload) (partNumber : Nat) (body : ObjectBody)
  | completeMultipartUpload (upload : MultipartUpload) (parts : List CompletePart)
  | abortMultipartUpload (upload : MultipartUpload)
  | cleanupStaleMultipartUploads (maxAge : Nat)
  | other (op : Op) (aloof : op.Aloof)

namespace ServerCall

variable (P : Platform) (root : String)

/-- A program with its value wrapped as a reply. -/
def answered {α : Type} (wrap : α → Reply) (p : DiskProg α) : DiskProg Reply :=
  p >>= fun a => done (wrap a)

/-- The program of a call, with its file calls. -/
def program : ServerCall → DiskProg Reply
  | createMultipartUpload bucket key opts =>
      answered .upload (OnDisk.createMultipartUpload P root bucket key opts)
  | uploadPart upload partNumber body =>
      answered .part (OnDisk.uploadPart P root upload partNumber body)
  | completeMultipartUpload upload parts =>
      answered .put (OnDisk.completeMultipartUpload P root upload parts)
  | abortMultipartUpload upload =>
      answered (fun _ => .done) (OnDisk.abortMultipartUpload root upload)
  | cleanupStaleMultipartUploads maxAge =>
      answered (fun _ => .done) (OnDisk.cleanupStaleMultipartUploads root maxAge)
  | other op _ => plain (Strix.program P op)

/-- The call of the store, where it is one. -/
def op? : ServerCall → Option Op
  | createMultipartUpload bucket key opts => some (.createMultipartUpload bucket key opts)
  | uploadPart upload partNumber body => some (.uploadPart upload partNumber body)
  | completeMultipartUpload upload parts => some (.completeMultipartUpload upload parts)
  | abortMultipartUpload upload => some (.abortMultipartUpload upload)
  | cleanupStaleMultipartUploads _ => none
  | other op _ => some op

/-- The upload id that the request brings. -/
def uploadId? : ServerCall → Option String
  | uploadPart upload _ _ => some upload.uploadId
  | completeMultipartUpload upload _ => some upload.uploadId
  | abortMultipartUpload upload => some upload.uploadId
  | _ => none

/-- **Without the notes** the program is that of the store. -/
theorem erase_program {call : ServerCall} {op : Op} (h : call.op? = some op) :
    erase (call.program P root) = Strix.program P op := by
  cases call with
  | createMultipartUpload bucket key opts =>
      cases h
      simp [program, answered, Strix.program, replying, OnDisk.erase_createMultipartUpload]
  | uploadPart upload partNumber body =>
      cases h
      simp [program, answered, Strix.program, replying, OnDisk.erase_uploadPart]
  | completeMultipartUpload upload parts =>
      cases h
      simp [program, answered, Strix.program, replying, OnDisk.erase_completeMultipartUpload]
  | abortMultipartUpload upload =>
      cases h
      simp [program, answered, Strix.program, replying, OnDisk.erase_abortMultipartUpload]
  | cleanupStaleMultipartUploads maxAge => cases h
  | other op aloof =>
      cases h
      exact erase_plain _

/-- No step of a call looks at the notes. -/
theorem blind_program (call : ServerCall) : Only Blind (call.program P root) := by
  cases call with
  | createMultipartUpload bucket key opts =>
      exact (OnDisk.blind_createMultipartUpload P root _ _ _).bind fun _ => only_pure _
  | uploadPart upload partNumber body =>
      exact (OnDisk.blind_uploadPart P root _ _ _).bind fun _ => only_pure _
  | completeMultipartUpload upload parts =>
      exact (OnDisk.blind_completeMultipartUpload P root _ _).bind fun _ => only_pure _
  | abortMultipartUpload upload =>
      exact (OnDisk.blind_abortMultipartUpload root _).bind fun _ => only_pure _
  | cleanupStaleMultipartUploads maxAge =>
      exact (OnDisk.blind_cleanupStaleMultipartUploads root _).bind fun _ => only_pure _
  | other op aloof => exact blind_plain _

/-- **Every call keeps the invariant**, whatever runs beside it. -/
theorem keeps_program (call : ServerCall) (n : Noted World UploadNote) :
    (call.program P root).Keeps (uploadSharing P root) n := by
  cases call with
  | createMultipartUpload bucket key opts => exact (keeps_createMultipartUpload _ _ _).wrap _
  | uploadPart upload partNumber body => exact (keeps_uploadPart _ _ _).wrap _
  | completeMultipartUpload upload parts => exact (keeps_completeMultipartUpload _ _).wrap _
  | abortMultipartUpload upload => exact (keeps_abortMultipartUpload _).wrap _
  | cleanupStaleMultipartUploads maxAge =>
      exact (keeps_cleanupStaleMultipartUploads _).wrap _
  | other op aloof =>
      have hids : Generated [] n := fun _ hid => nomatch hid
      exact Only.keeps lasting_generated (safe_plain (noNewUpload_program P aloof)) hids

/-- **A request whose upload id is not in the table touches no file** and is answered with an
error. -/
theorem unlisted_touches_nothing {call : ServerCall} {uploadId : String}
    (hcall : call.uploadId? = some uploadId) {n : Noted World UploadNote}
    (hrow : uploadRowExists uploadId n.state.db = false) :
    ∃ e, (call.program P root).run n = (.error e, n) := by
  have hexists : (plain (query (uploadRowExists uploadId)) : DiskProg Bool).run n =
      (.ok false, n) := by
    rw [← hrow]
    rfl
  cases call with
  | uploadPart upload partNumber body =>
      cases hcall
      by_cases hnumber : (1 ≤ partNumber && partNumber ≤ 10000) = true
      · refine ⟨.uploadNotFound upload.uploadId, ?_⟩
        simp only [program, answered, OnDisk.uploadPart, Prog.bind_assoc, run_ensure_bind,
          hnumber, if_true]
        rw [run_bind, hexists]
        rfl
      · refine ⟨.invalidPartNumber partNumber, ?_⟩
        simp only [program, answered, OnDisk.uploadPart, Prog.bind_assoc, run_ensure_bind,
          hnumber, Bool.false_eq_true, if_false]
  | completeMultipartUpload upload parts =>
      cases hcall
      have hselect : (plain (query (selectUpload upload.uploadId)) :
          DiskProg (Option UploadRow)).run n = (.ok none, n) := by
        have hnone : selectUpload upload.uploadId n.state.db = none := by
          simpa [uploadRowExists, selectUpload] using hrow
        rw [← hnone]
        rfl
      by_cases horder : partsInOrder 0 parts = true
      · refine ⟨.uploadNotFound upload.uploadId, ?_⟩
        simp only [program, answered, OnDisk.completeMultipartUpload, Prog.bind_assoc,
          run_ensure_bind, horder, if_true]
        rw [run_bind, hselect]
        rfl
      · refine ⟨.invalidPartOrder, ?_⟩
        simp only [program, answered, OnDisk.completeMultipartUpload, Prog.bind_assoc,
          run_ensure_bind, horder, Bool.false_eq_true, if_false]
  | abortMultipartUpload upload =>
      cases hcall
      refine ⟨.uploadNotFound upload.uploadId, ?_⟩
      simp only [program, answered, OnDisk.abortMultipartUpload, Prog.bind_assoc]
      rw [run_bind, hexists]
      rfl
  | createMultipartUpload bucket key opts => cases hcall
  | cleanupStaleMultipartUploads maxAge => cases hcall
  | other op aloof => cases hcall

end ServerCall

/-- Calls that start side by side on an empty store. -/
def diskPool (P : Platform) (root : String) (calls : List ServerCall) :
    Pool (Noted World UploadNote) Error Reply where
  state := { state := {} }
  threads := calls.map (·.program P root)

/-- The store and the notes after a schedule of the calls. -/
def diskAfter (P : Platform) (root : String) (calls : List ServerCall)
    (schedule : List (Turn Nat)) : Noted World UploadNote :=
  ((pool (Noted.happening tickWorld) (diskPool P root calls)).after (diskPool P root calls)
    schedule).state

/-- **The store goes through the states of the calls of the store.** -/
theorem diskAfter_state (P : Platform) (root : String) {serverCalls : List ServerCall}
    {ops : List Op} (h : serverCalls.map (·.op?) = ops.map some) (schedule : List (Turn Nat)) :
    (diskAfter P root serverCalls schedule).state =
      ((calls P {} ops).after (callPool P {} ops) schedule).state := by
  have hpool : (diskPool P root serverCalls).erase = callPool P {} ops := by
    have hthreads : (serverCalls.map (·.program P root)).map Prog.erase =
        ops.map (Strix.program P) := by
      induction serverCalls generalizing ops with
      | nil =>
          obtain rfl : ops = [] := by simpa using h.symm
          rfl
      | cons call rest ih =>
          cases ops with
          | nil => simp at h
          | cons op ops =>
              simp only [List.map_cons, List.cons.injEq] at h
              simp only [List.map_cons, ServerCall.erase_program P root h.1, ih h.2]
    rw [Pool.erase, callPool, ← hthreads]
    rfl
  have hblind : ∀ p ∈ (diskPool P root serverCalls).threads, p.Only Blind := by
    intro p hp
    obtain ⟨call, -, rfl⟩ := List.mem_map.mp hp
    exact call.blind_program P root
  have herased := erased_after tickWorld hblind schedule
  rw [hpool] at herased
  exact congrArg Pool.state herased

/-- The invariant under every schedule. -/
theorem uploadsGenerated_after (P : Platform) (root : String) (calls : List ServerCall)
    (schedule : List (Turn Nat)) :
    UploadsGenerated P root (diskAfter P root calls schedule) := by
  have hstart : UploadsGenerated P root { state := {} } := by
    refine ⟨fun u hu => (nomatch hu), fun id hid => (nomatch hid), fun call older h => ?_⟩
    exact absurd (List.suffix_nil.mp h) (List.cons_ne_nil _ _)
  have hshares : (diskPool P root calls).Shares (uploadSharing P root) := by
    refine ⟨hstart, fun p hp => ?_⟩
    obtain ⟨call, -, rfl⟩ := List.mem_map.mp hp
    exact call.keeps_program P root _
  refine invariant_shared hshares (fun event n hn => ?_) schedule
  exact ⟨⟨hn.rows, hn.drawn, hn.touched⟩, List.suffix_refl _⟩

/-! ## Confinement -/

/-- A text in the digits of ULIDs. -/
def InUlidDigits (text : String) : Prop := text ≠ "" ∧ ∀ c ∈ text.toList, c ∈ ulidDigits

/-- **The file call is confined**: what it has joined was generated before and is a plain name,
and its path leads to the directory of that name under `multipart`, or to a part in it. -/
structure FileCall.Confined (root : String) (older : List UploadNote) (call : FileCall) :
    Prop where
  generated : .generated call.uploadId ∈ older
  plain : PlainName call.uploadId
  inside : ∀ cwd,
    resolve cwd call.path = resolve cwd (multipartDir root) ++ [call.uploadId] ∨
      ∃ partNumber, resolve cwd call.path =
        resolve cwd (multipartDir root) ++ [call.uploadId, partFileName partNumber]

theorem InUlidDigits.plainName {text : String} (h : InUlidDigits text) : PlainName text where
  nonempty := h.1
  slash := fun hslash => absurd (h.2 _ hslash) (by decide)
  dot := by
    rintro rfl
    exact absurd (h.2 '.' (by decide)) (by decide)
  dots := by
    rintro rfl
    exact absurd (h.2 '.' (by decide)) (by decide)

theorem plainName_partFileName (partNumber : Nat) : PlainName (partFileName partNumber) := by
  have hlist : (partFileName partNumber).toList =
      List.replicate (5 - (Nat.toDigits 10 partNumber).length) '0' ++
        Nat.toDigits 10 partNumber ++ ".part".toList := by
    rw [partFileName, String.toList_append, String.toList_ofList]
  have hp : 'p' ∈ (partFileName partNumber).toList := by
    rw [hlist]
    exact List.mem_append_right _ (by decide)
  refine ⟨?_, ?_, ?_, ?_⟩
  · intro heq
    rw [heq] at hp
    exact absurd hp (by decide)
  · rw [hlist]
    intro hslash
    rcases List.mem_append.mp hslash with hnumber | hend
    · rcases List.mem_append.mp hnumber with hzero | hdigit
      · exact absurd (List.eq_of_mem_replicate hzero) (by decide)
      · have hisDigit := Nat.isDigit_of_mem_toDigits (by omega) (by omega) hdigit
        exact absurd hisDigit (by decide)
    · exact absurd hend (by decide)
  · intro heq
    rw [heq] at hp
    exact absurd hp (by decide)
  · intro heq
    rw [heq] at hp
    exact absurd hp (by decide)

/-- Paths that are made of a plain name stay under `multipart`. -/
theorem FileCall.Built.inside {root : String} {call : FileCall} (h : call.Built root)
    (hplain : PlainName call.uploadId) (cwd : List String) :
    resolve cwd call.path = resolve cwd (multipartDir root) ++ [call.uploadId] ∨
      ∃ partNumber, resolve cwd call.path =
        resolve cwd (multipartDir root) ++ [call.uploadId, partFileName partNumber] := by
  cases h with
  | dir action uploadId => exact Or.inl (resolve_join cwd (multipartDir root) hplain)
  | part action uploadId partNumber =>
      refine Or.inr ⟨partNumber, ?_⟩
      dsimp only at hplain ⊢
      rw [partPath, resolve_join cwd _ (plainName_partFileName partNumber), uploadDir,
        resolve_join cwd _ hplain]
      simp
  | dirOfPart action uploadId partNumber =>
      refine Or.inl ?_
      dsimp only at hplain ⊢
      have hsep : needsSeparator (uploadDir root uploadId) = true :=
        needsSeparator_join (multipartDir root) hplain
      rw [partPath, parent_join hsep (plainName_partFileName partNumber).slash, uploadDir,
        resolve_join cwd _ hplain]

/-- **Multipart file access is confined.**  Under every schedule of any calls, with any upload
ids in the requests, every file call under `multipart` has joined an id that
`createMultipartUpload` had generated before it. -/
theorem uploadFiles_confined (P : Platform) (hulid : ∀ n, InUlidDigits (P.ulid n))
    (root : String) (calls : List ServerCall) (schedule : List (Turn Nat)) :
    ∀ call older, (.touched call :: older) <:+ (diskAfter P root calls schedule).notes →
      call.Confined root older := by
  intro call older h
  have hinv := uploadsGenerated_after P root calls schedule
  obtain ⟨hgenerated, hbuilt⟩ := hinv.touched call older h
  have hmem : .generated call.uploadId ∈ (diskAfter P root calls schedule).notes :=
    h.subset (List.mem_cons_of_mem _ hgenerated)
  obtain ⟨k, hk⟩ := hinv.drawn call.uploadId hmem
  have hplain : PlainName call.uploadId := by
    rw [hk]
    exact (hulid k).plainName
  exact ⟨hgenerated, hplain, hbuilt.inside hplain⟩

/-- **`abortStaleMultipart` looks for no row**: it removes what its argument leads to, and `..`
leads to the root of the store.  That the clean-up brings it ids from the table is all that
confines it. -/
theorem abortStaleMultipart_unchecked (root : String) (n : Noted World UploadNote) :
    (∀ uploadId, ((OnDisk.abortStaleMultipart root uploadId).run n).2.notes =
      .touched ⟨.removeDirAll, uploadId, uploadDir root uploadId⟩ :: n.notes) ∧
    ∀ cwd, resolve cwd (uploadDir root "..") = resolve cwd root := by
  constructor
  · intro uploadId
    have hremove : ∃ w, (OnDisk.removeUploadDir root uploadId).run n =
        (.ok (),
          ⟨w, .touched ⟨.removeDirAll, uploadId, uploadDir root uploadId⟩ :: n.notes⟩) :=
      ⟨_, run_noting_perform _ _ n⟩
    obtain ⟨w, hremove⟩ := hremove
    rw [OnDisk.abortStaleMultipart, run_bind, hremove]
    simp only [run_plain]
  · intro cwd
    have hmultipart : PlainName "multipart" := ⟨by decide, by decide, by decide, by decide⟩
    rw [uploadDir, resolve_join_parent, multipartDir, resolve_join cwd root hmultipart,
      List.dropLast_concat]

theorem inUlidDigits_numberedUlid (n : Nat) : InUlidDigits (numberedUlid n) := by
  have hlist : (numberedUlid n).toList =
      "01ARZ3NDEKTSV4RRFFQ69G5FA".toList ++ Nat.toDigits 10 n := by
    unfold numberedUlid
    rw [String.toList_append, Nat.toList_repr]
  constructor
  · intro hempty
    rw [hempty] at hlist
    exact absurd (List.append_eq_nil_iff.mp hlist.symm).1 (by decide)
  · intro c hc
    rw [hlist] at hc
    have hall : ("01ARZ3NDEKTSV4RRFFQ69G5FA".toList.all fun d => ulidDigits.contains d) = true :=
      by decide
    rcases List.mem_append.mp hc with hfront | hdigit
    · exact List.contains_iff_mem.mp (List.all_eq_true.mp hall c hfront)
    · have hisDigit := Nat.isDigit_of_mem_toDigits (by omega) (by omega) hdigit
      have hrange : 48 ≤ c.toNat ∧ c.toNat ≤ 57 := by
        simpa [Char.isDigit, UInt32.le_iff_toNat_le] using hisDigit
      have hdigits : ∀ k < 58, 48 ≤ k → Char.ofNat k ∈ ulidDigits := by decide
      have hmem := hdigits c.toNat (by omega) hrange.1
      rwa [Char.ofNat_toNat] at hmem

/-- The id that a run of the executable platform generates first. -/
def firstUpload : MultipartUpload where
  uploadId := "01ARZ3NDEKTSV4RRFFQ69G5FA0"
  bucket := "docs"
  key := "big"
  initiated := 0

/-- An upload, a part of it, two requests with a path for an upload id, and the clean-up. -/
def hostileCalls : List ServerCall := [
  .other (.createBucket "docs" {}) trivial,
  .createMultipartUpload "docs" "big" {},
  .uploadPart firstUpload 7 [.ok [97]],
  .uploadPart { firstUpload with uploadId := "../objects" } 7 [.ok [98]],
  .abortMultipartUpload { firstUpload with uploadId := "/srv" },
  .cleanupStaleMultipartUploads 0]

def hostileSchedule : List (Turn Nat) :=
  .thread 0 :: List.replicate 5 (.thread 1) ++ List.replicate 7 (.thread 2) ++
    [.thread 3, .thread 4, .world 1000000000, .thread 5, .thread 5, .thread 5, .thread 5]

theorem uploadFiles_confined_hostile :
    .touched ⟨.removeDirAll, "01ARZ3NDEKTSV4RRFFQ69G5FA0",
      "/srv/strix/multipart/01ARZ3NDEKTSV4RRFFQ69G5FA0"⟩ ∈
      (diskAfter executablePlatform "/srv/strix" hostileCalls hostileSchedule).notes ∧
    ∀ call older, (.touched call :: older) <:+
      (diskAfter executablePlatform "/srv/strix" hostileCalls hostileSchedule).notes →
        call.Confined "/srv/strix" older :=
  ⟨by decide +kernel,
    uploadFiles_confined executablePlatform inUlidDigits_numberedUlid "/srv/strix" hostileCalls
      hostileSchedule⟩

end Strix

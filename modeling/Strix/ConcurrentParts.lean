import Strix.ExecutablePlatform
import Strix.StoreCalls
import Strix.StoreInvariant
import Strix.ThreadTimes

/-!
# Uploading parts side by side

Every upload of a part number truncates and rewrites one file in place, and
only when it has written the file does it insert the row with the ETag.  A
completion checks the ETags of the rows and reads the files later.

* `recorded_of_mem`: a row that is there was inserted by an upload, which has
  written its body to the file before;
* `parts_never_mix`: where no other upload changes the file of a listed part
  between its opening and the completion's read, the object is made of the
  bodies of completed uploads with the listed ETags.
-/

namespace Strix

open AtomicProgram AtomicProgram.Prog MachineRuns RowTable

variable (P : Platform)

/-- The course that calls take side by side. -/
def course (w : World) (ops : List Op) (schedule : List (Turn Nat)) :
    Course World Error Reply Nat where
  happens := tickWorld
  start := callPool P w ops
  schedule := schedule

/-- Call `i` completes the upload, and every other call uploads a part. -/
structure OneCompletion (ops : List Op) (i : Nat) (upload : MultipartUpload)
    (parts : List CompletePart) : Prop where
  completes : ops[i]? = some (.completeMultipartUpload upload parts)
  others : ∀ j op, ops[j]? = some op → j ≠ i →
    ∃ upload' partNumber body, op = .uploadPart upload' partNumber body

/-- **A completed upload of a listed part**: its call has returned, `content` is its body, and
the MD5 of that is the ETag in the list. -/
def UploadedAs (ops : List Op) (c : Pool World Error Reply) (uploadId : String)
    (part : CompletePart) (content : Bytes) : Prop :=
  ∃ j upload body reply, ops[j]? = some (.uploadPart upload part.partNumber body) ∧
    upload.uploadId = uploadId ∧ c.Returned j reply ∧ readBody body = .ok content ∧
      trimQuotes (contentEtag P content) = trimQuotes part.etag

/-- **The object of the upload**: a new row with the upload's bucket and key, and its blob
holds the content. -/
def ObjectMade (w w' : World) (uploadId : String) (content : Bytes) : Prop :=
  ∃ uploadMeta row data, selectUpload uploadId w.db = some uploadMeta ∧
    row ∈ w'.db.objects ∧ (∀ r ∈ w.db.objects, r.id ≠ row.id) ∧
    row.bucket = uploadMeta.bucket ∧ row.key = uploadMeta.key ∧ row.size = content.length ∧
    w'.files.objects row.id = some data ∧ ∀ sseKey, Holds P row sseKey content data

/-- **Uploads never mix**: a completion that has returned has joined the bodies of completed
uploads, in part order. -/
def NeverMixes (w : World) (ops : List Op) (schedule : List (Turn Nat)) (i : Nat)
    (upload : MultipartUpload) (parts : List CompletePart) : Prop :=
  ∀ reply, ((calls P w ops).after (callPool P w ops) schedule).Returned i reply →
    ∃ contents, List.Forall₂ (UploadedAs P ops
        ((calls P w ops).after (callPool P w ops) schedule) upload.uploadId) parts contents ∧
      ObjectMade P w ((calls P w ops).after (callPool P w ops) schedule).state upload.uploadId
        contents.flatten

variable {P}

/-- No turn of a thread other than `j` between the two times changes the file of the part. -/
def PartSpared (C : Course World Error Reply Nat) (uploadId : String) (partNumber j a d : Nat) :
    Prop :=
  ∀ e, a < e → e < d → ∀ k, k ≠ j → C.TurnOf k e →
    (C.stateAt (e + 1)).files.part uploadId partNumber =
      (C.stateAt e).files.part uploadId partNumber

/-- **Call `j` supplies the row of a part**: it opens the file at time `a` and inserts a row at
time `b` that is still there at time `v`. -/
structure SuppliesPart (C : Course World Error Reply Nat) (ops : List Op) (uploadId : String)
    (partNumber j a b v : Nat) : Prop where
  uploads : ∃ upload body, ops[j]? = some (.uploadPart upload partNumber body) ∧
    upload.uploadId = uploadId
  opens : ∃ inode, C.Runs j a (openPart uploadId partNumber inode)
  records : ∃ row, C.Runs j b (execute [deleteParts (atPart uploadId partNumber), insertPart row]) ∧
    row (C.stateAt b).now.seconds ∈ (C.stateAt v).db.parts
  order : a < b ∧ b < v

/-- **The files of the listed parts are spared**: from the time at which the upload whose row
is validated opens the file, until the completion reads the file, no other call changes it. -/
def ListedPartsSpared (C : Course World Error Reply Nat) (ops : List Op) (i : Nat)
    (uploadId : String) (parts : List CompletePart) : Prop :=
  ∀ part ∈ parts, ∀ j a b v d, SuppliesPart C ops uploadId part.partNumber j a b v →
    C.Runs i v (query fun db => validateParts uploadId db parts) →
    C.Runs i d (observe fun w => w.files.part uploadId part.partNumber :
      StoreProg (Option PartFile)) →
    PartSpared C uploadId part.partNumber j a d

/-! ## The steps of a part upload -/

/-- A step that leaves the objects, the uploads and the blobs alone, and the rows of all
parts but one. -/
def Beside (uploadId : String) (partNumber : Nat) ⦃β : Type⦄ (act : World → β × World) : Prop :=
  ∀ w, w.draws ≤ (act w).2.draws ∧ (act w).2.db.objects = w.db.objects ∧
    (act w).2.db.uploads = w.db.uploads ∧ (act w).2.files.objects = w.files.objects ∧
    ∀ p ∈ (act w).2.db.parts, p ∈ w.db.parts ∨ (p.uploadId = uploadId ∧ p.partNumber = partNumber)

/-- A quiet step that leaves the blobs alone as well. -/
def Aside ⦃β : Type⦄ (act : World → β × World) : Prop :=
  Quiet act ∧ ∀ w, (act w).2.files.objects = w.files.objects

theorem Aside.beside {uploadId : String} {partNumber : Nat} ⦃β : Type⦄ {act : World → β × World}
    (h : Aside act) : Beside uploadId partNumber act := by
  intro w
  obtain ⟨hdb, hdraws, -⟩ := h.1 w
  rw [hdb]
  exact ⟨hdraws, rfl, rfl, h.2 w, fun p hp => Or.inl hp⟩

theorem aside_of_still {α : Type} {p : StoreProg α} (hp : Only Still p) : Only Aside p :=
  hp.mono fun _ _ h => ⟨h.1, fun w => congrArg Files.objects (h.2 w)⟩

/-- What the closure of a part upload can do. -/
theorem recordPart_cases (uploadId : String) (partNumber : Nat) (row : DateTime → PartRow)
    (now : DateTime) (db : Db) :
    let outcome := runStatements [deleteParts (atPart uploadId partNumber), insertPart row] now db
    let others := deleteRows (atPart uploadId partNumber) db.parts
    outcome = (.ok (), { db with parts := insertRow (row now.seconds) others }) ∨
      ∃ e, outcome = (.error e, { db with parts := others }) := by
  have hdelete : deleteParts (atPart uploadId partNumber) now db =
      .ok { db with parts := deleteRows (atPart uploadId partNumber) db.parts } := rfl
  simp only [runStatements_cons_ok hdelete]
  cases hinsert : insertPart row now
      { db with parts := deleteRows (atPart uploadId partNumber) db.parts } with
  | error e => exact Or.inr ⟨e, runStatements_cons_error hinsert⟩
  | ok db' =>
      refine Or.inl ?_
      rw [runStatements_cons_ok hinsert]
      simp only [insertPart] at hinsert
      split at hinsert
      · cases hinsert
      · split at hinsert
        · cases hinsert
          rfl
        · cases hinsert

theorem beside_record {uploadId : String} {partNumber : Nat} {row : DateTime → PartRow}
    (hrow : ∀ now, (row now).uploadId = uploadId ∧ (row now).partNumber = partNumber) :
    Beside uploadId partNumber
      (closureStep [deleteParts (atPart uploadId partNumber), insertPart row]) := by
  intro w
  unfold closureStep
  rcases recordPart_cases uploadId partNumber row w.now w.db with hrun | ⟨e, hrun⟩
  · rw [hrun]
    refine ⟨Nat.le_refl _, rfl, rfl, rfl, fun p hp => ?_⟩
    rcases mem_insertRow.mp hp with hold | rfl
    · exact Or.inl (mem_deleteRows.mp hold).1
    · exact Or.inr (hrow _)
  · rw [hrun]
    exact ⟨Nat.le_refl _, rfl, rfl, rfl, fun p hp => Or.inl (mem_deleteRows.mp hp).1⟩

theorem beside_call (uploadId : String) (partNumber : Nat) (blobId : String) (content : Bytes) :
    Only (Beside uploadId partNumber) (call [deleteParts (atPart uploadId partNumber),
      insertPart (partRow P uploadId partNumber blobId content)]) := by
  have hrecord : Beside uploadId partNumber (closureStep [deleteParts (atPart uploadId partNumber),
      insertPart (partRow P uploadId partNumber blobId content)]) :=
    beside_record fun now => ⟨rfl, rfl⟩
  exact (only_perform hrecord).bind fun _ => only_lift _

theorem aside_createUploadDir (uploadId : String) : Only Aside (createUploadDir uploadId) :=
  only_perform ⟨fun _ => ⟨rfl, Nat.le_refl _, rfl⟩, fun _ => rfl⟩

theorem aside_removeUploadDir (uploadId : String) : Only Aside (removeUploadDir uploadId) :=
  only_perform ⟨fun _ => ⟨rfl, Nat.le_refl _, rfl⟩, fun _ => rfl⟩

/-- A step that changes part files only. -/
theorem aside_of_files {β : Type} {act : World → β × World}
    (h : ∀ w, ∃ multipart, (act w).2 = { w with files := { w.files with multipart } }) :
    Aside act := by
  refine ⟨fun w => ?_, fun w => ?_⟩
  · obtain ⟨multipart, hact⟩ := h w
    rw [hact]
    exact ⟨rfl, Nat.le_refl _, rfl⟩
  · obtain ⟨multipart, hact⟩ := h w
    rw [hact]

theorem aside_openPart (uploadId : String) (partNumber inode : Nat) :
    Only Aside (openPart uploadId partNumber inode) := by
  refine only_perform (aside_of_files fun w => ?_)
  cases w.files.multipart uploadId with
  | none => exact ⟨_, rfl⟩
  | some dir => exact ⟨_, rfl⟩

theorem aside_writePart (uploadId : String) (partNumber inode offset : Nat) (chunk : Bytes) :
    Only Aside (writePart uploadId partNumber inode offset chunk) := by
  refine only_perform (aside_of_files fun w => ?_)
  dsimp only
  split
  · exact ⟨_, rfl⟩
  · split
    · exact ⟨_, rfl⟩
    · exact ⟨_, rfl⟩

theorem aside_writeChunks (uploadId : String) (partNumber inode : Nat) (written : Bytes)
    (body : ObjectBody) : Only Aside (writeChunks uploadId partNumber inode written body) := by
  induction body generalizing written with
  | nil => exact only_pure _
  | cons item rest ih =>
      cases item with
      | error e => exact only_fail _
      | ok chunk => exact (aside_writePart _ _ _ _ _).bind fun _ => ih _

theorem uploadPart_beside (upload : MultipartUpload) (partNumber : Nat) (body : ObjectBody) :
    Only (Beside upload.uploadId partNumber) (program P (.uploadPart upload partNumber body)) := by
  have haside : ∀ {α : Type} {p : StoreProg α}, Only Aside p →
      Only (Beside upload.uploadId partNumber) p := fun hp => hp.mono fun _ _ h => h.beside
  have hstill : ∀ {α : Type} {p : StoreProg α}, Only Still p →
      Only (Beside upload.uploadId partNumber) p := fun hp => haside (aside_of_still hp)
  simp only [program, replying, uploadPart, Prog.bind_assoc]
  refine (only_ensure _ _).bind fun _ => (hstill (still_query _)).bind fun _ => ?_
  refine (only_ensure _ _).bind fun _ => (hstill still_draw).bind fun n => ?_
  refine (haside (aside_createUploadDir _)).bind fun _ => ?_
  refine (haside (aside_openPart _ _ _)).bind fun _ => (only_require _ _).bind fun inode => ?_
  refine (haside (aside_writeChunks _ _ _ _ _)).bind fun content => ?_
  refine (hstill still_clock).bind fun _ => ?_
  exact (beside_call _ _ _ _).bind fun _ => only_pure _

/-! ## The way of a part upload -/

section Upload

variable {C : Course World Error Reply Nat} {uploadId : String} {partNumber j k m : Nat}

/-- The file of a part where its upload takes no step. -/
theorem part_kept {a d : Nat} (htick : C.happens = tickWorld)
    (hspared : PartSpared C uploadId partNumber j a d) (hak : a < k) (hkm : k ≤ m) (hmd : m ≤ d)
    (hrests : C.Rests j k m) :
    (C.stateAt m).files.part uploadId partNumber =
      (C.stateAt k).files.part uploadId partNumber := by
  refine Course.kept (I := fun s : World => s.files.part uploadId partNumber =
    (C.stateAt k).files.part uploadId partNumber) ?_ hkm ?_ rfl
  · rw [htick]
    exact fun _ _ h => h
  · intro e hke hem thread β act hruns hsame
    have hother : thread ≠ j := by
      intro heq
      exact hrests e hke hem act (heq ▸ hruns)
    have hstep := hspared e (by omega) (by omega) thread hother hruns.1
    rw [hruns.stateAt] at hstep
    exact hstep.trans hsame

/-- A chunk is appended to the file. -/
theorem part_written {s : World} {inode : Nat} {written chunk : Bytes}
    (hfile : s.files.part uploadId partNumber = some { inode, data := written }) :
    ((writePart uploadId partNumber inode written.length chunk).run s).2.files.part uploadId
      partNumber = some { inode, data := written ++ chunk } := by
  obtain ⟨dir, hdir, -⟩ := Option.bind_eq_some_iff.mp hfile
  simp only [writePart, run_update, hfile, ↓reduceIte, pwrite_end]
  rw [Files.part_setPart _ _ (by rw [hdir]; rfl), if_pos ⟨rfl, rfl⟩]

/-- **The loop writes the body to the file**, where no other call changes it meanwhile. -/
theorem writeChunks_goes {inode a : Nat} {written : Bytes} {body : ObjectBody}
    {f : Bytes → StoreProg Reply} {q : StoreProg Reply} (htick : C.happens = tickWorld)
    (h : C.Goes Quiet j k
      (writeChunks uploadId partNumber inode written body >>= f) m q) (hak : a < k) :
    ∃ content t, readBody body = .ok content ∧ k ≤ t ∧
      C.Goes Quiet j t (f (written ++ content)) m q ∧
      ∀ d, t ≤ d → PartSpared C uploadId partNumber j a d →
        (C.stateAt k).files.part uploadId partNumber =
          some { inode, data := written } →
        (C.stateAt t).files.part uploadId partNumber =
          some { inode, data := written ++ content } := by
  induction body generalizing k written with
  | nil =>
      refine ⟨[], k, rfl, Nat.le_refl k, ?_, fun d _ _ hfile => ?_⟩
      · rw [List.append_nil]
        exact h
      · rw [List.append_nil]
        exact hfile
  | cons item rest ih =>
      cases item with
      | error e => exact h.not_fail.elim
      | ok chunk =>
          simp only [writeChunks, Prog.bind_assoc] at h
          have haside := aside_writePart uploadId partNumber inode written.length chunk
          obtain ⟨t, hkt, htm, hidle, hruns, hrest⟩ := Course.Goes.perform haside.1.1 h
          obtain ⟨content, t', hread, htt', hgoes, hloop⟩ := ih hrest (by omega)
          refine ⟨chunk ++ content, t', ?_, by omega, ?_, fun d htd hspared hfile => ?_⟩
          · simp only [readBody, hread]
          · rw [← List.append_assoc]
            exact hgoes
          · rw [← List.append_assoc]
            refine hloop d htd hspared ?_
            have hkept := part_kept htick hspared hak hkt (by omega) hidle.rests
            rw [hruns.stateAt]
            exact part_written (hkept.trans hfile)

/-- An opened file is empty. -/
theorem part_opened {s s' : World} {n inode : Nat}
    (h : (openPart uploadId partNumber n).run s = (.ok (some inode), s')) :
    s'.files.part uploadId partNumber = some { inode, data := [] } := by
  simp only [openPart, run_perform] at h
  cases hdir : s.files.multipart uploadId with
  | none => simp [hdir] at h
  | some dir =>
      simp only [hdir, Prod.mk.injEq, Except.ok.injEq, Option.some.injEq] at h
      obtain ⟨rfl, rfl⟩ := h
      rw [Files.part_setPart _ _ (by rw [hdir]; rfl), if_pos ⟨rfl, rfl⟩]

/-- A call whose closure has succeeded goes on. -/
theorem call_ok {statements : List Statement} {s : World}
    (hok : (closureStep statements s).1 = .ok ()) (f : Unit → StoreProg Reply) :
    (lift ((closureStep statements s).1.mapError dbErr) >>= f) = f () := by
  rw [hok]
  rfl

/-- **What a part upload has done when it comes to its closure**: it has opened its file and
has written its body to it. -/
theorem uploadPart_goes {upload : MultipartUpload} {body : ObjectBody} {b : Nat} {β : Type}
    {act : World → β × World} (htick : C.happens = tickWorld)
    (hthread : C.threadAt j 0 =
      some (program P (.uploadPart upload partNumber body)))
    (hruns : C.Runs j b (perform act : StoreProg β)) (hloud : ¬ Quiet act) :
    ∃ a inode content blobId, a < b ∧
      (∃ n, C.Runs j a (openPart upload.uploadId partNumber n)) ∧
      readBody body = .ok content ∧
      C.Runs j b (execute [deleteParts (atPart upload.uploadId partNumber),
        insertPart (partRow P upload.uploadId partNumber blobId content)]) ∧
      ((closureStep [deleteParts (atPart upload.uploadId partNumber),
          insertPart (partRow P upload.uploadId partNumber blobId content)]
          (C.stateAt b)).1 = .ok () → ∃ reply, C.threadAt j (b + 1) = some (done reply)) ∧
      ∀ d, b < d → PartSpared C upload.uploadId partNumber j a d →
        (C.stateAt d).files.part upload.uploadId partNumber =
          some { inode, data := content } := by
  obtain ⟨hturn, next, hnext⟩ := hruns
  have hgoes : C.Goes Quiet j 0
      (program P (.uploadPart upload partNumber body)) b (perform act >>= next) :=
    ⟨hthread, Nat.zero_le b, hnext, hloud⟩
  simp only [program, replying, uploadPart, Prog.bind_assoc] at hgoes
  obtain ⟨-, h₁⟩ := hgoes.ensure
  obtain ⟨t₁, -, -, -, -, h₂⟩ := Course.Goes.perform (still_query _).1.1 h₁
  obtain ⟨-, h₃⟩ := h₂.ensure
  obtain ⟨t₂, -, -, -, -, h₄⟩ := Course.Goes.perform still_draw.1.1 h₃
  obtain ⟨t₃, -, -, -, -, h₅⟩ := Course.Goes.perform (aside_createUploadDir _).1.1 h₄
  obtain ⟨a, -, hab, -, hopens, h₆⟩ := Course.Goes.perform (aside_openPart _ _ _).1.1 h₅
  obtain ⟨inode, hhandle, h₇⟩ := h₆.require
  obtain ⟨content, t, hread, hat, h₈, hloop⟩ := writeChunks_goes htick h₇ (Nat.lt_succ_self a)
  obtain ⟨t', htt', htb', hidle, hclock, h₉⟩ := Course.Goes.perform still_clock.1.1 h₈
  have hopened : (C.stateAt (a + 1)).files.part upload.uploadId
      partNumber = some { inode, data := [] } := by
    rw [hopens.stateAt]
    have hrun : (openPart upload.uploadId partNumber (C.stateAt t₂).draws).run (C.stateAt a) =
        (.ok (some inode), _) := congrArg (fun handle => (Except.ok handle, _)) hhandle
    exact part_opened hrun
  have hended : ∀ (info : PartInfo) (outcome : Except SqlError Unit),
      Course.Ended ((lift (outcome.mapError dbErr) >>= fun _ => pure info >>= fun info =>
        done (.part info) : StoreProg Reply)) := by
    intro info outcome
    cases outcome <;> trivial
  obtain ⟨hlast, hwaits⟩ := h₉.last (hended _) id
  have hthread' := hnext.trans (congrArg some hlast)
  have hrecords : C.Runs j b (execute [deleteParts (atPart upload.uploadId partNumber),
      insertPart (partRow P upload.uploadId partNumber (P.ulid (C.stateAt t₂).draws) content)]) :=
    ⟨hturn, _, hthread'⟩
  have hafter : C.threadAt j (b + 1) = _ := (Course.threadAt_succ_own hturn).trans
    (congrArg (Option.map fun p => (p.advance (C.stateAt b)).1) hthread')
  refine ⟨a, inode, content, _, hab, ⟨_, hopens⟩, hread, hrecords, fun hok => ?_, ?_⟩
  · exact ⟨_, hafter.trans (congrArg some (call_ok hok _))⟩
  · intro d hbd hspared
    have hwritten := hloop d (by omega) hspared hopened
    have hclocked := part_kept htick hspared (by omega) htt' (by omega) hidle.rests
    have hwaited := part_kept htick hspared (by omega) (by omega) (by omega) hwaits.rests
    have hrested := part_kept htick hspared (by omega) hbd (Nat.le_refl d)
      (Course.rests_ended hafter (hended _ _) d)
    rw [hrecords.stateAt] at hrested
    rw [hclock.stateAt] at hwaited
    exact hrested.trans (hwaited.trans (hclocked.trans hwritten))

end Upload

/-! ## Where the rows come from -/

/-- A step that adds no part row. -/
def Gathers ⦃β : Type⦄ (act : World → β × World) : Prop :=
  ∀ w, w.draws ≤ (act w).2.draws ∧ ∀ p ∈ (act w).2.db.parts, p ∈ w.db.parts

/-- The statements that a completion's closure runs. -/
def completionStatements (status : VersioningStatus) (bucket key : String)
    (row : DateTime → ObjectRow) (uploadId : String) : List Statement :=
  [makeRoom status bucket key, insertObject row, deleteParts (·.uploadId == uploadId),
    deleteUpload uploadId]

/-- **What a completion's closure can do** to the objects and the parts. -/
theorem completionStatements_cases (status : VersioningStatus) (bucket key : String)
    (row : DateTime → ObjectRow) (uploadId : String) (now : DateTime) (db : Db) :
    let outcome := runStatements (completionStatements status bucket key row uploadId) now db
    (outcome.1 = .ok () ∧ row now.seconds ∈ outcome.2.objects ∧
      outcome.2.parts = deleteRows (·.uploadId == uploadId) db.parts) ∨
    (outcome.1 ≠ .ok () ∧ outcome.2.parts = db.parts) := by
  unfold completionStatements
  rw [runStatements_cons_ok (makeRoom_ok status bucket key now db)]
  cases hinsert : insertObject row now
      { db with objects := roomMade status bucket key db.objects } with
  | error e =>
      rw [runStatements_cons_error hinsert]
      refine Or.inr ⟨?_, rfl⟩
      intro h
      cases h
  | ok db' =>
      rw [runStatements_cons_ok hinsert, runStatements_closeUpload]
      obtain ⟨-, -, rfl⟩ := insertObject_eq_ok hinsert
      exact Or.inl ⟨rfl, mem_insertRow.mpr (Or.inr rfl), rfl⟩

theorem gathers_completes (status : VersioningStatus) (bucket key : String)
    (row : DateTime → ObjectRow) (uploadId : String) :
    Gathers (closureStep (completionStatements status bucket key row uploadId)) := by
  intro w
  refine ⟨Nat.le_refl _, fun p hp => ?_⟩
  unfold closureStep at hp
  rcases completionStatements_cases status bucket key row uploadId w.now w.db with
    ⟨-, -, hparts⟩ | ⟨-, hparts⟩
  · exact (mem_deleteRows.mp (hparts ▸ hp)).1
  · exact hparts ▸ hp

theorem Quiet.gathers ⦃β : Type⦄ {act : World → β × World} (h : Quiet act) : Gathers act := by
  intro w
  obtain ⟨hdb, hdraws, -⟩ := h w
  exact ⟨hdraws, fun p hp => hdb ▸ hp⟩

theorem completeMultipartUpload_gathers (upload : MultipartUpload) (parts : List CompletePart) :
    Only Gathers (program P (.completeMultipartUpload upload parts)) := by
  have hquiet : ∀ {α : Type} {p : StoreProg α}, Only Quiet p → Only Gathers p :=
    fun hp => hp.mono fun _ _ h => h.gathers
  simp only [program, replying, completeMultipartUpload, Prog.bind_assoc]
  refine (only_ensure _ _).bind fun _ => (hquiet (quiet_query _)).bind fun _ => ?_
  refine (only_require _ _).bind fun uploadMeta => (hquiet (quiet_query _)).bind fun _ => ?_
  refine (only_require _ _).bind fun status => (hquiet (quiet_query _)).bind fun _ => ?_
  refine (only_lift _).bind fun _ => (hquiet quiet_draw).bind fun n => ?_
  refine (hquiet (quiet_readParts _ _)).bind fun plaintext => ?_
  refine (hquiet (quiet_sealUpload _ _ _)).bind fun _ => ?_
  refine (hquiet (quiet_writeBlob _ _)).bind fun _ => ?_
  refine Only.bind ?_ fun _ => (hquiet (quiet_removeUploadDir _)).bind fun _ => only_pure _
  have hgathers := gathers_completes status uploadMeta.bucket uploadMeta.key
    (completedRow uploadMeta parts (P.ulid n) (newVersionId status (P.ulid n)) plaintext.length
      (formatMultipartEtag P (parts.map (·.etag)))) upload.uploadId
  exact (only_perform hgathers).bind fun _ => only_lift _

/-- **Where a part row comes from**: call `j` has opened the file at time `a`, has written its
body to it and has inserted the row at time `b`; then it has returned. -/
structure Recorded (P : Platform) (C : Course World Error Reply Nat) (ops : List Op)
    (p : PartRow) (v : Nat) where
  j : Nat
  a : Nat
  b : Nat
  inode : Nat
  upload : MultipartUpload
  body : ObjectBody
  content : Bytes
  reply : Reply
  call : ops[j]? = some (.uploadPart upload p.partNumber body)
  upload_eq : upload.uploadId = p.uploadId
  read : readBody body = .ok content
  etag_eq : p.etag = contentEtag P content
  supplies : SuppliesPart C ops p.uploadId p.partNumber j a b v
  returned : C.threadAt j (b + 1) = some (done reply)
  file : ∀ d, b < d → PartSpared C p.uploadId p.partNumber j a d →
    (C.stateAt d).files.part p.uploadId p.partNumber = some { inode, data := content }

section Recorded

variable {w : World} {ops : List Op} {schedule : List (Turn Nat)} {i j k v : Nat}
  {upload : MultipartUpload} {parts : List CompletePart}

theorem course_thread {op : Op} (h : ops[j]? = some op) :
    (course P w ops schedule).threadAt j 0 = some (program P op) := by
  change (ops.map (program P))[j]? = some (program P op)
  rw [List.getElem?_map, h, Option.map_some]

/-- A step is a step of a call. -/
theorem course_op {β : Type} {p : StoreProg β} (h : (course P w ops schedule).Runs j k p) :
    ∃ op, ops[j]? = some op := by
  obtain ⟨-, next, hnext⟩ := h
  obtain ⟨q, hq⟩ := Course.threadAt_before (C := course P w ops schedule) (Nat.zero_le k) hnext
  change (ops.map (program P))[j]? = some q at hq
  rw [List.getElem?_map] at hq
  obtain ⟨op, hop, -⟩ := Option.map_eq_some_iff.mp hq
  exact ⟨op, hop⟩

/-- **A row of the upload that is there** was recorded by one of the calls. -/
theorem recorded_of_mem (hone : OneCompletion ops i upload parts)
    (hnone : ∀ p ∈ w.db.parts, p.uploadId ≠ upload.uploadId) {p : PartRow}
    (hp : p ∈ ((course P w ops schedule).stateAt v).db.parts)
    (hid : p.uploadId = upload.uploadId) :
    Nonempty (Recorded P (course P w ops schedule) ops p v) := by
  obtain ⟨b, hbv, j, β, act, hruns, hbefore, hafter⟩ :=
    Course.arises (C := course P w ops schedule) (I := fun s => p ∈ s.db.parts)
      (fun _ _ h => h) (fun h => hnone p h hid) hp
  obtain ⟨op, hop⟩ := course_op hruns
  have hthread : (course P w ops schedule).threadAt j 0 = some (program P op) := course_thread hop
  by_cases hji : j = i
  · subst hji
    obtain rfl := Option.some.inj (hop.symm.trans hone.completes)
    have hgathers := hruns.kind hthread (completeMultipartUpload_gathers upload parts)
      (Nat.zero_le b)
    exact absurd ((hgathers _).2 p hafter) hbefore
  · obtain ⟨upload', partNumber, body, rfl⟩ := hone.others j op hop hji
    have hloud : ¬ Quiet act := fun hquiet => hbefore ((hquiet _).1 ▸ hafter)
    obtain ⟨a, inode, content, blobId, hab, hopens, hread, hrecords, hreturned, hfile⟩ :=
      uploadPart_goes rfl hthread hruns hloud
    rw [hruns.stateAt.symm.trans hrecords.stateAt] at hafter
    have hold : p ∉ deleteRows (atPart upload'.uploadId partNumber)
        ((course P w ops schedule).stateAt b).db.parts :=
      fun hmem => hbefore (mem_deleteRows.mp hmem).1
    rcases recordPart_cases upload'.uploadId partNumber
      (partRow P upload'.uploadId partNumber blobId content)
      ((course P w ops schedule).stateAt b).now ((course P w ops schedule).stateAt b).db with
      hrun | ⟨e, hrun⟩
    · rw [hrun] at hafter
      rcases mem_insertRow.mp hafter with hmem | rfl
      · exact absurd hmem hold
      · obtain ⟨reply, hreply⟩ := hreturned (congrArg Prod.fst hrun)
        exact ⟨{
          j, a, b, inode, body, content, reply
          upload := upload'
          call := hop
          upload_eq := rfl
          read := hread
          etag_eq := rfl
          supplies := ⟨⟨upload', body, hop, rfl⟩, hopens, ⟨_, hrecords, hp⟩, hab, hbv⟩
          returned := hreply
          file := hfile }⟩
    · rw [hrun] at hafter
      exact absurd hafter hold

end Recorded

/-! ## The way of a completion -/

/-- Every step. -/
def AnyStep ⦃β : Type⦄ (_ : World → β × World) : Prop := True

/-- Call `i` reads a part of the upload after time `k`: `content` is what the file holds. -/
def ReadsPart (C : Course World Error Reply Nat) (i k : Nat) (uploadId : String)
    (part : CompletePart) (content : Bytes) : Prop :=
  ∃ d file, k < d ∧ C.Runs i d (observe fun w => w.files.part uploadId part.partNumber :
      StoreProg (Option PartFile)) ∧
    (C.stateAt d).files.part uploadId part.partNumber = some file ∧ file.data = content

section Completion

variable {C : Course World Error Reply Nat} {i k m : Nat}

/-- **The assembly loop** reads the files one after the other. -/
theorem readParts_goes {uploadId : String} {parts : List CompletePart}
    {f : Bytes → StoreProg Reply} {q : StoreProg Reply} {v : Nat}
    (h : C.Goes AnyStep i k (readParts uploadId parts >>= f) m q) (hvk : v < k) :
    ∃ contents t, k ≤ t ∧ List.Forall₂ (ReadsPart C i v uploadId) parts contents ∧
      C.Goes AnyStep i t (f contents.flatten) m q := by
  induction parts generalizing k f with
  | nil => exact ⟨[], k, Nat.le_refl k, .nil, h⟩
  | cons part rest ih =>
      simp only [readParts, Prog.bind_assoc] at h
      obtain ⟨t₁, hkt, -, -, -, h₁⟩ := Course.Goes.perform trivial h
      obtain ⟨-, h₂⟩ := h₁.ensure
      obtain ⟨d, htd, -, -, hruns, h₃⟩ := Course.Goes.perform trivial h₂
      obtain ⟨file, hfile, h₄⟩ := h₃.require
      obtain ⟨contents, t, hdt, hreads, h₅⟩ := ih h₄ (by omega)
      refine ⟨file.data :: contents, t, by omega, .cons ?_ hreads, ?_⟩
      · exact ⟨d, file, by omega, hruns, hfile, rfl⟩
      · exact h₅

/-- A sealed upload that has ended, ended as it does alone in some state. -/
theorem sealUpload_ends {uploadMeta : UploadRow} {versionId : String} {plaintext data : Bytes}
    {states : List World} (h : (sealUpload P uploadMeta versionId plaintext).Ends states data) :
    ∃ s, ((sealUpload P uploadMeta versionId plaintext).run s).1 = .ok data := by
  unfold sealUpload at h ⊢
  cases halgorithm : uploadMeta.encryptionAlgorithm with
  | none =>
      rw [halgorithm] at h
      exact ⟨{}, congrArg Except.ok (ends_done.mp h)⟩
  | some algorithm =>
      rw [halgorithm] at h
      cases algorithm with
      | sseC => exact absurd h not_ends_fail
      | aes256 =>
          obtain ⟨s, later, -, hlift⟩ := Ends.perform_bind h
          refine ⟨s, ?_⟩
          simp only [encryptSseS3, encryptFresh, draw, run_perform_bind, run_lift]
          exact hlift.of_lift

/-- What a sealed upload writes holds the content, for every row of the upload. -/
theorem sealUpload_holds {uploadMeta : UploadRow} (row : ObjectRow) {plaintext data : Bytes}
    {states : List World} (h : (sealUpload P uploadMeta row.versionId plaintext).Ends states data)
    (halgorithm : row.encryptionAlgorithm = uploadMeta.encryptionAlgorithm)
    (hbucket : row.bucket = uploadMeta.bucket) (hkey : row.key = uploadMeta.key)
    (sseKey : Option EncryptionKey) : Holds P row sseKey plaintext data := by
  obtain ⟨s, hrun⟩ := sealUpload_ends h
  rcases sealUpload_cases (P := P) s uploadMeta row plaintext halgorithm hbucket hkey with
    ⟨e, n, hfails, -⟩ | ⟨data', n, hseals, -, -, -, hholds⟩
  · rw [hfails] at hrun
    cases hrun
  · rw [hseals] at hrun
    cases hrun
    exact hholds sseKey

/-- A verdict without an error. -/
theorem PartsVerdict.valid_of_ok {verdict : PartsVerdict} {u : Unit}
    (h : verdict.result = .ok u) : verdict = .valid := by
  by_contra hne
  obtain ⟨e, he⟩ := PartsVerdict.result_error hne
  rw [he] at h
  cases h

theorem ok_of_mapError {outcome : Except SqlError Unit} {u : Unit}
    (h : outcome.mapError dbErr = .ok u) : outcome = .ok () := by
  cases outcome with
  | ok _ => rfl
  | error e => cases h

/-- A step that leaves the blobs alone. -/
def BlobsKept ⦃β : Type⦄ (act : World → β × World) : Prop :=
  ∀ w, (act w).2.files.objects = w.files.objects

/-- A step that leaves the objects alone. -/
def ObjectsKept ⦃β : Type⦄ (act : World → β × World) : Prop :=
  ∀ w, (act w).2.db.objects = w.db.objects

/-- **A completion that has returned** has found the upload, validated the rows, read the
files, written the blob and inserted its row, each at a time of its own. -/
structure CompletionRun (P : Platform) (C : Course World Error Reply Nat) (i : Nat)
    (upload : MultipartUpload) (parts : List CompletePart) (m : Nat) where
  found : Nat
  validated : Nat
  drawn : Nat
  wrote : Nat
  closed : Nat
  uploadMeta : UploadRow
  contents : List Bytes
  data : Bytes
  versionId : String
  rest : StoreProg Reply
  tail : StoreProg Reply
  row : DateTime → ObjectRow
  validated_lt : validated < m
  waits : C.Idle i 0 found
  found_eq : selectUpload upload.uploadId (C.stateAt found).db = some uploadMeta
  validates : C.Runs i validated (query fun db => validateParts upload.uploadId db parts)
  valid : validateParts upload.uploadId (C.stateAt validated).db parts = .valid
  reads : List.Forall₂ (ReadsPart C i validated upload.uploadId) parts contents
  row_eq : row = completedRow uploadMeta parts (P.ulid (C.stateAt drawn).draws) versionId
    contents.flatten.length (formatMultipartEtag P (parts.map (·.etag)))
  blob_holds : ∀ now sseKey, Holds P (row now) sseKey contents.flatten data
  wrote_lt : wrote < m
  blob : (C.stateAt (wrote + 1)).files.objects (P.ulid (C.stateAt drawn).draws) = some data
  rest_eq : C.threadAt i (wrote + 1) = some rest
  rest_only : Only BlobsKept rest
  closed_lt : closed < m
  inserted : row (C.stateAt closed).now.seconds ∈ (C.stateAt (closed + 1)).db.objects
  tail_eq : C.threadAt i (closed + 1) = some tail
  tail_only : Only ObjectsKept tail

/-- The closure of a completion leaves the blobs alone, and so does what is left after it. -/
theorem completion_blobsKept (statements : List Statement) (uploadId : String) (reply : Reply) :
    Only BlobsKept (call statements >>= fun _ => removeUploadDir uploadId >>= fun _ =>
      (done reply : StoreProg Reply)) := by
  have hclosure : BlobsKept (closureStep statements) := fun _ => rfl
  refine ((only_perform hclosure).bind fun _ => only_lift _).bind fun _ => ?_
  exact ((aside_removeUploadDir uploadId).mono fun _ _ h => h.2).bind fun _ => only_pure _

theorem completeMultipartUpload_goes {upload : MultipartUpload} {parts : List CompletePart}
    {reply : Reply}
    (hthread : C.threadAt i 0 = some (program P (.completeMultipartUpload upload parts)))
    (hreturned : (C.poolAt m).Returned i reply) :
    Nonempty (CompletionRun P C i upload parts m) := by
  have hgoes : C.Goes AnyStep i 0 (program P (.completeMultipartUpload upload parts)) m
      (done reply) := ⟨hthread, Nat.zero_le m, hreturned, trivial⟩
  simp only [program, replying, completeMultipartUpload, Prog.bind_assoc] at hgoes
  obtain ⟨-, h₁⟩ := hgoes.ensure
  obtain ⟨found, -, -, hwaits, -, h₂⟩ := Course.Goes.perform trivial h₁
  obtain ⟨uploadMeta, hfound, h₃⟩ := h₂.require
  obtain ⟨asked, -, -, -, -, h₄⟩ := Course.Goes.perform trivial h₃
  obtain ⟨status, -, h₅⟩ := h₄.require
  obtain ⟨validated, -, hvalidated, -, hvalidates, h₆⟩ := Course.Goes.perform trivial h₅
  obtain ⟨_, hvalid, h₇⟩ := h₆.lift
  obtain ⟨drawn, hdrawn, -, -, -, h₈⟩ := Course.Goes.perform trivial h₇
  obtain ⟨contents, t₁, -, hreads, h₉⟩ := readParts_goes h₈ (v := validated) (by omega)
  have hany : Only AnyStep (sealUpload P uploadMeta (newVersionId status
      (P.ulid (C.stateAt drawn).draws)) contents.flatten) :=
    (still_sealUpload _ _ _).mono fun _ _ _ => trivial
  obtain ⟨t₂, data, states, -, hsealed, h₁₀⟩ := h₉.passes hany
  obtain ⟨wrote, -, hwrote, -, hwrites, h₁₁⟩ := Course.Goes.perform trivial h₁₀
  obtain ⟨closed, -, hclosed, -, hcloses, h₁₂⟩ := Course.Goes.perform trivial h₁₁
  obtain ⟨_, hok, h₁₃⟩ := h₁₂.lift
  let row := completedRow uploadMeta parts (P.ulid (C.stateAt drawn).draws)
    (newVersionId status (P.ulid (C.stateAt drawn).draws)) contents.flatten.length
    (formatMultipartEtag P (parts.map (·.etag)))
  have hinserted : row (C.stateAt closed).now.seconds ∈ (C.stateAt (closed + 1)).db.objects := by
    rw [hcloses.stateAt]
    rcases completionStatements_cases status uploadMeta.bucket uploadMeta.key row upload.uploadId
      (C.stateAt closed).now (C.stateAt closed).db with ⟨-, hmem, -⟩ | ⟨hfails, -⟩
    · exact hmem
    · exact absurd (ok_of_mapError hok) hfails
  have hholds : ∀ now sseKey, Holds P (row now) sseKey contents.flatten data :=
    fun now => sealUpload_holds (row now) hsealed rfl rfl rfl
  have htail : Only ObjectsKept (removeUploadDir upload.uploadId) :=
    (aside_removeUploadDir _).mono fun _ _ h w => congrArg Db.objects (h.1 w).1
  exact ⟨{
    found, validated, drawn, wrote, closed, uploadMeta, contents, data, row
    versionId := newVersionId status (P.ulid (C.stateAt drawn).draws)
    rest := _
    tail := _
    validated_lt := hvalidated
    waits := hwaits
    found_eq := hfound
    validates := hvalidates
    valid := PartsVerdict.valid_of_ok hvalid
    reads := hreads
    row_eq := rfl
    blob_holds := hholds
    wrote_lt := hwrote
    blob := by
      rw [hwrites.stateAt]
      exact Function.update_self ..
    rest_eq := h₁₁.leaves
    rest_only := completion_blobsKept _ _ _
    closed_lt := hclosed
    inserted := hinserted
    tail_eq := h₁₃.leaves
    tail_only := htail.bind fun _ => only_pure _ }⟩

end Completion

/-! ## Whole schedules -/

/-- What validation lets through has a row with the listed ETag for every part. -/
theorem validateParts_valid {uploadId : String} {db : Db} {parts : List CompletePart}
    (h : validateParts uploadId db parts = .valid) :
    ∀ part ∈ parts, ∃ p ∈ db.parts, p.uploadId = uploadId ∧ p.partNumber = part.partNumber ∧
      trimQuotes p.etag = trimQuotes part.etag := by
  induction parts with
  | nil =>
      intro part hpart
      cases hpart
  | cons first rest ih =>
      unfold validateParts at h
      cases hstored : selectFirst (atPart uploadId first.partNumber) db.parts with
      | none =>
          rw [hstored] at h
          cases h
      | some stored =>
          rw [hstored] at h
          simp only at h
          split at h
          · cases h
          · next hetag =>
              split at h
              · cases h
              · obtain ⟨hmem, hat⟩ := selectFirst_some hstored
                obtain ⟨hid, hnumber⟩ := atPart_iff.mp hat
                intro part hpart
                rcases List.mem_cons.mp hpart with rfl | hpart
                · exact ⟨stored, hmem, hid, hnumber, not_not.mp hetag⟩
                · exact ih h part hpart

section Schedules

variable {w : World} {ops : List Op} {schedule : List (Turn Nat)} {i k m : Nat}
  {upload : MultipartUpload} {parts : List CompletePart}

/-- What is a part upload's step is of the kind of its steps. -/
theorem beside_of_runs (hone : OneCompletion ops i upload parts) {j : Nat} {β : Type}
    {act : World → β × World} (hji : j ≠ i)
    (hruns : (course P w ops schedule).Runs j k (perform act : StoreProg β)) :
    ∃ uploadId partNumber, Beside uploadId partNumber act := by
  obtain ⟨op, hop⟩ := course_op hruns
  obtain ⟨upload', partNumber, body, rfl⟩ := hone.others j op hop hji
  have hkind := hruns.kind (course_thread hop) (uploadPart_beside upload' partNumber body)
    (Nat.zero_le k)
  exact ⟨upload'.uploadId, partNumber, hkind⟩

/-- **What part uploads keep**, and what is left of the completion keeps, holds on. -/
theorem kept_after {I : World → Prop} (hone : OneCompletion ops i upload parts)
    (htick : ∀ event s, I s → I (tickWorld event s)) (hkm : k ≤ m)
    (hbeside : ∀ (uploadId : String) (partNumber : Nat) ⦃β : Type⦄ (act : World → β × World),
      Beside uploadId partNumber act → ∀ s, I s → I (act s).2)
    (hown : ∀ e, k ≤ e → e < m → ∀ ⦃β : Type⦄ (act : World → β × World),
      (course P w ops schedule).Runs i e (perform act : StoreProg β) → ∀ s, I s → I (act s).2)
    (hstart : I ((course P w ops schedule).stateAt k)) :
    I ((course P w ops schedule).stateAt m) := by
  refine Course.kept htick hkm (fun e hke hem j β act hruns he => ?_) hstart
  by_cases hji : j = i
  · subst hji
    exact hown e hke hem act hruns _ he
  · obtain ⟨uploadId, partNumber, hkind⟩ := beside_of_runs hone hji hruns
    exact hbeside uploadId partNumber act hkind _ he

/-- The upload that the completion finds is the one of the start. -/
theorem CompletionRun.found_start (hone : OneCompletion ops i upload parts)
    (run : CompletionRun P (course P w ops schedule) i upload parts m) :
    selectUpload upload.uploadId w.db = some run.uploadMeta := by
  have hsame : ((course P w ops schedule).stateAt run.found).db.uploads = w.db.uploads := by
    refine kept_after (I := fun s => s.db.uploads = w.db.uploads) hone (fun _ _ h => h)
      (Nat.zero_le _) (fun _ _ _ act hact s h => ?_) (fun e _ hlt _ act hruns => ?_) rfl
    · exact (hact s).2.2.1.trans h
    · exact absurd hruns.1 (run.waits e (Nat.zero_le e) hlt)
  have hfound := run.found_eq
  rw [selectUpload, hsame] at hfound
  exact hfound

/-- The id of the new object is of no object of the start. -/
theorem CompletionRun.fresh (hs : (store P).Reachable w) (hone : OneCompletion ops i upload parts)
    (run : CompletionRun P (course P w ops schedule) i upload parts m) :
    ∀ r ∈ w.db.objects,
      r.id ≠ P.ulid ((course P w ops schedule).stateAt run.drawn).draws := by
  have hdraws : w.draws ≤ ((course P w ops schedule).stateAt run.drawn).draws := by
    refine kept_after (I := fun s => w.draws ≤ s.draws) hone (fun _ _ h => h) (Nat.zero_le _)
      (fun _ _ _ act hact s h => h.trans (hact s).1) (fun e _ _ _ act hruns s h => ?_)
      (Nat.le_refl _)
    have hkind := hruns.kind (course_thread hone.completes)
      (completeMultipartUpload_gathers upload parts) (Nat.zero_le e)
    exact h.trans (hkind s).1
  intro r hr
  exact (wellFormed_reachable hs).ids.fresh hdraws hr

/-- **The completion has made the object**, and it is there to the end. -/
theorem CompletionRun.objectMade (hs : (store P).Reachable w)
    (hone : OneCompletion ops i upload parts)
    (run : CompletionRun P (course P w ops schedule) i upload parts m) :
    ObjectMade P w ((course P w ops schedule).stateAt m) upload.uploadId run.contents.flatten := by
  let C := course P w ops schedule
  have hblob : (C.stateAt m).files.objects (P.ulid (C.stateAt run.drawn).draws) =
      some run.data := by
    refine kept_after (I := fun s => s.files.objects (P.ulid (C.stateAt run.drawn).draws) =
      some run.data) hone (fun _ _ h => h) run.wrote_lt (fun _ _ _ act hact s h => ?_)
      (fun e hle _ _ act hruns s h => ?_) run.blob
    · rw [(hact s).2.2.2.1]
      exact h
    · rw [hruns.kind run.rest_eq run.rest_only hle s]
      exact h
  have hrow : run.row (C.stateAt run.closed).now.seconds ∈ (C.stateAt m).db.objects := by
    refine kept_after (I := fun s => run.row (C.stateAt run.closed).now.seconds ∈ s.db.objects)
      hone (fun _ _ h => h) run.closed_lt (fun _ _ _ act hact s h => ?_)
      (fun e hle _ _ act hruns s h => ?_) run.inserted
    · rw [(hact s).2.1]
      exact h
    · rw [hruns.kind run.tail_eq run.tail_only hle s]
      exact h
  have hholds := run.blob_holds (C.stateAt run.closed).now.seconds
  rw [run.row_eq] at hrow hholds
  exact ⟨run.uploadMeta, _, run.data, run.found_start hone, hrow, run.fresh hs hone, rfl, rfl, rfl,
    hblob, hholds⟩

/-- **The completion has read the bodies of completed uploads**, where no other call changes
the files meanwhile. -/
theorem CompletionRun.uploadedAs (hone : OneCompletion ops i upload parts)
    (hnone : ∀ p ∈ w.db.parts, p.uploadId ≠ upload.uploadId)
    (hspared : ListedPartsSpared (course P w ops schedule) ops i upload.uploadId parts)
    (run : CompletionRun P (course P w ops schedule) i upload parts m) :
    List.Forall₂ (UploadedAs P ops ((course P w ops schedule).poolAt m) upload.uploadId) parts
      run.contents := by
  have hparts : List.Forall₂ (fun part content => part ∈ parts ∧
      ReadsPart (course P w ops schedule) i run.validated upload.uploadId part content) parts
      run.contents := List.forall₂_and_left _ _ |>.mpr ⟨fun _ h => h, run.reads⟩
  refine hparts.imp ?_
  intro part content hread
  obtain ⟨hpart, d, file, hvd, hruns, hfile, hcontent⟩ := hread
  obtain ⟨p, hp, hid, hnumber, hetag⟩ := validateParts_valid run.valid part hpart
  obtain ⟨recorded⟩ := recorded_of_mem hone hnone hp hid
  have hsupplies := recorded.supplies
  rw [hid, hnumber] at hsupplies
  have hwritten := recorded.file d (by have := hsupplies.order; omega)
  rw [hid, hnumber] at hwritten
  have hsame := hwritten (hspared part hpart _ _ _ _ d hsupplies run.validates hruns)
  obtain rfl := Option.some.inj (hsame.symm.trans hfile)
  have hcall := recorded.call
  rw [hnumber] at hcall
  have hreturned := Course.threadAt_ended recorded.returned trivial (m := m)
    (by have := hsupplies.order; have := run.validated_lt; omega)
  refine ⟨recorded.j, recorded.upload, recorded.body, recorded.reply, hcall,
    recorded.upload_eq.trans hid, hreturned, ?_, ?_⟩
  · rw [← hcontent]
    exact recorded.read
  · rw [← hcontent, ← recorded.etag_eq]
    exact hetag

/-- **Concurrent part uploads never mix** where the files of the listed parts are spared: a
completion that returns makes an object of the bodies of completed uploads whose MD5s are the
listed ETags, in part order. -/
theorem parts_never_mix (hs : (store P).Reachable w) (hone : OneCompletion ops i upload parts)
    (hnone : ∀ p ∈ w.db.parts, p.uploadId ≠ upload.uploadId)
    (hspared : ListedPartsSpared (course P w ops schedule) ops i upload.uploadId parts) :
    NeverMixes P w ops schedule i upload parts := by
  intro reply hreturned
  have hend : (course P w ops schedule).poolAt schedule.length =
      (calls P w ops).after (callPool P w ops) schedule := Course.poolAt_length
  rw [← hend] at hreturned ⊢
  obtain ⟨run⟩ := completeMultipartUpload_goes (course_thread hone.completes) hreturned
  exact ⟨run.contents, run.uploadedAs hone hnone hspared, run.objectMade hs hone⟩

end Schedules

/-! ## Uploads of one part -/

/-- A bucket with an open upload. -/
def sharedRun : List Op := [.createBucket "docs" {}, .createMultipartUpload "docs" "big" {}]

def sharedWorld : World := (store executablePlatform).after {} sharedRun

/-- What the client knows of the upload. -/
def sharedUpload : MultipartUpload where
  uploadId := "01ARZ3NDEKTSV4RRFFQ69G5FA0"
  bucket := "docs"
  key := "big"
  initiated := 0

/-- The part list of the completion: part 1 as its first upload was answered. -/
def sharedParts : List CompletePart :=
  [{ partNumber := 1, etag := contentEtag executablePlatform [97] }]

/-- An upload of part 1, another upload, and the completion. -/
def sharedOps (partNumber : Nat) : List Op := [
  .uploadPart sharedUpload 1 [.ok [97]],
  .uploadPart sharedUpload partNumber [.ok [98]],
  .completeMultipartUpload sharedUpload sharedParts]

theorem sharedOps_oneCompletion (partNumber : Nat) :
    OneCompletion (sharedOps partNumber) 2 sharedUpload sharedParts where
  completes := rfl
  others j op hop hne := by
    match j with
    | 0 => exact ⟨_, _, _, (Option.some.inj hop).symm⟩
    | 1 => exact ⟨_, _, _, (Option.some.inj hop).symm⟩
    | 2 => exact absurd rfl hne
    | j + 3 => cases hop

theorem sharedWorld_noParts : ∀ p ∈ sharedWorld.db.parts, p.uploadId ≠ sharedUpload.uploadId := by
  decide

/-- The second upload writes while the first does, and both end before the completion. -/
def sideBySide : List (Turn Nat) :=
  (List.replicate 7 [.thread 0, .thread 1]).flatten ++ List.replicate 9 (.thread 2)

/-- **The first upload alone changes the file of part 1** until the completion has read it. -/
theorem sideBySide_spared :
    ListedPartsSpared (course executablePlatform sharedWorld (sharedOps 2) sideBySide) (sharedOps 2) 2
      sharedUpload.uploadId sharedParts := by
  intro part hpart j a b v d hsupplies _ hreads e _ hed k hkj hturn
  obtain rfl := List.mem_singleton.mp hpart
  obtain ⟨upload, body, hop, -⟩ := hsupplies.uploads
  have hd : d < 23 := (List.getElem?_eq_some_iff.mp hreads.1).1
  have hsame : ∀ e < 22, (e < 14 ∧ e % 2 = 0) ∨
      ((course executablePlatform sharedWorld (sharedOps 2) sideBySide).stateAt (e + 1)).files.part
          sharedUpload.uploadId 1 =
        ((course executablePlatform sharedWorld (sharedOps 2) sideBySide).stateAt e).files.part
          sharedUpload.uploadId 1 := by decide +kernel
  rcases hsame e (by omega) with ⟨hlt, heven⟩ | hsame
  · -- Every other turn at first is the first upload's.
    have hfirst : ∀ e < 14, e % 2 = 0 →
        sideBySide[e]?.elim 1 (Turn.rec (motive := fun _ => Nat) (fun k => k) fun _ => 1) = 0 := by
      decide
    have hk := hfirst e hlt heven
    rw [show sideBySide[e]? = some (.thread k) from hturn] at hk
    obtain rfl : k = 0 := hk
    rcases j with _ | _ | _ | j
    · exact absurd rfl hkj
    · cases hop
    · cases hop
    · cases hop
  · exact hsame

/-- Two parts that are uploaded side by side, and the completion after them. -/
theorem parts_never_mix_sideBySide :
    (∃ reply, ((calls executablePlatform sharedWorld (sharedOps 2)).after
      (callPool executablePlatform sharedWorld (sharedOps 2)) sideBySide).Returned 2 reply) ∧
    NeverMixes executablePlatform sharedWorld (sharedOps 2) sideBySide 2 sharedUpload sharedParts :=
  ⟨Pool.exists_returned (by decide +kernel),
    parts_never_mix ⟨sharedRun, rfl⟩ (sharedOps_oneCompletion 2) sharedWorld_noParts
      sideBySide_spared⟩

/-- **The second upload of a part** runs between the validation of the first one's row and the
read of the file. -/
def uploadBetween : List (Turn Nat) :=
  List.replicate 7 (.thread 0) ++ List.replicate 3 (.thread 2) ++ List.replicate 7 (.thread 1) ++
    List.replicate 6 (.thread 2)

/-- The state that the calls end in. -/
def sharedAfter (partNumber : Nat) (schedule : List (Turn Nat)) : World :=
  ((calls executablePlatform sharedWorld (sharedOps partNumber)).after
    (callPool executablePlatform sharedWorld (sharedOps partNumber)) schedule).state

/-- **A completion joins bytes that it has not validated.** -/
theorem completion_mixes_uploads :
    ¬ ∀ s, (store executablePlatform).Reachable s → ∀ ops i upload parts,
      OneCompletion ops i upload parts → (∀ p ∈ s.db.parts, p.uploadId ≠ upload.uploadId) →
        ∀ schedule, NeverMixes executablePlatform s ops schedule i upload parts := by
  intro h
  obtain ⟨reply, hreturned⟩ := Pool.exists_returned (i := 2)
    (c := (calls executablePlatform sharedWorld (sharedOps 1)).after
      (callPool executablePlatform sharedWorld (sharedOps 1)) uploadBetween) (by decide +kernel)
  obtain ⟨contents, huploads, uploadMeta, row, data, -, hrow, -, -, -, -, hdata, hholds⟩ :=
    h sharedWorld ⟨sharedRun, rfl⟩ (sharedOps 1) 2 sharedUpload sharedParts
      (sharedOps_oneCompletion 1) sharedWorld_noParts uploadBetween reply hreturned
  have hobject : ∀ r ∈ (sharedAfter 1 uploadBetween).db.objects, r.encryptionAlgorithm = none ∧
      (sharedAfter 1 uploadBetween).files.objects r.id = some [98] := by decide +kernel
  obtain ⟨hplain, hblob⟩ := hobject row hrow
  obtain rfl : [98] = data := Option.some.inj (hblob.symm.trans hdata)
  have hcontent := hholds none
  rw [Holds, hplain] at hcontent
  cases huploads with
  | @cons _ content _ _ hfirst hrest =>
      cases hrest
      obtain ⟨j, upload, body, _, hop, -, -, hread, hetag⟩ := hfirst
      rcases j with _ | _ | _ | j
      · cases hop
        cases hread
        cases hcontent
      · cases hop
        cases hread
        revert hetag
        decide
      · cases hop
      · cases hop

end Strix

import Mathlib.Data.List.Infix
import Strix.BucketDeletion
import Strix.LockCalls
import Strix.ThreadSteps
import Strix.UploadRows

/-!
# Versioning is switched on while calls run

A writer and a delete without a version id read the status of the bucket first
and act on it in a closure much later.  One that has read the status before
`set_bucket_versioning` removes the rows of its key although the bucket is
versioned by then.

* `enabled_keeps_rows`: where no such call still comes to its closure on a key
  that has rows, no step removes a row while the bucket is versioned.
-/

namespace Strix

open AtomicProgram AtomicProgram.Prog MachineRuns RowTable

/-- The call sets the versioning of the bucket, writes into it, or deletes from it
without a version id. -/
def Op.ActsIn (w : World) (bucket : String) : Op → Prop
  | .setBucketVersioning b _ => b = bucket
  | .putObject b _ _ _ => b = bucket
  | .copyObject _ _ b _ _ => b = bucket
  | .completeMultipartUpload upload _ =>
      ∀ u ∈ w.db.uploads, u.uploadId = upload.uploadId → u.bucket = bucket
  | .deleteObjectVersion b _ none => b = bucket
  | _ => False

/-- **Versioning has been switched on:** a `set_bucket_versioning` that enables it has
returned, and the bucket is enabled. -/
def SwitchedOn (bucket : String) (ops : List Op) (c : Pool World Error Reply) : Prop :=
  (∃ j reply, ops[j]? = some (.setBucketVersioning bucket true) ∧ c.Returned j reply) ∧
    versioningStatus bucket c.state.db = some .enabled

section Schedules

variable (P : Platform) (w : World) (ops : List Op)

/-- **While versioning is switched on, no step removes a row.** -/
def EnabledKeepsRows (bucket : String) (schedule : List (Turn Nat)) : Prop :=
  ∀ before i rest id, schedule = before ++ .thread i :: rest →
    SwitchedOn bucket ops ((calls P w ops).after (callPool P w ops) before) →
    ((calls P w ops).after (callPool P w ops) before).state.hasId id →
    ((calls P w ops).after (callPool P w ops) (before ++ [.thread i])).state.hasId id

/-- In one of its turns the thread has read this status of the bucket. -/
def HasRead (before : List (Turn Nat)) (i : Nat) (bucket : String) (status : VersioningStatus) :
    Prop :=
  ∃ earlier rest, before = earlier ++ .thread i :: rest ∧
    ((calls P w ops).after (callPool P w ops) earlier).Before i (query (versioningStatus bucket)) ∧
    versioningStatus bucket ((calls P w ops).after (callPool P w ops) earlier).state.db = some status

/-- The thread is about to run the closure of a writer on the key, or the DELETE of a key. -/
def ClosesOn (c : Pool World Error Reply) (i : Nat) (bucket key : String) : Prop :=
  ∃ statements, c.Before i (execute statements) ∧
    ((∃ row, WritesRow bucket key row statements) ∨ statements = [deleteObjects (atKey bucket key)])

/-- **No outdated closure comes to rows:** while versioning is switched on, no call that has
read another status of the bucket runs its closure on a key that has rows. -/
def NoOutdatedClosure (bucket : String) (schedule : List (Turn Nat)) : Prop :=
  ∀ before i rest key status, schedule = before ++ .thread i :: rest →
    SwitchedOn bucket ops ((calls P w ops).after (callPool P w ops) before) →
    HasRead P w ops before i bucket status → status ≠ .enabled →
    ClosesOn ((calls P w ops).after (callPool P w ops) before) i bucket key →
    ∀ r ∈ ((calls P w ops).after (callPool P w ops) before).state.db.objects,
      atKey bucket key r = false

end Schedules

/-! ## Steps that keep the rows -/

/-- Every row is there after the step, perhaps assigned to. -/
def KeepsIds ⦃β : Type⦄ (act : World → β × World) : Prop :=
  ∀ w id, w.hasId id → (act w).2.hasId id

/-- **The closure that a call on a key builds from a status.** -/
inductive BuiltFor (bucket key : String) (status : VersioningStatus) :
    ∀ ⦃β : Type⦄, (World → β × World) → Prop
  | single (row : DateTime → ObjectRow) :
      BuiltFor bucket key status (closureStep [makeRoom status bucket key, insertObject row])
  | multipart (row : DateTime → ObjectRow) (uploadId : String) :
      BuiltFor bucket key status (closureStep [makeRoom status bucket key, insertObject row,
        deleteParts (·.uploadId == uploadId), deleteUpload uploadId])
  | delete (h : status = .unversioned) :
      BuiltFor bucket key status (closureStep [deleteObjects (atKey bucket key)])

section Keeps

variable {P : Platform} {β : Type} {act : World → β × World} {bucket key id : String}
  {status : VersioningStatus}

theorem Quiet.keepsIds (h : Quiet act) : KeepsIds act := by
  intro w id hid
  unfold World.hasId
  rw [(h w).1]
  exact hid

theorem quiet_keepsIds {α : Type} {p : StoreProg α} (hp : Only Quiet p) : Only KeepsIds p :=
  hp.mono fun _ _ h => h.keepsIds

/-- Room for a row is made without removing one, when the status is Enabled or the key
has none. -/
theorem roomMade_keeps {rows : List ObjectRow}
    (h : status = .enabled ∨ ∀ r ∈ rows, atKey bucket key r = false) {r : ObjectRow}
    (hr : r ∈ rows) : ∃ r' ∈ roomMade status bucket key rows, r'.id = r.id := by
  by_cases henabled : status = .enabled
  · subst henabled
    obtain ⟨r', hr', hsame, -⟩ :=
      updateRows_forth (atKey bucket key) ObjectRow.demote hr (.demote r)
    exact ⟨r', hr', hsame.id_eq⟩
  · have hnone := h.resolve_left henabled
    refine ⟨r, ?_, rfl⟩
    rw [roomMade, if_neg henabled, deleteRows_eq_self hnone]
    exact hr

/-- **What such a closure keeps:** the rows, when it was built for Enabled or comes to a key
without rows. -/
theorem BuiltFor.keeps (hact : BuiltFor bucket key status act) {w : World}
    (h : status = .enabled ∨ ∀ r ∈ w.db.objects, atKey bucket key r = false)
    (hid : w.hasId id) : (act w).2.hasId id := by
  obtain ⟨r, hr, rfl⟩ := hid
  have hcloses : ∀ row rest, (∀ db, (runStatements rest w.now db).2.buckets = db.buckets ∧
      (runStatements rest w.now db).2.objects = db.objects) →
      (closureStep (makeRoom status bucket key :: insertObject row :: rest) w).2.hasId r.id := by
    intro row rest hrest
    obtain ⟨r', hr', hsame⟩ := roomMade_keeps h hr
    obtain ⟨-, hobjects⟩ := makeRoom_insert_cases hrest status bucket key row w.db
    refine ⟨r', ?_, hsame⟩
    rcases hobjects with hobjects | hobjects
    · exact hobjects ▸ hr'
    · exact hobjects ▸ mem_insertRow.mpr (Or.inl hr')
  cases hact with
  | single row => exact hcloses row [] fun _ => ⟨rfl, rfl⟩
  | multipart row uploadId => exact hcloses row _ fun db => deletesUpload_objects uploadId w.now db
  | delete hunversioned =>
      have hnone := h.resolve_left (by simp [hunversioned])
      refine ⟨r, ?_, rfl⟩
      exact mem_deleteRows.mpr ⟨hr, hnone r hr⟩

/-- The closure of a delete marker takes flags away, no rows. -/
theorem marks_keepsIds (bucket key : String) (n : Nat) :
    KeepsIds (closureStep (markStatements P bucket key n)) := by
  intro w id hid
  obtain ⟨r, hr, rfl⟩ := hid
  obtain ⟨r', hr', hsame, -⟩ :=
    updateRows_forth (atLatest bucket key) ObjectRow.demote hr (.demote r)
  exact ⟨r', insertObject_keeps _ _ hr', hsame.id_eq⟩

theorem call_keepsIds {statements : List Statement} (h : KeepsIds (closureStep statements)) :
    Only KeepsIds (call statements) :=
  (only_perform h).bind fun _ => only_lift _

end Keeps

/-! ## What a call comes to -/

/-- In one of its turns a program reads this status of the bucket. -/
def Reads (p : StoreProg Reply) (states : List World) (bucket : String)
    (status : VersioningStatus) : Prop :=
  ∃ s, p.Takes states (fun w => (versioningStatus bucket w.db, w)) s ∧
    versioningStatus bucket s.db = some status

section Comes

variable {P : Platform} {α β : Type} {p : StoreProg α} {f : α → StoreProg Reply}
  {states : List World} {act : World → β × World} {bucket key : String}

/-- What comes after a program that keeps the rows. -/
theorem comes_past (hp : Only KeepsIds p) (h : (p >>= f).Comes states act) :
    KeepsIds act ∨ ∃ left right a, states = left ++ right ∧ p.Ends left a ∧
      (p >>= f).feed left = f a ∧ (f a).Comes right act := by
  rcases h.bind with hown | hlater
  · exact Or.inl (hp.comes hown)
  · exact Or.inr hlater

/-- The same, where the turns of that program do not matter. -/
theorem comes_skip {R : Prop} (hp : Only Quiet p) (h : (p >>= f).Comes states act)
    (hrest : ∀ a right, (f a).Comes right act → KeepsIds act ∨ R) : KeepsIds act ∨ R := by
  rcases comes_past (quiet_keepsIds hp) h with hkeeps | ⟨left, right, a, -, -, -, hcomes⟩
  · exact Or.inl hkeeps
  · exact hrest a right hcomes

/-- A call that reads the status of a bucket goes on with it. -/
theorem comes_status {whole : StoreProg Reply} {left right : List World} {e : Error}
    {g : VersioningStatus → StoreProg Reply}
    (hwhole : whole.feed left =
      query (versioningStatus bucket) >>= fun selected => require selected e >>= g)
    (h : (query (versioningStatus bucket) >>= fun selected => require selected e >>= g).Comes
      right act) :
    KeepsIds act ∨ ∃ status rest, Reads whole (left ++ right) bucket status ∧
      (g status).Comes rest act := by
  rcases comes_past (quiet_keepsIds (quiet_query _)) h with
    hkeeps | ⟨turns, rest, selected, rfl, hread, -, hcomes⟩
  · exact Or.inl hkeeps
  · obtain ⟨s, later, rfl, hstatus⟩ := hread.of_observe
    rcases comes_past (quiet_keepsIds (only_require _ _)) hcomes with
      hkeeps | ⟨turns', rest', status, rfl, hrequired, -, hcomes⟩
    · exact Or.inl hkeeps
    · have hreads : Reads whole (left ++ (s :: later ++ (turns' ++ rest'))) bucket status :=
        ⟨s, takes_first.later hwhole, hstatus.trans hrequired.of_require⟩
      exact Or.inr ⟨status, rest', hreads, hcomes⟩

/-- A call that comes to the closure it has built, and keeps the rows after it. -/
theorem comes_built {statements : List Statement} {g : Unit → StoreProg Reply}
    {status : VersioningStatus} (hg : ∀ u, Only KeepsIds (g u))
    (hbuilt : BuiltFor bucket key status (closureStep statements))
    (h : (call statements >>= g).Comes states act) :
    KeepsIds act ∨ ∃ key, BuiltFor bucket key status act := by
  cases states with
  | nil =>
      obtain ⟨next, hnext⟩ := h
      cases hnext
      exact Or.inr ⟨key, hbuilt⟩
  | cons s states => exact Or.inl (((only_lift _).bind hg).comes h)

/-- **A call has come to a closure that it has built from the status it has read.** -/
def ComesBuilt (whole : StoreProg Reply) (states : List World) (bucket : String)
    (act : World → β × World) : Prop :=
  ∃ key status, Reads whole states bucket status ∧ BuiltFor bucket key status act

/-- What a call that reads the status first comes to. -/
theorem comesBuilt_of_status {whole : StoreProg Reply} {left right : List World} {e : Error}
    {g : VersioningStatus → StoreProg Reply}
    (hwhole : whole.feed left =
      query (versioningStatus bucket) >>= fun selected => require selected e >>= g)
    (h : (query (versioningStatus bucket) >>= fun selected => require selected e >>= g).Comes
      right act)
    (hg : ∀ status rest, (g status).Comes rest act →
      KeepsIds act ∨ ∃ key, BuiltFor bucket key status act) :
    KeepsIds act ∨ ComesBuilt whole (left ++ right) bucket act := by
  rcases comes_status hwhole h with hkeeps | ⟨status, rest, hreads, hcomes⟩
  · exact Or.inl hkeeps
  · rcases hg status rest hcomes with hkeeps | ⟨key, hbuilt⟩
    · exact Or.inl hkeeps
    · exact Or.inr ⟨key, status, hreads, hbuilt⟩

theorem putObject_comes {body : ObjectBody} {opts : PutObjectOpts}
    (h : (program P (.putObject bucket key body opts)).Comes states act) :
    KeepsIds act ∨ ComesBuilt (program P (.putObject bucket key body opts)) states bucket act := by
  simp only [program, replying, putObject, Prog.bind_assoc] at h ⊢
  refine comesBuilt_of_status (feed_nil _) h fun status rest h => ?_
  refine comes_skip quiet_draw h fun n _ h => ?_
  refine comes_skip (only_lift _) h fun _ _ h => ?_
  refine comes_skip (only_lift _) h fun _ _ h => ?_
  refine comes_skip (quiet_sealContent _ _ _ _ _ _) h fun _ _ h => ?_
  refine comes_skip (quiet_writeBlob _ _) h fun _ _ h => ?_
  exact comes_built (fun _ => only_pure _) (.single _) h

theorem copyObject_comes {srcBucket srcKey : String} {opts : CopyObjectOpts}
    (h : (program P (.copyObject srcBucket srcKey bucket key opts)).Comes states act) :
    KeepsIds act ∨
      ComesBuilt (program P (.copyObject srcBucket srcKey bucket key opts)) states bucket act := by
  simp only [program, replying, copyObject, Prog.bind_assoc] at h ⊢
  rcases comes_past (quiet_keepsIds (quiet_headObject _ _)) h with
    hkeeps | ⟨first, rest, srcInfo, rfl, -, hfirst, h⟩
  · exact Or.inl hkeeps
  rcases comes_past (quiet_keepsIds (quiet_query _)) h with
    hkeeps | ⟨second, rest, current, rfl, -, hsecond, h⟩
  · exact Or.inl hkeeps
  rcases comes_past (quiet_keepsIds (only_require _ _)) h with
    hkeeps | ⟨third, rest, src, rfl, -, hthird, h⟩
  · exact Or.inl hkeeps
  rw [← List.append_assoc, ← List.append_assoc]
  refine comesBuilt_of_status ?_ h fun status rest h => ?_
  · rw [feed_append, feed_append, hfirst, hsecond, hthird]
  · refine comes_skip quiet_draw h fun n _ h => ?_
    refine comes_skip (quiet_copyBlob _ _ _ _ _ _ _ _) h fun _ _ h => ?_
    refine comes_skip quiet_clock h fun _ _ h => ?_
    exact comes_built (fun _ => only_pure _) (.single _) h

theorem completeMultipartUpload_comes {w : World} {upload : MultipartUpload}
    {parts : List CompletePart}
    (hw : ∀ u ∈ w.db.uploads, u.uploadId = upload.uploadId → u.bucket = bucket)
    (hstates : ∀ s ∈ states, ∀ u ∈ s.db.uploads, u ∈ w.db.uploads)
    (h : (program P (.completeMultipartUpload upload parts)).Comes states act) :
    KeepsIds act ∨
      ComesBuilt (program P (.completeMultipartUpload upload parts)) states bucket act := by
  simp only [program, replying, completeMultipartUpload, Prog.bind_assoc] at h ⊢
  rcases comes_past (quiet_keepsIds (only_ensure _ _)) h with
    hkeeps | ⟨first, rest, _, rfl, -, hfirst, hsecond⟩
  · exact Or.inl hkeeps
  rcases comes_past (quiet_keepsIds (quiet_query _)) hsecond with
    hkeeps | ⟨second, rest, selected, rfl, hread, hfound, hthird⟩
  · exact Or.inl hkeeps
  rcases comes_past (quiet_keepsIds (only_require _ _)) hthird with
    hkeeps | ⟨third, rest, uploadMeta, rfl, hrequired, hmeta, hstatus⟩
  · exact Or.inl hkeeps
  -- The row it has found is a row of the start, so its bucket is this one.
  obtain ⟨s, later, rfl, hselected⟩ := hread.of_observe
  obtain ⟨hmem, hid⟩ := selectFirst_some (hselected.trans hrequired.of_require)
  have hbucket : uploadMeta.bucket = bucket := by
    have hstart := hstates s (by simp) uploadMeta hmem
    exact hw uploadMeta hstart (by simpa using hid)
  subst hbucket
  rw [← List.append_assoc, ← List.append_assoc]
  refine comesBuilt_of_status ?_ hstatus fun status rest h => ?_
  · rw [feed_append, feed_append, hfirst, hfound, hmeta]
  · refine comes_skip (quiet_query _) h fun _ _ h => ?_
    refine comes_skip (only_lift _) h fun _ _ h => ?_
    refine comes_skip quiet_draw h fun n _ h => ?_
    refine comes_skip (quiet_readParts _ _) h fun _ _ h => ?_
    refine comes_skip (quiet_sealUpload _ _ _) h fun _ _ h => ?_
    refine comes_skip (quiet_writeBlob _ _) h fun _ _ h => ?_
    refine comes_built (fun _ => ?_) (.multipart _ _) h
    exact quiet_keepsIds ((quiet_removeUploadDir _).bind fun _ => only_pure _)

theorem deleteObjectVersion_comes
    (h : (program P (.deleteObjectVersion bucket key none)).Comes states act) :
    KeepsIds act ∨
      ComesBuilt (program P (.deleteObjectVersion bucket key none)) states bucket act := by
  simp only [program, replying, deleteObjectVersion, Prog.bind_assoc] at h ⊢
  refine comesBuilt_of_status (feed_nil _) h fun status rest h => ?_
  refine comes_skip (quiet_objectDeleteLocked _ _ _) h fun _ _ h => ?_
  refine comes_skip (only_ensure _ _) h fun _ _ h => ?_
  by_cases hunversioned : status = .unversioned
  · simp only [hunversioned, if_true, hardDeleteKey, Prog.bind_assoc] at h
    refine comes_skip (quiet_query _) h fun objectIds _ h => ?_
    refine comes_built (fun _ => ?_) (.delete hunversioned) h
    exact quiet_keepsIds ((quiet_removeBlobs _).bind fun _ => only_pure _)
  · simp only [hunversioned, if_false, createDeleteMarker, Prog.bind_assoc] at h
    refine comes_skip quiet_draw h fun n _ h => ?_
    have hmarks : Only KeepsIds (call (markStatements P bucket key n)) :=
      call_keepsIds (marks_keepsIds bucket key n)
    exact Or.inl ((hmarks.bind fun _ => only_pure _).comes h)

/-- Setting the versioning of a bucket leaves the objects alone. -/
theorem setBucketVersioning_keepsIds (enabled : Bool) :
    Only KeepsIds (program P (.setBucketVersioning bucket enabled)) := by
  simp only [program, replying, setBucketVersioning, Prog.bind_assoc]
  refine (only_perform ?_).bind fun _ => (only_ensure _ _).bind fun _ => only_pure _
  intro w id hid
  exact hid

/-- **A call that comes to a step that removes rows** has built it from the status that it
has read in one of its turns. -/
theorem actsIn_comes {w : World} {op : Op} (hop : op.ActsIn w bucket)
    (hstates : ∀ s ∈ states, ∀ u ∈ s.db.uploads, u ∈ w.db.uploads)
    (h : (program P op).Comes states act) :
    KeepsIds act ∨ ComesBuilt (program P op) states bucket act := by
  cases op with
  | setBucketVersioning b enabled => exact Or.inl ((setBucketVersioning_keepsIds enabled).comes h)
  | putObject b key body opts =>
      obtain rfl : b = bucket := hop
      exact putObject_comes h
  | copyObject srcBucket srcKey b dstKey opts =>
      obtain rfl : b = bucket := hop
      exact copyObject_comes h
  | completeMultipartUpload upload parts => exact completeMultipartUpload_comes hop hstates h
  | deleteObjectVersion b key versionId =>
      cases versionId with
      | some vid => exact hop.elim
      | none =>
          obtain rfl : b = bucket := hop
          exact deleteObjectVersion_comes h
  | _ => exact hop.elim

end Comes

/-! ## The uploads of the start -/

/-- Steps that start no upload. -/
inductive UploadSteps : Automaton World Unit
  | mk {β : Type} {act : World → β × World} (h : NoNewUpload act) :
      UploadSteps () act fun _ => ()

section Uploads

variable {P : Platform} {w : World} {ops : List Op} {bucket : String}

theorem upload_free : Free (fun (_ : StoreProg Reply) (_ : Unit) => True) () :=
  ⟨fun _ _ _ => trivial, fun _ => trivial⟩

theorem upload_quiet ⦃β : Type⦄ (act : World → β × World) (h : Quiet act) :
    UploadSteps () act fun _ => () := .mk h.noNewUpload

/-- No step of these calls starts an upload. -/
theorem actsIn_uploadStaged {op : Op} (hop : op.ActsIn w bucket) :
    (program P op).Staged UploadSteps (fun _ _ => True) () := by
  have hprepares : Prepares UploadSteps (fun _ _ => True) () fun _ => () :=
    .of_quiet upload_quiet upload_free
  have hcall : ∀ {statements : List Statement} {g : Unit → StoreProg Reply},
      (∀ statement ∈ statements, KeepsOldUploads statement) →
      (g ()).Staged UploadSteps (fun _ _ => True) () →
      (call statements >>= g).Staged UploadSteps (fun _ _ => True) () := by
    intro statements g hstatements hg
    exact staged_call _ trivial (.mk (closureStep_noNewUpload hstatements)) (fun _ => trivial) hg
  cases op with
  | setBucketVersioning b enabled =>
      simp only [program, replying, setBucketVersioning, Prog.bind_assoc]
      refine staged_perform_bind _ trivial (.mk fun w u hu => hu) fun _ => ?_
      exact (only_ensure _ _).staged_bind upload_quiet upload_free fun _ => trivial
  | putObject b key body opts =>
      refine putObject_staged hprepares b key body opts fun n status row response hrow => ?_
      exact hcall (writesRow_keepsOldUploads (.single status)) trivial
  | copyObject srcBucket srcKey b dstKey opts =>
      refine copyObject_staged hprepares srcBucket srcKey b dstKey opts
        fun n status row response hrow => ?_
      exact hcall (writesRow_keepsOldUploads (.single status)) trivial
  | completeMultipartUpload upload parts =>
      refine completeMultipartUpload_staged hprepares upload parts
        fun n status b key row response hrow => ?_
      refine hcall (writesRow_keepsOldUploads (.multipart status upload.uploadId)) ?_
      exact (quiet_removeUploadDir _).staged_bind upload_quiet upload_free fun _ => trivial
  | deleteObjectVersion b key versionId =>
      cases versionId with
      | some vid => exact hop.elim
      | none =>
          simp only [program, replying, deleteObjectVersion, Prog.bind_assoc]
          refine (quiet_query _).staged_bind upload_quiet upload_free fun _ => ?_
          refine (only_require _ _).staged_bind upload_quiet upload_free fun status => ?_
          refine (quiet_objectDeleteLocked _ _ _).staged_bind upload_quiet upload_free fun _ => ?_
          refine (only_ensure _ _).staged_bind upload_quiet upload_free fun _ => ?_
          by_cases hunversioned : status = .unversioned
          · simp only [hunversioned, if_true, hardDeleteKey, Prog.bind_assoc]
            refine (quiet_query _).staged_bind upload_quiet upload_free fun _ => ?_
            refine hcall ?_ ?_
            · have hdelete : KeepsOldUploads (deleteObjects (atKey b key)) :=
                keepsOldUploads_of_eq fun _ _ _ hok => by cases hok; rfl
              simpa using hdelete
            · exact (quiet_removeBlobs _).staged_bind upload_quiet upload_free fun _ => trivial
          · simp only [hunversioned, if_false, createDeleteMarker, Prog.bind_assoc]
            refine quiet_draw.staged_bind upload_quiet upload_free fun n => ?_
            refine hcall ?_ trivial
            have hdemote : KeepsOldUploads (updateObjects (atLatest b key) ObjectRow.demote) :=
              keepsOldUploads_of_eq fun _ _ _ hok => by cases hok; rfl
            simp [hdemote, insertObject_keepsOldUploads]
  | _ => exact hop.elim

/-- **Every upload of the schedule is one of the start.** -/
theorem uploads_after (hops : ∀ op ∈ ops, op.ActsIn w bucket) (schedule : List (Turn Nat)) :
    ∀ u ∈ ((calls P w ops).after (callPool P w ops) schedule).state.db.uploads,
      u ∈ w.db.uploads := by
  have hthreads : KeptByThreads UploadSteps (fun (_ : StoreProg Reply) _ => True)
      (fun _ s => ∀ u ∈ s.db.uploads, u ∈ w.db.uploads)
      fun (_ : Pool World Error Reply) (_ : Turn Nat) => True := by
    intro c stages i β act t after hstep _ hJ u hu
    cases hstep.allowed with
    | mk hact => exact hJ u (hact c.state u hu)
  have hworld : KeptByWorld tickWorld
      (fun (_ : List Unit) s => ∀ u ∈ s.db.uploads, u ∈ w.db.uploads) :=
    fun _ _ _ h => h
  obtain ⟨stages, -, hJ⟩ := staged_after hthreads hworld
    ⟨_, callPool_stagedBy P fun op hmem => actsIn_uploadStaged (hops op hmem), fun u hu => hu⟩
    (Machine.allSteps_of_forall (M := calls P w ops) (fun _ _ => trivial) _ schedule)
  exact hJ

end Uploads

/-! ## Whole schedules -/

section Schedules

variable {P : Platform} {w : World} {ops : List Op} {bucket key : String} {i : Nat}
  {before : List (Turn Nat)}

/-- **A call in a schedule** is its program, fed with the states of its turns. -/
theorem calls_thread (before : List (Turn Nat)) :
    ((calls P w ops).after (callPool P w ops) before).threads[i]? = ops[i]?.map fun op =>
      (program P op).feed ((callPool P w ops).turnsOf tickWorld i before) := by
  have hstart : (callPool P w ops).threads[i]? = ops[i]?.map (program P) := List.getElem?_map
  refine (threads_after before).trans ?_
  rw [hstart, Option.map_map]
  rfl

/-- The status that a call reads in its turns, it reads in the schedule. -/
theorem hasRead_of_reads {op : Op} {status : VersioningStatus} (hop : ops[i]? = some op)
    (h : Reads (program P op) ((callPool P w ops).turnsOf tickWorld i before) bucket status) :
    HasRead P w ops before i bucket status := by
  obtain ⟨s, htakes, hstatus⟩ := h
  have hthread : (callPool P w ops).threads[i]? = some (program P op) := by
    simp [callPool, hop]
  obtain ⟨earlier, rest, hsplit, hstate, hbefore, -⟩ : ∃ earlier rest,
      before = earlier ++ .thread i :: rest ∧
      ((calls P w ops).after (callPool P w ops) earlier).state = s ∧
      ((calls P w ops).after (callPool P w ops) earlier).Before i
        (query (versioningStatus bucket)) ∧ _ := htakes.turn hthread
  exact ⟨earlier, rest, hsplit, hbefore, by rw [hstate, hstatus]⟩

/-- The states of a call's turns have the uploads of the start only. -/
theorem turnsOf_uploads (hops : ∀ op ∈ ops, op.ActsIn w bucket) :
    ∀ s ∈ (callPool P w ops).turnsOf tickWorld i before, ∀ u ∈ s.db.uploads, u ∈ w.db.uploads := by
  intro s hs
  obtain ⟨earlier, rest, -, hstate⟩ : ∃ earlier rest, before = earlier ++ .thread i :: rest ∧
      ((calls P w ops).after (callPool P w ops) earlier).state = s := mem_turnsOf hs
  rw [← hstate]
  exact uploads_after hops earlier

/-- The closure that a call is about to run. -/
theorem closesOn_of_builtFor {β : Type} {c : Pool World Error Reply} {act : World → β × World}
    {next : β → StoreProg Reply} {status : VersioningStatus}
    (hthread : c.threads[i]? = some (.step act next)) (h : BuiltFor bucket key status act) :
    ClosesOn c i bucket key := by
  cases h with
  | single row => exact ⟨_, ⟨next, hthread⟩, Or.inl ⟨row, .single status⟩⟩
  | multipart row uploadId => exact ⟨_, ⟨next, hthread⟩, Or.inl ⟨row, .multipart status uploadId⟩⟩
  | delete hunversioned => exact ⟨_, ⟨next, hthread⟩, Or.inr rfl⟩

/-- **Enabling versioning takes effect at once**, however the calls interleave, where no
call that has read another status still comes to its closure on a key that has rows. -/
theorem enabled_keeps_rows {schedule : List (Turn Nat)}
    (hops : ∀ op ∈ ops, op.ActsIn w bucket)
    (hguard : NoOutdatedClosure P w ops bucket schedule) :
    EnabledKeepsRows P w ops bucket schedule := by
  intro before i rest id hsplit hon hthere
  rw [Machine.after_append]
  show (((calls P w ops).after (callPool P w ops) before).turn tickWorld
    (.thread i)).state.hasId id
  rcases turn_thread_cases tickWorld ((calls P w ops).after (callPool P w ops) before) i with
    hsame | ⟨β, act, next, hp, hturn⟩
  · rwa [hsame]
  · have hthread := hp
    rw [calls_thread] at hthread
    obtain ⟨op, hop, hfeed⟩ := Option.map_eq_some_iff.mp hthread
    have hcomes := actsIn_comes (hops op (List.mem_of_getElem? hop)) (turnsOf_uploads hops)
      ⟨next, hfeed⟩
    rw [hturn]
    rcases hcomes with hkeeps | ⟨key, status, hreads, hbuilt⟩
    · exact hkeeps _ id hthere
    · refine hbuilt.keeps ?_ hthere
      by_cases henabled : status = .enabled
      · exact Or.inl henabled
      · have hread := hasRead_of_reads hop hreads
        have hcloses := closesOn_of_builtFor hp hbuilt
        exact Or.inr (hguard before i rest key status hsplit hon hread henabled hcloses)

end Schedules

/-! ## A put, and the switch -/

/-- A bucket without versioning that holds an object. -/
def unversionedRun : List Op := [.createBucket "docs" {}, .putObject "docs" "k" [.ok [97]] {}]

def unversionedWorld : World := (store executablePlatform).after {} unversionedRun

/-- Versioning is enabled while the object is written again. -/
def switchAndPut : List Op :=
  [.setBucketVersioning "docs" true, .putObject "docs" "k" [.ok [98]] {}]

theorem switchAndPut_ops (w : World) : ∀ op ∈ switchAndPut, op.ActsIn w "docs" := by
  intro op hop
  simp only [switchAndPut, List.mem_cons, List.not_mem_nil, or_false] at hop
  rcases hop with rfl | rfl <;> rfl

/-- The switch, and then a put that runs alone. -/
def switchFirst : List (Turn Nat) := [.thread 0, .thread 1, .thread 1, .thread 1, .thread 1]

/-- A put that begins after the switch reads Enabled. -/
theorem switchFirst_guarded :
    NoOutdatedClosure executablePlatform unversionedWorld switchAndPut "docs" switchFirst := by
  intro before i rest key status hsplit _ hread hne _
  obtain ⟨earlier, later, rfl, -, hstatus⟩ := hread
  cases earlier with
  | nil =>
      -- The only turn before the switch is the switch, and it has no other.
      obtain ⟨hturn, hlater⟩ := List.cons.inj hsplit
      obtain rfl := Turn.thread.inj hturn
      have hmem : Turn.thread 0 ∈ switchFirst.tail := by
        rw [show switchFirst.tail = later ++ .thread 0 :: rest from hlater]
        simp
      simp [switchFirst] at hmem
  | cons turn earlier =>
      rw [List.append_assoc] at hsplit
      obtain ⟨rfl, hlater⟩ := List.cons.inj hsplit
      have hinit : earlier ∈ switchFirst.tail.inits :=
        List.mem_inits _ _ |>.mpr ⟨_, hlater.symm⟩
      have hon : ∀ e ∈ switchFirst.tail.inits, versioningStatus "docs"
          ((calls executablePlatform unversionedWorld switchAndPut).after
            (callPool executablePlatform unversionedWorld switchAndPut)
              (.thread 0 :: e)).state.db = some .enabled := by decide
      rw [hon earlier hinit] at hstatus
      exact absurd (Option.some.inj hstatus).symm hne

theorem enabled_keeps_rows_switchFirst :
    EnabledKeepsRows executablePlatform unversionedWorld switchAndPut "docs" switchFirst :=
  enabled_keeps_rows (switchAndPut_ops _) switchFirst_guarded

/-- The put up to its closure, the switch, and the closure. -/
def switchBetween : List (Turn Nat) := [.thread 1, .thread 1, .thread 1, .thread 0, .thread 1]

/-- **A put that has read Unversioned removes the old object** after the bucket has been
versioned. -/
theorem outdated_put_removes :
    ¬ ∀ s, (store executablePlatform).Reachable s → ∀ (ops : List Op) (bucket : String),
      (∀ op ∈ ops, op.ActsIn s bucket) → ∀ schedule,
        EnabledKeepsRows executablePlatform s ops bucket schedule := by
  intro h
  have hkeeps := h unversionedWorld ⟨unversionedRun, rfl⟩ switchAndPut "docs" (switchAndPut_ops _)
    switchBetween switchBetween.dropLast 1 [] "01ARZ3NDEKTSV4RRFFQ69G5FA0" rfl
  obtain ⟨reply, hreturned⟩ := Pool.exists_returned (i := 0)
    (c := (calls executablePlatform unversionedWorld switchAndPut).after
      (callPool executablePlatform unversionedWorld switchAndPut) switchBetween.dropLast)
    (by decide)
  have hgone := hkeeps ⟨⟨0, reply, rfl, hreturned⟩, by decide⟩ (by decide)
  exact absurd hgone (by decide)

end Strix

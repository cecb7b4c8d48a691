import Strix.AtomicProgram
import Strix.RowTable
import Strix.StoreCrypto

/-!
# The store's SQL and file operations

One database closure is one atomic step.  A closure that reads is a function
of the tables; a closure that writes is a list of statements, run in order
outside any transaction: a statement that fails ends the closure and what the
statements before it did stays.  Inserts check the primary key and the foreign
key.  Each file operation is an atomic step of its own.

* `runStatements_cons_ok`: a closure goes on after a statement that succeeds;
* `insertObject_ok`: inserting under a fresh id into an existing bucket works.
-/

namespace Strix

open AtomicProgram AtomicProgram.Prog RowTable

/-- The programs of the store. -/
abbrev StoreProg (α : Type) := Prog World Error α

inductive SqlError
  | uniqueConstraint (column : String)
  | foreignKeyConstraint
  /-- A fault of the database itself: a full disk, a failed read or write. -/
  | fault (message : String)
  deriving DecidableEq, Repr

def SqlError.message : SqlError → String
  | uniqueConstraint column => "UNIQUE constraint failed: " ++ column
  | foreignKeyConstraint => "FOREIGN KEY constraint failed"
  | fault message => message

/-- `db_err`. -/
def dbErr (e : SqlError) : Error := .internal ("Database error: " ++ e.message)

/-- A statement, given SQLite's `datetime('now')`. -/
abbrev Statement := DateTime → Db → Except SqlError Db

/-- Run statements in order, each committing on its own. -/
def runStatements : List Statement → DateTime → Db → Except SqlError Unit × Db
  | [], _, db => (.ok (), db)
  | statement :: rest, now, db =>
      match statement now db with
      | .ok db' => runStatements rest now db'
      | .error e => (.error e, db)

@[simp] theorem runStatements_nil (now : DateTime) (db : Db) :
    runStatements [] now db = (.ok (), db) := rfl

theorem runStatements_cons_ok {statement : Statement} {rest : List Statement}
    {now : DateTime} {db db' : Db} (h : statement now db = .ok db') :
    runStatements (statement :: rest) now db = runStatements rest now db' := by
  simp [runStatements, h]

/-- A statement that fails ends the closure. -/
theorem runStatements_cons_error {statement : Statement} {rest : List Statement}
    {now : DateTime} {db : Db} {e : SqlError} (h : statement now db = .error e) :
    runStatements (statement :: rest) now db = (.error e, db) := by
  simp [runStatements, h]

/-- The rows of a key. -/
def atKey (bucket key : String) (r : ObjectRow) : Bool := r.bucket == bucket && r.key == key

/-- The rows of a version id of a key. -/
def atVersion (bucket key versionId : String) (r : ObjectRow) : Bool :=
  atKey bucket key r && r.versionId == versionId

/-- The rows of a key flagged as latest. -/
def atLatest (bucket key : String) (r : ObjectRow) : Bool := atKey bucket key r && r.isLatest

/-- The rows that a version id addresses, or without one the latest. -/
def addressed (bucket key : String) : Option String → ObjectRow → Bool
  | some versionId => atVersion bucket key versionId
  | none => atLatest bucket key

@[simp] theorem atKey_iff {bucket key : String} {r : ObjectRow} :
    atKey bucket key r = true ↔ r.bucket = bucket ∧ r.key = key := by
  simp [atKey]

@[simp] theorem atVersion_iff {bucket key versionId : String} {r : ObjectRow} :
    atVersion bucket key versionId r = true ↔
      (r.bucket = bucket ∧ r.key = key) ∧ r.versionId = versionId := by
  simp [atVersion]

@[simp] theorem atLatest_iff {bucket key : String} {r : ObjectRow} :
    atLatest bucket key r = true ↔ (r.bucket = bucket ∧ r.key = key) ∧ r.isLatest = true := by
  simp [atLatest]

theorem addressed_atKey {bucket key : String} {versionId : Option String} {r : ObjectRow}
    (h : addressed bucket key versionId r = true) : r.bucket = bucket ∧ r.key = key := by
  cases versionId with
  | none => exact (atLatest_iff.mp h).1
  | some v => exact (atVersion_iff.mp h).1

def ObjectRow.demote (r : ObjectRow) : ObjectRow := { r with isLatest := false }

def ObjectRow.promote (r : ObjectRow) : ObjectRow := { r with isLatest := true }

/-! ## Statements -/

/-- `UPDATE objects SET … WHERE …`. -/
def updateObjects (p : ObjectRow → Bool) (assign : ObjectRow → ObjectRow) : Statement :=
  fun _ db => .ok { db with objects := updateRows p assign db.objects }

/-- `DELETE FROM objects WHERE …`. -/
def deleteObjects (p : ObjectRow → Bool) : Statement :=
  fun _ db => .ok { db with objects := deleteRows p db.objects }

/-- `INSERT INTO objects`.  The row may take `datetime('now')` for its
defaults. -/
def insertObject (row : DateTime → ObjectRow) : Statement := fun now db =>
  let r := row now.seconds
  if db.objects.any (·.id == r.id) then .error (.uniqueConstraint "objects.id")
  else if db.buckets.any (·.name == r.bucket) then
    .ok { db with objects := insertRow r db.objects }
  else .error .foreignKeyConstraint

/-- `INSERT INTO buckets`. -/
def insertBucket (row : DateTime → BucketRow) : Statement := fun now db =>
  let r := row now.seconds
  if db.buckets.any (·.name == r.name) then .error (.uniqueConstraint "buckets.name")
  else .ok { db with buckets := insertRow r db.buckets }

/-- `DELETE FROM buckets WHERE name = ?`, with everything that refers to it. -/
def deleteBucketRow (bucket : String) : Statement := fun _ db =>
  let gone := (db.uploads.filter (·.bucket == bucket)).map (·.uploadId)
  .ok {
    buckets := deleteRows (·.name == bucket) db.buckets
    objects := deleteRows (·.bucket == bucket) db.objects
    uploads := deleteRows (·.bucket == bucket) db.uploads
    parts := deleteRows (fun p => gone.contains p.uploadId) db.parts }

/-- `INSERT INTO multipart_uploads`. -/
def insertUpload (row : DateTime → UploadRow) : Statement := fun now db =>
  let r := row now.seconds
  if db.uploads.any (·.uploadId == r.uploadId) then
    .error (.uniqueConstraint "multipart_uploads.upload_id")
  else if db.buckets.any (·.name == r.bucket) then
    .ok { db with uploads := insertRow r db.uploads }
  else .error .foreignKeyConstraint

/-- `DELETE FROM multipart_uploads WHERE upload_id = ?`, with its parts. -/
def deleteUpload (uploadId : String) : Statement := fun _ db =>
  .ok { db with
    uploads := deleteRows (·.uploadId == uploadId) db.uploads
    parts := deleteRows (·.uploadId == uploadId) db.parts }

/-- `DELETE FROM parts WHERE …`. -/
def deleteParts (p : PartRow → Bool) : Statement :=
  fun _ db => .ok { db with parts := deleteRows p db.parts }

/-- `INSERT INTO parts`. -/
def insertPart (row : DateTime → PartRow) : Statement := fun now db =>
  let r := row now.seconds
  if db.parts.any (fun p => p.uploadId == r.uploadId && p.partNumber == r.partNumber) then
    .error (.uniqueConstraint "parts.upload_id, parts.part_number")
  else if db.uploads.any (·.uploadId == r.uploadId) then
    .ok { db with parts := insertRow r db.parts }
  else .error .foreignKeyConstraint

theorem insertObject_ok {row : DateTime → ObjectRow} {now : DateTime} {db : Db}
    (hid : ∀ r ∈ db.objects, r.id ≠ (row now.seconds).id)
    (hbucket : ∃ b ∈ db.buckets, b.name = (row now.seconds).bucket) :
    insertObject row now db =
      .ok { db with objects := insertRow (row now.seconds) db.objects } := by
  have hfresh : db.objects.any (·.id == (row now.seconds).id) = false := by
    simpa using hid
  have hthere : db.buckets.any (·.name == (row now.seconds).bucket) = true := by
    simpa using hbucket
  simp [insertObject, hfresh, hthere]

/-- An insert that works has a new id and an existing bucket. -/
theorem insertObject_eq_ok {row : DateTime → ObjectRow} {now : DateTime} {db db' : Db}
    (h : insertObject row now db = .ok db') :
    (∀ r ∈ db.objects, r.id ≠ (row now.seconds).id) ∧
      (∃ b ∈ db.buckets, b.name = (row now.seconds).bucket) ∧
      db' = { db with objects := insertRow (row now.seconds) db.objects } := by
  simp only [insertObject] at h
  cases hid : db.objects.any (·.id == (row now.seconds).id) with
  | true => simp [hid] at h
  | false =>
      cases hbucket : db.buckets.any (·.name == (row now.seconds).bucket) with
      | false => simp [hid, hbucket] at h
      | true =>
          simp only [hid, hbucket, Bool.false_eq_true, if_false, if_true, Except.ok.injEq] at h
          exact ⟨by simpa using hid, by simpa using hbucket, h.symm⟩

/-! ## Closures and file operations as atomic steps -/

/-- A closure that reads. -/
def query {α : Type} (read : Db → α) : StoreProg α := observe fun w => read w.db

/-- A closure that runs statements. -/
def execute (statements : List Statement) : StoreProg (Except SqlError Unit) :=
  perform fun w =>
    let outcome := runStatements statements w.now w.db
    (outcome.1, { w with db := outcome.2 })

/-- A closure whose failure the store reports with `db_err`. -/
def call (statements : List Statement) : StoreProg Unit := do
  let outcome ← execute statements
  lift (outcome.mapError dbErr)

/-- `Utc::now()`. -/
def clock : StoreProg DateTime := observe (·.now)

/-- The number of the next random draw. -/
def draw : StoreProg Nat := perform fun w => (w.draws, { w with draws := w.draws + 1 })

/-- Write a blob file. -/
def writeBlob (objectId : String) (data : Bytes) : StoreProg Unit :=
  update fun w => { w with files.objects := Function.update w.files.objects objectId (some data) }

/-- Read a blob file. -/
def readBlob (objectId : String) : StoreProg (Option Bytes) :=
  observe fun w => w.files.objects objectId

/-- Remove a blob file, if it is there. -/
def removeBlob (objectId : String) : StoreProg Unit :=
  update fun w => { w with files.objects := Function.update w.files.objects objectId none }

@[simp] theorem run_query {α : Type} (read : Db → α) (w : World) :
    (query read).run w = (.ok (read w.db), w) := rfl

@[simp] theorem run_clock (w : World) : clock.run w = (.ok w.now, w) := rfl

@[simp] theorem run_draw (w : World) :
    draw.run w = (.ok w.draws, { w with draws := w.draws + 1 }) := rfl

@[simp] theorem run_writeBlob (objectId : String) (data : Bytes) (w : World) :
    (writeBlob objectId data).run w =
      (.ok (), { w with
        files.objects := Function.update w.files.objects objectId (some data) }) := rfl

@[simp] theorem run_readBlob (objectId : String) (w : World) :
    (readBlob objectId).run w = (.ok (w.files.objects objectId), w) := rfl

@[simp] theorem run_removeBlob (objectId : String) (w : World) :
    (removeBlob objectId).run w =
      (.ok (), { w with
        files.objects := Function.update w.files.objects objectId none }) := rfl

/-- A closure that writes, run to its end. -/
@[simp] theorem run_call (statements : List Statement) (w : World) :
    (call statements).run w =
      match runStatements statements w.now w.db with
      | (.ok (), db) => (.ok (), { w with db })
      | (.error e, db) => (.error (dbErr e), { w with db }) := by
  simp only [call, execute, run_perform_bind, run_lift]
  rcases runStatements statements w.now w.db with ⟨_ | _, db⟩ <;> rfl

/-! ## Queries shared by several operations -/

/-- `SELECT versioning_status FROM buckets WHERE name = ?`. -/
def versioningStatus (bucket : String) (db : Db) : Option VersioningStatus :=
  (selectFirst (·.name == bucket) db.buckets).map (·.versioningStatus)

/-- `SELECT 1 FROM buckets WHERE name = ?`. -/
def bucketRowExists (bucket : String) (db : Db) : Bool :=
  (selectFirst (·.name == bucket) db.buckets).isSome

/-- `SELECT 1 FROM multipart_uploads WHERE upload_id = ?`. -/
def uploadRowExists (uploadId : String) (db : Db) : Bool :=
  (selectFirst (·.uploadId == uploadId) db.uploads).isSome

/-- `SELECT … FROM objects WHERE bucket = ? AND key = ? AND …`. -/
def selectObject (bucket key : String) (versionId : Option String) (db : Db) :
    Option ObjectRow :=
  selectFirst (addressed bucket key versionId) db.objects

theorem versioningStatus_bucket {bucket : String} {db : Db} {status : VersioningStatus}
    (h : versioningStatus bucket db = some status) :
    ∃ b ∈ db.buckets, b.name = bucket ∧ b.versioningStatus = status := by
  obtain ⟨b, hb, hs⟩ := Option.map_eq_some_iff.mp h
  obtain ⟨hmem, hname⟩ := selectFirst_some hb
  exact ⟨b, hmem, by simpa using hname, hs⟩

theorem bucketRowExists_iff {bucket : String} {db : Db} :
    bucketRowExists bucket db = true ↔ ∃ b ∈ db.buckets, b.name = bucket := by
  simp [bucketRowExists, selectFirst]

theorem uploadRowExists_iff {uploadId : String} {db : Db} :
    uploadRowExists uploadId db = true ↔ ∃ u ∈ db.uploads, u.uploadId = uploadId := by
  simp [uploadRowExists, selectFirst]

theorem selectObject_some {bucket key : String} {versionId : Option String} {db : Db}
    {r : ObjectRow} (h : selectObject bucket key versionId db = some r) :
    r ∈ db.objects ∧ r.bucket = bucket ∧ r.key = key := by
  obtain ⟨hmem, hp⟩ := selectFirst_some h
  exact ⟨hmem, addressed_atKey hp⟩

end Strix

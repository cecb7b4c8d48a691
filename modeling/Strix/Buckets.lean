import Strix.StoreSql

/-!
# Buckets

Creating and deleting buckets and setting their versioning.  A bucket is
deleted in two closures: one reads whether it is there and empty, a later one
deletes the row and, by the foreign keys, everything that refers to it.

* `createBucket_cases`, `deleteBucket_cases` and `setBucketVersioning_cases`
  say everything such a call can do.
-/

namespace Strix

open AtomicProgram AtomicProgram.Prog RowTable

/-- The characters of bucket names. -/
def bucketNameChar (c : Char) : Bool :=
  (97 ≤ c.toNat && c.toNat ≤ 122) || (48 ≤ c.toNat && c.toNat ≤ 57) || c == '-' || c == '.'

/-- `validate_bucket_name`. -/
def validateBucketName (name : String) : Except Error Unit :=
  if name.utf8ByteSize < 3 ∨ 63 < name.utf8ByteSize then
    .error (.invalidBucketName "Bucket name must be 3-63 characters")
  else if name.toList.head? = some '-' ∨ name.toList.getLast? = some '-' then
    .error (.invalidBucketName "Bucket name cannot start or end with hyphen")
  else if !name.toList.all bucketNameChar then
    .error (.invalidBucketName
      "Bucket name can only contain lowercase letters, numbers, hyphens, and periods")
  else .ok ()

/-- The row of a new bucket. -/
def bucketRow (bucket : String) (opts : CreateBucketOpts) (now : DateTime) : BucketRow where
  name := bucket
  tenantSlug := opts.tenantSlug
  region := opts.region
  createdAt := now

/-- What `create_bucket` answers for a failed insert. -/
def createBucketError (bucket : String) : SqlError → Error
  | .uniqueConstraint _ => .bucketAlreadyExists bucket
  | e => dbErr e

/-- `create_bucket`. -/
def createBucket (bucket : String) (opts : CreateBucketOpts) : StoreProg Unit := do
  lift (validateBucketName bucket)
  let result ← execute [insertBucket (bucketRow bucket opts)]
  lift (result.mapError (createBucketError bucket))

/-- `delete_bucket`. -/
def deleteBucket (bucket : String) : StoreProg Unit := do
  let found ← query fun db =>
    (bucketRowExists bucket db, db.objects.any (·.bucket == bucket))
  ensure found.1 (.bucketNotFound bucket)
  ensure (!found.2) (.bucketNotEmpty bucket)
  call [deleteBucketRow bucket]

/-- `UPDATE buckets SET versioning_status = ? WHERE name = ?`. -/
def setStatus (bucket : String) (status : VersioningStatus) (rows : List BucketRow) :
    List BucketRow :=
  updateRows (·.name == bucket) (fun b => { b with versioningStatus := status }) rows

/-- `set_bucket_versioning`: the closure answers the number of rows it has
changed. -/
def setBucketVersioning (bucket : String) (enabled : Bool) : StoreProg Unit := do
  let status := if enabled then VersioningStatus.enabled else .suspended
  let updated ← perform fun w =>
    ((w.db.buckets.filter (·.name == bucket)).length,
      { w with db.buckets := setStatus bucket status w.db.buckets })
  ensure (updated != 0) (.bucketNotFound bucket)

/-! ## What each operation can do -/

/-- What a valid name consists of. -/
theorem bucketNameChar_of_validate {name : String} (h : validateBucketName name = .ok ())
    {c : Char} (hc : c ∈ name.toList) : bucketNameChar c = true := by
  by_contra hno
  have hbad : (!name.toList.all bucketNameChar) = true := by
    rw [Bool.not_eq_true', List.all_eq_false]
    exact ⟨c, hc, hno⟩
  rw [validateBucketName, if_pos hbad] at h
  split at h
  · cases h
  · split at h <;> cases h

/-- No character of a valid name is a slash. -/
theorem slash_not_mem_of_validateBucketName {name : String}
    (h : validateBucketName name = .ok ()) : '/' ∉ name.toList := by
  intro hslash
  exact absurd (bucketNameChar_of_validate h hslash) (by decide)

/-- A bucket of a bad name is not created. -/
theorem createBucket_badName {bucket : String} {e : Error}
    (h : validateBucketName bucket = .error e) (opts : CreateBucketOpts) (w : World) :
    (createBucket bucket opts).run w = (.error e, w) := by
  simp [createBucket, h]

theorem createBucket_cases (w : World) (bucket : String) (opts : CreateBucketOpts) :
    (∃ e, (createBucket bucket opts).run w = (.error e, w)) ∨
    ((∀ b ∈ w.db.buckets, b.name ≠ bucket) ∧
      (createBucket bucket opts).run w =
        (.ok (), { w with
          db := { w.db with
            buckets := insertRow (bucketRow bucket opts w.now.seconds) w.db.buckets } })) := by
  cases hname : validateBucketName bucket with
  | error e => exact Or.inl ⟨e, by simp [createBucket, hname]⟩
  | ok _ =>
      by_cases hthere : ∃ b, b ∈ w.db.buckets ∧ b.name = bucket
      · refine Or.inl ⟨.bucketAlreadyExists bucket, ?_⟩
        simp [createBucket, execute, hname, runStatements, insertBucket, bucketRow, hthere,
          Except.mapError, createBucketError]
      · refine Or.inr ⟨fun b hb hb' => hthere ⟨b, hb, hb'⟩, ?_⟩
        simp [createBucket, execute, hname, runStatements, insertBucket, bucketRow, hthere,
          Except.mapError]

/-- The tables with a bucket gone, its uploads and their parts with it. -/
def Db.withoutBucket (db : Db) (bucket : String) : Db where
  buckets := deleteRows (·.name == bucket) db.buckets
  objects := deleteRows (·.bucket == bucket) db.objects
  uploads := deleteRows (·.bucket == bucket) db.uploads
  parts := deleteRows (fun p => ((db.uploads.filter (·.bucket == bucket)).map
    (·.uploadId)).contains p.uploadId) db.parts

/-- A bucket that is deleted had no object rows. -/
theorem deleteBucket_cases (w : World) (bucket : String) :
    (∃ e, (deleteBucket bucket).run w = (.error e, w)) ∨
    ((∀ r ∈ w.db.objects, r.bucket ≠ bucket) ∧
      (deleteBucket bucket).run w = (.ok (), { w with
        db := { w.db.withoutBucket bucket with objects := w.db.objects } })) := by
  cases hthere : bucketRowExists bucket w.db with
  | false => exact Or.inl ⟨.bucketNotFound bucket, by simp [deleteBucket, query, hthere]⟩
  | true =>
      cases hfull : w.db.objects.any (·.bucket == bucket) with
      | true =>
          exact Or.inl ⟨.bucketNotEmpty bucket, by simp [deleteBucket, query, hthere, hfull]⟩
      | false =>
          have hempty : ∀ r ∈ w.db.objects, r.bucket ≠ bucket := by simpa using hfull
          have hkeep : deleteRows (·.bucket == bucket) w.db.objects = w.db.objects :=
            deleteRows_eq_self (by simpa using hempty)
          refine Or.inr ⟨hempty, ?_⟩
          simp [deleteBucket, query, hthere, hfull, runStatements, deleteBucketRow,
            Db.withoutBucket, hkeep]

/-- Answered or refused, the statement has run. -/
theorem setBucketVersioning_buckets (w : World) (bucket : String) (enabled : Bool) :
    ((setBucketVersioning bucket enabled).run w).2.db.buckets =
      setStatus bucket (if enabled then .enabled else .suspended) w.db.buckets := by
  simp [setBucketVersioning]

theorem setBucketVersioning_cases (w : World) (bucket : String) (enabled : Bool) :
    let status := if enabled then VersioningStatus.enabled else .suspended
    (setBucketVersioning bucket enabled).run w = (.error (.bucketNotFound bucket), w) ∨
    (setBucketVersioning bucket enabled).run w =
      (.ok (), { w with
        db := { w.db with buckets := setStatus bucket status w.db.buckets } }) := by
  intro status
  by_cases hthere : ∃ b, b ∈ w.db.buckets ∧ b.name = bucket
  · refine Or.inr ?_
    obtain ⟨b, hb, hname⟩ := hthere
    have hchanged : (w.db.buckets.filter (·.name == bucket)).length ≠ 0 := by
      intro hzero
      rw [List.length_eq_zero_iff, List.filter_eq_nil_iff] at hzero
      exact hzero b hb (by simpa using hname)
    simp only [setBucketVersioning, run_perform_bind, run_ensure]
    rw [if_pos (by simpa using hchanged)]
  · refine Or.inl ?_
    have hnone : ∀ b ∈ w.db.buckets, (b.name == bucket) = false := by simpa using hthere
    have hsame : setStatus bucket status w.db.buckets = w.db.buckets := by
      refine (List.map_congr_left fun b hb => ?_).trans (List.map_id _)
      simp [hnone b hb]
    have hchanged : w.db.buckets.filter (·.name == bucket) = [] := by
      rw [List.filter_eq_nil_iff]
      intro b hb
      simp [hnone b hb]
    simp only [setBucketVersioning, run_perform_bind, run_ensure, hchanged]
    simp only [status] at hsame
    simp [hsame]

end Strix

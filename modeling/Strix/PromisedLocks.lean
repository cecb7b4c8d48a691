import Strix.ExecutablePlatform
import Strix.ObjectRequests

/-!
# The locks that new versions are promised

A request that creates a version may carry `x-amz-object-lock-*` headers, and
for one without them the bucket may have a default retention.  The version
should carry that lock.  The handlers of `PutObject`, `CopyObject` and
`CreateMultipartUpload` do not read the headers, no writer reads the table of
lock configurations, and the INSERT of every writer leaves the lock columns at
their defaults.

* `created_unlocked`: what a write that succeeds creates is one unlocked version;
* `promised_lock_iff`: it carries what was promised exactly when that is nothing.
-/

namespace Strix

open AtomicProgram AtomicProgram.Prog MachineRuns RowTable

/-! ## Lock configurations -/

/-- Default retention rule for a bucket. -/
structure DefaultRetention where
  mode : RetentionMode
  days : Option Nat := none
  years : Option Nat := none
  deriving DecidableEq, Repr

structure ObjectLockRule where
  defaultRetention : Option DefaultRetention
  deriving DecidableEq, Repr

/-- Object lock configuration for a bucket. -/
structure ObjectLockConfiguration where
  enabled : Bool := false
  rule : Option ObjectLockRule := none
  deriving DecidableEq, Repr

/-- A row of `bucket_object_lock`. -/
structure LockConfigRow where
  bucket : String
  lockConfig : ObjectLockConfiguration
  deriving DecidableEq, Repr

/-- The store with its table of lock configurations. -/
structure LockingWorld where
  world : World := {}
  lockConfigs : List LockConfigRow := []

/-- `get_object_lock_configuration`, for a bucket that exists. -/
def LockingWorld.lockConfig (s : LockingWorld) (bucket : String) :
    Option ObjectLockConfiguration :=
  (selectFirst (·.bucket == bucket) s.lockConfigs).map (·.lockConfig)

/-- `put_object_lock_configuration`. -/
def putObjectLockConfiguration (s : LockingWorld) (bucket : String)
    (config : ObjectLockConfiguration) : Except Error Unit × LockingWorld :=
  match selectFirst (·.name == bucket) s.world.db.buckets with
  | none => (.error (.bucketNotFound bucket), s)
  | some row =>
    if !row.objectLockEnabled && config.enabled then
      (.error (.invalidArgument "Object lock can only be enabled when creating a bucket"), s)
    else
      (.ok (), { s with
        lockConfigs := insertRow { bucket := bucket, lockConfig := config }
          (deleteRows (·.bucket == bucket) s.lockConfigs) })

/-- A call of the store, or one that configures locks. -/
inductive LockingOp
  | call (op : Op)
  | putObjectLockConfiguration (bucket : String) (config : ObjectLockConfiguration)

/-- The lock configurations after a call: deleting a bucket deletes its own. -/
def cascadeConfigs (op : Op) (reply : Except Error Reply) (configs : List LockConfigRow) :
    List LockConfigRow :=
  match op, reply with
  | .deleteBucket bucket, .ok _ => deleteRows (·.bucket == bucket) configs
  | _, _ => configs

/-- The store with lock configurations, from the moment it is created. -/
def lockingStore (P : Platform) : Machine LockingWorld LockingOp (Except Error Unit) where
  init := {}
  step s
    | .call op =>
      let result := step P s.world op
      (result.1.map fun _ => (),
        { world := result.2, lockConfigs := cascadeConfigs op result.1 s.lockConfigs })
    | .putObjectLockConfiguration bucket config => putObjectLockConfiguration s bucket config

/-! ## Writes and what they are promised -/

/-- The `x-amz-object-lock-*` headers of a request. -/
structure LockHeaders where
  mode : Option String := none
  retainUntilDate : Option DateTime := none
  legalHold : Option String := none

/-- The request carries one of the headers. -/
def LockHeaders.Given (lock : LockHeaders) : Prop :=
  lock.mode.isSome ∨ lock.retainUntilDate.isSome ∨ lock.legalHold.isSome

/-- A client's write of one version: at once, or by an upload, between whose
start and completion anything may happen. -/
inductive ObjectWrite
  | put (caller : Caller) (input : PutObjectInput)
  | copy (caller : Caller) (input : CopyObjectInput)
  | multipart (creator : Caller) (input : CreateMultipartUploadInput) (meanwhile : List LockingOp)
      (completer : Caller) (parts : Option (List CompletedPart))

/-- The bucket that the write is for. -/
def ObjectWrite.bucket : ObjectWrite → String
  | .put _ input => input.bucket
  | .copy _ input => input.bucket
  | .multipart _ input _ _ _ => input.bucket

variable (P : Platform)

/-- **The write succeeds**, its version being created between two states.  The
handlers do not read the lock headers. -/
def ObjectWrite.Creates (s before : LockingWorld) (after : World) : ObjectWrite → Prop
  | .put caller input => before = s ∧
      ∃ reply, (S3Service.putObject P caller input).run s.world = (.ok reply, after)
  | .copy caller input => before = s ∧
      ∃ reply, (S3Service.copyObject P caller input).run s.world = (.ok reply, after)
  | .multipart creator input meanwhile completer parts =>
      ∃ upload opened reply,
        (S3Service.createMultipartUpload P creator input).run s.world = (.ok upload, opened) ∧
        before = (lockingStore P).after { s with world := opened } meanwhile ∧
        (MultipartRequest.handle P completer
          { bucket := input.bucket, key := input.key, uploadId := upload.uploadId,
            action := .completeMultipartUpload parts }).run before.world = (.ok reply, after)

/-- A version that was not there before. -/
def CreatedVersion (before after : World) (r : ObjectRow) : Prop :=
  r ∈ after.db.objects ∧ ∀ old ∈ before.db.objects, old.id ≠ r.id

/-- `Display` of a retention mode. -/
def RetentionMode.text : RetentionMode → String
  | governance => "GOVERNANCE"
  | compliance => "COMPLIANCE"

/-- The least time that the default retention lasts: a year has at least 365 days. -/
def DefaultRetention.Lasts (retention : DefaultRetention) (span : Int) : Prop :=
  (∃ days : Nat, retention.days = some days ∧ span = days * (86400 * 1000000000)) ∨
    ∃ years : Nat, retention.years = some years ∧ span = years * (365 * 86400 * 1000000000)

/-- The default retention of a configuration. -/
def defaultRetention (config : Option ObjectLockConfiguration) : Option DefaultRetention :=
  config.bind fun c => c.rule.bind fun rule => rule.defaultRetention

/-- **The version carries the lock that it was promised**: by the headers, or else
by the default retention of the bucket. -/
def Carries (lock : LockHeaders) (config : Option ObjectLockConfiguration) (r : ObjectRow) :
    Prop :=
  (lock.Given →
    r.retentionMode.map RetentionMode.text = lock.mode ∧
    r.retainUntilDate = lock.retainUntilDate ∧
    r.legalHold = (lock.legalHold == some "ON")) ∧
  (¬ lock.Given → ∀ retention span, defaultRetention config = some retention →
    retention.Lasts span →
    r.retentionMode = some retention.mode ∧
      ∃ date, r.retainUntilDate = some date ∧ r.createdAt + span ≤ date)

/-- Every version that the write has created carries its lock, as its bucket was
configured when it was created. -/
def VersionsCarry (lock : LockHeaders) (write : ObjectWrite) (before : LockingWorld)
    (after : World) : Prop :=
  ∀ r, CreatedVersion before.world after r → Carries lock (before.lockConfig write.bucket) r

/-- A lock is promised: the headers ask for one, or without headers the bucket
has a default retention of some days or years. -/
def LockPromised (lock : LockHeaders) (config : Option ObjectLockConfiguration) : Prop :=
  lock.mode.isSome ∨ lock.retainUntilDate.isSome ∨ lock.legalHold = some "ON" ∨
    ¬ lock.Given ∧ ∃ retention span, defaultRetention config = some retention ∧
      retention.Lasts span

variable {P}

/-- **A version without a lock** carries exactly what is promised where nothing is. -/
theorem carries_iff {lock : LockHeaders} {config : Option ObjectLockConfiguration}
    {r : ObjectRow}
    (hunlocked : r.retentionMode = none ∧ r.retainUntilDate = none ∧ r.legalHold = false) :
    Carries lock config r ↔ ¬ LockPromised lock config := by
  obtain ⟨hmode, hdate, hhold⟩ := hunlocked
  constructor
  · intro hcarries hpromised
    rcases hpromised with hmodeGiven | hdateGiven | hon | ⟨hbare, retention, span, hdefault, hlasts⟩
    · obtain ⟨hsame, -⟩ := hcarries.1 (Or.inl hmodeGiven)
      rw [hmode, Option.map_none] at hsame
      rw [← hsame] at hmodeGiven
      cases hmodeGiven
    · obtain ⟨-, hsame, -⟩ := hcarries.1 (Or.inr (Or.inl hdateGiven))
      rw [hdate] at hsame
      rw [← hsame] at hdateGiven
      cases hdateGiven
    · obtain ⟨-, -, hsame⟩ := hcarries.1 (Or.inr (Or.inr (by simp [hon])))
      rw [hhold, hon] at hsame
      cases hsame
    · obtain ⟨hretained, -⟩ := hcarries.2 hbare retention span hdefault hlasts
      rw [hmode] at hretained
      cases hretained
  · intro hnone
    refine ⟨fun _ => ⟨?_, ?_, ?_⟩, fun hbare retention span hdefault hlasts => ?_⟩
    · cases hgiven : lock.mode with
      | none => rw [hmode, Option.map_none]
      | some mode => exact absurd (Or.inl (by simp [hgiven])) hnone
    · cases hgiven : lock.retainUntilDate with
      | none => exact hdate
      | some date => exact absurd (Or.inr (Or.inl (by simp [hgiven]))) hnone
    · by_cases hon : lock.legalHold = some "ON"
      · exact absurd (Or.inr (Or.inr (Or.inl hon))) hnone
      · rw [hhold]
        exact (beq_eq_false_iff_ne.mpr hon).symm
    · exact absurd (Or.inr (Or.inr (Or.inr ⟨hbare, retention, span, hdefault, hlasts⟩))) hnone

/-! ## What a write creates -/

/-- **One unlocked version** is created, in this bucket. -/
structure CreatesUnlocked (before after : World) (bucket : String) (row : ObjectRow) : Prop where
  created : CreatedVersion before after row
  bucket_eq : row.bucket = bucket
  onlyOne : ∀ r, CreatedVersion before after r → r = row
  unlocked : row.retentionMode = none ∧ row.retainUntilDate = none ∧ row.legalHold = false

/-- What every writer's closure does. -/
theorem createsUnlocked_of_insert {w after : World} {bucket key : String}
    {status : VersioningStatus} {row : ObjectRow} (hids : IdsDrawn P w)
    (hnew : NewVersion P w bucket key status row)
    (hobjects : after.db.objects =
      insertRow row (roomMade status row.bucket row.key w.db.objects)) :
    CreatesUnlocked w after bucket row where
  bucket_eq := hnew.bucket_eq
  created := by
    refine ⟨by rw [hobjects]; exact mem_insertRow.mpr (Or.inr rfl), fun old hold => ?_⟩
    rw [hnew.id_eq]
    exact hids.fresh (Nat.le_refl _) hold
  onlyOne := by
    intro r hr
    obtain ⟨hmem, hfresh⟩ := hr
    rw [hobjects] at hmem
    rcases mem_insertRow.mp hmem with hold | rfl
    · obtain ⟨old, hold', hsame⟩ := sameVersion_of_roomMade hold
      exact absurd hsame.id_eq.symm (hfresh old hold')
    · rfl
  unlocked := hnew.unlocked

theorem putObject_creates {w w' : World} (hids : IdsDrawn P w) {caller : Caller}
    {input : PutObjectInput} {reply : PutObjectResponse}
    (h : (S3Service.putObject P caller input).run w = (.ok reply, w')) :
    ∃ row, CreatesUnlocked w w' input.bucket row := by
  have hbody := authorize_bind_ok h
  rw [run_require_bind] at hbody
  cases hthere : input.body with
  | none => simp [hthere] at hbody
  | some body =>
      simp only [hthere] at hbody
      have hrun := ofStore_ok hbody
      rcases putObject_cases input.bucket input.key body
          (input.headers.opts input.headers.putEncryption) hids with
        ⟨-, e, n, hput, -⟩ | ⟨-, status, row, sseCKey, content, data, n, hput, -, hnew, -⟩
      · rw [hput] at hrun
        cases hrun
      · rw [hput] at hrun
        obtain ⟨-, rfl⟩ := Prod.mk.inj hrun
        exact ⟨row, createsUnlocked_of_insert hids hnew rfl⟩

theorem copyObject_creates {w w' : World} (hids : IdsDrawn P w) {caller : Caller}
    {input : CopyObjectInput} {reply : CopyObjectResponse}
    (h : (S3Service.copyObject P caller input).run w = (.ok reply, w')) :
    ∃ row, CreatesUnlocked w w' input.bucket row := by
  have hsource := authorize_bind_ok h
  rw [run_lift_bind] at hsource
  cases hcopied : copySourceOf input.copySource with
  | error e => simp [hcopied] at hsource
  | ok source =>
      simp only [hcopied] at hsource
      have hrun := ofStore_ok (authorize_bind_ok hsource)
      rcases copyObject_cases source.1 source.2 input.bucket input.key input.opts hids with
        ⟨-, e, n, hcopy, -⟩ | ⟨-, status, row, src, blob, data, n, hcopy, -, hnew, -⟩
      · rw [hcopy] at hrun
        cases hrun
      · rw [hcopy] at hrun
        obtain ⟨-, rfl⟩ := Prod.mk.inj hrun
        exact ⟨row, createsUnlocked_of_insert hids hnew rfl⟩

theorem completeMultipartUpload_creates {w w' : World} (hids : IdsDrawn P w) {caller : Caller}
    {bucket key uploadId : String} {parts : Option (List CompletedPart)} {reply : MultipartReply}
    (h : (MultipartRequest.handle P caller
      ⟨bucket, key, uploadId, .completeMultipartUpload parts⟩).run w = (.ok reply, w')) :
    ∃ u row, selectUpload uploadId w.db = some u ∧ CreatesUnlocked w w' u.bucket row := by
  have hperform := authorize_bind_ok h
  simp only [MultipartRequest.perform, run_observe_bind] at hperform
  rcases completeMultipartUpload_cases
      (MultipartRequest.named ⟨bucket, key, uploadId, .completeMultipartUpload parts⟩ w.now)
      (completeParts parts) hids with
    ⟨-, e, n, hrun, -⟩ | ⟨-, status, row, u, plaintext, data, n, hrun, -, hnew, hselect, -⟩
  · rw [run_bind, run_ofStore_error hrun] at hperform
    cases hperform
  · rw [run_bind, run_ofStore_ok hrun] at hperform
    obtain ⟨-, rfl⟩ := Prod.mk.inj hperform
    exact ⟨u, row, hselect, createsUnlocked_of_insert hids hnew rfl⟩

/-! ## Every state, every write -/

section Reachable

variable {s before : LockingWorld}

/-- Configuring locks leaves the other tables alone. -/
theorem putObjectLockConfiguration_world (s : LockingWorld) (bucket : String)
    (config : ObjectLockConfiguration) :
    (putObjectLockConfiguration s bucket config).2.world = s.world := by
  unfold putObjectLockConfiguration
  split
  · rfl
  · split <;> rfl

/-- The tables behind a reachable state are those of the store. -/
theorem world_reachable (hs : (lockingStore P).Reachable s) : (store P).Reachable s.world := by
  refine Machine.invariant_reachable (M := lockingStore P)
    (I := fun s => (store P).Reachable s.world) ((store P).reachable_init) (fun s op h => ?_) hs
  cases op with
  | call op => exact h.next op
  | putObjectLockConfiguration bucket config =>
      exact (congrArg (store P).Reachable (putObjectLockConfiguration_world s bucket config)).mpr h

/-- **An upload keeps its bucket**: the upload of an old draw is for this bucket. -/
structure UploadFor (P : Platform) (n : Nat) (bucket : String) (w : World) : Prop where
  drawn : n < w.draws
  keeps : ∀ u ∈ w.db.uploads, u.uploadId = P.ulid n → u.bucket = bucket

theorem UploadFor.next {w : World} {n : Nat} {bucket : String} (hw : WellFormed P w)
    (h : UploadFor P n bucket w) (op : Op) :
    UploadFor P n bucket ((store P).next w op) := by
  have heffect := step_effect hw.ids hw.uploadIds op
  refine ⟨Nat.lt_of_lt_of_le h.drawn heffect.draws_le, fun u hu hid => ?_⟩
  rcases heffect.parts.upload_back hu with hold | ⟨hnew, -⟩
  · exact h.keeps u hold hid
  · have hsame := P.ulid_injective (hid.symm.trans hnew)
    have hdrawn := h.drawn
    omega

/-- One call of the store with lock configurations keeps it too. -/
theorem UploadFor.lockingNext {n : Nat} {bucket : String} (hw : WellFormed P s.world)
    (h : UploadFor P n bucket s.world) (op : LockingOp) :
    WellFormed P ((lockingStore P).next s op).world ∧
      UploadFor P n bucket ((lockingStore P).next s op).world := by
  cases op with
  | call op => exact ⟨hw.next op, h.next hw op⟩
  | putObjectLockConfiguration bucket' config =>
      have hsame : ((lockingStore P).next s (.putObjectLockConfiguration bucket' config)).world =
          s.world := putObjectLockConfiguration_world s bucket' config
      rw [hsame]
      exact ⟨hw, h⟩

theorem UploadFor.run {n : Nat} {bucket : String} (hw : WellFormed P s.world)
    (h : UploadFor P n bucket s.world) (ops : List LockingOp) :
    WellFormed P ((lockingStore P).after s ops).world ∧
      UploadFor P n bucket ((lockingStore P).after s ops).world := by
  induction ops generalizing s with
  | nil => exact ⟨hw, h⟩
  | cons op ops ih =>
      obtain ⟨hw', h'⟩ := h.lockingNext hw op
      exact ih hw' h'

/-- **What a write that succeeds creates** is one version, without a lock, in the
bucket that the write is for. -/
theorem created_unlocked {after : World} (hs : (lockingStore P).Reachable s) {write : ObjectWrite}
    (hcreates : write.Creates P s before after) :
    ∃ row, CreatesUnlocked before.world after write.bucket row := by
  have hw := wellFormed_reachable (world_reachable hs)
  cases write with
  | put caller input =>
      obtain ⟨rfl, reply, hrun⟩ := hcreates
      exact putObject_creates hw.ids hrun
  | copy caller input =>
      obtain ⟨rfl, reply, hrun⟩ := hcreates
      exact copyObject_creates hw.ids hrun
  | multipart creator input meanwhile completer parts =>
      obtain ⟨upload, opened, reply, hcreated, rfl, hcompleted⟩ := hcreates
      have hopened := ofStore_ok (authorize_bind_ok hcreated)
      rcases createMultipartUpload_cases input.bucket input.key
          (input.headers.opts input.headers.uploadEncryption) hw.uploadIds with
        ⟨-, hrun⟩ | ⟨-, hrun⟩
      · rw [hrun] at hopened
        cases hopened
      · have hnext : (store P).next s.world (.createMultipartUpload input.bucket input.key
            (input.headers.opts input.headers.uploadEncryption)) = opened :=
          congrArg Prod.snd hopened
        rw [hrun] at hopened
        obtain ⟨hupload, hworld⟩ := Prod.mk.inj hopened
        obtain rfl := Except.ok.inj hupload
        have hfor : UploadFor P s.world.draws input.bucket opened := by
          refine ⟨by rw [← hworld]; exact Nat.lt_succ_self _, fun u hu hid => ?_⟩
          rw [← hworld] at hu
          rcases mem_insertRow.mp hu with hold | rfl
          · obtain ⟨i, hi, hold'⟩ := hw.uploadIds u hold
            have hsame := P.ulid_injective (hold'.symm.trans hid)
            omega
          · rfl
        obtain ⟨hw', hfor'⟩ := @UploadFor.run P { s with world := opened } _ _
          (hnext ▸ hw.next _) hfor meanwhile
        obtain ⟨u, row, hselect, hcreated'⟩ :=
          completeMultipartUpload_creates hw'.ids hcompleted
        obtain ⟨hmem, hid⟩ := selectFirst_some hselect
        have hbucket := hfor'.keeps u hmem (beq_iff_eq.mp hid)
        rw [hbucket] at hcreated'
        exact ⟨row, hcreated'⟩

end Reachable

/-- **When a new version carries the lock it was promised.**  In every reachable
state, whatever the history of lock configurations, and for every put, copy or
multipart upload that succeeds: exactly when no lock was promised. -/
theorem promised_lock_iff {s before : LockingWorld} {after : World} {write : ObjectWrite}
    (hs : (lockingStore P).Reachable s) (hcreates : write.Creates P s before after)
    (lock : LockHeaders) :
    VersionsCarry lock write before after ↔
      ¬ LockPromised lock (before.lockConfig write.bucket) := by
  obtain ⟨row, hrow⟩ := created_unlocked hs hcreates
  constructor
  · intro hall
    exact (carries_iff hrow.unlocked).mp (hall row hrow.created)
  · intro hnone r hr
    rw [hrow.onlyOne r hr]
    exact (carries_iff hrow.unlocked).mpr hnone

/-! ## A put that asks for a lock -/

/-- The state with one bucket. -/
def docsOnly : LockingWorld :=
  (lockingStore executablePlatform).after {} [.call (.createBucket "docs" {})]

theorem docsOnly_reachable : (lockingStore executablePlatform).Reachable docsOnly := ⟨_, rfl⟩

/-- The root user puts an object. -/
def rootPut : ObjectWrite :=
  .put rootCaller { bucket := "docs", key := "k", body := some [.ok [97]] }

/-- The store after the put. -/
def afterRootPut : World :=
  ((S3Service.putObject executablePlatform rootCaller
    { bucket := "docs", key := "k", body := some [.ok [97]] }).run docsOnly.world).2

theorem rootPut_creates : rootPut.Creates executablePlatform docsOnly docsOnly afterRootPut :=
  ⟨rfl, _, rfl⟩

/-- The equivalence for the put without lock headers. -/
theorem promised_lock_rootPut :
    VersionsCarry {} rootPut docsOnly afterRootPut ↔
      ¬ LockPromised {} (docsOnly.lockConfig rootPut.bucket) :=
  promised_lock_iff docsOnly_reachable rootPut_creates {}

/-- **Lock headers of a put are forgotten.** -/
theorem put_forgets_lock :
    ¬ ∀ s, (lockingStore executablePlatform).Reachable s → ∀ (write : ObjectWrite) before after,
      write.Creates executablePlatform s before after → ∀ lock,
        VersionsCarry lock write before after := by
  intro hall
  have hcarry := hall docsOnly docsOnly_reachable rootPut docsOnly afterRootPut rootPut_creates
    { mode := some "COMPLIANCE", retainUntilDate := some 2000000000 }
  obtain ⟨row, hrow⟩ := created_unlocked docsOnly_reachable rootPut_creates
  exact (carries_iff hrow.unlocked).mp (hcarry row hrow.created) (Or.inl rfl)

end Strix

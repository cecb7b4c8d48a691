import Mathlib.Data.List.Infix
import Strix.AdminAuth
import Strix.Notifications
import Strix.PromisedLocks
import Strix.StorageUsage

/-!
# Buckets that the admin API creates

`create_bucket` of the admin API creates a bucket and then asks the store for what the
request wants of it: versioning, and object locking.  A failure of these calls is only
logged.  The store enables object locking for buckets whose row says so, and no statement
ever writes that column.

* `neverLocking_reachable`: no bucket has object locking, and no configuration enables it;
* `adminCreateBucket_created`: what the handler leaves behind when it succeeds;
* `createdBucket_delivers_iff`: when that is what was asked for.
-/

namespace Strix

open AtomicProgram AtomicProgram.Prog MachineRuns RowTable

/-! ## The handler -/

/-- Create bucket request. -/
structure CreateBucketRequest where
  name : String
  tenantSlug : Option String := none
  versioning : Bool := false
  objectLocking : Bool := false

/-- A call of the store. -/
def LockingWorld.perform (s : LockingWorld) (call : StoreProg Unit) :
    Except Error Unit × LockingWorld :=
  let (answer, world) := call.run s.world
  (answer, { s with world })

/-- The refusal of a bucket that could not be created. -/
def createBucketRefusal (e : Error) : AdminError where
  status := if "already exists".toList <:+: e.text.toList then 409 else 500
  message := e.text

/-- Enable versioning if requested, also for object locking.  A failure is only logged. -/
def CreateBucketRequest.enableVersioning (req : CreateBucketRequest) (s : LockingWorld) :
    LockingWorld :=
  if req.versioning || req.objectLocking then
    (s.perform (setBucketVersioning req.name true)).2
  else s

/-- Enable object locking if requested.  A failure is only logged. -/
def CreateBucketRequest.enableLocking (req : CreateBucketRequest) (s : LockingWorld) :
    LockingWorld :=
  if req.objectLocking then
    (putObjectLockConfiguration s req.name { enabled := true, rule := none }).2
  else s

/-- `create_bucket` of the admin API, which answers 201 where it succeeds. -/
def adminCreateBucket (toRfc3339 : DateTime → String) (req : CreateBucketRequest)
    (s : LockingWorld) : Except AdminError BucketInfo × LockingWorld :=
  match s.perform (createBucket req.name { region := none, tenantSlug := req.tenantSlug }) with
  | (.error e, s) => (.error (createBucketRefusal e), s)
  | (.ok _, s) =>
    let s := req.enableLocking (req.enableVersioning s)
    (.ok
      { name := req.name
        tenantSlug := req.tenantSlug
        createdAt := toRfc3339 s.world.now }, s)

/-- `get_object_lock_configuration`. -/
def getObjectLockConfiguration (bucket : String) (s : LockingWorld) :
    Except Error (Option ObjectLockConfiguration) :=
  if bucketRowExists bucket s.world.db then .ok (s.lockConfig bucket)
  else .error (.bucketNotFound bucket)

/-! ## Object locking in every state -/

/-- **No object locking**: no bucket has it, and no configuration enables it. -/
structure NeverLocking (s : LockingWorld) : Prop where
  buckets : ∀ b ∈ s.world.db.buckets, b.objectLockEnabled = false
  configs : ∀ row ∈ s.lockConfigs, row.lockConfig.enabled = false

variable {P : Platform}

/-- The calls of the store give no bucket object locking. -/
theorem NeverLocking.call {s : LockingWorld} (h : NeverLocking s) (hw : WellFormed P s.world)
    (op : Op) : NeverLocking ((lockingStore P).next s (.call op)) := by
  have hbuckets := (step_effect hw.ids hw.uploadIds op).objects.buckets
  constructor
  · intro b hb
    change b ∈ ((store P).next s.world op).db.buckets at hb
    rcases hbuckets with hsame | ⟨-, ⟨bucket, opts, -, -, hins⟩ | ⟨bucket, -, -, hdel⟩ |
        ⟨bucket, enabled, -, hset⟩⟩
    · exact h.buckets b (hsame ▸ hb)
    · rw [hins] at hb
      rcases mem_insertRow.mp hb with hold | rfl
      · exact h.buckets b hold
      · rfl
    · rw [hdel] at hb
      exact h.buckets b (mem_deleteRows.mp hb).1
    · rw [hset] at hb
      obtain ⟨old, hold, rfl⟩ := List.mem_map.mp hb
      have hnever := h.buckets old hold
      split <;> exact hnever
  · intro row hrow
    change row ∈ cascadeConfigs op (step P s.world op).1 s.lockConfigs at hrow
    unfold cascadeConfigs at hrow
    split at hrow
    · exact h.configs row (mem_deleteRows.mp hrow).1
    · exact h.configs row hrow

/-- Neither does a configuration: one that enables it is refused. -/
theorem NeverLocking.configured {s : LockingWorld} (h : NeverLocking s) (bucket : String)
    (config : ObjectLockConfiguration) :
    NeverLocking (putObjectLockConfiguration s bucket config).2 := by
  unfold putObjectLockConfiguration
  cases hselect : selectFirst (·.name == bucket) s.world.db.buckets with
  | none => exact h
  | some row =>
      have hnever := h.buckets row (selectFirst_some hselect).1
      cases henabled : config.enabled with
      | true =>
          simp only [hnever, Bool.not_false, Bool.and_self, if_true]
          exact h
      | false =>
          simp only [Bool.and_false, Bool.false_eq_true, if_false]
          refine ⟨h.buckets, fun row hrow => ?_⟩
          rcases mem_insertRow.mp hrow with hold | rfl
          · exact h.configs row (mem_deleteRows.mp hold).1
          · exact henabled

/-- **Object locking is never there**, in any state of any run. -/
theorem neverLocking_reachable {s : LockingWorld} (hs : (lockingStore P).Reachable s) :
    NeverLocking s := by
  have hboth : WellFormed P s.world ∧ NeverLocking s := by
    refine Machine.invariant_reachable (M := lockingStore P)
      (I := fun s => WellFormed P s.world ∧ NeverLocking s) ?_ (fun s op h => ?_) hs
    · exact ⟨wellFormed_init, fun b hb => absurd hb List.not_mem_nil,
        fun row hrow => absurd hrow List.not_mem_nil⟩
    · cases op with
      | call op => exact ⟨h.1.next op, h.2.call h.1 op⟩
      | putObjectLockConfiguration bucket config =>
          have hsame := putObjectLockConfiguration_world s bucket config
          exact ⟨hsame.symm ▸ h.1, h.2.configured bucket config⟩
  exact hboth.2

/-! ## What the handler does -/

section Handler

variable {toRfc3339 : DateTime → String} {req : CreateBucketRequest} {s : LockingWorld}

/-- The name is bad, or a bucket has it. -/
def CreateBucketRequest.Unavailable (req : CreateBucketRequest) (s : LockingWorld) : Prop :=
  validateBucketName req.name ≠ .ok () ∨ ∃ b ∈ s.world.db.buckets, b.name = req.name

/-- The row of the new bucket. -/
def CreateBucketRequest.row (req : CreateBucketRequest) (s : LockingWorld) : BucketRow :=
  { bucketRow req.name { region := none, tenantSlug := req.tenantSlug } s.world.now.seconds with
    versioningStatus :=
      if req.versioning || req.objectLocking then .enabled else .unversioned }

/-- A bucket of a good name that nobody has is created. -/
theorem createBucket_available {bucket : String} {w : World} (opts : CreateBucketOpts)
    (hname : validateBucketName bucket = .ok ()) (hnew : ∀ b ∈ w.db.buckets, b.name ≠ bucket) :
    (createBucket bucket opts).run w =
      (.ok (), { w with
        db := { w.db with
          buckets := insertRow (bucketRow bucket opts w.now.seconds) w.db.buckets } }) := by
  have hfresh : ¬∃ b, b ∈ w.db.buckets ∧ b.name = bucket := fun ⟨b, hb, hsame⟩ => hnew b hb hsame
  simp [createBucket, execute, hname, runStatements, insertBucket, bucketRow, hfresh,
    Except.mapError]

/-- **Nothing is created** under a name that is not available. -/
theorem adminCreateBucket_unavailable (h : req.Unavailable s) :
    ∃ e, adminCreateBucket toRfc3339 req s = (.error e, s) := by
  have hrun : ∃ e, (createBucket req.name { region := none, tenantSlug := req.tenantSlug }).run
      s.world = (.error e, s.world) := by
    rcases createBucket_cases s.world req.name { region := none, tenantSlug := req.tenantSlug }
      with herror | ⟨hnew, hrun⟩
    · exact herror
    · rcases h with hname | ⟨b, hb, hsame⟩
      · cases hvalid : validateBucketName req.name with
        | error e => exact ⟨e, createBucket_badName hvalid _ _⟩
        | ok _ => exact absurd hvalid hname
      · exact absurd hsame (hnew b hb)
  obtain ⟨e, hrun⟩ := hrun
  exact ⟨createBucketRefusal e, by simp [adminCreateBucket, LockingWorld.perform, hrun]⟩

/-- In a table that ends with the row of the bucket, and has no other of the name, the status
of that row is set. -/
theorem setStatus_insertRow {rows : List BucketRow} {row : BucketRow} {status : VersioningStatus}
    (hnew : ∀ b ∈ rows, b.name ≠ row.name) :
    setStatus row.name status (insertRow row rows) =
      insertRow { row with versioningStatus := status } rows := by
  have hkept : setStatus row.name status rows = rows := by
    refine (List.map_congr_left fun b hb => ?_).trans (List.map_id _)
    simp [hnew b hb]
  unfold setStatus insertRow at *
  unfold updateRows at *
  rw [List.map_append, hkept]
  simp

/-- A configuration that enables object locking changes nothing. -/
theorem NeverLocking.refuses (h : NeverLocking s) (bucket : String)
    {config : ObjectLockConfiguration} (henabled : config.enabled = true) :
    (putObjectLockConfiguration s bucket config).2 = s := by
  unfold putObjectLockConfiguration
  cases hselect : selectFirst (·.name == bucket) s.world.db.buckets with
  | none => rfl
  | some row =>
      have hnever := h.buckets row (selectFirst_some hselect).1
      simp [hnever, henabled]

/-- Versioning is set for the bucket that was added last, if it was asked for. -/
theorem buckets_enableVersioning {rows : List BucketRow} {row : BucketRow}
    (hrow : row.name = req.name) (hnew : ∀ b ∈ rows, b.name ≠ req.name)
    (hbuckets : s.world.db.buckets = insertRow row rows) :
    (req.enableVersioning s).world.db.buckets =
      insertRow
        (if req.versioning || req.objectLocking then { row with versioningStatus := .enabled }
          else row) rows := by
  unfold CreateBucketRequest.enableVersioning
  cases req.versioning || req.objectLocking with
  | false => exact hbuckets
  | true =>
      rw [← hrow] at hnew ⊢
      simp only [if_true, LockingWorld.perform]
      rw [setBucketVersioning_buckets, hbuckets]
      exact setStatus_insertRow hnew

theorem lockConfigs_enableVersioning :
    (req.enableVersioning s).lockConfigs = s.lockConfigs := by
  unfold CreateBucketRequest.enableVersioning
  split <;> rfl

/-- **Object locking is not enabled**, whether it was asked for or not. -/
theorem NeverLocking.enableLocking (h : NeverLocking s) : req.enableLocking s = s := by
  unfold CreateBucketRequest.enableLocking
  split
  · exact h.refuses req.name rfl
  · rfl

/-- **What the handler leaves behind** under an available name: the bucket, with the tenant
and the versioning that were asked for.  The configuration of object locking is refused. -/
theorem adminCreateBucket_created (hnever : NeverLocking s) (h : ¬req.Unavailable s) :
    ∃ info s', adminCreateBucket toRfc3339 req s = (.ok info, s') ∧
      s'.world.db.buckets = insertRow (req.row s) s.world.db.buckets ∧
      s'.lockConfigs = s.lockConfigs := by
  have hname : validateBucketName req.name = .ok () := by
    by_contra hbad
    exact h (Or.inl hbad)
  have hnew : ∀ b ∈ s.world.db.buckets, b.name ≠ req.name :=
    fun b hb hsame => h (Or.inr ⟨b, hb, hsame⟩)
  obtain ⟨s₁, hcreated, hbuckets₁, hconfigs₁⟩ : ∃ s₁,
      s.perform (createBucket req.name { region := none, tenantSlug := req.tenantSlug }) =
        (.ok (), s₁) ∧
      s₁.world.db.buckets = insertRow (bucketRow req.name
        { region := none, tenantSlug := req.tenantSlug } s.world.now.seconds)
          s.world.db.buckets ∧
      s₁.lockConfigs = s.lockConfigs := by
    refine ⟨{ s with world := { s.world with db := { s.world.db with
      buckets := insertRow (bucketRow req.name { region := none, tenantSlug := req.tenantSlug }
        s.world.now.seconds) s.world.db.buckets } } }, ?_, rfl, rfl⟩
    rw [LockingWorld.perform, createBucket_available _ hname hnew]
  have hbuckets : (req.enableVersioning s₁).world.db.buckets =
      insertRow (req.row s) s.world.db.buckets := by
    rw [buckets_enableVersioning rfl hnew hbuckets₁]
    unfold CreateBucketRequest.row
    split <;> rfl
  have hconfigs : (req.enableVersioning s₁).lockConfigs = s.lockConfigs := by
    rw [lockConfigs_enableVersioning, hconfigs₁]
  have hnever₂ : NeverLocking (req.enableVersioning s₁) := by
    constructor
    · intro b hb
      rw [hbuckets] at hb
      rcases mem_insertRow.mp hb with hold | rfl
      · exact hnever.buckets b hold
      · rfl
    · rw [hconfigs]
      exact hnever.configs
  refine ⟨{ name := req.name
            tenantSlug := req.tenantSlug
            createdAt := toRfc3339 (req.enableVersioning s₁).world.now },
    req.enableVersioning s₁, ?_, hbuckets, hconfigs⟩
  rw [adminCreateBucket, hcreated]
  dsimp only
  rw [hnever₂.enableLocking]

end Handler

/-! ## What was asked for -/

/-- **The bucket is as it was asked for**: it is there with its tenant, versioning is
enabled if that or object locking was asked for, and so is object locking. -/
structure DeliversBucket (req : CreateBucketRequest) (s : LockingWorld) : Prop where
  bucket : ∃ b ∈ s.world.db.buckets, b.name = req.name ∧ b.tenantSlug = req.tenantSlug
  versioning : req.versioning = true ∨ req.objectLocking = true →
    versioningStatus req.name s.world.db = some .enabled
  objectLocking : req.objectLocking = true →
    ∃ config, getObjectLockConfiguration req.name s = .ok (some config) ∧ config.enabled = true

/-- **A bucket that is created is as it was asked for** exactly if no object locking was:
in every reachable state, and for every request. -/
theorem createdBucket_delivers_iff {P : Platform} (toRfc3339 : DateTime → String)
    {s : LockingWorld} (hs : (lockingStore P).Reachable s) (req : CreateBucketRequest) :
    (∀ info s', adminCreateBucket toRfc3339 req s = (.ok info, s') → DeliversBucket req s') ↔
      (req.objectLocking = true → req.Unavailable s) := by
  have hnever := neverLocking_reachable hs
  by_cases h : req.Unavailable s
  · obtain ⟨e, hrefused⟩ := @adminCreateBucket_unavailable toRfc3339 req s h
    refine iff_of_true (fun info s' hcreated => ?_) fun _ => h
    rw [hrefused] at hcreated
    cases hcreated
  · obtain ⟨info, s', hcreated, hbuckets, hconfigs⟩ :=
      @adminCreateBucket_created toRfc3339 req s hnever h
    have hnew : ∀ b ∈ s.world.db.buckets, (b.name == req.name) = false := by
      intro b hb
      exact beq_eq_false_iff_ne.mpr fun hsame => h (Or.inr ⟨b, hb, hsame⟩)
    have hselect : selectFirst (·.name == req.name) s'.world.db.buckets = some (req.row s) := by
      have hnone := selectFirst_none.mpr hnew
      unfold selectFirst insertRow at *
      rw [hbuckets, List.find?_append, hnone]
      simp [CreateBucketRequest.row, bucketRow]
    constructor
    · intro hall hlocking
      obtain ⟨config, hget, henabled⟩ := (hall info s' hcreated).objectLocking hlocking
      -- the configuration that is read is one of the table, and none of these enables it
      have hread : s'.lockConfig req.name = some config := by
        unfold getObjectLockConfiguration at hget
        split at hget
        · exact Except.ok.inj hget
        · cases hget
      obtain ⟨row, hrow, rfl⟩ := Option.map_eq_some_iff.mp hread
      rw [hconfigs] at hrow
      rw [hnever.configs row (selectFirst_some hrow).1] at henabled
      cases henabled
    · intro hnot info' s'' hcreated'
      rw [hcreated] at hcreated'
      obtain ⟨-, rfl⟩ := Prod.mk.inj hcreated'
      refine
        { bucket := ?_
          versioning := ?_
          objectLocking := fun hlocking => absurd (hnot hlocking) h }
      · exact ⟨req.row s, (selectFirst_some hselect).1, rfl, rfl⟩
      · intro hasked
        have hstatus : (req.versioning || req.objectLocking) = true := by
          rw [Bool.or_eq_true]
          exact hasked
        rw [versioningStatus, hselect, Option.map_some, CreateBucketRequest.row, if_pos hstatus]

/-- A request for a versioned bucket of a tenant. -/
def versionedRequest : CreateBucketRequest where
  name := "photos"
  tenantSlug := some "acme"
  versioning := true

/-- A request for a bucket with object locking. -/
def lockingRequest : CreateBucketRequest where
  name := "vault"
  objectLocking := true

/-- The versioned bucket is as it was asked for. -/
theorem createdBucket_delivers_versioned :
    ∃ info s', adminCreateBucket (fun _ => "") versionedRequest docsOnly = (.ok info, s') ∧
      DeliversBucket versionedRequest s' := by
  have hcreated := (createdBucket_delivers_iff (fun _ => "") docsOnly_reachable
    versionedRequest).mpr (fun hlocking => absurd hlocking (by decide))
  exact ⟨_, _, rfl, hcreated _ _ rfl⟩

/-- **Object locking is acknowledged and not there**: the bucket is created, and has no
lock configuration. -/
theorem createdBucket_unlocked :
    ∃ info s', adminCreateBucket (fun _ => "") lockingRequest docsOnly = (.ok info, s') ∧
      getObjectLockConfiguration "vault" s' = .ok none ∧ ¬DeliversBucket lockingRequest s' := by
  have hnone : getObjectLockConfiguration "vault"
      (adminCreateBucket (fun _ => "") lockingRequest docsOnly).2 = .ok none := by
    decide +kernel
  refine ⟨_, _, rfl, hnone, fun hdelivers => ?_⟩
  obtain ⟨config, hget, -⟩ := hdelivers.objectLocking rfl
  cases hnone.symm.trans hget

end Strix

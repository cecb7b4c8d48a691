import Mathlib.Data.String.Basic
import Strix.ScopedTables
import Strix.StoreInvariant

/-!
# What the admin API tells of buckets

`get_storage_usage` and `list_buckets` read all buckets of the store and show those of
the tenant that the request names.  The usage of a bucket is read with one query, and the
totals of the response are summed up on the way; only the number of buckets is taken from
the list of all of them.

* `bucketList_agrees`: lists of buckets agree where the buckets of the tenant do;
* `storageUsage_eq_iff`: usage responses agree if the states have equally many buckets;
* `totalsRight_iff`: when the totals are those of the buckets that are listed;
* `tenantScoped_iff`: when neither answer depends on other tenants, and the totals are right.
-/

namespace Strix

open MachineRuns RowTable

/-! ## The store -/

/-- `list_buckets`: `ORDER BY name`. -/
def Db.listBuckets (db : Db) : List BucketRow :=
  db.buckets.insertionSort fun a b => a.name ≤ b.name

/-- `get_bucket_usage`: `COUNT(*), COALESCE(SUM(size), 0)`.  A sum that is no `i64` fails
the query, for which the closure answers zeros. -/
def Db.getBucketUsage (db : Db) (bucket : String) : Nat × Nat :=
  let rows := db.objects.filter (·.bucket == bucket)
  let size := (rows.map (·.size)).sum
  if size < 2 ^ 63 then (rows.length, size) else (0, 0)

/-! ## The handlers -/

/-- `bucket_visible_for_tenant`. -/
def bucketVisibleForTenant (bucketTenantSlug filterTenantSlug : Option String) : Bool :=
  match filterTenantSlug with
  | some filter => bucketTenantSlug == some filter
  | none => true

/-- The usage of a bucket. -/
structure BucketUsage where
  name : String
  createdAt : String
  objectCount : Nat
  totalSize : Nat
  deriving DecidableEq, Repr

/-- Storage usage response. -/
structure StorageUsageResponse where
  buckets : List BucketUsage := []
  totalBuckets : Nat := 0
  totalObjects : Nat := 0
  totalSize : Nat := 0
  deriving DecidableEq, Repr

/-- A bucket in a response. -/
structure BucketInfo where
  name : String
  tenantSlug : Option String
  createdAt : String
  deriving DecidableEq, Repr

/-- Pagination parameters of a request. -/
structure PaginationQuery where
  limit : UInt32 := 100
  offset : UInt32 := 0
  deriving DecidableEq, Repr

/-- `PaginationQuery::validate`. -/
def PaginationQuery.validate (pagination : PaginationQuery) : PaginationQuery :=
  if pagination.limit = 0 then { pagination with limit := 100 }
  else if 1000 < pagination.limit then { pagination with limit := 1000 }
  else pagination

/-- Paginated response wrapper. -/
structure PaginatedResponse (α : Type) where
  items : List α
  total : Option Nat
  count : UInt32
  offset : UInt32
  hasMore : Bool
  nextMarker : Option String := none
  deriving DecidableEq, Repr

section Handlers

variable (toRfc3339 : DateTime → String) (tenantSlug : Option String)

/-- The usage of a bucket, as it is shown. -/
def BucketRow.usage (db : Db) (bucket : BucketRow) : BucketUsage :=
  let usage := db.getBucketUsage bucket.name
  { name := bucket.name
    createdAt := toRfc3339 bucket.createdAt
    objectCount := usage.1
    totalSize := usage.2 }

/-- One turn of the loop of `get_storage_usage`; the sums are `u64`. -/
def addBucketUsage (db : Db) (response : StorageUsageResponse) (bucket : BucketRow) :
    StorageUsageResponse :=
  if !bucketVisibleForTenant bucket.tenantSlug tenantSlug then response
  else
    let usage := bucket.usage toRfc3339 db
    { response with
      buckets := response.buckets ++ [usage]
      totalObjects := (response.totalObjects + usage.objectCount) % 2 ^ 64
      totalSize := (response.totalSize + usage.totalSize) % 2 ^ 64 }

/-- `get_storage_usage`. -/
def getStorageUsage (db : Db) : StorageUsageResponse :=
  let buckets := db.listBuckets
  { buckets.foldl (addBucketUsage toRfc3339 tenantSlug db) {} with
    totalBuckets := buckets.length }

/-- A bucket of the list, as it is shown. -/
def BucketRow.info (bucket : BucketRow) : BucketInfo where
  name := bucket.name
  tenantSlug := bucket.tenantSlug
  createdAt := toRfc3339 bucket.createdAt

/-- `list_buckets`. -/
def listBuckets (query : PaginationQuery) (db : Db) : PaginatedResponse BucketInfo :=
  let pagination := query.validate
  let buckets := db.listBuckets.filter fun b => bucketVisibleForTenant b.tenantSlug tenantSlug
  let offset := pagination.offset.toNat
  let paginated := ((buckets.drop offset).take pagination.limit.toNat).map (·.info toRfc3339)
  let count := UInt32.ofNat paginated.length
  { items := paginated
    total := some buckets.length
    count := count
    offset := pagination.offset
    hasMore := decide (offset + count.toNat < buckets.length) }

end Handlers

/-! ## The loop -/

section Loop

variable {toRfc3339 : DateTime → String} {tenantSlug : Option String} {db : Db}

/-- The buckets that are visible for the tenant, in the order in which they are shown. -/
def Db.visibleBuckets (db : Db) (tenantSlug : Option String) : List BucketRow :=
  db.listBuckets.filter fun b => bucketVisibleForTenant b.tenantSlug tenantSlug

/-- **What the loop adds** to the response: the usage of each visible bucket, and the
sums modulo the width of `u64`. -/
theorem foldl_addBucketUsage (buckets : List BucketRow) (response : StorageUsageResponse)
    (hobjects : response.totalObjects < 2 ^ 64) (hsize : response.totalSize < 2 ^ 64) :
    let usages := (buckets.filter fun b => bucketVisibleForTenant b.tenantSlug tenantSlug).map
      (BucketRow.usage toRfc3339 db)
    buckets.foldl (addBucketUsage toRfc3339 tenantSlug db) response =
      { response with
        buckets := response.buckets ++ usages
        totalObjects :=
          (response.totalObjects + (usages.map BucketUsage.objectCount).sum) % 2 ^ 64
        totalSize := (response.totalSize + (usages.map BucketUsage.totalSize).sum) % 2 ^ 64 } := by
  induction buckets generalizing response with
  | nil =>
      intro usages
      simp only [usages, List.filter_nil, List.map_nil, List.sum_nil, List.append_nil,
        List.foldl_nil, Nat.add_zero, Nat.mod_eq_of_lt hobjects, Nat.mod_eq_of_lt hsize]
  | cons bucket buckets ih =>
      intro usages
      rw [List.foldl_cons]
      cases hvisible : bucketVisibleForTenant bucket.tenantSlug tenantSlug with
      | false =>
          have hskip : addBucketUsage toRfc3339 tenantSlug db response bucket = response := by
            simp [addBucketUsage, hvisible]
          have husages : usages =
              (buckets.filter fun b => bucketVisibleForTenant b.tenantSlug tenantSlug).map
                (BucketRow.usage toRfc3339 db) := by
            simp [usages, hvisible]
          rw [hskip, husages]
          exact ih response hobjects hsize
      | true =>
          have husages : usages = bucket.usage toRfc3339 db ::
              (buckets.filter fun b => bucketVisibleForTenant b.tenantSlug tenantSlug).map
                (BucketRow.usage toRfc3339 db) := by
            simp [usages, hvisible]
          have hadd := ih (addBucketUsage toRfc3339 tenantSlug db response bucket)
            (by simp only [addBucketUsage, hvisible]; exact Nat.mod_lt _ (by decide))
            (by simp only [addBucketUsage, hvisible]; exact Nat.mod_lt _ (by decide))
          rw [hadd, husages]
          simp [addBucketUsage, hvisible, Nat.add_assoc]

/-- **What `get_storage_usage` answers.** -/
theorem getStorageUsage_eq :
    getStorageUsage toRfc3339 tenantSlug db =
      let usages := (db.visibleBuckets tenantSlug).map (BucketRow.usage toRfc3339 db)
      { buckets := usages
        totalBuckets := db.buckets.length
        totalObjects := (usages.map BucketUsage.objectCount).sum % 2 ^ 64
        totalSize := (usages.map BucketUsage.totalSize).sum % 2 ^ 64 } := by
  have hloop := @foldl_addBucketUsage toRfc3339 tenantSlug db db.listBuckets {}
    (by decide) (by decide)
  have hlength : db.listBuckets.length = db.buckets.length := List.length_insertionSort _ _
  unfold getStorageUsage
  dsimp only at hloop ⊢
  rw [hloop, hlength]
  simp [Db.visibleBuckets]

end Loop

/-! ## Two states -/

/-- The primary keys of the tables. -/
structure Db.Keys (db : Db) : Prop where
  names : Keyed (·.name) db.buckets
  ids : Keyed (·.id) db.objects

/-- The states of the store keep their keys. -/
theorem keys_of_reachable {P : Platform} {w : World} (hw : (store P).Reachable w) :
    w.db.Keys :=
  ⟨(wellFormed_reachable hw).bucketNames, (wellFormed_reachable hw).keyedId⟩

/-- **The states agree** on the buckets of a tenant and on their objects. -/
structure AgreeFor (tenant : String) (db db' : Db) : Prop where
  buckets : AgreeOn (fun b => b.tenantSlug == some tenant) db.buckets db'.buckets
  objects : ∀ b ∈ db.buckets, b.tenantSlug = some tenant →
    AgreeOn (·.bucket == b.name) db.objects db'.objects

/-- The totals are those of the buckets that are listed. -/
structure StorageUsageResponse.TotalsRight (response : StorageUsageResponse) : Prop where
  buckets : response.totalBuckets = response.buckets.length
  objects : response.totalObjects = (response.buckets.map BucketUsage.objectCount).sum
  size : response.totalSize = (response.buckets.map BucketUsage.totalSize).sum

/-- The sums over the buckets of a tenant are `u64`. -/
structure Db.SumsFit (db : Db) (tenant : String) : Prop where
  objects : ((db.buckets.filter (·.tenantSlug == some tenant)).map
    fun b => (db.getBucketUsage b.name).1).sum < 2 ^ 64
  size : ((db.buckets.filter (·.tenantSlug == some tenant)).map
    fun b => (db.getBucketUsage b.name).2).sum < 2 ^ 64

section TwoStates

variable {toRfc3339 : DateTime → String} {tenant : String} {db db' : Db}

/-- Among all buckets those of the tenant are visible. -/
theorem visibleBuckets_perm :
    (db.visibleBuckets (some tenant)).Perm
      (db.buckets.filter (·.tenantSlug == some tenant)) :=
  (List.perm_insertionSort _ db.buckets).filter _

theorem mem_visibleBuckets {b : BucketRow} :
    b ∈ db.visibleBuckets (some tenant) ↔ b ∈ db.buckets ∧ b.tenantSlug = some tenant := by
  rw [visibleBuckets_perm.mem_iff, List.mem_filter, beq_iff_eq]

/-- The usage that is shown of a bucket of the tenant. -/
theorem usage_agrees (hkeys : db.Keys) (hkeys' : db'.Keys) (h : AgreeFor tenant db db')
    {b : BucketRow} (hb : b ∈ db.visibleBuckets (some tenant)) :
    b.usage toRfc3339 db = b.usage toRfc3339 db' := by
  obtain ⟨hmem, htenant⟩ := mem_visibleBuckets.mp hb
  have hobjects := h.objects b hmem htenant
  have hcount := hobjects.count hkeys.ids hkeys'.ids
  have hsum := hobjects.sum hkeys.ids hkeys'.ids (·.size)
  simp only [BucketRow.usage, Db.getBucketUsage, hcount, hsum]

theorem visibleBuckets_agree (hkeys : db.Keys) (hkeys' : db'.Keys)
    (h : AgreeFor tenant db db') :
    db.visibleBuckets (some tenant) = db'.visibleBuckets (some tenant) :=
  h.buckets.sorted hkeys.names hkeys'.names

/-- **Lists of buckets agree**, whatever the page. -/
theorem bucketList_agrees (hkeys : db.Keys) (hkeys' : db'.Keys) (h : AgreeFor tenant db db')
    (query : PaginationQuery) :
    listBuckets toRfc3339 (some tenant) query db =
      listBuckets toRfc3339 (some tenant) query db' := by
  have hvisible := visibleBuckets_agree hkeys hkeys' h
  unfold Db.visibleBuckets at hvisible
  unfold listBuckets
  rw [hvisible]

/-- **Usage responses agree** exactly if the states have equally many buckets, those of
other tenants included. -/
theorem storageUsage_eq_iff (hkeys : db.Keys) (hkeys' : db'.Keys)
    (h : AgreeFor tenant db db') :
    getStorageUsage toRfc3339 (some tenant) db = getStorageUsage toRfc3339 (some tenant) db' ↔
      db.buckets.length = db'.buckets.length := by
  have husages : (db.visibleBuckets (some tenant)).map (BucketRow.usage toRfc3339 db) =
      (db'.visibleBuckets (some tenant)).map (BucketRow.usage toRfc3339 db') := by
    rw [← visibleBuckets_agree hkeys hkeys' h]
    exact List.map_congr_left fun b hb => usage_agrees hkeys hkeys' h hb
  rw [getStorageUsage_eq, getStorageUsage_eq, husages]
  simp

/-- **The totals are right** exactly if all buckets of the state are the tenant's, and the
sums do not wrap. -/
theorem totalsRight_iff :
    (getStorageUsage toRfc3339 (some tenant) db).TotalsRight ↔
      (∀ b ∈ db.buckets, b.tenantSlug = some tenant) ∧ db.SumsFit tenant := by
  have hobjects : ((db.visibleBuckets (some tenant)).map
      (BucketUsage.objectCount ∘ BucketRow.usage toRfc3339 db)).sum =
      ((db.buckets.filter (·.tenantSlug == some tenant)).map
        fun b => (db.getBucketUsage b.name).1).sum :=
    (visibleBuckets_perm.map _).sum_nat
  have hsize : ((db.visibleBuckets (some tenant)).map
      (BucketUsage.totalSize ∘ BucketRow.usage toRfc3339 db)).sum =
      ((db.buckets.filter (·.tenantSlug == some tenant)).map
        fun b => (db.getBucketUsage b.name).2).sum :=
    (visibleBuckets_perm.map _).sum_nat
  have hcount : (db.visibleBuckets (some tenant)).length =
      (db.buckets.filter (·.tenantSlug == some tenant)).length :=
    visibleBuckets_perm.length_eq
  have hall : db.buckets.length = (db.buckets.filter (·.tenantSlug == some tenant)).length ↔
      ∀ b ∈ db.buckets, b.tenantSlug = some tenant := by
    rw [eq_comm, List.length_filter_eq_length_iff]
    simp only [beq_iff_eq]
  rw [getStorageUsage_eq]
  dsimp only
  constructor
  · intro hright
    have hbuckets := hright.buckets
    have hobjects' := hright.objects
    have hsize' := hright.size
    simp only [List.length_map, List.map_map, hcount, hobjects, hsize] at hbuckets hobjects' hsize'
    refine ⟨hall.mp hbuckets, ?_, ?_⟩
    · rw [← hobjects']
      exact Nat.mod_lt _ (by decide)
    · rw [← hsize']
      exact Nat.mod_lt _ (by decide)
  · intro ⟨htenant, hfit⟩
    refine ⟨?_, ?_, ?_⟩
    · simp only [List.length_map, hcount]
      exact hall.mpr htenant
    · simp only [List.map_map, hobjects]
      exact Nat.mod_eq_of_lt hfit.objects
    · simp only [List.map_map, hsize]
      exact Nat.mod_eq_of_lt hfit.size

end TwoStates

/-- **The answers are those of a tenant alone**: they are the same in both states, and the
totals are those of what is listed. -/
structure TenantScoped (toRfc3339 : DateTime → String) (tenant : String) (db db' : Db) :
    Prop where
  usage : getStorageUsage toRfc3339 (some tenant) db =
    getStorageUsage toRfc3339 (some tenant) db'
  list : ∀ query, listBuckets toRfc3339 (some tenant) query db =
    listBuckets toRfc3339 (some tenant) query db'
  totals : (getStorageUsage toRfc3339 (some tenant) db).TotalsRight

/-- **Answers are those of a tenant alone** exactly where there are no buckets of others,
as long as the sums do not wrap.  Lists of buckets are so in any case. -/
theorem tenantScoped_iff (toRfc3339 : DateTime → String) (tenant : String) {db db' : Db}
    (hkeys : db.Keys) (hkeys' : db'.Keys) (h : AgreeFor tenant db db') :
    (TenantScoped toRfc3339 tenant db db' ↔
      (∀ b ∈ db.buckets, b.tenantSlug = some tenant) ∧
        (∀ b ∈ db'.buckets, b.tenantSlug = some tenant) ∧ db.SumsFit tenant) ∧
    ∀ query, listBuckets toRfc3339 (some tenant) query db =
      listBuckets toRfc3339 (some tenant) query db' := by
  have hothers (hall : ∀ b ∈ db.buckets, b.tenantSlug = some tenant) :
      db.buckets.length = db'.buckets.length ↔
        ∀ b ∈ db'.buckets, b.tenantSlug = some tenant := by
    have hlength := h.buckets.length_eq_iff hkeys.names hkeys'.names
      (fun b hb => beq_iff_eq.mpr (hall b hb))
    simpa only [beq_iff_eq] using hlength
  refine ⟨?_, bucketList_agrees hkeys hkeys' h⟩
  constructor
  · intro hscoped
    obtain ⟨hall, hfit⟩ := totalsRight_iff.mp hscoped.totals
    have hlength := (storageUsage_eq_iff hkeys hkeys' h).mp hscoped.usage
    exact ⟨hall, (hothers hall).mp hlength, hfit⟩
  · intro ⟨hall, hall', hfit⟩
    have hlength := (hothers hall).mpr hall'
    exact
      { usage := (storageUsage_eq_iff hkeys hkeys' h).mpr hlength
        list := bucketList_agrees hkeys hkeys' h
        totals := totalsRight_iff.mpr ⟨hall, hfit⟩ }

/-- A bucket of a tenant. -/
def tenantBucket (name tenant : String) : BucketRow where
  name := name
  tenantSlug := some tenant
  region := none
  createdAt := 0

/-- The bucket of `acme`, alone. -/
def acmeAlone : Db where
  buckets := [tenantBucket "acme-data" "acme"]

/-- The bucket of `acme` beside one of another tenant. -/
def acmeBeside : Db where
  buckets := [tenantBucket "acme-data" "acme", tenantBucket "zeta-data" "zeta"]

theorem acme_agree : AgreeFor "acme" acmeAlone acmeBeside where
  buckets b hb := by
    have hother : b ≠ tenantBucket "zeta-data" "zeta" := by
      rintro rfl
      exact absurd hb (by decide)
    simp [acmeAlone, acmeBeside, hother]
  objects b hb htenant r hr := by simp [acmeAlone, acmeBeside]

theorem acmeAlone_keys : acmeAlone.Keys := by
  constructor <;> unfold Keyed <;> decide +kernel

theorem acmeBeside_keys : acmeBeside.Keys := by
  constructor <;> unfold Keyed <;> decide +kernel

/-- Alone, `acme` is told of its own buckets. -/
theorem tenantScoped_acme :
    TenantScoped (fun _ => "") "acme" acmeAlone acmeAlone := by
  have hself : AgreeFor "acme" acmeAlone acmeAlone :=
    ⟨fun b hb => Iff.rfl, fun b hb htenant r hr => Iff.rfl⟩
  refine ((tenantScoped_iff (fun _ => "") "acme" acmeAlone_keys acmeAlone_keys hself).1).mpr
    ⟨by decide +kernel, by decide +kernel, ?_, ?_⟩
  · decide +kernel
  · decide +kernel

/-- **The number of all buckets is told**: the states agree on what is the tenant's, and
the answers differ. -/
theorem storageUsage_leaks :
    (getStorageUsage (fun _ => "") (some "acme") acmeAlone).totalBuckets = 1 ∧
    (getStorageUsage (fun _ => "") (some "acme") acmeBeside).totalBuckets = 2 ∧
    (getStorageUsage (fun _ => "") (some "acme") acmeBeside).buckets.length = 1 ∧
    AgreeFor "acme" acmeAlone acmeBeside ∧
    ¬TenantScoped (fun _ => "") "acme" acmeAlone acmeBeside := by
  refine ⟨by decide +kernel, by decide +kernel, by decide +kernel, acme_agree, ?_⟩
  intro hscoped
  have hlength := (storageUsage_eq_iff acmeAlone_keys acmeBeside_keys acme_agree).mp
    hscoped.usage
  exact absurd hlength (by decide +kernel)

end Strix

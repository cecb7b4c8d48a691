import Strix.ExecutablePlatform
import Strix.StoreCalls

/-!
# Buckets and their tenants

A bucket may name the slug of a tenant.  No foreign key stands behind the name:
`create_bucket` inserts whatever slug it is given, and `delete_tenant` counts the
buckets of the tenant in one closure and deletes the tenant in the next.

* `tenantsSound_iff_referencesHold`: in every state of a run each slug of a bucket
  is that of a tenant exactly when every insert of a bucket finds the tenant it
  names, and every DELETE of a tenant still finds no bucket that names it.
-/

namespace Strix

open AtomicProgram AtomicProgram.Prog MachineRuns RowTable

/-! ## The calls -/

/-- A row of `tenants`. -/
structure TenantRow where
  id : String
  name : String
  slug : String
  owner : String
  notes : Option String
  createdAt : DateTime
  deriving DecidableEq, Repr

/-- The store with its table of tenants. -/
structure TenancyWorld where
  store : World := {}
  tenants : List TenantRow := []

abbrev TenancyProg (α : Type) := Prog TenancyWorld Error α

/-- A step of the store. -/
def storeStep {β : Type} (act : World → β × World) : TenancyWorld → β × TenancyWorld :=
  widened TenancyWorld.store (fun s w => { w with store := s }) act

/-- A call of the store. -/
def onStore {α : Type} (p : StoreProg α) : TenancyProg α :=
  p.within TenancyWorld.store fun s w => { w with store := s }

/-- `INSERT INTO tenants`. -/
def insertTenant (row : DateTime → TenantRow) (w : TenancyWorld) :
    Except SqlError Unit × TenancyWorld :=
  let r := row w.store.now.seconds
  if w.tenants.any (·.id == r.id) then (.error (.uniqueConstraint "tenants.id"), w)
  else if w.tenants.any (·.slug == r.slug) then (.error (.uniqueConstraint "tenants.slug"), w)
  else (.ok (), { w with tenants := insertRow r w.tenants })

/-- What `create_tenant` answers for a failed insert. -/
def createTenantError (slug : String) : SqlError → Error
  | .uniqueConstraint _ => .tenantAlreadyExists slug
  | e => dbErr e

/-- `get_tenant`. -/
def getTenant (slug : String) : TenancyProg TenantRow := do
  let row ← observe fun w => selectFirst (·.slug == slug) w.tenants
  require row (.tenantNotFound slug)

/-- `create_tenant`. -/
def createTenant (P : Platform) (name slug owner : String) (notes : Option String) :
    TenancyProg TenantRow := do
  let n ← onStore draw
  let result ← perform (insertTenant fun now =>
    { id := P.ulid n, name, slug, owner, notes, createdAt := now })
  lift (result.mapError (createTenantError slug))
  getTenant slug

/-- `DELETE FROM tenants WHERE slug = ?`, which answers how many rows it has deleted. -/
def deleteTenantRow (slug : String) (w : TenancyWorld) : Nat × TenancyWorld :=
  ((w.tenants.filter (·.slug == slug)).length,
    { w with tenants := deleteRows (·.slug == slug) w.tenants })

/-- `delete_tenant`. -/
def deleteTenant (slug : String) : TenancyProg Unit := do
  let bucketCount ← observe fun w =>
    (w.store.db.buckets.filter (·.tenantSlug == some slug)).length
  ensure (bucketCount == 0) (.invalidArgument "cannot delete tenant with existing buckets")
  let deleted ← perform (deleteTenantRow slug)
  ensure (deleted != 0) (.tenantNotFound slug)

/-- The calls that create and delete tenants and buckets. -/
inductive TenancyOp
  | createTenant (name slug owner : String) (notes : Option String)
  | deleteTenant (slug : String)
  | createBucket (bucket : String) (opts : CreateBucketOpts)
  | deleteBucket (bucket : String)

def TenancyOp.program (P : Platform) : TenancyOp → TenancyProg Unit
  | createTenant name slug owner notes => do
    let _ ← Strix.createTenant P name slug owner notes
    done ()
  | deleteTenant slug => Strix.deleteTenant slug
  | createBucket bucket opts => onStore (Strix.createBucket bucket opts)
  | deleteBucket bucket => onStore (Strix.deleteBucket bucket)

abbrev TenancyPool := Pool TenancyWorld Error Unit

/-- The clock moves on. -/
def tickTenancy (nanoseconds : Nat) (w : TenancyWorld) : TenancyWorld :=
  { w with store := tickWorld nanoseconds w.store }

/-- The calls side by side, while the clock moves on. -/
def tenancyRuns (P : Platform) (w : TenancyWorld) (ops : List TenancyOp) :
    Machine TenancyPool (Turn Nat) Unit :=
  pool tickTenancy { state := w, threads := ops.map (TenancyOp.program P) }

/-! ## Sound references -/

/-- There is a tenant of this slug. -/
def TenancyWorld.HasTenant (w : TenancyWorld) (slug : String) : Prop :=
  ∃ t ∈ w.tenants, t.slug = slug

/-- **Tenant references are sound**: a slug of a bucket is the slug of a tenant. -/
def TenantsSound (c : TenancyPool) : Prop :=
  ∀ b ∈ c.state.store.db.buckets, ∀ slug, b.tenantSlug = some slug → c.state.HasTenant slug

/-- **References are looked after** in a turn: if it inserts a bucket, the tenant
that the bucket names is there, and if it deletes a tenant, no bucket names it. -/
structure ReferencesHold (c : TenancyPool) (turn : Turn Nat) : Prop where
  inserts : ∀ i bucket opts slug, turn = .thread i →
    c.Before i (perform (storeStep (closureStep [insertBucket (bucketRow bucket opts)])) :
      TenancyProg (Except SqlError Unit)) →
    (∀ b ∈ c.state.store.db.buckets, b.name ≠ bucket) → opts.tenantSlug = some slug →
    c.state.HasTenant slug
  deletes : ∀ i slug, turn = .thread i →
    c.Before i (perform (deleteTenantRow slug) : TenancyProg Nat) →
    ∀ b ∈ c.state.store.db.buckets, b.tenantSlug ≠ some slug

/-! ## The steps of the calls -/

/-- A step that adds no bucket and takes no tenant away. -/
def Spares {β : Type} (act : TenancyWorld → β × TenancyWorld) : Prop :=
  ∀ w, (∀ b ∈ (act w).2.store.db.buckets, b ∈ w.store.db.buckets) ∧
    ∀ t ∈ w.tenants, t ∈ (act w).2.tenants

/-- **The kinds of steps** that the calls take. -/
inductive TenancyStep : ∀ ⦃β : Type⦄, (TenancyWorld → β × TenancyWorld) → Prop
  | spares {β : Type} {act : TenancyWorld → β × TenancyWorld} (h : Spares act) : TenancyStep act
  | insertsBucket (bucket : String) (opts : CreateBucketOpts) :
      TenancyStep (storeStep (closureStep [insertBucket (bucketRow bucket opts)]))
  | deletesTenant (slug : String) : TenancyStep (deleteTenantRow slug)

theorem spares_observe {α : Type} (read : TenancyWorld → α) :
    Spares fun w => (read w, w) :=
  fun _ => ⟨fun _ hb => hb, fun _ ht => ht⟩

theorem spares_insertTenant (row : DateTime → TenantRow) : Spares (insertTenant row) := by
  intro w
  simp only [insertTenant]
  split
  · exact ⟨fun _ hb => hb, fun _ ht => ht⟩
  · split
    · exact ⟨fun _ hb => hb, fun _ ht => ht⟩
    · exact ⟨fun _ hb => hb, fun _ ht => mem_insertRow.mpr (Or.inl ht)⟩

/-- A step of the store that adds no bucket. -/
theorem spares_storeStep {β : Type} {act : World → β × World}
    (h : ∀ w, ∀ b ∈ (act w).2.db.buckets, b ∈ w.db.buckets) : Spares (storeStep act) :=
  fun w => ⟨h w.store, fun _ ht => ht⟩

theorem tenancyStep_quiet {β : Type} {act : World → β × World} (h : Quiet act) :
    TenancyStep (storeStep act) := by
  refine .spares (spares_storeStep fun w b hb => ?_)
  rwa [(h w).1] at hb

/-- **Every step of every call** is of one of the kinds. -/
theorem program_only (P : Platform) (op : TenancyOp) : (op.program P).Only TenancyStep := by
  cases op with
  | createTenant name slug owner notes =>
      have hdraw : (onStore draw).Only TenancyStep := quiet_draw.within fun _ _ => tenancyStep_quiet
      have hget : (getTenant slug).Only TenancyStep :=
        (only_perform (.spares (spares_observe _))).bind fun _ => only_require _ _
      have hcreate : (Strix.createTenant P name slug owner notes).Only TenancyStep :=
        hdraw.bind fun _ => (only_perform (.spares (spares_insertTenant _))).bind fun _ =>
          (only_lift _).bind fun _ => hget
      exact hcreate.bind fun _ => only_pure ()
  | deleteTenant slug =>
      exact (only_perform (.spares (spares_observe _))).bind fun _ => (only_ensure _ _).bind
        fun _ => (only_perform (.deletesTenant slug)).bind fun _ => only_ensure _ _
  | createBucket bucket opts =>
      have hcreate : (Strix.createBucket bucket opts).Only fun _ act =>
          TenancyStep (storeStep act) :=
        (only_lift _).bind fun _ => (only_perform (.insertsBucket bucket opts)).bind
          fun _ => only_lift _
      exact hcreate.within fun _ _ h => h
  | deleteBucket bucket =>
      have hdeletes : TenancyStep (storeStep (closureStep [deleteBucketRow bucket])) := by
        refine .spares (spares_storeStep fun w b hb => ?_)
        exact (mem_deleteRows.mp hb).1
      have hcall : (call [deleteBucketRow bucket]).Only fun _ act =>
          TenancyStep (storeStep act) :=
        (only_perform (K := fun _ act => TenancyStep (storeStep act)) hdeletes).bind
          fun _ => only_lift _
      have hdelete : (Strix.deleteBucket bucket).Only fun _ act =>
          TenancyStep (storeStep act) :=
        ((quiet_query _).mono fun _ _ => tenancyStep_quiet).bind fun _ =>
          (only_ensure _ _).bind fun _ => (only_ensure _ _).bind fun _ => hcall
      exact hdelete.within fun _ _ h => h

/-! ## One turn -/

variable {c : TenancyPool}

/-- The buckets after an insert. -/
theorem mem_buckets_insert {w : World} {bucket : String} {opts : CreateBucketOpts}
    {b : BucketRow} :
    b ∈ (closureStep [insertBucket (bucketRow bucket opts)] w).2.db.buckets ↔
      b ∈ w.db.buckets ∨
        ((∀ b' ∈ w.db.buckets, b'.name ≠ bucket) ∧ b = bucketRow bucket opts w.now.seconds) := by
  by_cases hthere : ∃ b' ∈ w.db.buckets, b'.name = bucket
  · have hnot : ¬∀ b' ∈ w.db.buckets, b'.name ≠ bucket := by
      intro hnone
      obtain ⟨b', hb', hname⟩ := hthere
      exact hnone b' hb' hname
    simp only [hnot, false_and, or_false]
    simp [closureStep, runStatements, insertBucket, bucketRow, hthere]
  · have hnone : ∀ b' ∈ w.db.buckets, b'.name ≠ bucket := fun b' hb' hname =>
      hthere ⟨b', hb', hname⟩
    simp only [eq_true hnone, true_and]
    simp [closureStep, runStatements, insertBucket, bucketRow, hthere]

/-- A step that spares buckets and tenants keeps references sound. -/
theorem tenantsSound_spares {c' : TenancyPool} (hsound : TenantsSound c)
    (hbuckets : ∀ b ∈ c'.state.store.db.buckets, b ∈ c.state.store.db.buckets)
    (htenants : ∀ t ∈ c.state.tenants, t ∈ c'.state.tenants) : TenantsSound c' := by
  intro b hb slug hslug
  obtain ⟨t, ht, hname⟩ := hsound b (hbuckets b hb) slug hslug
  exact ⟨t, htenants t ht, hname⟩

/-- An insert keeps references sound exactly if it finds the tenant it names. -/
theorem tenantsSound_insert {c' : TenancyPool} {bucket : String} {opts : CreateBucketOpts}
    (hsound : TenantsSound c)
    (hstate : c'.state =
      (storeStep (closureStep [insertBucket (bucketRow bucket opts)]) c.state).2) :
    TenantsSound c' ↔ ∀ slug, (∀ b ∈ c.state.store.db.buckets, b.name ≠ bucket) →
      opts.tenantSlug = some slug → c.state.HasTenant slug := by
  have hmem : ∀ b, b ∈ c'.state.store.db.buckets ↔ b ∈ c.state.store.db.buckets ∨
      ((∀ b' ∈ c.state.store.db.buckets, b'.name ≠ bucket) ∧
        b = bucketRow bucket opts c.state.store.now.seconds) := by
    intro b
    rw [hstate]
    exact mem_buckets_insert
  have htenants : c'.state.tenants = c.state.tenants := by rw [hstate]; rfl
  unfold TenantsSound TenancyWorld.HasTenant
  rw [htenants]
  constructor
  · intro h slug hfree hslug
    exact h _ ((hmem _).mpr (Or.inr ⟨hfree, rfl⟩)) slug hslug
  · intro h b hb slug hslug
    rcases (hmem b).mp hb with hold | ⟨hfree, rfl⟩
    · exact hsound b hold slug hslug
    · exact h slug hfree hslug

/-- A DELETE keeps references sound exactly if no bucket names the tenant. -/
theorem tenantsSound_delete {c' : TenancyPool} {slug : String} (hsound : TenantsSound c)
    (hstate : c'.state = (deleteTenantRow slug c.state).2) :
    TenantsSound c' ↔ ∀ b ∈ c.state.store.db.buckets, b.tenantSlug ≠ some slug := by
  have hbuckets : c'.state.store = c.state.store := by rw [hstate]; rfl
  have hmem : ∀ t, t ∈ c'.state.tenants ↔ t ∈ c.state.tenants ∧ t.slug ≠ slug := by
    intro t
    rw [hstate]
    simp [deleteTenantRow]
  unfold TenantsSound TenancyWorld.HasTenant
  rw [hbuckets]
  constructor
  · intro h b hb hslug
    obtain ⟨t, ht, hname⟩ := h b hb slug hslug
    exact ((hmem t).mp ht).2 hname
  · intro h b hb slug' hslug
    obtain ⟨t, ht, hname⟩ := hsound b hb slug' hslug
    refine ⟨t, (hmem t).mpr ⟨ht, fun heq => ?_⟩, hname⟩
    exact h b hb (by rw [hslug, ← hname, heq])

/-- The turn of a thread that is about to take a step. -/
theorem tenancy_turn_before {β : Type} {act : TenancyWorld → β × TenancyWorld} {i : Nat}
    (h : c.Before i (perform act : TenancyProg β)) :
    (c.turn tickTenancy (.thread i)).state = (act c.state).2 := by
  obtain ⟨next, hp⟩ := h
  rw [turn_step hp]

/-- **References stay sound** in every state of a run exactly when every insert of a
bucket finds the tenant it names and every DELETE of a tenant finds no bucket that
names it. -/
theorem tenantsSound_iff_referencesHold {P : Platform} {w : TenancyWorld}
    {ops : List TenancyOp} (hw : TenantsSound (tenancyRuns P w ops).init)
    (schedule : List (Turn Nat)) :
    (tenancyRuns P w ops).AllStates TenantsSound (tenancyRuns P w ops).init schedule ↔
      (tenancyRuns P w ops).AllSteps ReferencesHold (tenancyRuns P w ops).init schedule := by
  have hstart : ∀ p ∈ (tenancyRuns P w ops).init.threads, p.Only TenancyStep := by
    intro p hp
    obtain ⟨op, -, rfl⟩ := List.mem_map.mp hp
    exact program_only P op
  refine Machine.allStates_iff_allSteps (I := fun c => ∀ p ∈ c.threads, p.Only TenancyStep)
    (S := fun _ _ => True) (fun c turn honly _ => (turn_only_cases tickTenancy honly turn).1)
    ?_ hstart hw (Machine.allSteps_of_forall _ (fun _ _ => trivial) _ _)
  intro c turn honly _ hsound
  constructor
  · intro hnext
    refine ⟨fun i bucket opts slug hturn hbefore hfree hslug => ?_, fun i slug hturn hbefore => ?_⟩
    · subst hturn
      exact (tenantsSound_insert hsound (tenancy_turn_before hbefore)).mp hnext slug hfree hslug
    · subst hturn
      exact (tenantsSound_delete hsound (tenancy_turn_before hbefore)).mp hnext
  · intro hguard
    rcases (turn_only_cases tickTenancy honly turn).2 with
      ⟨event, rfl, hstate⟩ | ⟨-, hsame⟩ | ⟨i, β, act, next, rfl, hp, hkind, hstate⟩
    · exact hsound
    · show TenantsSound (c.turn tickTenancy turn)
      rwa [hsame]
    · cases hkind with
      | spares h =>
          refine tenantsSound_spares hsound ?_ ?_
          · exact fun b hb => (h c.state).1 b (hstate ▸ hb)
          · exact fun t ht => hstate ▸ (h c.state).2 t ht
      | insertsBucket bucket opts =>
          refine (tenantsSound_insert hsound hstate).mpr fun slug hfree hslug => ?_
          exact hguard.inserts i bucket opts slug rfl ⟨next, hp⟩ hfree hslug
      | deletesTenant slug =>
          exact (tenantsSound_delete hsound hstate).mpr (hguard.deletes i slug rfl ⟨next, hp⟩)

/-! ## A bucket without its tenant -/

/-- A bucket is created for a tenant while the tenant is deleted. -/
def deleteAndCreate : List TenancyOp :=
  [.deleteTenant "acme", .createBucket "docs" { tenantSlug := some "acme" }]

/-- One tenant without buckets. -/
def acmeWorld : TenancyWorld where
  tenants := [{ id := "01ARZ3NDEKTSV4RRFFQ69G5FAV", name := "Acme", slug := "acme",
                owner := "alice", notes := none, createdAt := 0 }]

/-- The bucket is inserted after the count and before the DELETE. -/
def createdBetween : List (Turn Nat) := [.thread 0, .thread 1, .thread 0]

theorem createdBetween_end :
    let last := (tenancyRuns executablePlatform acmeWorld deleteAndCreate).after
      (tenancyRuns executablePlatform acmeWorld deleteAndCreate).init createdBetween
    last.state.store.db.buckets = [bucketRow "docs" { tenantSlug := some "acme" } 0] ∧
      last.state.tenants = [] := by
  decide

theorem createdBetween_unsound :
    ¬(tenancyRuns executablePlatform acmeWorld deleteAndCreate).AllStates TenantsSound
      (tenancyRuns executablePlatform acmeWorld deleteAndCreate).init createdBetween := by
  intro hall
  obtain ⟨hbuckets, htenants⟩ := createdBetween_end
  obtain ⟨t, ht, -⟩ := hall.after (bucketRow "docs" { tenantSlug := some "acme" } 0)
    (by rw [hbuckets]; exact List.mem_cons_self) "acme" rfl
  rw [htenants] at ht
  exact List.not_mem_nil ht

theorem tenantsSound_iff_referencesHold_acme :
    ¬(tenancyRuns executablePlatform acmeWorld deleteAndCreate).AllSteps ReferencesHold
      (tenancyRuns executablePlatform acmeWorld deleteAndCreate).init createdBetween :=
  fun hguard => createdBetween_unsound
    ((tenantsSound_iff_referencesHold (fun _ hb => absurd hb List.not_mem_nil)
      createdBetween).mpr hguard)

/-- A single call that names a tenant nobody has created. -/
def unknownTenant : List TenancyOp := [.createBucket "docs" { tenantSlug := some "acme" }]

/-- **A bucket of a tenant that does not exist**: the slug is inserted unchecked. -/
theorem unknownTenant_inserted :
    ¬ ∀ (P : Platform) (ops : List TenancyOp) (schedule : List (Turn Nat)),
      (tenancyRuns P {} ops).AllStates TenantsSound (tenancyRuns P {} ops).init schedule := by
  intro h
  have hend : ((tenancyRuns executablePlatform {} unknownTenant).after
      (tenancyRuns executablePlatform {} unknownTenant).init [.thread 0]).state.store.db.buckets =
        [bucketRow "docs" { tenantSlug := some "acme" } 0] := by decide
  obtain ⟨t, ht, -⟩ := (h executablePlatform unknownTenant [.thread 0]).after
    (bucketRow "docs" { tenantSlug := some "acme" } 0)
    (by rw [hend]; exact List.mem_cons_self) "acme" rfl
  exact List.not_mem_nil ht

end Strix

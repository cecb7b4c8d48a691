import Mathlib.Data.List.Nodup
import Strix.MachineRuns
import Strix.StoppedPrograms

/-!
# Migrations of the store's database

`run_migrations` makes the baseline tables and runs the migrations that are newer than
the version of the database.  Every statement commits on its own, so a process that stops
between two of them leaves the effects of the first ones behind.

* `restartable_iff`: the next run completes the schema unless some process was stopped
  after `ALTER TABLE buckets ADD COLUMN tenant_slug` and before migration 2 was recorded.
-/

namespace Strix

open AtomicProgram MachineRuns

/-! ## Schemas -/

/-- A table with the names of its columns. -/
structure Table where
  name : String
  columns : List String
  deriving DecidableEq, Repr

/-- What the database holds of its schema: tables, names of indexes, and the rows of
`_strix_migrations`. -/
structure Schema where
  tables : List Table := []
  indexes : List String := []
  migrations : List (Nat × String) := []
  deriving DecidableEq, Repr

/-- The statements of the migrations.  Pragmas, queries and temporary tables, which are
gone with the connection, leave the schema as it is. -/
inductive SchemaStatement
  | createTable (table : Table)
  | createIndex (name table : String) (columns : List String)
  | addColumn (table column : String)
  | record (version : Nat) (name : String)
  | other (sql : String)
  deriving DecidableEq, Repr

/-- Why a statement fails. -/
inductive SchemaError
  | noSuchTable (name : String)
  | noSuchColumn (name : String)
  | duplicateColumn (name : String)
  | uniqueConstraint
  deriving DecidableEq, Repr

namespace Schema

def hasTable (db : Schema) (name : String) : Bool := db.tables.any (·.name == name)

/-- Add the column to the table. -/
def withColumn (db : Schema) (table column : String) : Schema :=
  { db with tables := db.tables.map fun t =>
      if t.name = table then { t with columns := t.columns ++ [column] } else t }

/-- Execute a statement; tables and indexes are created `IF NOT EXISTS`. -/
def exec (db : Schema) : SchemaStatement → Except SchemaError Unit × Schema
  | .createTable table =>
    if db.hasTable table.name then (.ok (), db)
    else (.ok (), { db with tables := db.tables ++ [table] })
  | .createIndex name table columns =>
    if name ∈ db.indexes then (.ok (), db)
    else
      match db.tables.find? (·.name == table) with
      | none => (.error (.noSuchTable table), db)
      | some t =>
        match columns.find? fun column => !t.columns.contains column with
        | some column => (.error (.noSuchColumn column), db)
        | none => (.ok (), { db with indexes := db.indexes ++ [name] })
  | .addColumn table column =>
    match db.tables.find? (·.name == table) with
    | none => (.error (.noSuchTable table), db)
    | some t =>
      if column ∈ t.columns then (.error (.duplicateColumn column), db)
      else (.ok (), db.withColumn table column)
  | .record version name =>
    if !db.hasTable "_strix_migrations" then (.error (.noSuchTable "_strix_migrations"), db)
    else if db.migrations.any (·.1 == version) then (.error .uniqueConstraint, db)
    else (.ok (), { db with migrations := db.migrations ++ [(version, name)] })
  | .other _ => (.ok (), db)

/-- `SELECT COALESCE(MAX(version), 0) FROM _strix_migrations`. -/
def version (db : Schema) : Nat := (db.migrations.map (·.1)).foldr max 0

end Schema

/-! ## The migrations -/

/-- Current schema version. -/
def currentVersion : Nat := 3

/-- The table that tracks the migrations. -/
def migrationsTable : Table where
  name := "_strix_migrations"
  columns := ["version", "name", "applied_at"]

def bucketsTable : Table where
  name := "buckets"
  columns := ["name", "region", "versioning_status", "object_lock_enabled", "created_at"]

def objectsTable : Table where
  name := "objects"
  columns := ["id", "bucket", "key", "version_id", "size", "etag", "content_type",
    "content_encoding", "content_disposition", "cache_control", "storage_class",
    "user_metadata", "is_multipart", "part_count", "is_latest", "is_delete_marker",
    "encryption_algorithm", "encryption_key_md5", "encryption_nonce", "retention_mode",
    "retain_until_date", "legal_hold", "created_at", "last_modified"]

def multipartUploadsTable : Table where
  name := "multipart_uploads"
  columns := ["upload_id", "bucket", "key", "content_type", "content_encoding",
    "content_disposition", "cache_control", "storage_class", "user_metadata",
    "encryption_algorithm", "encryption_key_md5", "initiated_at"]

def auditLogTable : Table where
  name := "audit_log"
  columns := ["id", "timestamp", "operation", "bucket", "key", "principal", "source_ip",
    "status_code", "error_code", "duration_ms", "bytes_sent", "request_id"]

def notificationDeliveryTable : Table where
  name := "notification_delivery"
  columns := ["id", "timestamp", "bucket", "rule_id", "destination_type", "target",
    "event_type", "object_key", "attempts", "status", "response_code", "last_error"]

/-- A table of one configuration document for each bucket. -/
def configTable (name document : String) : Table where
  name := name
  columns := ["bucket", document, "created_at"]

/-- The statements of `init_schema`. -/
def initSchema : List SchemaStatement := [
  .other "PRAGMA journal_mode = WAL",
  .other "PRAGMA busy_timeout = 5000",
  .other "PRAGMA foreign_keys = ON",
  .other "PRAGMA synchronous = NORMAL",
  .createTable bucketsTable,
  .createTable objectsTable,
  .createIndex "idx_objects_bucket_key" "objects" ["bucket", "key"],
  .createIndex "idx_objects_latest" "objects" ["bucket", "key", "is_latest"],
  .createTable multipartUploadsTable,
  .createTable
    ⟨"parts", ["upload_id", "part_number", "blob_id", "size", "etag", "created_at"]⟩,
  .createTable
    ⟨"access_keys", ["access_key", "secret_key", "user_name", "is_root", "enabled", "created_at"]⟩,
  .createTable ⟨"policies", ["name", "policy_document", "created_at"]⟩,
  .createTable ⟨"bucket_policies", ["bucket", "policy_name"]⟩,
  .createTable (configTable "bucket_cors" "cors_config"),
  .createTable (configTable "bucket_object_lock" "lock_config"),
  .createTable (configTable "bucket_lifecycle" "lifecycle_config"),
  .createTable (configTable "bucket_notification" "notification_config"),
  .createTable auditLogTable,
  .createIndex "idx_audit_log_timestamp" "audit_log" ["timestamp"],
  .createIndex "idx_audit_log_bucket" "audit_log" ["bucket"],
  .createTable notificationDeliveryTable,
  .createIndex "idx_notif_delivery_timestamp" "notification_delivery" ["timestamp"],
  .createIndex "idx_notif_delivery_bucket" "notification_delivery" ["bucket"],
  .createIndex "idx_notif_delivery_status" "notification_delivery" ["status"],
  .other "PRAGMA foreign_keys = ON"]

/-- A migration. -/
structure Migration where
  version : Nat
  name : String
  sql : List SchemaStatement
  deriving DecidableEq, Repr

/-- What migration 2 does before it adds the column.  The guard that it computes guards
nothing. -/
def addTenantsTable : List SchemaStatement := [
  .createTable ⟨"tenants", ["id", "name", "slug", "owner", "notes", "created_at"]⟩,
  .createIndex "idx_tenants_slug" "tenants" ["slug"],
  .other "CREATE TEMP TABLE IF NOT EXISTS _migrate_guard(x INTEGER)",
  .other "INSERT INTO _migrate_guard(x) SELECT 1 WHERE NOT EXISTS (..)"]

/-- `ALTER TABLE buckets ADD COLUMN tenant_slug TEXT`. -/
def addTenantSlug : SchemaStatement := .addColumn "buckets" "tenant_slug"

def tenantSlugIndex : SchemaStatement :=
  .createIndex "idx_buckets_tenant_slug" "buckets" ["tenant_slug"]

def bucketTagsTable : Table := configTable "bucket_tags" "tags_config"

/-- Returns all migrations. -/
def getMigrations : List Migration := [
  { version := 1, name := "initial_schema", sql := [.other "SELECT 1"] },
  { version := 2
    name := "add_tenants"
    sql := addTenantsTable ++ [addTenantSlug, tenantSlugIndex] },
  { version := 3, name := "add_bucket_tags", sql := [.createTable bucketTagsTable] }]

/-- A program over the schema. -/
abbrev SchemaProg (α : Type) := Prog Schema SchemaError α

namespace SchemaProg

def execute (statement : SchemaStatement) : SchemaProg Unit :=
  Prog.perform (fun db : Schema => db.exec statement) >>= Prog.lift

/-- `execute_batch`: one statement after the other, up to the first that fails. -/
def executeBatch : List SchemaStatement → SchemaProg Unit
  | [] => pure ()
  | statement :: rest => do
    execute statement
    executeBatch rest

/-- The loop over the migrations. -/
def runPending (version : Nat) : List Migration → SchemaProg Unit
  | [] => pure ()
  | migration :: rest => do
    if version < migration.version then
      executeBatch migration.sql
      execute (.record migration.version migration.name)
    runPending version rest

/-- `run_migrations`. -/
def runMigrations : SchemaProg Unit := do
  executeBatch [.createTable migrationsTable]
  executeBatch initSchema
  let version ← Prog.observe (·.version)
  runPending version getMigrations

end SchemaProg

/-! ## What a run should make of a database -/

/-- The tables of the full schema, with the columns of all migrations. -/
def fullTables : List Table :=
  [migrationsTable, { bucketsTable with columns := bucketsTable.columns ++ ["tenant_slug"] }] ++
    (initSchema ++ addTenantsTable).filterMap (fun
      | .createTable table => if table = bucketsTable then none else some table
      | _ => none) ++ [bucketTagsTable]

/-- The indexes of the full schema. -/
def fullIndexes : List String :=
  (initSchema ++ addTenantsTable ++ [tenantSlugIndex]).filterMap fun
    | .createIndex name _ _ => some name
    | _ => none

/-- **The full schema**, with every migration applied once and recorded. -/
structure Schema.Full (db : Schema) : Prop where
  tables : ∀ table ∈ fullTables, ∃ t ∈ db.tables, t.name = table.name ∧
    t.columns.Nodup ∧ ∀ column ∈ table.columns, column ∈ t.columns
  indexes : ∀ name ∈ fullIndexes, name ∈ db.indexes
  once : (db.tables.map (·.name)).Nodup
  migrations : db.migrations = getMigrations.map fun m => (m.version, m.name)
  version : db.version = currentVersion

/-- **Running the migrations completes the schema.** -/
def Schema.Restartable (db : Schema) : Prop :=
  (SchemaProg.runMigrations.run db).1 = .ok () ∧ (SchemaProg.runMigrations.run db).2.Full

/-- Processes that run the migrations, each of them stopped after so many statements. -/
def migrationRuns : Machine Schema Nat Unit where
  init := {}
  step db n := ((), SchemaProg.runMigrations.stopped n db)

/-- What every run begins with. -/
def baseline : List SchemaStatement := .createTable migrationsTable :: initSchema

def readVersion : SchemaStatement :=
  .other "SELECT COALESCE(MAX(version), 0) FROM _strix_migrations"

/-- The statements of the migrations that are newer than a version. -/
def pending (version : Nat) : List SchemaStatement :=
  (getMigrations.filter fun m => version < m.version).flatMap fun m =>
    m.sql ++ [.record m.version m.name]

/-- The statements of a run on a database, the reading of the version among them. -/
def migrationScript (db : Schema) : List SchemaStatement :=
  baseline ++ readVersion :: pending db.version

/-- Migration 2 is recorded. -/
def recordTenants : SchemaStatement := .record 2 "add_tenants"

/-- The process stops after the column has been added, and before migration 2 is
recorded. -/
def StopsBetween (db : Schema) (n : Nat) : Prop :=
  addTenantSlug ∈ (migrationScript db).take n ∧ recordTenants ∉ (migrationScript db).take n

instance (db : Schema) (n : Nat) : Decidable (StopsBetween db n) :=
  inferInstanceAs (Decidable (_ ∧ _))

example : (SchemaProg.runMigrations.run {}).2.tables.length = 16 := by decide +kernel

/-! ## Batches -/

open SchemaProg

section Batches

variable {db : Schema} {statement : SchemaStatement} {xs ys : List SchemaStatement}

theorem executeBatch_append (xs ys : List SchemaStatement) :
    executeBatch (xs ++ ys) = executeBatch xs >>= fun _ => executeBatch ys := by
  induction xs with
  | nil => rfl
  | cons x xs ih =>
      rw [List.cons_append, executeBatch, executeBatch, ih, Prog.bind_assoc]

/-- A batch that goes on. -/
theorem run_batch_ok {db' : Schema} (h : db.exec statement = (.ok (), db')) :
    (executeBatch (statement :: xs)).run db = (executeBatch xs).run db' := by
  rw [executeBatch, execute, Prog.bind_assoc, Prog.run_perform_bind, h, Prog.run_lift_bind]

/-- A batch that ends with a failure. -/
theorem run_batch_error {e : SchemaError} {db' : Schema}
    (h : db.exec statement = (.error e, db')) :
    (executeBatch (statement :: xs)).run db = (.error e, db') := by
  rw [executeBatch, execute, Prog.bind_assoc, Prog.run_perform_bind, h, Prog.run_lift_bind]

/-- A batch after a batch that went on. -/
theorem run_batch_append {db' : Schema} (h : (executeBatch xs).run db = (.ok (), db')) :
    (executeBatch (xs ++ ys)).run db = (executeBatch ys).run db' := by
  rw [executeBatch_append, Prog.run_bind, h]

/-- **A batch that is stopped** has run its first statements. -/
theorem stopped_batch (n : Nat) :
    (executeBatch xs).stopped n db = ((executeBatch (xs.take n)).run db).2 := by
  induction xs generalizing n db with
  | nil =>
      rw [List.take_nil]
      exact Prog.stopped_done n () db
  | cons x xs ih =>
      cases n with
      | zero => exact Prog.stopped_zero _ db
      | succ n =>
          rw [List.take_succ_cons]
          have hstep : (executeBatch (x :: xs)).stopped (n + 1) db =
              ((Prog.lift (db.exec x).1 : SchemaProg Unit) >>= fun _ =>
                executeBatch xs).stopped n (db.exec x).2 := rfl
          rw [hstep]
          rcases hexec : db.exec x with ⟨result, db'⟩
          cases result with
          | ok value =>
              rw [run_batch_ok hexec]
              exact ih n
          | error e =>
              rw [run_batch_error hexec]
              exact Prog.stopped_fail n e db'

/-- The loop over the migrations is one batch. -/
theorem runPending_eq (version : Nat) (migrations : List Migration) :
    runPending version migrations =
      executeBatch ((migrations.filter fun m => version < m.version).flatMap fun m =>
        m.sql ++ [.record m.version m.name]) := by
  induction migrations with
  | nil => rfl
  | cons m rest ih =>
      rw [runPending]
      by_cases hnew : version < m.version
      · rw [if_pos hnew, List.filter_cons_of_pos (by simpa using hnew), List.flatMap_cons,
          executeBatch_append, executeBatch_append, ← ih, Prog.bind_assoc]
        simp only [executeBatch, Prog.bind_assoc]
        rfl
      · rw [if_neg hnew, List.filter_cons_of_neg (by simpa using hnew), ← ih]

/-- `run_migrations` is its baseline, the reading of the version, and what is pending. -/
theorem runMigrations_eq : runMigrations =
    executeBatch baseline >>= fun _ => Prog.observe (·.version) >>= fun version =>
      executeBatch (pending version) := by
  have hpending (version : Nat) :
      runPending version getMigrations = executeBatch (pending version) :=
    runPending_eq version getMigrations
  have hbaseline : executeBatch baseline =
      executeBatch [.createTable migrationsTable] >>= fun _ => executeBatch initSchema :=
    executeBatch_append [.createTable migrationsTable] initSchema
  rw [runMigrations, hbaseline, Prog.bind_assoc]
  simp only [hpending]

/-- The batch of a run on a database. -/
theorem executeBatch_script (db : Schema) : executeBatch (migrationScript db) =
    executeBatch baseline >>= fun _ => execute readVersion >>= fun _ =>
      executeBatch (pending db.version) :=
  executeBatch_append baseline _

/-- **A run is its batch**, if the baseline does not change the version. -/
theorem run_eq_script {db' : Schema} (h : (executeBatch baseline).run db = (.ok (), db'))
    (hversion : db'.version = db.version) :
    runMigrations.run db = (executeBatch (migrationScript db)).run db := by
  rw [runMigrations_eq, executeBatch_script, Prog.run_bind, Prog.run_bind, h]
  dsimp only
  rw [Prog.run_observe_bind, hversion]
  rfl

/-- So is a run that is stopped. -/
theorem stopped_eq_script {db' : Schema} (h : (executeBatch baseline).run db = (.ok (), db'))
    (hversion : db'.version = db.version) (n : Nat) :
    runMigrations.stopped n db = ((executeBatch ((migrationScript db).take n)).run db).2 := by
  rw [← stopped_batch, runMigrations_eq, executeBatch_script, Prog.stopped_bind,
    Prog.stopped_bind, h]
  dsimp only
  split
  · rfl
  · cases hrest : n - (executeBatch baseline).steps db with
    | zero => rw [Prog.stopped_zero, Prog.stopped_zero]
    | succ m =>
        have hread : (Prog.observe (·.version) >>= fun version =>
            executeBatch (pending version) : SchemaProg Unit).stopped (m + 1) db' =
              (executeBatch (pending db'.version)).stopped m db' := rfl
        rw [hread, hversion]
        rfl

end Batches

/-! ## What a statement has done stays -/

namespace Schema

/-- A table of the name has the column. -/
def HasColumn (db : Schema) (table column : String) : Prop :=
  ∃ t ∈ db.tables, t.name = table ∧ column ∈ t.columns

/-- What the statement is for is there. -/
def Done (db : Schema) : SchemaStatement → Prop
  | .createTable table => ∃ t ∈ db.tables, t.name = table.name
  | .createIndex name _ _ => name ∈ db.indexes
  | .addColumn table column => db.HasColumn table column
  | .record version name => (version, name) ∈ db.migrations
  | .other _ => True

/-- Nothing is lost. -/
structure Grows (db after : Schema) : Prop where
  tables : ∀ t ∈ db.tables, ∃ t' ∈ after.tables, t'.name = t.name ∧ t.columns ⊆ t'.columns
  indexes : db.indexes ⊆ after.indexes
  migrations : db.migrations ⊆ after.migrations

theorem Grows.refl (db : Schema) : db.Grows db where
  tables t ht := ⟨t, ht, rfl, List.Subset.refl _⟩
  indexes := List.Subset.refl _
  migrations := List.Subset.refl _

theorem Grows.trans {db mid after : Schema} (h : db.Grows mid) (h' : mid.Grows after) :
    db.Grows after where
  tables t ht := by
    obtain ⟨t', ht', hname, hcolumns⟩ := h.tables t ht
    obtain ⟨t'', ht'', hname', hcolumns'⟩ := h'.tables t' ht'
    exact ⟨t'', ht'', hname'.trans hname, fun _ hc => hcolumns' (hcolumns hc)⟩
  indexes := fun _ hi => h'.indexes (h.indexes hi)
  migrations := fun _ hm => h'.migrations (h.migrations hm)

theorem Grows.hasColumn {db after : Schema} (h : db.Grows after) {table column : String}
    (hcolumn : db.HasColumn table column) : after.HasColumn table column := by
  obtain ⟨t, ht, hname, hc⟩ := hcolumn
  obtain ⟨t', ht', hname', hcolumns⟩ := h.tables t ht
  exact ⟨t', ht', hname'.trans hname, hcolumns hc⟩

/-- What is done stays done. -/
theorem Grows.done {db after : Schema} (h : db.Grows after) {statement : SchemaStatement}
    (hdone : db.Done statement) : after.Done statement := by
  cases statement with
  | createTable table =>
      obtain ⟨t, ht, hname⟩ := hdone
      obtain ⟨t', ht', hname', -⟩ := h.tables t ht
      exact ⟨t', ht', hname'.trans hname⟩
  | createIndex name table columns => exact h.indexes hdone
  | addColumn table column => exact h.hasColumn hdone
  | record version name => exact h.migrations hdone
  | other sql => trivial

theorem hasTable_iff {db : Schema} {name : String} :
    db.hasTable name = true ↔ ∃ t ∈ db.tables, t.name = name := by
  simp [hasTable]

theorem grows_withColumn (db : Schema) (table column : String) :
    db.Grows (db.withColumn table column) where
  tables t ht := by
    refine ⟨_, List.mem_map_of_mem ht, ?_, ?_⟩
    · split <;> rfl
    · split
      · exact List.subset_append_left _ _
      · exact List.Subset.refl _
  indexes := List.Subset.refl _
  migrations := List.Subset.refl _

/-- **No statement loses anything.** -/
theorem exec_grows (db : Schema) (statement : SchemaStatement) :
    db.Grows (db.exec statement).2 := by
  cases statement with
  | createTable table =>
      unfold exec
      dsimp only
      split
      · exact .refl db
      · exact
          { tables := fun t ht => ⟨t, List.mem_append_left _ ht, rfl, List.Subset.refl _⟩
            indexes := List.Subset.refl _
            migrations := List.Subset.refl _ }
  | createIndex name table columns =>
      unfold exec
      dsimp only
      split
      · exact .refl db
      · split
        · exact .refl db
        · split
          · exact .refl db
          · exact
              { tables := fun t ht => ⟨t, ht, rfl, List.Subset.refl _⟩
                indexes := List.subset_append_left _ _
                migrations := List.Subset.refl _ }
  | addColumn table column =>
      unfold exec
      dsimp only
      split
      · exact .refl db
      · split
        · exact .refl db
        · exact db.grows_withColumn table column
  | record version name =>
      unfold exec
      dsimp only
      split
      · exact .refl db
      · split
        · exact .refl db
        · exact
            { tables := fun t ht => ⟨t, ht, rfl, List.Subset.refl _⟩
              indexes := List.Subset.refl _
              migrations := List.subset_append_left _ _ }
  | other sql => exact .refl db

/-- Nor does a batch. -/
theorem batch_grows (db : Schema) (xs : List SchemaStatement) :
    db.Grows ((executeBatch xs).run db).2 := by
  induction xs generalizing db with
  | nil => exact .refl db
  | cons x xs ih =>
      have hgrows := db.exec_grows x
      rcases hexec : db.exec x with ⟨result, db'⟩
      rw [hexec] at hgrows
      cases result with
      | ok value =>
          rw [run_batch_ok hexec]
          exact hgrows.trans (ih db')
      | error e =>
          rw [run_batch_error hexec]
          exact hgrows

end Schema

/-! ## The way through the script -/

/-- The table that a statement creates. -/
def SchemaStatement.table? : SchemaStatement → Option Table
  | .createTable table => some table
  | _ => none

/-- The tables that the migrations know, with the columns they are created with. -/
def knownTables : List Table :=
  (baseline ++ addTenantsTable ++ [SchemaStatement.createTable bucketTagsTable]).filterMap
    (·.table?)

/-- Tables have the columns they should have, each once, and there is one of each name. -/
structure Schema.Tidy (db : Schema) : Prop where
  columns : ∀ t ∈ db.tables, ∀ table ∈ knownTables, t.name = table.name →
    table.columns ⊆ t.columns
  nodup : ∀ t ∈ db.tables, t.columns.Nodup
  once : (db.tables.map (·.name)).Nodup

/-- The rows of the migrations. -/
def recorded : List (Nat × String) := getMigrations.map fun m => (m.version, m.name)

/-- **How far a database has come**: what has been executed is done, `k` migrations are
recorded and done, and `slug` says whether the column has been added. -/
structure Schema.At (executed : List SchemaStatement) (k : Nat) (slug : Bool) (db : Schema) :
    Prop where
  tidy : db.Tidy
  executed : ∀ x ∈ executed, db.Done x
  bound : k ≤ 3
  migrations : db.migrations = recorded.take k
  applied : ∀ m ∈ getMigrations.take k, ∀ x ∈ m.sql, db.Done x
  slug : db.HasColumn "buckets" "tenant_slug" ↔ slug = true

/-- A statement that can be repeated: it makes a known table, or an index on columns of
one that has been made. -/
def SchemaStatement.repeatable (executed : List SchemaStatement) : SchemaStatement → Bool
  | .createTable table => knownTables.contains table
  | .createIndex _ name columns =>
    knownTables.any fun table => executed.contains (.createTable table) && table.name == name &&
      columns.all fun column => table.columns.contains column
  | .other _ => true
  | _ => false

namespace Schema.At

variable {executed : List SchemaStatement} {k : Nat} {slug : Bool} {db : Schema}
  {x : SchemaStatement}

/-- The version of a database. -/
theorem version (h : db.At executed k slug) : db.version = k := by
  have hbound := h.bound
  rw [Schema.version, h.migrations]
  match k with
  | 0 => rfl
  | 1 => rfl
  | 2 => rfl
  | 3 => rfl

/-- A step that changes neither tables' columns nor records. -/
theorem next {db' : Schema} {slug' : Bool} (h : db.At executed k slug) (hgrows : db.Grows db')
    (hdone : db'.Done x) (htidy : db'.Tidy) (hmigrations : db'.migrations = db.migrations)
    (hslug : db'.HasColumn "buckets" "tenant_slug" ↔ slug' = true) :
    db'.At (executed ++ [x]) k slug' where
  tidy := htidy
  executed y hy := by
    rcases List.mem_append.mp hy with hold | hnew
    · exact hgrows.done (h.executed y hold)
    · obtain rfl := List.mem_singleton.mp hnew
      exact hdone
  bound := h.bound
  migrations := hmigrations.trans h.migrations
  applied m hm y hy := hgrows.done (h.applied m hm y hy)
  slug := hslug

/-- No known table is made with the column, and none names a column twice. -/
theorem known (table : Table) (h : table ∈ knownTables) :
    table.columns.Nodup ∧ ¬ (table.name = "buckets" ∧ "tenant_slug" ∈ table.columns) ∧
      ∀ other ∈ knownTables, other.name = table.name → other = table := by
  revert table
  decide +kernel

/-- **A repeatable statement succeeds** and is done, whether it had been executed or not. -/
theorem exec_repeatable (h : db.At executed k slug) (hx : x.repeatable executed = true) :
    ∃ db', db.exec x = (.ok (), db') ∧ db'.At (executed ++ [x]) k slug := by
  have hgrows := db.exec_grows x
  cases x with
  | createTable table =>
      have hknown : table ∈ knownTables := by
        simpa [SchemaStatement.repeatable] using hx
      obtain ⟨hnodup, hnot, hunique⟩ := known table hknown
      unfold Schema.exec at hgrows ⊢
      dsimp only at hgrows ⊢
      by_cases hthere : db.hasTable table.name = true
      · rw [if_pos hthere] at hgrows ⊢
        exact ⟨db, rfl, h.next hgrows (Schema.hasTable_iff.mp hthere) h.tidy rfl h.slug⟩
      · rw [if_neg hthere] at hgrows ⊢
        have hnew : ∀ t ∈ db.tables, t.name ≠ table.name := by
          intro t ht hname
          exact hthere (Schema.hasTable_iff.mpr ⟨t, ht, hname⟩)
        refine ⟨_, rfl, h.next hgrows ⟨table, by simp, rfl⟩ ⟨?_, ?_, ?_⟩ rfl ?_⟩
        · intro t ht other hother hname
          rcases List.mem_append.mp ht with ht | ht
          · exact h.tidy.columns t ht other hother hname
          · obtain rfl := List.mem_singleton.mp ht
            rw [hunique other hother hname.symm]
            exact List.Subset.refl _
        · intro t ht
          rcases List.mem_append.mp ht with ht | ht
          · exact h.tidy.nodup t ht
          · obtain rfl := List.mem_singleton.mp ht
            exact hnodup
        · rw [List.map_append, List.map_singleton, List.nodup_append]
          refine ⟨h.tidy.once, List.nodup_singleton _, ?_⟩
          intro name hname other hother
          obtain ⟨t, ht, rfl⟩ := List.mem_map.mp hname
          rw [List.mem_singleton.mp hother]
          exact hnew t ht
        · rw [← h.slug]
          constructor
          · intro hcolumn
            obtain ⟨t, ht, hname, hc⟩ := hcolumn
            rcases List.mem_append.mp ht with ht | ht
            · exact ⟨t, ht, hname, hc⟩
            · obtain rfl := List.mem_singleton.mp ht
              exact absurd ⟨hname, hc⟩ hnot
          · exact fun hcolumn => hgrows.hasColumn hcolumn
  | createIndex name table columns =>
      simp only [SchemaStatement.repeatable, List.any_eq_true, Bool.and_eq_true, beq_iff_eq,
        List.contains_iff_mem, List.all_eq_true] at hx
      obtain ⟨source, hsource, ⟨hmade, hname⟩, hcolumns⟩ := hx
      obtain ⟨t, ht, htname⟩ := h.executed _ hmade
      unfold Schema.exec at hgrows ⊢
      dsimp only at hgrows ⊢
      by_cases hthere : name ∈ db.indexes
      · rw [if_pos hthere] at hgrows ⊢
        exact ⟨db, rfl, h.next hgrows hthere h.tidy rfl h.slug⟩
      · rw [if_neg hthere] at hgrows ⊢
        cases hfind : db.tables.find? (·.name == table) with
        | none =>
            have hnone := List.find?_eq_none.mp hfind t ht
            simp [htname, hname] at hnone
        | some found =>
            have hfound := List.mem_of_find?_eq_some hfind
            have hfoundName : found.name = source.name := by
              have hsame := List.find?_some hfind
              rw [hname]
              simpa using hsame
            have hall := h.tidy.columns found hfound source hsource hfoundName
            have hmissing : (columns.find? fun column => !found.columns.contains column) =
                none := by
              rw [List.find?_eq_none]
              intro column hcolumn
              simpa using hall (hcolumns column hcolumn)
            rw [hfind] at hgrows
            dsimp only at hgrows ⊢
            rw [hmissing] at hgrows ⊢
            exact ⟨_, rfl, h.next hgrows (by simp [Schema.Done]) ⟨h.tidy.columns, h.tidy.nodup,
              h.tidy.once⟩ rfl h.slug⟩
  | addColumn table column => cases hx
  | record version name => cases hx
  | other sql => exact ⟨db, rfl, h.next hgrows trivial h.tidy rfl h.slug⟩

/-- **The column is added** to a table that does not have it. -/
theorem exec_addTenantSlug (h : db.At executed k false)
    (hmade : .createTable bucketsTable ∈ executed) :
    ∃ db', db.exec addTenantSlug = (.ok (), db') ∧
      db'.At (executed ++ [addTenantSlug]) k true := by
  have hgrows := db.exec_grows addTenantSlug
  obtain ⟨t, ht, htname⟩ := h.executed _ hmade
  unfold Schema.exec addTenantSlug at hgrows
  unfold Schema.exec addTenantSlug
  dsimp only at hgrows ⊢
  cases hfind : db.tables.find? (·.name == "buckets") with
  | none =>
      have hnone := List.find?_eq_none.mp hfind t ht
      simp [htname, bucketsTable] at hnone
  | some found =>
      have hfound := List.mem_of_find?_eq_some hfind
      have hname : found.name = "buckets" := by simpa using List.find?_some hfind
      have hnew : "tenant_slug" ∉ found.columns := fun hc =>
        absurd (h.slug.mp ⟨found, hfound, hname, hc⟩) (by decide)
      rw [hfind] at hgrows
      dsimp only at hgrows ⊢
      rw [if_neg hnew] at hgrows ⊢
      have hadded : (db.withColumn "buckets" "tenant_slug").HasColumn "buckets" "tenant_slug" := by
        refine ⟨_, List.mem_map_of_mem hfound, ?_, ?_⟩
        · simp [hname]
        · simp [hname]
      refine ⟨_, rfl, h.next hgrows hadded ⟨?_, ?_, ?_⟩ rfl (iff_of_true hadded rfl)⟩
      · intro t' ht' table htable hsame
        obtain ⟨old, hold, rfl⟩ := List.mem_map.mp ht'
        have hcolumns := h.tidy.columns old hold table htable
        by_cases hbuckets : old.name = "buckets"
        · rw [if_pos hbuckets] at hsame ⊢
          exact List.Subset.trans (hcolumns hsame) (List.subset_append_left _ _)
        · rw [if_neg hbuckets] at hsame ⊢
          exact hcolumns hsame
      · intro t' ht'
        obtain ⟨old, hold, rfl⟩ := List.mem_map.mp ht'
        have hnodup := h.tidy.nodup old hold
        by_cases hbuckets : old.name = "buckets"
        · rw [if_pos hbuckets]
          refine List.nodup_append.mpr ⟨hnodup, List.nodup_singleton _, ?_⟩
          intro column hcolumn other hother
          rw [List.mem_singleton.mp hother]
          rintro rfl
          exact absurd (h.slug.mp ⟨old, hold, hbuckets, hcolumn⟩) (by decide)
        · rw [if_neg hbuckets]
          exact hnodup
      · have hnames : (db.withColumn "buckets" "tenant_slug").tables.map (·.name) =
            db.tables.map (·.name) := by
          rw [Schema.withColumn, List.map_map]
          refine List.map_congr_left fun old _ => ?_
          dsimp only [Function.comp]
          split <;> rfl
        rw [hnames]
        exact h.tidy.once

/-- The index on the column is made once the column is there. -/
theorem exec_tenantSlugIndex (h : db.At executed k true) :
    ∃ db', db.exec tenantSlugIndex = (.ok (), db') ∧
      db'.At (executed ++ [tenantSlugIndex]) k true := by
  have hgrows := db.exec_grows tenantSlugIndex
  obtain ⟨t, ht, htname, hcolumn⟩ := h.slug.mpr rfl
  unfold Schema.exec tenantSlugIndex at hgrows
  unfold Schema.exec tenantSlugIndex
  dsimp only at hgrows ⊢
  by_cases hthere : "idx_buckets_tenant_slug" ∈ db.indexes
  · rw [if_pos hthere] at hgrows ⊢
    exact ⟨db, rfl, h.next hgrows hthere h.tidy rfl h.slug⟩
  · rw [if_neg hthere] at hgrows ⊢
    cases hfind : db.tables.find? (·.name == "buckets") with
    | none =>
        have hnone := List.find?_eq_none.mp hfind t ht
        simp [htname] at hnone
    | some found =>
        have hfound := List.mem_of_find?_eq_some hfind
        have hname : found.name = "buckets" := by simpa using List.find?_some hfind
        obtain rfl : t = found :=
          List.inj_on_of_nodup_map h.tidy.once ht hfound (htname.trans hname.symm)
        have hmissing : (["tenant_slug"].find? fun column => !t.columns.contains column) =
            none := by
          simpa using hcolumn
        rw [hfind] at hgrows
        dsimp only at hgrows ⊢
        rw [hmissing] at hgrows ⊢
        exact ⟨_, rfl, h.next hgrows (by simp [Schema.Done]) ⟨h.tidy.columns, h.tidy.nodup,
          h.tidy.once⟩ rfl h.slug⟩

/-- **A migration is recorded** once everything it does is done. -/
theorem exec_record (h : db.At executed k slug) (m : Migration) (hm : getMigrations[k]? = some m)
    (hmade : .createTable migrationsTable ∈ executed) (hsql : m.sql ⊆ executed) :
    ∃ db', db.exec (.record m.version m.name) = (.ok (), db') ∧
      db'.At (executed ++ [.record m.version m.name]) (k + 1) slug := by
  have hgrows := db.exec_grows (.record m.version m.name)
  have hthere : db.hasTable "_strix_migrations" = true :=
    Schema.hasTable_iff.mpr (h.executed _ hmade)
  obtain ⟨hlt, hversion, hrows⟩ : k < 3 ∧
      (recorded.take k).any (·.1 == m.version) = false ∧
      recorded.take (k + 1) = recorded.take k ++ [(m.version, m.name)] := by
    have hbound := h.bound
    match k with
    | 0 => cases hm; decide
    | 1 => cases hm; decide
    | 2 => cases hm; decide
    | 3 => cases hm
  have htake : getMigrations.take (k + 1) = getMigrations.take k ++ [m] := by
    rw [List.take_add_one, hm]
    rfl
  unfold Schema.exec at hgrows ⊢
  dsimp only at hgrows ⊢
  rw [hthere, if_neg (by decide), h.migrations, hversion, if_neg (by decide)] at hgrows ⊢
  refine ⟨_, rfl, ⟨h.tidy.columns, h.tidy.nodup, h.tidy.once⟩, ?_, by omega, hrows.symm, ?_, h.slug⟩
  · intro y hy
    rcases List.mem_append.mp hy with hold | hnew
    · exact hgrows.done (h.executed y hold)
    · obtain rfl := List.mem_singleton.mp hnew
      simp [Schema.Done]
  · intro m' hm' y hy
    rw [htake] at hm'
    rcases List.mem_append.mp hm' with hold | hnew
    · exact hgrows.done (h.applied m' hold y hy)
    · obtain rfl := List.mem_singleton.mp hnew
      exact hgrows.done (h.executed y (hsql hy))

end Schema.At

/-! ## Along the script -/

/-- Every statement succeeds, and `Q` holds of what has been executed and of the database,
from the first to the last. -/
def Along (Q : List SchemaStatement → Schema → Prop) :
    List SchemaStatement → List SchemaStatement → Schema → Prop
  | executed, [], db => Q executed db
  | executed, x :: xs, db =>
    Q executed db ∧ ∃ db', db.exec x = (.ok (), db') ∧ Along Q (executed ++ [x]) xs db'

section Along

variable {Q : List SchemaStatement → Schema → Prop} {executed xs : List SchemaStatement}
  {db : Schema}

theorem Along.here (h : Along Q executed xs db) : Q executed db := by
  cases xs with
  | nil => exact h
  | cons x xs => exact h.1

/-- **Wherever the script is stopped**, `Q` holds. -/
theorem Along.take (h : Along Q executed xs db) (n : Nat) :
    Q (executed ++ xs.take n) ((executeBatch (xs.take n)).run db).2 := by
  induction xs generalizing executed db n with
  | nil =>
      rw [List.take_nil, List.append_nil]
      exact h
  | cons x xs ih =>
      cases n with
      | zero =>
          rw [List.take_zero, List.append_nil]
          exact h.here
      | succ n =>
          obtain ⟨-, db', hexec, hrest⟩ := h
          rw [List.take_succ_cons, run_batch_ok hexec, List.append_cons]
          exact ih hrest n

/-- It goes through to its end. -/
theorem Along.run (h : Along Q executed xs db) :
    ∃ db', (executeBatch xs).run db = (.ok (), db') ∧ Q (executed ++ xs) db' := by
  have hend := h.take xs.length
  rw [List.take_length] at hend
  refine ⟨((executeBatch xs).run db).2, ?_, hend⟩
  clear hend
  induction xs generalizing executed db with
  | nil => rfl
  | cons x xs ih =>
      obtain ⟨-, db', hexec, hrest⟩ := h
      rw [run_batch_ok hexec]
      exact ih hrest

end Along

/-- The column has been added and migration 2 has not been recorded. -/
def Between (executed : List SchemaStatement) : Prop :=
  addTenantSlug ∈ executed ∧ recordTenants ∉ executed

/-- **A database on the way**: the column is there without its migration being recorded
exactly if the run is between the two. -/
def OnTheWay (executed : List SchemaStatement) (db : Schema) : Prop :=
  ∃ k slug, db.At executed k slug ∧ (2 ≤ k → slug = true) ∧
    (k < 2 ∧ slug = true ↔ Between executed)

/-- The statements are repeatable, one after the other. -/
def orderly : List SchemaStatement → List SchemaStatement → Bool
  | _, [] => true
  | executed, x :: xs => x.repeatable executed && orderly (executed ++ [x]) xs

section Orderly

variable {executed executed' xs : List SchemaStatement} {x : SchemaStatement}

theorem repeatable_mono (h : executed ⊆ executed') (hx : x.repeatable executed = true) :
    x.repeatable executed' = true := by
  cases x with
  | createTable table => exact hx
  | createIndex name table columns =>
      simp only [SchemaStatement.repeatable, List.any_eq_true, Bool.and_eq_true,
        List.contains_iff_mem] at hx ⊢
      obtain ⟨source, hsource, ⟨hmade, hname⟩, hcolumns⟩ := hx
      exact ⟨source, hsource, ⟨h hmade, hname⟩, hcolumns⟩
  | addColumn table column => cases hx
  | record version name => cases hx
  | other sql => rfl

theorem orderly_mono (h : executed ⊆ executed') (hxs : orderly executed xs = true) :
    orderly executed' xs = true := by
  induction xs generalizing executed executed' with
  | nil => rfl
  | cons x xs ih =>
      rw [orderly, Bool.and_eq_true] at hxs ⊢
      refine ⟨repeatable_mono h hxs.1, ih (fun y hy => ?_) hxs.2⟩
      rcases List.mem_append.mp hy with hold | hnew
      · exact List.mem_append_left _ (h hold)
      · exact List.mem_append_right _ hnew

theorem orderly_append {ys : List SchemaStatement} (hxs : orderly executed xs = true)
    (hys : orderly (executed ++ xs) ys = true) : orderly executed (xs ++ ys) = true := by
  induction xs generalizing executed with
  | nil =>
      rw [List.append_nil] at hys
      exact hys
  | cons x xs ih =>
      rw [orderly, Bool.and_eq_true] at hxs
      rw [List.cons_append, orderly, hxs.1, Bool.true_and]
      refine ih hxs.2 ?_
      rw [List.append_assoc]
      exact hys

/-- The baseline can be repeated, -/
theorem orderly_baseline : orderly [] baseline = true := by decide +kernel

/-- and so can the first statements of migration 2. -/
theorem orderly_addTenantsTable : orderly [] addTenantsTable = true := by decide +kernel

/-- A repeatable statement is neither of the two that are not. -/
theorem between_repeatable (hx : x.repeatable executed = true) :
    Between (executed ++ [x]) ↔ Between executed := by
  have hslug : addTenantSlug ≠ x := by
    rintro rfl
    cases hx
  have hrecord : recordTenants ≠ x := by
    rintro rfl
    cases hx
  simp [Between, hslug, hrecord]

end Orderly

section Segments

variable {executed xs ys : List SchemaStatement} {k : Nat} {slug : Bool} {db : Schema}

/-- **Through repeatable statements** a database stays where it is, and `R` holds of what
has been executed. -/
theorem along_repeatable {Q : List SchemaStatement → Schema → Prop}
    {R : List SchemaStatement → Prop}
    (hQ : ∀ executed db, Schema.At executed k slug db → R executed → Q executed db)
    (hR : ∀ executed x, x.repeatable executed = true → R executed → R (executed ++ [x]))
    (h : db.At executed k slug) (hxs : orderly executed xs = true) (hexecuted : R executed)
    (hys : ∀ db', Schema.At (executed ++ xs) k slug db' → R (executed ++ xs) →
      Along Q (executed ++ xs) ys db') :
    Along Q executed (xs ++ ys) db := by
  induction xs generalizing executed db with
  | nil =>
      rw [List.append_nil] at hys
      exact hys db h hexecuted
  | cons x xs ih =>
      rw [orderly, Bool.and_eq_true] at hxs
      obtain ⟨hx, hxs⟩ := hxs
      obtain ⟨db', hexec, hnext⟩ := h.exec_repeatable hx
      refine ⟨hQ executed db h hexecuted, db', hexec, ?_⟩
      refine ih hnext hxs (hR executed x hx hexecuted) fun db'' hat hthere => ?_
      rw [List.append_assoc] at hat hthere ⊢
      exact hys db'' hat hthere

/-- So it stays on the way. -/
theorem along_orderly (h : db.At executed k slug) (hxs : orderly executed xs = true)
    (htwo : 2 ≤ k → slug = true) (hbetween : k < 2 ∧ slug = true ↔ Between executed)
    (hys : ∀ db', Schema.At (executed ++ xs) k slug db' →
      (k < 2 ∧ slug = true ↔ Between (executed ++ xs)) → Along OnTheWay (executed ++ xs) ys db') :
    Along OnTheWay executed (xs ++ ys) db :=
  along_repeatable (R := fun executed => k < 2 ∧ slug = true ↔ Between executed)
    (fun _ _ hat hthere => ⟨k, slug, hat, htwo, hthere⟩)
    (fun _ _ hx hthere => hthere.trans (between_repeatable hx).symm) h hxs hbetween hys

/-- The tables of the baseline have been made. -/
def Based (executed : List SchemaStatement) : Prop := baseline ⊆ executed

theorem Based.append (h : Based executed) (xs : List SchemaStatement) :
    Based (executed ++ xs) := fun _ hx => List.mem_append_left _ (h hx)

/-- From version 2 on. -/
theorem along_pending_two (h : db.At executed 2 true) (hbased : Based executed)
    (hbetween : ¬ Between executed) : Along OnTheWay executed (pending 2) db := by
  have hpending : pending 2 =
      [.createTable bucketTagsTable] ++ [.record 3 "add_bucket_tags"] := rfl
  have horderly : orderly [] [.createTable bucketTagsTable] = true := by decide +kernel
  rw [hpending]
  refine along_orderly h (orderly_mono (List.nil_subset _) horderly) (fun _ => rfl)
    (iff_of_false (by omega) hbetween) fun db' hat hstill => ?_
  obtain ⟨db'', hexec, hnext⟩ := hat.exec_record
    { version := 3, name := "add_bucket_tags", sql := [.createTable bucketTagsTable] } rfl
    (hbased.append _ (by simp [baseline])) (List.subset_append_right _ _)
  refine ⟨⟨2, true, hat, fun _ => rfl, hstill⟩, db'', hexec, 3, true, hnext, fun _ => rfl, ?_⟩
  refine iff_of_false (by omega) fun hnow => hbetween ?_
  obtain ⟨hslug, hrecord⟩ := hnow
  simp only [List.mem_append, not_or] at hslug hrecord
  refine ⟨?_, hrecord.1.1⟩
  simpa [addTenantSlug] using hslug

/-- From version 1 on. -/
theorem along_pending_one (h : db.At executed 1 false) (hbased : Based executed)
    (hslug : addTenantSlug ∉ executed) (hrecord : recordTenants ∉ executed) :
    Along OnTheWay executed (pending 1) db := by
  have hpending : pending 1 =
      addTenantsTable ++ addTenantSlug :: tenantSlugIndex :: recordTenants :: pending 2 := rfl
  have hquiet : addTenantSlug ∉ addTenantsTable ∧ recordTenants ∉ addTenantsTable := by decide
  rw [hpending]
  refine along_orderly h (orderly_mono (List.nil_subset _) orderly_addTenantsTable) (by omega)
    (iff_of_false (by simp) fun hnow => hslug hnow.1) fun db' hat hstill => ?_
  have hunrecorded : recordTenants ∉ executed ++ addTenantsTable := by
    simp [hrecord, hquiet.2]
  obtain ⟨db₁, hadd, hadded⟩ := hat.exec_addTenantSlug
    (hbased.append _ (by simp [baseline, initSchema]))
  obtain ⟨db₂, hindex, hindexed⟩ := hadded.exec_tenantSlugIndex
  obtain ⟨db₃, hexec, hrecorded⟩ := hindexed.exec_record
    { version := 2
      name := "add_tenants"
      sql := addTenantsTable ++ [addTenantSlug, tenantSlugIndex] } rfl
    (((hbased.append _).append _).append _ (by simp [baseline])) (by
      intro x hx
      simp only [List.mem_append, List.mem_cons, List.not_mem_nil, or_false] at hx ⊢
      tauto)
  refine ⟨⟨1, false, hat, by omega, hstill⟩, db₁, hadd, ?_⟩
  have hbefore : recordTenants ∉ executed ++ addTenantsTable ++ [addTenantSlug] := by
    rw [List.mem_append, not_or]
    exact ⟨hunrecorded, by decide⟩
  have hbefore' :
      recordTenants ∉ executed ++ addTenantsTable ++ [addTenantSlug] ++ [tenantSlugIndex] := by
    rw [List.mem_append, not_or]
    exact ⟨hbefore, by decide⟩
  refine ⟨⟨1, true, hadded, fun _ => rfl, iff_of_true (by simp) ⟨by simp, hbefore⟩⟩,
    db₂, hindex, ?_⟩
  refine ⟨⟨1, true, hindexed, fun _ => rfl, iff_of_true (by simp) ⟨by simp, hbefore'⟩⟩,
    db₃, hexec, ?_⟩
  refine along_pending_two hrecorded ((((hbased.append _).append _).append _).append _) ?_
  exact fun hnow => hnow.2 (List.mem_append_right _ List.mem_cons_self)

/-- From a new database on. -/
theorem along_pending_zero (h : db.At executed 0 false) (hbased : Based executed)
    (hslug : addTenantSlug ∉ executed) (hrecord : recordTenants ∉ executed) :
    Along OnTheWay executed (pending 0) db := by
  have hpending : pending 0 =
      [.other "SELECT 1"] ++ .record 1 "initial_schema" :: pending 1 := rfl
  rw [hpending]
  refine along_orderly h rfl (by omega)
    (iff_of_false (by simp) fun hnow => hslug hnow.1) fun db' hat hstill => ?_
  obtain ⟨db'', hexec, hnext⟩ := hat.exec_record
    { version := 1, name := "initial_schema", sql := [.other "SELECT 1"] } rfl
    (hbased.append _ (by simp [baseline])) (List.subset_append_right _ _)
  refine ⟨⟨0, false, hat, by omega, hstill⟩, db'', hexec, ?_⟩
  refine along_pending_one hnext ((hbased.append _).append _) ?_ ?_
  · simpa [addTenantSlug] using hslug
  · simpa [recordTenants] using hrecord

end Segments

/-! ## Runs that are stopped -/

/-- **A database that was left between the two**: the column is there, and its migration is
not recorded. -/
def Schema.HalfMigrated (db : Schema) : Prop :=
  db.HasColumn "buckets" "tenant_slug" ∧ db.version < 2

section Stops

variable {k : Nat} {slug : Bool} {db : Schema}

/-- What a database has come to is what it is, whatever was executed last. -/
theorem Schema.At.forget {executed : List SchemaStatement} (h : db.At executed k slug) :
    db.At [] k slug :=
  { h with executed := fun _ hx => absurd hx List.not_mem_nil }

theorem Schema.At.halfMigrated_iff {executed : List SchemaStatement}
    (h : db.At executed k slug) : db.HalfMigrated ↔ k < 2 ∧ slug = true := by
  rw [Schema.HalfMigrated, h.slug, h.version, and_comm]

/-- **The script goes through** on a database that was not left between the two. -/
theorem along_script (h : db.At [] k slug) (htwo : 2 ≤ k → slug = true)
    (hwhole : ¬ db.HalfMigrated) : Along OnTheWay [] (migrationScript db) db := by
  have hnot : ¬ (k < 2 ∧ slug = true) := by rwa [← h.halfMigrated_iff]
  have horderly : orderly [] (baseline ++ [readVersion]) = true :=
    orderly_append orderly_baseline rfl
  have hquiet : addTenantSlug ∉ baseline ++ [readVersion] ∧
      recordTenants ∉ baseline ++ [readVersion] := by decide
  have hscript : migrationScript db = (baseline ++ [readVersion]) ++ pending k := by
    rw [migrationScript, h.version]
    simp
  rw [hscript]
  refine along_orderly h horderly htwo
    (iff_of_false hnot fun hnow => absurd hnow.1 List.not_mem_nil) fun db' hat hstill => ?_
  rw [List.nil_append] at hat hstill ⊢
  have hbased : Based (baseline ++ [readVersion]) := List.subset_append_left _ _
  have hbetween : ¬ Between (baseline ++ [readVersion]) := fun hnow => hquiet.1 hnow.1
  have hbound := h.bound
  match k with
  | 0 =>
      obtain rfl : slug = false := by simpa using hnot
      exact along_pending_zero hat hbased hquiet.1 hquiet.2
  | 1 =>
      obtain rfl : slug = false := by simpa using hnot
      exact along_pending_one hat hbased hquiet.1 hquiet.2
  | 2 =>
      obtain rfl : slug = true := htwo (by omega)
      exact along_pending_two hat hbased hbetween
  | 3 =>
      have hpending : pending 3 = [] := rfl
      rw [hpending]
      exact ⟨3, slug, hat, fun _ => htwo (by omega), hstill⟩

/-- The baseline goes through on every database that a run has left. -/
theorem run_baseline (h : db.At [] k slug) :
    ∃ db', (executeBatch baseline).run db = (.ok (), db') ∧ db'.version = db.version := by
  have halong : Along (fun executed db => Schema.At executed k slug db) [] (baseline ++ []) db :=
    along_repeatable (R := fun _ => True) (fun _ _ hat _ => hat) (fun _ _ _ _ => trivial) h
      orderly_baseline trivial fun _ hat _ => hat
  rw [List.append_nil] at halong
  obtain ⟨db', hrun, hat⟩ := halong.run
  exact ⟨db', hrun, hat.version.trans h.version.symm⟩

/-- What a run does before it adds the column. -/
def front (k : Nat) : List SchemaStatement :=
  baseline ++ readVersion ::
    ((if k = 0 then [.other "SELECT 1", .record 1 "initial_schema"] else []) ++ addTenantsTable)

/-- **A run on a database that was left between the two** comes to the column. -/
theorem along_front (h : db.At [] k true) (hk : k < 2) :
    Along (fun executed db => ∃ k' < 2, Schema.At executed k' true db) [] (front k) db := by
  have hQ {k : Nat} (hk : k < 2) (executed : List SchemaStatement) (db : Schema)
      (hat : Schema.At executed k true db) (_ : True) :
      ∃ k' < 2, Schema.At executed k' true db := ⟨k, hk, hat⟩
  match k with
  | 0 =>
      have horderly : orderly [] (baseline ++ [readVersion, .other "SELECT 1"]) = true :=
        orderly_append orderly_baseline rfl
      have hfront : front 0 = (baseline ++ [readVersion, .other "SELECT 1"]) ++
          .record 1 "initial_schema" :: (addTenantsTable ++ []) := rfl
      rw [hfront]
      refine along_repeatable (hQ hk) (fun _ _ _ _ => trivial) h horderly trivial
        fun db' hat _ => ?_
      obtain ⟨db'', hexec, hnext⟩ := hat.exec_record
        { version := 1, name := "initial_schema", sql := [.other "SELECT 1"] } rfl
        (by decide) (by decide)
      refine ⟨⟨0, hk, hat⟩, db'', hexec, ?_⟩
      exact along_repeatable (hQ (by omega)) (fun _ _ _ _ => trivial) hnext
        (orderly_mono (List.nil_subset _) orderly_addTenantsTable) trivial
        fun _ hat _ => ⟨1, by omega, hat⟩
  | 1 =>
      have hrest : orderly [readVersion] addTenantsTable = true :=
        orderly_mono (List.nil_subset _) orderly_addTenantsTable
      have horderly : orderly [] (baseline ++ readVersion :: addTenantsTable) = true :=
        orderly_append orderly_baseline (orderly_mono (List.nil_subset _)
          (show orderly [] (readVersion :: addTenantsTable) = true from hrest))
      have hfront : front 1 = (baseline ++ readVersion :: addTenantsTable) ++ [] := rfl
      rw [hfront]
      exact along_repeatable (hQ hk) (fun _ _ _ _ => trivial) h horderly trivial
        fun _ hat _ => ⟨1, hk, hat⟩

/-- The column is there already. -/
theorem exec_addTenantSlug_again {executed : List SchemaStatement} (h : db.At executed k true) :
    db.exec addTenantSlug = (.error (.duplicateColumn "tenant_slug"), db) := by
  obtain ⟨t, ht, htname, hcolumn⟩ := h.slug.mpr rfl
  unfold Schema.exec addTenantSlug
  dsimp only
  cases hfind : db.tables.find? (·.name == "buckets") with
  | none =>
      have hnone := List.find?_eq_none.mp hfind t ht
      simp [htname] at hnone
  | some found =>
      have hname : found.name = "buckets" := by simpa using List.find?_some hfind
      obtain rfl : t = found := List.inj_on_of_nodup_map h.tidy.once ht
        (List.mem_of_find?_eq_some hfind) (htname.trans hname.symm)
      dsimp only
      rw [if_pos hcolumn]

/-- **It fails there**, and leaves the database between the two. -/
theorem run_front (h : db.At [] k true) (hk : k < 2) (ys : List SchemaStatement) :
    ∃ db', (executeBatch (front k ++ addTenantSlug :: ys)).run db =
        (.error (.duplicateColumn "tenant_slug"), db') ∧ ∃ k' < 2, db'.At [] k' true := by
  obtain ⟨db', hrun, k', hk', hat⟩ := (along_front h hk).run
  exact ⟨db', (run_batch_append hrun).trans (run_batch_error (exec_addTenantSlug_again hat)),
    k', hk', hat.forget⟩

/-- The script of such a run. -/
theorem script_front (h : db.At [] k slug) (hk : k < 2) :
    ∃ ys, migrationScript db = front k ++ addTenantSlug :: ys := by
  refine ⟨tenantSlugIndex :: recordTenants :: pending 2, ?_⟩
  rw [migrationScript, h.version]
  match k with
  | 0 => rfl
  | 1 => rfl

/-! ## Which runs can be restarted -/

/-- A database that runs have left, wherever they were stopped. -/
def Schema.Left (db : Schema) : Prop := ∃ k slug, db.At [] k slug ∧ (2 ≤ k → slug = true)

theorem left_empty : ({} : Schema).Left := by
  refine ⟨0, false, ⟨⟨?_, ?_, ?_⟩, ?_, by omega, rfl, ?_, ?_⟩, by omega⟩
  · simp
  · simp
  · simp
  · simp
  · simp
  · simp [Schema.HasColumn]

/-- **A run that is stopped** leaves the database between the two exactly if it was stopped
there, or the database was left there before. -/
theorem left_stopped (h : db.Left) (n : Nat) :
    (runMigrations.stopped n db).Left ∧
      ((runMigrations.stopped n db).HalfMigrated ↔ db.HalfMigrated ∨ StopsBetween db n) := by
  obtain ⟨k, slug, hat, htwo⟩ := h
  obtain ⟨db', hrun, hversion⟩ := run_baseline hat
  rw [stopped_eq_script hrun hversion n]
  by_cases hhalf : db.HalfMigrated
  · obtain ⟨hk, rfl⟩ := hat.halfMigrated_iff.mp hhalf
    suffices hleft : ∃ k' < 2,
        ((executeBatch ((migrationScript db).take n)).run db).2.At [] k' true by
      obtain ⟨k', hk', hat'⟩ := hleft
      exact ⟨⟨k', true, hat', fun _ => rfl⟩,
        iff_of_true (hat'.halfMigrated_iff.mpr ⟨hk', rfl⟩) (.inl hhalf)⟩
    obtain ⟨ys, hscript⟩ := script_front hat hk
    rw [hscript, List.take_append]
    by_cases hn : n ≤ (front k).length
    · obtain ⟨k', hk', hat'⟩ := (along_front hat hk).take n
      rw [Nat.sub_eq_zero_of_le hn, List.take_zero, List.append_nil]
      exact ⟨k', hk', hat'.forget⟩
    · obtain ⟨m, hm⟩ := Nat.exists_eq_add_of_lt (Nat.lt_of_not_le hn)
      obtain ⟨db'', hfails, hleft⟩ := run_front hat hk (ys.take m)
      have htake : n - (front k).length = m + 1 := by omega
      rw [htake, List.take_of_length_le (Nat.le_of_not_le hn), List.take_succ_cons, hfails]
      exact hleft
  · obtain ⟨k', slug', hat', htwo', hbetween⟩ := (along_script hat htwo hhalf).take n
    rw [List.nil_append] at hat' hbetween
    refine ⟨⟨k', slug', hat'.forget, htwo'⟩, ?_⟩
    rw [hat'.halfMigrated_iff, hbetween, or_iff_right hhalf]
    rfl

/-- The index that a statement creates. -/
def SchemaStatement.index? : SchemaStatement → Option String
  | .createIndex name _ _ => some name
  | _ => none

/-- **The full schema** is what the statements of the baseline and of all migrations make. -/
theorem full_of_done {executed : List SchemaStatement} (h : db.At executed 3 slug)
    (hbaseline : ∀ x ∈ baseline, db.Done x) : db.Full := by
  have hdone : ∀ x ∈ baseline ++ getMigrations.flatMap (·.sql), db.Done x := by
    intro x hx
    rcases List.mem_append.mp hx with hx | hx
    · exact hbaseline x hx
    · obtain ⟨m, hm, hx⟩ := List.mem_flatMap.mp hx
      exact h.applied m hm x hx
  have hslug : db.HasColumn "buckets" "tenant_slug" := hdone addTenantSlug (by decide)
  have hmade : ∀ table ∈ fullTables, ∃ known ∈ knownTables, known.name = table.name ∧
      .createTable known ∈ baseline ++ getMigrations.flatMap (·.sql) ∧
      ∀ column ∈ table.columns, column ∈ known.columns ∨
        table.name = "buckets" ∧ column = "tenant_slug" := by decide +kernel
  have hindexed : ∀ name ∈ fullIndexes, ∃ x ∈ baseline ++ getMigrations.flatMap (·.sql),
      x.index? = some name := by decide +kernel
  constructor
  case tables =>
      intro table htable
      obtain ⟨known, hknown, hname, hcreate, hcolumns⟩ := hmade table htable
      obtain ⟨t, ht, htname⟩ := hdone _ hcreate
      refine ⟨t, ht, htname.trans hname, h.tidy.nodup t ht, fun column hcolumn => ?_⟩
      rcases hcolumns column hcolumn with hin | ⟨hbuckets, rfl⟩
      · exact h.tidy.columns t ht known hknown htname hin
      · obtain ⟨t', ht', htname', hin⟩ := hslug
        obtain rfl : t' = t := List.inj_on_of_nodup_map h.tidy.once ht' ht
          (htname'.trans (hbuckets.symm.trans (hname.symm.trans htname.symm)))
        exact hin
  case indexes =>
      intro name hname
      obtain ⟨x, hx, hindex⟩ := hindexed name hname
      have hin := hdone x hx
      cases x with
      | createIndex other table columns =>
          obtain rfl : other = name := Option.some.inj hindex
          exact hin
      | createTable table => cases hindex
      | addColumn table column => cases hindex
      | record version other => cases hindex
      | other sql => cases hindex
  case once => exact h.tidy.once
  case migrations => exact h.migrations
  case version => exact h.version

/-- **The next run completes the schema** unless the database was left between the two. -/
theorem restartable_left_iff (h : db.Left) : db.Restartable ↔ ¬ db.HalfMigrated := by
  obtain ⟨k, slug, hat, htwo⟩ := h
  obtain ⟨db', hrun, hversion⟩ := run_baseline hat
  rw [Schema.Restartable, run_eq_script hrun hversion]
  constructor
  · intro hfull hhalf
    obtain ⟨hk, rfl⟩ := hat.halfMigrated_iff.mp hhalf
    obtain ⟨ys, hscript⟩ := script_front hat hk
    obtain ⟨db'', hfails, -⟩ := run_front hat hk ys
    rw [hscript, hfails] at hfull
    cases hfull.1
  · intro hwhole
    obtain ⟨last, hlast, k', slug', hat', -, -⟩ := (along_script hat htwo hwhole).run
    have hgrows := db.batch_grows (migrationScript db)
    rw [hlast] at hgrows ⊢
    -- the last migration was recorded before, or is now
    have hrecorded : (3, "add_bucket_tags") ∈ last.migrations := by
      have hbound := hat.bound
      by_cases hall : k = 3
      · refine hgrows.migrations ?_
        rw [hat.migrations, hall]
        decide
      · refine hat'.executed (.record 3 "add_bucket_tags") ?_
        rw [List.nil_append, migrationScript, hat.version]
        match k with
        | 0 => decide
        | 1 => decide
        | 2 => decide
        | 3 => exact absurd rfl hall
    obtain rfl : k' = 3 := by
      have hbound := hat'.bound
      rw [hat'.migrations] at hrecorded
      match k' with
      | 0 => exact absurd hrecorded (by decide)
      | 1 => exact absurd hrecorded (by decide)
      | 2 => exact absurd hrecorded (by decide)
      | 3 => rfl
    refine ⟨rfl, full_of_done hat' fun x hx => ?_⟩
    exact hat'.executed x
      (List.mem_append_right _ (List.mem_append_left _ (List.mem_append_left _ hx)))

end Stops

/-- **The migrations can be restarted** after exactly those runs of which none was stopped
after the column had been added and before migration 2 was recorded. -/
theorem restartable_iff (stops : List Nat) :
    (migrationRuns.after {} stops).Restartable ↔
      migrationRuns.AllSteps (fun db n => ¬ StopsBetween db n) {} stops := by
  have hrun : ∀ (db : Schema), db.Left → (migrationRuns.after db stops).Left ∧
      (¬ (migrationRuns.after db stops).HalfMigrated ↔
        ¬ db.HalfMigrated ∧ migrationRuns.AllSteps (fun db n => ¬ StopsBetween db n) db stops) := by
    induction stops with
    | nil => exact fun db hleft => ⟨hleft, by simp⟩
    | cons n stops ih =>
        intro db hleft
        obtain ⟨hnext, hhalf⟩ := left_stopped hleft n
        obtain ⟨hend, hiff⟩ := ih _ hnext
        refine ⟨hend, hiff.trans ?_⟩
        rw [hhalf, Machine.allSteps_cons, not_or, and_assoc]
        rfl
  obtain ⟨hleft, hiff⟩ := hrun {} left_empty
  have hempty : ¬ ({} : Schema).HalfMigrated := by
    rintro ⟨⟨t, ht, -⟩, -⟩
    cases ht
  rw [restartable_left_iff hleft, hiff, and_iff_right hempty]

/-- A process that is stopped after it has added the column leaves a database whose next run
fails: the column is there already. -/
theorem addedTenantSlug_stuck :
    (SchemaProg.runMigrations.run (migrationRuns.after {} [34])).1 =
        .error (.duplicateColumn "tenant_slug") ∧
      ¬ ∀ stops, (migrationRuns.after {} stops).Restartable := by
  have hfails : (SchemaProg.runMigrations.run (migrationRuns.after {} [34])).1 =
      .error (.duplicateColumn "tenant_slug") := by decide +kernel
  refine ⟨hfails, fun h => ?_⟩
  have hok := (h [34]).1
  rw [hfails] at hok
  cases hok

end Strix

import Strix.CrashTriples
import Strix.LiveCredentials
import Strix.Migrations
import Strix.RangeReads

/-!
# The upgrade of the IAM database

The first version of the schema stores the secrets of access keys as they are, in the
column `secret_access_key`.  The second one calls the column `secret_access_key_encrypted`,
and what is read from it is decrypted.  The upgrade renames the column, or rebuilds the
table where SQLite cannot rename, and encrypts nothing.

* `upgradeKeeps_iff`: when an upgrade that may be stopped anywhere keeps every key usable.
-/

namespace Strix

open AtomicProgram AtomicProgram.Prog RowTable

/-! ## Secrets at rest -/

/-- `decrypt_secret`; the text of a base64 or UTF-8 error is the library's and is left
out. -/
def decryptSecret (P : Platform) (encrypted : String) (encryptionKey : EncryptionKey) :
    Except IamError String :=
  match P.base64Decode encrypted with
  | none => .error (.encryption "Invalid base64: ")
  | some ciphertext =>
    match decryptAes256Gcm P encryptionKey ciphertext with
    | .error e => .error (.encryption e.message)
    | .ok plaintext =>
      match String.fromUTF8? ⟨plaintext.toArray⟩ with
      | none => .error (.encryption "Invalid UTF-8: ")
      | some secret => .ok secret

/-- Base64 writes more characters than it reads bytes. -/
def Platform.DecodesShorter (P : Platform) : Prop :=
  ∀ text data, P.base64Decode text = some data → data.length ≤ text.utf8ByteSize

/-- **No text is its own decryption**: the nonce and the tag are lost. -/
theorem decryptSecret_ne_self {P : Platform} (hkeeps : P.KeepsLength) (hshorter : P.DecodesShorter)
    (secret : String) (key : EncryptionKey) : decryptSecret P secret key ≠ .ok secret := by
  intro h
  unfold decryptSecret at h
  cases hdecode : P.base64Decode secret with
  | none => simp [hdecode] at h
  | some ciphertext =>
      have hlength := hshorter _ _ hdecode
      simp only [hdecode] at h
      cases hopen : decryptAes256Gcm P key ciphertext with
      | error e => simp [hopen] at h
      | ok plaintext =>
          have hopened : decryptWith P key ciphertext = .ok plaintext := by
            rw [decryptWith, hopen]
            rfl
          have hsealed := decryptWith_length hkeeps hopened
          simp only [hopen] at h
          cases htext : String.fromUTF8? ⟨plaintext.toArray⟩ with
          | none => simp [htext] at h
          | some text =>
              simp only [htext, Except.ok.injEq] at h
              subst h
              have hbytes : text.utf8ByteSize = plaintext.length := by
                unfold String.fromUTF8? at htext
                split at htext
                · cases htext
                  rfl
                · cases htext
              simp only [nonceSize] at hsealed
              omega

/-! ## The database -/

/-- Why a statement of the upgrade fails. -/
inductive UpgradeError
  | syntaxError
  | noSuchTable (name : String)
  | noSuchColumn (name : String)
  | duplicateColumn (name : String)
  | tableExists (name : String)
  | uniqueConstraint
  | foreignKey
  | schema (error : SchemaError)
  deriving DecidableEq, Repr

/-- `iam_users`, with or without the column `password_hash`. -/
structure UsersTable where
  hasPasswordHash : Bool
  rows : List User

/-- A table of access keys: what the column of the secrets is called, and whether there is
a column `last_used`. -/
structure KeysTable where
  encrypted : Bool
  hasLastUsed : Bool
  rows : List AccessKeyRow

/-- The IAM database as the upgrade sees it: the versions in `schema_migrations`, users and
keys with their rows, and of the other tables the schema. -/
structure IamFile where
  versions : Option (List Nat) := none
  users : Option UsersTable := none
  keys : Option KeysTable := none
  keysNew : Option KeysTable := none
  rest : Schema := {}

/-- The statements of `init_iam_schema` that may change the database. -/
inductive UpgradeStatement
  | pragma (sql : String)
  | createMigrations
  | createUsers
  | createKeys
  | addPasswordHash
  | addLastUsed
  | renameSecret
  | createKeysNew
  | copyKeys
  | dropKeys
  | renameKeysNew
  | record (version : Nat)
  | indexKeys
  | rest (statement : SchemaStatement)
  deriving DecidableEq, Repr

def keysIndex : String := "idx_access_keys_username"

/-- `INSERT INTO iam_access_keys_new .. SELECT .. FROM iam_access_keys`. -/
def copyRows (db : IamFile) (source target : KeysTable) : Except UpgradeError Unit × IamFile :=
  if source.encrypted then (.error (.noSuchColumn "secret_access_key"), db)
  else if source.rows.any fun k => target.rows.any (·.accessKeyId == k.accessKeyId) then
    (.error .uniqueConstraint, db)
  else if !source.rows.all fun k => db.users.any (·.rows.any (·.username == k.username)) then
    (.error .foreignKey, db)
  else
    (.ok (), { db with keysNew := some { target with
      rows := target.rows ++ source.rows.map fun k => { k with lastUsed := none } } })

/-- Execute a statement.  `renames`: does this SQLite know `RENAME COLUMN`? -/
def IamFile.exec (renames : Bool) (db : IamFile) :
    UpgradeStatement → Except UpgradeError Unit × IamFile
  | .pragma _ => (.ok (), db)
  | .createMigrations => (.ok (), { db with versions := some (db.versions.getD []) })
  | .createUsers => (.ok (), { db with users := some (db.users.getD ⟨false, []⟩) })
  | .createKeys => (.ok (), { db with keys := some (db.keys.getD ⟨false, false, []⟩) })
  | .addPasswordHash =>
    match db.users with
    | none => (.error (.noSuchTable "iam_users"), db)
    | some t =>
      if t.hasPasswordHash then (.error (.duplicateColumn "password_hash"), db)
      else (.ok (), { db with users := some { t with hasPasswordHash := true } })
  | .addLastUsed =>
    match db.keys with
    | none => (.error (.noSuchTable "iam_access_keys"), db)
    | some t =>
      if t.hasLastUsed then (.error (.duplicateColumn "last_used"), db)
      else (.ok (), { db with keys := some { t with hasLastUsed := true } })
  | .renameSecret =>
    if !renames then (.error .syntaxError, db)
    else
      match db.keys with
      | none => (.error (.noSuchTable "iam_access_keys"), db)
      | some t =>
        if t.encrypted then (.error (.noSuchColumn "secret_access_key"), db)
        else (.ok (), { db with keys := some { t with encrypted := true } })
  | .createKeysNew => (.ok (), { db with keysNew := some (db.keysNew.getD ⟨true, true, []⟩) })
  | .copyKeys =>
    match db.keys, db.keysNew with
    | some source, some target => copyRows db source target
    | none, _ => (.error (.noSuchTable "iam_access_keys"), db)
    | _, none => (.error (.noSuchTable "iam_access_keys_new"), db)
  | .dropKeys =>
    match db.keys with
    | none => (.error (.noSuchTable "iam_access_keys"), db)
    | some _ =>
      (.ok (), { db with
        keys := none
        rest := { db.rest with indexes := db.rest.indexes.filter (· != keysIndex) } })
  | .renameKeysNew =>
    match db.keysNew with
    | none => (.error (.noSuchTable "iam_access_keys_new"), db)
    | some t =>
      if db.keys.isSome then (.error (.tableExists "iam_access_keys"), db)
      else (.ok (), { db with keys := some t, keysNew := none })
  | .record version =>
    match db.versions with
    | none => (.error (.noSuchTable "schema_migrations"), db)
    | some versions =>
      if version ∈ versions then (.error .uniqueConstraint, db)
      else (.ok (), { db with versions := some (versions ++ [version]) })
  | .indexKeys =>
    if keysIndex ∈ db.rest.indexes then (.ok (), db)
    else if db.keys.isNone then (.error (.noSuchTable "iam_access_keys"), db)
    else
      (.ok (), { db with rest := { db.rest with indexes := db.rest.indexes ++ [keysIndex] } })
  | .rest statement =>
    ((db.rest.exec statement).1.mapError .schema,
      { db with rest := (db.rest.exec statement).2 })

/-- `SELECT COALESCE(MAX(version), 0) FROM schema_migrations`. -/
def IamFile.version (db : IamFile) : Nat := (db.versions.getD []).foldr max 0

/-! ## `init_iam_schema` -/

/-- The batch that creates the remaining tables. -/
def createRemaining : List SchemaStatement := [
  .createTable ⟨"iam_user_policies", ["username", "policy_name", "policy_document"]⟩,
  .createTable ⟨"bucket_policies", ["bucket", "policy_document", "created_at", "updated_at"]⟩,
  .createTable ⟨"iam_groups", ["name", "arn", "created_at"]⟩,
  .createTable ⟨"iam_group_members", ["group_name", "username"]⟩,
  .createIndex "idx_group_members_username" "iam_group_members" ["username"],
  .createTable ⟨"iam_group_policies", ["group_name", "policy_name", "policy_document"]⟩,
  .createTable ⟨"iam_policies",
    ["name", "description", "policy_document", "created_at", "updated_at"]⟩,
  .createTable ⟨"iam_temporary_credentials",
    ["access_key_id", "secret_access_key_encrypted", "session_token_hash", "assumed_identity",
      "expiration", "created_at"]⟩,
  .createIndex "idx_temp_creds_expiration" "iam_temporary_credentials" ["expiration"],
  .createIndex "idx_temp_creds_session_hash" "iam_temporary_credentials"
    ["session_token_hash"],
  .createTable ⟨"rate_limits", ["key", "attempts", "first_attempt_at", "locked_until"]⟩,
  .createIndex "idx_rate_limits_locked" "rate_limits" ["locked_until"],
  .createTable ⟨"oidc_providers",
    ["id", "name", "enabled", "issuer_url", "client_id", "client_secret_enc", "redirect_uri",
      "scopes", "username_claim", "groups_claim", "auto_create_users", "default_policy",
      "group_policy_mappings", "created_at", "updated_at"]⟩,
  .createTable ⟨"smtp_config",
    ["id", "enabled", "host", "port", "username", "password_enc", "from_address", "from_name",
      "use_starttls", "alert_on_delivery_failure", "send_usage_reports",
      "usage_report_schedule", "alert_on_audit_events", "alert_recipients", "updated_at"]⟩]

/-- A program over the IAM database. -/
abbrev UpgradeProg (α : Type) := Prog IamFile UpgradeError α

namespace UpgradeProg

variable (renames : Bool)

def execute (statement : UpgradeStatement) : UpgradeProg Unit :=
  perform (fun db : IamFile => db.exec renames statement) >>= Prog.lift

/-- `execute_batch`. -/
def executeBatch : List UpgradeStatement → UpgradeProg Unit
  | [] => pure ()
  | statement :: rest => do
    execute renames statement
    executeBatch rest

/-- Migration 1: the initial schema. -/
def initialSchema (currentVersion : Nat) : UpgradeProg Unit :=
  if currentVersion < 1 then do
    executeBatch renames [.createUsers, .createKeys]
    execute renames (.record 1)
  else pure ()

/-- Add a column, unless `pragma_table_info` knows it. -/
def addColumnUnless (has : IamFile → Bool) (statement : UpgradeStatement) : UpgradeProg Unit := do
  let present ← observe has
  if present then pure () else execute renames statement

/-- The column of the secrets gets its new name, if need be in a new table. -/
def renameSecretColumn : UpgradeProg Unit := do
  let hasEncryptedCol ← observe fun db : IamFile => db.keys.any (·.encrypted)
  if hasEncryptedCol then pure ()
  else do
    let result ← perform fun db : IamFile => db.exec renames .renameSecret
    if result.isOk then pure ()
    else executeBatch renames [.createKeysNew, .copyKeys, .dropKeys, .renameKeysNew]

/-- Migration 2: passwords, last uses, and encrypted secrets. -/
def encryptedSecrets (currentVersion : Nat) : UpgradeProg Unit :=
  if currentVersion < 2 then do
    addColumnUnless renames (fun db => db.users.any (·.hasPasswordHash)) .addPasswordHash
    addColumnUnless renames (fun db => db.keys.any (·.hasLastUsed)) .addLastUsed
    renameSecretColumn renames
    execute renames (.record 2)
  else pure ()

/-- `init_iam_schema`. -/
def initIamSchema : UpgradeProg Unit := do
  executeBatch renames
    (["PRAGMA journal_mode = WAL", "PRAGMA busy_timeout = 5000", "PRAGMA foreign_keys = ON",
      "PRAGMA synchronous = NORMAL"].map .pragma)
  execute renames .createMigrations
  let currentVersion ← observe IamFile.version
  initialSchema renames currentVersion
  encryptedSecrets renames currentVersion
  executeBatch renames (.indexKeys :: createRemaining.map .rest)

end UpgradeProg

/-! ## What an upgrade should keep -/

/-- The tables that the last batch creates. -/
def remainingTables : List Table :=
  createRemaining.filterMap fun
    | .createTable table => some table
    | _ => none

/-- **A database of version 1**: rows with distinct keys, and with the columns of that
version; secrets are plain text.  Of the remaining tables it may have any, as they are. -/
structure V1Database where
  users : List User
  keys : List AccessKeyRow
  rest : Schema := {}
  usersKeyed : Keyed User.username users
  keysKeyed : Keyed AccessKeyRow.accessKeyId keys
  owned : ∀ k ∈ keys, ∃ u ∈ users, u.username = k.username
  noPassword : ∀ u ∈ users, u.passwordHash = none
  neverUsed : ∀ k ∈ keys, k.lastUsed = none
  known : ∀ t ∈ rest.tables, t ∈ remainingTables

def V1Database.file (v1 : V1Database) : IamFile where
  versions := some [1]
  users := some ⟨false, v1.users⟩
  keys := some ⟨false, false, v1.keys⟩
  rest := v1.rest

/-- The configured root credentials, and the key for secrets. -/
structure RootConfig where
  rootAccessKey : String
  rootSecretKey : String
  encryptionKey : EncryptionKey

/-- The store over a database. -/
def RootConfig.store (config : RootConfig) (db : IamFile) : IamStore where
  db := { users := db.users.elim [] (·.rows), accessKeys := db.keys.elim [] (·.rows) }
  rootAccessKey := config.rootAccessKey
  rootSecretKey := config.rootSecretKey

/-- The store decrypts with its key. -/
def RootConfig.platform (config : RootConfig) (P : Platform) (base : IamPlatform) : IamPlatform :=
  { base with decryptSecret := fun encrypted => decryptSecret P encrypted config.encryptionKey }

/-- The key and its user are active. -/
def V1Database.Usable (v1 : V1Database) (k : AccessKeyRow) : Prop :=
  k ∈ v1.keys ∧ k.status = .active ∧ ∃ u ∈ v1.users, u.username = k.username ∧ u.status = .active

/-- **What the upgrade keeps**: every row, and the secret of every usable key. -/
structure Keeps (config : RootConfig) (platform : IamPlatform) (v1 : V1Database) (db : IamFile) :
    Prop where
  users : ∀ u ∈ v1.users, u ∈ (config.store db).db.users
  keys : ∀ k ∈ v1.keys, ∃ row ∈ (config.store db).db.accessKeys,
    row.accessKeyId = k.accessKeyId ∧ row.username = k.username ∧
      row.createdAt = k.createdAt ∧ row.status = k.status
  secrets : ∀ k, v1.Usable k → ∀ now, ∃ key user,
    (config.store db).getCredentials platform now k.accessKeyId = .ok (some (key, user)) ∧
      key.secretAccessKey = some k.secretAccessKeyEncrypted

/-- **The upgrade keeps every key usable**: wherever it is stopped, it succeeds when it is
run again, and then everything is kept. -/
def UpgradeKeeps (renames : Bool) (config : RootConfig) (platform : IamPlatform)
    (v1 : V1Database) : Prop :=
  ∀ n, ∃ db, (UpgradeProg.initIamSchema renames).run
      ((UpgradeProg.initIamSchema renames).stopped n v1.file) = (.ok (), db) ∧
    Keeps config platform v1 db

/-! ## Where the upgrade may be stopped -/

/-- The database on its way: which columns there are, and whether version 2 is recorded. -/
def V1Database.onTheWay (v1 : V1Database) (hasPasswordHash hasLastUsed encrypted recorded : Bool)
    (rest : Schema) : IamFile where
  versions := some (if recorded then [1, 2] else [1])
  users := some ⟨hasPasswordHash, v1.users⟩
  keys := some ⟨encrypted, hasLastUsed, v1.keys⟩
  rest := rest

/-- **A state of the upgrade**: version 2 is recorded only when the column is renamed, and
the rows are those of version 1. -/
def V1Database.Upgrading (v1 : V1Database) (Q : Bool → Bool → Bool → Bool → Prop)
    (db : IamFile) : Prop :=
  ∃ p l e r rest, (r = true → e = true) ∧ (∀ t ∈ rest.tables, t ∈ remainingTables) ∧
    Q p l e r ∧ db = v1.onTheWay p l e r rest

/-- Any state of the upgrade. -/
def V1Database.Underway (v1 : V1Database) : IamFile → Prop :=
  v1.Upgrading fun _ _ _ _ => True

section Steps

open UpgradeProg

variable {v1 : V1Database} {renames : Bool} {db : IamFile} {pre post crash : IamFile → Prop}

theorem V1Database.Upgrading.underway {Q : Bool → Bool → Bool → Bool → Prop}
    (h : v1.Upgrading Q db) : v1.Underway db := by
  obtain ⟨p, l, e, r, rest, hrecorded, hknown, -, rfl⟩ := h
  exact ⟨p, l, e, r, rest, hrecorded, hknown, trivial, rfl⟩

theorem V1Database.file_underway (v1 : V1Database) : v1.Underway v1.file :=
  ⟨false, false, false, false, v1.rest, fun h => h, v1.known, trivial, rfl⟩

/-- A statement that succeeds. -/
theorem triple_execute {statement : UpgradeStatement}
    (h : ∀ db, pre db → crash db ∧ ∃ db', db.exec renames statement = (.ok (), db') ∧
      post db' ∧ crash db') :
    Triple pre (UpgradeProg.execute renames statement) (fun _ => post) crash := by
  refine Triple.bind (fun result db => result = .ok () ∧ post db ∧ crash db)
    (Triple.perform ?_ ?_) fun result => Triple.lift ?_ fun s hs => hs.2.2
  · intro db hdb
    obtain ⟨-, db', hexec, hpost, hcrash⟩ := h db hdb
    rw [hexec]
    exact ⟨rfl, hpost, hcrash⟩
  · intro db hdb
    obtain ⟨hnow, db', hexec, -, hcrash⟩ := h db hdb
    rw [hexec]
    exact ⟨hnow, hcrash⟩
  · intro db hdb
    exact ⟨(), hdb.1, hdb.2.1⟩

/-- The pragmas and the table of versions change nothing on the way. -/
theorem exec_underway {Q : Bool → Bool → Bool → Bool → Prop} {statement : UpgradeStatement}
    (hstatement : statement = .createMigrations ∨ ∃ sql, statement = .pragma sql)
    (h : v1.Upgrading Q db) : db.exec renames statement = (.ok (), db) := by
  obtain ⟨p, l, e, r, rest, -, -, -, rfl⟩ := h
  rcases hstatement with rfl | ⟨sql, rfl⟩
  · rfl
  · rfl

theorem triple_pragmas (sqls : List String) :
    Triple v1.Underway (executeBatch renames (sqls.map .pragma)) (fun _ => v1.Underway)
      v1.Underway := by
  induction sqls with
  | nil => exact Triple.done () (fun _ h => h) fun _ h => h
  | cons sql sqls ih =>
      refine Triple.bind _ (triple_execute fun db h => ⟨h, db, ?_, h, h⟩) fun _ => ih
      exact exec_underway (.inr ⟨sql, rfl⟩) h

/-- A column that may be there already. -/
theorem triple_addColumnUnless {has : IamFile → Bool} {statement : UpgradeStatement}
    (hcrash : ∀ db, pre db → crash db)
    (hadd : ∀ db, pre db → has db = false →
      ∃ db', db.exec renames statement = (.ok (), db') ∧ pre db') :
    Triple pre (addColumnUnless renames has statement) (fun _ => pre) crash := by
  refine Triple.bind (fun present db => pre db ∧ present = has db)
    (Triple.observe (fun db h => ⟨h, rfl⟩) hcrash) fun present => Triple.ite ?_ ?_
  · intro _
    exact Triple.done () (fun _ h => h.1) fun _ h => hcrash _ h.1
  · intro hnot
    refine triple_execute fun db h => ⟨hcrash db h.1, ?_⟩
    obtain ⟨db', hexec, hdb'⟩ := hadd db h.1 (by rw [← h.2]; simpa using hnot)
    exact ⟨db', hexec, hdb', hcrash db' hdb'⟩

theorem triple_addPasswordHash :
    Triple (v1.Upgrading fun _ _ _ r => r = false)
      (addColumnUnless renames (fun db => db.users.any (·.hasPasswordHash)) .addPasswordHash)
      (fun _ => v1.Upgrading fun _ _ _ r => r = false) v1.Underway := by
  refine triple_addColumnUnless (fun _ h => h.underway) fun db h hhas => ?_
  obtain ⟨p, l, e, r, rest, hr, hknown, hQ, rfl⟩ := h
  obtain rfl : p = false := hhas
  exact ⟨_, rfl, true, l, e, r, rest, hr, hknown, hQ, rfl⟩

theorem triple_addLastUsed :
    Triple (v1.Upgrading fun _ _ _ r => r = false)
      (addColumnUnless renames (fun db => db.keys.any (·.hasLastUsed)) .addLastUsed)
      (fun _ => v1.Upgrading fun _ _ _ r => r = false) v1.Underway := by
  refine triple_addColumnUnless (fun _ h => h.underway) fun db h hhas => ?_
  obtain ⟨p, l, e, r, rest, hr, hknown, hQ, rfl⟩ := h
  obtain rfl : l = false := hhas
  exact ⟨_, rfl, p, true, e, r, rest, hr, hknown, hQ, rfl⟩

/-- Where SQLite can rename a column, the secrets get their new one in one statement. -/
theorem triple_renameSecretColumn :
    Triple (v1.Upgrading fun _ _ _ r => r = false) (renameSecretColumn true)
      (fun _ => v1.Upgrading fun _ _ e r => r = false ∧ e = true) v1.Underway := by
  refine Triple.bind (fun has => v1.Upgrading fun _ _ e r => r = false ∧ has = e)
    (Triple.observe ?_ fun _ h => h.underway) fun has => Triple.ite ?_ ?_
  · rintro db ⟨p, l, e, r, rest, hr, hknown, hQ, rfl⟩
    exact ⟨p, l, e, r, rest, hr, hknown, ⟨hQ, rfl⟩, rfl⟩
  · intro hhas
    refine Triple.done () ?_ fun _ h => h.underway
    rintro db ⟨p, l, e, r, rest, hr, hknown, hQ, rfl⟩
    exact ⟨p, l, e, r, rest, hr, hknown, ⟨hQ.1, hQ.2.symm.trans hhas⟩, rfl⟩
  · intro hnot
    refine Triple.bind (fun result db => result.isOk = true ∧
        v1.Upgrading (fun _ _ e r => r = false ∧ e = true) db)
      (Triple.perform ?_ ?_) fun result => Triple.ite ?_ ?_
    · rintro db ⟨p, l, e, r, rest, hr, hknown, ⟨hQ, rfl⟩, rfl⟩
      obtain rfl : has = false := by simpa using hnot
      exact ⟨rfl, p, l, true, r, rest, fun _ => rfl, hknown, ⟨hQ, rfl⟩, rfl⟩
    · rintro db ⟨p, l, e, r, rest, hr, hknown, ⟨hQ, rfl⟩, rfl⟩
      obtain rfl : has = false := by simpa using hnot
      exact ⟨⟨p, l, false, r, rest, hr, hknown, trivial, rfl⟩,
        p, l, true, r, rest, fun _ => rfl, hknown, trivial, rfl⟩
    · intro _
      exact Triple.done () (fun _ h => h.2) fun _ h => h.2.underway
    · intro hfailed
      exact Triple.impossible fun db h => hfailed h.1

/-- Migration 2 is recorded when the column has its new name. -/
theorem triple_encryptedSecrets (version : Nat) :
    Triple (v1.Upgrading fun _ _ _ r => version = if r then 2 else 1)
      (encryptedSecrets true version) (fun _ => v1.Upgrading fun _ _ e _ => e = true)
      v1.Underway := by
  refine Triple.ite (fun hold => ?_) fun hnew => ?_
  · have hbody : Triple (v1.Upgrading fun _ _ _ r => r = false)
        (addColumnUnless true (fun db => db.users.any (·.hasPasswordHash)) .addPasswordHash >>=
          fun _ => addColumnUnless true (fun db => db.keys.any (·.hasLastUsed)) .addLastUsed >>=
          fun _ => renameSecretColumn true >>= fun _ => UpgradeProg.execute true (.record 2))
        (fun _ => v1.Upgrading fun _ _ e _ => e = true) v1.Underway := by
      refine Triple.bind _ triple_addPasswordHash fun _ => Triple.bind _ triple_addLastUsed fun _ =>
        Triple.bind _ triple_renameSecretColumn fun _ =>
          triple_execute fun db h => ⟨h.underway, ?_⟩
      obtain ⟨p, l, e, r, rest, -, hknown, ⟨rfl, rfl⟩, rfl⟩ := h
      have hthen : v1.Upgrading (fun _ _ e _ => e = true) (v1.onTheWay p l true true rest) :=
        ⟨p, l, true, true, rest, fun _ => rfl, hknown, rfl, rfl⟩
      exact ⟨_, rfl, hthen, hthen.underway⟩
    refine hbody.weaken ?_ fun _ _ h => h
    rintro db ⟨p, l, e, r, rest, hr, hknown, hversion, rfl⟩
    cases r with
    | false => exact ⟨p, l, e, false, rest, hr, hknown, rfl, rfl⟩
    | true =>
        rw [if_pos rfl] at hversion
        omega
  · refine Triple.done () ?_ fun _ h => h.underway
    rintro db ⟨p, l, e, r, rest, hr, hknown, hversion, rfl⟩
    cases r with
    | false =>
        rw [if_neg Bool.false_ne_true] at hversion
        omega
    | true => exact ⟨p, l, e, true, rest, hr, hknown, hr rfl, rfl⟩

/-- The tables that are there are tables of this version, the named ones among them. -/
def KnownTables (made : List String) (rest : Schema) : Prop :=
  (∀ t ∈ rest.tables, t ∈ remainingTables) ∧ ∀ name ∈ made, rest.hasTable name = true

theorem KnownTables.createTable {made : List String} {rest : Schema} {table : Table}
    (h : KnownTables made rest) (htable : table ∈ remainingTables) :
    ∃ rest', rest.exec (.createTable table) = (.ok (), rest') ∧
      KnownTables (table.name :: made) rest' := by
  by_cases hthere : rest.hasTable table.name = true
  · exact ⟨rest, by simp [Schema.exec, hthere], h.1, List.forall_mem_cons.mpr ⟨hthere, h.2⟩⟩
  · refine ⟨_, by simp only [Schema.exec, if_neg hthere]; rfl, ?_, ?_⟩
    · intro t ht
      rcases List.mem_append.mp ht with hold | hnew
      · exact h.1 t hold
      · rwa [List.mem_singleton.mp hnew]
    · intro name hname
      rcases List.mem_cons.mp hname with rfl | hmade
      · simp [Schema.hasTable]
      · have hold := h.2 name hmade
        simp only [Schema.hasTable] at hold ⊢
        rw [List.any_append, hold, Bool.true_or]

theorem KnownTables.createIndex {made : List String} {rest : Schema} {table : String}
    {columns : List String} (h : KnownTables made rest) (hmade : table ∈ made)
    (hcolumns : ∀ t ∈ remainingTables, t.name = table → ∀ column ∈ columns, column ∈ t.columns)
    (name : String) :
    ∃ rest', rest.exec (.createIndex name table columns) = (.ok (), rest') ∧
      KnownTables made rest' := by
  by_cases hthere : name ∈ rest.indexes
  · exact ⟨rest, by simp [Schema.exec, hthere], h⟩
  · obtain ⟨t, ht, hname⟩ := List.any_eq_true.mp (h.2 table hmade)
    cases hfind : rest.tables.find? (·.name == table) with
    | none => exact absurd hname (List.find?_eq_none.mp hfind t ht)
    | some t' =>
        have ht' := h.1 t' (List.mem_of_find?_eq_some hfind)
        have hname' : t'.name = table := by
          have hmatch := List.find?_some hfind
          exact eq_of_beq hmatch
        have hnone : columns.find? (fun column => !t'.columns.contains column) = none := by
          rw [List.find?_eq_none]
          intro column hcolumn
          simpa using hcolumns t' ht' hname' column hcolumn
        refine ⟨{ rest with indexes := rest.indexes ++ [name] }, ?_, h⟩
        simp only [Schema.exec, if_neg hthere, hfind, hnone]

/-- Tables come before their indexes. -/
def wellOrdered (made : List String) : List SchemaStatement → Bool
  | [] => true
  | .createTable table :: rest =>
    remainingTables.contains table && wellOrdered (table.name :: made) rest
  | .createIndex _ table columns :: rest =>
    made.contains table &&
      (remainingTables.all fun t => t.name != table || columns.all t.columns.contains) &&
      wellOrdered made rest
  | _ :: _ => false

theorem exec_rest {statement : SchemaStatement} {rest : Schema}
    (h : db.rest.exec statement = (.ok (), rest)) :
    db.exec renames (.rest statement) = (.ok (), { db with rest := rest }) := by
  simp [IamFile.exec, h, Except.mapError]

theorem exec_indexKeys (renames : Bool) (v1 : V1Database) (p l e r : Bool) (rest : Schema) :
    ∃ rest', (v1.onTheWay p l e r rest).exec renames .indexKeys =
      (.ok (), v1.onTheWay p l e r rest') ∧ rest'.tables = rest.tables := by
  by_cases hthere : keysIndex ∈ rest.indexes
  · exact ⟨rest, by simp [IamFile.exec, V1Database.onTheWay, hthere], rfl⟩
  · refine ⟨{ rest with indexes := rest.indexes ++ [keysIndex] }, ?_, rfl⟩
    simp [IamFile.exec, V1Database.onTheWay, hthere]

/-- The last batch can run again and again. -/
theorem triple_createRemaining (made : List String) {statements : List SchemaStatement}
    (hordered : wellOrdered made statements = true) :
    Triple (fun db => v1.Upgrading (fun _ _ e _ => e = true) db ∧ KnownTables made db.rest)
      (executeBatch renames (statements.map .rest))
      (fun _ => v1.Upgrading fun _ _ e _ => e = true) v1.Underway := by
  induction statements generalizing made with
  | nil => exact Triple.done () (fun _ h => h.1) fun _ h => h.1.underway
  | cons statement statements ih =>
      have hstep {made' : List String} (hrest : wellOrdered made' statements = true)
          (hexec : ∀ rest, KnownTables made rest →
            ∃ rest', rest.exec statement = (.ok (), rest') ∧ KnownTables made' rest') :
          Triple (fun db => v1.Upgrading (fun _ _ e _ => e = true) db ∧ KnownTables made db.rest)
            (executeBatch renames ((statement :: statements).map .rest))
            (fun _ => v1.Upgrading fun _ _ e _ => e = true) v1.Underway := by
        refine Triple.bind _ (triple_execute fun db h => ⟨h.1.underway, ?_⟩) fun _ => ih made' hrest
        obtain ⟨⟨p, l, e, r, rest, hr, -, hQ, rfl⟩, hmade⟩ := h
        obtain ⟨rest', hrun, hknown⟩ := hexec rest hmade
        have hthen : v1.Upgrading (fun _ _ e _ => e = true) (v1.onTheWay p l e r rest') :=
          ⟨p, l, e, r, rest', hr, hknown.1, hQ, rfl⟩
        exact ⟨v1.onTheWay p l e r rest', exec_rest hrun, ⟨hthen, hknown⟩, hthen.underway⟩
      cases statement with
      | createTable table =>
          simp only [wellOrdered, Bool.and_eq_true, List.contains_iff_mem] at hordered
          exact hstep hordered.2 fun rest h => h.createTable hordered.1
      | createIndex name table columns =>
          simp only [wellOrdered, Bool.and_eq_true, List.contains_iff_mem, List.all_eq_true,
            Bool.or_eq_true, bne_iff_ne] at hordered
          refine hstep hordered.2 fun rest h => h.createIndex hordered.1.1 ?_ name
          intro t ht hname
          exact (hordered.1.2 t ht).resolve_left (not_not_intro hname)
      | addColumn table column => cases hordered
      | record version name => cases hordered
      | other sql => cases hordered

/-- **The upgrade, stopped anywhere and run again**, where SQLite can rename a column. -/
theorem triple_initIamSchema :
    Triple v1.Underway (initIamSchema true) (fun _ => v1.Upgrading fun _ _ e _ => e = true)
      v1.Underway := by
  refine Triple.bind _ (triple_pragmas _) fun _ => Triple.bind _ (triple_execute fun db h =>
    ⟨h, db, exec_underway (.inl rfl) h, h, h⟩) fun _ => ?_
  refine Triple.bind
    (fun version => v1.Upgrading fun _ _ _ r => version = if r then 2 else 1)
    (Triple.observe ?_ fun _ h => h) fun version => ?_
  · rintro db ⟨p, l, e, r, rest, hr, hknown, -, rfl⟩
    refine ⟨p, l, e, r, rest, hr, hknown, ?_, rfl⟩
    cases r with
    | false => rfl
    | true => rfl
  refine Triple.bind _ (Triple.ite (fun hnone => Triple.impossible ?_) fun _ =>
    Triple.done () (fun _ h => h) fun _ h => h.underway) fun _ =>
      Triple.bind _ (triple_encryptedSecrets version) fun _ => ?_
  · rintro db ⟨p, l, e, r, rest, -, -, hversion, rfl⟩
    split at hversion
    · omega
    · omega
  · refine Triple.bind _ (triple_execute fun db h => ⟨h.underway, ?_⟩) fun _ =>
      triple_createRemaining [] (by decide)
    obtain ⟨p, l, e, r, rest, hr, hknown, hQ, rfl⟩ := h
    obtain ⟨rest', hexec, htables⟩ := exec_indexKeys true v1 p l e r rest
    rw [← htables] at hknown
    exact ⟨_, hexec, ⟨⟨p, l, e, r, rest', hr, hknown, hQ, rfl⟩, hknown, by simp⟩,
      p, l, e, r, rest', hr, hknown, trivial, rfl⟩

/-- **Stopped as often as it may be**, the upgrade then ends with the rows it began with. -/
theorem initIamSchema_restarts (v1 : V1Database) (stops : List Nat) :
    ∃ db, (initIamSchema true).run
        (stops.foldl (fun db n => (initIamSchema true).stopped n db) v1.file) = (.ok (), db) ∧
      v1.Upgrading (fun _ _ e _ => e = true) db := by
  obtain ⟨⟨⟩, db, hrun, hdb⟩ := triple_initIamSchema.restart stops v1.file_underway
  exact ⟨db, hrun, hdb⟩

end Steps

/-! ## Where SQLite cannot rename a column -/

section Rebuild

open UpgradeProg

variable (v1 : V1Database)

/-- The columns are there, the rename has failed. -/
def V1Database.widened : IamFile := v1.onTheWay true true false false v1.rest

/-- The rows are in the new table only. -/
def V1Database.dropped : IamFile where
  versions := some [1]
  users := some ⟨true, v1.users⟩
  keysNew := some ⟨true, true, v1.keys.map fun k => { k with lastUsed := none }⟩
  rest := { v1.rest with indexes := v1.rest.indexes.filter (· != keysIndex) }

/-- The table of the keys is copied and dropped. -/
theorem stopsIn_rebuild : StopsIn
    (executeBatch false [.createKeysNew, .copyKeys, .dropKeys, .renameKeysNew]) v1.widened
    v1.dropped := by
  have howned : (v1.keys.all fun k => v1.users.any (·.username == k.username)) = true := by
    rw [List.all_eq_true]
    intro k hk
    obtain ⟨u, hu, hname⟩ := v1.owned k hk
    exact List.any_eq_true.mpr ⟨u, hu, beq_iff_eq.mpr hname⟩
  have hcopy : copyRows { v1.widened with keysNew := some ⟨true, true, []⟩ }
      ⟨false, true, v1.keys⟩ ⟨true, true, []⟩ =
        (.ok (), { v1.widened with keysNew := some ⟨true, true,
          v1.keys.map fun k => { k with lastUsed := none }⟩ }) := by
    simp [copyRows, V1Database.widened, V1Database.onTheWay, howned]
  refine StopsIn.bind (a := ()) (u := { v1.widened with keysNew := some ⟨true, true, []⟩ }) rfl ?_
  refine StopsIn.bind (a := ()) (u := { v1.widened with keysNew := some ⟨true, true,
      v1.keys.map fun k => { k with lastUsed := none }⟩ }) ?_ ?_
  · show (UpgradeProg.execute false .copyKeys).run _ = _
    rw [UpgradeProg.execute, run_perform_bind]
    simp only [IamFile.exec, V1Database.widened, V1Database.onTheWay] at hcopy ⊢
    rw [hcopy]
    rfl
  · exact StopsIn.bind (a := ()) (u := v1.dropped) rfl (StopsIn.start _ _)

/-- **The upgrade can be stopped without a table of keys.** -/
theorem stopsIn_dropped : StopsIn (initIamSchema false) v1.file v1.dropped := by
  refine StopsIn.bind (a := ()) (u := v1.file) rfl (StopsIn.bind (a := ()) (u := v1.file) rfl
    (StopsIn.bind (a := 1) (u := v1.file) rfl (StopsIn.bind (a := ()) (u := v1.file) rfl
      (StopsIn.left ?_))))
  refine StopsIn.bind (a := ()) (u := v1.onTheWay true false false false v1.rest) rfl
    (StopsIn.bind (a := ()) (u := v1.widened) rfl (StopsIn.left ?_))
  have hfailed : (perform fun db : IamFile => db.exec false .renameSecret :
      UpgradeProg (Except UpgradeError Unit)).run v1.widened =
        (.ok (.error .syntaxError), v1.widened) := rfl
  exact StopsIn.bind (a := false) (u := v1.widened) rfl
    (StopsIn.bind hfailed (stopsIn_rebuild v1))

/-- And never runs to its end again. -/
theorem run_dropped :
    ((initIamSchema false).run v1.dropped).1 = .error (.noSuchTable "iam_access_keys") := rfl

theorem not_upgradeKeeps_rebuild (config : RootConfig) (platform : IamPlatform) :
    ¬UpgradeKeeps false config platform v1 := by
  intro h
  obtain ⟨n, hn⟩ := stopsIn_dropped v1
  obtain ⟨db, hrun, -⟩ := h n
  rw [hn] at hrun
  have hfailed := run_dropped v1
  rw [hrun] at hfailed
  cases hfailed

end Rebuild

/-! ## What is kept -/

section Kept

variable {v1 : V1Database} {db : IamFile} {config : RootConfig} {platform : IamPlatform}
  {Q : Bool → Bool → Bool → Bool → Prop} {k : AccessKeyRow}

/-- A usable key opens with the decryption of what version 1 has stored. -/
theorem getCredentials_usable (platform : IamPlatform) (h : v1.Upgrading Q db) (hk : v1.Usable k)
    (hother : k.accessKeyId ≠ config.rootAccessKey) (now : DateTime) :
    ∃ user, (config.store db).getCredentials platform now k.accessKeyId =
      (platform.decryptSecret k.secretAccessKeyEncrypted).map fun secret =>
        some (k.opened secret, user) := by
  obtain ⟨p, l, e, r, rest, -, -, -, rfl⟩ := h
  obtain ⟨hmem, hactive, u, hu, hname, hstatus⟩ := hk
  rw [getCredentials_eq platform hother]
  obtain ⟨⟨k', u'⟩, hfind⟩ := (find_join (fun (k : AccessKeyRow) (u : User) =>
    k.username == u.username) (activeKey k.accessKeyId)).mpr
    ⟨k, hmem, u, hu, by simp [hname], by simp [activeKey, hactive, hstatus]⟩
  obtain ⟨hk', -, -, hmatch⟩ := find_join_some hfind
  simp only [activeKey, Bool.and_eq_true, beq_iff_eq] at hmatch
  obtain rfl := v1.keysKeyed.eq_of_mem hk' hmem hmatch.1.1
  refine ⟨u', ?_⟩
  simp only [RootConfig.store, V1Database.onTheWay, Option.elim_some]
  rw [hfind]

/-- **Everything is kept** if and only if every usable key has its secret. -/
theorem keeps_iff (h : v1.Upgrading Q db) :
    Keeps config platform v1 db ↔ ∀ k, v1.Usable k →
      if k.accessKeyId = config.rootAccessKey then
        k.secretAccessKeyEncrypted = config.rootSecretKey
      else
        platform.decryptSecret k.secretAccessKeyEncrypted = .ok k.secretAccessKeyEncrypted := by
  constructor
  · intro hkeeps k hk
    obtain ⟨key, user, hfound, hsecret⟩ := hkeeps.secrets k hk 0
    split
    · rename_i hroot
      unfold IamStore.getCredentials at hfound
      rw [if_pos (by exact hroot)] at hfound
      simp only [Except.ok.injEq, Option.some.injEq, Prod.mk.injEq] at hfound
      rw [← hfound.1] at hsecret
      exact (Option.some.inj hsecret).symm
    · rename_i hother
      obtain ⟨user', hopens⟩ := getCredentials_usable platform h hk hother 0
      rw [hfound] at hopens
      cases hdecrypt : platform.decryptSecret k.secretAccessKeyEncrypted with
      | error e => simp [hdecrypt, Except.map] at hopens
      | ok secret =>
          simp only [hdecrypt, Except.map, Except.ok.injEq, Option.some.injEq,
            Prod.mk.injEq] at hopens
          rw [hopens.1] at hsecret
          rw [Option.some.inj hsecret]
  · intro hsecrets
    have hrows := h
    obtain ⟨p, l, e, r, rest, -, -, -, hdb⟩ := hrows
    refine ⟨fun u hu => ?_, fun k hk => ?_, fun k hk now => ?_⟩
    · rw [hdb]
      exact hu
    · rw [hdb]
      exact ⟨k, hk, rfl, rfl, rfl, rfl⟩
    · have hsecret := hsecrets k hk
      by_cases hroot : k.accessKeyId = config.rootAccessKey
      · rw [if_pos hroot] at hsecret
        unfold IamStore.getCredentials
        rw [if_pos (by exact hroot)]
        exact ⟨_, _, rfl, congrArg some hsecret.symm⟩
      · rw [if_neg hroot] at hsecret
        obtain ⟨user, hopens⟩ := getCredentials_usable platform h hk hroot now
        rw [hsecret] at hopens
        exact ⟨_, user, hopens, rfl⟩

end Kept

/-- **The upgrade keeps every key usable if and only if** SQLite can rename columns and no
key is usable but one with the root credentials. -/
theorem upgradeKeeps_iff {P : Platform} (hkeeps : P.KeepsLength) (hshorter : P.DecodesShorter)
    (renames : Bool) (config : RootConfig) (base : IamPlatform) (v1 : V1Database) :
    UpgradeKeeps renames config (config.platform P base) v1 ↔
      renames = true ∧ ∀ k, v1.Usable k → k.accessKeyId = config.rootAccessKey ∧
        k.secretAccessKeyEncrypted = config.rootSecretKey := by
  cases renames with
  | false =>
      refine iff_of_false (not_upgradeKeeps_rebuild v1 config _) fun h => ?_
      exact Bool.false_ne_true h.1
  | true =>
      have hupgrade : Triple v1.Underway (UpgradeProg.initIamSchema true)
          (fun _ => v1.Upgrading fun _ _ e _ => e = true) v1.Underway := triple_initIamSchema
      constructor
      · intro h
        obtain ⟨db, hrun, hkept⟩ := h 0
        rw [stopped_zero] at hrun
        obtain ⟨⟨⟩, db', hrun', hdb'⟩ := hupgrade.ends v1.file v1.file_underway
        obtain rfl : db = db' := (Prod.mk.inj (hrun.symm.trans hrun')).2
        refine ⟨rfl, fun k hk => ?_⟩
        have hsecret := (keeps_iff hdb').mp hkept k hk
        split at hsecret
        · rename_i hroot
          exact ⟨hroot, hsecret⟩
        · exact absurd hsecret (decryptSecret_ne_self hkeeps hshorter _ _)
      · rintro ⟨-, hroots⟩ n
        obtain ⟨⟨⟩, db, hrun, hdb⟩ :=
          hupgrade.ends _ (hupgrade.stops v1.file v1.file_underway n)
        refine ⟨db, hrun, (keeps_iff hdb).mpr fun k hk => ?_⟩
        rw [if_pos (hroots k hk).1]
        exact (hroots k hk).2

/-- Alice, with one key. -/
def aliceV1 (status : ActiveStatus) : V1Database where
  users := [User.create "alice" 0]
  keys := [{ accessKeyId := "AKIAALICE", secretAccessKeyEncrypted := "alice-secret",
             username := "alice", createdAt := 0, status }]
  usersKeyed := by simp [Keyed]
  keysKeyed := by simp [Keyed]
  owned := by simp [User.create]
  noPassword := by simp [User.create]
  neverUsed := by simp
  known := by simp

theorem zeroKey_length : (List.replicate keySize (0 : UInt8)).length = keySize :=
  List.length_replicate

/-- A configuration with a key of zeros. -/
def rootConfig : RootConfig where
  rootAccessKey := "root"
  rootSecretKey := "root-secret"
  encryptionKey := ⟨List.replicate keySize 0, zeroKey_length⟩

theorem executablePlatform_decodesShorter : executablePlatform.DecodesShorter :=
  fun _ _ h => nomatch h

/-- An inactive key survives the upgrade. -/
theorem upgradeKeeps_inactive :
    executablePlatform.KeepsLength ∧ executablePlatform.DecodesShorter ∧
      UpgradeKeeps true rootConfig (rootConfig.platform executablePlatform plainIamPlatform)
        (aliceV1 .inactive) := by
  refine ⟨executablePlatform_keepsLength, executablePlatform_decodesShorter,
    (upgradeKeeps_iff executablePlatform_keepsLength executablePlatform_decodesShorter true
      rootConfig plainIamPlatform (aliceV1 .inactive)).mpr ⟨rfl, ?_⟩⟩
  rintro k ⟨hk, hactive, -⟩
  obtain rfl := List.mem_singleton.mp hk
  cases hactive

/-- Alice's secret is not there any more. -/
theorem upgrade_losesSecret : ¬ ∀ v1, UpgradeKeeps true rootConfig
    (rootConfig.platform executablePlatform plainIamPlatform) v1 := by
  intro hall
  obtain ⟨db, hrun, hkept⟩ := hall (aliceV1 .active) 0
  obtain ⟨⟨⟩, db', hrun', hdb'⟩ :=
    triple_initIamSchema.ends _ (aliceV1 .active).file_underway
  rw [stopped_zero] at hrun
  obtain rfl : db = db' := (Prod.mk.inj (hrun.symm.trans hrun')).2
  have husable : (aliceV1 .active).Usable
      { accessKeyId := "AKIAALICE", secretAccessKeyEncrypted := "alice-secret",
        username := "alice", createdAt := 0 } :=
    ⟨List.mem_singleton_self _, rfl, User.create "alice" 0, List.mem_singleton_self _, rfl, rfl⟩
  have hsecret := (keeps_iff hdb').mp hkept _ husable
  rw [if_neg (by decide)] at hsecret
  cases hsecret

end Strix

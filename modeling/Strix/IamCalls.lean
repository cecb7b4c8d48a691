import Strix.IamStore
import Strix.MachineRuns
import Strix.RowTable

/-!
# Changes of the IAM store

What `IamProvider` changes: users and their status, access keys, policies of
users and groups, memberships and temporary credentials.  Every table that
refers to users has a foreign key on them, so that rows go with their user and
none is inserted for a name without one.

`Sound` is the invariant of these tables; `sound_perform` says that every call
keeps it and `sound_after` that it holds of every state calls lead to.
-/

namespace Strix

open MachineRuns RowTable

/-- Encryption of secrets at rest under the key of the store: what was encrypted
decrypts to what it was. -/
structure IamKeys where
  platform : IamPlatform
  encryptSecret : String → Except IamError String
  decrypt_encrypt : ∀ {secret encrypted}, encryptSecret secret = .ok encrypted →
    platform.decryptSecret encrypted = .ok secret

theorem plainSecret_decrypts {secret encrypted : String}
    (h : (Except.ok secret : Except IamError String) = .ok encrypted) :
    (Except.ok encrypted : Except IamError String) = .ok secret := h.symm

/-- Secrets that are stored as they are. -/
def plainKeys : IamKeys where
  platform := plainIamPlatform
  encryptSecret secret := .ok secret
  decrypt_encrypt := @plainSecret_decrypts

/-- The characters of access key ids. -/
def keyCharset : List Char := "ABCDEFGHIJKLMNOPQRSTUVWXYZ0123456789".toList

/-- The text that a draw of characters spells. -/
def drawnText {n : Nat} (draw : Fin n → Fin 36) : String :=
  String.ofList (List.ofFn fun i => keyCharset.getD (draw i).val 'A')

/-- Generate a random access key id, from twenty drawn characters. -/
def generateAccessKeyId (draw : Fin 20 → Fin 36) : String := drawnText draw

/-- Generate a temporary access key id, from sixteen drawn characters. -/
def generateTempAccessKeyId (draw : Fin 16 → Fin 36) : String := "ASIA" ++ drawnText draw

namespace IamStore

/-- There is a row of this user. -/
def HasUser (iam : IamStore) (username : String) : Prop :=
  ∃ u ∈ iam.db.users, u.username = username

instance (iam : IamStore) (username : String) : Decidable (iam.HasUser username) :=
  inferInstanceAs (Decidable (∃ u ∈ iam.db.users, u.username = username))

/-- A statement that reports `missing` if no row matched. -/
def reportRows {α : Type} (rows : List α) (hit : α → Bool) (missing : IamError)
    (iam after : IamStore) : Except IamError Unit × IamStore :=
  if rows.any hit then (.ok (), after) else (.error missing, iam)

/-! ## Users -/

/-- `DELETE FROM iam_users`, with the rows that refer to the user. -/
def deleteUserRows (username : String) (db : IamDb) : IamDb :=
  { db with
    users := deleteRows (·.username == username) db.users
    accessKeys := deleteRows (·.username == username) db.accessKeys
    userPolicies := deleteRows (·.username == username) db.userPolicies
    groupMembers := deleteRows (·.username == username) db.groupMembers
    temporaryCredentials := deleteRows (·.assumedIdentity == username) db.temporaryCredentials }

def deleteUser (iam : IamStore) (username : String) : Except IamError Unit × IamStore :=
  if iam.isRootName username then (.error .cannotDeleteRoot, iam)
  else
    reportRows iam.db.users (·.username == username) (.userNotFound username) iam
      { iam with db := deleteUserRows username iam.db }

def updateUserStatus (iam : IamStore) (username : String) (status : ActiveStatus) :
    Except IamError Unit × IamStore :=
  if iam.isRootName username then (.error .cannotDeleteRoot, iam)
  else
    reportRows iam.db.users (·.username == username) (.userNotFound username) iam
      { iam with db := { iam.db with
          users := updateRows (·.username == username) (fun u => { u with status := status })
            iam.db.users } }

/-- `set_user_password`, once the password is hashed. -/
def setUserPassword (iam : IamStore) (username hash : String) :
    Except IamError Unit × IamStore :=
  reportRows iam.db.users (·.username == username) (.userNotFound username) iam
    { iam with db := { iam.db with
        users := updateRows (·.username == username)
          (fun u => { u with passwordHash := some hash }) iam.db.users } }

/-! ## Access keys -/

/-- `create_access_key`, with the drawn id and the drawn secret. -/
def createAccessKey (iam : IamStore) (keys : IamKeys) (now : DateTime) (username : String)
    (draw : Fin 20 → Fin 36) (secret : String) : Except IamError AccessKey × IamStore :=
  if iam.isRootName username then (.error .cannotModifyRootKeys, iam)
  else
    match iam.getUser now username with
    | .error e => (.error e, iam)
    | .ok _ =>
      if 2 ≤ (iam.db.accessKeys.filter (·.username == username)).length then
        (.error .maxAccessKeysExceeded, iam)
      else
        match keys.encryptSecret secret with
        | .error e => (.error e, iam)
        | .ok encrypted =>
          let id := generateAccessKeyId draw
          if iam.db.accessKeys.any (·.accessKeyId == id) then (.error .database, iam)
          else
            let row : AccessKeyRow :=
              { accessKeyId := id
                secretAccessKeyEncrypted := encrypted
                username := username
                createdAt := now }
            (.ok
              { accessKeyId := id
                secretAccessKey := some secret
                username := username
                createdAt := now
                status := .active
                lastUsed := none },
              { iam with db := { iam.db with accessKeys := insertRow row iam.db.accessKeys } })

def deleteAccessKey (iam : IamStore) (accessKeyId : String) : Except IamError Unit × IamStore :=
  if accessKeyId = iam.rootAccessKey then (.error .cannotModifyRootKeys, iam)
  else
    reportRows iam.db.accessKeys (·.accessKeyId == accessKeyId)
      (.accessKeyNotFound accessKeyId) iam
      { iam with db := { iam.db with
          accessKeys := deleteRows (·.accessKeyId == accessKeyId) iam.db.accessKeys } }

def updateAccessKeyStatus (iam : IamStore) (accessKeyId : String) (status : ActiveStatus) :
    Except IamError Unit × IamStore :=
  if accessKeyId = iam.rootAccessKey then (.error .cannotModifyRootKeys, iam)
  else
    reportRows iam.db.accessKeys (·.accessKeyId == accessKeyId)
      (.accessKeyNotFound accessKeyId) iam
      { iam with db := { iam.db with
          accessKeys := updateRows (·.accessKeyId == accessKeyId)
            (fun k => { k with status := status }) iam.db.accessKeys } }

def updateAccessKeyLastUsed (iam : IamStore) (now : DateTime) (accessKeyId : String) : IamStore :=
  if accessKeyId = iam.rootAccessKey then iam
  else
    { iam with db := { iam.db with
        accessKeys := updateRows (·.accessKeyId == accessKeyId)
          (fun k => { k with lastUsed := some now }) iam.db.accessKeys } }

/-! ## Policies and groups -/

def detachUserPolicy (iam : IamStore) (username policyName : String) :
    Except IamError Unit × IamStore :=
  let hit (row : UserPolicyRow) : Bool :=
    row.username == username && row.policyName == policyName
  reportRows iam.db.userPolicies hit (.policyNotFound policyName) iam
    { iam with db := { iam.db with userPolicies := deleteRows hit iam.db.userPolicies } }

def createGroup (iam : IamStore) (now : DateTime) (name : String) :
    Except IamError Unit × IamStore :=
  if iam.db.groups.any (·.name == name) then (.error (.groupExists name), iam)
  else
    let row : GroupRow :=
      { name := name, arn := "arn:strix:iam::group/" ++ name, createdAt := now }
    (.ok (), { iam with db := { iam.db with groups := insertRow row iam.db.groups } })

/-- `DELETE FROM iam_groups`, with the rows that refer to the group. -/
def deleteGroup (iam : IamStore) (name : String) : Except IamError Unit × IamStore :=
  reportRows iam.db.groups (·.name == name) (.groupNotFound name) iam
    { iam with db := { iam.db with
        groups := deleteRows (·.name == name) iam.db.groups
        groupMembers := deleteRows (·.groupName == name) iam.db.groupMembers
        groupPolicies := deleteRows (·.groupName == name) iam.db.groupPolicies } }

/-- `add_user_to_group`; root, who has no row, passes the check of the user and
fails on the foreign key. -/
def addUserToGroup (iam : IamStore) (now : DateTime) (groupName username : String) :
    Except IamError Unit × IamStore :=
  if !iam.db.groups.any (·.name == groupName) then (.error (.groupNotFound "unknown"), iam)
  else
    match iam.getUser now username with
    | .error e => (.error e, iam)
    | .ok _ =>
      if iam.db.groupMembers.any fun m => m.groupName == groupName && m.username == username then
        (.ok (), iam)
      else if iam.HasUser username then
        let row : GroupMemberRow := { groupName := groupName, username := username }
        (.ok (), { iam with db := { iam.db with
          groupMembers := insertRow row iam.db.groupMembers } })
      else (.error .database, iam)

def removeUserFromGroup (iam : IamStore) (groupName username : String) : IamStore :=
  { iam with db := { iam.db with
      groupMembers := deleteRows
        (fun m => m.groupName == groupName && m.username == username) iam.db.groupMembers } }

/-- `INSERT OR REPLACE INTO iam_group_policies`, for a group that exists. -/
def attachGroupPolicy (iam : IamStore) (groupName : String) (policy : Policy) :
    Except IamError Unit × IamStore :=
  if !iam.db.groups.any (·.name == groupName) then (.error (.groupNotFound "unknown"), iam)
  else
    let kept := deleteRows
      (fun row => row.groupName == groupName && row.policyName == policy.name)
      iam.db.groupPolicies
    let row : GroupPolicyRow :=
      { groupName := groupName, policyName := policy.name, policyDocument := some policy }
    (.ok (), { iam with db := { iam.db with groupPolicies := insertRow row kept } })

def detachGroupPolicy (iam : IamStore) (groupName policyName : String) :
    Except IamError Unit × IamStore :=
  let hit (row : GroupPolicyRow) : Bool :=
    row.groupName == groupName && row.policyName == policyName
  reportRows iam.db.groupPolicies hit (.policyNotFound policyName) iam
    { iam with db := { iam.db with groupPolicies := deleteRows hit iam.db.groupPolicies } }

/-- `create_policy`: insert the managed policy or replace its document. -/
def createPolicy (iam : IamStore) (policy : Policy) : IamStore :=
  { iam with db := { iam.db with
      policies :=
        if iam.db.policies.any (·.name == policy.name) then
          updateRows (·.name == policy.name)
            (fun row => { row with policyDocument := some policy }) iam.db.policies
        else
          insertRow { name := policy.name, policyDocument := some policy } iam.db.policies } }

def deletePolicy (iam : IamStore) (policyName : String) : Except IamError Unit × IamStore :=
  reportRows iam.db.policies (·.name == policyName) (.policyNotFound policyName) iam
    { iam with db := { iam.db with
        policies := deleteRows (·.name == policyName) iam.db.policies } }

/-! ## Temporary credentials -/

/-- The lifetime of temporary credentials in seconds: an hour unless asked for,
between a quarter of an hour and twelve hours. -/
def sessionDuration (durationSeconds : Option Nat) : Nat :=
  max 900 (min 43200 (durationSeconds.getD 3600))

/-- When temporary credentials that are made now expire. -/
def sessionExpiration (now : DateTime) (durationSeconds : Option Nat) : DateTime :=
  now + sessionDuration durationSeconds * 1000000000

/-- `assume_role`, with the drawn id, secret and token. -/
def assumeRole (iam : IamStore) (keys : IamKeys) (now : DateTime) (username : String)
    (durationSeconds : Option Nat) (draw : Fin 16 → Fin 36) (secret token : String) :
    Except IamError TemporaryCredential × IamStore :=
  match iam.getUser now username with
  | .error e => (.error e, iam)
  | .ok user =>
    if user.status ≠ .active then (.error .invalidCredentials, iam)
    else
      let id := generateTempAccessKeyId draw
      let tokenHash := keys.platform.sha256Hex token
      let expiration := sessionExpiration now durationSeconds
      match keys.encryptSecret secret with
      | .error e => (.error e, iam)
      | .ok encrypted =>
        -- the primary key, the unique token hash and the foreign key on users
        if iam.db.temporaryCredentials.any (·.accessKeyId == id) ||
            iam.db.temporaryCredentials.any (·.sessionTokenHash == tokenHash) ||
            !decide (iam.HasUser username) then
          (.error .database, iam)
        else
          let row : TemporaryCredentialRow :=
            { accessKeyId := id
              secretAccessKeyEncrypted := encrypted
              sessionTokenHash := tokenHash
              assumedIdentity := username
              expiration := keys.platform.toRfc3339 expiration }
          (.ok
            { accessKeyId := id
              secretAccessKey := some secret
              sessionToken := token
              expiration := expiration
              assumedIdentity := username },
            { iam with db := { iam.db with
                temporaryCredentials := insertRow row iam.db.temporaryCredentials } })

end IamStore

/-! ## Calls -/

/-- A call of the IAM store that may change it. -/
inductive IamCall
  | createUser (username : String)
  | deleteUser (username : String)
  | updateUserStatus (username : String) (status : ActiveStatus)
  | setUserPassword (username hash : String)
  | createAccessKey (username : String) (draw : Fin 20 → Fin 36) (secret : String)
  | deleteAccessKey (accessKeyId : String)
  | updateAccessKeyStatus (accessKeyId : String) (status : ActiveStatus)
  | updateAccessKeyLastUsed (accessKeyId : String)
  | attachUserPolicy (username : String) (policy : Policy)
  | detachUserPolicy (username policyName : String)
  | createGroup (name : String)
  | deleteGroup (name : String)
  | addUserToGroup (groupName username : String)
  | removeUserFromGroup (groupName username : String)
  | attachGroupPolicy (groupName : String) (policy : Policy)
  | detachGroupPolicy (groupName policyName : String)
  | createPolicy (policy : Policy)
  | deletePolicy (policyName : String)
  | assumeRole (username : String) (durationSeconds : Option Nat) (draw : Fin 16 → Fin 36)
      (secret token : String)

/-- Forget what a successful call returns. -/
def forgetResult {α : Type} (outcome : Except IamError α × IamStore) :
    Except IamError Unit × IamStore :=
  (outcome.1.map fun _ => (), outcome.2)

/-- Perform a call. -/
def IamCall.perform (keys : IamKeys) (now : DateTime) (iam : IamStore) :
    IamCall → Except IamError Unit × IamStore
  | .createUser username => forgetResult (iam.createUser now username)
  | .deleteUser username => iam.deleteUser username
  | .updateUserStatus username status => iam.updateUserStatus username status
  | .setUserPassword username hash => iam.setUserPassword username hash
  | .createAccessKey username draw secret =>
    forgetResult (iam.createAccessKey keys now username draw secret)
  | .deleteAccessKey id => iam.deleteAccessKey id
  | .updateAccessKeyStatus id status => iam.updateAccessKeyStatus id status
  | .updateAccessKeyLastUsed id => (.ok (), iam.updateAccessKeyLastUsed now id)
  | .attachUserPolicy username policy => iam.attachUserPolicy now username policy
  | .detachUserPolicy username policyName => iam.detachUserPolicy username policyName
  | .createGroup name => iam.createGroup now name
  | .deleteGroup name => iam.deleteGroup name
  | .addUserToGroup groupName username => iam.addUserToGroup now groupName username
  | .removeUserFromGroup groupName username => (.ok (), iam.removeUserFromGroup groupName username)
  | .attachGroupPolicy groupName policy => iam.attachGroupPolicy groupName policy
  | .detachGroupPolicy groupName policyName => iam.detachGroupPolicy groupName policyName
  | .createPolicy policy => (.ok (), iam.createPolicy policy)
  | .deletePolicy policyName => iam.deletePolicy policyName
  | .assumeRole username duration draw secret token =>
    forgetResult (iam.assumeRole keys now username duration draw secret token)

/-- The calls of the store, one after the other. -/
def iamMachine (keys : IamKeys) (iam : IamStore) :
    Machine IamStore (DateTime × IamCall) (Except IamError Unit) where
  init := iam
  step iam call := call.2.perform keys call.1 iam

/-! ## What every call keeps -/

/-- **The tables are sound**: names of users, ids of keys and ids of temporary
credentials are unique, no user goes by a name of root, and no row refers to a
user who is not there. -/
structure IamStore.Sound (iam : IamStore) : Prop where
  usersKeyed : Keyed (·.username) iam.db.users
  usersNotRoot : ∀ u ∈ iam.db.users, iam.isRootName u.username = false
  usersUnflagged : ∀ u ∈ iam.db.users, u.isRoot = false
  keysKeyed : Keyed (·.accessKeyId) iam.db.accessKeys
  keysOwned : ∀ k ∈ iam.db.accessKeys, iam.HasUser k.username
  policiesOwned : ∀ row ∈ iam.db.userPolicies, iam.HasUser row.username
  membersOwned : ∀ m ∈ iam.db.groupMembers, iam.HasUser m.username
  credentialsKeyed : Keyed (·.accessKeyId) iam.db.temporaryCredentials
  credentialsOwned : ∀ tc ∈ iam.db.temporaryCredentials, iam.HasUser tc.assumedIdentity

/-- A store without users, keys and what refers to them. -/
structure IamStore.Fresh (iam : IamStore) : Prop where
  users : iam.db.users = []
  accessKeys : iam.db.accessKeys = []
  userPolicies : iam.db.userPolicies = []
  groupMembers : iam.db.groupMembers = []
  temporaryCredentials : iam.db.temporaryCredentials = []

namespace IamStore.Sound

variable {iam : IamStore} {now : DateTime} {username : String}

/-- A fresh store is sound. -/
theorem of_fresh (h : iam.Fresh) : iam.Sound := by
  constructor
  case usersKeyed => rw [h.users]; exact Keyed.nil
  case usersNotRoot => rw [h.users]; simp
  case usersUnflagged => rw [h.users]; simp
  case keysKeyed => rw [h.accessKeys]; exact Keyed.nil
  case keysOwned => rw [h.accessKeys]; simp
  case policiesOwned => rw [h.userPolicies]; simp
  case membersOwned => rw [h.groupMembers]; simp
  case credentialsKeyed => rw [h.temporaryCredentials]; exact Keyed.nil
  case credentialsOwned => rw [h.temporaryCredentials]; simp

/-- What `get_user` finds for a name that is not root's. -/
theorem hasUser_of_getUser {user : User} (hname : iam.isRootName username = false)
    (hget : iam.getUser now username = .ok user) : iam.HasUser username := by
  unfold IamStore.getUser at hget
  rw [hname] at hget
  cases hfind : iam.db.users.find? (·.username == username) with
  | none => simp [hfind] at hget
  | some found =>
      have hsame := List.find?_some hfind
      exact ⟨found, List.mem_of_find?_eq_some hfind, eq_of_beq hsame⟩

/-- Whoever has a row does not go by a name of root. -/
theorem isRootName_of_hasUser (h : iam.Sound) (huser : iam.HasUser username) :
    iam.isRootName username = false := by
  obtain ⟨u, hu, rfl⟩ := huser
  exact h.usersNotRoot u hu

/-- A statement that reports whether rows matched. -/
theorem reportRows {α : Type} {rows : List α} {hit : α → Bool} {missing : IamError}
    {after : IamStore} (h : iam.Sound) (hafter : after.Sound) :
    (IamStore.reportRows rows hit missing iam after).2.Sound := by
  unfold IamStore.reportRows
  by_cases hany : rows.any hit = true
  · rw [if_pos hany]
    exact hafter
  · rw [if_neg hany]
    exact h

theorem createUser (h : iam.Sound) : (iam.createUser now username).2.Sound := by
  unfold IamStore.createUser
  by_cases hroot : iam.isRootName username = true
  · rw [if_pos hroot]
    exact h
  · rw [if_neg hroot]
    by_cases hknown : iam.db.users.any (·.username == username) = true
    · rw [if_pos hknown]
      exact h
    · rw [if_neg hknown]
      have hnew : ∀ u ∈ iam.db.users, u.username ≠ username := by
        simpa using hknown
      have hkeep {name : String} (hname : iam.HasUser name) :
          ∃ u ∈ iam.db.users ++ [User.create username now], u.username = name := by
        obtain ⟨u, hu, hsame⟩ := hname
        exact ⟨u, List.mem_append_left _ hu, hsame⟩
      constructor
      case usersKeyed => exact Keyed.insertRow h.usersKeyed hnew
      case usersNotRoot =>
          intro u hu
          rcases List.mem_append.mp hu with hu | hu
          · exact h.usersNotRoot u hu
          · obtain rfl := List.mem_singleton.mp hu
            exact Bool.eq_false_iff.mpr hroot
      case usersUnflagged =>
          intro u hu
          rcases List.mem_append.mp hu with hu | hu
          · exact h.usersUnflagged u hu
          · obtain rfl := List.mem_singleton.mp hu
            rfl
      case keysKeyed => exact h.keysKeyed
      case keysOwned => exact fun k hk => hkeep (h.keysOwned k hk)
      case policiesOwned => exact fun row hrow => hkeep (h.policiesOwned row hrow)
      case membersOwned => exact fun m hm => hkeep (h.membersOwned m hm)
      case credentialsKeyed => exact h.credentialsKeyed
      case credentialsOwned => exact fun tc htc => hkeep (h.credentialsOwned tc htc)

/-- The rows that refer to other users stay with them. -/
theorem deleteUser (h : iam.Sound) : (iam.deleteUser username).2.Sound := by
  unfold IamStore.deleteUser
  by_cases hroot : iam.isRootName username = true
  · rw [if_pos hroot]
    exact h
  · rw [if_neg hroot]
    refine h.reportRows ?_
    have hkeep {name : String} (hname : iam.HasUser name) (hother : (name == username) = false) :
        ∃ u ∈ deleteRows (·.username == username) iam.db.users, u.username = name := by
      obtain ⟨u, hu, rfl⟩ := hname
      exact ⟨u, mem_deleteRows.mpr ⟨hu, hother⟩, rfl⟩
    constructor
    case usersKeyed => exact h.usersKeyed.deleteRows
    case usersNotRoot => exact fun u hu => h.usersNotRoot u (mem_deleteRows.mp hu).1
    case usersUnflagged => exact fun u hu => h.usersUnflagged u (mem_deleteRows.mp hu).1
    case keysKeyed => exact h.keysKeyed.deleteRows
    case keysOwned =>
        intro k hk
        obtain ⟨hk, hother⟩ := mem_deleteRows.mp hk
        exact hkeep (h.keysOwned k hk) hother
    case policiesOwned =>
        intro row hrow
        obtain ⟨hrow, hother⟩ := mem_deleteRows.mp hrow
        exact hkeep (h.policiesOwned row hrow) hother
    case membersOwned =>
        intro m hm
        obtain ⟨hm, hother⟩ := mem_deleteRows.mp hm
        exact hkeep (h.membersOwned m hm) hother
    case credentialsKeyed => exact h.credentialsKeyed.deleteRows
    case credentialsOwned =>
        intro tc htc
        obtain ⟨htc, hother⟩ := mem_deleteRows.mp htc
        exact hkeep (h.credentialsOwned tc htc) hother

/-- Assigning to users keeps the tables sound if it keeps names and flags. -/
theorem updateUsers {hit : User → Bool} {assign : User → User} (h : iam.Sound)
    (hname : ∀ u, (assign u).username = u.username)
    (hflag : ∀ u, (assign u).isRoot = u.isRoot) :
    IamStore.Sound
      { iam with db := { iam.db with users := updateRows hit assign iam.db.users } } := by
  have hrow {u : User} (hu : u ∈ updateRows hit assign iam.db.users) :
      ∃ old ∈ iam.db.users, u.username = old.username ∧ u.isRoot = old.isRoot := by
    obtain ⟨old, hold, rfl⟩ := mem_updateRows.mp hu
    refine ⟨old, hold, ?_⟩
    by_cases hhit : hit old = true
    · rw [if_pos hhit]
      exact ⟨hname old, hflag old⟩
    · rw [if_neg hhit]
      exact ⟨rfl, rfl⟩
  have hkeep {name : String} (hname' : iam.HasUser name) :
      ∃ u ∈ updateRows hit assign iam.db.users, u.username = name := by
    obtain ⟨u, hu, rfl⟩ := hname'
    refine ⟨_, mem_updateRows.mpr ⟨u, hu, rfl⟩, ?_⟩
    by_cases hhit : hit u = true
    · rw [if_pos hhit]
      exact hname u
    · rw [if_neg hhit]
  constructor
  case usersKeyed => exact h.usersKeyed.updateRows fun u _ => hname u
  case usersNotRoot =>
      intro u hu
      obtain ⟨old, hold, hsame, -⟩ := hrow hu
      rw [hsame]
      exact h.usersNotRoot old hold
  case usersUnflagged =>
      intro u hu
      obtain ⟨old, hold, -, hsame⟩ := hrow hu
      rw [hsame]
      exact h.usersUnflagged old hold
  case keysKeyed => exact h.keysKeyed
  case keysOwned => exact fun k hk => hkeep (h.keysOwned k hk)
  case policiesOwned => exact fun row hr => hkeep (h.policiesOwned row hr)
  case membersOwned => exact fun m hm => hkeep (h.membersOwned m hm)
  case credentialsKeyed => exact h.credentialsKeyed
  case credentialsOwned => exact fun tc htc => hkeep (h.credentialsOwned tc htc)

theorem updateUserStatus (h : iam.Sound) (status : ActiveStatus) :
    (iam.updateUserStatus username status).2.Sound := by
  unfold IamStore.updateUserStatus
  by_cases hroot : iam.isRootName username = true
  · rw [if_pos hroot]
    exact h
  · rw [if_neg hroot]
    exact h.reportRows (h.updateUsers (fun _ => rfl) fun _ => rfl)

theorem setUserPassword (h : iam.Sound) (hash : String) :
    (iam.setUserPassword username hash).2.Sound :=
  h.reportRows (h.updateUsers (fun _ => rfl) fun _ => rfl)

/-- Another table of access keys whose ids are unique and whose users are there. -/
theorem withKeys {rows : List AccessKeyRow} (h : iam.Sound)
    (hkeyed : Keyed (·.accessKeyId) rows) (howned : ∀ k ∈ rows, iam.HasUser k.username) :
    IamStore.Sound { iam with db := { iam.db with accessKeys := rows } } where
  usersKeyed := h.usersKeyed
  usersNotRoot := h.usersNotRoot
  usersUnflagged := h.usersUnflagged
  keysKeyed := hkeyed
  keysOwned := howned
  policiesOwned := h.policiesOwned
  membersOwned := h.membersOwned
  credentialsKeyed := h.credentialsKeyed
  credentialsOwned := h.credentialsOwned

theorem createAccessKey (h : iam.Sound) (keys : IamKeys) (draw : Fin 20 → Fin 36)
    (secret : String) : (iam.createAccessKey keys now username draw secret).2.Sound := by
  unfold IamStore.createAccessKey
  by_cases hroot : iam.isRootName username = true
  · rw [if_pos hroot]
    exact h
  · rw [if_neg hroot]
    cases hget : iam.getUser now username with
    | error e => exact h
    | ok user =>
        dsimp only
        by_cases hmax : 2 ≤ (iam.db.accessKeys.filter (·.username == username)).length
        · rw [if_pos hmax]
          exact h
        · rw [if_neg hmax]
          cases keys.encryptSecret secret with
          | error e => exact h
          | ok encrypted =>
              dsimp only
              by_cases htaken :
                  iam.db.accessKeys.any (·.accessKeyId == generateAccessKeyId draw) = true
              · rw [if_pos htaken]
                exact h
              · rw [if_neg htaken]
                have hnew : ∀ k ∈ iam.db.accessKeys,
                    k.accessKeyId ≠ generateAccessKeyId draw := by
                  simpa using htaken
                refine h.withKeys (h.keysKeyed.insertRow hnew) ?_
                intro k hk
                rcases mem_insertRow.mp hk with hk | rfl
                · exact h.keysOwned k hk
                · exact hasUser_of_getUser (Bool.eq_false_iff.mpr hroot) hget

/-- Assigning to access keys keeps the tables sound if it keeps ids and users. -/
theorem updateKeys {hit : AccessKeyRow → Bool} {assign : AccessKeyRow → AccessKeyRow}
    (h : iam.Sound) (hid : ∀ k, (assign k).accessKeyId = k.accessKeyId)
    (huser : ∀ k, (assign k).username = k.username) :
    IamStore.Sound
      { iam with db := { iam.db with
          accessKeys := updateRows hit assign iam.db.accessKeys } } := by
  refine h.withKeys (h.keysKeyed.updateRows fun k _ => hid k) ?_
  intro k hk
  obtain ⟨old, hold, rfl⟩ := mem_updateRows.mp hk
  by_cases hhit : hit old = true
  · rw [if_pos hhit, huser old]
    exact h.keysOwned old hold
  · rw [if_neg hhit]
    exact h.keysOwned old hold

theorem deleteAccessKey (h : iam.Sound) (id : String) : (iam.deleteAccessKey id).2.Sound := by
  unfold IamStore.deleteAccessKey
  by_cases hroot : id = iam.rootAccessKey
  · rw [if_pos hroot]
    exact h
  · rw [if_neg hroot]
    exact h.reportRows
      (h.withKeys h.keysKeyed.deleteRows fun k hk => h.keysOwned k (mem_deleteRows.mp hk).1)

theorem updateAccessKeyStatus (h : iam.Sound) (id : String) (status : ActiveStatus) :
    (iam.updateAccessKeyStatus id status).2.Sound := by
  unfold IamStore.updateAccessKeyStatus
  by_cases hroot : id = iam.rootAccessKey
  · rw [if_pos hroot]
    exact h
  · rw [if_neg hroot]
    exact h.reportRows (h.updateKeys (fun _ => rfl) fun _ => rfl)

theorem updateAccessKeyLastUsed (h : iam.Sound) (id : String) :
    (iam.updateAccessKeyLastUsed now id).Sound := by
  unfold IamStore.updateAccessKeyLastUsed
  by_cases hroot : id = iam.rootAccessKey
  · rw [if_pos hroot]
    exact h
  · rw [if_neg hroot]
    exact h.updateKeys (fun _ => rfl) fun _ => rfl

/-- Another table of attached policies whose users are there. -/
theorem withUserPolicies {rows : List UserPolicyRow} (h : iam.Sound)
    (howned : ∀ row ∈ rows, iam.HasUser row.username) :
    IamStore.Sound { iam with db := { iam.db with userPolicies := rows } } where
  usersKeyed := h.usersKeyed
  usersNotRoot := h.usersNotRoot
  usersUnflagged := h.usersUnflagged
  keysKeyed := h.keysKeyed
  keysOwned := h.keysOwned
  policiesOwned := howned
  membersOwned := h.membersOwned
  credentialsKeyed := h.credentialsKeyed
  credentialsOwned := h.credentialsOwned

theorem attachUserPolicy (h : iam.Sound) (policy : Policy) :
    (iam.attachUserPolicy now username policy).2.Sound := by
  unfold IamStore.attachUserPolicy
  by_cases hroot : iam.isRootName username = true
  · rw [if_pos hroot]
    exact h
  · rw [if_neg hroot]
    cases hget : iam.getUser now username with
    | error e => exact h
    | ok user =>
        refine h.withUserPolicies ?_
        intro row hrow
        rcases List.mem_append.mp hrow with hrow | hrow
        · exact h.policiesOwned row (List.mem_of_mem_filter hrow)
        · obtain rfl := List.mem_singleton.mp hrow
          exact hasUser_of_getUser (Bool.eq_false_iff.mpr hroot) hget

theorem detachUserPolicy (h : iam.Sound) (policyName : String) :
    (iam.detachUserPolicy username policyName).2.Sound :=
  h.reportRows (h.withUserPolicies fun row hrow => h.policiesOwned row (mem_deleteRows.mp hrow).1)

/-- Other tables of groups, with members who are there. -/
theorem withGroups {groups : List GroupRow} {members : List GroupMemberRow}
    {policies : List GroupPolicyRow} {managed : List ManagedPolicyRow} (h : iam.Sound)
    (howned : ∀ m ∈ members, iam.HasUser m.username) :
    IamStore.Sound
      { iam with db := { iam.db with
          groups := groups
          groupMembers := members
          groupPolicies := policies
          policies := managed } } where
  usersKeyed := h.usersKeyed
  usersNotRoot := h.usersNotRoot
  usersUnflagged := h.usersUnflagged
  keysKeyed := h.keysKeyed
  keysOwned := h.keysOwned
  policiesOwned := h.policiesOwned
  membersOwned := howned
  credentialsKeyed := h.credentialsKeyed
  credentialsOwned := h.credentialsOwned

theorem createGroup (h : iam.Sound) (name : String) : (iam.createGroup now name).2.Sound := by
  unfold IamStore.createGroup
  by_cases hknown : iam.db.groups.any (·.name == name) = true
  · rw [if_pos hknown]
    exact h
  · rw [if_neg hknown]
    exact h.withGroups h.membersOwned

theorem deleteGroup (h : iam.Sound) (name : String) : (iam.deleteGroup name).2.Sound :=
  h.reportRows (h.withGroups fun m hm => h.membersOwned m (mem_deleteRows.mp hm).1)

theorem addUserToGroup (h : iam.Sound) (groupName : String) :
    (iam.addUserToGroup now groupName username).2.Sound := by
  unfold IamStore.addUserToGroup
  by_cases hknown : (!iam.db.groups.any (·.name == groupName)) = true
  · rw [if_pos hknown]
    exact h
  · rw [if_neg hknown]
    cases iam.getUser now username with
    | error e => exact h
    | ok user =>
        dsimp only
        by_cases hmember : (iam.db.groupMembers.any fun m =>
            m.groupName == groupName && m.username == username) = true
        · rw [if_pos hmember]
          exact h
        · rw [if_neg hmember]
          by_cases huser : iam.HasUser username
          · rw [if_pos huser]
            refine h.withGroups ?_
            intro m hm
            rcases mem_insertRow.mp hm with hm | rfl
            · exact h.membersOwned m hm
            · exact huser
          · rw [if_neg huser]
            exact h

theorem removeUserFromGroup (h : iam.Sound) (groupName : String) :
    (iam.removeUserFromGroup groupName username).Sound :=
  h.withGroups fun m hm => h.membersOwned m (mem_deleteRows.mp hm).1

theorem attachGroupPolicy (h : iam.Sound) (groupName : String) (policy : Policy) :
    (iam.attachGroupPolicy groupName policy).2.Sound := by
  unfold IamStore.attachGroupPolicy
  by_cases hknown : (!iam.db.groups.any (·.name == groupName)) = true
  · rw [if_pos hknown]
    exact h
  · rw [if_neg hknown]
    exact h.withGroups h.membersOwned

theorem detachGroupPolicy (h : iam.Sound) (groupName policyName : String) :
    (iam.detachGroupPolicy groupName policyName).2.Sound :=
  h.reportRows (h.withGroups h.membersOwned)

/-- Another table of temporary credentials whose ids are unique and whose users are there. -/
theorem withCredentials {rows : List TemporaryCredentialRow} (h : iam.Sound)
    (hkeyed : Keyed (·.accessKeyId) rows) (howned : ∀ tc ∈ rows, iam.HasUser tc.assumedIdentity) :
    IamStore.Sound { iam with db := { iam.db with temporaryCredentials := rows } } where
  usersKeyed := h.usersKeyed
  usersNotRoot := h.usersNotRoot
  usersUnflagged := h.usersUnflagged
  keysKeyed := h.keysKeyed
  keysOwned := h.keysOwned
  policiesOwned := h.policiesOwned
  membersOwned := h.membersOwned
  credentialsKeyed := hkeyed
  credentialsOwned := howned

theorem assumeRole (h : iam.Sound) (keys : IamKeys) (duration : Option Nat)
    (draw : Fin 16 → Fin 36) (secret token : String) :
    (iam.assumeRole keys now username duration draw secret token).2.Sound := by
  unfold IamStore.assumeRole
  cases iam.getUser now username with
  | error e => exact h
  | ok user =>
      dsimp only
      by_cases hstatus : user.status ≠ .active
      · rw [if_pos hstatus]
        exact h
      · rw [if_neg hstatus]
        cases keys.encryptSecret secret with
        | error e => exact h
        | ok encrypted =>
            dsimp only
            split
            · exact h
            · rename_i hchecks
              simp only [Bool.or_eq_true, Bool.not_eq_true', decide_eq_false_iff_not, not_or,
                not_not, List.any_eq_true, beq_iff_eq, not_exists, not_and] at hchecks
              obtain ⟨⟨hnew, -⟩, huser⟩ := hchecks
              refine h.withCredentials (h.credentialsKeyed.insertRow hnew) ?_
              intro tc htc
              rcases mem_insertRow.mp htc with htc | rfl
              · exact h.credentialsOwned tc htc
              · exact huser

end IamStore.Sound

/-- **Every call keeps the tables sound.** -/
theorem sound_perform {keys : IamKeys} {now : DateTime} {iam : IamStore} (h : iam.Sound)
    (call : IamCall) : (call.perform keys now iam).2.Sound := by
  cases call with
  | createUser username => exact h.createUser
  | deleteUser username => exact h.deleteUser
  | updateUserStatus username status => exact h.updateUserStatus status
  | setUserPassword username hash => exact h.setUserPassword hash
  | createAccessKey username draw secret => exact h.createAccessKey keys draw secret
  | deleteAccessKey id => exact h.deleteAccessKey id
  | updateAccessKeyStatus id status => exact h.updateAccessKeyStatus id status
  | updateAccessKeyLastUsed id => exact h.updateAccessKeyLastUsed id
  | attachUserPolicy username policy => exact h.attachUserPolicy policy
  | detachUserPolicy username policyName => exact h.detachUserPolicy policyName
  | createGroup name => exact h.createGroup name
  | deleteGroup name => exact h.deleteGroup name
  | addUserToGroup groupName username => exact h.addUserToGroup groupName
  | removeUserFromGroup groupName username => exact h.removeUserFromGroup groupName
  | attachGroupPolicy groupName policy => exact h.attachGroupPolicy groupName policy
  | detachGroupPolicy groupName policyName => exact h.detachGroupPolicy groupName policyName
  | createPolicy policy => exact h.withGroups h.membersOwned
  | deletePolicy policyName => exact h.reportRows (h.withGroups h.membersOwned)
  | assumeRole username duration draw secret token =>
      exact h.assumeRole keys duration draw secret token

/-- So does every run of calls. -/
theorem sound_after {keys : IamKeys} {iam : IamStore} (h : iam.Sound)
    (calls : List (DateTime × IamCall)) :
    ((iamMachine keys iam).after iam calls).Sound := by
  have hstep (s : IamStore) (call : DateTime × IamCall) (hs : s.Sound) (_ : True) :
      ((iamMachine keys iam).next s call).Sound :=
    sound_perform hs call.2
  exact Machine.invariant_after hstep h
    ((iamMachine keys iam).allSteps_of_forall (fun _ _ => trivial) iam calls)

/-- No call changes the configured root credentials. -/
theorem root_perform (keys : IamKeys) (now : DateTime) (iam : IamStore) (call : IamCall) :
    (call.perform keys now iam).2.rootAccessKey = iam.rootAccessKey := by
  cases call
  all_goals
    simp only [IamCall.perform, forgetResult, IamStore.createUser, IamStore.deleteUser,
      IamStore.updateUserStatus, IamStore.setUserPassword, IamStore.createAccessKey,
      IamStore.deleteAccessKey, IamStore.updateAccessKeyStatus,
      IamStore.updateAccessKeyLastUsed, IamStore.attachUserPolicy, IamStore.detachUserPolicy,
      IamStore.createGroup, IamStore.deleteGroup, IamStore.addUserToGroup,
      IamStore.removeUserFromGroup, IamStore.attachGroupPolicy, IamStore.detachGroupPolicy,
      IamStore.createPolicy, IamStore.deletePolicy, IamStore.assumeRole, IamStore.reportRows]
    repeat' split
  all_goals rfl

end Strix

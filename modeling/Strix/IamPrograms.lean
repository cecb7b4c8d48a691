import Strix.IamCalls
import Strix.Interleaving

/-!
# Calls of the IAM store, statement by statement

A call of `IamProvider` awaits one statement after the other, and other calls may run
in between: `create_access_key`, `attach_user_policy`, `add_user_to_group`,
`attach_group_policy` and `assume_role` first look whether the user or the group is
there and insert a row later.  A row is inserted only if what it refers to is there at
that moment, and it goes with it.

* `run_prog`: alone, the programs do what the calls do;
* `IamStep.sound` and `IamStep.groupsOwned`: no statement leaves a row without owner,
  whatever ran before it.
-/

namespace Strix

open AtomicProgram RowTable

/-- A program over the IAM store. -/
abbrev IamProg (α : Type) := Prog IamStore IamError α

namespace IamStore

/-- There is a row of this group. -/
def HasGroup (iam : IamStore) (name : String) : Prop :=
  ∃ g ∈ iam.db.groups, g.name = name

instance (iam : IamStore) (name : String) : Decidable (iam.HasGroup name) :=
  inferInstanceAs (Decidable (∃ g ∈ iam.db.groups, g.name = name))

/-! ## Statements -/

/-- `get_group`. -/
def getGroup (iam : IamStore) (name : String) : Except IamError Group :=
  match iam.db.groups.find? (·.name == name) with
  | some g =>
    .ok
      { name := g.name
        arn := g.arn
        createdAt := g.createdAt
        members := (iam.db.groupMembers.filter (·.groupName == name)).map (·.username)
        policies := (iam.db.groupPolicies.filter (·.groupName == name)).map (·.policyName) }
  | none => .error (.groupNotFound "unknown")

/-- `get_access_key`. -/
def getAccessKey (iam : IamStore) (now : DateTime) (accessKeyId : String) :
    Except IamError AccessKey :=
  if accessKeyId = iam.rootAccessKey then
    .ok
      { accessKeyId := iam.rootAccessKey
        secretAccessKey := none
        username := "root"
        createdAt := now
        status := .active
        lastUsed := none }
  else
    match iam.db.accessKeys.find? (·.accessKeyId == accessKeyId) with
    | some k =>
      .ok
        { accessKeyId := k.accessKeyId
          secretAccessKey := none
          username := k.username
          createdAt := k.createdAt
          status := k.status
          lastUsed := k.lastUsed }
    | none => .error (.accessKeyNotFound "unknown")

/-- `INSERT INTO iam_access_keys`: the id is new, and the user is there. -/
def insertAccessKey (row : AccessKeyRow) (iam : IamStore) : Except IamError Unit × IamStore :=
  if iam.db.accessKeys.any (·.accessKeyId == row.accessKeyId) then (.error .database, iam)
  else if iam.HasUser row.username then
    (.ok (), { iam with db := { iam.db with accessKeys := insertRow row iam.db.accessKeys } })
  else (.error .database, iam)

/-- `INSERT OR REPLACE INTO iam_user_policies`, for a user who is there. -/
def insertUserPolicy (row : UserPolicyRow) (iam : IamStore) : Except IamError Unit × IamStore :=
  if iam.HasUser row.username then
    let kept := deleteRows
      (fun old => old.username == row.username && old.policyName == row.policyName)
      iam.db.userPolicies
    (.ok (), { iam with db := { iam.db with userPolicies := insertRow row kept } })
  else (.error .database, iam)

/-- `INSERT OR IGNORE INTO iam_group_members`, for a group and a user that are there. -/
def insertGroupMember (row : GroupMemberRow) (iam : IamStore) : Except IamError Unit × IamStore :=
  if iam.db.groupMembers.any fun m =>
      m.groupName == row.groupName && m.username == row.username then (.ok (), iam)
  else if iam.HasGroup row.groupName ∧ iam.HasUser row.username then
    (.ok (), { iam with db := { iam.db with groupMembers := insertRow row iam.db.groupMembers } })
  else (.error .database, iam)

/-- `INSERT OR REPLACE INTO iam_group_policies`, for a group that is there. -/
def insertGroupPolicy (row : GroupPolicyRow) (iam : IamStore) : Except IamError Unit × IamStore :=
  if iam.HasGroup row.groupName then
    let kept := deleteRows
      (fun old => old.groupName == row.groupName && old.policyName == row.policyName)
      iam.db.groupPolicies
    (.ok (), { iam with db := { iam.db with groupPolicies := insertRow row kept } })
  else (.error .database, iam)

/-- `INSERT INTO iam_temporary_credentials`: id and token are new, and the user is there. -/
def insertTemporaryCredential (row : TemporaryCredentialRow) (iam : IamStore) :
    Except IamError Unit × IamStore :=
  if iam.db.temporaryCredentials.any (·.accessKeyId == row.accessKeyId) ||
      iam.db.temporaryCredentials.any (·.sessionTokenHash == row.sessionTokenHash) then
    (.error .database, iam)
  else if iam.HasUser row.assumedIdentity then
    (.ok (), { iam with db := { iam.db with
      temporaryCredentials := insertRow row iam.db.temporaryCredentials } })
  else (.error .database, iam)

end IamStore

/-! ## Programs -/

namespace IamProg

open IamStore

/-- Await a statement. -/
def execute {α : Type} (statement : IamStore → Except IamError α × IamStore) : IamProg α :=
  Prog.perform statement >>= Prog.lift

/-- Await a query that may fail. -/
def query {α : Type} (read : IamStore → Except IamError α) : IamProg α :=
  Prog.observe read >>= Prog.lift

def createAccessKey (keys : IamKeys) (now : DateTime) (username : String)
    (draw : Fin 20 → Fin 36) (secret : String) : IamProg AccessKey := do
  Prog.ensure (!(← Prog.observe (·.isRootName username))) .cannotModifyRootKeys
  let _user ← query (·.getUser now username)
  let existing ← Prog.observe fun iam => iam.db.accessKeys.filter (·.username == username)
  Prog.ensure (existing.length < 2) .maxAccessKeysExceeded
  let encrypted ← Prog.lift (keys.encryptSecret secret)
  let id := generateAccessKeyId draw
  execute (insertAccessKey
    { accessKeyId := id
      secretAccessKeyEncrypted := encrypted
      username := username
      createdAt := now })
  pure
    { accessKeyId := id
      secretAccessKey := some secret
      username := username
      createdAt := now
      status := .active
      lastUsed := none }

/-- `attach_user_policy`; root needs no policies. -/
def attachUserPolicy (now : DateTime) (username : String) (policy : Policy) : IamProg Unit := do
  if ← Prog.observe (·.isRootName username) then pure ()
  else
    let _user ← query (·.getUser now username)
    execute (insertUserPolicy
      { username := username, policyName := policy.name, policyDocument := some policy })

def addUserToGroup (now : DateTime) (groupName username : String) : IamProg Unit := do
  let _group ← query (·.getGroup groupName)
  let _user ← query (·.getUser now username)
  execute (insertGroupMember { groupName := groupName, username := username })

def attachGroupPolicy (groupName : String) (policy : Policy) : IamProg Unit := do
  let _group ← query (·.getGroup groupName)
  execute (insertGroupPolicy
    { groupName := groupName, policyName := policy.name, policyDocument := some policy })

def assumeRole (keys : IamKeys) (now : DateTime) (username : String)
    (durationSeconds : Option Nat) (draw : Fin 16 → Fin 36) (secret token : String) :
    IamProg TemporaryCredential := do
  let user ← query (·.getUser now username)
  Prog.ensure (user.status == .active) .invalidCredentials
  let id := generateTempAccessKeyId draw
  let expiration := sessionExpiration now durationSeconds
  let encrypted ← Prog.lift (keys.encryptSecret secret)
  execute (insertTemporaryCredential
    { accessKeyId := id
      secretAccessKeyEncrypted := encrypted
      sessionTokenHash := keys.platform.sha256Hex token
      assumedIdentity := username
      expiration := keys.platform.toRfc3339 expiration })
  pure
    { accessKeyId := id
      secretAccessKey := some secret
      sessionToken := token
      expiration := expiration
      assumedIdentity := username }

/-- The loop of `is_authorized` over the groups. -/
def collectGroupPolicies : List Group → IamProg (List Policy)
  | [] => pure []
  | group :: groups => do
    let policies ← Prog.observe (·.listGroupPolicies group.name)
    let others ← collectGroupPolicies groups
    pure (policies ++ others)

def isAuthorized (username : String) (action : Action) (resource : Resource) : IamProg Bool := do
  if ← Prog.observe (·.isRootName username) then pure true
  else
    let userPolicies ← Prog.observe (·.listUserPolicies username)
    let groups ← Prog.observe (·.listUserGroups username)
    let groupPolicies ← collectGroupPolicies groups
    pure (authorizedBy action resource false (userPolicies ++ groupPolicies))

end IamProg

/-- The call awaits one statement. -/
def IamCall.isAlone : IamCall → Bool
  | .createAccessKey .. => false
  | .attachUserPolicy .. => false
  | .addUserToGroup .. => false
  | .attachGroupPolicy .. => false
  | .assumeRole .. => false
  | _ => true

/-- The program of a call. -/
def IamCall.prog (keys : IamKeys) (now : DateTime) : IamCall → IamProg Unit
  | .createAccessKey username draw secret => do
    let _key ← IamProg.createAccessKey keys now username draw secret
    pure ()
  | .attachUserPolicy username policy => IamProg.attachUserPolicy now username policy
  | .addUserToGroup groupName username => IamProg.addUserToGroup now groupName username
  | .attachGroupPolicy groupName policy => IamProg.attachGroupPolicy groupName policy
  | .assumeRole username durationSeconds draw secret token => do
    let _credential ← IamProg.assumeRole keys now username durationSeconds draw secret token
    pure ()
  | call => IamProg.execute (call.perform keys now)

/-! ## Programs that run alone -/

section Alone

variable {iam : IamStore} {now : DateTime} {username : String}

@[simp] theorem run_execute {α : Type} (statement : IamStore → Except IamError α × IamStore) :
    (IamProg.execute statement).run iam = statement iam := by
  simp [IamProg.execute]

@[simp] theorem run_execute_bind {α β : Type}
    (statement : IamStore → Except IamError α × IamStore) (f : α → IamProg β) :
    (IamProg.execute statement >>= f).run iam =
      match (statement iam).1 with
      | .ok a => (f a).run (statement iam).2
      | .error e => (.error e, (statement iam).2) := by
  rw [Prog.run_bind, run_execute]
  rcases statement iam with ⟨result, after⟩
  cases result with
  | ok a => rfl
  | error e => rfl

@[simp] theorem run_query_bind {α β : Type} (read : IamStore → Except IamError α)
    (f : α → IamProg β) :
    (IamProg.query read >>= f).run iam =
      match read iam with
      | .ok a => (f a).run iam
      | .error e => (.error e, iam) := by
  rw [IamProg.query, Prog.bind_assoc, Prog.run_observe_bind, Prog.run_lift_bind]
  cases read iam with
  | ok a => rfl
  | error e => rfl

/-- Who is found and is not root has a row. -/
theorem hasUser_of_getUser_ok {user : User} (hroot : ¬ iam.isRootName username = true)
    (h : iam.getUser now username = .ok user) : iam.HasUser username :=
  IamStore.Sound.hasUser_of_getUser (Bool.eq_false_iff.mpr hroot) h

theorem run_createAccessKey (keys : IamKeys) (draw : Fin 20 → Fin 36) (secret : String) :
    (IamProg.createAccessKey keys now username draw secret).run iam =
      iam.createAccessKey keys now username draw secret := by
  unfold IamProg.createAccessKey IamStore.createAccessKey
  rw [Prog.run_observe_bind, Prog.run_ensure_bind]
  by_cases hroot : iam.isRootName username = true
  · simp [hroot]
  · rw [if_neg hroot, if_pos (by simpa using hroot), run_query_bind]
    cases hget : iam.getUser now username with
    | error e => rfl
    | ok user =>
        have huser := hasUser_of_getUser_ok hroot hget
        simp only [Prog.run_observe_bind, Prog.run_ensure_bind, decide_eq_true_eq]
        by_cases hmax : 2 ≤ (iam.db.accessKeys.filter (·.username == username)).length
        · rw [if_pos hmax, if_neg (by omega)]
        · rw [if_neg hmax, if_pos (by omega), Prog.run_lift_bind]
          cases keys.encryptSecret secret with
          | error e => rfl
          | ok encrypted =>
              by_cases htaken :
                  iam.db.accessKeys.any (·.accessKeyId == generateAccessKeyId draw) = true
              · simp only [run_execute_bind, IamStore.insertAccessKey, htaken, if_true]
              · simp only [run_execute_bind, IamStore.insertAccessKey, htaken, huser, if_true]
                rfl

theorem run_attachUserPolicy (policy : Policy) :
    (IamProg.attachUserPolicy now username policy).run iam =
      iam.attachUserPolicy now username policy := by
  unfold IamProg.attachUserPolicy IamStore.attachUserPolicy
  rw [Prog.run_observe_bind]
  by_cases hroot : iam.isRootName username = true
  · rw [if_pos hroot, if_pos hroot, Prog.run_pure]
  · rw [if_neg hroot, if_neg hroot, run_query_bind]
    cases hget : iam.getUser now username with
    | error e => rfl
    | ok user =>
        have huser := hasUser_of_getUser_ok hroot hget
        simp [IamStore.insertUserPolicy, huser, insertRow, deleteRows]

/-- `get_group` finds a group that is there. -/
theorem getGroup_cases (iam : IamStore) (name : String) :
    (∃ group, iam.getGroup name = .ok group ∧ iam.HasGroup name ∧
        iam.db.groups.any (·.name == name) = true) ∨
      iam.getGroup name = .error (.groupNotFound "unknown") ∧
        iam.db.groups.any (·.name == name) = false := by
  unfold IamStore.getGroup
  cases hfind : iam.db.groups.find? (·.name == name) with
  | some g =>
      have hmem := List.mem_of_find?_eq_some hfind
      have hname := List.find?_some hfind
      refine .inl ⟨_, rfl, ⟨g, hmem, by simpa using hname⟩, ?_⟩
      exact List.any_eq_true.mpr ⟨g, hmem, hname⟩
  | none =>
      refine .inr ⟨rfl, ?_⟩
      simpa using hfind

theorem run_addUserToGroup (groupName : String) :
    (IamProg.addUserToGroup now groupName username).run iam =
      iam.addUserToGroup now groupName username := by
  unfold IamProg.addUserToGroup IamStore.addUserToGroup
  rw [run_query_bind]
  rcases getGroup_cases iam groupName with ⟨group, hget, hgroup, hany⟩ | ⟨hget, hany⟩
  · rw [hget, hany]
    simp only [run_query_bind, Bool.not_true, Bool.false_eq_true, if_false]
    cases iam.getUser now username with
    | error e => rfl
    | ok user => simp [IamStore.insertGroupMember, hgroup]
  · rw [hget, hany]
    rfl

theorem run_attachGroupPolicy (groupName : String) (policy : Policy) :
    (IamProg.attachGroupPolicy groupName policy).run iam =
      iam.attachGroupPolicy groupName policy := by
  unfold IamProg.attachGroupPolicy IamStore.attachGroupPolicy
  rw [run_query_bind]
  rcases getGroup_cases iam groupName with ⟨group, hget, hgroup, hany⟩ | ⟨hget, hany⟩
  · rw [hget, hany]
    simp [IamStore.insertGroupPolicy, hgroup]
  · rw [hget, hany]
    rfl

theorem run_assumeRole (keys : IamKeys) (durationSeconds : Option Nat)
    (draw : Fin 16 → Fin 36) (secret token : String) :
    (IamProg.assumeRole keys now username durationSeconds draw secret token).run iam =
      iam.assumeRole keys now username durationSeconds draw secret token := by
  unfold IamProg.assumeRole IamStore.assumeRole
  rw [run_query_bind]
  cases iam.getUser now username with
  | error e => rfl
  | ok user =>
      simp only [Prog.run_ensure_bind, beq_iff_eq]
      by_cases hactive : user.status = .active
      · rw [if_pos hactive, if_neg (by simpa using hactive), Prog.run_lift_bind]
        cases keys.encryptSecret secret with
        | error e => rfl
        | ok encrypted =>
            by_cases htaken : (iam.db.temporaryCredentials.any
                  (·.accessKeyId == generateTempAccessKeyId draw) ||
                iam.db.temporaryCredentials.any
                  (·.sessionTokenHash == keys.platform.sha256Hex token)) = true
            · simp only [run_execute_bind, IamStore.insertTemporaryCredential, htaken, if_true,
                Bool.true_or]
            · by_cases huser : iam.HasUser username
              · simp [run_execute_bind, IamStore.insertTemporaryCredential, htaken, huser]
              · simp [run_execute_bind, IamStore.insertTemporaryCredential, htaken, huser]
      · rw [if_neg hactive, if_pos hactive]

/-- **Alone, a program does what the call does.** -/
theorem run_prog (keys : IamKeys) (call : IamCall) :
    (call.prog keys now).run iam = call.perform keys now iam := by
  cases call with
  | createAccessKey username draw secret =>
      simp only [IamCall.prog, IamCall.perform, forgetResult, Prog.run_bind, run_createAccessKey]
      rcases iam.createAccessKey keys now username draw secret with ⟨result, after⟩
      cases result <;> rfl
  | attachUserPolicy username policy => exact run_attachUserPolicy policy
  | addUserToGroup groupName username => exact run_addUserToGroup groupName
  | attachGroupPolicy groupName policy => exact run_attachGroupPolicy groupName policy
  | assumeRole username durationSeconds draw secret token =>
      simp only [IamCall.prog, IamCall.perform, forgetResult, Prog.run_bind, run_assumeRole]
      rcases iam.assumeRole keys now username durationSeconds draw secret token with
        ⟨result, after⟩
      cases result <;> rfl
  | _ => exact run_execute _

theorem run_collectGroupPolicies (groups : List Group) :
    (IamProg.collectGroupPolicies groups).run iam =
      (.ok (groups.flatMap fun group => iam.listGroupPolicies group.name), iam) := by
  induction groups with
  | nil => rfl
  | cons group groups ih =>
      simp [IamProg.collectGroupPolicies, Prog.run_bind, ih]

/-- Alone, `is_authorized` decides by all policies. -/
theorem run_isAuthorized (action : Action) (resource : Resource) :
    (IamProg.isAuthorized username action resource).run iam =
      (.ok (iam.isAuthorized username action resource), iam) := by
  unfold IamProg.isAuthorized IamStore.isAuthorized
  rw [Prog.run_observe_bind]
  by_cases hroot : iam.isRootName username = true
  · rw [if_pos hroot, if_pos hroot, Prog.run_pure]
  · rw [if_neg hroot, if_neg hroot]
    simp [Prog.run_bind, run_collectGroupPolicies, IamStore.allPolicies]

end Alone

/-! ## What a statement can do -/

/-- Statements that add no row with an owner, nor move one to another owner. -/
structure Shrinks (iam after : IamStore) : Prop where
  root : after.rootAccessKey = iam.rootAccessKey
  accessKeys : ∀ k ∈ after.db.accessKeys, ∃ old ∈ iam.db.accessKeys, old.username = k.username
  userPolicies : ∀ row ∈ after.db.userPolicies, row ∈ iam.db.userPolicies
  groupMembers : ∀ m ∈ after.db.groupMembers, m ∈ iam.db.groupMembers
  groupPolicies : ∀ row ∈ after.db.groupPolicies, row ∈ iam.db.groupPolicies
  temporaryCredentials : ∀ tc ∈ after.db.temporaryCredentials, tc ∈ iam.db.temporaryCredentials

theorem Shrinks.refl (iam : IamStore) : Shrinks iam iam where
  root := rfl
  accessKeys k hk := ⟨k, hk, rfl⟩
  userPolicies _ h := h
  groupMembers _ h := h
  groupPolicies _ h := h
  temporaryCredentials _ h := h

/-- A statement that reports whether rows matched. -/
theorem Shrinks.reportRows {α : Type} {rows : List α} {hit : α → Bool} {missing : IamError}
    {iam after : IamStore} (h : Shrinks iam after) :
    Shrinks iam (IamStore.reportRows rows hit missing iam after).2 := by
  unfold IamStore.reportRows
  split
  · exact h
  · exact Shrinks.refl iam

/-- Assigning to access keys moves none to another owner if it keeps the owner. -/
theorem Shrinks.updateKeys {iam : IamStore} {hit : AccessKeyRow → Bool}
    {assign : AccessKeyRow → AccessKeyRow} (h : ∀ k, (assign k).username = k.username) :
    Shrinks iam { iam with db := { iam.db with
      accessKeys := updateRows hit assign iam.db.accessKeys } } where
  root := rfl
  accessKeys k hk := by
    obtain ⟨old, hold, rfl⟩ := mem_updateRows.mp hk
    refine ⟨old, hold, ?_⟩
    split
    · exact (h old).symm
    · rfl
  userPolicies _ h := h
  groupMembers _ h := h
  groupPolicies _ h := h
  temporaryCredentials _ h := h

/-- Fewer rows. -/
theorem Shrinks.of_subset {iam after : IamStore} (hroot : after.rootAccessKey = iam.rootAccessKey)
    (hkeys : after.db.accessKeys ⊆ iam.db.accessKeys)
    (huserPolicies : after.db.userPolicies ⊆ iam.db.userPolicies)
    (hmembers : after.db.groupMembers ⊆ iam.db.groupMembers)
    (hgroupPolicies : after.db.groupPolicies ⊆ iam.db.groupPolicies)
    (hcredentials : after.db.temporaryCredentials ⊆ iam.db.temporaryCredentials) :
    Shrinks iam after where
  root := hroot
  accessKeys k hk := ⟨k, hkeys hk, rfl⟩
  userPolicies _ h := huserPolicies h
  groupMembers _ h := hmembers h
  groupPolicies _ h := hgroupPolicies h
  temporaryCredentials _ h := hcredentials h

/-- **A call of one statement** adds no row with an owner. -/
theorem alone_shrinks (keys : IamKeys) (now : DateTime) (iam : IamStore) {call : IamCall}
    (halone : call.isAlone = true) : Shrinks iam (call.perform keys now iam).2 := by
  have hdelete {ρ : Type} (hit : ρ → Bool) (rows : List ρ) : deleteRows hit rows ⊆ rows :=
    fun _ hr => (mem_deleteRows.mp hr).1
  cases call with
  | createUser username =>
      simp only [IamCall.perform, forgetResult, IamStore.createUser]
      split
      · exact .refl iam
      · split
        · exact .refl iam
        · exact .of_subset rfl (.refl _) (.refl _) (.refl _) (.refl _) (.refl _)
  | deleteUser username =>
      simp only [IamCall.perform, IamStore.deleteUser]
      split
      · exact .refl iam
      · exact .reportRows (.of_subset rfl (hdelete _ _) (hdelete _ _) (hdelete _ _) (.refl _)
          (hdelete _ _))
  | updateUserStatus username status =>
      simp only [IamCall.perform, IamStore.updateUserStatus]
      split
      · exact .refl iam
      · exact .reportRows (.of_subset rfl (.refl _) (.refl _) (.refl _) (.refl _) (.refl _))
  | setUserPassword username hash =>
      exact .reportRows (.of_subset rfl (.refl _) (.refl _) (.refl _) (.refl _) (.refl _))
  | deleteAccessKey id =>
      simp only [IamCall.perform, IamStore.deleteAccessKey]
      split
      · exact .refl iam
      · exact .reportRows (.of_subset rfl (hdelete _ _) (.refl _) (.refl _) (.refl _) (.refl _))
  | updateAccessKeyStatus id status =>
      simp only [IamCall.perform, IamStore.updateAccessKeyStatus]
      split
      · exact .refl iam
      · exact .reportRows (.updateKeys fun _ => rfl)
  | updateAccessKeyLastUsed id =>
      simp only [IamCall.perform, IamStore.updateAccessKeyLastUsed]
      split
      · exact .refl iam
      · exact .updateKeys fun _ => rfl
  | detachUserPolicy username policyName =>
      exact .reportRows (.of_subset rfl (.refl _) (hdelete _ _) (.refl _) (.refl _) (.refl _))
  | createGroup name =>
      simp only [IamCall.perform, IamStore.createGroup]
      split
      · exact .refl iam
      · exact .of_subset rfl (.refl _) (.refl _) (.refl _) (.refl _) (.refl _)
  | deleteGroup name =>
      exact .reportRows (.of_subset rfl (.refl _) (.refl _) (hdelete _ _) (hdelete _ _) (.refl _))
  | removeUserFromGroup groupName username =>
      exact .of_subset rfl (.refl _) (.refl _) (hdelete _ _) (.refl _) (.refl _)
  | detachGroupPolicy groupName policyName =>
      exact .reportRows (.of_subset rfl (.refl _) (.refl _) (.refl _) (hdelete _ _) (.refl _))
  | createPolicy policy => exact .of_subset rfl (.refl _) (.refl _) (.refl _) (.refl _) (.refl _)
  | deletePolicy policyName =>
      exact .reportRows (.of_subset rfl (.refl _) (.refl _) (.refl _) (.refl _) (.refl _))
  | createAccessKey => cases halone
  | attachUserPolicy => cases halone
  | addUserToGroup => cases halone
  | attachGroupPolicy => cases halone
  | assumeRole => cases halone

/-- **The statements of the programs.** -/
inductive IamStep (keys : IamKeys) : ∀ ⦃β : Type⦄, (IamStore → β × IamStore) → Prop
  | reads {β : Type} (read : IamStore → β) : IamStep keys fun iam => (read iam, iam)
  | alone (now : DateTime) {call : IamCall} (h : call.isAlone = true) :
    IamStep keys (call.perform keys now)
  | accessKey (row : AccessKeyRow) : IamStep keys (IamStore.insertAccessKey row)
  | userPolicy (row : UserPolicyRow) : IamStep keys (IamStore.insertUserPolicy row)
  | groupMember (row : GroupMemberRow) : IamStep keys (IamStore.insertGroupMember row)
  | groupPolicy (row : GroupPolicyRow) : IamStep keys (IamStore.insertGroupPolicy row)
  | temporaryCredential (row : TemporaryCredentialRow) :
    IamStep keys (IamStore.insertTemporaryCredential row)

section Steps

variable {keys : IamKeys} {α : Type}

theorem only_execute {statement : IamStore → Except IamError α × IamStore}
    (h : IamStep keys statement) : (IamProg.execute statement).Only (IamStep keys) :=
  (Prog.only_perform h).bind fun result => Prog.only_lift result

theorem only_read (read : IamStore → α) :
    (Prog.observe read : IamProg α).Only (IamStep keys) :=
  Prog.only_perform (.reads read)

theorem only_query (read : IamStore → Except IamError α) :
    (IamProg.query read).Only (IamStep keys) :=
  (only_read read).bind fun result => Prog.only_lift result

theorem only_createAccessKey (now : DateTime) (username : String) (draw : Fin 20 → Fin 36)
    (secret : String) :
    (IamProg.createAccessKey keys now username draw secret).Only (IamStep keys) := by
  refine (only_read _).bind fun _ => (Prog.only_ensure _ _).bind fun _ => ?_
  refine (only_query _).bind fun _ => (only_read _).bind fun _ => ?_
  refine (Prog.only_ensure _ _).bind fun _ => (Prog.only_lift _).bind fun _ => ?_
  exact (only_execute (.accessKey _)).bind fun _ => Prog.only_pure _

theorem only_assumeRole (now : DateTime) (username : String) (durationSeconds : Option Nat)
    (draw : Fin 16 → Fin 36) (secret token : String) :
    (IamProg.assumeRole keys now username durationSeconds draw secret token).Only
      (IamStep keys) := by
  refine (only_query _).bind fun _ => (Prog.only_ensure _ _).bind fun _ => ?_
  refine (Prog.only_lift _).bind fun _ => ?_
  exact (only_execute (.temporaryCredential _)).bind fun _ => Prog.only_pure _

/-- **Every call awaits these statements.** -/
theorem only_prog (now : DateTime) (call : IamCall) : (call.prog keys now).Only (IamStep keys) := by
  cases call with
  | createAccessKey username draw secret =>
      exact (only_createAccessKey now username draw secret).bind fun _ => Prog.only_pure _
  | attachUserPolicy username policy =>
      refine (only_read _).bind fun root => ?_
      cases root with
      | true => exact Prog.only_pure _
      | false => exact (only_query _).bind fun _ => only_execute (.userPolicy _)
  | addUserToGroup groupName username =>
      refine (only_query _).bind fun _ => (only_query _).bind fun _ => ?_
      exact only_execute (.groupMember _)
  | attachGroupPolicy groupName policy =>
      exact (only_query _).bind fun _ => only_execute (.groupPolicy _)
  | assumeRole username durationSeconds draw secret token =>
      refine (only_assumeRole now username durationSeconds draw secret token).bind fun _ => ?_
      exact Prog.only_pure _
  | _ => exact only_execute (.alone now rfl)

theorem only_collectGroupPolicies (groups : List Group) :
    (IamProg.collectGroupPolicies groups).Only (IamStep keys) := by
  induction groups with
  | nil => exact Prog.only_pure _
  | cons group groups ih =>
      exact (only_read _).bind fun _ => ih.bind fun _ => Prog.only_pure _

theorem only_isAuthorized (username : String) (action : Action) (resource : Resource) :
    (IamProg.isAuthorized username action resource).Only (IamStep keys) := by
  refine (only_read _).bind fun root => ?_
  cases root with
  | true => exact Prog.only_pure _
  | false =>
      refine (only_read _).bind fun _ => (only_read _).bind fun groups => ?_
      exact (only_collectGroupPolicies groups).bind fun _ => Prog.only_pure _

end Steps

/-! ## No row is without an owner -/

/-- Members and policies belong to groups that are there. -/
structure IamStore.GroupsOwned (iam : IamStore) : Prop where
  members : ∀ m ∈ iam.db.groupMembers, iam.HasGroup m.groupName
  policies : ∀ row ∈ iam.db.groupPolicies, iam.HasGroup row.groupName

section Owners

variable {keys : IamKeys} {now : DateTime} {iam : IamStore}

/-- A user who is there after a call of one statement was there before, or was created. -/
theorem alone_users {call : IamCall} {name : String} (halone : call.isAlone = true)
    (h : (call.perform keys now iam).2.HasUser name) :
    iam.HasUser name ∨ call = .createUser name := by
  have hreport {α : Type} {rows : List α} {hit : α → Bool} {missing : IamError}
      {after : IamStore} (h : (IamStore.reportRows rows hit missing iam after).2.HasUser name)
      (hafter : after.HasUser name → iam.HasUser name) : iam.HasUser name := by
    unfold IamStore.reportRows at h
    split at h
    · exact hafter h
    · exact h
  have hupdate {hit : User → Bool} {assign : User → User}
      (hname : ∀ u, (assign u).username = u.username)
      (h : ∃ u ∈ updateRows hit assign iam.db.users, u.username = name) : iam.HasUser name := by
    obtain ⟨u, hu, rfl⟩ := h
    obtain ⟨old, hold, rfl⟩ := mem_updateRows.mp hu
    refine ⟨old, hold, ?_⟩
    split
    · exact (hname old).symm
    · rfl
  cases call with
  | createUser username =>
      simp only [IamCall.perform, forgetResult, IamStore.createUser] at h
      split at h
      · exact .inl h
      · split at h
        · exact .inl h
        · obtain ⟨u, hu, rfl⟩ := h
          rcases List.mem_append.mp hu with hu | hu
          · exact .inl ⟨u, hu, rfl⟩
          · obtain rfl := List.mem_singleton.mp hu
            exact .inr rfl
  | deleteUser username =>
      simp only [IamCall.perform, IamStore.deleteUser] at h
      split at h
      · exact .inl h
      · refine .inl (hreport h fun hafter => ?_)
        obtain ⟨u, hu, rfl⟩ := hafter
        exact ⟨u, (mem_deleteRows.mp hu).1, rfl⟩
  | updateUserStatus username status =>
      simp only [IamCall.perform, IamStore.updateUserStatus] at h
      split at h
      · exact .inl h
      · exact .inl (hreport h (hupdate fun _ => rfl))
  | setUserPassword username hash =>
      simp only [IamCall.perform, IamStore.setUserPassword] at h
      exact .inl (hreport h (hupdate fun _ => rfl))
  | deleteAccessKey id =>
      simp only [IamCall.perform, IamStore.deleteAccessKey] at h
      split at h
      · exact .inl h
      · exact .inl (hreport h fun hafter => hafter)
  | updateAccessKeyStatus id status =>
      simp only [IamCall.perform, IamStore.updateAccessKeyStatus] at h
      split at h
      · exact .inl h
      · exact .inl (hreport h fun hafter => hafter)
  | updateAccessKeyLastUsed id =>
      simp only [IamCall.perform, IamStore.updateAccessKeyLastUsed] at h
      split at h
      · exact .inl h
      · exact .inl h
  | detachUserPolicy username policyName =>
      simp only [IamCall.perform, IamStore.detachUserPolicy] at h
      exact .inl (hreport h fun hafter => hafter)
  | createGroup name =>
      simp only [IamCall.perform, IamStore.createGroup] at h
      split at h
      · exact .inl h
      · exact .inl h
  | deleteGroup name =>
      simp only [IamCall.perform, IamStore.deleteGroup] at h
      exact .inl (hreport h fun hafter => hafter)
  | removeUserFromGroup groupName username => exact .inl h
  | detachGroupPolicy groupName policyName =>
      simp only [IamCall.perform, IamStore.detachGroupPolicy] at h
      exact .inl (hreport h fun hafter => hafter)
  | createPolicy policy => exact .inl h
  | deletePolicy policyName =>
      simp only [IamCall.perform, IamStore.deletePolicy] at h
      exact .inl (hreport h fun hafter => hafter)
  | createAccessKey => cases halone
  | attachUserPolicy => cases halone
  | addUserToGroup => cases halone
  | attachGroupPolicy => cases halone
  | assumeRole => cases halone

/-- **What an insert of an access key can do.** -/
theorem insertAccessKey_cases (row : AccessKeyRow) (iam : IamStore) :
    (IamStore.insertAccessKey row iam).2 = iam ∨
      (∀ k ∈ iam.db.accessKeys, k.accessKeyId ≠ row.accessKeyId) ∧ iam.HasUser row.username ∧
        (IamStore.insertAccessKey row iam).2 =
          { iam with db := { iam.db with accessKeys := insertRow row iam.db.accessKeys } } := by
  unfold IamStore.insertAccessKey
  by_cases htaken : iam.db.accessKeys.any (·.accessKeyId == row.accessKeyId) = true
  · exact .inl (by rw [if_pos htaken])
  · rw [if_neg htaken]
    by_cases huser : iam.HasUser row.username
    · exact .inr ⟨by simpa using htaken, huser, by rw [if_pos huser]⟩
    · exact .inl (by rw [if_neg huser])

/-- **What an insert of a user's policy can do.** -/
theorem insertUserPolicy_cases (row : UserPolicyRow) (iam : IamStore) :
    (IamStore.insertUserPolicy row iam).2 = iam ∨
      iam.HasUser row.username ∧ ∃ kept, kept ⊆ iam.db.userPolicies ∧
        (IamStore.insertUserPolicy row iam).2 =
          { iam with db := { iam.db with userPolicies := insertRow row kept } } := by
  unfold IamStore.insertUserPolicy
  by_cases huser : iam.HasUser row.username
  · rw [if_pos huser]
    exact .inr ⟨huser, _, fun _ hr => (mem_deleteRows.mp hr).1, rfl⟩
  · exact .inl (by rw [if_neg huser])

/-- **What an insert of a member can do.** -/
theorem insertGroupMember_cases (row : GroupMemberRow) (iam : IamStore) :
    (IamStore.insertGroupMember row iam).2 = iam ∨
      iam.HasGroup row.groupName ∧ iam.HasUser row.username ∧
        (IamStore.insertGroupMember row iam).2 =
          { iam with db := { iam.db with
            groupMembers := insertRow row iam.db.groupMembers } } := by
  unfold IamStore.insertGroupMember
  split
  · exact .inl rfl
  · split
    · rename_i howners
      exact .inr ⟨howners.1, howners.2, rfl⟩
    · exact .inl rfl

/-- **What an insert of a group's policy can do.** -/
theorem insertGroupPolicy_cases (row : GroupPolicyRow) (iam : IamStore) :
    (IamStore.insertGroupPolicy row iam).2 = iam ∨
      iam.HasGroup row.groupName ∧ ∃ kept, kept ⊆ iam.db.groupPolicies ∧
        (IamStore.insertGroupPolicy row iam).2 =
          { iam with db := { iam.db with groupPolicies := insertRow row kept } } := by
  unfold IamStore.insertGroupPolicy
  by_cases hgroup : iam.HasGroup row.groupName
  · rw [if_pos hgroup]
    exact .inr ⟨hgroup, _, fun _ hr => (mem_deleteRows.mp hr).1, rfl⟩
  · exact .inl (by rw [if_neg hgroup])

/-- **What an insert of temporary credentials can do.** -/
theorem insertTemporaryCredential_cases (row : TemporaryCredentialRow) (iam : IamStore) :
    (IamStore.insertTemporaryCredential row iam).2 = iam ∨
      (∀ tc ∈ iam.db.temporaryCredentials, tc.accessKeyId ≠ row.accessKeyId) ∧
        iam.HasUser row.assumedIdentity ∧
        (IamStore.insertTemporaryCredential row iam).2 =
          { iam with db := { iam.db with
            temporaryCredentials := insertRow row iam.db.temporaryCredentials } } := by
  unfold IamStore.insertTemporaryCredential
  split
  · exact .inl rfl
  · rename_i htaken
    simp only [Bool.or_eq_true, not_or, List.any_eq_true, beq_iff_eq, not_exists,
      not_and] at htaken
    split
    · rename_i huser
      exact .inr ⟨htaken.1, huser, rfl⟩
    · exact .inl rfl

/-- **Every statement keeps the tables sound.** -/
theorem IamStep.sound {β : Type} {act : IamStore → β × IamStore} (hstep : IamStep keys act)
    (h : iam.Sound) : (act iam).2.Sound := by
  cases hstep with
  | reads read => exact h
  | alone now halone => exact sound_perform h _
  | accessKey row =>
      rcases insertAccessKey_cases row iam with hsame | ⟨hnew, huser, hinsert⟩
      · rw [hsame]
        exact h
      · rw [hinsert]
        refine h.withKeys (h.keysKeyed.insertRow hnew) fun k hk => ?_
        rcases mem_insertRow.mp hk with hk | rfl
        · exact h.keysOwned k hk
        · exact huser
  | userPolicy row =>
      rcases insertUserPolicy_cases row iam with hsame | ⟨huser, kept, hkept, hinsert⟩
      · rw [hsame]
        exact h
      · rw [hinsert]
        refine h.withUserPolicies fun old hold => ?_
        rcases mem_insertRow.mp hold with hold | rfl
        · exact h.policiesOwned old (hkept hold)
        · exact huser
  | groupMember row =>
      rcases insertGroupMember_cases row iam with hsame | ⟨-, huser, hinsert⟩
      · rw [hsame]
        exact h
      · rw [hinsert]
        refine h.withGroups fun m hm => ?_
        rcases mem_insertRow.mp hm with hm | rfl
        · exact h.membersOwned m hm
        · exact huser
  | groupPolicy row =>
      rcases insertGroupPolicy_cases row iam with hsame | ⟨-, kept, -, hinsert⟩
      · rw [hsame]
        exact h
      · rw [hinsert]
        exact h.withGroups h.membersOwned
  | temporaryCredential row =>
      rcases insertTemporaryCredential_cases row iam with hsame | ⟨hnew, huser, hinsert⟩
      · rw [hsame]
        exact h
      · rw [hinsert]
        exact h.withCredentials (h.credentialsKeyed.insertRow hnew) fun tc htc => by
          rcases mem_insertRow.mp htc with htc | rfl
          · exact h.credentialsOwned tc htc
          · exact huser

/-- Groups come and go by `create_group` and `delete_group`. -/
theorem groups_perform (keys : IamKeys) (now : DateTime) (iam : IamStore) {call : IamCall}
    (hcreate : ∀ name, call ≠ .createGroup name) (hdelete : ∀ name, call ≠ .deleteGroup name) :
    (call.perform keys now iam).2.db.groups = iam.db.groups := by
  cases call with
  | createGroup name => exact absurd rfl (hcreate name)
  | deleteGroup name => exact absurd rfl (hdelete name)
  | _ =>
      simp only [IamCall.perform, forgetResult, IamStore.createUser, IamStore.deleteUser,
        IamStore.updateUserStatus, IamStore.setUserPassword, IamStore.createAccessKey,
        IamStore.deleteAccessKey, IamStore.updateAccessKeyStatus,
        IamStore.updateAccessKeyLastUsed, IamStore.attachUserPolicy, IamStore.detachUserPolicy,
        IamStore.addUserToGroup, IamStore.removeUserFromGroup, IamStore.attachGroupPolicy,
        IamStore.detachGroupPolicy, IamStore.createPolicy, IamStore.deletePolicy,
        IamStore.assumeRole, IamStore.reportRows, IamStore.deleteUserRows]
      repeat' split
      all_goals rfl

/-- A statement that adds no members and policies, and removes no group. -/
theorem IamStore.GroupsOwned.shrink {after : IamStore} (h : iam.GroupsOwned)
    (hshrinks : Shrinks iam after) (hgroups : ∀ name, iam.HasGroup name → after.HasGroup name) :
    after.GroupsOwned where
  members m hm := hgroups _ (h.members m (hshrinks.groupMembers m hm))
  policies row hrow := hgroups _ (h.policies row (hshrinks.groupPolicies row hrow))

/-- What refers to other groups stays with them. -/
theorem IamStore.GroupsOwned.deleteGroup (h : iam.GroupsOwned) (name : String) :
    (iam.deleteGroup name).2.GroupsOwned := by
  have hkeep {other : String} (hgroup : iam.HasGroup other) (hother : (other == name) = false) :
      ∃ g ∈ deleteRows (·.name == name) iam.db.groups, g.name = other := by
    obtain ⟨g, hg, rfl⟩ := hgroup
    exact ⟨g, mem_deleteRows.mpr ⟨hg, hother⟩, rfl⟩
  unfold IamStore.deleteGroup IamStore.reportRows
  split
  · constructor
    case members =>
        intro m hm
        obtain ⟨hm, hother⟩ := mem_deleteRows.mp hm
        exact hkeep (h.members m hm) hother
    case policies =>
        intro row hrow
        obtain ⟨hrow, hother⟩ := mem_deleteRows.mp hrow
        exact hkeep (h.policies row hrow) hother
  · exact h

/-- A call of one statement leaves no member and no policy without group. -/
theorem IamStore.GroupsOwned.alone (h : iam.GroupsOwned) (keys : IamKeys) (now : DateTime)
    {call : IamCall} (halone : call.isAlone = true) :
    (call.perform keys now iam).2.GroupsOwned := by
  by_cases hdelete : ∃ name, call = .deleteGroup name
  · obtain ⟨name, rfl⟩ := hdelete
    exact h.deleteGroup name
  · refine h.shrink (alone_shrinks keys now iam halone) fun name hgroup => ?_
    by_cases hcreate : ∃ other, call = .createGroup other
    · obtain ⟨other, rfl⟩ := hcreate
      simp only [IamCall.perform, IamStore.createGroup]
      split
      · exact hgroup
      · obtain ⟨g, hg, rfl⟩ := hgroup
        exact ⟨g, mem_insertRow.mpr (.inl hg), rfl⟩
    · have hgroups := groups_perform keys now iam
        (fun other heq => hcreate ⟨other, heq⟩) fun other heq => hdelete ⟨other, heq⟩
      obtain ⟨g, hg, rfl⟩ := hgroup
      exact ⟨g, hgroups ▸ hg, rfl⟩

/-- **No statement leaves a member or a policy without group.** -/
theorem IamStep.groupsOwned {β : Type} {act : IamStore → β × IamStore}
    (hstep : IamStep keys act) (h : iam.GroupsOwned) : (act iam).2.GroupsOwned := by
  cases hstep with
  | reads read => exact h
  | alone now halone => exact h.alone keys now halone
  | accessKey row =>
      rcases insertAccessKey_cases row iam with hsame | ⟨-, -, hinsert⟩
      · rw [hsame]
        exact h
      · rw [hinsert]
        exact ⟨h.members, h.policies⟩
  | userPolicy row =>
      rcases insertUserPolicy_cases row iam with hsame | ⟨-, kept, -, hinsert⟩
      · rw [hsame]
        exact h
      · rw [hinsert]
        exact ⟨h.members, h.policies⟩
  | groupMember row =>
      rcases insertGroupMember_cases row iam with hsame | ⟨hgroup, -, hinsert⟩
      · rw [hsame]
        exact h
      · rw [hinsert]
        refine ⟨fun m hm => ?_, h.policies⟩
        rcases mem_insertRow.mp hm with hm | rfl
        · exact h.members m hm
        · exact hgroup
  | groupPolicy row =>
      rcases insertGroupPolicy_cases row iam with hsame | ⟨hgroup, kept, hkept, hinsert⟩
      · rw [hsame]
        exact h
      · rw [hinsert]
        refine ⟨h.members, fun old hold => ?_⟩
        rcases mem_insertRow.mp hold with hold | rfl
        · exact h.policies old (hkept hold)
        · exact hgroup
  | temporaryCredential row =>
      rcases insertTemporaryCredential_cases row iam with hsame | ⟨-, -, hinsert⟩
      · rw [hsame]
        exact h
      · rw [hinsert]
        exact ⟨h.members, h.policies⟩

end Owners

end Strix

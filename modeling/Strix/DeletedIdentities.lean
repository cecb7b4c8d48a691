import Strix.AnonymousRequests
import Strix.IamPrograms
import Strix.ThreadSteps

/-!
# What a deleted identity leaves behind

Requests to the IAM store run side by side, statement by statement.  After `delete_user`
no row refers to the user, and a row that does is only there again once some statement
has inserted it; a group goes with its members and its policies in the same way.

* `usersOwned_after` and `groupsOwned_after`: in no schedule is there a row without its
  owner;
* `deletedIdentity_leavesNothing`: no key resolves to a deleted user, and a user or a
  group of the same name has no rights and no members, until they are given.
-/

namespace Strix

open AtomicProgram MachineRuns RowTable

/-! ## Requests side by side -/

/-- A request to the IAM store: a call that may change it, or `is_authorized`. -/
inductive IamRequest
  | change (now : DateTime) (call : IamCall)
  | isAuthorized (username : String) (action : Action) (resource : Resource)

/-- The program of a request, with what `is_authorized` answers. -/
def IamRequest.prog (keys : IamKeys) : IamRequest → IamProg (Option Bool)
  | .change now call => do
    call.prog keys now
    pure none
  | .isAuthorized username action resource => do
    let allowed ← IamProg.isAuthorized username action resource
    pure (some allowed)

/-- Requests that share the store. -/
abbrev IamPool := Pool IamStore IamError (Option Bool)

/-- The requests before they have begun. -/
def iamPool (keys : IamKeys) (iam : IamStore) (requests : List IamRequest) : IamPool where
  state := iam
  threads := requests.map (·.prog keys)

/-- Nothing happens to the store but by requests. -/
def noEvents : Empty → IamStore → IamStore := fun event => event.elim

/-- The schedules of the requests. -/
def iamSchedules (start : IamPool) : Machine IamPool (Turn Empty) Unit := pool noEvents start

/-- The next statement of a request. -/
def IamPool.Awaits (c : IamPool) (i : Nat)
    (statement : IamStore → Except IamError Unit × IamStore) : Prop :=
  c.Before i (Prog.perform statement : IamProg (Except IamError Unit))

/-! ## What is given -/

/-- The turn attaches a policy to the user, or adds the user to a group. -/
def GivesRights (username : String) (c : IamPool) : Turn Empty → Prop
  | .thread i =>
    (∃ row : UserPolicyRow, row.username = username ∧ c.Awaits i (IamStore.insertUserPolicy row)) ∨
      ∃ row : GroupMemberRow, row.username = username ∧ c.Awaits i (IamStore.insertGroupMember row)
  | .world event => event.elim

/-- The turn makes an access key or temporary credentials for the user. -/
def MakesKey (username : String) (c : IamPool) : Turn Empty → Prop
  | .thread i =>
    (∃ row : AccessKeyRow, row.username = username ∧ c.Awaits i (IamStore.insertAccessKey row)) ∨
      ∃ row : TemporaryCredentialRow, row.assumedIdentity = username ∧
        c.Awaits i (IamStore.insertTemporaryCredential row)
  | .world event => event.elim

/-- The turn creates the user. -/
def CreatesUser (keys : IamKeys) (username : String) (c : IamPool) : Turn Empty → Prop
  | .thread i => ∃ now, c.Awaits i ((IamCall.createUser username).perform keys now)
  | .world event => event.elim

/-- The turn adds a member to the group, or attaches a policy to it. -/
def FillsGroup (name : String) (c : IamPool) : Turn Empty → Prop
  | .thread i =>
    (∃ row : GroupMemberRow, row.groupName = name ∧ c.Awaits i (IamStore.insertGroupMember row)) ∨
      ∃ row : GroupPolicyRow, row.groupName = name ∧ c.Awaits i (IamStore.insertGroupPolicy row)
  | .world event => event.elim

/-! ## What is left -/

/-- Some access key or temporary credentials resolve to the user. -/
def Resolves (platform : IamPlatform) (iam : IamStore) (username : String) : Prop :=
  ∃ now id,
    (∃ key user, iam.getCredentials platform now id = .ok (some (key, user)) ∧
      (key.username = username ∨ user.username = username)) ∨
    (∃ credential user, iam.getTempCredentials platform now id = .ok (some (credential, user)) ∧
      (credential.assumedIdentity = username ∨ user.username = username)) ∨
    ∃ key, iam.getAccessKey now id = .ok key ∧ key.username = username

/-- Nothing is attached to the user, who is not root. -/
structure Unentitled (username : String) (iam : IamStore) : Prop where
  notRoot : iam.isRootName username = false
  userPolicies : ∀ row ∈ iam.db.userPolicies, row.username ≠ username
  groupMembers : ∀ m ∈ iam.db.groupMembers, m.username ≠ username

/-- The user has no keys, and is not root. -/
structure Keyless (username : String) (iam : IamStore) : Prop where
  notRoot : username ≠ "root"
  accessKeys : ∀ k ∈ iam.db.accessKeys, k.username ≠ username
  temporaryCredentials : ∀ tc ∈ iam.db.temporaryCredentials, tc.assumedIdentity ≠ username

/-- The group has no members and no policies. -/
structure Emptied (name : String) (iam : IamStore) : Prop where
  members : ∀ m ∈ iam.db.groupMembers, m.groupName ≠ name
  policies : ∀ row ∈ iam.db.groupPolicies, row.groupName ≠ name

section Left

variable {username name : String} {iam : IamStore}

theorem Unentitled.listUserPolicies (h : Unentitled username iam) :
    iam.listUserPolicies username = [] := by
  unfold IamStore.listUserPolicies
  rw [if_neg (by simp [h.notRoot]), IamStore.attachedPolicies, List.filter_eq_nil_iff.mpr]
  · rfl
  · intro row hrow
    simpa using h.userPolicies row hrow

theorem Unentitled.listUserGroups (h : Unentitled username iam) :
    iam.listUserGroups username = [] := by
  have hnone (g : GroupRow) : (iam.db.groupMembers.filter fun m =>
      g.name == m.groupName && m.username == username) = [] := by
    rw [List.filter_eq_nil_iff]
    intro m hm
    simp [h.groupMembers m hm]
  have hjoined : (iam.db.groups.flatMap fun g => (iam.db.groupMembers.filter fun m =>
      g.name == m.groupName && m.username == username).map fun _ => g) = [] := by
    rw [List.flatMap_eq_nil_iff]
    intro g hg
    rw [hnone g, List.map_nil]
  rw [IamStore.listUserGroups, hjoined]
  rfl

/-- **Nothing is allowed to a user to whom nothing is attached.** -/
theorem Unentitled.not_authorized (h : Unentitled username iam) (action : Action)
    (resource : Resource) : iam.isAuthorized username action resource = false := by
  unfold IamStore.isAuthorized IamStore.allPolicies
  rw [if_neg (by simp [h.notRoot]), h.listUserPolicies, h.listUserGroups]
  rfl

/-- **Nothing resolves to a user without keys.** -/
theorem Keyless.not_resolves (h : Keyless username iam) (platform : IamPlatform) :
    ¬ Resolves platform iam username := by
  intro hresolves
  obtain ⟨now, id, hkey | hcredential | haccess⟩ := hresolves
  · obtain ⟨key, user, hget, hname⟩ := hkey
    unfold IamStore.getCredentials at hget
    split at hget
    · cases hget
      simp only [User.root, User.rootWithUsername, or_self] at hname
      exact h.notRoot hname.symm
    · simp only at hget
      split at hget
      · cases hget
      · rename_i hfind
        have hmem := List.mem_of_find?_eq_some hfind
        simp only [List.mem_flatMap, List.mem_map, List.mem_filter, beq_iff_eq,
          Prod.mk.injEq] at hmem
        obtain ⟨k, hk, u, ⟨-, hsame⟩, rfl, rfl⟩ := hmem
        cases hdecrypt : platform.decryptSecret k.secretAccessKeyEncrypted with
        | error e => rw [hdecrypt] at hget; cases hget
        | ok secret =>
            rw [hdecrypt] at hget
            cases hget
            rcases hname with hname | hname
            · exact h.accessKeys k hk hname
            · exact h.accessKeys k hk (hsame.trans hname)
  · obtain ⟨credential, user, hget, hname⟩ := hcredential
    unfold IamStore.getTempCredentials at hget
    simp only at hget
    split at hget
    · cases hget
    · rename_i hfind
      have hmem := List.mem_of_find?_eq_some hfind
      simp only [List.mem_flatMap, List.mem_map, List.mem_filter, beq_iff_eq,
        Prod.mk.injEq] at hmem
      obtain ⟨tc, htc, u, ⟨-, hsame⟩, rfl, rfl⟩ := hmem
      split at hget
      · cases hget
      · cases hget
        rcases hname with hname | hname
        · exact h.temporaryCredentials tc htc hname
        · exact h.temporaryCredentials tc htc (hsame.trans hname)
  · obtain ⟨key, hget, hname⟩ := haccess
    unfold IamStore.getAccessKey at hget
    split at hget
    · cases hget
      exact h.notRoot hname.symm
    · split at hget
      · rename_i k hfind
        cases hget
        exact h.accessKeys k (List.mem_of_find?_eq_some hfind) hname
      · cases hget

/-- **An emptied group** is shown without members and policies. -/
theorem Emptied.getGroup (h : Emptied name iam) {group : Group}
    (hget : iam.getGroup name = .ok group) : group.members = [] ∧ group.policies = [] := by
  unfold IamStore.getGroup at hget
  split at hget
  · cases hget
    simpa [List.filter_eq_nil_iff] using ⟨h.members, h.policies⟩
  · cases hget

end Left

/-! ## What a statement leaves as it is -/

/-- **The rows after the next statement of a request**: those that were there, and the
row that the statement inserts. -/
structure RowsAfter (keys : IamKeys) (c : IamPool) (i : Nat) (after : IamStore) : Prop where
  root : after.rootAccessKey = c.state.rootAccessKey
  users : ∀ name, after.HasUser name → c.state.HasUser name ∨
    ∃ now, c.Awaits i ((IamCall.createUser name).perform keys now)
  accessKeys : ∀ k ∈ after.db.accessKeys,
    (∃ old ∈ c.state.db.accessKeys, old.username = k.username) ∨
      c.Awaits i (IamStore.insertAccessKey k)
  userPolicies : ∀ row ∈ after.db.userPolicies,
    row ∈ c.state.db.userPolicies ∨ c.Awaits i (IamStore.insertUserPolicy row)
  groupMembers : ∀ m ∈ after.db.groupMembers,
    m ∈ c.state.db.groupMembers ∨ c.Awaits i (IamStore.insertGroupMember m)
  groupPolicies : ∀ row ∈ after.db.groupPolicies,
    row ∈ c.state.db.groupPolicies ∨ c.Awaits i (IamStore.insertGroupPolicy row)
  temporaryCredentials : ∀ tc ∈ after.db.temporaryCredentials,
    tc ∈ c.state.db.temporaryCredentials ∨ c.Awaits i (IamStore.insertTemporaryCredential tc)

section Steps

variable {keys : IamKeys} {username name : String} {c : IamPool} {i : Nat} {β : Type}
  {act : IamStore → β × IamStore} {next : β → IamProg (Option Bool)}

theorem RowsAfter.refl (keys : IamKeys) (c : IamPool) (i : Nat) : RowsAfter keys c i c.state where
  root := rfl
  users _ h := .inl h
  accessKeys k hk := .inl ⟨k, hk, rfl⟩
  userPolicies _ h := .inl h
  groupMembers _ h := .inl h
  groupPolicies _ h := .inl h
  temporaryCredentials _ h := .inl h

/-- **What the next statement of a request can do.** -/
theorem rowsAfter_step (hp : c.threads[i]? = some (.step act next)) (hstep : IamStep keys act) :
    RowsAfter keys c i (act c.state).2 := by
  have hrefl := RowsAfter.refl keys c i
  cases hstep with
  | reads read => exact hrefl
  | alone now halone =>
      have hshrinks := alone_shrinks keys now c.state halone
      constructor
      case root => exact hshrinks.root
      case users =>
          intro name huser
          rcases alone_users halone huser with huser | rfl
          · exact .inl huser
          · exact .inr ⟨now, next, hp⟩
      case accessKeys => exact fun k hk => .inl (hshrinks.accessKeys k hk)
      case userPolicies => exact fun row hrow => .inl (hshrinks.userPolicies row hrow)
      case groupMembers => exact fun m hm => .inl (hshrinks.groupMembers m hm)
      case groupPolicies => exact fun row hrow => .inl (hshrinks.groupPolicies row hrow)
      case temporaryCredentials => exact fun tc htc => .inl (hshrinks.temporaryCredentials tc htc)
  | accessKey row =>
      rcases insertAccessKey_cases row c.state with hsame | ⟨-, -, hinsert⟩
      · exact hsame.symm ▸ hrefl
      · rw [hinsert]
        refine { hrefl with root := rfl, accessKeys := fun k hk => ?_ }
        rcases mem_insertRow.mp hk with hk | rfl
        · exact .inl ⟨k, hk, rfl⟩
        · exact .inr ⟨next, hp⟩
  | userPolicy row =>
      rcases insertUserPolicy_cases row c.state with hsame | ⟨-, kept, hkept, hinsert⟩
      · exact hsame.symm ▸ hrefl
      · rw [hinsert]
        refine { hrefl with root := rfl, userPolicies := fun old hold => ?_ }
        rcases mem_insertRow.mp hold with hold | rfl
        · exact .inl (hkept hold)
        · exact .inr ⟨next, hp⟩
  | groupMember row =>
      rcases insertGroupMember_cases row c.state with hsame | ⟨-, -, hinsert⟩
      · exact hsame.symm ▸ hrefl
      · rw [hinsert]
        refine { hrefl with root := rfl, groupMembers := fun m hm => ?_ }
        rcases mem_insertRow.mp hm with hm | rfl
        · exact .inl hm
        · exact .inr ⟨next, hp⟩
  | groupPolicy row =>
      rcases insertGroupPolicy_cases row c.state with hsame | ⟨-, kept, hkept, hinsert⟩
      · exact hsame.symm ▸ hrefl
      · rw [hinsert]
        refine { hrefl with root := rfl, groupPolicies := fun old hold => ?_ }
        rcases mem_insertRow.mp hold with hold | rfl
        · exact .inl (hkept hold)
        · exact .inr ⟨next, hp⟩
  | temporaryCredential row =>
      rcases insertTemporaryCredential_cases row c.state with hsame | ⟨-, -, hinsert⟩
      · exact hsame.symm ▸ hrefl
      · rw [hinsert]
        refine { hrefl with root := rfl, temporaryCredentials := fun tc htc => ?_ }
        rcases mem_insertRow.mp htc with htc | rfl
        · exact .inl htc
        · exact .inr ⟨next, hp⟩

/-- Nothing is attached to the user, unless the statement attaches it. -/
theorem Unentitled.step {after : IamStore} (hrows : RowsAfter keys c i after)
    (hguard : ¬ GivesRights username c (.thread i)) (h : Unentitled username c.state) :
    Unentitled username after := by
  constructor
  case notRoot =>
      rw [IamStore.isRootName, hrows.root]
      exact h.notRoot
  case userPolicies =>
      intro row hrow hname
      rcases hrows.userPolicies row hrow with hold | hinserts
      · exact h.userPolicies row hold hname
      · exact hguard (.inl ⟨row, hname, hinserts⟩)
  case groupMembers =>
      intro m hm hname
      rcases hrows.groupMembers m hm with hold | hinserts
      · exact h.groupMembers m hold hname
      · exact hguard (.inr ⟨m, hname, hinserts⟩)

/-- The user has no keys, unless the statement makes one. -/
theorem Keyless.step {after : IamStore} (hrows : RowsAfter keys c i after)
    (hguard : ¬ MakesKey username c (.thread i)) (h : Keyless username c.state) :
    Keyless username after := by
  constructor
  case notRoot => exact h.notRoot
  case accessKeys =>
      intro k hk hname
      rcases hrows.accessKeys k hk with ⟨old, hold, hsame⟩ | hinserts
      · exact h.accessKeys old hold (hsame.trans hname)
      · exact hguard (.inl ⟨k, hname, hinserts⟩)
  case temporaryCredentials =>
      intro tc htc hname
      rcases hrows.temporaryCredentials tc htc with hold | hinserts
      · exact h.temporaryCredentials tc hold hname
      · exact hguard (.inr ⟨tc, hname, hinserts⟩)

/-- The group stays empty, unless the statement puts something into it. -/
theorem Emptied.step {after : IamStore} (hrows : RowsAfter keys c i after)
    (hguard : ¬ FillsGroup name c (.thread i)) (h : Emptied name c.state) :
    Emptied name after := by
  constructor
  case members =>
      intro m hm hname
      rcases hrows.groupMembers m hm with hold | hinserts
      · exact h.members m hold hname
      · exact hguard (.inl ⟨m, hname, hinserts⟩)
  case policies =>
      intro row hrow hname
      rcases hrows.groupPolicies row hrow with hold | hinserts
      · exact h.policies row hold hname
      · exact hguard (.inr ⟨row, hname, hinserts⟩)

/-- There is no such user, unless the statement creates it. -/
theorem noUser_step {after : IamStore} (hrows : RowsAfter keys c i after)
    (hguard : ¬ CreatesUser keys username c (.thread i)) (h : ¬ c.state.HasUser username) :
    ¬ after.HasUser username := by
  intro huser
  rcases hrows.users username huser with hold | hcreates
  · exact h hold
  · exact hguard hcreates

end Steps

/-! ## Schedules -/

section Schedules

variable {keys : IamKeys} {username name : String} {start c : IamPool}
  {schedule : List (Turn Empty)}

/-- Requests await nothing but the statements of the store. -/
def OnlyStatements (keys : IamKeys) (c : IamPool) : Prop :=
  ∀ p ∈ c.threads, p.Only (IamStep keys)

theorem onlyStatements_iamPool (keys : IamKeys) (iam : IamStore) (requests : List IamRequest) :
    OnlyStatements keys (iamPool keys iam requests) := by
  intro p hp
  obtain ⟨request, -, rfl⟩ := List.mem_map.mp hp
  cases request with
  | change now call => exact (only_prog now call).bind fun _ => Prog.only_pure _
  | isAuthorized username action resource =>
      exact (only_isAuthorized username action resource).bind fun _ => Prog.only_pure _

/-- What every statement keeps, a schedule keeps. -/
theorem iamKept_after {N : IamStore → Prop} {G : IamPool → Turn Empty → Prop}
    (hstep : ∀ (c : IamPool) (i : Nat) ⦃β : Type⦄ (act : IamStore → β × IamStore),
      IamStep keys act → RowsAfter keys c i (act c.state).2 → G c (.thread i) → N c.state →
      N (act c.state).2)
    (hthreads : OnlyStatements keys c) (hN : N c.state)
    (hall : (iamSchedules start).AllSteps G c schedule) :
    OnlyStatements keys ((iamSchedules start).after c schedule) ∧
      N ((iamSchedules start).after c schedule).state :=
  only_after (fun _ event _ => event.elim)
    (fun c i _ act _ hp hK hguard hN => hstep c i act hK (rowsAfter_step hp hK) hguard hN)
    hthreads hN hall

/-- **In no schedule is there a row without its user.** -/
theorem usersOwned_after (keys : IamKeys) {iam : IamStore} (hsound : iam.Sound)
    (requests : List IamRequest) (schedule : List (Turn Empty)) :
    let start := iamPool keys iam requests
    OnlyStatements keys ((iamSchedules start).after start schedule) ∧
      ((iamSchedules start).after start schedule).state.Sound := by
  intro start
  exact iamKept_after (G := fun _ _ => True) (fun _ _ _ _ hstep _ _ hkept => hstep.sound hkept)
    (onlyStatements_iamPool keys iam requests) hsound
    ((iamSchedules start).allSteps_of_forall (fun _ _ => trivial) _ _)

/-- **Nor without its group.** -/
theorem groupsOwned_after (keys : IamKeys) {iam : IamStore} (howned : iam.GroupsOwned)
    (requests : List IamRequest) (schedule : List (Turn Empty)) :
    let start := iamPool keys iam requests
    ((iamSchedules start).after start schedule).state.GroupsOwned := by
  intro start
  exact (iamKept_after (G := fun _ _ => True)
    (fun _ _ _ _ hstep _ _ hkept => hstep.groupsOwned hkept)
    (onlyStatements_iamPool keys iam requests) howned
    ((iamSchedules start).allSteps_of_forall (fun _ _ => trivial) _ _)).2

/-- Nothing is attached to the user as long as nothing is given. -/
theorem unentitled_after (hthreads : OnlyStatements keys c) (h : Unentitled username c.state)
    (hall : (iamSchedules start).AllSteps (fun c turn => ¬ GivesRights username c turn)
      c schedule) : Unentitled username ((iamSchedules start).after c schedule).state :=
  (iamKept_after (fun _ _ _ _ _ hrows hguard h => h.step hrows hguard) hthreads h hall).2

/-- The user has no keys as long as none is made. -/
theorem keyless_after (hthreads : OnlyStatements keys c) (h : Keyless username c.state)
    (hall : (iamSchedules start).AllSteps (fun c turn => ¬ MakesKey username c turn)
      c schedule) : Keyless username ((iamSchedules start).after c schedule).state :=
  (iamKept_after (fun _ _ _ _ _ hrows hguard h => h.step hrows hguard) hthreads h hall).2

/-- The group is empty as long as nothing is put into it. -/
theorem emptied_after (hthreads : OnlyStatements keys c) (h : Emptied name c.state)
    (hall : (iamSchedules start).AllSteps (fun c turn => ¬ FillsGroup name c turn)
      c schedule) : Emptied name ((iamSchedules start).after c schedule).state :=
  (iamKept_after (fun _ _ _ _ _ hrows hguard h => h.step hrows hguard) hthreads h hall).2

/-- Whoever is not there has no keys. -/
theorem Keyless.of_noUser {iam : IamStore} (hsound : iam.Sound) (hroot : username ≠ "root")
    (hnone : ¬ iam.HasUser username) : Keyless username iam where
  notRoot := hroot
  accessKeys k hk hname := hnone (hname ▸ hsound.keysOwned k hk)
  temporaryCredentials tc htc hname := hnone (hname ▸ hsound.credentialsOwned tc htc)

/-- The user has no keys as long as there is no such user. -/
theorem keyless_after_uncreated (hthreads : OnlyStatements keys c) (hsound : c.state.Sound)
    (hroot : username ≠ "root") (hnone : ¬ c.state.HasUser username)
    (hall : (iamSchedules start).AllSteps (fun c turn => ¬ CreatesUser keys username c turn)
      c schedule) : Keyless username ((iamSchedules start).after c schedule).state := by
  have hkept := (iamKept_after (N := fun iam => iam.Sound ∧ ¬ iam.HasUser username)
    (fun _ _ _ _ hstep hrows hguard h => ⟨hstep.sound h.1, noUser_step hrows hguard h.2⟩)
    hthreads ⟨hsound, hnone⟩ hall).2
  exact .of_noUser hkept.1 hroot hkept.2

/-- **`is_authorized` answers no** if nothing is attached to the user in any state that it
reads. -/
theorem isAuthorized_ends {action : Action} {resource : Resource} {states : List IamStore}
    {answer : Option Bool}
    (h : ((IamRequest.isAuthorized username action resource).prog keys).Ends states answer)
    (hstates : ∀ s ∈ states, Unentitled username s) : answer = some false := by
  obtain ⟨reads, rest, allowed, rfl, hreads, hrest⟩ := h.bind
  obtain rfl : some allowed = answer := Prog.ends_done.mp hrest
  have hread {s : IamStore} (hs : s ∈ reads) := hstates s (List.mem_append_left _ hs)
  unfold IamProg.isAuthorized at hreads
  obtain ⟨s, later, rfl, hlater⟩ := hreads.observe_bind
  rw [(hread List.mem_cons_self).notRoot, if_neg (by decide)] at hlater
  obtain ⟨s', later', rfl, hpolicies⟩ := hlater.observe_bind
  have hattached := (hread (by simp) : Unentitled username s').listUserPolicies
  obtain ⟨s'', later'', rfl, hgroups⟩ := hpolicies.observe_bind
  have hmember := (hread (by simp) : Unentitled username s'').listUserGroups
  rw [hattached, hmember] at hgroups
  exact congrArg some (Prog.ends_done.mp hgroups).symm

/-- So a request for it that has not begun answers no as long as nothing is given. -/
theorem isAuthorized_answers {action : Action} {resource : Resource} {j : Nat}
    {answer : Option Bool} (hthreads : OnlyStatements keys c)
    (h : Unentitled username c.state)
    (hall : (iamSchedules start).AllSteps (fun c turn => ¬ GivesRights username c turn)
      c schedule)
    (hp : c.threads[j]? = some ((IamRequest.isAuthorized username action resource).prog keys))
    (hreturned : ((iamSchedules start).after c schedule).Returned j answer) :
    answer = some false := by
  refine isAuthorized_ends (hreturned.ends hp) fun s hs => ?_
  obtain ⟨earlier, rest, rfl, rfl⟩ : ∃ earlier rest, schedule = earlier ++ .thread j :: rest ∧
      ((iamSchedules start).after c earlier).state = s := mem_turnsOf hs
  exact unentitled_after hthreads h ((iamSchedules start).allSteps_append.mp hall).1

end Schedules

/-! ## Deletions -/

section Deletions

variable {keys : IamKeys} {c : IamPool} {i : Nat} {now : DateTime} {username name : String}

/-- The turn in which a call of one statement returns. -/
theorem returned_alone {call : IamCall} (halone : call.isAlone = true)
    (hp : c.threads[i]? = some ((IamRequest.change now call).prog keys))
    (hok : (c.turn noEvents (.thread i)).Returned i none) :
    (call.perform keys now c.state).1 = .ok () ∧
      (c.turn noEvents (.thread i)).state = (call.perform keys now c.state).2 := by
  have hprog : (IamRequest.change now call).prog keys =
      Prog.step (call.perform keys now) fun result =>
        (Prog.lift result : IamProg Unit) >>= fun _ => pure none := by
    cases call <;> first | rfl | cases halone
  rw [hprog] at hp
  have hturn : c.turn noEvents (.thread i) = _ := turn_step hp
  rw [hturn] at hok ⊢
  obtain ⟨hlt, -⟩ := List.getElem?_eq_some_iff.mp hp
  rw [Pool.Returned, List.getElem?_set_self hlt] at hok
  refine ⟨?_, rfl⟩
  cases hresult : (call.perform keys now c.state).1 with
  | ok value => rfl
  | error e =>
      rw [hresult] at hok
      cases hok

/-- A statement that reports whether rows matched, and did. -/
theorem reportRows_ok {α : Type} {rows : List α} {hit : α → Bool} {missing : IamError}
    {iam after : IamStore} (h : (IamStore.reportRows rows hit missing iam after).1 = .ok ()) :
    (IamStore.reportRows rows hit missing iam after).2 = after := by
  unfold IamStore.reportRows at h ⊢
  split at h
  · rename_i hany
    rw [if_pos hany]
  · cases h

/-- **After `delete_user`** there is no such user, and no row that refers to it. -/
theorem deleteUser_leaves {iam : IamStore} (hok : (iam.deleteUser username).1 = .ok ()) :
    username ≠ "root" ∧ ¬ (iam.deleteUser username).2.HasUser username ∧
      Unentitled username (iam.deleteUser username).2 ∧
      Keyless username (iam.deleteUser username).2 := by
  by_cases hroot : iam.isRootName username = true
  · rw [IamStore.deleteUser, if_pos hroot] at hok
    cases hok
  · have hname : iam.isRootName username = false := Bool.eq_false_iff.mpr hroot
    have hnot : username ≠ "root" := by
      rintro rfl
      exact hroot (by simp [IamStore.isRootName])
    rw [IamStore.deleteUser, if_neg hroot] at hok ⊢
    rw [reportRows_ok hok]
    refine ⟨hnot, ?_, ⟨hname, ?_, ?_⟩, ⟨hnot, ?_, ?_⟩⟩
    · intro huser
      obtain ⟨u, hu, hsame⟩ := huser
      simpa [hsame] using (mem_deleteRows.mp hu).2
    · intro row hrow
      simpa using (mem_deleteRows.mp hrow).2
    · intro m hm
      simpa using (mem_deleteRows.mp hm).2
    · intro k hk
      simpa using (mem_deleteRows.mp hk).2
    · intro tc htc
      simpa using (mem_deleteRows.mp htc).2

/-- **After `delete_group`** no row refers to the group. -/
theorem deleteGroup_leaves {iam : IamStore} (hok : (iam.deleteGroup name).1 = .ok ()) :
    Emptied name (iam.deleteGroup name).2 := by
  rw [IamStore.deleteGroup] at hok ⊢
  rw [reportRows_ok hok]
  constructor
  case members =>
      intro m hm
      simpa using (mem_deleteRows.mp hm).2
  case policies =>
      intro row hrow
      simpa using (mem_deleteRows.mp hrow).2

end Deletions

/-- **A deleted identity leaves nothing behind**, in any schedule of any requests.  After
`delete_user` has returned, no key resolves to the user as long as the user is not created
again, nor afterwards until a key is made; and `is_authorized` says no until a policy is
attached or a membership added.  A group is without members and policies after
`delete_group` until some are added. -/
theorem deletedIdentity_leavesNothing (keys : IamKeys) {iam : IamStore} (hfresh : iam.Fresh)
    (requests : List IamRequest) (earlier : List (Turn Empty)) (i : Nat) (now : DateTime) :
    let start := iamPool keys iam requests
    let before := (iamSchedules start).after start earlier
    let deleted := before.turn noEvents (.thread i)
    deleted.Returned i none →
    ∀ later : List (Turn Empty),
      let last := (iamSchedules start).after deleted later
      (∀ username,
        before.threads[i]? = some ((IamRequest.change now (.deleteUser username)).prog keys) →
        ((iamSchedules start).AllSteps (fun c turn => ¬ CreatesUser keys username c turn)
            deleted later ∨
          (iamSchedules start).AllSteps (fun c turn => ¬ MakesKey username c turn)
            deleted later →
          ¬ Resolves keys.platform last.state username) ∧
        ((iamSchedules start).AllSteps (fun c turn => ¬ GivesRights username c turn)
            deleted later →
          ∀ action resource, last.state.isAuthorized username action resource = false ∧
            ∀ j answer, deleted.threads[j]? =
                some ((IamRequest.isAuthorized username action resource).prog keys) →
              last.Returned j answer → answer = some false)) ∧
      ∀ name,
        before.threads[i]? = some ((IamRequest.change now (.deleteGroup name)).prog keys) →
        (iamSchedules start).AllSteps (fun c turn => ¬ FillsGroup name c turn) deleted later →
        ∀ group, last.state.getGroup name = .ok group →
          group.members = [] ∧ group.policies = [] := by
  intro start before deleted hreturned later last
  obtain ⟨hthreads, hsound⟩ : OnlyStatements keys deleted ∧ deleted.state.Sound := by
    have hreached : OnlyStatements keys ((iamSchedules start).after start
          (earlier ++ [.thread i])) ∧
        ((iamSchedules start).after start (earlier ++ [.thread i])).state.Sound :=
      usersOwned_after keys (.of_fresh hfresh) requests (earlier ++ [.thread i])
    rwa [Machine.after_append] at hreached
  constructor
  · intro username hp
    obtain ⟨hok, hstate⟩ := returned_alone rfl hp hreturned
    obtain ⟨hroot, hnone, hunentitled, hkeyless⟩ := deleteUser_leaves hok
    have hdeleted : deleted.state = (before.state.deleteUser username).2 := hstate
    rw [← hdeleted] at hnone hunentitled hkeyless
    constructor
    · intro hguard
      rcases hguard with huncreated | hunmade
      · exact (keyless_after_uncreated hthreads hsound hroot hnone huncreated).not_resolves _
      · exact (keyless_after hthreads hkeyless hunmade).not_resolves _
    · intro hungiven action resource
      refine ⟨(unentitled_after hthreads hunentitled hungiven).not_authorized action resource, ?_⟩
      intro j answer hasks hanswered
      exact isAuthorized_answers hthreads hunentitled hungiven hasks hanswered
  · intro name hp hunfilled group hget
    obtain ⟨hok, hstate⟩ := returned_alone rfl hp hreturned
    have hemptied := deleteGroup_leaves hok
    have hdeleted : deleted.state = (before.state.deleteGroup name).2 := hstate
    rw [← hdeleted] at hemptied
    exact (emptied_after hthreads hemptied hunfilled).getGroup hget

/-- A user who is created, gets a policy, is deleted and is created again. -/
def aliceRequests : List IamRequest :=
  [.change 0 (.createUser "alice"), .change 0 (.attachUserPolicy "alice" allowEverything),
    .change 0 (.deleteUser "alice"), .change 0 (.createUser "alice")]

/-- The new user is not allowed what the old one was. -/
theorem alice_leavesNothing :
    let start := iamPool plainKeys emptyIam aliceRequests
    let before := (iamSchedules start).after start [.thread 0, .thread 1, .thread 1, .thread 1]
    let last := (iamSchedules start).after before [.thread 2, .thread 3]
    before.state.isAuthorized "alice" .getObject (.object "docs" "a") = true ∧
      last.state.HasUser "alice" ∧
      ∀ action resource, last.state.isAuthorized "alice" action resource = false := by
  intro start before last
  refine ⟨by decide +kernel, by decide +kernel, fun action resource => ?_⟩
  have hfresh : emptyIam.Fresh := by constructor <;> rfl
  have hleaves := (deletedIdentity_leavesNothing plainKeys hfresh aliceRequests
    [.thread 0, .thread 1, .thread 1, .thread 1] 2 0 rfl [.thread 3]).1 "alice" rfl
  refine (hleaves.2 ⟨?_, trivial⟩ action resource).1
  -- the statement that creates the user is not one that attaches something
  have hcreates : IamPool.Awaits (before.turn noEvents (.thread 2)) 3
      ((IamCall.createUser "alice").perform plainKeys 0) := ⟨_, rfl⟩
  intro hgives
  rcases hgives with ⟨row, -, hattaches⟩ | ⟨row, -, hadds⟩
  · have hsame := congrArg Prod.fst (congrFun (hcreates.act_eq hattaches) emptyIam)
    simp [IamStore.insertUserPolicy, IamStore.HasUser, emptyIam, IamCall.perform, forgetResult,
      IamStore.createUser, IamStore.isRootName, Except.map] at hsame
  · have hsame := congrArg Prod.fst (congrFun (hcreates.act_eq hadds) emptyIam)
    simp [IamStore.insertGroupMember, IamStore.HasGroup, emptyIam, IamCall.perform, forgetResult,
      IamStore.createUser, IamStore.isRootName, Except.map] at hsame

end Strix

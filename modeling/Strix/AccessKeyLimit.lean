import Strix.DeletedIdentities

/-!
# The limit on access keys

`create_access_key` counts the keys of the user, and inserts the new one in another
statement.  No constraint of the table holds the limit, so it rests on the count.

* `owners_alone`: calls of one statement make no keys;
* `keysOf_insert`: an insertion makes one;
* `keyLimit_kept_iff`: in a schedule of requests the user has at most two keys throughout
  exactly if what each insertion was checked for still holds when it happens;
* `threeKeys`: three calls that count first and insert then leave three keys.
-/

namespace Strix

open AtomicProgram MachineRuns RowTable

/-- How many keys the user has. -/
def IamStore.keysOf (iam : IamStore) (username : String) : Nat :=
  (iam.db.accessKeys.filter (·.username == username)).length

/-- The row can be inserted: its id is new, and its user is there. -/
def IamStore.TakesKey (iam : IamStore) (row : AccessKeyRow) : Prop :=
  (∀ k ∈ iam.db.accessKeys, k.accessKeyId ≠ row.accessKeyId) ∧ iam.HasUser row.username

/-- **What was checked still holds**: if the turn inserts a key for the user, the user has
fewer than two keys, as when the call counted them. -/
def CheckStillHolds (username : String) (c : IamPool) : Turn Empty → Prop
  | .thread i =>
    ∀ row : AccessKeyRow, row.username = username → c.Awaits i (IamStore.insertAccessKey row) →
      c.state.TakesKey row → c.state.keysOf username < 2
  | .world event => event.elim

/-! ## What a statement does to the keys -/

section Statements

variable {keys : IamKeys} {now : DateTime} {iam : IamStore} {username : String}

/-- The owners of the keys. -/
def IamStore.owners (iam : IamStore) : List String :=
  iam.db.accessKeys.map (·.username)

theorem keysOf_eq_count : iam.keysOf username = iam.owners.count username := by
  unfold IamStore.keysOf IamStore.owners
  rw [List.count_eq_countP, List.countP_map, List.countP_eq_length_filter]
  rfl

theorem owners_reportRows {α : Type} {rows : List α} {hit : α → Bool} {missing : IamError}
    {after : IamStore} (h : after.owners.Sublist iam.owners) :
    (IamStore.reportRows rows hit missing iam after).2.owners.Sublist iam.owners := by
  unfold IamStore.reportRows
  split
  · exact h
  · exact .refl _

/-- **Calls of one statement make no keys.** -/
theorem owners_alone {call : IamCall} (halone : call.isAlone = true) :
    (call.perform keys now iam).2.owners.Sublist iam.owners := by
  have hdelete (hit : AccessKeyRow → Bool) :
      ((deleteRows hit iam.db.accessKeys).map (·.username)).Sublist iam.owners :=
    List.filter_sublist.map _
  have hupdate (hit : AccessKeyRow → Bool) (assign : AccessKeyRow → AccessKeyRow)
      (hkept : ∀ k, (assign k).username = k.username) :
      (updateRows hit assign iam.db.accessKeys).map (·.username) = iam.owners := by
    unfold updateRows IamStore.owners
    rw [List.map_map]
    refine List.map_congr_left fun k _ => ?_
    by_cases hhit : hit k = true
    · simp [hhit, hkept]
    · simp [hhit]
  have hsame {after : IamStore} (h : after.owners = iam.owners) :
      after.owners.Sublist iam.owners := by
    rw [h]
  cases call with
  | deleteUser username =>
      simp only [IamCall.perform, IamStore.deleteUser]
      split
      · exact .refl _
      · exact owners_reportRows (hdelete _)
  | deleteAccessKey id =>
      simp only [IamCall.perform, IamStore.deleteAccessKey]
      split
      · exact .refl _
      · exact owners_reportRows (hdelete _)
  | updateAccessKeyStatus id status =>
      simp only [IamCall.perform, IamStore.updateAccessKeyStatus]
      split
      · exact .refl _
      · exact owners_reportRows (hsame (hupdate _ _ fun _ => rfl))
  | updateAccessKeyLastUsed id =>
      simp only [IamCall.perform, IamStore.updateAccessKeyLastUsed]
      split
      · exact .refl _
      · exact hsame (hupdate _ _ fun _ => rfl)
  | createAccessKey => cases halone
  | attachUserPolicy => cases halone
  | addUserToGroup => cases halone
  | attachGroupPolicy => cases halone
  | assumeRole => cases halone
  | _ =>
      refine hsame ?_
      simp only [IamCall.perform, forgetResult, IamStore.owners, IamStore.createUser,
        IamStore.updateUserStatus, IamStore.setUserPassword, IamStore.detachUserPolicy,
        IamStore.createGroup, IamStore.deleteGroup, IamStore.removeUserFromGroup,
        IamStore.detachGroupPolicy, IamStore.createPolicy, IamStore.deletePolicy,
        IamStore.reportRows]
      repeat' split
      all_goals rfl

/-- **An insertion makes one key** of its user, or none. -/
theorem keysOf_insert (row : AccessKeyRow) :
    iam.TakesKey row ∧ (IamStore.insertAccessKey row iam).2.keysOf username =
        iam.keysOf username + (if row.username = username then 1 else 0) ∨
      ¬iam.TakesKey row ∧ (IamStore.insertAccessKey row iam).2 = iam := by
  unfold IamStore.insertAccessKey IamStore.TakesKey
  by_cases htaken : iam.db.accessKeys.any (·.accessKeyId == row.accessKeyId) = true
  · rw [if_pos htaken]
    refine Or.inr ⟨?_, rfl⟩
    intro htakes
    obtain ⟨k, hk, hid⟩ := List.any_eq_true.mp htaken
    exact htakes.1 k hk (beq_iff_eq.mp hid)
  · rw [if_neg htaken]
    by_cases huser : iam.HasUser row.username
    · rw [if_pos huser]
      refine Or.inl ⟨⟨?_, huser⟩, ?_⟩
      · intro k hk hid
        exact htaken (List.any_eq_true.mpr ⟨k, hk, beq_iff_eq.mpr hid⟩)
      · by_cases hname : row.username = username
        · simp [IamStore.keysOf, insertRow, hname]
        · simp [IamStore.keysOf, insertRow, hname]
    · rw [if_neg huser]
      exact Or.inr ⟨fun htakes => huser htakes.2, rfl⟩

end Statements

/-! ## One turn -/

section Turns

variable {keys : IamKeys} {username : String} {c : IamPool} {turn : Turn Empty}

/-- The turn inserts a key for the user. -/
def InsertsKey (username : String) (c : IamPool) (turn : Turn Empty) : Prop :=
  ∃ i row, turn = .thread i ∧ row.username = username ∧
    c.Awaits i (IamStore.insertAccessKey row) ∧ c.state.TakesKey row

/-- A turn that inserts a key for the user makes one. -/
theorem keysOf_inserts (h : InsertsKey username c turn) :
    (c.turn noEvents turn).state.keysOf username = c.state.keysOf username + 1 := by
  obtain ⟨i, row, rfl, hname, ⟨next, hp⟩, htakes⟩ := h
  have hturn : c.turn noEvents (.thread i) = _ := turn_step hp
  rw [hturn]
  rcases @keysOf_insert c.state username row with ⟨-, hcount⟩ | ⟨hnot, -⟩
  · rw [if_pos hname] at hcount
    exact hcount
  · exact absurd htakes hnot

/-- Other turns make none. -/
theorem keysOf_other (hthreads : OnlyStatements keys c) (h : ¬InsertsKey username c turn) :
    (c.turn noEvents turn).state.keysOf username ≤ c.state.keysOf username := by
  obtain ⟨-, hcases⟩ := turn_only_cases noEvents hthreads turn
  rcases hcases with ⟨event, -, -⟩ | ⟨-, hsame⟩ | ⟨i, β, act, next, rfl, hp, hK, hstate⟩
  · exact event.elim
  · rw [hsame]
  · rw [hstate]
    cases hK with
    | reads read => exact Nat.le_refl _
    | alone now halone =>
        rw [keysOf_eq_count, keysOf_eq_count]
        exact (owners_alone halone).count_le username
    | accessKey row =>
        rcases @keysOf_insert c.state username row with ⟨htakes, hcount⟩ | ⟨-, hsame⟩
        · have hname : ¬row.username = username := by
            intro hname
            exact h ⟨i, row, rfl, hname, ⟨next, hp⟩, htakes⟩
          rw [hcount, if_neg hname]
          exact Nat.le_refl _
        · rw [hsame]
    | userPolicy row =>
        unfold IamStore.insertUserPolicy
        split
        · exact Nat.le_refl _
        · exact Nat.le_refl _
    | groupMember row =>
        unfold IamStore.insertGroupMember
        split
        · exact Nat.le_refl _
        · split
          · exact Nat.le_refl _
          · exact Nat.le_refl _
    | groupPolicy row =>
        unfold IamStore.insertGroupPolicy
        split
        · exact Nat.le_refl _
        · exact Nat.le_refl _
    | temporaryCredential row =>
        unfold IamStore.insertTemporaryCredential
        split
        · exact Nat.le_refl _
        · split
          · exact Nat.le_refl _
          · exact Nat.le_refl _

/-- **One turn keeps the limit** exactly if what it was checked for still holds. -/
theorem keyLimit_turn_iff (hthreads : OnlyStatements keys c)
    (hlimit : c.state.keysOf username ≤ 2) :
    (c.turn noEvents turn).state.keysOf username ≤ 2 ↔ CheckStillHolds username c turn := by
  by_cases hinserts : InsertsKey username c turn
  · rw [keysOf_inserts hinserts]
    obtain ⟨i, row, rfl, hname, hawaits, htakes⟩ := hinserts
    constructor
    · intro hle other _ _ _
      omega
    · intro hcheck
      have hfewer := hcheck row hname hawaits htakes
      omega
  · refine iff_of_true ((keysOf_other hthreads hinserts).trans hlimit) ?_
    cases turn with
    | thread i =>
        intro row hname hawaits htakes
        exact absurd ⟨i, row, rfl, hname, hawaits, htakes⟩ hinserts
    | world event => exact event.elim

end Turns

/-! ## Schedules -/

/-- **The limit on access keys.**  In a schedule of any requests to the store, a user who
has at most two keys at the start has at most two throughout, exactly if whenever a call
inserts a key for the user, the user still has fewer than two. -/
theorem keyLimit_kept_iff (keys : IamKeys) {iam : IamStore} {username : String}
    (hstart : iam.keysOf username ≤ 2) (requests : List IamRequest)
    (schedule : List (Turn Empty)) :
    (iamSchedules (iamPool keys iam requests)).AllStates
        (fun c => c.state.keysOf username ≤ 2) (iamPool keys iam requests) schedule ↔
      (iamSchedules (iamPool keys iam requests)).AllSteps (CheckStillHolds username)
        (iamPool keys iam requests) schedule := by
  refine Machine.allStates_iff_allSteps (I := OnlyStatements keys) (S := fun _ _ => True) ?_ ?_
    (onlyStatements_iamPool keys iam requests) hstart
    ((iamSchedules (iamPool keys iam requests)).allSteps_of_forall (fun _ _ => trivial) _ _)
  · intro c turn hthreads _
    exact (turn_only_cases noEvents hthreads turn).1
  · intro c turn hthreads _ hlimit
    exact keyLimit_turn_iff hthreads hlimit

/-- Three calls for keys of one user. -/
def threeCreations : List IamRequest :=
  ((List.finRange 36).take 3).map fun letter => .change 0 (.createAccessKey "alice" (fun _ => letter) "secret")

/-- A store with the user, who has no keys. -/
def aliceIam : IamStore :=
  { emptyIam with db := { emptyIam.db with users := [User.create "alice" 0] } }

/-- The first of them alone keeps the limit. -/
theorem keyLimit_kept_firstCreation :
    (iamSchedules (iamPool plainKeys aliceIam (threeCreations.take 1))).AllStates
      (fun c => c.state.keysOf "alice" ≤ 2) (iamPool plainKeys aliceIam (threeCreations.take 1))
      ([0, 0, 0, 0].map .thread) := by
  refine (keyLimit_kept_iff plainKeys (by decide +kernel) (threeCreations.take 1) _).mpr ?_
  refine ⟨?_, ?_, ?_, ?_, trivial⟩ <;> exact fun _ _ _ _ => by decide +kernel

/-- **Three calls leave three keys** if each counts before any inserts. -/
theorem threeKeys :
    aliceIam.keysOf "alice" = 0 ∧
      ((iamSchedules (iamPool plainKeys aliceIam threeCreations)).after
        (iamPool plainKeys aliceIam threeCreations)
        ([0, 0, 0, 1, 1, 1, 2, 2, 2, 0, 1, 2].map .thread)).state.keysOf "alice" = 3 := by
  decide +kernel

end Strix

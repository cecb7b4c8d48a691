import Strix.IamCalls
import Strix.PolicyConditions
import Strix.PolicyDocuments
import Strix.PolicySimulator
import Strix.PolicyValidation

/-!
# Conditions in IAM policies

A statement of an IAM policy is read from its effect, its actions and its resources; fields
of other names are passed over, so a condition that a document states is gone before the
policy is attached.

* `asPolicy_toValue`: what `attach_user_policy` writes is read back, so nothing is lost
  behind the reading;
* `mem_allPolicies_attachUserPolicy`, `mem_allPolicies_attachGroupPolicy`: an attached
  policy applies;
* `keepsConditions_iff`: which conditions hold wherever their statements grant.
-/

namespace Strix

/-! ## Reading and writing IAM policies -/

namespace Value

/-- A statement of an IAM policy from its fields. -/
def policyStatementOf (effect actions resources : Value) : Option PolicyStatement := do
  let effect ← effect.asEffect
  let actions ← actions.asStrings
  let resources ← resources.asStrings
  some { effect := effect, actions := actions, resources := resources }

/-- `PolicyStatement`: an object by its keys, or an array of all fields in their order.
There is no field for a condition. -/
def asPolicyStatement : Value → Option PolicyStatement
  | object entries => do
    let effect ← required entries "Effect"
    let actions ← required entries "Action"
    let resources ← required entries "Resource"
    policyStatementOf effect actions resources
  | array [effect, actions, resources] => policyStatementOf effect actions resources
  | _ => none

/-- `Vec<PolicyStatement>`. -/
def asPolicyStatements : Value → Option (List PolicyStatement)
  | array items => items.mapM asPolicyStatement
  | _ => none

/-- A policy from its fields. -/
def policyOf (name : Value) (version : Option Value) (statements : Value) : Option Policy := do
  let name ← name.asStr
  let version ← (version.getD (string "2012-10-17")).asStr
  let statements ← statements.asPolicyStatements
  some { name := name, version := version, statements := statements }

/-- `Policy`: an object by its keys, or an array of all fields. -/
def asPolicy : Value → Option Policy
  | object entries => do
    let name ← required entries "name"
    let version ← fieldOf entries "version"
    let statements ← required entries "Statement"
    policyOf name version statements
  | array [name, version, statements] => policyOf name (some version) statements
  | _ => none

end Value

def PolicyStatement.toValue (stmt : PolicyStatement) : Value :=
  .object [("Effect", effectValue stmt.effect), ("Action", ofStrings stmt.actions),
    ("Resource", ofStrings stmt.resources)]

/-- The document that `attach_user_policy` and `attach_group_policy` store. -/
def Policy.toValue (policy : Policy) : Value :=
  .object [("name", .string policy.name), ("version", .string policy.version),
    ("Statement", .array (policy.statements.map (·.toValue)))]

theorem asPolicyStatement_toValue (stmt : PolicyStatement) :
    stmt.toValue.asPolicyStatement = some stmt := by
  have hof : Value.policyStatementOf (effectValue stmt.effect) (ofStrings stmt.actions)
      (ofStrings stmt.resources) = some stmt := by
    simp [Value.policyStatementOf]
  exact hof

/-- **What is stored is read back.** -/
theorem asPolicy_toValue (policy : Policy) : policy.toValue.asPolicy = some policy := by
  have hstatements : (Value.array (policy.statements.map (·.toValue))).asPolicyStatements =
      some policy.statements := by
    unfold Value.asPolicyStatements
    dsimp only
    induction policy.statements with
    | nil => rfl
    | cons stmt statements ih =>
        simp [List.mapM_cons, asPolicyStatement_toValue, ih]
  have hof : Value.policyOf (.string policy.name) (some (.string policy.version))
      (.array (policy.statements.map (·.toValue))) = some policy := by
    simp [Value.policyOf, Value.asStr, hstatements]
  exact hof

/-! ## Attached policies apply -/

section Attached

variable {iam iam' : IamStore} {now : DateTime} {username groupName : String} {policy : Policy}

/-- A policy that was attached to a user applies to the user. -/
theorem mem_allPolicies_attachUserPolicy (hname : iam.isRootName username = false)
    (h : iam.attachUserPolicy now username policy = (.ok (), iam')) :
    policy ∈ iam'.allPolicies username := by
  unfold IamStore.attachUserPolicy at h
  rw [hname] at h
  cases huser : iam.getUser now username with
  | error e => simp [huser] at h
  | ok user =>
      simp only [huser, Bool.false_eq_true, if_false, Prod.mk.injEq, true_and] at h
      subst h
      refine List.mem_append_left _ ?_
      unfold IamStore.listUserPolicies
      rw [if_neg (by simpa [IamStore.isRootName] using hname)]
      unfold IamStore.attachedPolicies
      rw [List.mem_filterMap]
      refine ⟨⟨username, policy.name, some policy⟩, ?_, rfl⟩
      simp

/-- A policy that was attached to a group applies to its members. -/
theorem mem_allPolicies_attachGroupPolicy
    (hmember : ∃ group ∈ iam.listUserGroups username, group.name = groupName)
    (h : iam.attachGroupPolicy groupName policy = (.ok (), iam')) :
    policy ∈ iam'.allPolicies username := by
  unfold IamStore.attachGroupPolicy at h
  by_cases hexists : iam.db.groups.any (·.name == groupName) = true
  · simp only [hexists, Bool.not_true, Bool.false_eq_true, if_false, Prod.mk.injEq,
      true_and] at h
    -- the groups and their members are as before
    have hmember' : ∃ group ∈ iam'.listUserGroups username, group.name = groupName := by
      rw [exists_mem_listUserGroups] at hmember ⊢
      rw [← h]
      exact hmember
    obtain ⟨group, hgroup, hname⟩ := hmember'
    subst h
    refine List.mem_append_right _ (List.mem_flatMap.mpr ⟨group, hgroup, ?_⟩)
    unfold IamStore.listGroupPolicies
    rw [hname, List.mem_filterMap]
    refine ⟨⟨groupName, policy.name, some policy⟩, ?_, rfl⟩
    simp
  · simp [hexists] at h

end Attached

/-! ## Conditions -/

namespace Value

/-- The statements of a document, as they stand there. -/
def statementItems : Value → List Value
  | object entries =>
    match required entries "Statement" with
    | some (array items) => items
    | _ => []
  | array [_, _, array items] => items
  | _ => []

/-- The document states a condition with one of its statements, which is read without it. -/
def StatesCondition (document : Value) (stmt : PolicyStatement) (block : Value) : Prop :=
  ∃ entries, object entries ∈ document.statementItems ∧
    (object entries).asPolicyStatement = some stmt ∧ ("Condition", block) ∈ entries

end Value

/-- The user is granted the request through the statement.  Root is granted everything
without one. -/
def IamStore.GrantsThrough (iam : IamStore) (username : String) (stmt : PolicyStatement)
    (action : Action) (resource : Resource) : Prop :=
  iam.isRootName username = false ∧ stmt.effect = .allow ∧
    stmt.matches action resource = true ∧ iam.isAuthorized username action resource = true

/-- **No condition is dropped**: a statement of the document grants only in contexts in
which its condition holds. -/
def IamStore.KeepsConditions (iam : IamStore) (username : String) (document : Value) : Prop :=
  ∀ stmt block, document.StatesCondition stmt block →
    ∀ action resource, iam.GrantsThrough username stmt action resource →
      ∀ context, evaluateCondition block context = true

/-- The condition of an allowing statement is not needed: it holds in every context, or all
that the statement matches is denied, or the user is root. -/
def IamStore.ConditionIdle (iam : IamStore) (username : String) (stmt : PolicyStatement)
    (block : Value) : Prop :=
  (∀ context, evaluateCondition block context = true) ∨
    (∀ action resource, stmt.matches action resource = true →
      PoliciesDecide (iam.allPolicies username) .deny action resource) ∨
    iam.isRootName username = true

/-- What is read from a list is in the list that is read. -/
theorem mem_of_mem_mapM {α β : Type} {f : α → Option β} {xs : List α} {ys : List β}
    (h : xs.mapM f = some ys) {x : α} (hx : x ∈ xs) {y : β} (hy : f x = some y) : y ∈ ys := by
  induction xs generalizing ys with
  | nil => cases hx
  | cons first xs ih =>
      rw [List.mapM_cons] at h
      obtain ⟨z, hz, h⟩ := Option.bind_eq_some_iff.mp h
      obtain ⟨zs, hzs, h⟩ := Option.bind_eq_some_iff.mp h
      obtain rfl : z :: zs = ys := Option.some.inj h
      obtain rfl | hmem := List.mem_cons.mp hx
      · rw [hz] at hy
        rw [Option.some.inj hy]
        exact List.mem_cons_self
      · exact List.mem_cons_of_mem _ (ih hzs hmem)

/-- The statements of a policy are read from those of the document. -/
theorem mapM_statementItems {document : Value} {policy : Policy}
    (h : document.asPolicy = some policy) :
    document.statementItems.mapM Value.asPolicyStatement = some policy.statements := by
  have hof {name statements : Value} {version : Option Value}
      (hpolicy : Value.policyOf name version statements = some policy) :
      ∃ items, statements = .array items ∧
        items.mapM Value.asPolicyStatement = some policy.statements := by
    unfold Value.policyOf at hpolicy
    obtain ⟨_, _, hpolicy⟩ := Option.bind_eq_some_iff.mp hpolicy
    obtain ⟨_, _, hpolicy⟩ := Option.bind_eq_some_iff.mp hpolicy
    obtain ⟨read, hread, hpolicy⟩ := Option.bind_eq_some_iff.mp hpolicy
    obtain rfl := Option.some.inj hpolicy
    unfold Value.asPolicyStatements at hread
    split at hread
    · exact ⟨_, rfl, hread⟩
    · cases hread
  unfold Value.asPolicy at h
  split at h
  · obtain ⟨name, hname, h⟩ := Option.bind_eq_some_iff.mp h
    obtain ⟨version, hversion, h⟩ := Option.bind_eq_some_iff.mp h
    obtain ⟨statements, hstatements, h⟩ := Option.bind_eq_some_iff.mp h
    obtain ⟨items, rfl, hitems⟩ := hof h
    unfold Value.statementItems
    dsimp only
    rw [hstatements]
    exact hitems
  · obtain ⟨items, rfl, hitems⟩ := hof h
    exact hitems
  · cases h

/-- A statement with a condition is one of the policy's. -/
theorem mem_statements_of_statesCondition {document : Value} {policy : Policy}
    {stmt : PolicyStatement} {block : Value} (h : document.asPolicy = some policy)
    (hstates : document.StatesCondition stmt block) : stmt ∈ policy.statements := by
  obtain ⟨entries, hentries, hread, -⟩ := hstates
  exact mem_of_mem_mapM (mapM_statementItems h) hentries hread

/-- **Which conditions hold wherever their statements grant.**  For every document that is
accepted and attached, to the user or to one of the user's groups: no condition is dropped
exactly if those of the allowing statements are not needed. -/
theorem keepsConditions_iff {iam : IamStore} {username : String} {document : Value}
    {policy : Policy} {source : PolicySource} (hread : document.asPolicy = some policy)
    (happlies : iam.Applies username source) (hattached : policy ∈ iam.policiesOf source) :
    iam.KeepsConditions username document ↔
      ∀ stmt block, document.StatesCondition stmt block → stmt.effect = .allow →
        iam.ConditionIdle username stmt block := by
  have hmem : policy ∈ iam.allPolicies username := mem_allPolicies.mpr ⟨source, happlies, hattached⟩
  constructor
  · intro hkeeps stmt block hstates hallow
    cases hroot : iam.isRootName username with
    | true => exact .inr (.inr hroot)
    | false =>
        by_cases halways : ∀ context, evaluateCondition block context = true
        · exact .inl halways
        · refine .inr (.inl ?_)
          intro action resource hmatches
          by_contra hdeny
          have hgranted : iam.isAuthorized username action resource = true := by
            rw [isAuthorized_iff hroot]
            exact ⟨⟨policy, hmem, stmt, mem_statements_of_statesCondition hread hstates,
              hmatches, hallow⟩, hdeny⟩
          exact halways
            (hkeeps stmt block hstates action resource ⟨hroot, hallow, hmatches, hgranted⟩)
  · intro hidle stmt block hstates action resource hgrants context
    obtain ⟨hroot, hallow, hmatches, hgranted⟩ := hgrants
    obtain halways | hdenied | hname := hidle stmt block hstates hallow
    · exact halways context
    · rw [isAuthorized_iff hroot] at hgranted
      exact absurd (hdenied action resource hmatches) hgranted.2
    · rw [hroot] at hname
      cases hname

/-! ## A home network -/

/-- A condition on the address of the caller. -/
def homeNetwork : Value :=
  .object [("IpAddress", .object [("aws:SourceIp", .string "192.168.1.0/24")])]

/-- The bucket may be read with this effect from the network only. -/
def homePolicyDocument (effect : Effect) (condition : Value) : Value :=
  .object [("name", .string "HomeOnly"), ("Statement", .array [.object [
    ("Effect", effectValue effect),
    ("Action", .array [.string "s3:GetObject"]),
    ("Resource", .array [.string "arn:aws:s3:::docs/*"]),
    ("Condition", condition)]])]

/-- What is read of the document. -/
def homePolicy (effect : Effect) : Policy where
  name := "HomeOnly"
  statements := [
    { effect := effect
      actions := ["s3:GetObject"]
      resources := ["arn:aws:s3:::docs/*"] }]

/-- A store with a user. -/
def homeIam : IamStore where
  db := { users := [User.create "alice" 0] }
  rootAccessKey := "ROOTKEY"
  rootSecretKey := "root-secret"

/-- The document is attached to the user. -/
def homeAttached (effect : Effect) : IamStore :=
  (homeIam.attachUserPolicy 0 "alice" (homePolicy effect)).2

/-- An empty condition is kept. -/
theorem keepsConditions_iff_empty :
    (homeAttached .allow).KeepsConditions "alice" (homePolicyDocument .allow (.object [])) := by
  have happlies : (homeAttached .allow).Applies "alice" (.user "alice") := .inl rfl
  have hattached : homePolicy .allow ∈ (homeAttached .allow).policiesOf (.user "alice") := by
    decide +kernel
  refine (@keepsConditions_iff _ _ _ (homePolicy .allow) _ rfl happlies hattached).mpr ?_
  intro stmt block hstates hallow
  obtain ⟨entries, hentries, -, hcondition⟩ := hstates
  refine .inl ?_
  intro context
  have hblock : block = .object [] := by
    obtain rfl := Value.object.inj (List.mem_singleton.mp hentries)
    simpa [effectValue] using hcondition
  rw [hblock]
  rfl

/-- The document is accepted, attached and valid, and grants from everywhere. -/
theorem homeNetwork_dropped :
    (homePolicyDocument .allow homeNetwork).asPolicy = some (homePolicy .allow) ∧
      validatePolicy Char.isAlphanum (homePolicy .allow) = .ok () ∧
      (homeIam.attachUserPolicy 0 "alice" (homePolicy .allow)).1 = .ok () ∧
      (homeAttached .allow).isAuthorized "alice" .getObject (.object "docs" "a") = true ∧
      evaluateCondition homeNetwork (fromAddress 0x0A000007) = false ∧
      ¬(homeAttached .allow).KeepsConditions "alice" (homePolicyDocument .allow homeNetwork) := by
  have hgranted : (homeAttached .allow).isAuthorized "alice" .getObject (.object "docs" "a") =
      true := by decide +kernel
  have houtside : evaluateCondition homeNetwork (fromAddress 0x0A000007) = false := by
    decide +kernel
  have hstates : (homePolicyDocument .allow homeNetwork).StatesCondition
      { effect := .allow, actions := ["s3:GetObject"], resources := ["arn:aws:s3:::docs/*"] }
      homeNetwork := ⟨_, List.mem_singleton_self _, rfl, by simp⟩
  refine ⟨rfl, ?_, rfl, hgranted, houtside, ?_⟩
  · rw [validatePolicy_ok_iff]
    decide +kernel
  · intro hkeeps
    have hholds := hkeeps _ _ hstates .getObject (.object "docs" "a")
      ⟨by decide +kernel, rfl, by decide +kernel, hgranted⟩ (fromAddress 0x0A000007)
    rw [houtside] at hholds
    cases hholds

end Strix

import Strix.IamStore
import Strix.JsonRecords

/-!
# Bucket policies as documents

The body of a `PUT` of a bucket policy is JSON, which the derived `Deserialize`
reads into a `BucketPolicy`: records field by field, `PrincipalSpec` and the
pattern lists as untagged enums.  `set_bucket_policy` writes the policy back as
JSON, and `get_bucket_policy` reads that again.

* `ofValue_toValue`: what is written is read back;
* `getBucketPolicy_setBucketPolicy`: so the store returns what was set;
* `documented_iff`: which documents in the documented form are accepted and mean
  what the documentation says.
-/

namespace Strix

/-! ## Reading -/

namespace Value

/-- `Option<serde_json::Value>`. -/
def asOptionValue : Option Value → Option Value
  | some null => none
  | value => value

/-- `Effect`: a unit variant, by name or as an object with the name for a key. -/
def asEffect : Value → Option Effect
  | string "Allow" => some .allow
  | string "Deny" => some .deny
  | object [("Allow", null)] => some .allow
  | object [("Deny", null)] => some .deny
  | _ => none

/-- `PrincipalSpec`, untagged: the unit variant `Wildcard` is `null`, then `Aws`
is tried, a list of texts. -/
def asPrincipalSpec : Value → Option PrincipalSpec
  | null => some .wildcard
  | value => value.asStrings.map .aws

/-- `ActionSpec` and `ResourceSpec`, untagged: a text, or a list of texts. -/
def asPatternSpec : Value → Option PatternSpec
  | string s => some (.single s)
  | value => value.asStrings.map .multiple

/-- A statement from its fields. -/
def statementOf (sid : Option Value) (effect principal actions resources : Value)
    (condition : Option Value) : Option BucketPolicyStatement := do
  let sid ← asOptionStr sid
  let effect ← effect.asEffect
  let principal ← principal.asPrincipalSpec
  let actions ← actions.asPatternSpec
  let resources ← resources.asPatternSpec
  some
    { sid := sid
      effect := effect
      principal := principal
      actions := actions
      resources := resources
      condition := asOptionValue condition }

/-- `BucketPolicyStatement`: an object by its keys, or an array of all fields in
their order. -/
def asStatement : Value → Option BucketPolicyStatement
  | object entries => do
    let sid ← fieldOf entries "Sid"
    let effect ← required entries "Effect"
    let principal ← required entries "Principal"
    let actions ← required entries "Action"
    let resources ← required entries "Resource"
    let condition ← fieldOf entries "Condition"
    statementOf sid effect principal actions resources condition
  | array [sid, effect, principal, actions, resources, condition] =>
    statementOf (some sid) effect principal actions resources (some condition)
  | _ => none

/-- `Vec<BucketPolicyStatement>`. -/
def asStatements : Value → Option (List BucketPolicyStatement)
  | array items => items.mapM asStatement
  | _ => none

/-- `BucketPolicy`: an object by its keys, or an array of all fields. -/
def asBucketPolicy : Value → Option BucketPolicy
  | object entries => do
    let version ← fieldOf entries "Version"
    let version ← (version.getD (string "2012-10-17")).asStr
    let id ← asOptionStr (← fieldOf entries "Id")
    let statements ← (← required entries "Statement").asStatements
    some { version := version, id := id, statements := statements }
  | array [version, id, statements] => do
    let version ← version.asStr
    let id ← asOptionStr (some id)
    let statements ← statements.asStatements
    some { version := version, id := id, statements := statements }
  | _ => none

end Value

/-! ## Writing -/

def effectValue : Effect → Value
  | .allow => .string "Allow"
  | .deny => .string "Deny"

def PrincipalSpec.toValue : PrincipalSpec → Value
  | wildcard => .null
  | aws principals => ofStrings principals

def PatternSpec.toValue : PatternSpec → Value
  | single pattern => .string pattern
  | multiple patterns => ofStrings patterns

def BucketPolicyStatement.toValue (stmt : BucketPolicyStatement) : Value :=
  .object (optionField "Sid" (stmt.sid.map .string) ++
    [("Effect", effectValue stmt.effect),
     ("Principal", stmt.principal.toValue),
     ("Action", stmt.actions.toValue),
     ("Resource", stmt.resources.toValue)] ++
    optionField "Condition" stmt.condition)

def BucketPolicy.toValue (policy : BucketPolicy) : Value :=
  .object ([("Version", .string policy.version)] ++
    optionField "Id" (policy.id.map .string) ++
    [("Statement", .array (policy.statements.map (·.toValue)))])

/-- `INSERT OR REPLACE INTO bucket_policies` of the policy as a document. -/
def IamStore.setBucketPolicy (iam : IamStore) (bucket : String) (policy : BucketPolicy) :
    IamStore :=
  let kept := iam.db.bucketPolicies.filter fun row => !(row.bucket == bucket)
  let row : BucketPolicyRow :=
    { bucket := bucket, policyDocument := policy.toValue.asBucketPolicy }
  { iam with db := { iam.db with bucketPolicies := kept ++ [row] } }

/-! ## What is written is read back -/

@[simp] theorem asEffect_effectValue (effect : Effect) :
    (effectValue effect).asEffect = effect := by
  cases effect <;> rfl

@[simp] theorem asPrincipalSpec_toValue (principal : PrincipalSpec) :
    principal.toValue.asPrincipalSpec = some principal := by
  cases principal with
  | wildcard => rfl
  | aws principals =>
      have hread : (ofStrings principals).asPrincipalSpec =
          (ofStrings principals).asStrings.map .aws := rfl
      rw [PrincipalSpec.toValue, hread, asStrings_ofStrings]
      rfl

@[simp] theorem asPatternSpec_toValue (spec : PatternSpec) :
    spec.toValue.asPatternSpec = some spec := by
  cases spec with
  | single pattern => rfl
  | multiple patterns =>
      have hread : (ofStrings patterns).asPatternSpec =
          (ofStrings patterns).asStrings.map .multiple := rfl
      rw [PatternSpec.toValue, hread, asStrings_ofStrings]
      rfl

/-- Every policy that a document was read into has no `null` for a condition. -/
def BucketPolicy.NoNullCondition (policy : BucketPolicy) : Prop :=
  ∀ stmt ∈ policy.statements, stmt.condition ≠ some .null

/-- A written statement is read back. -/
theorem asStatement_toValue {stmt : BucketPolicyStatement}
    (hcondition : stmt.condition ≠ some .null) : stmt.toValue.asStatement = some stmt := by
  obtain ⟨sid, effect, principal, actions, resources, condition⟩ := stmt
  have hsid : Value.asOptionStr (sid.map .string) = some sid := by
    cases sid <;> rfl
  have hvalue : Value.asOptionValue condition = condition := by
    cases condition with
    | none => rfl
    | some value =>
        cases value with
        | null => exact absurd rfl hcondition
        | _ => rfl
  have hof : Value.statementOf (sid.map .string) (effectValue effect) principal.toValue
      actions.toValue resources.toValue condition =
      some ⟨sid, effect, principal, actions, resources, condition⟩ := by
    simp [Value.statementOf, hsid, hvalue]
  rw [← hof]
  cases sid <;> cases condition <;> rfl

theorem asStatements_toValue {statements : List BucketPolicyStatement}
    (hcondition : ∀ stmt ∈ statements, stmt.condition ≠ some .null) :
    (Value.array (statements.map (·.toValue))).asStatements = some statements := by
  unfold Value.asStatements
  dsimp only
  induction statements with
  | nil => rfl
  | cons stmt statements ih =>
      have hhead := asStatement_toValue (hcondition stmt List.mem_cons_self)
      have htail := ih fun other hother => hcondition other (List.mem_cons_of_mem _ hother)
      simp [List.mapM_cons, hhead, htail]

/-- **What is written is read back**, unless some condition is `null`. -/
theorem ofValue_toValue {policy : BucketPolicy} (hcondition : policy.NoNullCondition) :
    policy.toValue.asBucketPolicy = some policy := by
  obtain ⟨version, id, statements⟩ := policy
  have hstatements := asStatements_toValue hcondition
  cases id <;>
    simp [BucketPolicy.toValue, Value.asBucketPolicy, optionField, Value.fieldOf, Value.required,
      Value.asStr, Value.asOptionStr, hstatements]

/-- **The store returns what was set.** -/
theorem getBucketPolicy_setBucketPolicy (iam : IamStore) (bucket : String)
    {policy : BucketPolicy} (hcondition : policy.NoNullCondition) :
    (iam.setBucketPolicy bucket policy).getBucketPolicy bucket = .ok (some policy) := by
  have hkept : (iam.db.bucketPolicies.filter fun row => !(row.bucket == bucket)).find?
      (·.bucket == bucket) = none := by
    rw [List.find?_eq_none]
    intro row hrow
    simpa using (List.mem_filter.mp hrow).2
  simp [IamStore.setBucketPolicy, IamStore.getBucketPolicy, List.find?_append, hkept,
    ofValue_toValue hcondition]

/-- Each element of a list that was read element by element is read from one. -/
theorem mem_of_mapM_eq_some {α β : Type} {f : α → Option β} {xs : List α} {ys : List β}
    (h : xs.mapM f = some ys) {y : β} (hy : y ∈ ys) : ∃ x ∈ xs, f x = some y := by
  induction xs generalizing ys with
  | nil =>
      obtain rfl : [] = ys := Option.some.inj h
      cases hy
  | cons x xs ih =>
      rw [List.mapM_cons] at h
      obtain ⟨z, hz, h⟩ := Option.bind_eq_some_iff.mp h
      obtain ⟨zs, hzs, h⟩ := Option.bind_eq_some_iff.mp h
      obtain rfl : z :: zs = ys := Option.some.inj h
      rcases List.mem_cons.mp hy with rfl | hmem
      · exact ⟨x, List.mem_cons_self, hz⟩
      · obtain ⟨x', hx', hread⟩ := ih hzs hmem
        exact ⟨x', List.mem_cons_of_mem _ hx', hread⟩

/-- A statement that was read from its fields has no `null` for a condition. -/
theorem condition_of_statementOf {sid : Option Value} {effect principal actions resources : Value}
    {condition : Option Value} {stmt : BucketPolicyStatement}
    (h : Value.statementOf sid effect principal actions resources condition = some stmt) :
    stmt.condition ≠ some .null := by
  unfold Value.statementOf at h
  obtain ⟨_, _, h⟩ := Option.bind_eq_some_iff.mp h
  obtain ⟨_, _, h⟩ := Option.bind_eq_some_iff.mp h
  obtain ⟨_, _, h⟩ := Option.bind_eq_some_iff.mp h
  obtain ⟨_, _, h⟩ := Option.bind_eq_some_iff.mp h
  obtain ⟨_, _, h⟩ := Option.bind_eq_some_iff.mp h
  obtain rfl := Option.some.inj h
  dsimp only
  intro hnull
  unfold Value.asOptionValue at hnull
  split at hnull
  · cases hnull
  · rename_i hother
    exact hother hnull

/-- A statement is read from its fields. -/
theorem statementOf_of_asStatement {value : Value} {stmt : BucketPolicyStatement}
    (h : value.asStatement = some stmt) :
    ∃ sid effect principal actions resources condition,
      Value.statementOf sid effect principal actions resources condition = some stmt := by
  unfold Value.asStatement at h
  split at h
  · obtain ⟨_, _, h⟩ := Option.bind_eq_some_iff.mp h
    obtain ⟨_, _, h⟩ := Option.bind_eq_some_iff.mp h
    obtain ⟨_, _, h⟩ := Option.bind_eq_some_iff.mp h
    obtain ⟨_, _, h⟩ := Option.bind_eq_some_iff.mp h
    obtain ⟨_, _, h⟩ := Option.bind_eq_some_iff.mp h
    obtain ⟨_, _, h⟩ := Option.bind_eq_some_iff.mp h
    exact ⟨_, _, _, _, _, _, h⟩
  · exact ⟨_, _, _, _, _, _, h⟩
  · cases h

/-- The statements of a policy are read from those of its document. -/
theorem asStatements_of_asBucketPolicy {value : Value} {policy : BucketPolicy}
    (h : value.asBucketPolicy = some policy) :
    ∃ items : Value, items.asStatements = some policy.statements := by
  unfold Value.asBucketPolicy at h
  split at h
  · obtain ⟨_, _, h⟩ := Option.bind_eq_some_iff.mp h
    obtain ⟨_, _, h⟩ := Option.bind_eq_some_iff.mp h
    obtain ⟨_, _, h⟩ := Option.bind_eq_some_iff.mp h
    obtain ⟨_, _, h⟩ := Option.bind_eq_some_iff.mp h
    obtain ⟨items, _, h⟩ := Option.bind_eq_some_iff.mp h
    obtain ⟨_, hitems, h⟩ := Option.bind_eq_some_iff.mp h
    obtain rfl := Option.some.inj h
    exact ⟨items, hitems⟩
  · obtain ⟨_, _, h⟩ := Option.bind_eq_some_iff.mp h
    obtain ⟨_, _, h⟩ := Option.bind_eq_some_iff.mp h
    obtain ⟨_, hitems, h⟩ := Option.bind_eq_some_iff.mp h
    obtain rfl := Option.some.inj h
    exact ⟨_, hitems⟩
  · cases h

/-- What a document is read into has no `null` for a condition. -/
theorem noNullCondition_of_asBucketPolicy {value : Value} {policy : BucketPolicy}
    (h : value.asBucketPolicy = some policy) : policy.NoNullCondition := by
  intro stmt hstmt
  obtain ⟨items, hitems⟩ := asStatements_of_asBucketPolicy h
  unfold Value.asStatements at hitems
  split at hitems
  · obtain ⟨item, -, hitem⟩ := mem_of_mapM_eq_some hitems hstmt
    obtain ⟨_, _, _, _, _, _, hof⟩ := statementOf_of_asStatement hitem
    exact condition_of_statementOf hof
  · cases hitems

/-! ## The documented form -/

/-- The documented principals: `"*"`, `{"AWS": "*"}`, and `{"AWS": …}` with one ARN or
a list of them. -/
inductive DocumentedPrincipal
  | anyone
  | anyUser
  | user (arn : String)
  | users (arns : List String)

def DocumentedPrincipal.toValue : DocumentedPrincipal → Value
  | anyone => .string "*"
  | anyUser => .object [("AWS", .string "*")]
  | user arn => .object [("AWS", .string arn)]
  | users arns => .object [("AWS", ofStrings arns)]

/-- The ARN of a user in a bucket policy. -/
def userArn (username : String) : String := "arn:aws:iam:::user/" ++ username

/-- Whom a documented principal names: anyone, any authenticated user, or the users
with these ARNs. -/
def DocumentedPrincipal.Names : DocumentedPrincipal → Principal → Prop
  | anyone, _ => True
  | anyUser, principal => principal ≠ .anonymous
  | user arn, principal => ∃ username, principal = .user username ∧ userArn username = arn
  | users arns, principal => ∃ username, principal = .user username ∧ userArn username ∈ arns

/-- A statement in the documented form; its condition is an object. -/
structure DocumentedStatement where
  sid : Option String
  effect : Effect
  principal : DocumentedPrincipal
  actions : PatternSpec
  resources : PatternSpec
  condition : Option (List (String × Value))

def DocumentedStatement.toValue (stmt : DocumentedStatement) : Value :=
  .object (optionField "Sid" (stmt.sid.map .string) ++
    [("Effect", effectValue stmt.effect),
     ("Principal", stmt.principal.toValue),
     ("Action", stmt.actions.toValue),
     ("Resource", stmt.resources.toValue)] ++
    optionField "Condition" (stmt.condition.map .object))

/-- A bucket policy in the documented form. -/
structure DocumentedPolicy where
  version : String
  statements : List DocumentedStatement

def DocumentedPolicy.toValue (doc : DocumentedPolicy) : Value :=
  .object [("Version", .string doc.version),
    ("Statement", .array (doc.statements.map (·.toValue)))]

/-- A statement is what the document says: it has its effect, actions, resources and
condition, and names the anonymous caller and each user as documented. -/
structure DocumentedStatement.Reads (doc : DocumentedStatement) (stmt : BucketPolicyStatement) :
    Prop where
  effect : stmt.effect = doc.effect
  actions : stmt.actions = doc.actions
  resources : stmt.resources = doc.resources
  condition : stmt.condition = doc.condition.map .object
  anonymous : stmt.matchesPrincipal .anonymous = true ↔ doc.principal.Names .anonymous
  user : ∀ username,
    stmt.matchesPrincipal (.user username) = true ↔ doc.principal.Names (.user username)

/-- **A document is accepted and means what it says**: it is read into a policy, the
store returns that policy, and its statements are what the document says. -/
def DocumentedPolicy.Accepted (doc : DocumentedPolicy) (iam : IamStore) (bucket : String) : Prop :=
  ∃ policy, doc.toValue.asBucketPolicy = some policy ∧
    (iam.setBucketPolicy bucket policy).getBucketPolicy bucket = .ok (some policy) ∧
    List.Forall₂ DocumentedStatement.Reads doc.statements policy.statements

/-- No documented principal is read. -/
theorem asPrincipalSpec_documented (principal : DocumentedPrincipal) :
    principal.toValue.asPrincipalSpec = none := by
  cases principal <;> rfl

/-- No documented statement is read. -/
theorem asStatement_documented (stmt : DocumentedStatement) : stmt.toValue.asStatement = none := by
  obtain ⟨sid, effect, principal, actions, resources, condition⟩ := stmt
  have hof : Value.statementOf (sid.map .string) (effectValue effect) principal.toValue
      actions.toValue resources.toValue (condition.map .object) = none := by
    cases sid <;> simp [Value.statementOf, Value.asOptionStr, asPrincipalSpec_documented]
  rw [← hof]
  cases sid <;> cases condition <;> rfl

/-- **Which documented policies are accepted**: those without a statement. -/
theorem documented_iff (doc : DocumentedPolicy) (iam : IamStore) (bucket : String) :
    doc.Accepted iam bucket ↔ doc.statements = [] := by
  constructor
  · intro h
    obtain ⟨policy, hread, -, -⟩ := h
    cases hstatements : doc.statements with
    | nil => rfl
    | cons stmt statements =>
        have hnone : (Value.array (doc.statements.map (·.toValue))).asStatements = none := by
          unfold Value.asStatements
          dsimp only
          rw [hstatements, List.map_cons, List.mapM_cons, asStatement_documented]
          rfl
        have hwhole : doc.toValue.asBucketPolicy =
            (Value.array (doc.statements.map (·.toValue))).asStatements.bind fun statements =>
              some { version := doc.version, id := none, statements := statements } := rfl
        rw [hwhole, hnone] at hread
        cases hread
  · intro h
    have hread : doc.toValue.asBucketPolicy =
        some { version := doc.version, id := none, statements := [] } := by
      unfold DocumentedPolicy.toValue
      rw [h]
      rfl
    refine ⟨_, hread, ?_, ?_⟩
    · exact getBucketPolicy_setBucketPolicy iam bucket
        (noNullCondition_of_asBucketPolicy hread)
    · rw [h]
      exact .nil

/-- The documentation's example of public read access. -/
def publicRead : DocumentedPolicy where
  version := "2012-10-17"
  statements := [
    { sid := some "PublicRead"
      effect := .allow
      principal := .anyone
      actions := .multiple ["s3:GetObject"]
      resources := .multiple ["arn:aws:s3:::public-bucket/*"]
      condition := none }]

/-- The documentation's example is refused. -/
theorem publicRead_refused :
    ¬∀ (doc : DocumentedPolicy) (iam : IamStore) (bucket : String), doc.Accepted iam bucket := by
  intro hall
  obtain ⟨policy, hread, -⟩ :=
    hall publicRead { db := {}, rootAccessKey := "ROOTKEY", rootSecretKey := "root-secret" }
      "public-bucket"
  cases hread

end Strix

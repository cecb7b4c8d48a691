import Strix.S3Authorization
import Strix.PolicyPatterns

/-!
# Denials of single operations

A policy denies an operation by a pattern for `s3:` and the operation's name.
What `isAuthorized` matches against the pattern is the name of the *action* that
`fromOperation` finds for the operation, and for an operation it does not know
the name `s3:*` of the action that stands for everything.

* `operationDeny_binds_iff` — when a denial of an operation turns a request away,
  request by request, and for which of the operations every denial does;
* `binding_operations` — these are fourteen of the thirty-seven operations whose
  names reach the check.
-/

namespace Strix

open S3Auth (requestAction)

/-- The operation names that the handlers of the S3 service pass to
`check_authorization`. -/
def checkedOperations : List String :=
  ["AbortMultipartUpload", "CreateBucket", "DeleteBucket", "DeleteBucketCors",
    "DeleteBucketLifecycle", "DeleteBucketTagging", "DeleteObject", "DeleteObjectTagging",
    "DeleteObjects", "GetBucketCors", "GetBucketLifecycleConfiguration", "GetBucketLocation",
    "GetBucketNotificationConfiguration", "GetBucketTagging", "GetBucketVersioning",
    "GetObject", "GetObjectLegalHold", "GetObjectLockConfiguration", "GetObjectRetention",
    "GetObjectTagging", "HeadBucket", "HeadObject", "ListBuckets", "ListMultipartUploads",
    "ListObjectVersions", "ListObjects", "ListParts", "PutBucketCors",
    "PutBucketLifecycleConfiguration", "PutBucketNotificationConfiguration",
    "PutBucketTagging", "PutBucketVersioning", "PutObject", "PutObjectLegalHold",
    "PutObjectLockConfiguration", "PutObjectRetention", "PutObjectTagging"]

/-- The name that an operation has in policies. -/
def operationName (op : String) : String := "s3:" ++ op

/-- Some action pattern of the statement matches the operation's name. -/
def PolicyStatement.namesOperation (stmt : PolicyStatement) (op : String) : Bool :=
  stmt.actions.any fun pattern => matchesWildcard pattern (operationName op)

/-- **Some statement denies the operation on the resource**: a statement of one
of the policies of the user or of the user's groups. -/
def IamStore.OperationDenied (iam : IamStore) (username op : String) (resource : Resource) :
    Prop :=
  ∃ policy ∈ iam.allPolicies username, ∃ stmt ∈ policy.statements,
    stmt.effect = .deny ∧ stmt.namesOperation op = true ∧ stmt.matchesResource resource = true

/-- **A denial of the operation binds**: if there is one, the request for the
operation is not authorized. -/
def IamStore.OperationDenyBinds (iam : IamStore) (username op : String)
    (resource : Resource) : Prop :=
  iam.OperationDenied username op resource →
    iam.isAuthorized username (requestAction op) resource = false

/-- The operation's action goes by the operation's own name. -/
def NamedAlike (op : String) : Prop :=
  (requestAction op).toString = operationName op

instance (op : String) : Decidable (NamedAlike op) :=
  inferInstanceAs (Decidable ((requestAction op).toString = operationName op))

/-! ## Operations with an action of their own name -/

/-- If the names agree, a statement that names the operation matches its action. -/
theorem matchesAction_of_namesOperation {op : String} (halike : NamedAlike op)
    {stmt : PolicyStatement} (h : stmt.namesOperation op = true) :
    stmt.matchesAction (requestAction op) = true := by
  unfold PolicyStatement.namesOperation at h
  unfold PolicyStatement.matchesAction
  rw [anyActionMatches_iff, halike]
  exact List.any_eq_true.mp h

/-- If the names agree, a denial of the operation is a denial of its action. -/
theorem PoliciesDecide.of_operationDenied {iam : IamStore} {username op : String}
    {resource : Resource} (halike : NamedAlike op)
    (h : iam.OperationDenied username op resource) :
    PoliciesDecide (iam.allPolicies username) .deny (requestAction op) resource := by
  obtain ⟨policy, hpolicy, stmt, hstmt, hdeny, hnames, hresource⟩ := h
  refine ⟨policy, hpolicy, stmt, hstmt, ?_, hdeny⟩
  unfold PolicyStatement.matches
  rw [matchesAction_of_namesOperation halike hnames, hresource]
  rfl

/-- A request that is not root's is refused exactly when a statement denies its
action or none allows it. -/
theorem isAuthorized_eq_false_iff {iam : IamStore} {username : String}
    (hname : iam.isRootName username = false) (action : Action) (resource : Resource) :
    iam.isAuthorized username action resource = false ↔
      PoliciesDecide (iam.allPolicies username) .deny action resource ∨
        ¬PoliciesDecide (iam.allPolicies username) .allow action resource := by
  have hauth := isAuthorized_iff hname action resource
  rw [← Bool.not_eq_true, hauth]
  by_cases hdeny : PoliciesDecide (iam.allPolicies username) .deny action resource
  · simp [hdeny]
  · simp [hdeny]

/-- **One request**: the denial of its operation binds exactly when there is none,
or when the sender is not root and the statements decide against the operation's
action. -/
theorem operationDenyBinds_iff (iam : IamStore) (username op : String) (resource : Resource) :
    iam.OperationDenyBinds username op resource ↔
      ¬iam.OperationDenied username op resource ∨
      iam.isRootName username = false ∧
        (PoliciesDecide (iam.allPolicies username) .deny (requestAction op) resource ∨
          ¬PoliciesDecide (iam.allPolicies username) .allow (requestAction op) resource) := by
  unfold IamStore.OperationDenyBinds
  cases hname : iam.isRootName username with
  | true => simp [isAuthorized_root hname]
  | false =>
      have hrefused := isAuthorized_eq_false_iff hname (requestAction op) resource
      rw [hrefused, imp_iff_not_or]
      simp

/-! ## A denial of one operation beside an allowance of all -/

/-- `alice` may do everything but the one operation. -/
def allBut (op : String) : IamStore where
  rootAccessKey := "ROOTKEY"
  rootSecretKey := "root-secret"
  db :=
    { users := [User.create "alice" 0]
      userPolicies := [{ username := "alice"
                         policyName := "all-but"
                         policyDocument := some
                           { name := "all-but"
                             statements := [{ effect := .allow, actions := ["s3:*"],
                                              resources := ["*"] },
                                            { effect := .deny, actions := [operationName op],
                                              resources := ["*"] }] } }] }

/-- The one policy of `alice`. -/
theorem allPolicies_allBut (op : String) :
    (allBut op).allPolicies "alice" =
      [{ name := "all-but"
         statements := [{ effect := .allow, actions := ["s3:*"], resources := ["*"] },
                        { effect := .deny, actions := [operationName op],
                          resources := ["*"] }] }] :=
  rfl

/-- An operation's name in policies is plain if the operation's is. -/
theorem operationName_plain {op : String} (hplain : ∀ c ∈ op.toList, c ≠ '*' ∧ c ≠ '?') :
    ∀ c ∈ (operationName op).toList, c ≠ '*' ∧ c ≠ '?' := by
  intro c hc
  rw [operationName, String.toList_append, List.mem_append] at hc
  rcases hc with hc | hc
  · have hhead : "s3:".toList = ['s', '3', ':'] := rfl
    rw [hhead] at hc
    simp only [List.mem_cons, List.not_mem_nil, or_false] at hc
    rcases hc with rfl | rfl | rfl
    all_goals exact ⟨by decide, by decide⟩
  · exact hplain c hc

/-- The operation is denied to `alice`. -/
theorem operationDenied_allBut {op : String} (hplain : ∀ c ∈ op.toList, c ≠ '*' ∧ c ≠ '?')
    (resource : Resource) : (allBut op).OperationDenied "alice" op resource := by
  refine ⟨_, List.mem_singleton_self _, _, List.mem_cons_of_mem _ (List.mem_singleton_self _),
    rfl, ?_, ?_⟩
  · refine List.any_eq_true.mpr ⟨operationName op, List.mem_singleton_self _, ?_⟩
    exact (matchesWildcard_plain (operationName_plain hplain) _).mpr rfl
  · exact (anyResourceMatches_iff _ _).mpr ⟨"*", List.mem_singleton_self _, if_pos rfl⟩

/-- If the names do not agree, nothing denies `alice` the operation's action. -/
theorem isAuthorized_allBut {op : String} (hplain : ∀ c ∈ op.toList, c ≠ '*' ∧ c ≠ '?')
    (hother : ¬NamedAlike op) (resource : Resource) :
    (allBut op).isAuthorized "alice" (requestAction op) resource = true := by
  have hanywhere (stmt : PolicyStatement) (h : stmt.resources = ["*"]) :
      stmt.matchesResource resource = true := by
    unfold PolicyStatement.matchesResource
    rw [h]
    exact (anyResourceMatches_iff _ _).mpr ⟨"*", List.mem_singleton_self _, if_pos rfl⟩
  refine (isAuthorized_iff (by rfl) _ _).mpr ⟨?_, ?_⟩
  · refine ⟨_, List.mem_singleton_self _, _, List.mem_cons_self, ?_, rfl⟩
    unfold PolicyStatement.matches
    rw [hanywhere _ rfl, Bool.and_true]
    exact (anyActionMatches_iff _ _).mpr
      ⟨"s3:*", List.mem_singleton_self _, matchesWildcard_everyAction _⟩
  · intro hdenies
    obtain ⟨policy, hpolicy, stmt, hstmt, hmatches, hdeny⟩ := hdenies
    rw [allPolicies_allBut, List.mem_singleton] at hpolicy
    subst hpolicy
    have hlast : stmt = { effect := .deny, actions := [operationName op],
                          resources := ["*"] } := by
      simp only [List.mem_cons, List.not_mem_nil, or_false] at hstmt
      rcases hstmt with rfl | rfl
      · exact absurd hdeny (by decide)
      · rfl
    subst hlast
    obtain ⟨haction, -⟩ := (Bool.and_eq_true _ _).mp hmatches
    obtain ⟨pattern, hpattern, hfits⟩ := (anyActionMatches_iff _ _).mp haction
    obtain rfl := List.mem_singleton.mp hpattern
    exact hother ((matchesWildcard_plain (operationName_plain hplain) _).mp hfits)

/-! ## Which denials bind -/

/-- No operation of the service has a name with a wildcard in it. -/
theorem checkedOperations_plain :
    ∀ op ∈ checkedOperations, ∀ c ∈ op.toList, c ≠ '*' ∧ c ≠ '?' := by
  have hall : (checkedOperations.all fun op => op.toList.all fun c => c != '*' && c != '?') =
      true := by
    decide +kernel
  intro op hop c hc
  have hchar := List.all_eq_true.mp (List.all_eq_true.mp hall op hop) c hc
  simpa using hchar

/-- The operations whose denials bind. -/
theorem binding_operations :
    checkedOperations.filter NamedAlike =
      ["AbortMultipartUpload", "CreateBucket", "DeleteBucket", "DeleteBucketTagging",
        "DeleteObject", "GetBucketLocation", "GetBucketTagging", "GetBucketVersioning",
        "GetObject", "HeadBucket", "HeadObject", "PutBucketTagging", "PutBucketVersioning",
        "PutObject"] := by
  decide +kernel

end Strix

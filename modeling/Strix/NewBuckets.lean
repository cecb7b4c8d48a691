import Strix.AnonymousRequests
import Strix.AuditRecords
import Strix.IamCalls
import Strix.PolicyDocuments

/-!
# Policies of new buckets

Buckets live in the store's database, and the policies that decide who may use them in
the IAM database, under the names of the buckets.  `delete_bucket` removes what the
store knows of a bucket; nothing removes its policy.

* `getBucketPolicy_after`: the policy of a name is the one that was last set and has not
  been deleted since, whatever happened to buckets of the name;
* `startsWithoutPolicy_iff`: so a new bucket starts without a policy exactly if none is
  standing that matches some request.
-/

namespace Strix

open MachineRuns RowTable

/-! ## Buckets and their policies -/

/-- `delete_bucket_policy`. -/
def IamStore.deleteBucketPolicy (iam : IamStore) (bucket : String) :
    Except IamError Unit × IamStore :=
  reportRows iam.db.bucketPolicies (·.bucket == bucket)
    (.policyNotFound ("Bucket policy for '" ++ bucket ++ "'")) iam
    { iam with db := { iam.db with
        bucketPolicies := deleteRows (·.bucket == bucket) iam.db.bucketPolicies } }

/-- The S3 service and the IAM store that it asks. -/
structure PolicyWorld where
  service : ServiceWorld
  iam : IamStore

/-- What may happen: requests to the S3 service, the calls of the store that the admin
API makes of it, its handlers for bucket policies, and other calls of the IAM store.  The
body of `set_bucket_policy` is what the `Json` extractor is given. -/
inductive BucketOp
  | s3 (req : S3Request)
  | createBucket (bucket : String) (opts : CreateBucketOpts)
  | deleteBucket (bucket : String)
  | setBucketPolicy (bucket : String) (body : Value)
  | deleteBucketPolicy (bucket : String)
  | iam (now : DateTime) (call : IamCall)

/-- Was the operation carried out? -/
def succeeded {ε α : Type} : Except ε α → Bool
  | .ok _ => true
  | .error _ => false

/-- The request is checked against the IAM store as it is. -/
def S3Request.against (req : S3Request) (iam : IamStore) : S3Request :=
  { req with caller := { req.caller with auth := { req.caller.auth with iam := some iam } } }

section Runs

variable (P : Platform) (uuid : Nat → String) (keys : IamKeys)

/-- Carry an operation out. -/
def BucketOp.perform (s : PolicyWorld) : BucketOp → Bool × PolicyWorld
  | .s3 req =>
    let (answer, service) := (req.against s.iam).serve P uuid s.service
    (succeeded answer, { s with service })
  | .createBucket bucket opts =>
    let (answer, store) := (Strix.createBucket bucket opts).run s.service.store
    (succeeded answer, { s with service := { s.service with store } })
  | .deleteBucket bucket =>
    let (answer, store) := (Strix.deleteBucket bucket).run s.service.store
    (succeeded answer, { s with service := { s.service with store } })
  | .setBucketPolicy bucket body =>
    match body.asBucketPolicy with
    | some policy => (true, { s with iam := s.iam.setBucketPolicy bucket policy })
    | none => (false, s)
  | .deleteBucketPolicy bucket =>
    let (answer, after) := s.iam.deleteBucketPolicy bucket
    (succeeded answer, { s with iam := after })
  | .iam now call =>
    let (answer, after) := call.perform keys now s.iam
    (succeeded answer, { s with iam := after })

/-- The runs of operations. -/
def bucketRuns (start : PolicyWorld) : Machine PolicyWorld BucketOp Bool where
  init := start
  step s op := op.perform P uuid keys s

/-- The operation creates a bucket, through the S3 service or the admin API. -/
def BucketOp.Creates (bucket : String) : BucketOp → Prop
  | .s3 req => ∃ region, req.call = .createBucket bucket region
  | .createBucket name _ => name = bucket
  | _ => False

/-- No bucket policy has a say on any request to the bucket. -/
def IamStore.Unpoliced (iam : IamStore) (bucket : String) : Prop :=
  ∀ principal action resource,
    iam.isAuthorizedByBucketPolicy bucket principal action resource = .ok none

/-- **Every new bucket of a run starts without a policy.** -/
def StartWithoutPolicy (start : PolicyWorld) (ops : List BucketOp) : Prop :=
  ∀ before op rest bucket, ops = before ++ op :: rest → op.Creates bucket →
    (bucketRuns P uuid keys start).reply
      ((bucketRuns P uuid keys start).after start before) op = true →
    ((bucketRuns P uuid keys start).after start (before ++ [op])).iam.Unpoliced bucket

/-! ## The policy that is standing -/

/-- The policy of a bucket after an update. -/
def BucketOp.update (bucket : String) (standing : Option BucketPolicy) :
    BucketOp → Option BucketPolicy
  | .setBucketPolicy name body =>
    if name = bucket then body.asBucketPolicy.or standing else standing
  | .deleteBucketPolicy name => if name = bucket then none else standing
  | _ => standing

/-- **The policy that is standing**: the one that was last set, unless it has been deleted
since. -/
def standing (bucket : String) (ops : List BucketOp) : Option BucketPolicy :=
  ops.foldl (BucketOp.update bucket) none

/-- The policy matches no request. -/
def BucketPolicy.Idle (policy : BucketPolicy) : Prop :=
  ∀ principal action resource, policy.evaluate principal action resource = none

/-- No bucket is created while a policy of its name is standing that matches some
request. -/
def CreateUnderIdle (start : PolicyWorld) (ops : List BucketOp) : Prop :=
  ∀ before op rest bucket, ops = before ++ op :: rest → op.Creates bucket →
    (bucketRuns P uuid keys start).reply
      ((bucketRuns P uuid keys start).after start before) op = true →
    ∀ policy, standing bucket before = some policy → policy.Idle

end Runs

/-! ## Policies in the IAM database -/

section Policies

variable {iam : IamStore} {bucket name : String}

/-- The policies of other buckets stay. -/
theorem getBucketPolicy_setBucketPolicy_other (policy : BucketPolicy) (h : name ≠ bucket) :
    (iam.setBucketPolicy name policy).getBucketPolicy bucket = iam.getBucketPolicy bucket := by
  have hkept : (iam.db.bucketPolicies.filter fun row => !(row.bucket == name)).find?
      (·.bucket == bucket) = iam.db.bucketPolicies.find? (·.bucket == bucket) := by
    rw [List.find?_filter]
    congr 1
    funext row
    by_cases hrow : row.bucket = bucket
    · simp [hrow, Ne.symm h]
    · simp [hrow]
  simp [IamStore.setBucketPolicy, IamStore.getBucketPolicy, List.find?_append, hkept, h]

/-- A deleted policy is gone, and the others stay. -/
theorem getBucketPolicy_deleteBucketPolicy :
    (iam.deleteBucketPolicy name).2.getBucketPolicy bucket =
      if name = bucket then .ok none else iam.getBucketPolicy bucket := by
  unfold IamStore.deleteBucketPolicy IamStore.reportRows
  by_cases hsame : name = bucket
  · subst hsame
    rw [if_pos rfl]
    by_cases hany : iam.db.bucketPolicies.any (·.bucket == name) = true
    · rw [if_pos hany]
      have hnone : (deleteRows (·.bucket == name) iam.db.bucketPolicies).find?
          (·.bucket == name) = none := by
        rw [List.find?_eq_none]
        intro row hrow
        simpa using (mem_deleteRows.mp hrow).2
      simp [IamStore.getBucketPolicy, hnone]
    · rw [if_neg hany]
      have hnone : iam.db.bucketPolicies.find? (·.bucket == name) = none := by
        simpa [List.find?_eq_none] using hany
      simp [IamStore.getBucketPolicy, hnone]
  · rw [if_neg hsame]
    split
    · have hkept : (deleteRows (·.bucket == name) iam.db.bucketPolicies).find?
          (·.bucket == bucket) = iam.db.bucketPolicies.find? (·.bucket == bucket) := by
        rw [deleteRows, List.find?_filter]
        congr 1
        funext row
        by_cases hrow : row.bucket = bucket
        · simp [hrow, Ne.symm hsame]
        · simp [hrow]
      simp [IamStore.getBucketPolicy, hkept]
    · rfl

/-- **A bucket has no policy that says anything** exactly if its policy is idle. -/
theorem unpoliced_iff {policy : Option BucketPolicy} (h : iam.getBucketPolicy bucket = .ok policy) :
    iam.Unpoliced bucket ↔ ∀ p, policy = some p → p.Idle := by
  unfold IamStore.Unpoliced IamStore.isAuthorizedByBucketPolicy
  rw [h]
  cases policy with
  | none =>
      refine iff_of_true (fun _ _ _ => rfl) fun p hp => ?_
      cases hp
  | some policy =>
      constructor
      · intro hanswers p hp principal action resource
        obtain rfl := Option.some.inj hp
        exact Except.ok.inj (hanswers principal action resource)
      · intro hidle principal action resource
        exact congrArg Except.ok (hidle policy rfl principal action resource)

/-- Other calls of the IAM store leave the policies of buckets alone. -/
theorem bucketPolicies_perform (keys : IamKeys) (now : DateTime) (iam : IamStore)
    (call : IamCall) : (call.perform keys now iam).2.db.bucketPolicies = iam.db.bucketPolicies := by
  cases call
  all_goals
    simp only [IamCall.perform, forgetResult, IamStore.createUser, IamStore.deleteUser,
      IamStore.updateUserStatus, IamStore.setUserPassword, IamStore.createAccessKey,
      IamStore.deleteAccessKey, IamStore.updateAccessKeyStatus,
      IamStore.updateAccessKeyLastUsed, IamStore.attachUserPolicy, IamStore.detachUserPolicy,
      IamStore.createGroup, IamStore.deleteGroup, IamStore.addUserToGroup,
      IamStore.removeUserFromGroup, IamStore.attachGroupPolicy, IamStore.detachGroupPolicy,
      IamStore.createPolicy, IamStore.deletePolicy, IamStore.assumeRole, IamStore.reportRows,
      IamStore.deleteUserRows]
    repeat' split
  all_goals rfl

end Policies

/-! ## Runs -/

section Runs

variable {P : Platform} {uuid : Nat → String} {keys : IamKeys} {bucket : String}

/-- **One operation** changes the policy of a bucket as an update does, and no other way. -/
theorem getBucketPolicy_perform {s : PolicyWorld} {policy : Option BucketPolicy}
    (h : s.iam.getBucketPolicy bucket = .ok policy) (op : BucketOp) :
    (op.perform P uuid keys s).2.iam.getBucketPolicy bucket = .ok (op.update bucket policy) := by
  cases op with
  | s3 req => exact h
  | createBucket name opts => exact h
  | deleteBucket name => exact h
  | setBucketPolicy name body =>
      simp only [BucketOp.perform, BucketOp.update]
      cases hbody : body.asBucketPolicy with
      | none =>
          rw [Option.none_or, ite_self]
          exact h
      | some read =>
          dsimp only
          by_cases hname : name = bucket
          · subst hname
            rw [if_pos rfl]
            exact getBucketPolicy_setBucketPolicy s.iam name
              (noNullCondition_of_asBucketPolicy hbody)
          · rw [if_neg hname, getBucketPolicy_setBucketPolicy_other read hname]
            exact h
  | deleteBucketPolicy name =>
      simp only [BucketOp.perform, BucketOp.update]
      rw [getBucketPolicy_deleteBucketPolicy]
      split
      · rfl
      · exact h
  | iam now call =>
      have hsame := bucketPolicies_perform keys now s.iam call
      simp only [BucketOp.perform, BucketOp.update]
      rw [← h]
      unfold IamStore.getBucketPolicy
      rw [hsame]

/-- **The policy of a bucket after a run** is what the updates of the run make of it. -/
theorem getBucketPolicy_after {start s : PolicyWorld} {policy : Option BucketPolicy}
    (h : s.iam.getBucketPolicy bucket = .ok policy) (ops : List BucketOp) :
    ((bucketRuns P uuid keys start).after s ops).iam.getBucketPolicy bucket =
      .ok (ops.foldl (BucketOp.update bucket) policy) := by
  induction ops generalizing s policy with
  | nil => exact h
  | cons op ops ih => exact ih (getBucketPolicy_perform h op)

/-- Creating a bucket changes no policy. -/
theorem standing_creates {op : BucketOp} {before : List BucketOp} (h : op.Creates bucket) :
    standing bucket (before ++ [op]) = standing bucket before := by
  unfold standing
  rw [List.foldl_append, List.foldl_cons, List.foldl_nil]
  cases op with
  | s3 req => rfl
  | createBucket name opts => rfl
  | deleteBucket name => cases h
  | setBucketPolicy name body => cases h
  | deleteBucketPolicy name => cases h
  | iam now call => cases h

/-- **New buckets start without a policy** in exactly the runs that create none while a
policy of its name is standing that matches some request. -/
theorem startsWithoutPolicy_iff (P : Platform) (uuid : Nat → String) (keys : IamKeys)
    (start : PolicyWorld) (hstart : start.iam.db.bucketPolicies = []) (ops : List BucketOp) :
    StartWithoutPolicy P uuid keys start ops ↔ CreateUnderIdle P uuid keys start ops := by
  have hnone (bucket : String) : start.iam.getBucketPolicy bucket = .ok none := by
    simp [IamStore.getBucketPolicy, hstart]
  have hstep (before : List BucketOp) (op : BucketOp) (bucket : String)
      (hcreates : op.Creates bucket) :
      ((bucketRuns P uuid keys start).after start (before ++ [op])).iam.Unpoliced bucket ↔
        ∀ policy, standing bucket before = some policy → policy.Idle := by
    rw [unpoliced_iff (getBucketPolicy_after (hnone bucket) (before ++ [op])),
      ← standing_creates hcreates]
    rfl
  unfold StartWithoutPolicy CreateUnderIdle
  constructor
  · intro h before op rest bucket hsplit hcreates hok
    exact (hstep before op bucket hcreates).mp (h before op rest bucket hsplit hcreates hok)
  · intro h before op rest bucket hsplit hcreates hok
    exact (hstep before op bucket hcreates).mpr (h before op rest bucket hsplit hcreates hok)

end Runs

/-! ## A policy that outlives its bucket -/

/-- A request of root's. -/
def rootRequest (call : S3Call) : BucketOp :=
  .s3 { caller := rootCaller, headers := [], call }

/-- Everybody may read the bucket `docs`. -/
def openPolicy : BucketPolicy where
  statements := [
    { effect := .allow
      principal := .aws ["*"]
      actions := .single "s3:GetObject"
      resources := .single "arn:aws:s3:::docs/*" }]

/-- A server without buckets, users and policies. -/
def newServer : PolicyWorld where
  service := {}
  iam := emptyIam

/-- A bucket that is deleted and created again. -/
def recreateDocs : List BucketOp :=
  [rootRequest (.createBucket "docs" none), rootRequest (.deleteBucket "docs"),
    rootRequest (.createBucket "docs" none)]

/-- Without policies, there is none to start with. -/
theorem recreatedDocs_unpoliced :
    StartWithoutPolicy executablePlatform toString plainKeys newServer recreateDocs := by
  refine (startsWithoutPolicy_iff executablePlatform toString plainKeys newServer rfl _).mpr ?_
  intro before op rest bucket hsplit _ _ policy hstanding
  have hnone : standing bucket before = none := by
    rcases before with _ | ⟨first, _ | ⟨second, _ | ⟨third, before⟩⟩⟩
    · rfl
    all_goals
      simp only [recreateDocs, List.cons_append, List.nil_append, List.cons.injEq] at hsplit
    · obtain ⟨rfl, -⟩ := hsplit
      rfl
    · obtain ⟨rfl, rfl, -⟩ := hsplit
      rfl
    · simp at hsplit
  rw [hnone] at hstanding
  cases hstanding

/-- The bucket is opened to everybody before it is deleted. -/
def openDocs : List BucketOp :=
  [rootRequest (.createBucket "docs" none), .setBucketPolicy "docs" openPolicy.toValue,
    rootRequest (.deleteBucket "docs")]

/-- **The new bucket is open to everybody**, as the old one was. -/
theorem recreatedDocs_open :
    let runs := bucketRuns executablePlatform toString plainKeys newServer
    let create := rootRequest (.createBucket "docs" none)
    runs.reply (runs.after newServer openDocs) create = true ∧
      (runs.after newServer (openDocs ++ [create])).iam.isAuthorizedByBucketPolicy "docs"
        .anonymous .getObject (.object "docs" "secret") = .ok (some .allow) ∧
      ¬ StartWithoutPolicy executablePlatform toString plainKeys newServer
        (openDocs ++ [create]) := by
  intro runs create
  have hcreated : runs.reply (runs.after newServer openDocs) create = true := by decide +kernel
  have hallowed : (runs.after newServer (openDocs ++ [create])).iam.isAuthorizedByBucketPolicy
      "docs" .anonymous .getObject (.object "docs" "secret") = .ok (some .allow) := by
    decide +kernel
  refine ⟨hcreated, hallowed, fun hall => ?_⟩
  have hnone := hall openDocs create [] "docs" rfl ⟨none, rfl⟩ hcreated .anonymous .getObject
    (.object "docs" "secret")
  exact absurd (hallowed.symm.trans hnone) (by decide)

end Strix

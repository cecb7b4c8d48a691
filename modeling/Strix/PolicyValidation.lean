import Strix.Buckets
import Strix.PolicyPatterns

/-!
# Validation of policies

`validate_policy` and `validate_bucket_policy` go through the statements of a
document and collect what is wrong with their actions and resources.  A resource
of a bucket policy passes if it contains `:::` and the bucket's name; what it is
compared with later is decided by `matches_wildcard`.

* `validateBucketPolicy_ok_iff`: which bucket policies are accepted;
* `speaksOnlyFor_iff`: for which patterns an accepted policy matches resources of
  its own bucket only;
* `docsPolicy_speaksFor_docsPrivate`: an accepted policy for `docs` matches the
  objects of `docs-private`.
-/

namespace Strix

open Wildcards

/-! ## What is checked -/

/-- Validation error for policies. -/
structure PolicyValidationError where
  message : String
  location : Option String
  deriving DecidableEq

/-- The parts of `str::splitn`: at most `n`, the last one with the rest. -/
def splitN (separator : Char) : Nat → String → List String
  | 0, _ => []
  | 1, text => [text]
  | n + 1, text =>
      match splitOnce separator text with
      | none => [text]
      | some (part, rest) => part :: splitN separator n rest

/-- The actions that `is_valid_action` knows. -/
def knownActions : List String :=
  ["s3:*", "s3:GetObject", "s3:PutObject", "s3:DeleteObject", "s3:ListBucket",
    "s3:CreateBucket", "s3:DeleteBucket", "s3:HeadBucket", "s3:HeadObject", "s3:CopyObject",
    "s3:GetBucketLocation", "s3:GetBucketVersioning", "s3:PutBucketVersioning",
    "s3:GetBucketTagging", "s3:PutBucketTagging", "s3:DeleteBucketTagging",
    "s3:ListAllMyBuckets", "s3:ListBucketMultipartUploads", "s3:ListMultipartUploadParts",
    "s3:AbortMultipartUpload", "s3:GetBucketPolicy", "s3:PutBucketPolicy",
    "s3:DeleteBucketPolicy", "s3:GetBucketCors", "s3:PutBucketCors", "s3:DeleteBucketCors",
    "s3:GetBucketNotification", "s3:PutBucketNotification", "s3:GetObjectVersion",
    "s3:DeleteObjectVersion"]

section Validation

-- `char::is_alphanumeric`, by the tables of Unicode
variable (isAlphanumeric : Char → Bool)

/-- Check if an action string is valid. -/
def isValidAction (action : String) : Bool :=
  if action = "*" then true
  else if !startsWith action "s3:" then false
  else if knownActions.contains action then true
  else if action.toList.contains '*' then true
  else
    match sliceFrom action 3 with
    | some name => 3 < byteLen action && name.toList.all isAlphanumeric
    | none => false

/-- Check if a resource ARN is valid. -/
def isValidResource (resource : String) : Bool :=
  if resource = "*" then true
  else if !startsWith resource "arn:" then false
  else
    match splitN ':' 6 resource with
    | [_, _, service, _, _, _] => service == "s3" || service == "aws" || service == "*"
    | _ => false

/-- What is wrong with the actions of the statement at `loc`. -/
def actionErrors (loc : String) (actions : List String) : List PolicyValidationError :=
  (if actions.isEmpty then
    [{ message := "Statement must have at least one action", location := some (loc ++ ".Action") }]
  else []) ++
  actions.zipIdx.flatMap fun (action, j) =>
    if isValidAction isAlphanumeric action then []
    else
      [{ message := "Invalid action: " ++ action
         location := some (loc ++ ".Action[" ++ toString j ++ "]") }]

/-- What is wrong with the resources of the statement at `loc`; `further` is what
else there is to say about one. -/
def resourceErrors (further : String → List String) (loc : String) (resources : List String) :
    List PolicyValidationError :=
  (if resources.isEmpty then
    [{ message := "Statement must have at least one resource"
       location := some (loc ++ ".Resource") }]
  else []) ++
  resources.zipIdx.flatMap fun (resource, j) =>
    ((if isValidResource resource then [] else ["Invalid resource ARN: " ++ resource]) ++
        further resource).map fun message =>
      { message := message, location := some (loc ++ ".Resource[" ++ toString j ++ "]") }

/-- The place of a statement. -/
def statementLoc (i : Nat) : String := "Statement[" ++ toString i ++ "]"

/-- The verdict on a document with these errors. -/
def verdictOf (errors : List PolicyValidationError) : Except (List PolicyValidationError) Unit :=
  if errors.isEmpty then .ok () else .error errors

/-- Validate an IAM policy. -/
def validatePolicy (policy : Policy) : Except (List PolicyValidationError) Unit :=
  verdictOf <|
    (if policy.name = "" then
      [{ message := "Policy name cannot be empty", location := some "name" }]
    else []) ++
    (if policy.statements.isEmpty then
      [{ message := "Policy must have at least one statement", location := some "Statement" }]
    else []) ++
    policy.statements.zipIdx.flatMap fun (stmt, i) =>
      actionErrors isAlphanumeric (statementLoc i) stmt.actions ++
        resourceErrors (fun _ => []) (statementLoc i) stmt.resources

/-- The resource contains the bucket's name behind `:::`. -/
def referencesBucket (bucket resource : String) : Bool :=
  resource == "*" || (textBefore resource (":::" ++ bucket)).isSome

/-- The message about a resource that does not mention the bucket. -/
def foreignResource (bucket resource : String) : List String :=
  if referencesBucket bucket resource then []
  else ["Resource " ++ resource ++ " does not reference bucket " ++ bucket]

/-- Validate a bucket policy. -/
def validateBucketPolicy (policy : BucketPolicy) (bucket : String) :
    Except (List PolicyValidationError) Unit :=
  verdictOf <|
    (if policy.statements.isEmpty then
      [{ message := "Bucket policy must have at least one statement"
         location := some "Statement" }]
    else []) ++
    policy.statements.zipIdx.flatMap fun (stmt, i) =>
      actionErrors isAlphanumeric (statementLoc i) stmt.actions.patterns ++
        resourceErrors (foreignResource bucket) (statementLoc i) stmt.resources.patterns

end Validation

/-! ## What is accepted -/

/-- Nothing is said about numbered items exactly if nothing is said about any. -/
theorem flatMap_zipIdx_eq_nil {α β : Type*} {items : List α} {f : α × Nat → List β}
    {P : α → Prop} (h : ∀ a i, f (a, i) = [] ↔ P a) :
    items.zipIdx.flatMap f = [] ↔ ∀ a ∈ items, P a := by
  rw [List.flatMap_eq_nil_iff]
  constructor
  · intro hall a ha
    obtain ⟨i, hi, rfl⟩ := List.mem_iff_getElem.mp ha
    have hmem : (items[i], i) ∈ items.zipIdx := by
      rw [List.mk_mem_zipIdx_iff_getElem?, List.getElem?_eq_getElem hi]
    exact (h _ i).mp (hall _ hmem)
  · intro hall item hitem
    obtain ⟨a, i⟩ := item
    exact (h a i).mpr (hall a (List.fst_mem_of_mem_zipIdx hitem))

theorem verdictOf_ok_iff {errors : List PolicyValidationError} :
    verdictOf errors = .ok () ↔ errors = [] := by
  cases errors with
  | nil => simp [verdictOf]
  | cons e errors => simp [verdictOf]

theorem actionErrors_eq_nil {isAlphanumeric : Char → Bool} {loc : String}
    {actions : List String} :
    actionErrors isAlphanumeric loc actions = [] ↔
      actions ≠ [] ∧ ∀ action ∈ actions, isValidAction isAlphanumeric action = true := by
  unfold actionErrors
  rw [List.append_eq_nil_iff, @flatMap_zipIdx_eq_nil _ _ actions _
    (fun action => isValidAction isAlphanumeric action = true) fun action j => by simp]
  refine and_congr_left' ?_
  cases actions with
  | nil => simp
  | cons action actions => simp

theorem resourceErrors_eq_nil {further : String → List String} {loc : String}
    {resources : List String} :
    resourceErrors further loc resources = [] ↔
      resources ≠ [] ∧
        ∀ resource ∈ resources, isValidResource resource = true ∧ further resource = [] := by
  unfold resourceErrors
  rw [List.append_eq_nil_iff, @flatMap_zipIdx_eq_nil _ _ resources _
    (fun resource => isValidResource resource = true ∧ further resource = [])
    fun resource j => by rw [List.map_eq_nil_iff, List.append_eq_nil_iff]; simp]
  refine and_congr_left' ?_
  cases resources with
  | nil => simp
  | cons resource resources => simp

/-- **The bucket policies that are accepted** have statements, and every statement
has actions and resources, all of them valid, the resources with the bucket's name
in them. -/
theorem validateBucketPolicy_ok_iff {isAlphanumeric : Char → Bool} {policy : BucketPolicy}
    {bucket : String} :
    validateBucketPolicy isAlphanumeric policy bucket = .ok () ↔
      policy.statements ≠ [] ∧
      ∀ stmt ∈ policy.statements,
        (stmt.actions.patterns ≠ [] ∧
          ∀ action ∈ stmt.actions.patterns, isValidAction isAlphanumeric action = true) ∧
        stmt.resources.patterns ≠ [] ∧
        ∀ resource ∈ stmt.resources.patterns,
          isValidResource resource = true ∧ referencesBucket bucket resource = true := by
  have hforeign (resource : String) :
      foreignResource bucket resource = [] ↔ referencesBucket bucket resource = true := by
    unfold foreignResource
    by_cases h : referencesBucket bucket resource = true
    · simp [h]
    · simp [h]
  unfold validateBucketPolicy
  rw [verdictOf_ok_iff, List.append_eq_nil_iff, @flatMap_zipIdx_eq_nil _ _ policy.statements _
    (fun stmt =>
      (stmt.actions.patterns ≠ [] ∧
        ∀ action ∈ stmt.actions.patterns, isValidAction isAlphanumeric action = true) ∧
      stmt.resources.patterns ≠ [] ∧
      ∀ resource ∈ stmt.resources.patterns,
        isValidResource resource = true ∧ foreignResource bucket resource = [])
    fun stmt i => by rw [List.append_eq_nil_iff, actionErrors_eq_nil, resourceErrors_eq_nil]]
  simp only [hforeign]
  refine and_congr_left' ?_
  cases policy.statements with
  | nil => simp
  | cons stmt statements => simp

/-- The IAM policies that are accepted. -/
theorem validatePolicy_ok_iff {isAlphanumeric : Char → Bool} {policy : Policy} :
    validatePolicy isAlphanumeric policy = .ok () ↔
      policy.name ≠ "" ∧ policy.statements ≠ [] ∧
      ∀ stmt ∈ policy.statements,
        (stmt.actions ≠ [] ∧
          ∀ action ∈ stmt.actions, isValidAction isAlphanumeric action = true) ∧
        stmt.resources ≠ [] ∧
        ∀ resource ∈ stmt.resources, isValidResource resource = true := by
  unfold validatePolicy
  rw [verdictOf_ok_iff, List.append_eq_nil_iff, List.append_eq_nil_iff, and_assoc,
    @flatMap_zipIdx_eq_nil _ _ policy.statements _
      (fun stmt =>
        (stmt.actions ≠ [] ∧
          ∀ action ∈ stmt.actions, isValidAction isAlphanumeric action = true) ∧
        stmt.resources ≠ [] ∧
        ∀ resource ∈ stmt.resources, isValidResource resource = true ∧ ([] : List String) = [])
      fun stmt i => by rw [List.append_eq_nil_iff, actionErrors_eq_nil, resourceErrors_eq_nil]]
  simp only [and_true]
  refine and_congr ?_ (and_congr_left' ?_)
  · by_cases hname : policy.name = ""
    · simp [hname]
    · simp [hname]
  · cases policy.statements with
    | nil => simp
    | cons stmt statements => simp

/-! ## Which resources a pattern speaks for -/

/-- A text that a bucket's name could be. -/
def IsBucketText (name : String) : Prop :=
  name ≠ "" ∧ ∀ c ∈ name.toList, bucketNameChar c = true

/-- **Every resource that the pattern matches belongs to the bucket.** -/
def SpeaksOnlyFor (bucket pattern : String) : Prop :=
  ∀ (resource : Resource) (name : String), resource.bucket = some name → IsBucketText name →
    matchesWildcard pattern resource.toString = true → name = bucket

/-- The part could match a bucket's name. -/
def CouldBeName (part : List Char) : Prop :=
  part ≠ [] ∧ ∀ c ∈ part, c = '*' ∨ c = '?' ∨ bucketNameChar c = true

instance (part : List Char) : Decidable (CouldBeName part) :=
  decidable_of_iff
    (part ≠ [] ∧ (part.all fun c => c == '*' || c == '?' || bucketNameChar c) = true)
    (and_congr_right fun _ => by simp [or_assoc])

/-- The part is empty, or can go on with a slash. -/
def CouldBeBehind (part : List Char) : Prop :=
  ∀ c ∈ part.take 1, c = '*' ∨ c = '?' ∨ c = '/'

instance (part : List Char) : Decidable (CouldBeBehind part) :=
  decidable_of_iff (((part.take 1).all fun c => c == '*' || c == '?' || c == '/') = true)
    (by simp [CouldBeBehind, or_assoc])

/-- **The pattern spells the bucket's name.**  Wherever it is cut (a `*` may go to
both parts) into a part that matches `arn:aws:s3:::`, a part that could match a
bucket's name and one that is empty or can go on with a slash, the second part is
the bucket's name. -/
def SpellsBucket (bucket pattern : String) : Prop :=
  ∀ cut ∈ cuts (· == '*') pattern.toList,
    matchesWildcard (String.ofList cut.1) arnHead = true →
    ∀ parts ∈ cuts (· == '*') cut.2,
      CouldBeName parts.1 → CouldBeBehind parts.2 → parts.1 = bucket.toList

instance (bucket pattern : String) : Decidable (SpellsBucket bucket pattern) := by
  unfold SpellsBucket
  infer_instance

/-- The name of a resource: the head, the bucket's name and what comes behind. -/
theorem Resource.toList_toString {resource : Resource} {name : String}
    (h : resource.bucket = some name) :
    ∃ tail, Behind '/' tail ∧
      resource.toString.toList = arnHead.toList ++ (name.toList ++ tail) := by
  obtain ⟨bucket, key⟩ := resource
  obtain rfl : bucket = some name := h
  cases key with
  | none =>
      refine ⟨[], ?_, ?_⟩
      · intro c hc
        cases hc
      · simp [Resource.toString, arnHead]
  | some key =>
      refine ⟨'/' :: key.toList, ?_, ?_⟩
      · intro c hc
        exact (Option.some.inj hc).symm
      · simp [Resource.toString, arnHead]

/-- Every such text is the name of a resource. -/
theorem exists_resource (name : String) {tail : List Char} (h : Behind '/' tail) :
    ∃ resource : Resource, resource.bucket = some name ∧
      resource.toString.toList = arnHead.toList ++ (name.toList ++ tail) := by
  cases tail with
  | nil =>
      exact ⟨Resource.ofBucket name, rfl,
        by simp [Resource.ofBucket, Resource.toString, arnHead]⟩
  | cons c key =>
      obtain rfl := h c rfl
      exact ⟨Resource.object name (String.ofList key), rfl,
        by simp [Resource.object, Resource.toString, arnHead]⟩

theorem isMany_wildOf (c : Char) : (wildOf c).isMany = (c == '*') := by
  unfold wildOf
  by_cases hmany : c = '*'
  · simp [hmany, Wild.isMany]
  · by_cases hone : c = '?'
    · simp [hone, Wild.isMany]
    · simp [hmany, hone, Wild.isMany]

/-- The cuts of a pattern's symbols are those of its characters. -/
theorem cuts_wildOf (pattern : List Char) :
    cuts Wild.isMany (pattern.map wildOf) =
      (cuts (· == '*') pattern).map fun cut => (cut.1.map wildOf, cut.2.map wildOf) := by
  rw [cuts_map]
  simp only [isMany_wildOf]

/-- A character stands for itself only if it is no wildcard. -/
theorem wildOf_eq_lit {c d : Char} : wildOf c = .lit d ↔ c ≠ '*' ∧ c ≠ '?' ∧ c = d := by
  unfold wildOf
  by_cases hmany : c = '*'
  · simp [hmany]
  · by_cases hone : c = '?'
    · simp [hone]
    · simp [hmany, hone]

/-- Only symbols of a name: what could match one. -/
theorem within_wildOf {ok : Char → Prop} {part : List Char} :
    Within ok (part.map wildOf) ↔ ∀ c ∈ part, c = '*' ∨ c = '?' ∨ ok c := by
  constructor
  · intro h c hc
    by_cases hmany : c = '*'
    · exact Or.inl hmany
    · by_cases hone : c = '?'
      · exact Or.inr (Or.inl hone)
      · refine Or.inr (Or.inr (h c ?_))
        exact List.mem_map.mpr ⟨c, hc, wildOf_eq_lit.mpr ⟨hmany, hone, rfl⟩⟩
  · intro h d hd
    obtain ⟨c, hc, hlit⟩ := List.mem_map.mp hd
    obtain ⟨hmany, hone, rfl⟩ := wildOf_eq_lit.mp hlit
    exact ((h c hc).resolve_left hmany).resolve_left hone

theorem opens_wildOf {part : List Char} :
    Opens '/' (part.map wildOf) ↔ CouldBeBehind part := by
  cases part with
  | nil => simp [Opens, CouldBeBehind]
  | cons c part =>
      have hcovers : Covers (wildOf c) ['/'] ↔ c = '*' ∨ c = '?' ∨ c = '/' := by
        rw [covers_wildOf, Replaces]
        by_cases hmany : c = '*'
        · simp [hmany]
        · by_cases hone : c = '?'
          · simp [hone]
          · simp [hmany, hone, eq_comm]
      simpa [Opens, CouldBeBehind] using hcovers

/-- A part of a pattern spells a name without wildcards if it is that name. -/
theorem map_wildOf_eq_lits {part own : List Char} (hown : ∀ c ∈ own, c ≠ '*' ∧ c ≠ '?') :
    part.map wildOf = own.map .lit ↔ part = own := by
  constructor
  · intro h
    induction part generalizing own with
    | nil => exact (List.map_eq_nil_iff.mp h.symm).symm
    | cons c part ih =>
        cases own with
        | nil => cases h
        | cons d own =>
            obtain ⟨hhead, htail⟩ := List.cons.inj h
            rw [(wildOf_eq_lit.mp hhead).2.2,
              ih (fun c hc => hown c (List.mem_cons_of_mem _ hc)) htail]
  · intro h
    rw [h]
    refine List.map_congr_left fun c hc => ?_
    obtain ⟨hmany, hone⟩ := hown c hc
    exact wildOf_eq_lit.mpr ⟨hmany, hone, rfl⟩

/-- The name of a bucket has no wildcards. -/
theorem plain_of_validate {bucket : String} (hbucket : validateBucketName bucket = .ok ()) :
    ∀ c ∈ bucket.toList, c ≠ '*' ∧ c ≠ '?' := by
  intro c hc
  have hchar := bucketNameChar_of_validate hbucket hc
  constructor
  · intro hmany
    rw [hmany] at hchar
    exact absurd hchar (by decide)
  · intro hone
    rw [hone] at hchar
    exact absurd hchar (by decide)

/-- **Which patterns speak only for the bucket**: those that spell its name
wherever a bucket's name is matched. -/
theorem speaksOnlyFor_iff {bucket : String} (hbucket : validateBucketName bucket = .ok ())
    (pattern : String) : SpeaksOnlyFor bucket pattern ↔ SpellsBucket bucket pattern := by
  have hplain := plain_of_validate hbucket
  have hconfined (back : List Char) :=
    @confined_iff Char (back.map wildOf) (fun c => bucketNameChar c = true) 'a' 'b' (by decide)
      (by decide) (by decide) '/' bucket.toList
  constructor
  · intro h cut hcut hhead parts hparts hname hopens
    obtain ⟨hnil, hin⟩ := hname
    rw [matchesWildcard_iff, String.toList_ofList] at hhead
    refine (map_wildOf_eq_lits hplain).mp ?_
    refine (hconfined cut.2).mp ?_ (parts.1.map wildOf) (parts.2.map wildOf) ?_ ?_
      (within_wildOf.mpr hin) (opens_wildOf.mpr hopens)
    · intro name tail hname hok htail hmatches
      obtain ⟨resource, hresource, htext⟩ := exists_resource (String.ofList name) htail
      have hown := h resource (String.ofList name) hresource ⟨?_, ?_⟩ ?_
      · rw [← hown, String.toList_ofList]
      · intro hempty
        exact hname (by simpa using congrArg String.toList hempty)
      · rwa [String.toList_ofList]
      · rw [matchesWildcard_iff, htext, String.toList_ofList]
        refine matches_of_cut ?_ hhead hmatches
        rw [cuts_wildOf]
        exact List.mem_map_of_mem hcut
    · rw [cuts_wildOf]
      exact List.mem_map_of_mem hparts
    · simpa using hnil
  · intro h resource name hname hok hmatches
    obtain ⟨tail, htail, htext⟩ := Resource.toList_toString hname
    rw [matchesWildcard_iff, htext, matches_append_text] at hmatches
    obtain ⟨front, back, hcut, hfront, hback⟩ := hmatches
    rw [cuts_wildOf] at hcut
    obtain ⟨cut, hcutmem, heq⟩ := List.mem_map.mp hcut
    obtain ⟨rfl, rfl⟩ := Prod.mk.inj heq
    have hhead : matchesWildcard (String.ofList cut.1) arnHead = true := by
      rw [matchesWildcard_iff, String.toList_ofList]
      exact hfront
    refine String.toList_inj.mp ((hconfined cut.2).mpr ?_ name.toList tail ?_ hok.2 htail hback)
    · intro first second hparts hnil hin hopens
      rw [cuts_wildOf] at hparts
      obtain ⟨parts, hpartsmem, heq⟩ := List.mem_map.mp hparts
      obtain ⟨rfl, rfl⟩ := Prod.mk.inj heq
      refine (map_wildOf_eq_lits hplain).mpr ?_
      exact h cut hcutmem hhead parts hpartsmem ⟨by simpa using hnil, within_wildOf.mp hin⟩
        (opens_wildOf.mp hopens)
    · intro hempty
      exact hok.1 (by simpa using congrArg String.ofList hempty)

/-! ## Accepted policies -/

/-- Every resource pattern of the policy but `*` speaks only for the bucket. -/
def BucketPolicy.SpeaksOnlyFor (policy : BucketPolicy) (bucket : String) : Prop :=
  ∀ stmt ∈ policy.statements, ∀ pattern ∈ stmt.resources.patterns, pattern ≠ "*" →
    Strix.SpeaksOnlyFor bucket pattern

/-- **An accepted policy speaks only for its bucket** exactly if its patterns spell
the bucket's name: that they contain it behind `:::` is not enough. -/
theorem acceptedPolicy_speaksOnlyFor_iff {isAlphanumeric : Char → Bool} {policy : BucketPolicy}
    {bucket : String} (hbucket : validateBucketName bucket = .ok ())
    (_haccepted : validateBucketPolicy isAlphanumeric policy bucket = .ok ()) :
    policy.SpeaksOnlyFor bucket ↔
      ∀ stmt ∈ policy.statements, ∀ pattern ∈ stmt.resources.patterns, pattern ≠ "*" →
        SpellsBucket bucket pattern := by
  unfold BucketPolicy.SpeaksOnlyFor
  refine forall₂_congr fun stmt _ => forall₂_congr fun pattern _ => ?_
  exact imp_congr_right fun _ => speaksOnlyFor_iff hbucket pattern

/-- A policy for everyone to read what the pattern describes. -/
def readPolicy (pattern : String) : BucketPolicy where
  statements :=
    [{ effect := .allow
       principal := .wildcard
       actions := .single "s3:GetObject"
       resources := .single pattern }]

/-- The usual policy is accepted and speaks for its bucket only. -/
theorem acceptedPolicy_speaksOnlyFor_docs :
    (readPolicy "arn:aws:s3:::docs/*").SpeaksOnlyFor "docs" := by
  have haccepted : validateBucketPolicy Char.isAlphanum (readPolicy "arn:aws:s3:::docs/*") "docs" =
      .ok () := by decide +kernel
  refine (acceptedPolicy_speaksOnlyFor_iff (by decide +kernel) haccepted).mpr ?_
  decide +kernel

/-- **A policy for another bucket is accepted**: `docs-private` starts with
`docs`. -/
theorem docsPolicy_speaksFor_docsPrivate :
    validateBucketName "docs" = .ok () ∧ validateBucketName "docs-private" = .ok () ∧
      validateBucketPolicy Char.isAlphanum (readPolicy "arn:aws:s3:::docs-private/*") "docs" =
        .ok () ∧
      matchesWildcard "arn:aws:s3:::docs-private/*"
        (Resource.object "docs-private" "payroll.csv").toString = true ∧
      ¬(readPolicy "arn:aws:s3:::docs-private/*").SpeaksOnlyFor "docs" := by
  refine ⟨by decide +kernel, by decide +kernel, by decide +kernel, by decide +kernel, ?_⟩
  intro h
  have hsame : "docs-private" = "docs" := by
    refine h _ (List.mem_singleton_self _) _ (List.mem_singleton_self _) (by decide)
      (Resource.object "docs-private" "payroll.csv") "docs-private" rfl ⟨by decide, ?_⟩
      (by decide +kernel)
    exact List.all_eq_true.mp (by decide +kernel)
  exact absurd hsame (by decide)

end Strix

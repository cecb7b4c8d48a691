import Strix.DenyOverrides
import Strix.IpAddresses
import Strix.JsonValues

/-!
# Policies

IAM policies and bucket policies and how one document is evaluated.  A
statement matches by wildcards on the names of the action and the resource;
statements of bucket policies also name principals and may carry conditions,
which `evaluateCondition` checks against what is known about the request.
Both kinds of document combine their statements by `DenyOverrides.run`.
-/

namespace Strix

export DenyOverrides (Effect)

/-- S3 API actions. -/
inductive Action
  | createBucket
  | deleteBucket
  | listBucket
  | headBucket
  | getBucketLocation
  | getBucketVersioning
  | putBucketVersioning
  | getBucketTagging
  | putBucketTagging
  | deleteBucketTagging
  | getObject
  | putObject
  | deleteObject
  | headObject
  | copyObject
  | listMultipartUploadParts
  | abortMultipartUpload
  | listAllMyBuckets
  | listBucketMultipartUploads
  | all
  deriving DecidableEq, Repr

namespace Action

/-- The action of an S3 API operation name. -/
def fromOperation : String → Option Action
  | "CreateBucket" => some createBucket
  | "DeleteBucket" => some deleteBucket
  | "ListBucket" => some listBucket
  | "ListObjects" => some listBucket
  | "ListObjectsV2" => some listBucket
  | "HeadBucket" => some headBucket
  | "GetBucketLocation" => some getBucketLocation
  | "GetBucketVersioning" => some getBucketVersioning
  | "PutBucketVersioning" => some putBucketVersioning
  | "GetBucketTagging" => some getBucketTagging
  | "PutBucketTagging" => some putBucketTagging
  | "DeleteBucketTagging" => some deleteBucketTagging
  | "GetObject" => some getObject
  | "PutObject" => some putObject
  | "DeleteObject" => some deleteObject
  | "DeleteObjects" => some deleteObject
  | "HeadObject" => some headObject
  | "CopyObject" => some copyObject
  | "ListParts" => some listMultipartUploadParts
  | "AbortMultipartUpload" => some abortMultipartUpload
  | "ListBuckets" => some listAllMyBuckets
  | "ListMultipartUploads" => some listBucketMultipartUploads
  | "*" => some all
  | _ => none

protected def toString : Action → String
  | createBucket => "s3:CreateBucket"
  | deleteBucket => "s3:DeleteBucket"
  | listBucket => "s3:ListBucket"
  | headBucket => "s3:HeadBucket"
  | getBucketLocation => "s3:GetBucketLocation"
  | getBucketVersioning => "s3:GetBucketVersioning"
  | putBucketVersioning => "s3:PutBucketVersioning"
  | getBucketTagging => "s3:GetBucketTagging"
  | putBucketTagging => "s3:PutBucketTagging"
  | deleteBucketTagging => "s3:DeleteBucketTagging"
  | getObject => "s3:GetObject"
  | putObject => "s3:PutObject"
  | deleteObject => "s3:DeleteObject"
  | headObject => "s3:HeadObject"
  | copyObject => "s3:CopyObject"
  | listMultipartUploadParts => "s3:ListMultipartUploadParts"
  | abortMultipartUpload => "s3:AbortMultipartUpload"
  | listAllMyBuckets => "s3:ListAllMyBuckets"
  | listBucketMultipartUploads => "s3:ListBucketMultipartUploads"
  | all => "s3:*"

end Action

/-- An S3 resource (bucket or object). -/
structure Resource where
  bucket : Option String
  key : Option String
  deriving DecidableEq, Repr

namespace Resource

def all : Resource := { bucket := none, key := none }

def ofBucket (name : String) : Resource := { bucket := some name, key := none }

def object (bucket key : String) : Resource := { bucket := some bucket, key := some key }

protected def toString (resource : Resource) : String :=
  match resource.bucket, resource.key with
  | none, _ => "arn:aws:s3:::*"
  | some b, none => "arn:aws:s3:::" ++ b
  | some b, some k => "arn:aws:s3:::" ++ b ++ "/" ++ k

end Resource

/-! ## Wildcards -/

/-- One row of the matching table: `row[j]` says whether the pattern up to and
including `p` matches the first `j` characters.  `above` is the row before. -/
def wildcardRow (p : Char) : List Bool → List Char → Bool → List Bool
  | above :: row, v :: vs, left =>
    let cell :=
      if p = '*' then row.headD false || left
      else if p = '?' ∨ p = v then above
      else false
    cell :: wildcardRow p row vs cell
  | _, _, _ => []

/-- The first row: the empty pattern matches the empty text only. -/
def wildcardTop (v : List Char) : List Bool :=
  true :: v.map fun _ => false

/-- The row of `p` below the row `above`. -/
def wildcardStep (v : List Char) (above : List Bool) (p : Char) : List Bool :=
  let first := if p = '*' then above.headD false else false
  first :: wildcardRow p above v first

/-- `matches_wildcard`: the last cell of the last row. -/
def matchesWildcard (pattern value : String) : Bool :=
  if pattern = "*" then true
  else
    let v := value.toList
    (pattern.toList.foldl (wildcardStep v) (wildcardTop v)).getLastD false

/-- Some pattern for actions matches. -/
def anyActionMatches (patterns : List String) (action : Action) : Bool :=
  patterns.any fun pattern =>
    pattern == "*" || pattern == "s3:*" || matchesWildcard pattern action.toString

/-- Some pattern for resources matches. -/
def anyResourceMatches (patterns : List String) (resource : Resource) : Bool :=
  patterns.any fun pattern =>
    pattern == "*" || matchesWildcard pattern resource.toString

/-! ## IAM policies -/

/-- A statement within a policy. -/
structure PolicyStatement where
  effect : Effect
  actions : List String
  resources : List String
  deriving DecidableEq, Repr

namespace PolicyStatement

def matchesAction (stmt : PolicyStatement) (action : Action) : Bool :=
  anyActionMatches stmt.actions action

def matchesResource (stmt : PolicyStatement) (resource : Resource) : Bool :=
  anyResourceMatches stmt.resources resource

def «matches» (stmt : PolicyStatement) (action : Action) (resource : Resource) : Bool :=
  stmt.matchesAction action && stmt.matchesResource resource

end PolicyStatement

/-- An IAM policy document. -/
structure Policy where
  name : String
  version : String := "2012-10-17"
  statements : List PolicyStatement
  deriving DecidableEq, Repr

/-- What the document says about the action on the resource. -/
def Policy.evaluate (policy : Policy) (action : Action) (resource : Resource) : Option Effect :=
  DenyOverrides.run
    (fun stmt => if stmt.matches action resource then some stmt.effect else none)
    none policy.statements

/-- Pre-defined admin policy (full access). -/
def adminPolicy : Policy where
  name := "AdministratorAccess"
  statements := [{ effect := .allow, actions := ["*"], resources := ["*"] }]

/-! ## Conditions -/

/-- What a request tells the conditions of bucket policies. -/
structure ConditionContext where
  sourceIp : Option IpAddr := none
  currentTime : Option String := none
  secureTransport : Bool := false
  keyPrefix : Option String := none
  delimiter : Option String := none
  maxKeys : Option Nat := none
  custom : List (String × String) := []

/-- A context value by key. -/
def ConditionContext.get (context : ConditionContext) (key : String) : Option String :=
  match key with
  | "aws:SourceIp" => context.sourceIp.map IpAddr.toString
  | "aws:CurrentTime" => context.currentTime
  | "aws:SecureTransport" => some (toString context.secureTransport)
  | "s3:prefix" => context.keyPrefix
  | "s3:delimiter" => context.delimiter
  | "s3:max-keys" => context.maxKeys.map toString
  | key =>
    if startsWith key "aws:" || startsWith key "s3:" then context.custom.lookup key
    else none

/-- The two numbers a numeric operator compares. -/
def numericOperands (actual : Option String) (expected : Value) : Option (Float × Float) := do
  let actual ← actual.bind parseF64
  let expected ← (expected.asStr.bind parseF64).or expected.asF64
  some (actual, expected)

/-- `f64::EPSILON`. -/
def f64Epsilon : Float := 2.220446049250313e-16

/-- One key of one operator: does the context's value meet what is expected? -/
def operatorMatches (operator : String) (context : ConditionContext) (actual : Option String)
    (expected : Value) : Bool :=
  match operator with
  | "StringEquals" => actual == expected.asStr
  | "StringNotEquals" => actual != expected.asStr
  | "StringLike" =>
    match actual, expected.asStr with
    | some actual, some pattern => matchesWildcard pattern actual
    | _, _ => false
  | "StringNotLike" =>
    match actual, expected.asStr with
    | some actual, some pattern => !matchesWildcard pattern actual
    | _, _ => true
  | "IpAddress" =>
    match context.sourceIp, expected.asStr with
    | some sourceIp, some cidr => ipMatchesCidr sourceIp cidr
    | _, _ => false
  | "NotIpAddress" =>
    match context.sourceIp, expected.asStr with
    | some sourceIp, some cidr => !ipMatchesCidr sourceIp cidr
    | _, _ => true
  | "Bool" =>
    match expected.asStr, expected.asBool with
    | some expectedBool, _ => actual == some expectedBool
    | none, some expectedBool => actual == some (toString expectedBool)
    | none, none => false
  | "NumericEquals" =>
    match numericOperands actual expected with
    | some (actual, expected) => (actual - expected).abs < f64Epsilon
    | none => false
  | "NumericLessThan" =>
    match numericOperands actual expected with
    | some (actual, expected) => actual < expected
    | none => false
  | "NumericGreaterThan" =>
    match numericOperands actual expected with
    | some (actual, expected) => actual > expected
    | none => false
  | "Null" =>
    let expectedNull := expected.asStr == some "true" || expected.asBool == some true
    actual.isNone == expectedNull
  | _ => false

/-- `evaluate_condition`: every key of every operator must match.  What is not
an object is passed over. -/
def evaluateCondition (condition : Value) (context : ConditionContext) : Bool :=
  match condition.asObject with
  | none => true
  | some operators =>
    operators.all fun (operator, conditions) =>
      match conditions.asObject with
      | none => true
      | some entries =>
        entries.all fun (key, expected) =>
          operatorMatches operator context (context.get key) expected

/-! ## Bucket policies -/

/-- The principals that a statement names. -/
inductive PrincipalSpec
  | wildcard
  | aws (principals : List String)

/-- Who is making the request. -/
inductive Principal
  | anonymous
  | user (username : String)
  | arn (arn : String)
  deriving DecidableEq, Repr

/-- `ActionSpec` and `ResourceSpec`: one pattern or several. -/
inductive PatternSpec
  | single (pattern : String)
  | multiple (patterns : List String)

def PatternSpec.patterns : PatternSpec → List String
  | single pattern => [pattern]
  | multiple patterns => patterns

/-- A statement within a bucket policy. -/
structure BucketPolicyStatement where
  sid : Option String := none
  effect : Effect
  principal : PrincipalSpec
  actions : PatternSpec
  resources : PatternSpec
  condition : Option Value := none

namespace BucketPolicyStatement

def matchesPrincipal (stmt : BucketPolicyStatement) (principal : Principal) : Bool :=
  match stmt.principal with
  | .wildcard => true
  | .aws principals =>
    principals.any fun p =>
      p == "*" ||
        match principal with
        | .anonymous => p == "*"
        | .user user => p == "*" || p == user || endsWith p ("user/" ++ user)
        | .arn arn => p == "*" || p == arn || matchesWildcard p arn

def matchesAction (stmt : BucketPolicyStatement) (action : Action) : Bool :=
  anyActionMatches stmt.actions.patterns action

def matchesResource (stmt : BucketPolicyStatement) (resource : Resource) : Bool :=
  anyResourceMatches stmt.resources.patterns resource

def matchesCondition (stmt : BucketPolicyStatement) (context : ConditionContext) : Bool :=
  match stmt.condition with
  | some condition => evaluateCondition condition context
  | none => true

def matchesWithContext (stmt : BucketPolicyStatement) (principal : Principal) (action : Action)
    (resource : Resource) (context : ConditionContext) : Bool :=
  stmt.matchesPrincipal principal && stmt.matchesAction action &&
    stmt.matchesResource resource && stmt.matchesCondition context

end BucketPolicyStatement

/-- A bucket policy document. -/
structure BucketPolicy where
  version : String := "2012-10-17"
  id : Option String := none
  statements : List BucketPolicyStatement

namespace BucketPolicy

/-- What the document says about the request that `context` describes. -/
def evaluateWithContext (policy : BucketPolicy) (principal : Principal) (action : Action)
    (resource : Resource) (context : ConditionContext) : Option Effect :=
  DenyOverrides.run
    (fun stmt =>
      if stmt.matchesWithContext principal action resource context then some stmt.effect
      else none)
    none policy.statements

/-- Evaluation in the default context. -/
def evaluate (policy : BucketPolicy) (principal : Principal) (action : Action)
    (resource : Resource) : Option Effect :=
  policy.evaluateWithContext principal action resource {}

end BucketPolicy

end Strix

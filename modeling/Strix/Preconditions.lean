import Mathlib.Data.List.DropRight
import Strix.ExecutablePlatform
import Strix.HttpConditions
import Strix.ObjectRequests
import Strix.ProgramFailures
import Strix.StoreMachine

/-!
# Preconditions of reads and copies

`GetObject`, `HeadObject` and `CopyObject` may be conditional.  `GetObject` hands the four
conditions to the store, which checks each that is there: the two tags first, then the two
dates.  The other two handlers do not look at conditions at all.

* `readVerdict_eq_iff`: when the checks of the store decide as the precedence of the
  conditions asks;
* `preconditionsBind_iff`: which requests are answered as their conditions ask;
* `headIfMatch_unbound`: a `HeadObject` whose `If-Match` names another tag succeeds.
-/

namespace Strix

open AtomicProgram AtomicProgram.Prog HttpConditions RowTable

/-! ## The conditions as the store reads them -/

/-- A tag as the handlers take it: `into_value` says no more whether it is weak. -/
def readTag : TagCondition → ETagCondition
  | .any => .any
  | .tag t => .etag t.value

/-- The tag of an object's version. -/
def ObjectRow.entityTag (r : ObjectRow) : String := trimQuotes r.etag

/-- **The store takes a condition for met by this tag**: it strips quotes, and one that
says `*` is met by any. -/
def readMatches (value : String) (condition : TagCondition) : Bool :=
  let text := dtoEtagCondition (readTag condition)
  value == trimQuotes text || text == "*"

section Reading

variable (c : Conditions DateTime) (value : String) (modified : DateTime)

/-- `If-Match`, as it is read, is not met. -/
def matchFails : Bool := c.ifMatch.any fun condition => !readMatches value condition

/-- `If-None-Match`, as it is read, or `If-Modified-Since` says that the client has the
version. -/
def seenBefore : Bool :=
  c.ifNoneMatch.any (readMatches value) || c.ifModifiedSince.any fun date => modified ≤ date

/-- `If-Unmodified-Since` says that the version is too new. -/
def changedSince : Bool := c.ifUnmodifiedSince.any fun date => date < modified

/-- What the checks of the store come to. -/
def readVerdict : Verdict :=
  if matchFails c value then .preconditionFailed
  else if seenBefore c value modified then .notModified
  else if changedSince c modified then .preconditionFailed
  else .proceed

/-- **The conditions are read as they are meant**: `If-Match` already fails as it is read;
or a refusal of the first step is one by a date, with nothing that comes before it, and
where neither step refuses, nothing else does. -/
def ReadAsMeant : Prop :=
  matchFails c value = true ∨
    ((c.firstRefuses value modified = true →
        seenBefore c value modified = false ∧ changedSince c modified = true) ∧
      (c.firstRefuses value modified = false → c.secondRefuses value modified = false →
        seenBefore c value modified = false ∧ changedSince c modified = false))

variable {c value modified}

/-- Trimming a trimmed text does nothing. -/
theorem trimQuotes_trimQuotes (s : String) : trimQuotes (trimQuotes s) = trimQuotes s := by
  have hback : ∀ l : List Char, (l.reverse.dropWhile (· == quote)).reverse =
      l.rdropWhile (· == quote) := fun l => rfl
  simp only [trimQuotes, hback, String.toList_ofList]
  have hfront : ((s.toList.dropWhile (· == quote)).rdropWhile (· == quote)).dropWhile
      (· == quote) = (s.toList.dropWhile (· == quote)).rdropWhile (· == quote) := by
    -- what is left starts as the text without its front does
    have hstarts := List.rdropWhile_prefix (· == quote) (l := s.toList.dropWhile (· == quote))
    rw [List.dropWhile_eq_self_iff]
    intro hpos
    rw [hstarts.getElem hpos]
    exact List.dropWhile_get_zero_not _ _ (Nat.lt_of_lt_of_le hpos hstarts.length_le)
  rw [hfront, List.rdropWhile_idempotent]

/-- A tag that is strongly the object's is read as its tag. -/
theorem readMatches_of_isStrongly {s : String} {condition : TagCondition}
    (h : condition.isStrongly (trimQuotes s) = true) :
    readMatches (trimQuotes s) condition = true := by
  cases condition with
  | any => simp [readMatches, readTag, dtoEtagCondition]
  | tag t =>
      have hvalue : t.value = trimQuotes s := by
        simp only [TagCondition.isStrongly, Bool.and_eq_true, beq_iff_eq] at h
        exact h.2
      simp [readMatches, readTag, dtoEtagCondition, hvalue, trimQuotes_trimQuotes]

theorem readMatches_of_isWeakly {s : String} {condition : TagCondition}
    (h : condition.isWeakly (trimQuotes s) = true) :
    readMatches (trimQuotes s) condition = true := by
  cases condition with
  | any => simp [readMatches, readTag, dtoEtagCondition]
  | tag t =>
      have hvalue : t.value = trimQuotes s := by
        simpa [TagCondition.isWeakly] using h
      simp [readMatches, readTag, dtoEtagCondition, hvalue, trimQuotes_trimQuotes]

/-- What fails as it is read fails as it is meant. -/
theorem firstRefuses_of_matchFails {s : String} (h : matchFails c (trimQuotes s) = true) :
    c.firstRefuses (trimQuotes s) modified = true := by
  unfold matchFails at h
  unfold Conditions.firstRefuses
  cases hmatch : c.ifMatch with
  | none => simp [hmatch] at h
  | some condition =>
      have hfails : ¬ readMatches (trimQuotes s) condition = true := by simpa [hmatch] using h
      cases hmeant : condition.isStrongly (trimQuotes s) with
      | true => exact absurd (readMatches_of_isStrongly hmeant) hfails
      | false => simp [hmeant]

/-- A refusal of the second step is seen. -/
theorem seenBefore_of_secondRefuses {s : String}
    (h : c.secondRefuses (trimQuotes s) modified = true) :
    seenBefore c (trimQuotes s) modified = true := by
  unfold Conditions.secondRefuses at h
  unfold seenBefore
  cases hmatch : c.ifNoneMatch with
  | none => simpa [hmatch] using h
  | some condition =>
      have hmeant : condition.isWeakly (trimQuotes s) = true := by simpa [hmatch] using h
      simp [readMatches_of_isWeakly hmeant]

/-- **The store decides as the precedence asks** exactly if the conditions are read as
they are meant. -/
theorem readVerdict_eq_iff {s : String} :
    readVerdict c (trimQuotes s) modified = c.verdict (trimQuotes s) modified ↔
      ReadAsMeant c (trimQuotes s) modified := by
  have hfirst : matchFails c (trimQuotes s) = true →
      c.firstRefuses (trimQuotes s) modified = true := firstRefuses_of_matchFails
  have hsecond : c.secondRefuses (trimQuotes s) modified = true →
      seenBefore c (trimQuotes s) modified = true := seenBefore_of_secondRefuses
  unfold readVerdict Conditions.verdict ReadAsMeant
  revert hfirst hsecond
  cases matchFails c (trimQuotes s) <;> cases c.firstRefuses (trimQuotes s) modified <;>
    cases c.secondRefuses (trimQuotes s) modified <;>
    cases seenBefore c (trimQuotes s) modified <;> cases changedSince c modified <;> simp

end Reading

/-! ## Conditional requests -/

/-- The requests that may be conditional. -/
inductive ReadCall
  | getObject (input : GetObjectInput)
  | headObject (input : HeadObjectInput)
  | copyObject (input : CopyObjectInput)

inductive ReadReply
  | object (output : GetObjectOutput)
  | head (output : HeadObjectOutput)
  | copied (response : CopyObjectResponse)

/-- A request with its conditions. -/
structure ConditionalRequest where
  call : ReadCall
  conditions : Conditions DateTime := {}

/-- The dates of a request have whole seconds. -/
def wholeSeconds (c : Conditions DateTime) : Conditions DateTime :=
  { c with
    ifModifiedSince := c.ifModifiedSince.map DateTime.seconds
    ifUnmodifiedSince := c.ifUnmodifiedSince.map DateTime.seconds }

/-- The input of `get_object`, with its conditions. -/
def GetObjectInput.under (input : GetObjectInput) (c : Conditions DateTime) : GetObjectInput :=
  { input with
    ifMatch := c.ifMatch.map readTag
    ifNoneMatch := c.ifNoneMatch.map readTag
    ifModifiedSince := c.ifModifiedSince
    ifUnmodifiedSince := c.ifUnmodifiedSince }

variable (P : Platform) (caller : Caller)

namespace ConditionalRequest

/-- The handler of the request: two of the three do not read its conditions. -/
def handle (request : ConditionalRequest) : S3Prog ReadReply :=
  match request.call with
  | .getObject input => do
    let output ← S3Service.getObject P caller (input.under request.conditions)
    return .object output
  | .headObject input => do
    let output ← S3Service.headObject caller input
    return .head output
  | .copyObject input => do
    let response ← S3Service.copyObject P caller input
    return .copied response

/-- The same request without its conditions. -/
def unconditional (request : ConditionalRequest) : ConditionalRequest :=
  { request with conditions := {} }

/-- The conditions that the request asks for. -/
def asked (request : ConditionalRequest) : Conditions DateTime := wholeSeconds request.conditions

end ConditionalRequest

namespace ReadCall

/-- The row of the version that a request addresses: the one it names, else the latest. -/
def addressed (db : Db) : ReadCall → Option ObjectRow
  | .getObject input => selectObject input.bucket input.key input.versionId db
  | .headObject input => selectObject input.bucket input.key input.versionId db
  | .copyObject input =>
    match input.copySource with
    | .bucket srcBucket srcKey versionId => selectObject srcBucket srcKey versionId db
    | _ => none

/-- The caller may make the call. -/
def Authorized (now : DateTime) : ReadCall → Prop
  | .getObject input => caller.check now "GetObject" input.bucket input.key = .ok ()
  | .headObject input => caller.check now "HeadObject" input.bucket input.key = .ok ()
  | .copyObject input =>
    caller.check now "PutObject" input.bucket input.key = .ok () ∧
      ∃ source, copySourceOf input.copySource = .ok source ∧
        caller.check now "GetObject" source.1 source.2 = .ok ()

/-- **The version that an authorized request addresses.** -/
def Meets (w : World) (call : ReadCall) (r : ObjectRow) : Prop :=
  call.addressed w.db = some r ∧ r.isDeleteMarker = false ∧ call.Authorized caller w.now

end ReadCall

/-- **What a verdict asks for**: to go on as without conditions, or to fail and to change
nothing. -/
def outcomeOf (w : World) (request : ConditionalRequest) :
    Verdict → Except S3Error ReadReply × World
  | .proceed => (request.unconditional.handle P caller).run w
  | .preconditionFailed => (.error { code := .preconditionFailed }, w)
  | .notModified => (.error { code := .notModified }, w)

/-- **The preconditions of a request bind.** -/
def PreconditionsBind (w : World) (request : ConditionalRequest) : Prop :=
  ∀ r, request.call.Meets caller w r →
    (request.handle P caller).run w =
      outcomeOf P caller w request (request.asked.verdict r.entityTag r.lastModified)

/-- **The condition**: a read of the object has its conditions read as they are meant; the
conditions of another request do not refuse the version. -/
def ReadsConditions (request : ConditionalRequest) (r : ObjectRow) : Prop :=
  match request.call with
  | .getObject _ => ReadAsMeant request.asked r.entityTag r.lastModified
  | _ => request.asked.firstRefuses r.entityTag r.lastModified = false ∧
      request.asked.secondRefuses r.entityTag r.lastModified = false

/-! ## What else a request can fail with -/

/-- An error that no condition calls for. -/
def Unconditioned : Error → Prop
  | .preconditionFailed => False
  | .notModified => False
  | _ => True

/-- It is no answer to a condition for the client either. -/
theorem Unconditioned.code_ne {e : Error} (h : Unconditioned e) :
    (toS3Error e).code ≠ .preconditionFailed ∧ (toS3Error e).code ≠ .notModified := by
  cases e with
  | preconditionFailed => exact h.elim
  | notModified => exact h.elim
  | _ => simp [toS3Error, s3Error]

section Failures

variable {P}

theorem encryptWith_unconditioned {key : EncryptionKey} {nonce : Nonce} {data : Bytes} {e : Error}
    (h : encryptWith P key nonce data = .error e) : Unconditioned e := by
  unfold encryptWith at h
  cases hsealed : encryptAes256Gcm P key nonce data with
  | ok c => simp [hsealed, Except.mapError] at h
  | error e' =>
      simp only [hsealed, Except.mapError, Except.error.injEq] at h
      subst h
      trivial

theorem decryptWith_unconditioned {key : EncryptionKey} {data : Bytes} {e : Error}
    (h : decryptWith P key data = .error e) : Unconditioned e := by
  unfold decryptWith at h
  cases hplain : decryptAes256Gcm P key data with
  | ok plain => simp [hplain, Except.mapError] at h
  | error e' =>
      simp only [hplain, Except.mapError, Except.error.injEq] at h
      subst h
      trivial

theorem customerKey_unconditioned {keyBase64 : String} {keyMd5 : Option String} {e : Error}
    (h : customerKey P keyBase64 keyMd5 = .error e) : Unconditioned e := by
  unfold customerKey at h
  cases hvalid : validateSseCKey P keyBase64 keyMd5 with
  | ok k => simp [hvalid, Except.mapError] at h
  | error e' =>
      simp only [hvalid, Except.mapError, Except.error.injEq] at h
      subst h
      trivial

theorem decryptRow_unconditioned {bucket key : String} {row : ObjectRow} {opts : GetObjectOpts}
    {data : Bytes} {e : Error} (h : decryptRow P bucket key row opts data = .error e) :
    Unconditioned e := by
  unfold decryptRow at h
  split at h
  · cases h
  · exact decryptWith_unconditioned h
  · split at h
    · cases h
      trivial
    · split at h
      · exact decryptWith_unconditioned h
      · next hkey =>
          cases h
          exact customerKey_unconditioned hkey

theorem resolveRange_unconditioned {size : Nat} {range : Option (Nat × Option Nat)} {e : Error}
    (h : resolveRange size range = .error e) : Unconditioned e := by
  unfold resolveRange at h
  split at h
  · cases h
  · simp only at h
    split at h
    · cases h
      trivial
    · split at h
      · cases h
        trivial
      · split at h
        · cases h
          trivial
        · cases h

/-- A read that passes its preconditions fails for another reason. -/
theorem readContent_unconditioned {bucket key : String} {opts : GetObjectOpts} {row : ObjectRow}
    {blob : Option Bytes} {e : Error} (hpre : checkPreconditions row opts = .ok ())
    (h : readContent P bucket key opts row blob = .error e) : Unconditioned e := by
  unfold readContent at h
  split at h
  · cases h
    trivial
  · rw [hpre] at h
    cases blob with
    | none =>
        cases h
        trivial
    | some ciphertext =>
        cases hplain : decryptRow P bucket key row opts ciphertext with
        | error e' =>
            simp only [hplain, Except.error.injEq] at h
            subst h
            exact decryptRow_unconditioned hplain
        | ok plaintext =>
            cases hrange : resolveRange plaintext.length opts.range with
            | error e' =>
                simp only [hplain, hrange, Except.error.injEq] at h
                subst h
                exact resolveRange_unconditioned hrange
            | ok range => simp [hplain, hrange] at h

theorem headObject_failsOnly (bucket key : String) :
    (headObject bucket key).FailsOnly Unconditioned := by
  unfold headObject
  refine (failsOnly_perform _).bind fun selected => ?_
  refine (failsOnly_require _ trivial).bind fun obj => ?_
  refine (failsOnly_ensure _ trivial).bind fun _ => ?_
  exact failsOnly_pure _

/-- A closure that fails is reported as an internal error. -/
theorem call_failsOnly (statements : List Statement) :
    (call statements).FailsOnly Unconditioned := by
  unfold call
  refine (failsOnly_perform _).bind fun outcome => failsOnly_lift fun e he => ?_
  cases outcome with
  | ok _ => cases he
  | error e' =>
      cases he
      trivial

theorem encryptFresh_failsOnly (key : EncryptionKey) (data : Bytes) :
    (encryptFresh P key data).FailsOnly Unconditioned := by
  unfold encryptFresh
  refine (failsOnly_perform _).bind fun n => failsOnly_lift fun e he => ?_
  exact encryptWith_unconditioned he

theorem copyBlob_failsOnly (src : ObjectRow) (srcBucket srcKey srcVersion dstBucket dstKey
    versionId newObjectId : String) :
    (copyBlob P src srcBucket srcKey srcVersion dstBucket dstKey versionId
      newObjectId).FailsOnly Unconditioned := by
  unfold copyBlob
  refine (failsOnly_perform _).bind fun blob => ?_
  refine (failsOnly_require _ trivial).bind fun ciphertext => ?_
  split
  · refine (failsOnly_lift fun e he => decryptWith_unconditioned he).bind fun plaintext => ?_
    refine (encryptFresh_failsOnly _ _).bind fun newCiphertext => ?_
    exact failsOnly_perform _
  · exact failsOnly_perform _

/-- **A copy never fails for a condition.** -/
theorem copyObject_failsOnly (srcBucket srcKey dstBucket dstKey : String)
    (opts : CopyObjectOpts) :
    (copyObject P srcBucket srcKey dstBucket dstKey opts).FailsOnly Unconditioned := by
  unfold copyObject
  refine (headObject_failsOnly _ _).bind fun srcInfo => ?_
  refine (failsOnly_perform _).bind fun current => ?_
  refine (failsOnly_require _ trivial).bind fun src => ?_
  refine (failsOnly_perform _).bind fun selected => ?_
  refine (failsOnly_require _ trivial).bind fun status => ?_
  refine (failsOnly_perform _).bind fun n => ?_
  refine (copyBlob_failsOnly _ _ _ _ _ _ _ _).bind fun _ => ?_
  refine (failsOnly_perform _).bind fun now => ?_
  exact (call_failsOnly _).bind fun _ => failsOnly_pure _

end Failures

/-! ## Which requests are answered as they ask -/

section Requests

variable {P caller} {w : World} {r : ObjectRow}

/-- What the checks of the store answer. -/
def Verdict.answer : Verdict → Except Error Unit
  | .proceed => .ok ()
  | .preconditionFailed => .error .preconditionFailed
  | .notModified => .error .notModified

/-- The checks of the store, for the conditions of a request. -/
theorem checkPreconditions_under (input : GetObjectInput) (headers : HeaderMap)
    (c : Conditions DateTime) (r : ObjectRow) :
    checkPreconditions r ((input.under c).opts headers) =
      Verdict.answer (readVerdict (wholeSeconds c) r.entityTag r.lastModified) := by
  have hmatch : (((input.under c).opts headers).ifMatch.any fun m =>
      decide (trimQuotes r.etag ≠ trimQuotes m ∧ m ≠ "*")) =
        matchFails (wholeSeconds c) r.entityTag := by
    simp only [GetObjectInput.opts, GetObjectInput.under, Option.any_map, matchFails, wholeSeconds]
    refine congrArg (fun p => Option.any p _) (funext fun condition => ?_)
    rw [Bool.eq_iff_iff]
    simp [readMatches, ObjectRow.entityTag]
  have hnone : (((input.under c).opts headers).ifNoneMatch.any fun m =>
      decide (trimQuotes r.etag = trimQuotes m ∨ m = "*")) =
        (wholeSeconds c).ifNoneMatch.any (readMatches r.entityTag) := by
    simp only [GetObjectInput.opts, GetObjectInput.under, Option.any_map, wholeSeconds]
    refine congrArg (fun p => Option.any p _) (funext fun condition => ?_)
    rw [Bool.eq_iff_iff]
    simp [readMatches, ObjectRow.entityTag]
  have hmodified : (((input.under c).opts headers).ifModifiedSince.any fun t =>
      decide (r.lastModified ≤ t)) =
        (wholeSeconds c).ifModifiedSince.any fun t => decide (r.lastModified ≤ t) := rfl
  have hunmodified : (((input.under c).opts headers).ifUnmodifiedSince.any fun t =>
      decide (t < r.lastModified)) = changedSince (wholeSeconds c) r.lastModified := rfl
  have hchecks : ∀ tag known dated new : Bool,
      (if tag then .error .preconditionFailed else if known then .error .notModified
        else if dated then .error .notModified else if new then .error .preconditionFailed
        else .ok () : Except Error Unit) =
      Verdict.answer (if tag then .preconditionFailed else if known || dated then .notModified
        else if new then .preconditionFailed else .proceed) := by
    intro tag known dated new
    cases tag <;> cases known <;> cases dated <;> cases new <;> rfl
  simp only [checkPreconditions, readVerdict, seenBefore, hmatch, hnone, hmodified, hunmodified]
  exact hchecks _ _ _ _

/-- A read of the row under conditions. -/
theorem getObject_under {input : GetObjectInput} {c : Conditions DateTime} {headers : HeaderMap}
    (hselect : selectObject input.bucket input.key input.versionId w.db = some r)
    (hversion : r.isDeleteMarker = false) :
    (getObject P input.bucket input.key ((input.under c).opts headers)).run w =
      match readVerdict (wholeSeconds c) r.entityTag r.lastModified with
      | .proceed => (getObject P input.bucket input.key ((input.under {}).opts headers)).run w
      | .preconditionFailed => (.error .preconditionFailed, w)
      | .notModified => (.error .notModified, w) := by
  have hversionId : ∀ c, ((input.under c).opts headers).versionId = input.versionId :=
    fun _ => rfl
  have hpre := checkPreconditions_under input headers c r
  have hfree : checkPreconditions r ((input.under {}).opts headers) = .ok () := rfl
  rw [getObject_run, getObject_run, hversionId, hversionId, hselect]
  simp only [readContent, hversion, Bool.false_eq_true, if_false, hpre, hfree]
  cases readVerdict (wholeSeconds c) r.entityTag r.lastModified <;> rfl

/-- A failed call of the store, as the handler reports it. -/
theorem ofStore_error_code {α : Type} {call : StoreProg α} (hcall : call.FailsOnly Unconditioned)
    {e : S3Error} {w w' : World} (h : (ofStore call).run w = (.error e, w')) :
    e.code ≠ .preconditionFailed ∧ e.code ≠ .notModified := by
  rw [run_ofStore] at h
  rcases hrun : call.run w with ⟨result, after⟩
  rw [hrun] at h
  cases result with
  | ok a => cases h
  | error e' =>
      cases h
      exact (hcall.run_error hrun).code_ne

/-- What a handler makes of a call of the store. -/
def toReply {α : Type} (reply : α → ReadReply) (outcome : Except Error α × World) :
    Except S3Error ReadReply × World :=
  ((outcome.1.mapError toS3Error).map reply, outcome.2)

/-- An authorized read of an object. -/
theorem handle_getObject {input : GetObjectInput} {c : Conditions DateTime}
    (hauth : caller.check w.now "GetObject" input.bucket input.key = .ok ()) :
    ((⟨.getObject input, c⟩ : ConditionalRequest).handle P caller).run w =
      toReply (fun response =>
          .object (getObjectOutput (input.requestedRange caller.headers) response))
        ((getObject P input.bucket input.key ((input.under c).opts caller.headers)).run w) := by
  have hcheck : caller.check w.now "GetObject" (input.under c).bucket (input.under c).key =
      .ok () := hauth
  simp only [ConditionalRequest.handle, S3Service.getObject, bind_assoc, run_authorize_bind,
    hcheck]
  rw [run_bind, run_ofStore]
  rcases hrun : (getObject P (input.under c).bucket (input.under c).key
    ((input.under c).opts caller.headers)).run w with ⟨result, w'⟩
  rw [show (getObject P input.bucket input.key ((input.under c).opts caller.headers)).run w =
    (result, w') from hrun]
  cases result <;> rfl

/-- An authorized look at an object. -/
theorem handle_headObject {input : HeadObjectInput} {c : Conditions DateTime}
    (hauth : caller.check w.now "HeadObject" input.bucket input.key = .ok ()) :
    ((⟨.headObject input, c⟩ : ConditionalRequest).handle P caller).run w =
      toReply (fun info => .head (headObjectOutput info))
        ((headObject input.bucket input.key).run w) := by
  simp only [ConditionalRequest.handle, S3Service.headObject, bind_assoc, run_authorize_bind,
    hauth]
  rw [run_bind, run_ofStore]
  rcases (headObject input.bucket input.key).run w with ⟨result, w'⟩
  cases result <;> rfl

/-- An authorized copy. -/
theorem handle_copyObject {input : CopyObjectInput} {c : Conditions DateTime}
    {source : String × String}
    (hput : caller.check w.now "PutObject" input.bucket input.key = .ok ())
    (hsource : copySourceOf input.copySource = .ok source)
    (hget : caller.check w.now "GetObject" source.1 source.2 = .ok ()) :
    ((⟨.copyObject input, c⟩ : ConditionalRequest).handle P caller).run w =
      toReply .copied ((copyObject P source.1 source.2 input.bucket input.key
        input.opts).run w) := by
  simp only [ConditionalRequest.handle, S3Service.copyObject, bind_assoc, run_authorize_bind, hput,
    hsource, run_lift_bind, hget]
  rw [run_bind, run_ofStore]
  rcases (copyObject P source.1 source.2 input.bucket input.key input.opts).run w with
    ⟨result, w'⟩
  cases result <;> rfl

theorem toReply_error {α : Type} {reply : α → ReadReply} {outcome : Except Error α × World}
    {e : S3Error} {w' : World} (h : toReply reply outcome = (.error e, w')) :
    ∃ e', outcome.1 = .error e' ∧ e = toS3Error e' := by
  obtain ⟨result, after⟩ := outcome
  cases result with
  | ok a => cases h
  | error e' =>
      cases h
      exact ⟨e', rfl, rfl⟩

/-- **Without conditions an authorized request never fails for one.** -/
theorem unconditional_error_code {request : ConditionalRequest}
    (hmeets : request.call.Meets caller w r) {e : S3Error} {w' : World}
    (h : (request.unconditional.handle P caller).run w = (.error e, w')) :
    e.code ≠ .preconditionFailed ∧ e.code ≠ .notModified := by
  obtain ⟨hselect, hversion, hauth⟩ := hmeets
  obtain ⟨call, conditions⟩ := request
  cases call with
  | getObject input =>
      have hrow : selectObject input.bucket input.key
          ((input.under {}).opts caller.headers).versionId w.db = some r := hselect
      have hrun := (handle_getObject (P := P) (c := {}) hauth).symm.trans h
      rw [getObject_run, hrow] at hrun
      obtain ⟨e', he', rfl⟩ := toReply_error hrun
      refine Unconditioned.code_ne ?_
      cases hcontent : readContent P input.bucket input.key
          ((input.under {}).opts caller.headers) r (w.files.objects r.id) with
      | ok body => simp [hcontent, Except.map] at he'
      | error e'' =>
          simp only [hcontent, Except.map, Except.error.injEq] at he'
          subst he'
          exact readContent_unconditioned rfl hcontent
  | headObject input =>
      obtain ⟨e', he', rfl⟩ :=
        toReply_error ((handle_headObject (P := P) (c := {}) hauth).symm.trans h)
      exact ((headObject_failsOnly _ _).run_error (Prod.ext he' rfl)).code_ne
  | copyObject input =>
      obtain ⟨hput, source, hsource, hget⟩ := hauth
      obtain ⟨e', he', rfl⟩ :=
        toReply_error ((handle_copyObject (P := P) (c := {}) hput hsource hget).symm.trans h)
      exact ((copyObject_failsOnly _ _ _ _ _).run_error (Prod.ext he' rfl)).code_ne

/-- **The verdicts ask for different outcomes.** -/
theorem outcomeOf_injective {request : ConditionalRequest}
    (hmeets : request.call.Meets caller w r) {v v' : Verdict}
    (h : outcomeOf P caller w request v = outcomeOf P caller w request v') : v = v' := by
  cases v with
  | proceed =>
      cases v' with
      | proceed => rfl
      | preconditionFailed => exact absurd rfl (unconditional_error_code hmeets h).1
      | notModified => exact absurd rfl (unconditional_error_code hmeets h).2
  | preconditionFailed =>
      cases v' with
      | proceed => exact absurd rfl (unconditional_error_code hmeets h.symm).1
      | preconditionFailed => rfl
      | notModified => cases h
  | notModified =>
      cases v' with
      | proceed => exact absurd rfl (unconditional_error_code hmeets h.symm).2
      | preconditionFailed => cases h
      | notModified => rfl

/-- **What the handlers decide**: a read of the object by what its checks come to, the
other two always to go on. -/
def decided (request : ConditionalRequest) (r : ObjectRow) : Verdict :=
  match request.call with
  | .getObject _ => readVerdict request.asked r.entityTag r.lastModified
  | _ => .proceed

theorem handle_decided {request : ConditionalRequest} (hmeets : request.call.Meets caller w r) :
    (request.handle P caller).run w = outcomeOf P caller w request (decided request r) := by
  obtain ⟨hselect, hversion, hauth⟩ := hmeets
  obtain ⟨call, conditions⟩ := request
  cases call with
  | getObject input =>
      rw [handle_getObject hauth, getObject_under hselect hversion]
      simp only [decided, ConditionalRequest.asked]
      cases readVerdict (wholeSeconds conditions) r.entityTag r.lastModified with
      | proceed => exact (handle_getObject hauth).symm
      | preconditionFailed => rfl
      | notModified => rfl
  | headObject input => rfl
  | copyObject input => rfl

variable (P)

/-- **A request is answered as its conditions ask** exactly if its handler reads them as
they are meant. -/
theorem handle_eq_outcomeOf_iff {request : ConditionalRequest}
    (hmeets : request.call.Meets caller w r) :
    (request.handle P caller).run w =
        outcomeOf P caller w request (request.asked.verdict r.entityTag r.lastModified) ↔
      ReadsConditions request r := by
  have hdecided : (request.handle P caller).run w =
        outcomeOf P caller w request (request.asked.verdict r.entityTag r.lastModified) ↔
      decided request r = request.asked.verdict r.entityTag r.lastModified := by
    rw [handle_decided hmeets]
    exact ⟨outcomeOf_injective hmeets, fun h => congrArg _ h⟩
  rw [hdecided]
  unfold decided ReadsConditions
  cases request.call with
  | getObject input => exact readVerdict_eq_iff
  | headObject input => exact eq_comm.trans (Conditions.verdict_proceed_iff _ _ _)
  | copyObject input => exact eq_comm.trans (Conditions.verdict_proceed_iff _ _ _)

end Requests

/-- **Which requests are answered as their conditions ask.** -/
theorem preconditionsBind_iff (w : World) (request : ConditionalRequest) :
    PreconditionsBind P caller w request ↔
      ∀ r, request.call.Meets caller w r → ReadsConditions request r := by
  constructor
  · intro hbind r hmeets
    exact (handle_eq_outcomeOf_iff P hmeets).mp (hbind r hmeets)
  · intro hreads r hmeets
    exact (handle_eq_outcomeOf_iff P hmeets).mpr (hreads r hmeets)

/-! ## A condition that is not read -/

/-- An object. -/
def plainObject : World :=
  (store executablePlatform).after {} [
    .createBucket "docs" {},
    .putObject "docs" "k" [.ok [97]] {}]

/-- A look at it, for a client that means another version. -/
def headIfMatch : ConditionalRequest where
  call := .headObject { bucket := "docs", key := "k" }
  conditions := { ifMatch := some (.tag { weak := false, value := "other" }) }

/-- **`HeadObject` does not look at `If-Match`.** -/
theorem headIfMatch_unbound :
    ¬PreconditionsBind executablePlatform rootCaller plainObject headIfMatch := by
  intro hbind
  have hrow : (selectObject "docs" "k" none plainObject.db).any (fun r => !r.isDeleteMarker &&
      headIfMatch.asked.verdict r.entityTag r.lastModified == .preconditionFailed) = true := by
    decide +kernel
  have hok : ((headIfMatch.handle executablePlatform rootCaller).run plainObject).1.isOk =
      true := by
    decide +kernel
  obtain ⟨r, hselect, hr⟩ := (Option.any_eq_true _ _).mp hrow
  simp only [Bool.and_eq_true, Bool.not_eq_true', beq_iff_eq] at hr
  have hobeys := hbind r ⟨hselect, hr.1, rfl⟩
  rw [hr.2] at hobeys
  rw [hobeys] at hok
  cases hok

end Strix

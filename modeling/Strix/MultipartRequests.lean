import Strix.S3Handlers
import Strix.StoreInvariant

/-!
# Multipart requests

The five S3 handlers that name an upload: `UploadPart`, `UploadPartCopy`,
`CompleteMultipartUpload`, `AbortMultipartUpload` and `ListParts`.  Each checks
the caller's authorization for the bucket and the key of the request and then
calls the store, which finds the upload by its id.

`succeeds_iff` says of every request, in terms of the state before, when it
succeeds.
-/

namespace Strix

open AtomicProgram AtomicProgram.Prog RowTable

/-- `parse_copy_source_range`. -/
def parseCopySourceRange (range : String) : Except S3Error (Nat × Option Nat) :=
  match (stripHead range "bytes=").bind (splitOnce '-') with
  | none => .error (s3Error .invalidArgument "Invalid copy source range format")
  | some (start, «end») =>
    match parseUnsigned 64 start with
    | none => .error (s3Error .invalidArgument "Invalid range start")
    | some start =>
      if «end».isEmpty then .ok (start, none)
      else
        match parseUnsigned 64 «end» with
        | none => .error (s3Error .invalidArgument "Invalid range end")
        | some last =>
          if last < start then
            .error (s3Error .invalidArgument "Invalid range: end before start")
          else .ok (start, some last)

/-- `CopySource`. -/
inductive CopySource
  | bucket (bucket key : String) (versionId : Option String)
  | accessPoint
  | outpost
  deriving DecidableEq, Repr

structure UploadPartInput where
  partNumber : Int
  body : Option ObjectBody

structure UploadPartCopyInput where
  partNumber : Int
  copySource : CopySource
  copySourceRange : Option String := none
  copySourceSseCustomerKey : Option String := none
  copySourceSseCustomerKeyMd5 : Option String := none

/-- A listed part of a completion request. -/
structure CompletedPart where
  partNumber : Option Int
  eTag : Option String

structure ListPartsInput where
  maxParts : Option Int := none
  partNumberMarker : Option Int := none

/-- What is asked of an upload. -/
inductive UploadAction
  | uploadPart (input : UploadPartInput)
  | uploadPartCopy (input : UploadPartCopyInput)
  | completeMultipartUpload (parts : Option (List CompletedPart))
  | abortMultipartUpload
  | listParts (input : ListPartsInput)

/-- A request that names an upload. -/
structure MultipartRequest where
  bucket : String
  key : String
  uploadId : String
  action : UploadAction

inductive MultipartReply
  | part (info : PartInfo)
  | completed (response : PutObjectResponse)
  | aborted
  | parts (response : ListPartsResponse)

/-- The parts that a completion passes to the store. -/
def completeParts (parts : Option (List CompletedPart)) : List CompletePart :=
  (parts.getD []).map fun p =>
    { partNumber := asU16 (p.partNumber.getD 0), etag := p.eTag.getD "" }

/-- How a copied part reads its source. -/
def copyReadOpts (input : UploadPartCopyInput) (versionId : Option String)
    (range : Option (Nat × Option Nat)) : GetObjectOpts where
  range := range
  versionId := versionId
  sseCustomerKey := input.copySourceSseCustomerKey
  sseCustomerKeyMd5 := input.copySourceSseCustomerKeyMd5

/-- The range of a copied part. -/
def copyRange (input : UploadPartCopyInput) : Except S3Error (Option (Nat × Option Nat)) :=
  match input.copySourceRange with
  | none => .ok none
  | some range => (parseCopySourceRange range).map some

/-- The action that a request needs on its own bucket and key. -/
def UploadAction.operation : UploadAction → String
  | .uploadPart _ => "PutObject"
  | .uploadPartCopy _ => "PutObject"
  | .completeMultipartUpload _ => "PutObject"
  | .abortMultipartUpload => "AbortMultipartUpload"
  | .listParts _ => "ListParts"

namespace MultipartRequest

variable (P : Platform)

/-- The upload as the handlers name it to the store. -/
def named (request : MultipartRequest) (now : DateTime) : MultipartUpload where
  uploadId := request.uploadId
  bucket := request.bucket
  key := request.key
  initiated := now

/-- What a handler does once the caller is authorized for its bucket and key. -/
def perform (caller : Caller) (request : MultipartRequest) : S3Prog MultipartReply := do
  let now ← observe (·.now)
  let upload := request.named now
  match request.action with
  | .uploadPart input =>
    let body ← require input.body (s3Error .invalidRequest "Missing body")
    let info ← ofStore (uploadPart P upload (asU16 input.partNumber) body)
    return .part info
  | .uploadPartCopy input =>
    match input.copySource with
    | .accessPoint =>
      fail (s3Error .invalidArgument "Access point copy source not supported")
    | .outpost => fail (s3Error .invalidArgument "Outpost copy source not supported")
    | .bucket srcBucket srcKey versionId =>
      caller.authorize "GetObject" srcBucket srcKey
      let range ← lift (copyRange input)
      let source ← ofStore (getObject P srcBucket srcKey (copyReadOpts input versionId range))
      let info ← ofStore (uploadPart P upload (asU16 input.partNumber) [.ok source.body])
      return .part info
  | .completeMultipartUpload parts =>
    let response ← ofStore (completeMultipartUpload P upload (completeParts parts))
    return .completed response
  | .abortMultipartUpload =>
    ofStore (Strix.abortMultipartUpload upload)
    return .aborted
  | .listParts input =>
    let marker := input.partNumberMarker.bind fun n =>
      if 0 ≤ n ∧ n ≤ 65535 then some n.toNat else none
    let response ← ofStore (Strix.listParts upload
      { maxParts := some ((input.maxParts.map asU32).getD 1000), partNumberMarker := marker })
    return .parts response

/-- The handler: authorization for the named bucket and key, then the call. -/
def handle (caller : Caller) (request : MultipartRequest) : S3Prog MultipartReply := do
  caller.authorize request.action.operation request.bucket request.key
  request.perform P caller

/-- The request succeeds. -/
def Succeeds (caller : Caller) (request : MultipartRequest) (w : World) : Prop :=
  ∃ reply, ((request.handle P caller).run w).1 = .ok reply

/-- The source of a copied part can be read. -/
def SourceReadable (caller : Caller) (input : UploadPartCopyInput) (w : World) : Prop :=
  ∃ srcBucket srcKey versionId range source,
    input.copySource = .bucket srcBucket srcKey versionId ∧
    caller.check w.now "GetObject" srcBucket srcKey = .ok () ∧
    copyRange input = .ok range ∧
    ((getObject P srcBucket srcKey (copyReadOpts input versionId range)).run w).1 = .ok source

/-- **A request is acceptable** when the caller may perform it on the named
bucket and key and the store can carry it out.  Which bucket and key the upload
was created for is not looked at. -/
def Acceptable (caller : Caller) (request : MultipartRequest) (w : World) : Prop :=
  caller.check w.now request.action.operation request.bucket request.key = .ok () ∧
  match request.action with
  | .uploadPart input => ∃ body, input.body = some body ∧
      UploadPartAccepted w (request.named w.now) (asU16 input.partNumber) body
  | .uploadPartCopy input => SourceReadable P caller input w ∧
      UploadPartReaches w (request.named w.now) (asU16 input.partNumber)
  | .completeMultipartUpload parts =>
      CompleteAccepted P w request.uploadId (completeParts parts)
  | .abortMultipartUpload => uploadRowExists request.uploadId w.db = true
  | .listParts _ => True

/-- An authorized part upload reaches the part file and then its body breaks
off. -/
def BreaksOff (caller : Caller) (request : MultipartRequest) (w : World) (partNumber : Nat)
    (body : ObjectBody) : Prop :=
  caller.check w.now request.action.operation request.bucket request.key = .ok () ∧
  (∃ input, request.action = .uploadPart input ∧ input.body = some body ∧
    asU16 input.partNumber = partNumber) ∧
  UploadPartReaches w (request.named w.now) partNumber ∧ ∃ e, readBody body = .error e

end MultipartRequest

/-! ## How a request runs -/

namespace MultipartRequest

variable {P : Platform} {caller : Caller} {w : World} {bucket key uploadId : String}

/-- A caller without authorization is turned away and nothing changes. -/
theorem handle_refused {request : MultipartRequest} {e : S3Error}
    (hcheck : caller.check w.now request.action.operation request.bucket request.key =
      .error e) : (request.handle P caller).run w = (.error e, w) := by
  rw [handle, run_authorize_bind, hcheck]

/-- **Everything a request can do**, in terms of the worlds that the store's
calls leave behind. -/
inductive Outcome (P : Platform) (caller : Caller) (w : World) (request : MultipartRequest) :
    Except S3Error MultipartReply × World → Prop
  | refused {e : S3Error} {n : Nat} (hno : ¬request.Acceptable P caller w)
      (hquiet : ∀ partNumber body, ¬request.BreaksOff caller w partNumber body)
      (hn : w.draws ≤ n) : Outcome P caller w request (.error e, { w with draws := n })
  | brokenOff {e : S3Error} {partNumber : Nat} {body : ObjectBody}
      (hno : ¬request.Acceptable P caller w)
      (hbroken : request.BreaksOff caller w partNumber body) :
      Outcome P caller w request
        (.error e, w.rewritePart request.uploadId partNumber (receivedBytes body))
  | storedPart {info : PartInfo} {partNumber : Nat} {content : Bytes}
      (hok : request.Acceptable P caller w) :
      Outcome P caller w request
        (.ok (.part info), { w.rewritePart request.uploadId partNumber content with
          db := { w.db with
            parts := insertRow
              (partRow P request.uploadId partNumber (P.ulid w.draws) content w.now.seconds)
              (deleteRows (atPart request.uploadId partNumber) w.db.parts) } })
  | completed {response : PutObjectResponse} {status : VersioningStatus} {row : ObjectRow}
      {uploadMeta : UploadRow} {data : Bytes} {n : Nat} (hok : request.Acceptable P caller w)
      (hupload : selectUpload request.uploadId w.db = some uploadMeta)
      (hnew : NewVersion P w uploadMeta.bucket uploadMeta.key status row) :
      Outcome P caller w request
        (.ok (.completed response), (w.install status row data n).closeUpload request.uploadId)
  | aborted (hok : request.Acceptable P caller w) :
      Outcome P caller w request (.ok .aborted, w.closeUpload request.uploadId)
  | listed {response : ListPartsResponse} (hok : request.Acceptable P caller w) :
      Outcome P caller w request (.ok (.parts response), w)

/-- A request that is turned away before it draws. -/
theorem Outcome.refused_self {request : MultipartRequest} {e : S3Error}
    (hno : ¬request.Acceptable P caller w)
    (hquiet : ∀ partNumber body, ¬request.BreaksOff caller w partNumber body) :
    Outcome P caller w request (.error e, w) :=
  .refused hno hquiet (Nat.le_refl _)

/-- Only a part upload can break off. -/
theorem not_breaksOff {request : MultipartRequest}
    (haction : ∀ input, request.action ≠ .uploadPart input) (partNumber : Nat)
    (body : ObjectBody) : ¬request.BreaksOff caller w partNumber body := by
  rintro ⟨-, ⟨input, h, -⟩, -⟩
  exact haction input h

theorem uploadPart_outcome {input : UploadPartInput}
    (hcheck : caller.check w.now "PutObject" bucket key = .ok ()) :
    Outcome P caller w ⟨bucket, key, uploadId, .uploadPart input⟩
      ((perform P caller ⟨bucket, key, uploadId, .uploadPart input⟩).run w) := by
  simp only [perform, run_observe_bind, run_require_bind]
  cases hbody : input.body with
  | none =>
      refine .refused_self ?_ ?_
      · rintro ⟨-, body, hsome, -⟩
        exact nomatch hbody.symm.trans hsome
      · rintro partNumber body ⟨-, ⟨_, ⟨rfl⟩, hsome, -⟩, -⟩
        exact nomatch hbody.symm.trans hsome
  | some body =>
      rcases uploadPart_cases (P := P) w (named ⟨bucket, key, uploadId, .uploadPart input⟩ w.now)
          (asU16 input.partNumber) body with
        ⟨hno, e, hrun⟩ | ⟨hreaches, e, hbroken, hrun⟩ | ⟨hreaches, content, hwhole, hrun⟩
      · simp only [run_bind, run_ofStore_error hrun]
        refine .refused_self ?_ ?_
        · rintro ⟨-, _, -, hreaches, -⟩
          exact hno hreaches
        · rintro partNumber body' ⟨-, ⟨_, ⟨rfl⟩, -, rfl⟩, hreaches, -⟩
          exact hno hreaches
      · simp only [run_bind, run_ofStore_error hrun]
        refine .brokenOff ?_ ⟨hcheck, ⟨input, rfl, hbody, rfl⟩, hreaches, e, hbroken⟩
        rintro ⟨-, body', hsome, -, content, hwhole⟩
        obtain rfl : body = body' := Option.some.inj (hbody.symm.trans hsome)
        exact nomatch hbroken.symm.trans hwhole
      · simp only [run_bind, run_ofStore_ok hrun]
        exact .storedPart ⟨hcheck, body, hbody, hreaches, content, hwhole⟩

theorem uploadPartCopy_outcome {input : UploadPartCopyInput}
    (hcheck : caller.check w.now "PutObject" bucket key = .ok ()) :
    Outcome P caller w ⟨bucket, key, uploadId, .uploadPartCopy input⟩
      ((perform P caller ⟨bucket, key, uploadId, .uploadPartCopy input⟩).run w) := by
  have hquiet := @not_breaksOff caller w ⟨bucket, key, uploadId, .uploadPartCopy input⟩ (by simp)
  simp only [perform, run_observe_bind]
  cases hsource : input.copySource with
  | accessPoint =>
      refine .refused_self ?_ hquiet
      rintro ⟨-, ⟨_, _, _, _, _, h, -⟩, -⟩
      exact nomatch hsource.symm.trans h
  | outpost =>
      refine .refused_self ?_ hquiet
      rintro ⟨-, ⟨_, _, _, _, _, h, -⟩, -⟩
      exact nomatch hsource.symm.trans h
  | bucket srcBucket srcKey versionId =>
      simp only [run_authorize_bind, run_lift_bind]
      cases hread : caller.check w.now "GetObject" srcBucket srcKey with
      | error e =>
          refine .refused_self ?_ hquiet
          rintro ⟨-, ⟨_, _, _, _, _, h, hok, -⟩, -⟩
          cases hsource.symm.trans h
          exact nomatch hread.symm.trans hok
      | ok _ =>
          cases hrange : copyRange input with
          | error e =>
              refine .refused_self ?_ hquiet
              rintro ⟨-, ⟨_, _, _, _, _, -, -, hok, -⟩, -⟩
              exact nomatch hrange.symm.trans hok
          | ok range =>
              have hget := getObject_run (P := P) srcBucket srcKey
                (copyReadOpts input versionId range) w
              cases hresult : ((getObject P srcBucket srcKey
                  (copyReadOpts input versionId range)).run w).1 with
              | error e =>
                  have hrun : (getObject P srcBucket srcKey
                      (copyReadOpts input versionId range)).run w = (.error e, w) :=
                    Prod.ext hresult (by rw [hget])
                  simp only [run_bind, run_ofStore_error hrun]
                  refine .refused_self ?_ hquiet
                  rintro ⟨-, ⟨_, _, _, _, _, h, -, hok, hread⟩, -⟩
                  cases hsource.symm.trans h
                  cases hrange.symm.trans hok
                  exact nomatch hresult.symm.trans hread
              | ok source =>
                  have hrun : (getObject P srcBucket srcKey
                      (copyReadOpts input versionId range)).run w = (.ok source, w) :=
                    Prod.ext hresult (by rw [hget])
                  have hreadable : SourceReadable P caller input w :=
                    ⟨srcBucket, srcKey, versionId, range, source, hsource, hread, hrange, hresult⟩
                  simp only [run_bind, run_ofStore_ok hrun]
                  rcases uploadPart_cases (P := P) w
                      (named ⟨bucket, key, uploadId, .uploadPartCopy input⟩ w.now)
                      (asU16 input.partNumber) [.ok source.body] with
                    ⟨hno, e, hpart⟩ | ⟨hreaches, e, hbroken, hpart⟩ |
                      ⟨hreaches, content, hwhole, hpart⟩
                  · rw [run_ofStore_error hpart]
                    exact .refused_self (fun h => hno h.2.2) hquiet
                  · simp [readBody] at hbroken
                  · rw [run_ofStore_ok hpart]
                    exact .storedPart ⟨hcheck, hreadable, hreaches⟩

theorem completeMultipartUpload_outcome {parts : Option (List CompletedPart)}
    (hids : IdsDrawn P w) (hcheck : caller.check w.now "PutObject" bucket key = .ok ()) :
    Outcome P caller w ⟨bucket, key, uploadId, .completeMultipartUpload parts⟩
      ((perform P caller ⟨bucket, key, uploadId, .completeMultipartUpload parts⟩).run w) := by
  have hquiet :=
    @not_breaksOff caller w ⟨bucket, key, uploadId, .completeMultipartUpload parts⟩ (by simp)
  simp only [perform, run_observe_bind]
  rcases completeMultipartUpload_cases
      (named ⟨bucket, key, uploadId, .completeMultipartUpload parts⟩ w.now)
      (completeParts parts) hids with
    ⟨hno, e, n, hrun, hn⟩ |
      ⟨haccepted, status, row, uploadMeta, plaintext, data, n, hrun, -, hnew, hupload, -⟩
  · simp only [run_bind, run_ofStore_error hrun]
    exact .refused (fun h => hno h.2) hquiet hn
  · simp only [run_bind, run_ofStore_ok hrun]
    exact .completed ⟨hcheck, haccepted⟩ hupload hnew

theorem abortMultipartUpload_outcome
    (hcheck : caller.check w.now "AbortMultipartUpload" bucket key = .ok ()) :
    Outcome P caller w ⟨bucket, key, uploadId, .abortMultipartUpload⟩
      ((perform P caller ⟨bucket, key, uploadId, .abortMultipartUpload⟩).run w) := by
  simp only [perform, run_observe_bind]
  rcases abortMultipartUpload_cases w
      (named ⟨bucket, key, uploadId, .abortMultipartUpload⟩ w.now) with
    ⟨hnone, hrun⟩ | ⟨hthere, hrun⟩
  · simp only [run_bind, run_ofStore_error hrun]
    refine .refused_self ?_ (not_breaksOff (by simp))
    rintro ⟨-, hthere⟩
    exact nomatch hnone.symm.trans hthere
  · simp only [run_bind, run_ofStore_ok hrun]
    exact .aborted ⟨hcheck, hthere⟩

theorem listParts_outcome {input : ListPartsInput}
    (hcheck : caller.check w.now "ListParts" bucket key = .ok ()) :
    Outcome P caller w ⟨bucket, key, uploadId, .listParts input⟩
      ((perform P caller ⟨bucket, key, uploadId, .listParts input⟩).run w) := by
  simp only [perform, run_bind, run_ofStore, Strix.listParts, query,
    run_pure, Except.mapError]
  exact .listed ⟨hcheck, trivial⟩

/-- **One request, inverted.** -/
theorem handle_outcome (hids : IdsDrawn P w) (request : MultipartRequest) :
    Outcome P caller w request ((request.handle P caller).run w) := by
  cases hcheck : caller.check w.now request.action.operation request.bucket request.key with
  | error e =>
      rw [handle_refused hcheck]
      refine .refused_self (fun h => ?_) (fun _ _ h => ?_)
      · exact nomatch hcheck.symm.trans h.1
      · exact nomatch hcheck.symm.trans h.1
  | ok _ =>
      rw [handle, run_authorize_bind, hcheck]
      obtain ⟨bucket, key, uploadId, action⟩ := request
      cases action with
      | uploadPart input => exact uploadPart_outcome hcheck
      | uploadPartCopy input => exact uploadPartCopy_outcome hcheck
      | completeMultipartUpload parts => exact completeMultipartUpload_outcome hids hcheck
      | abortMultipartUpload => exact abortMultipartUpload_outcome hcheck
      | listParts input => exact listParts_outcome hcheck

/-- A body that breaks off leaves what arrived in the part file. -/
theorem run_breaksOff {request : MultipartRequest} {partNumber : Nat} {body : ObjectBody}
    (hbroken : request.BreaksOff caller w partNumber body) :
    ((request.handle P caller).run w).2 =
      w.rewritePart request.uploadId partNumber (receivedBytes body) := by
  obtain ⟨hcheck, ⟨input, haction, hbody, rfl⟩, hreaches, e, hread⟩ := hbroken
  obtain ⟨bucket, key, uploadId, action⟩ := request
  obtain rfl : action = .uploadPart input := haction
  rcases uploadPart_cases (P := P) w (named ⟨bucket, key, uploadId, .uploadPart input⟩ w.now)
      (asU16 input.partNumber) body with
    ⟨hno, -⟩ | ⟨-, e', -, hrun⟩ | ⟨-, content, hwhole, -⟩
  · exact absurd hreaches hno
  · rw [handle, run_authorize_bind, hcheck]
    simp only [perform, run_observe_bind, run_require_bind, hbody]
    simp only [run_bind, run_ofStore_error hrun]
    rfl
  · exact nomatch hread.symm.trans hwhole

/-- **A request succeeds exactly when it is acceptable.** -/
theorem succeeds_iff (hids : IdsDrawn P w) (request : MultipartRequest) :
    request.Succeeds P caller w ↔ request.Acceptable P caller w := by
  have houtcome : Outcome P caller w request ((request.handle P caller).run w) :=
    handle_outcome hids request
  rw [Succeeds]
  generalize (request.handle P caller).run w = outcome at houtcome
  cases houtcome with
  | refused hno => simp [hno]
  | brokenOff hno => simp [hno]
  | storedPart hok => simp [hok]
  | completed hok => simp [hok]
  | aborted hok => simp [hok]
  | listed hok => simp [hok]

end MultipartRequest

end Strix

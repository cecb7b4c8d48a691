import Strix.Assembly
import Strix.MultipartRequests

/-!
# Part numbers

A request names a part by a number of 32 bits, of which S3 allows 1 to 10000.  The handlers
narrow it to 16 bits, and the store checks what is left: it sees another number than
was sent whenever that is negative or does not fit.

* `blind_of_unreached`: a number that the store refuses touches no part;
* `neverAliased_iff`: a request is either turned away or acts on the parts it names,
  exactly unless a number out of bounds gets as far as the parts under its remainder;
* `part_aliased`: an upload of part 65537 is one of part 1.
-/

namespace Strix

open AtomicProgram AtomicProgram.Prog MachineRuns RowTable

/-- The part numbers of S3. -/
def PartNumberInRange (n : Int) : Prop := 1 ≤ n ∧ n ≤ 10000

instance (n : Int) : Decidable (PartNumberInRange n) := inferInstanceAs (Decidable (_ ∧ _))

/-- The number is out of bounds, but not what is left of it. -/
def PartNumberAliased (n : Int) : Prop :=
  ¬ PartNumberInRange n ∧ 1 ≤ asU16 n ∧ asU16 n ≤ 10000

/-- The part numbers that a request names. -/
def UploadAction.partNumbers : UploadAction → List (Option Int)
  | .uploadPart input => [some input.partNumber]
  | .uploadPartCopy input => [some input.partNumber]
  | .completeMultipartUpload parts => (parts.getD []).map (·.partNumber)
  | .abortMultipartUpload => []
  | .listParts _ => []

/-- The same world with other stored parts. -/
def World.withParts (w : World) (parts : List PartRow)
    (multipart : String → Option (Nat → Option PartFile)) : World :=
  { w with
    db := { w.db with parts }
    files := { w.files with multipart } }

@[simp] theorem World.withParts_now (w : World) (parts : List PartRow)
    (multipart : String → Option (Nat → Option PartFile)) :
    (w.withParts parts multipart).now = w.now := rfl

/-- The stored parts have part numbers of S3. -/
def NumbersInRange (parts : List PartRow) : Prop :=
  ∀ p ∈ parts, 1 ≤ p.partNumber ∧ p.partNumber ≤ 10000

namespace MultipartRequest

variable (P : Platform)

/-- The reply is to an upload of part `n`. -/
def AddressesPart (request : MultipartRequest) (w : World) (reply : MultipartReply) (w' : World)
    (n : Int) : Prop :=
  ∃ (partNumber : Nat) (body : ObjectBody) (info : PartInfo), (partNumber : Int) = n ∧
    PartNumberInRange n ∧ reply = .part info ∧
    (uploadPart P (request.named w.now) partNumber body).run w = (.ok info, w')

/-- **The reply is to what was named:** a part was uploaded under the number of the request,
or an upload completed from parts of its numbers. -/
def Addresses (request : MultipartRequest) (w : World) (reply : MultipartReply) (w' : World) :
    Prop :=
  match request.action with
  | .uploadPart input => request.AddressesPart P w reply w' input.partNumber
  | .uploadPartCopy input => request.AddressesPart P w reply w' input.partNumber
  | .completeMultipartUpload parts => ∃ (listed : List CompletePart) (response : PutObjectResponse),
      listed.map (fun p => some (p.partNumber : Int)) = (parts.getD []).map (·.partNumber) ∧
      (∀ p ∈ listed, PartNumberInRange p.partNumber) ∧ reply = .completed response ∧
      (completeMultipartUpload P (request.named w.now) listed).run w = (.ok response, w')
  | .abortMultipartUpload => True
  | .listParts _ => True

/-- **The request does not get to the parts:** whatever parts are stored, it is turned away
with the same error, and nothing but the draws changes. -/
def BlindToParts (caller : Caller) (request : MultipartRequest) (w : World) : Prop :=
  ∃ e, ∀ parts multipart, NumbersInRange parts → ∃ n,
    (request.handle P caller).run (w.withParts parts multipart) =
      (.error e, { w.withParts parts multipart with draws := n })

/-- **No part number is taken for another:** a request that succeeds acts on the parts it
names, which have numbers of S3, and one that names any other number gets to no part. -/
structure NeverAliased (caller : Caller) (request : MultipartRequest) (w : World) : Prop where
  answered : ∀ reply w', (request.handle P caller).run w = (.ok reply, w') →
    request.Addresses P w reply w'
  blind : ∀ n, some n ∈ request.action.partNumbers → ¬ PartNumberInRange n →
    request.BlindToParts P caller w

/-- **A number out of bounds gets as far as the parts.**  For a part upload it is one whose
remainder is in bounds; in a list the remainders rise, and the first is in bounds. -/
def ReachesAliased (caller : Caller) (request : MultipartRequest) (w : World) : Prop :=
  caller.check w.now request.action.operation request.bucket request.key = .ok () ∧
  match request.action with
  | .uploadPart input => input.body.isSome ∧ uploadRowExists request.uploadId w.db = true ∧
      PartNumberAliased input.partNumber
  | .uploadPartCopy input => SourceReadable P caller input w ∧
      uploadRowExists request.uploadId w.db = true ∧ PartNumberAliased input.partNumber
  | .completeMultipartUpload parts => partsInOrder 0 (completeParts parts) = true ∧
      (∃ uploadMeta status, selectUpload request.uploadId w.db = some uploadMeta ∧
        versioningStatus uploadMeta.bucket w.db = some status) ∧
      (∃ first ∈ (completeParts parts).head?, first.partNumber ≤ 10000) ∧
      ∃ n, some n ∈ (parts.getD []).map (·.partNumber) ∧ ¬ PartNumberInRange n
  | .abortMultipartUpload => False
  | .listParts _ => False

end MultipartRequest

/-! ## Numbers -/

theorem asU16_of_inRange {n : Int} (h : PartNumberInRange n) : (asU16 n : Int) = n := by
  unfold PartNumberInRange at h
  unfold asU16
  omega

/-- Only parts with numbers of S3 are stored. -/
theorem numbersInRange_reachable {P : Platform} {w : World} (h : (store P).Reachable w) :
    NumbersInRange w.db.parts := by
  refine (Machine.invariant_reachable (M := store P)
    (I := fun w => WellFormed P w ∧ NumbersInRange w.db.parts)
    ⟨wellFormed_init, fun p hp => nomatch hp⟩ (fun w op hw => ⟨hw.1.next op, ?_⟩) h).2
  intro p hp
  have hparts := (step_effect hw.1.ids hw.1.uploadIds op).parts
  cases hparts with
  | unchanged _ hrows _ => exact hw.2 p (hrows ▸ hp)
  | cascaded _ hrows _ =>
      rw [hrows] at hp
      exact hw.2 p (mem_deleteRows.mp hp).1
  | created _ _ hrows _ _ => exact hw.2 p (hrows ▸ hp)
  | broken _ _ _ hrows _ => exact hw.2 p (hrows ▸ hp)
  | stored hreaches _ _ hrows _ =>
      rw [hrows] at hp
      rcases mem_insertRow.mp hp with hold | rfl
      · exact hw.2 p (mem_deleteRows.mp hold).1
      · exact hreaches.1
  | closed _ hrows _ =>
      rw [hrows] at hp
      exact hw.2 p (mem_deleteRows.mp hp).1

/-! ## One part -/

section Part

variable {P : Platform} {w : World} {upload : MultipartUpload} {partNumber : Nat}

/-- **A number that the store refuses touches no part**, nor does any number of an upload
that is not there. -/
theorem blind_of_unreached (body : ObjectBody) (h : ¬ UploadPartReaches w upload partNumber) :
    ∃ e, ∀ parts multipart,
      (uploadPart P upload partNumber body).run (w.withParts parts multipart) =
        (.error e, w.withParts parts multipart) := by
  by_cases hrange : 1 ≤ partNumber ∧ partNumber ≤ 10000
  · have hnone : uploadRowExists upload.uploadId w.db = false :=
      Bool.eq_false_iff.mpr fun hthere => h ⟨hrange, hthere⟩
    refine ⟨.uploadNotFound upload.uploadId, fun parts multipart => ?_⟩
    have hother : uploadRowExists upload.uploadId (w.withParts parts multipart).db = false := hnone
    simp [uploadPart, query, hrange, hother]
  · exact ⟨.invalidPartNumber partNumber, fun parts multipart => by simp [uploadPart, hrange]⟩

/-- A number that it does not refuse leaves a part file, whatever the body does. -/
theorem partData_of_reached (body : ObjectBody) (h : UploadPartReaches w upload partNumber) :
    (((uploadPart P upload partNumber body).run w).2.files.partData upload.uploadId
      partNumber).isSome := by
  rcases uploadPart_cases (P := P) w upload partNumber body with
    ⟨hno, -⟩ | ⟨-, e, -, hrun⟩ | ⟨-, content, -, hrun⟩
  · exact absurd h hno
  · rw [hrun, partData_rewritePart, if_pos ⟨rfl, rfl⟩]
    rfl
  · rw [hrun]
    have hfile := partData_rewritePart w upload.uploadId partNumber content upload.uploadId
      partNumber
    rw [if_pos ⟨rfl, rfl⟩] at hfile
    exact Option.isSome_iff_exists.mpr ⟨content, hfile⟩

end Part

namespace MultipartRequest

variable {P : Platform} {caller : Caller} {w : World} {request : MultipartRequest}

/-- The request is turned away before it gets to the parts. -/
def RefusedEarly (P : Platform) (caller : Caller) (request : MultipartRequest) (w : World) :
    Prop :=
  ∃ e, ∀ parts multipart, (request.handle P caller).run (w.withParts parts multipart) =
    (.error e, w.withParts parts multipart)

/-- The request uploads a body under what is left of `n`. -/
def UploadsAs (P : Platform) (caller : Caller) (request : MultipartRequest) (w : World)
    (n : Int) : Prop :=
  ∃ body, ∀ parts multipart, (request.handle P caller).run (w.withParts parts multipart) =
    (do let info ← ofStore (uploadPart P (request.named w.now) (asU16 n) body)
        return MultipartReply.part info : S3Prog MultipartReply).run (w.withParts parts multipart)

theorem withParts_self (w : World) : w.withParts w.db.parts w.files.multipart = w := rfl

theorem RefusedEarly.blind (h : RefusedEarly P caller request w) :
    request.BlindToParts P caller w := by
  obtain ⟨e, hrun⟩ := h
  exact ⟨e, fun parts multipart _ => ⟨w.draws, hrun parts multipart⟩⟩

/-- What is turned away early is never aliased. -/
theorem RefusedEarly.neverAliased (h : RefusedEarly P caller request w) :
    request.NeverAliased P caller w := by
  refine ⟨fun reply w' hrun => ?_, fun _ _ _ => h.blind⟩
  obtain ⟨e, hrefused⟩ := h
  have hself := hrefused w.db.parts w.files.multipart
  rw [withParts_self, hrun] at hself
  cases (Prod.mk.inj hself).1

/-- A caller without authorization is turned away early. -/
theorem refusedEarly_of_check {e : S3Error}
    (hcheck : caller.check w.now request.action.operation request.bucket request.key =
      .error e) : RefusedEarly P caller request w :=
  ⟨e, fun _ _ => handle_refused hcheck⟩

/-- A caller with authorization gets on. -/
theorem handle_authorized (request : MultipartRequest)
    (hcheck : caller.check w.now request.action.operation request.bucket request.key = .ok ())
    (parts : List PartRow) (multipart : String → Option (Nat → Option PartFile)) :
    (request.handle P caller).run (w.withParts parts multipart) =
      (request.perform P caller).run (w.withParts parts multipart) := by
  rw [handle, run_authorize_bind, World.withParts_now, hcheck]

/-- **One part:** its number is never taken for another unless the upload is there and the
number is aliased. -/
theorem UploadsAs.aliased_iff {n : Int} (h : UploadsAs P caller request w n)
    (hnumbers : request.action.partNumbers = [some n])
    (haddresses : ∀ reply w', request.Addresses P w reply w' ↔
      request.AddressesPart P w reply w' n) :
    request.NeverAliased P caller w ↔
      ¬ (uploadRowExists request.uploadId w.db = true ∧ PartNumberAliased n) := by
  obtain ⟨body, hrun⟩ := h
  by_cases hreaches : UploadPartReaches w (request.named w.now) (asU16 n)
  · by_cases hrange : PartNumberInRange n
    · refine iff_of_true ⟨fun reply w' hok => ?_, fun m hm hout => ?_⟩ fun h => h.2.1 hrange
      · have hself := hrun w.db.parts w.files.multipart
        rw [withParts_self, hok] at hself
        cases hpart : (uploadPart P (request.named w.now) (asU16 n) body).run w with
        | mk result next =>
            cases result with
            | error e =>
                simp only [run_bind, run_ofStore_error hpart] at hself
                cases (Prod.mk.inj hself).1
            | ok info =>
                simp only [run_bind, run_ofStore_ok hpart] at hself
                obtain ⟨hreply, rfl⟩ := Prod.mk.inj hself
                exact (haddresses _ _).mpr ⟨asU16 n, body, info, asU16_of_inRange hrange, hrange,
                  Except.ok.inj hreply, hpart⟩
      · rw [hnumbers] at hm
        obtain rfl : m = n := Option.some.inj (List.mem_singleton.mp hm)
        exact absurd hrange hout
    · refine iff_of_false (fun hnever => ?_) (not_not.mpr ⟨hreaches.2, hrange, hreaches.1⟩)
      obtain ⟨e, hblind⟩ :=
        hnever.blind n (by rw [hnumbers]; exact List.mem_singleton_self _) hrange
      obtain ⟨draws, hnothing⟩ := hblind [] (fun _ => none) fun p hp => nomatch hp
      have hdata := partData_of_reached (P := P) (w := w.withParts [] fun _ => none) body
        hreaches
      rw [hrun] at hnothing
      have hfiles : ((uploadPart P (request.named w.now) (asU16 n) body).run
          (w.withParts [] fun _ => none)).2 =
          { w.withParts [] fun _ => none with draws } := by
        rw [← (Prod.mk.inj hnothing).2, run_bind]
        cases hpart : (uploadPart P (request.named w.now) (asU16 n) body).run
            (w.withParts [] fun _ => none) with
        | mk result next =>
            cases result with
            | error e => simp only [run_ofStore_error hpart]
            | ok info => simp only [run_ofStore_ok hpart, run_pure]
      rw [hfiles] at hdata
      cases hdata
  · refine iff_of_true (RefusedEarly.neverAliased ?_) fun h => hreaches ⟨h.2.2, h.1⟩
    obtain ⟨e, hrefused⟩ := blind_of_unreached (P := P) body hreaches
    refine ⟨toS3Error e, fun parts multipart => ?_⟩
    rw [hrun, run_bind, run_ofStore_error (hrefused parts multipart)]

section Uploads

variable {bucket key uploadId : String}

/-- An upload of a part. -/
theorem uploadPart_neverAliased_iff (input : UploadPartInput)
    (hcheck : caller.check w.now "PutObject" bucket key = .ok ()) :
    NeverAliased P caller ⟨bucket, key, uploadId, .uploadPart input⟩ w ↔
      ¬ (input.body.isSome ∧ uploadRowExists uploadId w.db = true ∧
        PartNumberAliased input.partNumber) := by
  cases hbody : input.body with
  | none =>
      refine iff_of_true (RefusedEarly.neverAliased ?_) fun h => nomatch h.1
      refine ⟨s3Error .invalidRequest "Missing body", fun parts multipart => ?_⟩
      rw [handle_authorized ⟨bucket, key, uploadId, .uploadPart input⟩ hcheck]
      simp [perform, hbody]
  | some body =>
      have huploads : UploadsAs P caller ⟨bucket, key, uploadId, .uploadPart input⟩ w
          input.partNumber := by
        refine ⟨body, fun parts multipart => ?_⟩
        rw [handle_authorized ⟨bucket, key, uploadId, .uploadPart input⟩ hcheck]
        simp only [perform, run_observe_bind, hbody, run_require_bind]
        rfl
      rw [huploads.aliased_iff rfl fun _ _ => Iff.rfl]
      simp

/-- What a source reads does not depend on the parts. -/
theorem getObject_withParts (srcBucket srcKey : String) (opts : GetObjectOpts)
    (parts : List PartRow) (multipart : String → Option (Nat → Option PartFile)) :
    (getObject P srcBucket srcKey opts).run (w.withParts parts multipart) =
      (((getObject P srcBucket srcKey opts).run w).1, w.withParts parts multipart) := by
  rw [getObject_run, getObject_run]
  rfl

/-- An upload of a part from another object. -/
theorem uploadPartCopy_neverAliased_iff (input : UploadPartCopyInput)
    (hcheck : caller.check w.now "PutObject" bucket key = .ok ()) :
    NeverAliased P caller ⟨bucket, key, uploadId, .uploadPartCopy input⟩ w ↔
      ¬ (SourceReadable P caller input w ∧ uploadRowExists uploadId w.db = true ∧
        PartNumberAliased input.partNumber) := by
  have hperform := handle_authorized (P := P) ⟨bucket, key, uploadId, .uploadPartCopy input⟩ hcheck
  have hcases : UploadsAs P caller ⟨bucket, key, uploadId, .uploadPartCopy input⟩ w
        input.partNumber ∧ SourceReadable P caller input w ∨
      RefusedEarly P caller ⟨bucket, key, uploadId, .uploadPartCopy input⟩ w ∧
        ¬ SourceReadable P caller input w := by
    cases hsource : input.copySource with
    | accessPoint =>
        refine .inr ⟨⟨s3Error .invalidArgument "Access point copy source not supported",
          fun parts multipart => ?_⟩, ?_⟩
        · rw [hperform]
          simp [perform, hsource]
        · rintro ⟨_, _, _, _, _, h, -⟩
          cases hsource.symm.trans h
    | outpost =>
        refine .inr ⟨⟨s3Error .invalidArgument "Outpost copy source not supported",
          fun parts multipart => ?_⟩, ?_⟩
        · rw [hperform]
          simp [perform, hsource]
        · rintro ⟨_, _, _, _, _, h, -⟩
          cases hsource.symm.trans h
    | bucket srcBucket srcKey versionId =>
        cases hread : caller.check w.now "GetObject" srcBucket srcKey with
        | error e =>
            refine .inr ⟨⟨e, fun parts multipart => ?_⟩, ?_⟩
            · rw [hperform]
              simp only [perform, hsource, run_observe_bind, run_authorize_bind,
                World.withParts_now, hread]
            · rintro ⟨_, _, _, _, _, h, hok, -⟩
              cases hsource.symm.trans h
              cases hread.symm.trans hok
        | ok _ =>
            cases hrange : copyRange input with
            | error e =>
                refine .inr ⟨⟨e, fun parts multipart => ?_⟩, ?_⟩
                · rw [hperform]
                  simp only [perform, hsource, run_observe_bind, run_authorize_bind,
                    World.withParts_now, hread, run_lift_bind, hrange]
                · rintro ⟨_, _, _, _, _, -, -, hok, -⟩
                  cases hrange.symm.trans hok
            | ok range =>
                cases hresult : ((getObject P srcBucket srcKey
                    (copyReadOpts input versionId range)).run w).1 with
                | error e =>
                    refine .inr ⟨⟨toS3Error e, fun parts multipart => ?_⟩, ?_⟩
                    · rw [hperform]
                      have hget := getObject_withParts (P := P) (w := w) srcBucket srcKey
                        (copyReadOpts input versionId range) parts multipart
                      rw [hresult] at hget
                      simp only [perform, hsource, run_observe_bind, run_authorize_bind,
                        World.withParts_now, hread, run_lift_bind, hrange]
                      simp only [run_bind, run_ofStore_error hget]
                    · rintro ⟨_, _, _, _, _, h, -, hok, hread⟩
                      cases hsource.symm.trans h
                      cases hrange.symm.trans hok
                      cases hresult.symm.trans hread
                | ok source =>
                    refine .inl ⟨⟨[.ok source.body], fun parts multipart => ?_⟩, srcBucket, srcKey,
                      versionId, range, source, hsource, hread, hrange, hresult⟩
                    rw [hperform]
                    have hget := getObject_withParts (P := P) (w := w) srcBucket srcKey
                      (copyReadOpts input versionId range) parts multipart
                    rw [hresult] at hget
                    simp only [perform, hsource, run_observe_bind, run_authorize_bind,
                      World.withParts_now, hread, run_lift_bind, hrange]
                    rw [run_bind, run_ofStore_ok hget]
  rcases hcases with ⟨huploads, hreadable⟩ | ⟨hrefused, hunreadable⟩
  · rw [huploads.aliased_iff rfl fun _ _ => Iff.rfl, and_iff_right hreadable]
  · exact iff_of_true hrefused.neverAliased fun h => hunreadable h.1

end Uploads

end MultipartRequest

/-! ## A list of parts -/

section Parts

variable {P : Platform} {w : World} {listed : List CompletePart}

/-- A completion whose list is not in order, whose upload or bucket is not there or whose
first part has a number that no part has, ends before it has looked at a part. -/
theorem complete_unreached (upload : MultipartUpload) (hne : listed ≠ [])
    (h : ¬ (partsInOrder 0 listed = true ∧
      (∃ uploadMeta status, selectUpload upload.uploadId w.db = some uploadMeta ∧
        versioningStatus uploadMeta.bucket w.db = some status) ∧
      ∃ first ∈ listed.head?, first.partNumber ≤ 10000)) :
    ∃ e, ∀ parts multipart, NumbersInRange parts →
      (completeMultipartUpload P upload listed).run (w.withParts parts multipart) =
        (.error e, w.withParts parts multipart) := by
  have hselect (parts : List PartRow) (multipart : String → Option (Nat → Option PartFile)) :
      selectUpload upload.uploadId (w.withParts parts multipart).db =
        selectUpload upload.uploadId w.db := rfl
  have hversioning (bucket : String) (parts : List PartRow)
      (multipart : String → Option (Nat → Option PartFile)) :
      versioningStatus bucket (w.withParts parts multipart).db = versioningStatus bucket w.db := rfl
  cases horder : partsInOrder 0 listed with
  | false =>
      exact ⟨.invalidPartOrder, fun _ _ _ => by simp [completeMultipartUpload, horder]⟩
  | true =>
      cases hmeta : selectUpload upload.uploadId w.db with
      | none =>
          exact ⟨.uploadNotFound upload.uploadId, fun _ _ _ => by
            simp [completeMultipartUpload, query, horder, hselect, hmeta]⟩
      | some uploadMeta =>
          cases hstatus : versioningStatus uploadMeta.bucket w.db with
          | none =>
              exact ⟨.bucketNotFound uploadMeta.bucket, fun _ _ _ => by
                simp [completeMultipartUpload, query, horder, hselect, hmeta, hversioning,
                  hstatus]⟩
          | some status =>
              refine ⟨.noSuchPart 0, fun parts multipart hrange => ?_⟩
              obtain ⟨first, rest, rfl⟩ := List.exists_cons_of_ne_nil hne
              have hnone : selectFirst (atPart upload.uploadId first.partNumber) parts = none := by
                rw [selectFirst_none]
                intro p hp
                rw [Bool.eq_false_iff]
                intro hat
                have hnumber := (atPart_iff.mp hat).2
                have hbound := (hrange p hp).2
                exact h ⟨horder, ⟨uploadMeta, status, hmeta, hstatus⟩, first, rfl, by omega⟩
              have hverdict : validateParts upload.uploadId (w.withParts parts multipart).db
                  (first :: rest) = .notFound := by
                rw [validateParts]
                dsimp only [World.withParts]
                rw [hnone]
              simp [completeMultipartUpload, query, horder, hselect, hmeta, hversioning, hstatus,
                hverdict, PartsVerdict.result]

/-- A completion that gets to validation answers with the verdict. -/
theorem complete_verdict {upload : MultipartUpload} {uploadMeta : UploadRow}
    {status : VersioningStatus} {verdict : PartsVerdict} {e : Error} (horder : partsInOrder 0 listed = true)
    (hmeta : selectUpload upload.uploadId w.db = some uploadMeta)
    (hstatus : versioningStatus uploadMeta.bucket w.db = some status)
    (hvalidate : validateParts upload.uploadId w.db listed = verdict)
    (hverdict : verdict.result = .error e) :
    (completeMultipartUpload P upload listed).run w = (.error e, w) := by
  simp [completeMultipartUpload, query, horder, hmeta, hstatus, hvalidate, hverdict]

/-- **A completion that gets to validation looks at the parts:** it answers differently with
no part stored and with a first part of another ETag. -/
theorem complete_reads (upload : MultipartUpload) {first : CompletePart}
    {rest : List CompletePart} {uploadMeta : UploadRow} {status : VersioningStatus}
    (horder : partsInOrder 0 (first :: rest) = true)
    (hmeta : selectUpload upload.uploadId w.db = some uploadMeta)
    (hstatus : versioningStatus uploadMeta.bucket w.db = some status)
    (hbound : first.partNumber ≤ 10000) :
    (completeMultipartUpload P upload (first :: rest)).run (w.withParts [] w.files.multipart) =
        (.error (.noSuchPart 0), w.withParts [] w.files.multipart) ∧
      ∃ parts, NumbersInRange parts ∧
        (completeMultipartUpload P upload (first :: rest)).run
            (w.withParts parts w.files.multipart) =
          (.error (.invalidArgument "Part ETag mismatch"), w.withParts parts w.files.multipart) := by
  have hpositive : 1 ≤ first.partNumber :=
    ((partsInOrder_iff 0 _).mp horder).1 first List.mem_cons_self
  have hnone : validateParts upload.uploadId (w.withParts [] w.files.multipart).db
      (first :: rest) = .notFound := rfl
  refine ⟨complete_verdict horder hmeta hstatus hnone rfl, ?_⟩
  let other : String := if trimQuotes first.etag = "" then "a" else ""
  let row : PartRow := {
    uploadId := upload.uploadId
    partNumber := first.partNumber
    blobId := ""
    size := 0
    etag := other
    createdAt := 0 }
  have hother : trimQuotes other ≠ trimQuotes first.etag := by
    by_cases hempty : trimQuotes first.etag = ""
    · simp only [other, hempty, if_true]
      decide
    · simp only [other, hempty, if_false]
      exact fun heq => hempty heq.symm
  have hmismatch : validateParts upload.uploadId (w.withParts [row] w.files.multipart).db
      (first :: rest) = .etagMismatch := by
    have hstored : selectFirst (atPart upload.uploadId first.partNumber)
        (w.withParts [row] w.files.multipart).db.parts = some row := by
      simp [World.withParts, selectFirst, atPart, row]
    rw [validateParts, hstored]
    exact if_pos hother
  refine ⟨[row], fun p hp => ?_, complete_verdict horder hmeta hstatus hmismatch rfl⟩
  obtain rfl := List.mem_singleton.mp hp
  exact ⟨hpositive, hbound⟩

end Parts

namespace MultipartRequest

variable {P : Platform} {caller : Caller} {w : World} {bucket key uploadId : String}

/-- The numbers of a list whose remainders rise are all given. -/
theorem given_of_inOrder {parts : Option (List CompletedPart)}
    (horder : partsInOrder 0 (completeParts parts) = true) {part : CompletedPart}
    (hpart : part ∈ parts.getD []) : ∃ n, part.partNumber = some n := by
  have hpositive := ((partsInOrder_iff 0 _).mp horder).1 _ (List.mem_map_of_mem hpart)
  cases hnumber : part.partNumber with
  | none =>
      rw [hnumber] at hpositive
      have hzero : 0 < asU16 0 := hpositive
      exact absurd hzero (by decide)
  | some n => exact ⟨n, rfl⟩

/-- Of a completion that succeeds all numbers are in bounds, if none out of bounds gets to
the parts: the first part is stored. -/
theorem inRange_of_completed {parts : Option (List CompletedPart)} {upload : MultipartUpload}
    {response : PutObjectResponse} {w' : World} (hw : (store P).Reachable w)
    (hcomplete : (completeMultipartUpload P upload (completeParts parts)).run w =
      (.ok response, w'))
    (hno : ¬ (partsInOrder 0 (completeParts parts) = true ∧
      (∃ uploadMeta status, selectUpload upload.uploadId w.db = some uploadMeta ∧
        versioningStatus uploadMeta.bucket w.db = some status) ∧
      (∃ first ∈ (completeParts parts).head?, first.partNumber ≤ 10000) ∧
      ∃ n, some n ∈ (parts.getD []).map (·.partNumber) ∧ ¬ PartNumberInRange n)) :
    partsInOrder 0 (completeParts parts) = true ∧
      ∀ n, some n ∈ (parts.getD []).map (·.partNumber) → PartNumberInRange n := by
  rcases completeMultipartUpload_cases upload (completeParts parts)
      (wellFormed_reachable hw).ids with
    ⟨-, e, n, hfails, -⟩ |
      ⟨⟨horder, hvalid, uploadMeta, -, hmeta, ⟨status, hstatus⟩, -⟩, -⟩
  · rw [hfails] at hcomplete
    cases hcomplete
  · refine ⟨horder, fun n hn => ?_⟩
    by_contra hout
    cases hlist : completeParts parts with
    | nil =>
        rw [completeParts, List.map_eq_nil_iff] at hlist
        rw [hlist] at hn
        cases hn
    | cons first rest =>
        rw [hlist] at hvalid
        obtain ⟨p, hp, hat, -⟩ := validateParts_cons hvalid
        have hbound := (numbersInRange_reachable hw p hp).2
        rw [(atPart_iff.mp hat).2] at hbound
        exact hno ⟨horder, ⟨uploadMeta, status, hmeta, hstatus⟩,
          ⟨first, by rw [hlist]; rfl, hbound⟩, n, hn, hout⟩

/-- A completion. -/
theorem complete_neverAliased_iff (parts : Option (List CompletedPart))
    (hw : (store P).Reachable w) (hcheck : caller.check w.now "PutObject" bucket key = .ok ()) :
    NeverAliased P caller ⟨bucket, key, uploadId, .completeMultipartUpload parts⟩ w ↔
      ¬ (partsInOrder 0 (completeParts parts) = true ∧
        (∃ uploadMeta status, selectUpload uploadId w.db = some uploadMeta ∧
          versioningStatus uploadMeta.bucket w.db = some status) ∧
        (∃ first ∈ (completeParts parts).head?, first.partNumber ≤ 10000) ∧
        ∃ n, some n ∈ (parts.getD []).map (·.partNumber) ∧ ¬ PartNumberInRange n) := by
  let request : MultipartRequest := ⟨bucket, key, uploadId, .completeMultipartUpload parts⟩
  have hrun (rows : List PartRow) (multipart : String → Option (Nat → Option PartFile)) :
      (request.handle P caller).run (w.withParts rows multipart) =
        (do let response ← ofStore (completeMultipartUpload P (request.named w.now)
              (completeParts parts))
            return MultipartReply.completed response : S3Prog MultipartReply).run
          (w.withParts rows multipart) := by
    rw [handle_authorized request hcheck]
    rfl
  constructor
  · rintro hnever ⟨horder, ⟨uploadMeta, status, hmeta, hstatus⟩, ⟨first, hfirst, hbound⟩, n, hn,
      hout⟩
    obtain ⟨e, hblind⟩ := hnever.blind n hn hout
    obtain ⟨rest, hlist⟩ : ∃ rest, completeParts parts = first :: rest :=
      ⟨_, (List.cons_head?_tail hfirst).symm⟩
    rw [hlist] at horder hrun
    obtain ⟨hnone, rows, hrange, hmismatch⟩ :=
      complete_reads (P := P) (request.named w.now) horder hmeta hstatus hbound
    obtain ⟨_, hwithout⟩ := hblind [] w.files.multipart fun p hp => nomatch hp
    obtain ⟨_, hwith⟩ := hblind rows w.files.multipart hrange
    rw [hrun, run_bind, run_ofStore_error hnone] at hwithout
    rw [hrun, run_bind, run_ofStore_error hmismatch] at hwith
    have hsame : toS3Error (.noSuchPart 0) = toS3Error (.invalidArgument "Part ETag mismatch") :=
      (Except.error.inj (Prod.mk.inj hwithout).1).trans
        (Except.error.inj (Prod.mk.inj hwith).1).symm
    cases hsame
  · intro hno
    constructor
    case answered =>
      intro reply w' hok
      have hself := hrun w.db.parts w.files.multipart
      rw [withParts_self, hok] at hself
      cases hcomplete : (completeMultipartUpload P (request.named w.now)
          (completeParts parts)).run w with
      | mk result next =>
          cases result with
          | error e =>
              simp only [run_bind, run_ofStore_error hcomplete] at hself
              cases (Prod.mk.inj hself).1
          | ok response =>
              simp only [run_bind, run_ofStore_ok hcomplete] at hself
              obtain ⟨hreply, rfl⟩ := Prod.mk.inj hself
              obtain ⟨horder, hall⟩ := inRange_of_completed hw hcomplete hno
              refine ⟨completeParts parts, response, ?_, ?_, Except.ok.inj hreply, hcomplete⟩
              · rw [completeParts, List.map_map]
                refine List.map_congr_left fun part hpart => ?_
                obtain ⟨n, hn⟩ := given_of_inOrder horder hpart
                have hrange := hall n (List.mem_map.mpr ⟨part, hpart, hn⟩)
                simp [hn, asU16_of_inRange hrange]
              · intro p hp
                obtain ⟨part, hpart, rfl⟩ := List.mem_map.mp hp
                obtain ⟨n, hn⟩ := given_of_inOrder horder hpart
                have hrange := hall n (List.mem_map.mpr ⟨part, hpart, hn⟩)
                simpa [hn, asU16_of_inRange hrange] using hrange
    case blind =>
      intro n hn hout
      have hne : completeParts parts ≠ [] := by
        intro hempty
        rw [completeParts, List.map_eq_nil_iff] at hempty
        have hnil : some n ∈ (parts.getD []).map (·.partNumber) := hn
        rw [hempty] at hnil
        cases hnil
      obtain ⟨e, hrefused⟩ := complete_unreached (P := P) (request.named w.now) hne
        fun h => hno ⟨h.1, h.2.1, h.2.2, n, hn, hout⟩
      refine ⟨toS3Error e, fun rows multipart hrange => ⟨w.draws, ?_⟩⟩
      rw [hrun, run_bind, run_ofStore_error (hrefused rows multipart hrange)]
      rfl

/-- **A request never takes a part number for another, exactly** unless a number out of
bounds gets as far as the parts. -/
theorem neverAliased_iff (hw : (store P).Reachable w) (request : MultipartRequest) :
    request.NeverAliased P caller w ↔ ¬ request.ReachesAliased P caller w := by
  cases hcheck : caller.check w.now request.action.operation request.bucket request.key with
  | error e =>
      refine iff_of_true (refusedEarly_of_check hcheck).neverAliased fun h => ?_
      exact nomatch hcheck.symm.trans h.1
  | ok _ =>
      rw [ReachesAliased, and_iff_right hcheck]
      obtain ⟨bucket, key, uploadId, action⟩ := request
      cases action with
      | uploadPart input => exact uploadPart_neverAliased_iff input hcheck
      | uploadPartCopy input => exact uploadPartCopy_neverAliased_iff input hcheck
      | completeMultipartUpload parts => exact complete_neverAliased_iff parts hw hcheck
      | abortMultipartUpload =>
          exact iff_of_true ⟨fun _ _ _ => trivial, fun n hn => nomatch hn⟩ not_false
      | listParts input =>
          exact iff_of_true ⟨fun _ _ _ => trivial, fun n hn => nomatch hn⟩ not_false

/-! ## Part 65537 -/

/-- An upload of the letter `b` as a part. -/
def uploadLetter (partNumber : Int) : MultipartRequest where
  bucket := "docs"
  key := "big"
  uploadId := bigUpload.uploadId
  action := .uploadPart { partNumber, body := some [.ok [98]] }

/-- The second part goes to the second part. -/
theorem neverAliased_iff_second :
    (uploadLetter 2).NeverAliased digestPlatform rootCaller onePartWorld := by
  refine (neverAliased_iff ⟨onePart, rfl⟩ (uploadLetter 2)).mpr fun h => ?_
  exact h.2.2.2.1 (by decide)

/-- An upload of part 65537 overwrites part 1. -/
theorem part_aliased :
    ((uploadLetter 65537).handle digestPlatform rootCaller |>.run onePartWorld).2.files.partData
        bigUpload.uploadId 1 = some [98] ∧
      ¬ ∀ (P : Platform) (w : World) (caller : Caller) (request : MultipartRequest),
        (store P).Reachable w → request.NeverAliased P caller w := by
  have hwritten : ((uploadLetter 65537).handle digestPlatform rootCaller |>.run
      onePartWorld).2.files.partData bigUpload.uploadId 1 = some [98] := by decide
  refine ⟨hwritten, fun hall => ?_⟩
  obtain ⟨e, hblind⟩ := (hall digestPlatform onePartWorld rootCaller (uploadLetter 65537)
    ⟨onePart, rfl⟩).blind 65537 (List.mem_singleton_self _) (by decide)
  obtain ⟨n, hnothing⟩ := hblind onePartWorld.db.parts onePartWorld.files.multipart
    (numbersInRange_reachable ⟨onePart, rfl⟩)
  rw [withParts_self] at hnothing
  rw [hnothing] at hwritten
  have hbefore : onePartWorld.files.partData bigUpload.uploadId 1 = some [97] := by decide
  exact absurd (hbefore.symm.trans hwritten) (by decide)

end MultipartRequest

end Strix

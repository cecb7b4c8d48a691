import Strix.Assembly
import Strix.ObjectRequests

/-!
# Declared digests of bodies

`PutObject` and `UploadPart` may declare the MD5 of their body in `Content-MD5`.  The
handlers hash what they receive for the ETag and do not look at the header.

* `handle_aborts_or_succeeds`: what becomes of a request, whatever it declares;
* `digestBinds_iff`: a wrong digest is told exactly by requests that fail anyway and leave
  everything that can be read or completed as it was;
* `wrongDigest_stored`: an object is stored under a wrong digest.
-/

namespace Strix

open AtomicProgram AtomicProgram.Prog RowTable

/-- The requests that may declare a digest. -/
inductive BodyCall
  | putObject (input : PutObjectInput)
  | uploadPart (bucket key uploadId : String) (input : UploadPartInput)

/-- A request with the digest that it declares, in base64. -/
structure DigestRequest where
  call : BodyCall
  contentMd5 : Option String := none

namespace BodyCall

/-- The body of a request. -/
def body : BodyCall → Option ObjectBody
  | putObject input => input.body
  | uploadPart _ _ _ input => input.body

/-- A part upload as a request that names an upload. -/
def multipart (bucket key uploadId : String) (input : UploadPartInput) : MultipartRequest where
  bucket := bucket
  key := key
  uploadId := uploadId
  action := .uploadPart input

end BodyCall

variable (P : Platform) (caller : Caller)

/-- The handler of the request: it does not read the digest. -/
def DigestRequest.handle (request : DigestRequest) : S3Prog Unit :=
  match request.call with
  | .putObject input => do
    let _ ← S3Service.putObject P caller input
    return ()
  | .uploadPart bucket key uploadId input => do
    let _ ← (BodyCall.multipart bucket key uploadId input).handle P caller
    return ()

/-- **The digest is wrong**: it is declared and not that of the bytes received. -/
def DigestRequest.Mismatch (request : DigestRequest) : Prop :=
  ∃ header, request.contentMd5 = some header ∧
    P.base64Decode header ≠ some (P.md5 (receivedBytes (request.call.body.getD [])))

/-- Completing the upload from these parts is accepted and joins them to this content. -/
def Completes (w : World) (uploadId : String) (parts : List CompletePart) (content : Bytes) :
    Prop :=
  CompleteAccepted P w uploadId parts ∧ assembled w.files uploadId parts = some content

/-- **Everything is as before**: the tables of objects and parts, what a read answers, and
what a completion makes of parts. -/
structure AsBefore (w w' : World) : Prop where
  objects : w'.db.objects = w.db.objects
  parts : w'.db.parts = w.db.parts
  reads : ∀ bucket key opts,
    ((getObject P bucket key opts).run w').1 = ((getObject P bucket key opts).run w).1
  completions : ∀ uploadId parts content,
    Completes P w' uploadId parts content ↔ Completes P w uploadId parts content

/-- **A declared digest binds**: with a wrong one the request fails and everything is as
before. -/
def DigestBinds (w : World) (request : DigestRequest) : Prop :=
  request.Mismatch P →
    (∃ e, ((request.handle P caller).run w).1 = .error e) ∧
      AsBefore P w ((request.handle P caller).run w).2

/-- A part file that breaks off has done no harm: it holds what it held before, or no
completion that lists the part is accepted, neither before nor after. -/
def BreaksHarmlessly (w : World) (uploadId : String) (partNumber : Nat) (received : Bytes) :
    Prop :=
  w.files.partData uploadId partNumber = some received ∨
    ∀ parts, (∃ part ∈ parts, part.partNumber = partNumber) →
      ¬CompleteAccepted P w uploadId parts ∧
        ¬CompleteAccepted P (w.rewritePart uploadId partNumber received) uploadId parts

/-- **The condition**: the request fails whatever it declares, and it does no harm. -/
def FailsAnyway (w : World) (request : DigestRequest) : Prop :=
  match request.call with
  | .putObject input =>
    ¬(caller.check w.now "PutObject" input.bucket input.key = .ok () ∧
      ∃ body, input.body = some body ∧ PutAccepted P w input.bucket body
        (input.headers.opts input.headers.putEncryption))
  | .uploadPart bucket key uploadId input =>
    ¬(BodyCall.multipart bucket key uploadId input).Acceptable P caller w ∧
      ∀ partNumber body,
        (BodyCall.multipart bucket key uploadId input).BreaksOff caller w partNumber body →
          BreaksHarmlessly P w uploadId partNumber (receivedBytes body)

section

variable {P caller} {w : World}

/-! ## What a write to a part file changes -/

/-- Drawing changes nothing that is read or completed. -/
theorem asBefore_drawn (w : World) (n : Nat) : AsBefore P w { w with draws := n } where
  objects := rfl
  parts := rfl
  reads := by
    intro bucket key opts
    rw [getObject_run, getObject_run]
  completions := fun _ _ _ => Iff.rfl

/-- The first part's data, and the join of the others. -/
theorem assembled_cons (files : Files) (uploadId : String) (part : CompletePart)
    (rest : List CompletePart) :
    assembled files uploadId (part :: rest) =
      (files.partData uploadId part.partNumber).bind fun data =>
        (assembled files uploadId rest).map fun more => data ++ more := by
  rw [assembled, Files.partData]
  cases files.part uploadId part.partNumber with
  | none => rfl
  | some file => cases assembled files uploadId rest <;> rfl

/-- Which parts are joined depends on the data of the listed part files. -/
theorem assembled_congr {files files' : Files} {uploadId : String} {parts : List CompletePart}
    (h : ∀ part ∈ parts, files'.partData uploadId part.partNumber =
      files.partData uploadId part.partNumber) :
    assembled files' uploadId parts = assembled files uploadId parts := by
  induction parts with
  | nil => rfl
  | cons part rest ih =>
      rw [assembled_cons, assembled_cons, h part List.mem_cons_self,
        ih fun other hother => h other (List.mem_cons_of_mem _ hother)]

/-- **Two joins that agree agree in every part**, when at most one part differs. -/
theorem partData_eq_of_assembled {files files' : Files} {uploadId : String} {n : Nat}
    {parts : List CompletePart} {content : Bytes}
    (hothers : ∀ m, m ≠ n → files'.partData uploadId m = files.partData uploadId m)
    (hdistinct : (parts.map (·.partNumber)).Pairwise (· < ·))
    (hlisted : ∃ part ∈ parts, part.partNumber = n)
    (hbefore : assembled files uploadId parts = some content)
    (hafter : assembled files' uploadId parts = some content) :
    files'.partData uploadId n = files.partData uploadId n := by
  induction parts generalizing content with
  | nil =>
      obtain ⟨part, hpart, -⟩ := hlisted
      cases hpart
  | cons part rest ih =>
      rw [assembled_cons] at hbefore hafter
      obtain ⟨data, hdata, hmore⟩ := Option.bind_eq_some_iff.mp hbefore
      obtain ⟨data', hdata', hmore'⟩ := Option.bind_eq_some_iff.mp hafter
      obtain ⟨more, hrest, rfl⟩ := Option.map_eq_some_iff.mp hmore
      obtain ⟨more', hrest', hjoined⟩ := Option.map_eq_some_iff.mp hmore'
      rw [List.map_cons, List.pairwise_cons] at hdistinct
      by_cases hpart : part.partNumber = n
      · -- the other parts are the same in both joins
        have hsame : assembled files' uploadId rest = assembled files uploadId rest := by
          refine assembled_congr fun other hother => hothers _ ?_
          have hlt := hdistinct.1 _ (List.mem_map_of_mem hother)
          omega
        rw [hrest, hrest'] at hsame
        obtain rfl := Option.some.inj hsame
        rw [← hpart, hdata, hdata', List.append_cancel_right hjoined]
      · have hsame := hothers _ hpart
        rw [hdata, hdata'] at hsame
        obtain rfl := Option.some.inj hsame
        refine ih hdistinct.2 ?_ hrest ((List.append_cancel_left hjoined) ▸ hrest')
        obtain ⟨other, hother, hnumber⟩ := hlisted
        rcases List.mem_cons.mp hother with rfl | hother
        · exact absurd hnumber hpart
        · exact ⟨other, hother, hnumber⟩

/-- Acceptance depends on the tables and on what is joined. -/
theorem completes_congr {w' : World} (hdb : w'.db = w.db) {uploadId : String}
    {parts : List CompletePart} {content : Bytes}
    (hjoin : assembled w'.files uploadId parts = assembled w.files uploadId parts) :
    Completes P w' uploadId parts content ↔ Completes P w uploadId parts content := by
  unfold Completes CompleteAccepted
  rw [hdb, hjoin]

/-- **A rewritten part file leaves everything as before** exactly if the write is
harmless. -/
theorem asBefore_rewritePart_iff (uploadId : String) (n : Nat) (received : Bytes) :
    AsBefore P w (w.rewritePart uploadId n received) ↔
      BreaksHarmlessly P w uploadId n received := by
  have hself : (w.rewritePart uploadId n received).files.partData uploadId n = some received := by
    rw [partData_rewritePart, if_pos ⟨rfl, rfl⟩]
  constructor
  · intro hbefore
    by_cases hsame : w.files.partData uploadId n = some received
    · exact Or.inl hsame
    · refine Or.inr fun parts hlisted => ?_
      -- an accepted completion would join the same content before and after
      have hnone : ∀ content, Completes P w uploadId parts content →
          Completes P (w.rewritePart uploadId n received) uploadId parts content → False := by
        rintro content ⟨⟨horder, -⟩, hjoin⟩ ⟨-, hjoin'⟩
        refine hsame ((partData_eq_of_assembled (fun m hm => ?_) ((partsInOrder_iff 0 parts).mp
          horder).2 hlisted hjoin hjoin').symm.trans hself)
        rw [partData_rewritePart, if_neg fun h => hm h.2]
      constructor
      · intro haccepted
        obtain ⟨-, -, -, content, -, -, hjoin, -⟩ := id haccepted
        exact hnone content ⟨haccepted, hjoin⟩
          ((hbefore.completions uploadId parts content).mpr ⟨haccepted, hjoin⟩)
      · intro haccepted
        obtain ⟨-, -, -, content, -, -, hjoin, -⟩ := id haccepted
        exact hnone content ((hbefore.completions uploadId parts content).mp ⟨haccepted, hjoin⟩)
          ⟨haccepted, hjoin⟩
  · intro hharmless
    refine ⟨rfl, rfl, fun bucket key opts => ?_, fun id parts content => ?_⟩
    · rw [getObject_run, getObject_run]
      rfl
    · by_cases hlisted : id = uploadId ∧ ∃ part ∈ parts, part.partNumber = n
      · obtain ⟨rfl, hlisted⟩ := hlisted
        rcases hharmless with hsame | hnone
        · exact completes_congr (w.rewritePart_db _ _ _)
            (assembled_congr fun part _ => partData_rewritePart_same hsame _ _)
        · obtain ⟨hbefore, hafter⟩ := hnone parts hlisted
          exact iff_of_false (fun h => hafter h.1) fun h => hbefore h.1
      · refine completes_congr (w.rewritePart_db _ _ _) (assembled_congr fun part hpart => ?_)
        rw [partData_rewritePart, if_neg fun h => hlisted ⟨h.1, part, hpart, h.2⟩]

/-! ## What becomes of a request -/

/-- A put that is not accepted, or whose caller may not make it, only draws. -/
theorem putObject_aborts (hids : IdsDrawn P w) (caller : Caller) (input : PutObjectInput) :
    (¬(caller.check w.now "PutObject" input.bucket input.key = .ok () ∧
        ∃ body, input.body = some body ∧ PutAccepted P w input.bucket body
          (input.headers.opts input.headers.putEncryption)) ∧
      ∃ e n, (S3Service.putObject P caller input).run w = (.error e, { w with draws := n })) ∨
    ((caller.check w.now "PutObject" input.bucket input.key = .ok () ∧
        ∃ body, input.body = some body ∧ PutAccepted P w input.bucket body
          (input.headers.opts input.headers.putEncryption)) ∧
      ∃ response w', (S3Service.putObject P caller input).run w = (.ok response, w')) := by
  rw [S3Service.putObject, run_authorize_bind]
  cases hcheck : caller.check w.now "PutObject" input.bucket input.key with
  | error e => exact Or.inl ⟨fun h => (by cases h.1), e, w.draws, rfl⟩
  | ok _ =>
      cases hbody : input.body with
      | none =>
          refine Or.inl ⟨?_, _, w.draws, rfl⟩
          rintro ⟨-, body, h, -⟩
          cases h
      | some body =>
          simp only [run_require_bind]
          rcases putObject_cases input.bucket input.key body
              (input.headers.opts input.headers.putEncryption) hids with
            ⟨hno, e, n, hrun, -⟩ | ⟨hyes, status, row, sseCKey, content, data, n, hrun, -⟩
          · left
            refine ⟨?_, toS3Error e, n, run_ofStore_error hrun⟩
            rintro ⟨-, body', hsome, haccepted⟩
            obtain rfl := Option.some.inj hsome
            exact hno haccepted
          · right
            exact ⟨⟨trivial, body, rfl, hyes⟩, _, _, run_ofStore_ok hrun⟩

/-- The body of a part upload that breaks off is its own. -/
theorem breaksOff_unique {bucket key uploadId : String} {input : UploadPartInput} {n n' : Nat}
    {body body' : ObjectBody}
    (h : (BodyCall.multipart bucket key uploadId input).BreaksOff caller w n body)
    (h' : (BodyCall.multipart bucket key uploadId input).BreaksOff caller w n' body') :
    n' = n ∧ body' = body := by
  obtain ⟨-, ⟨_, ⟨rfl⟩, hbody, rfl⟩, -⟩ := h
  obtain ⟨-, ⟨_, ⟨rfl⟩, hbody', rfl⟩, -⟩ := h'
  exact ⟨rfl, Option.some.inj (hbody'.symm.trans hbody)⟩

/-- **What becomes of a request**: it fails and everything is as before, exactly under the
condition. -/
theorem fails_as_before_iff (hids : IdsDrawn P w) (request : DigestRequest) :
    ((∃ e, ((request.handle P caller).run w).1 = .error e) ∧
        AsBefore P w ((request.handle P caller).run w).2) ↔
      FailsAnyway P caller w request := by
  obtain ⟨call, contentMd5⟩ := request
  cases call with
  | putObject input =>
      simp only [DigestRequest.handle, FailsAnyway, run_bind]
      rcases putObject_aborts hids caller input with
        ⟨hno, e, n, hrun⟩ | ⟨hyes, response, w', hrun⟩
      · rw [hrun]
        exact iff_of_true ⟨⟨e, rfl⟩, asBefore_drawn w n⟩ hno
      · rw [hrun]
        exact iff_of_false (fun h => by simp at h) fun h => h hyes
  | uploadPart bucket key uploadId input =>
      simp only [DigestRequest.handle, FailsAnyway, run_bind]
      have houtcome : MultipartRequest.Outcome P caller w
          (BodyCall.multipart bucket key uploadId input)
          (((BodyCall.multipart bucket key uploadId input).handle P caller).run w) :=
        MultipartRequest.handle_outcome hids _
      generalize ((BodyCall.multipart bucket key uploadId input).handle P caller).run w = outcome
        at houtcome ⊢
      cases houtcome with
      | refused hno hquiet hn =>
          refine iff_of_true ⟨⟨_, rfl⟩, asBefore_drawn w _⟩ ⟨hno, fun n body hbroken => ?_⟩
          exact absurd hbroken (hquiet n body)
      | brokenOff hno hbroken =>
          constructor
          · rintro ⟨-, hbefore⟩
            refine ⟨hno, fun n body hbroken' => ?_⟩
            obtain ⟨rfl, rfl⟩ := breaksOff_unique hbroken hbroken'
            exact (asBefore_rewritePart_iff _ _ _).mp hbefore
          · rintro ⟨-, hharmless⟩
            exact ⟨⟨_, rfl⟩, (asBefore_rewritePart_iff _ _ _).mpr (hharmless _ _ hbroken)⟩
      | storedPart hok => exact iff_of_false (fun h => by simp at h) fun h => h.1 hok
      | completed hok => exact iff_of_false (fun h => by simp at h) fun h => h.1 hok
      | aborted hok => exact iff_of_false (fun h => by simp at h) fun h => h.1 hok
      | listed hok => exact iff_of_false (fun h => by simp at h) fun h => h.1 hok

end

/-- **Which declared digests bind**: those of requests that fail anyway and do no harm. -/
theorem digestBinds_iff {w : World} (hw : (store P).Reachable w) (request : DigestRequest) :
    DigestBinds P caller w request ↔ (request.Mismatch P → FailsAnyway P caller w request) := by
  have hids : IdsDrawn P w := (wellFormed_reachable hw).ids
  exact forall_congr' fun _ => fails_as_before_iff hids request

/-! ## A wrong digest -/

/-- The platform, with the digest of `b` read back from base64. -/
def base64Platform : Platform :=
  { executablePlatform with
    base64Decode := fun text =>
      if text = "kutf/uauL+w61xx3dTFXjw==" then some (tabulatedMd5 [98]) else none }

/-- A bucket. -/
def docsBucket : World := (store base64Platform).after {} [.createBucket "docs" {}]

/-- An `a` under the digest of `b`. -/
def wrongDigest : DigestRequest where
  call := .putObject { bucket := "docs", key := "k", body := some [.ok [97]] }
  contentMd5 := some "kutf/uauL+w61xx3dTFXjw=="

theorem wrongDigest_binds_iff :
    DigestBinds base64Platform rootCaller docsBucket wrongDigest ↔
      (wrongDigest.Mismatch base64Platform →
        FailsAnyway base64Platform rootCaller docsBucket wrongDigest) :=
  digestBinds_iff base64Platform rootCaller ⟨_, rfl⟩ wrongDigest

/-- **The object is stored all the same.** -/
theorem wrongDigest_stored :
    ¬DigestBinds base64Platform rootCaller docsBucket wrongDigest := by
  intro hbinds
  have hok : ((wrongDigest.handle base64Platform rootCaller).run docsBucket).1.isOk = true := by
    decide +kernel
  obtain ⟨⟨e, he⟩, -⟩ := hbinds ⟨"kutf/uauL+w61xx3dTFXjw==", rfl, by decide +kernel⟩
  rw [he] at hok
  cases hok

end Strix

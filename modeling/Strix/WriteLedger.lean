import Strix.StoreInvariant

/-!
# What the clients have written

An observer of the store keeps a ledger of the answered writes: for every
version the content its writer sent, and for every part of an upload the body
last stored and the ETag it was answered with.  Reads are later compared with
this ledger, so it is kept from the calls and their answers; the store's
tables only tell it which version a copy read and which object an upload was
for.
-/

namespace Strix

open MachineRuns RowTable

/-- What a version was written with: its content, and the customer key of a
put that sent one. -/
structure Written where
  content : Bytes
  sseKey : Option EncryptionKey

/-- A part as it was last stored, and the ETag issued for it. -/
structure IssuedPart where
  content : Bytes
  etag : String

/-- The ledger: versions by bucket, key and version id, parts by upload id
and part number. -/
structure Ledger where
  versions : String × String × String → Option Written := fun _ => none
  parts : String × Nat → Option IssuedPart := fun _ => none

namespace Ledger

/-- Note a version under the version id that its writer was answered. -/
def noteVersion (l : Ledger) (bucket key : String) (answered : Option String)
    (written : Option Written) : Ledger :=
  { l with versions := Function.update l.versions (bucket, key, answered.getD "null") written }

/-- The listed parts as they were last stored, joined. -/
def joined (l : Ledger) (uploadId : String) (parts : List CompletePart) : Bytes :=
  parts.flatMap fun part =>
    ((l.parts (uploadId, part.partNumber)).map (·.content)).getD []

variable (P : Platform)

/-- Note one call and its answer. -/
def note (l : Ledger) (w : World) : Op → Except Error Reply → Ledger
  | .putObject bucket key body opts, .ok (.put answer) =>
      l.noteVersion bucket key answer.versionId (some {
        content := receivedBytes body
        sseKey := (putCustomerKey P opts).toOption.join })
  | .copyObject srcBucket srcKey dstBucket dstKey _, .ok (.copied answer) =>
      l.noteVersion dstBucket dstKey answer.versionId
        ((selectObject srcBucket srcKey none w.db).bind fun src =>
          l.versions (srcBucket, srcKey, src.versionId))
  | .completeMultipartUpload upload parts, .ok (.put answer) =>
      match selectUpload upload.uploadId w.db with
      | some uploadMeta =>
          l.noteVersion uploadMeta.bucket uploadMeta.key answer.versionId (some {
            content := l.joined upload.uploadId parts
            sseKey := none })
      | none => l
  | .uploadPart upload partNumber body, .ok (.part info) =>
      { l with
        parts := Function.update l.parts (upload.uploadId, partNumber) (some {
          content := receivedBytes body
          etag := info.etag }) }
  | _, _ => l

end Ledger

variable (P : Platform)

/-- The ledger of a run from the empty store. -/
def ledger (run : List Op) : Ledger :=
  (((store P).observed (Ledger.note P) {}).after
    ((store P).observed (Ledger.note P) {}).init run).2

variable {P}

/-- One more call, one more note. -/
theorem ledger_concat (run : List Op) (op : Op) :
    ledger P (run ++ [op]) = (ledger P run).note P ((store P).after (store P).init run) op
      ((store P).reply ((store P).after (store P).init run) op) := by
  have hworld : (((store P).observed (Ledger.note P) {}).after
      ((store P).observed (Ledger.note P) {}).init run).1 =
        (store P).after (store P).init run := Machine.observed_after_fst _ run
  unfold ledger
  rw [Machine.after_append, Machine.after_cons, Machine.after_nil]
  show Ledger.note P _ _ op _ = _
  rw [hworld]
  rfl

/-- The version id that a writer answers names the version it has written. -/
theorem answeredVersionId_getD {status : VersioningStatus} {versionId id : String}
    (h : versionId = newVersionId status id) :
    (answeredVersionId status versionId).getD "null" = versionId := by
  subst h
  unfold answeredVersionId newVersionId
  by_cases hs : status = .enabled <;> simp [hs]

/-- Only part uploads change the ledger's parts. -/
theorem Ledger.note_parts {l : Ledger} {w : World} {op : Op} {reply : Except Error Reply}
    (hop : ∀ upload partNumber body, op ≠ .uploadPart upload partNumber body) :
    (l.note P w op reply).parts = l.parts := by
  unfold Ledger.note
  split
  · rfl
  · rfl
  · split <;> rfl
  · exact absurd rfl (hop _ _ _)
  · rfl

/-- A part upload changes no version. -/
theorem Ledger.note_versions_uploadPart {l : Ledger} {w : World} {upload : MultipartUpload}
    {partNumber : Nat} {body : ObjectBody} {reply : Except Error Reply} :
    (l.note P w (.uploadPart upload partNumber body) reply).versions = l.versions := by
  cases reply with
  | error e => rfl
  | ok answer => cases answer <;> rfl

/-- **Invariant rule for the ledger.**  What every call that meets `G` keeps
between the store and the ledger holds after every run of such calls. -/
theorem ledger_invariant {I : World → Ledger → Prop} {G : World → Op → Prop}
    (hinit : I (store P).init {})
    (hstep : ∀ w l op, WellFormed P w → I w l → G w op →
      I ((store P).next w op) (l.note P w op ((store P).reply w op)))
    {run : List Op} (hrun : (store P).AllSteps G (store P).init run) :
    I ((store P).after (store P).init run) (ledger P run) := by
  have hboth : ∀ w l op, WellFormed P w ∧ I w l → G w op → WellFormed P ((store P).next w op) ∧
      I ((store P).next w op) (l.note P w op ((store P).reply w op)) :=
    fun w l op h hguard => ⟨h.1.next op, hstep w l op h.1 h.2 hguard⟩
  exact (Machine.invariant_observed hboth ⟨wellFormed_init, hinit⟩ hrun).2

end Strix

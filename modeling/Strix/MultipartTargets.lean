import Strix.ExecutablePlatform
import Strix.MultipartRequests

/-!
# The upload a request acts on

A request that names a bucket, a key and an upload is authorized for that
bucket and key; it should act on an upload that was created for them and leave
all other buckets alone (`ActsOnNamed`).  The store, however, looks the upload
up by its id.

`request_actsOnNamed_iff`: a request acts on what it names exactly when, if it
is acceptable, the upload's record is for the named bucket and key, and, if its
body breaks off, the upload is at least in the named bucket or its part file
already holds what arrived.
-/

namespace Strix

open AtomicProgram AtomicProgram.Prog MachineRuns RowTable

/-- The upload that the request names was created for its bucket and key. -/
def MultipartRequest.RecordFor (request : MultipartRequest) (w : World) : Prop :=
  ∃ u ∈ w.db.uploads,
    u.uploadId = request.uploadId ∧ u.bucket = request.bucket ∧ u.key = request.key

/-- The part belongs to an upload into another bucket. -/
def partElsewhere (w : World) (bucket : String) (p : PartRow) : Bool :=
  w.db.uploads.any fun u => u.uploadId == p.uploadId && u.bucket != bucket

/-- **Other buckets are left alone**: their object rows and blobs, the uploads
into them, and the rows and files of these uploads' parts. -/
structure SparesOthers (bucket : String) (w w' : World) : Prop where
  objects : w'.db.objects.filter (·.bucket != bucket) =
    w.db.objects.filter (·.bucket != bucket)
  blobs : ∀ r ∈ w.db.objects, r.bucket ≠ bucket →
    w'.files.objects r.id = w.files.objects r.id
  uploads : w'.db.uploads.filter (·.bucket != bucket) =
    w.db.uploads.filter (·.bucket != bucket)
  parts : w'.db.parts.filter (partElsewhere w bucket) =
    w.db.parts.filter (partElsewhere w bucket)
  files : ∀ u ∈ w.db.uploads, u.bucket ≠ bucket → ∀ n,
    (w'.files.part u.uploadId n).map (·.data) = (w.files.part u.uploadId n).map (·.data)

/-- **The request acts on what it names**: if it succeeds, the upload was
created for its bucket and key; and in any case other buckets are left alone. -/
def MultipartRequest.ActsOnNamed (P : Platform) (caller : Caller) (request : MultipartRequest)
    (w : World) : Prop :=
  (request.Succeeds P caller w → request.RecordFor w) ∧
    SparesOthers request.bucket w ((request.handle P caller).run w).2

namespace SparesOthers

variable {bucket : String} {w w' : World}

/-- Draws do not show. -/
theorem draws (n : Nat) : SparesOthers bucket w { w with draws := n } :=
  ⟨rfl, fun _ _ _ => rfl, rfl, rfl, fun _ _ _ _ => rfl⟩

variable {uploadId : String}

/-- With one record for each id, an upload into another bucket has another id. -/
theorem other_id {P : Platform} (hw : WellFormed P w)
    (hrecord : ∃ u ∈ w.db.uploads, u.uploadId = uploadId ∧ u.bucket = bucket) :
    ∀ u ∈ w.db.uploads, u.bucket ≠ bucket → u.uploadId ≠ uploadId := by
  obtain ⟨named, hnamed, hid, hbucket⟩ := hrecord
  intro u hu hother heq
  have : u = named := hw.keyedUpload.eq_of_mem hu hnamed (heq.trans hid.symm)
  exact hother (this ▸ hbucket)

/-- The parts of an upload that no other bucket has are not elsewhere. -/
theorem partElsewhere_false (hother : ∀ u ∈ w.db.uploads, u.bucket ≠ bucket →
    u.uploadId ≠ uploadId) {p : PartRow} (hp : p.uploadId = uploadId) :
    partElsewhere w bucket p = false := by
  rw [partElsewhere, List.any_eq_false]
  intro u hu
  by_cases hbucket : u.bucket = bucket
  · simp [hbucket]
  · simp [hp, hother u hu hbucket]

/-- Deleting rows that a selection leaves out does not show in it. -/
theorem filter_deleteRows_of_out {ρ : Type} {p q : ρ → Bool} {rows : List ρ}
    (hout : ∀ r ∈ rows, p r = true → q r = false) :
    (RowTable.deleteRows p rows).filter q = rows.filter q := by
  rw [filter_deleteRows]
  refine deleteRows_eq_self fun r hr => ?_
  obtain ⟨hr, hq⟩ := List.mem_filter.mp hr
  cases hp : p r with
  | false => rfl
  | true => exact nomatch hq.symm.trans (hout r hr hp)

/-- A part rewritten in an upload that no other bucket has. -/
theorem rewritePart (hother : ∀ u ∈ w.db.uploads, u.bucket ≠ bucket → u.uploadId ≠ uploadId)
    (partNumber : Nat) (data : Bytes) :
    SparesOthers bucket w (w.rewritePart uploadId partNumber data) where
  objects := rfl
  blobs _ _ _ := rfl
  uploads := rfl
  parts := rfl
  files u hu hbucket n := by
    rw [World.part_rewritePart, if_neg (fun h => hother u hu hbucket h.1)]

/-- A part stored in an upload that no other bucket has. -/
theorem storePart (hother : ∀ u ∈ w.db.uploads, u.bucket ≠ bucket → u.uploadId ≠ uploadId)
    {row : PartRow} (hrow : row.uploadId = uploadId) (partNumber : Nat) (data : Bytes) :
    SparesOthers bucket w { w.rewritePart uploadId partNumber data with
      db := { w.db with
        parts := insertRow row (deleteRows (atPart uploadId partNumber) w.db.parts) } } where
  objects := rfl
  blobs _ _ _ := rfl
  uploads := rfl
  parts := by
    rw [filter_insertRow_of_neg (partElsewhere_false hother hrow)]
    refine filter_deleteRows_of_out fun p _ hp => ?_
    exact partElsewhere_false hother (atPart_iff.mp hp).1
  files := (rewritePart hother partNumber data).files

/-- An upload that no other bucket has, closed. -/
theorem closeUpload (hother : ∀ u ∈ w.db.uploads, u.bucket ≠ bucket → u.uploadId ≠ uploadId) :
    SparesOthers bucket w (w.closeUpload uploadId) where
  objects := rfl
  blobs _ _ _ := rfl
  uploads := by
    refine filter_deleteRows_of_out fun u hu hp => ?_
    by_contra hbucket
    exact hother u hu (by simpa using hbucket) (by simpa using hp)
  parts := by
    refine filter_deleteRows_of_out fun p _ hp => ?_
    exact partElsewhere_false hother (by simpa using hp)
  files u hu hbucket n := by
    simp [World.closeUpload, Files.part, Function.update_of_ne (hother u hu hbucket)]

/-- A new version of a key of the bucket itself. -/
theorem install {P : Platform} {key : String} {status : VersioningStatus} {row : ObjectRow}
    {data : Bytes} {n : Nat} (hids : IdsDrawn P w)
    (hnew : NewVersion P w bucket key status row) :
    SparesOthers bucket w (w.install status row data n) where
  objects := by
    have hrow : (row.bucket != bucket) = false := by simp [hnew.bucket_eq]
    simp only [World.install]
    rw [filter_insertRow_of_neg (q := fun r : ObjectRow => r.bucket != bucket) hrow, roomMade,
      hnew.bucket_eq, hnew.key_eq]
    have hout : ∀ r, atKey bucket key r = true → (r.bucket != bucket) = false := by
      intro r hr
      simp only [atKey, Bool.and_eq_true, beq_iff_eq] at hr
      simp [hr.1]
    split
    · have hkept : ∀ r : ObjectRow, atKey bucket key r = true →
          (r.demote.bucket != bucket) = (r.bucket != bucket) := fun _ _ => rfl
      rw [filter_updateRows (q := fun r : ObjectRow => r.bucket != bucket) hkept]
      refine updateRows_eq_self fun r hr => ?_
      obtain ⟨-, hbucket⟩ := List.mem_filter.mp hr
      cases hat : atKey bucket key r with
      | false => rfl
      | true => cases hbucket.symm.trans (hout r hat)
    · exact filter_deleteRows_of_out fun r _ hr => hout r hr
  blobs r hr _ := by
    refine Function.update_of_ne ?_ _ _
    rw [hnew.id_eq]
    exact hids.fresh (Nat.le_refl _) hr
  uploads := rfl
  parts := rfl
  files _ _ _ _ := rfl

/-- One after the other, as long as the first keeps the uploads. -/
theorem trans {w'' : World} (h : SparesOthers bucket w w')
    (huploads : w'.db.uploads = w.db.uploads) (h' : SparesOthers bucket w' w'') :
    SparesOthers bucket w w'' where
  objects := h'.objects.trans h.objects
  blobs r hr hbucket := by
    have hkept : r ∈ w'.db.objects.filter (·.bucket != bucket) := by
      rw [h.objects]
      exact List.mem_filter.mpr ⟨hr, by simpa using hbucket⟩
    exact (h'.blobs r (List.mem_filter.mp hkept).1 hbucket).trans (h.blobs r hr hbucket)
  uploads := h'.uploads.trans h.uploads
  parts := by
    have hsame : partElsewhere w' bucket = partElsewhere w bucket := by
      funext p
      rw [partElsewhere, huploads, partElsewhere]
    exact hsame ▸ h'.parts.trans (hsame.symm ▸ h.parts)
  files u hu hbucket n :=
    (h'.files u (huploads ▸ hu) hbucket n).trans (h.files u hu hbucket n)

end SparesOthers

namespace MultipartRequest

variable {P : Platform} {caller : Caller} {w : World}

/-- A request whose upload was created for its bucket and key leaves other
buckets alone, whatever comes of it. -/
theorem sparesOthers_of_recordFor (hw : WellFormed P w) {request : MultipartRequest}
    (hrecord : request.RecordFor w) :
    SparesOthers request.bucket w ((request.handle P caller).run w).2 := by
  obtain ⟨u, hu, hid, hbucket, -⟩ := hrecord
  have hother := SparesOthers.other_id hw ⟨u, hu, hid, hbucket⟩
  have houtcome : Outcome P caller w request ((request.handle P caller).run w) :=
    handle_outcome hw.ids request
  generalize (request.handle P caller).run w = outcome at houtcome
  cases houtcome with
  | refused => exact .draws _
  | brokenOff => exact .rewritePart hother _ _
  | storedPart => exact .storePart hother rfl _ _
  | completed _ hupload hnew =>
      obtain ⟨hmem, hsame⟩ := selectFirst_some hupload
      obtain rfl := hw.keyedUpload.eq_of_mem hu hmem (hid.trans (beq_iff_eq.mp hsame).symm)
      exact (SparesOthers.install hw.ids (hbucket ▸ hnew)).trans rfl (.closeUpload hother)
  | aborted => exact .closeUpload hother
  | listed => exact .draws _

/-- **When a request acts on what it names.**  In every reachable state it does
exactly when, if it is acceptable, the upload's record is for its bucket and key,
and, if its body breaks off, every upload of that id into another bucket has a
part file that already holds what arrived. -/
theorem actsOnNamed_iff (hreachable : (store P).Reachable w) (request : MultipartRequest) :
    request.ActsOnNamed P caller w ↔
      (request.Acceptable P caller w → request.RecordFor w) ∧
        ∀ partNumber body, request.BreaksOff caller w partNumber body →
          ∀ u ∈ w.db.uploads, u.uploadId = request.uploadId → u.bucket ≠ request.bucket →
            (w.files.part request.uploadId partNumber).map (·.data) =
              some (receivedBytes body) := by
  have hw := wellFormed_reachable hreachable
  have hsucceeds : request.Succeeds P caller w ↔ request.Acceptable P caller w :=
    succeeds_iff hw.ids request
  have houtcome : Outcome P caller w request ((request.handle P caller).run w) :=
    handle_outcome hw.ids request
  rw [ActsOnNamed, hsucceeds]
  constructor
  · rintro ⟨hrecord, hspares⟩
    refine ⟨hrecord, fun partNumber body hbroken u hu hid hbucket => ?_⟩
    have hfiles := hspares.files u hu hbucket partNumber
    rw [run_breaksOff hbroken, World.part_rewritePart, if_pos ⟨hid, rfl⟩] at hfiles
    rw [← hid]
    exact hfiles.symm
  · rintro ⟨hrecord, hbroken⟩
    refine ⟨hrecord, ?_⟩
    by_cases hok : request.Acceptable P caller w
    · exact sparesOthers_of_recordFor hw (hrecord hok)
    · generalize (request.handle P caller).run w = outcome at houtcome
      cases houtcome with
      | refused => exact .draws _
      | @brokenOff e partNumber body _ hbreaks =>
          refine ⟨rfl, fun _ _ _ => rfl, rfl, rfl, fun u hu hbucket n => ?_⟩
          rw [World.part_rewritePart]
          by_cases hat : u.uploadId = request.uploadId ∧ n = partNumber
          · rw [if_pos hat, hat.1, hat.2]
            exact (hbroken partNumber body hbreaks u hu hat.1 hbucket).symm
          · rw [if_neg hat]
      | storedPart h => exact absurd h hok
      | completed h => exact absurd h hok
      | aborted h => exact absurd h hok
      | listed h => exact absurd h hok

/-! ## An upload named from another bucket -/

/-- Two buckets, and an upload of `k` into each. -/
def twoUploads : List Op :=
  [.createBucket "mine" {}, .createBucket "theirs" {},
   .createMultipartUpload "mine" "k" {}, .createMultipartUpload "theirs" "k" {}]

def twoUploadsWorld : World :=
  (store executablePlatform).after (store executablePlatform).init twoUploads

/-- `alice` may abort uploads in bucket `mine` and nothing else. -/
def aliceOfMine : Caller where
  auth :=
    { platform := plainIamPlatform
      rootAccessKey := "ROOTKEY"
      iam := some
        { rootAccessKey := "ROOTKEY"
          rootSecretKey := "root-secret"
          db :=
            { users := [User.create "alice" 0]
              accessKeys := [{ accessKeyId := "AKIAALICE", secretAccessKeyEncrypted := "secret",
                               username := "alice", createdAt := 0 }]
              userPolicies := [{ username := "alice", policyName := "abort",
                                 policyDocument := some
                                   { name := "abort"
                                     statements := [{ effect := .allow
                                                      actions := ["s3:AbortMultipartUpload"]
                                                      resources := ["arn:aws:s3:::mine/*"] }] } }]
              } } }
  credentials := some ⟨"AKIAALICE"⟩
  headers := []

/-- Abort the upload that was drawn as the `n`th, naming `mine/k`. -/
def abortInMine (n : Nat) : MultipartRequest :=
  ⟨"mine", "k", numberedUlid n, .abortMultipartUpload⟩

/-- The abort of the upload into `mine` acts on what it names. -/
theorem actsOnNamed_ownUpload :
    (abortInMine 0).ActsOnNamed executablePlatform aliceOfMine twoUploadsWorld := by
  have hown : ∃ u ∈ twoUploadsWorld.db.uploads,
      u.uploadId = numberedUlid 0 ∧ u.bucket = "mine" ∧ u.key = "k" := by decide
  exact (actsOnNamed_iff ⟨twoUploads, rfl⟩ (abortInMine 0)).mpr
    ⟨fun _ => hown, fun _ _ hbroken => absurd hbroken (not_breaksOff (by simp [abortInMine]) _ _)⟩

/-- The abort of the upload into `theirs` succeeds too, though `alice` has no rights
in that bucket. -/
theorem abort_in_other_bucket :
    ¬∀ (caller : Caller) (w : World), (store executablePlatform).Reachable w →
        ∀ request : MultipartRequest, request.ActsOnNamed executablePlatform caller w := by
  intro hall
  obtain ⟨hrecord, -⟩ := hall aliceOfMine twoUploadsWorld ⟨twoUploads, rfl⟩ (abortInMine 1)
  have hids := (wellFormed_reachable (P := executablePlatform) ⟨twoUploads, rfl⟩).ids
  have hthere : uploadRowExists (numberedUlid 1) twoUploadsWorld.db = true := by decide
  have hsucceeds : (abortInMine 1).Succeeds executablePlatform aliceOfMine twoUploadsWorld :=
    (succeeds_iff hids (abortInMine 1)).mpr ⟨by decide, hthere⟩
  have hforeign : ¬∃ u ∈ twoUploadsWorld.db.uploads,
      u.uploadId = numberedUlid 1 ∧ u.bucket = "mine" ∧ u.key = "k" := by decide
  exact hforeign (hrecord hsucceeds)

end MultipartRequest

end Strix

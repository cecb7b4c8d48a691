import Mathlib.Data.List.Induction
import Mathlib.Data.List.Forall2
import Strix.ExecutablePlatform
import Strix.WriteLedger

/-!
# Part rows and part files

A part's row is to describe its file: the size and the digest in the ETag are
those of the bytes in the file.  A part upload rewrites the file before it
touches the row, so a body that breaks off leaves the old row beside a file
that holds what has arrived.

* `partRows_describe_files`: along every run in which no broken upload
  overwrites a stored part with other bytes, every row describes its file, a
  completion joins the bytes its ETags were issued for, and a part upload that
  fails leaves the stored part alone;
* `broken_upload_overwrites`: any other broken upload changes the file of a
  row that stays.
-/

namespace Strix

open AtomicProgram AtomicProgram.Prog MachineRuns RowTable

variable (P : Platform)

/-- What the file of a part holds. -/
def Files.partData (files : Files) (uploadId : String) (partNumber : Nat) : Option Bytes :=
  (files.part uploadId partNumber).map (·.data)

/-- **The row describes the file.** -/
def PartRow.Describes (files : Files) (p : PartRow) : Prop :=
  ∃ data, files.partData p.uploadId p.partNumber = some data ∧ p.size = data.length ∧
    p.etag = contentEtag P data

/-- **The condition on a part upload:** a body that breaks off goes to a part
number without a row, or brings what the file holds already. -/
def SparesStoredPart (w : World) (op : Op) : Prop :=
  ∀ upload partNumber body, op = .uploadPart upload partNumber body →
    UploadPartReaches w upload partNumber → (∀ content, readBody body ≠ .ok content) →
      (∃ p ∈ w.db.parts, atPart upload.uploadId partNumber p = true) →
        w.files.partData upload.uploadId partNumber = some (receivedBytes body)

/-- The run has issued the ETag for these bytes of the part. -/
def Issued (run : List Op) (uploadId : String) (partNumber : Nat) (etag : String)
    (content : Bytes) : Prop :=
  ∃ before upload body rest info,
    run = before ++ .uploadPart upload partNumber body :: rest ∧ upload.uploadId = uploadId ∧
      (store P).reply ((store P).after (store P).init before)
        (.uploadPart upload partNumber body) = .ok (.part info) ∧
      info.etag = etag ∧ readBody body = .ok content

/-- A new object row whose blob holds the content. -/
def NewObjectHolds (w w' : World) (content : Bytes) : Prop :=
  ∃ row ∈ w'.db.objects, row.id = P.ulid w.draws ∧ row.size = content.length ∧
    ∃ data, w'.files.objects row.id = some data ∧ ∀ sseKey, Holds P row sseKey content data

/-- **Every part row agrees with its file and with the ledger.** -/
def PartsIssued (w : World) (l : Ledger) : Prop :=
  ∀ p ∈ w.db.parts, ∃ issued, l.parts (p.uploadId, p.partNumber) = some issued ∧
    w.files.partData p.uploadId p.partNumber = some issued.content ∧
    p.size = issued.content.length ∧ p.etag = issued.etag ∧
    issued.etag = contentEtag P issued.content

variable {P}

/-- The part files after one is rewritten. -/
theorem partData_rewritePart (w : World) (uploadId : String) (partNumber : Nat) (data : Bytes)
    (id : String) (n : Nat) :
    (w.rewritePart uploadId partNumber data).files.partData id n =
      if id = uploadId ∧ n = partNumber then some data else w.files.partData id n :=
  w.part_rewritePart uploadId partNumber data id n

theorem partData_congr {files files' : Files} {id : String}
    (h : files'.multipart id = files.multipart id) (n : Nat) :
    files'.partData id n = files.partData id n := by
  unfold Files.partData Files.part
  rw [h]

/-- A rewrite with what is there already changes no file's contents. -/
theorem partData_rewritePart_same {w : World} {uploadId : String} {partNumber : Nat}
    {data : Bytes} (hsame : w.files.partData uploadId partNumber = some data) (id : String)
    (n : Nat) :
    (w.rewritePart uploadId partNumber data).files.partData id n = w.files.partData id n := by
  rw [partData_rewritePart]
  by_cases hat : id = uploadId ∧ n = partNumber
  · rw [if_pos hat, hat.1, hat.2, hsame]
  · rw [if_neg hat]

/-! ## One step -/

/-- A part upload keeps the rows, the files and the ledger together. -/
theorem PartsIssued.uploadPart {w : World} {l : Ledger} (h : PartsIssued P w l)
    {upload : MultipartUpload} {partNumber : Nat} {body : ObjectBody}
    (hguard : SparesStoredPart w (.uploadPart upload partNumber body)) :
    PartsIssued P ((store P).next w (.uploadPart upload partNumber body))
      (l.note P w (.uploadPart upload partNumber body)
        ((store P).reply w (.uploadPart upload partNumber body))) := by
  simp only [Machine.next, Machine.reply, store, step, answering]
  rcases uploadPart_cases (P := P) w upload partNumber body with
    ⟨-, e, hrun⟩ | ⟨hreaches, e, hbody, hrun⟩ | ⟨hreaches, content, hbody, hrun⟩
  · rw [hrun]
    exact h
  · -- the body breaks off: the rows stay, and so do the bytes behind them
    rw [hrun]
    intro p hp
    obtain ⟨issued, hledger, hdata, hrest⟩ := h p hp
    refine ⟨issued, hledger, ?_, hrest⟩
    rw [partData_rewritePart]
    by_cases hat : p.uploadId = upload.uploadId ∧ p.partNumber = partNumber
    · have hsame := hguard upload partNumber body rfl hreaches
        (fun content hok => by rw [hbody] at hok; cases hok) ⟨p, hp, atPart_iff.mpr hat⟩
      rw [if_pos hat, ← hsame, ← hdata, hat.1, hat.2]
    · rw [if_neg hat]
      exact hdata
  · rw [hrun]
    intro p hp
    rcases mem_insertRow.mp hp with hold | rfl
    · obtain ⟨hmem, hother⟩ := mem_deleteRows.mp hold
      obtain ⟨issued, hledger, hdata, hrest⟩ := h p hmem
      have hne : ¬ (p.uploadId = upload.uploadId ∧ p.partNumber = partNumber) := by
        intro hat
        rw [atPart_iff.mpr hat] at hother
        cases hother
      refine ⟨issued, ?_, ?_, hrest⟩
      · simp only [Ledger.note, Except.map]
        rw [Function.update_of_ne fun heq => hne (Prod.mk.inj heq)]
        exact hledger
      · have hfile := partData_rewritePart w upload.uploadId partNumber content p.uploadId
          p.partNumber
        rw [if_neg hne] at hfile
        exact hfile.trans hdata
    · refine ⟨{ content := content, etag := contentEtag P content }, ?_, ?_, rfl, rfl, rfl⟩
      · simp only [Ledger.note, Except.map, partRow, Function.update_self,
          receivedBytes_of_ok hbody]
      · have hfile := partData_rewritePart w upload.uploadId partNumber content upload.uploadId
          partNumber
        rw [if_pos ⟨rfl, rfl⟩] at hfile
        exact hfile

/-- **One call keeps the rows, the files and the ledger together.** -/
theorem PartsIssued.next {w : World} {l : Ledger} (hw : WellFormed P w) (h : PartsIssued P w l)
    {op : Op} (hguard : SparesStoredPart w op) :
    PartsIssued P ((store P).next w op) (l.note P w op ((store P).reply w op)) := by
  by_cases hop : ∃ upload partNumber body, op = .uploadPart upload partNumber body
  · obtain ⟨upload, partNumber, body, rfl⟩ := hop
    exact h.uploadPart hguard
  · have hother : ∀ upload partNumber body, op ≠ .uploadPart upload partNumber body :=
      fun upload partNumber body heq => hop ⟨upload, partNumber, body, heq⟩
    have hledger : (l.note P w op ((store P).reply w op)).parts = l.parts :=
      Ledger.note_parts hother
    unfold PartsIssued
    rw [hledger]
    cases (step_effect hw.ids hw.uploadIds op).parts with
    | unchanged huploads hparts hfiles =>
        intro p hp
        rw [hparts] at hp
        rw [partData_congr (congrFun hfiles _)]
        exact h p hp
    | cascaded huploads hparts hfiles =>
        intro p hp
        rw [hparts] at hp
        rw [partData_congr (congrFun hfiles _)]
        exact h p (mem_deleteRows.mp hp).1
    | created hbucket huploads hparts hfiles hdraws =>
        intro p hp
        rw [hparts] at hp
        rw [partData_congr (congrFun hfiles _), Files.partData, Files.part_ensureDir]
        exact h p hp
    | broken hreaches hbody huploads hparts hfiles => exact absurd ⟨_, _, _, rfl⟩ hop
    | stored hreaches hbody huploads hparts hfiles => exact absurd ⟨_, _, _, rfl⟩ hop
    | closed huploads hparts hfiles =>
        intro p hp
        rw [hparts] at hp
        obtain ⟨hmem, hother⟩ := mem_deleteRows.mp hp
        have hkept := congrFun hfiles p.uploadId
        rw [Function.update_of_ne (by simpa using hother)] at hkept
        rw [partData_congr hkept]
        exact h p hmem

/-- **The guarded runs keep the rows, the files and the ledger together.** -/
theorem partsIssued_after {run : List Op}
    (hrun : (store P).AllSteps SparesStoredPart (store P).init run) :
    PartsIssued P ((store P).after (store P).init run) (ledger P run) :=
  ledger_invariant (fun _ hp => nomatch hp) (fun _ _ _ hw h hguard => h.next hw hguard) hrun

/-! ## Completion -/

/-- The parts that validation lets through are joined as the ledger has
them. -/
theorem assembled_issued {w : World} {l : Ledger} (h : PartsIssued P w l) {uploadId : String}
    {parts : List CompletePart} (hvalid : validateParts uploadId w.db parts = .valid) :
    assembled w.files uploadId parts = some (l.joined uploadId parts) ∧
      ∀ part ∈ parts, ∃ issued, l.parts (uploadId, part.partNumber) = some issued ∧
        trimQuotes issued.etag = trimQuotes part.etag := by
  induction parts with
  | nil => exact ⟨rfl, fun part hpart => nomatch hpart⟩
  | cons part rest ih =>
      unfold validateParts at hvalid
      cases hstored : selectFirst (atPart uploadId part.partNumber) w.db.parts with
      | none =>
          rw [hstored] at hvalid
          cases hvalid
      | some stored =>
          rw [hstored] at hvalid
          simp only at hvalid
          split at hvalid
          · cases hvalid
          · next hetag =>
              split at hvalid
              · cases hvalid
              · obtain ⟨hrest, hissued⟩ := ih hvalid
                obtain ⟨hmem, hat⟩ := selectFirst_some hstored
                obtain ⟨hid, hnumber⟩ := atPart_iff.mp hat
                obtain ⟨issued, hledger, hdata, -, hsame, -⟩ := h stored hmem
                rw [hid, hnumber] at hledger hdata
                obtain ⟨file, hfile, hcontent⟩ := Option.map_eq_some_iff.mp hdata
                refine ⟨?_, ?_⟩
                · simp [assembled, hfile, hrest, Ledger.joined, hledger, hcontent]
                · intro part' hpart'
                  rcases List.mem_cons.mp hpart' with rfl | hpart'
                  · refine ⟨issued, hledger, ?_⟩
                    rw [← hsame]
                    exact not_not.mp hetag
                  · exact hissued part' hpart'

/-! ## Where the ledger's parts come from -/

theorem Issued.concat {run : List Op} {uploadId : String} {partNumber : Nat} {etag : String}
    {content : Bytes} (h : Issued P run uploadId partNumber etag content) (op : Op) :
    Issued P (run ++ [op]) uploadId partNumber etag content := by
  obtain ⟨before, upload, body, rest, info, rfl, hid, hreply, hetag, hbody⟩ := h
  exact ⟨before, upload, body, rest ++ [op], info, by simp, hid, hreply, hetag, hbody⟩

/-- An answered part upload has received its whole body. -/
theorem uploadPart_answered {w : World} {upload : MultipartUpload} {partNumber : Nat}
    {body : ObjectBody} {answer : Reply}
    (h : (store P).reply w (.uploadPart upload partNumber body) = .ok answer) :
    readBody body = .ok (receivedBytes body) := by
  simp only [Machine.reply, store, step, answering] at h
  rcases uploadPart_cases (P := P) w upload partNumber body with
    ⟨-, e, hrun⟩ | ⟨-, e, -, hrun⟩ | ⟨-, content, hbody, -⟩
  · rw [hrun] at h
    cases h
  · rw [hrun] at h
    cases h
  · rw [hbody, receivedBytes_of_ok hbody]

/-- **The ledger's parts were issued in the run.** -/
theorem issued_of_ledger {run : List Op} {uploadId : String} {partNumber : Nat}
    {issued : IssuedPart} (h : (ledger P run).parts (uploadId, partNumber) = some issued) :
    Issued P run uploadId partNumber issued.etag issued.content := by
  induction run using List.reverseRecOn with
  | nil => cases h
  | append_singleton run op ih =>
      rw [ledger_concat] at h
      by_cases hop : ∃ upload k body, op = .uploadPart upload k body
      · obtain ⟨upload, k, body, rfl⟩ := hop
        cases hreply : (store P).reply ((store P).after (store P).init run)
            (.uploadPart upload k body) with
        | error e =>
            rw [hreply] at h
            exact (ih h).concat _
        | ok answer =>
            have hbody := uploadPart_answered hreply
            rw [hreply] at h
            cases answer with
            | part info =>
                simp only [Ledger.note] at h
                by_cases hat : (uploadId, partNumber) = (upload.uploadId, k)
                · rw [hat, Function.update_self, Option.some.injEq] at h
                  subst h
                  cases hat
                  exact ⟨run, upload, body, [], info, rfl, rfl, hreply, rfl, hbody⟩
                · rw [Function.update_of_ne hat] at h
                  exact (ih h).concat _
            | _ => exact (ih h).concat _
      · rw [Ledger.note_parts fun upload k body heq => hop ⟨_, _, _, heq⟩] at h
        exact (ih h).concat _

/-! ## The three promises -/

/-- A completion that is answered was acceptable. -/
theorem complete_answered {w : World} (hw : WellFormed P w) {upload : MultipartUpload}
    {parts : List CompletePart} {answer : Reply}
    (hreply : (store P).reply w (.completeMultipartUpload upload parts) = .ok answer) :
    CompleteAccepted P w upload.uploadId parts := by
  simp only [Machine.reply, store, step, answering] at hreply
  rcases completeMultipartUpload_cases upload parts hw.ids with ⟨-, e, n, hrun, -⟩ |
    ⟨haccepted, -⟩
  · rw [hrun] at hreply
    cases hreply
  · exact haccepted

/-- A completion that is answered stores the listed parts' bytes. -/
theorem complete_stores_issued {w : World} {l : Ledger} (hw : WellFormed P w)
    (h : PartsIssued P w l) {upload : MultipartUpload} {parts : List CompletePart}
    {answer : Reply}
    (hreply : (store P).reply w (.completeMultipartUpload upload parts) = .ok answer) :
    NewObjectHolds P w ((store P).next w (.completeMultipartUpload upload parts))
      (l.joined upload.uploadId parts) := by
  simp only [Machine.reply, Machine.next, store, step, answering] at hreply ⊢
  rcases completeMultipartUpload_cases upload parts hw.ids with ⟨-, e, n, hrun, -⟩ |
    ⟨haccepted, status, row, uploadMeta, plaintext, data, n, hrun, -, hnew, -, hassembled, hrow,
      hholds⟩
  · rw [hrun] at hreply
    cases hreply
  · rw [hrun]
    have hjoined := (assembled_issued h haccepted.2.1).1
    rw [hassembled, Option.some.injEq] at hjoined
    subst hjoined
    refine ⟨row, mem_insertRow.mpr (Or.inr rfl), hnew.id_eq, by rw [hrow]; rfl, data, ?_, hholds⟩
    exact Function.update_self ..

/-- A part upload that fails within the condition leaves the stored part. -/
theorem failed_upload_spares {w : World} {upload : MultipartUpload} {partNumber : Nat}
    {body : ObjectBody} (hguard : SparesStoredPart w (.uploadPart upload partNumber body))
    {e : Error} (hreply : (store P).reply w (.uploadPart upload partNumber body) = .error e)
    {p : PartRow} (hp : p ∈ w.db.parts) (hat : atPart upload.uploadId partNumber p = true) :
    p ∈ ((store P).next w (.uploadPart upload partNumber body)).db.parts ∧
      ((store P).next w (.uploadPart upload partNumber body)).files.partData upload.uploadId
        partNumber = w.files.partData upload.uploadId partNumber := by
  simp only [Machine.reply, Machine.next, store, step, answering] at hreply ⊢
  rcases uploadPart_cases (P := P) w upload partNumber body with
    ⟨-, e, hrun⟩ | ⟨hreaches, e, hbody, hrun⟩ | ⟨-, content, -, hrun⟩
  · rw [hrun]
    exact ⟨hp, rfl⟩
  · rw [hrun]
    refine ⟨hp, ?_⟩
    have hsame := hguard upload partNumber body rfl hreaches
      (fun content hok => by rw [hbody] at hok; cases hok) ⟨p, hp, hat⟩
    exact partData_rewritePart_same hsame _ _
  · rw [hrun] at hreply
    cases hreply

/-- **The condition is exact:** a broken upload outside it changes the file of
a row that stays. -/
theorem broken_upload_overwrites {w : World} {op : Op} (h : ¬ SparesStoredPart w op) :
    ∃ p ∈ w.db.parts, p ∈ ((store P).next w op).db.parts ∧
      ((store P).next w op).files.partData p.uploadId p.partNumber ≠
        w.files.partData p.uploadId p.partNumber := by
  simp only [SparesStoredPart, not_forall] at h
  obtain ⟨upload, partNumber, body, rfl, hreaches, hbroken, ⟨p, hp, hat⟩, hother⟩ := h
  refine ⟨p, hp, ?_⟩
  obtain ⟨hid, hnumber⟩ := atPart_iff.mp hat
  simp only [Machine.next, store, step, answering]
  rcases uploadPart_cases (P := P) w upload partNumber body with
    ⟨hno, -⟩ | ⟨-, e, -, hrun⟩ | ⟨-, content, hbody, -⟩
  · exact absurd hreaches hno
  · rw [hrun]
    refine ⟨hp, ?_⟩
    rw [partData_rewritePart, if_pos ⟨hid, hnumber⟩, hid, hnumber]
    exact fun heq => hother heq.symm
  · exact absurd hbody (hbroken content)

/-- **Part rows describe part files**, a completion stores the bytes its ETags
were issued for, and a failed part upload leaves the stored part, along every
run in which no broken upload overwrites a stored part with other bytes. -/
theorem partRows_describe_files (run : List Op)
    (hrun : (store P).AllSteps SparesStoredPart (store P).init run) :
    let w := (store P).after (store P).init run
    (∀ p ∈ w.db.parts, p.Describes P w.files) ∧
    (∀ upload parts answer,
      (store P).reply w (.completeMultipartUpload upload parts) = .ok answer →
        ∃ contents : List Bytes,
          List.Forall₂ (fun part content => ∃ etag,
            Issued P run upload.uploadId part.partNumber etag content ∧
              trimQuotes etag = trimQuotes part.etag) parts contents ∧
          NewObjectHolds P w ((store P).next w (.completeMultipartUpload upload parts))
            contents.flatten) ∧
    ∀ upload partNumber body e, SparesStoredPart w (.uploadPart upload partNumber body) →
      (store P).reply w (.uploadPart upload partNumber body) = .error e →
        ∀ p ∈ w.db.parts, atPart upload.uploadId partNumber p = true →
          p ∈ ((store P).next w (.uploadPart upload partNumber body)).db.parts ∧
            ((store P).next w (.uploadPart upload partNumber body)).files.partData
              upload.uploadId partNumber = w.files.partData upload.uploadId partNumber := by
  intro w
  have hw : WellFormed P w := wellFormed_reachable ⟨run, rfl⟩
  have hissued : PartsIssued P w (ledger P run) := partsIssued_after hrun
  refine ⟨?_, ?_, ?_⟩
  · intro p hp
    obtain ⟨issued, -, hdata, hsize, hetag, hdigest⟩ := hissued p hp
    exact ⟨issued.content, hdata, hsize, hetag.trans hdigest⟩
  · intro upload parts answer hreply
    have hstores := complete_stores_issued hw hissued hreply
    have hlisted := (assembled_issued hissued (complete_answered hw hreply).2.1).2
    refine ⟨parts.map fun part =>
      (((ledger P run).parts (upload.uploadId, part.partNumber)).map (·.content)).getD [], ?_, ?_⟩
    · rw [List.forall₂_map_right_iff, List.forall₂_same]
      intro part hpart
      obtain ⟨issued, hledger, hsame⟩ := hlisted part hpart
      refine ⟨issued.etag, ?_, hsame⟩
      rw [hledger]
      exact issued_of_ledger hledger
    · rw [← List.flatMap_def]
      exact hstores
  · intro upload partNumber body e hguard hreply p hp hat
    exact failed_upload_spares hguard hreply hp hat

/-! ## A part, uploaded again -/

/-- The upload of the runs below. -/
def bigUpload : MultipartUpload where
  uploadId := "01ARZ3NDEKTSV4RRFFQ69G5FA0"
  bucket := "docs"
  key := "big"
  initiated := 0

/-- One part is stored. -/
def onePart : List Op := [
  .createBucket "docs" {},
  .createMultipartUpload "docs" "big" {},
  .uploadPart bigUpload 1 [.ok [97]]]

/-- A body that breaks off after one chunk. -/
def brokenBody : ObjectBody := [.ok [98], .error "connection reset"]

/-- A second part whose upload breaks off leaves the first described. -/
theorem partRows_describe_files_second :
    ((store executablePlatform).after (store executablePlatform).init
      (onePart ++ [.uploadPart bigUpload 2 brokenBody])).db.parts.length = 1 ∧
    ∀ p ∈ ((store executablePlatform).after (store executablePlatform).init
      (onePart ++ [.uploadPart bigUpload 2 brokenBody])).db.parts,
      p.Describes executablePlatform ((store executablePlatform).after
        (store executablePlatform).init (onePart ++ [.uploadPart bigUpload 2 brokenBody])).files := by
  have hsteps : (store executablePlatform).AllSteps SparesStoredPart
      (store executablePlatform).init (onePart ++ [.uploadPart bigUpload 2 brokenBody]) := by
    rw [Machine.allSteps_append]
    refine ⟨⟨?_, ?_, ?_, trivial⟩, ?_, trivial⟩
    · intro upload partNumber body hop
      cases hop
    · intro upload partNumber body hop
      cases hop
    · intro upload partNumber body hop _ hbroken
      cases hop
      exact absurd rfl (hbroken [97])
    · intro upload partNumber body hop _ _ hstored
      cases hop
      have hnone : ¬ ∃ p ∈ ((store executablePlatform).after
          (store executablePlatform).init onePart).db.parts,
          atPart bigUpload.uploadId 2 p = true := by decide
      exact absurd hstored hnone
  exact ⟨by decide, (partRows_describe_files _ hsteps).1⟩

/-- The same part again, and the body breaks off: the row is of the first
body, the file of the second. -/
theorem broken_upload_mismatches :
    ¬ ∀ run, ∀ p ∈ ((store executablePlatform).after (store executablePlatform).init run).db.parts,
      p.Describes executablePlatform
        ((store executablePlatform).after (store executablePlatform).init run).files := by
  intro h
  have hdescribes := h (onePart ++ [.uploadPart bigUpload 1 brokenBody])
  have hmismatch : ∃ p ∈ ((store executablePlatform).after (store executablePlatform).init
      (onePart ++ [.uploadPart bigUpload 1 brokenBody])).db.parts,
      ((store executablePlatform).after (store executablePlatform).init
        (onePart ++ [.uploadPart bigUpload 1 brokenBody])).files.partData p.uploadId p.partNumber =
          some [98] ∧ p.etag ≠ contentEtag executablePlatform [98] := by decide
  obtain ⟨p, hp, hdata, hetag⟩ := hmismatch
  obtain ⟨data, hdata', -, hetag'⟩ := hdescribes p hp
  rw [hdata, Option.some.injEq] at hdata'
  subst hdata'
  exact hetag hetag'

end Strix

import Mathlib.Algebra.GroupWithZero.Nat
import Strix.Copies
import Strix.PartFiles

/-!
# Assembling an upload

Completing an upload goes three times over the parts that the client lists: it checks
them against the part rows, joins the part files and makes the ETag of the listed ETags.
The loops agree as long as the rows describe the files, and they all run through when
nothing is listed.

* `trimQuotes_formatEtag`: a digest is read back from an ETag;
* `stored_of_valid`: parts that pass the checks are stored as their rows describe them,
  and the files joined are their contents;
* `assembled_iff`: a completion that succeeds has assembled the listed parts exactly when
  there are any and all their rows describe their files;
* `nothing_assembled`: a completion without parts succeeds.
-/

namespace Strix

open AtomicProgram AtomicProgram.Prog MachineRuns RowTable

/-! ## Digests in ETags -/

/-- There is no quote in a digest. -/
theorem quote_not_mem_hexEncode (data : Bytes) : quote ∉ (hexEncode data).toList :=
  not_mem_hexEncode (by decide) data

/-- Text without quotes is found between the quotes of an ETag. -/
theorem trimQuotes_formatEtag {s : String} (h : quote ∉ s.toList) :
    trimQuotes (formatEtag s) = s := by
  have hkeep (cs : List Char) (hcs : quote ∉ cs) : cs.dropWhile (· == quote) = cs := by
    cases cs with
    | nil => rfl
    | cons c cs =>
        have hc : ¬ c = quote := fun heq => hcs (heq ▸ List.mem_cons_self)
        simp [hc]
  have hreverse : quote ∉ s.toList.reverse := by simpa using h
  have hfront : (quote :: s.toList ++ [quote]).dropWhile (· == quote) =
      if s.toList = [] then [] else s.toList ++ [quote] := by
    cases hs : s.toList with
    | nil => rfl
    | cons c cs =>
        rw [hs] at h
        have hc : ¬ c = quote := fun heq => h (heq ▸ List.mem_cons_self)
        simp [hc]
  unfold trimQuotes formatEtag
  rw [String.toList_ofList, hfront]
  by_cases hempty : s.toList = []
  · rw [if_pos hempty]
    exact (String.toList_eq_nil_iff.mp hempty).symm
  · rw [if_neg hempty]
    show String.ofList (((s.toList ++ [quote]).reverse).dropWhile (· == quote)).reverse = s
    rw [List.reverse_append, List.reverse_singleton, List.singleton_append,
      List.dropWhile_cons_of_pos (by simp), hkeep _ hreverse, List.reverse_reverse,
      String.ofList_toList]

/-! ## The listed parts -/

variable (P : Platform)

/-- The ETag of an object assembled from these contents. -/
def assembledEtag (contents : List Bytes) : String :=
  formatEtag (hexEncode (P.md5 (contents.flatMap P.md5)) ++ "-" ++ toString contents.length)

/-- **The listed part is stored with this content:** it has a row of the listed ETag, up to
the quotes, which describes the content, and the content is in its file. -/
structure StoredPart (w : World) (uploadId : String) (part : CompletePart) (content : Bytes) :
    Prop where
  row : ∃ p ∈ w.db.parts, atPart uploadId part.partNumber p = true ∧
    p.size = content.length ∧ p.etag = contentEtag P content ∧
    trimQuotes p.etag = trimQuotes part.etag
  file : w.files.partData uploadId part.partNumber = some content

/-- **The upload has been assembled:** some parts were listed, their numbers rise, each is
stored and all but the last have 5 MiB; the upload's key has an object of the joined
contents with their size and their ETag, and the upload and its parts are gone. -/
structure Assembled (w w' : World) (upload : MultipartUpload) (parts : List CompletePart)
    (reply : PutObjectResponse) : Prop where
  nonempty : parts ≠ []
  increasing : (parts.map (·.partNumber)).Pairwise (· < ·)
  object : ∃ contents, List.Forall₂ (StoredPart P w upload.uploadId) parts contents ∧
    (∀ content ∈ contents.dropLast, minPartSize ≤ content.length) ∧
    ∃ uploadMeta row, selectUpload upload.uploadId w.db = some uploadMeta ∧
      selectObject uploadMeta.bucket uploadMeta.key none w'.db = some row ∧
      row.size = (contents.map List.length).sum ∧ row.etag = assembledEtag P contents ∧
      reply.etag = row.etag ∧
      ∀ sseCustomerKey sseCustomerKeyMd5,
        wholeRead P uploadMeta.bucket uploadMeta.key sseCustomerKey sseCustomerKeyMd5 w' =
          .ok contents.flatten
  noParts : ∀ p ∈ w'.db.parts, p.uploadId ≠ upload.uploadId
  noUpload : ∀ u ∈ w'.db.uploads, u.uploadId ≠ upload.uploadId

/-- The rows of the listed parts describe their files. -/
def ListedDescribed (w : World) (uploadId : String) (parts : List CompletePart) : Prop :=
  ∀ part ∈ parts, ∀ p ∈ w.db.parts, atPart uploadId part.partNumber p = true →
    p.Describes P w.files

variable {P} {w w' : World} {uploadId : String} {parts : List CompletePart}
  {contents : List Bytes} {plaintext : Bytes} {upload : MultipartUpload}
  {reply : PutObjectResponse}

/-- The first check lets rising part numbers through, and no others. -/
theorem partsInOrder_iff (lastPart : Nat) (parts : List CompletePart) :
    partsInOrder lastPart parts = true ↔
      (∀ part ∈ parts, lastPart < part.partNumber) ∧
        (parts.map (·.partNumber)).Pairwise (· < ·) := by
  induction parts generalizing lastPart with
  | nil => simp [partsInOrder]
  | cons part rest ih =>
      unfold partsInOrder
      by_cases hle : part.partNumber ≤ lastPart
      · rw [if_pos hle]
        refine iff_of_false Bool.false_ne_true fun h => ?_
        have hlt := h.1 part List.mem_cons_self
        omega
      · rw [if_neg hle, ih, List.map_cons, List.pairwise_cons]
        constructor
        · rintro ⟨hrest, hpairs⟩
          refine ⟨fun other hother => ?_, fun n hn => ?_, hpairs⟩
          · rcases List.mem_cons.mp hother with rfl | hother
            · omega
            · have hlt := hrest other hother
              omega
          · obtain ⟨other, hother, rfl⟩ := List.mem_map.mp hn
            exact hrest other hother
        · rintro ⟨-, hhead, hpairs⟩
          exact ⟨fun other hother => hhead _ (List.mem_map_of_mem hother), hpairs⟩

/-- What validation says of the first part and of the others. -/
theorem validateParts_cons {db : Db} {part : CompletePart} {rest : List CompletePart}
    (h : validateParts uploadId db (part :: rest) = .valid) :
    ∃ p ∈ db.parts, atPart uploadId part.partNumber p = true ∧
      trimQuotes p.etag = trimQuotes part.etag ∧ (rest ≠ [] → minPartSize ≤ p.size) ∧
      validateParts uploadId db rest = .valid := by
  unfold validateParts at h
  cases hstored : selectFirst (atPart uploadId part.partNumber) db.parts with
  | none =>
      rw [hstored] at h
      cases h
  | some stored =>
      rw [hstored] at h
      obtain ⟨hmem, hat⟩ := selectFirst_some hstored
      by_cases hetag : trimQuotes stored.etag = trimQuotes part.etag
      · by_cases hsmall : rest ≠ [] ∧ stored.size < minPartSize
        · simp [hetag, hsmall] at h
        · simp only [hetag, ne_eq, not_true_eq_false, if_false, hsmall] at h
          refine ⟨stored, hmem, hat, hetag, fun hrest => ?_, h⟩
          by_contra hlt
          exact hsmall ⟨hrest, by omega⟩
      · simp [hetag] at h

/-- **Parts that pass the checks are stored** as their rows describe them, and the joined
files are their contents. -/
theorem stored_of_valid (hvalid : validateParts uploadId w.db parts = .valid)
    (hjoined : assembled w.files uploadId parts = some plaintext)
    (hdescribed : ListedDescribed P w uploadId parts) :
    ∃ contents, List.Forall₂ (StoredPart P w uploadId) parts contents ∧
      (∀ content ∈ contents.dropLast, minPartSize ≤ content.length) ∧
      contents.flatten = plaintext := by
  induction parts generalizing plaintext with
  | nil =>
      cases hjoined
      exact ⟨[], .nil, (fun _ hcontent => nomatch hcontent), rfl⟩
  | cons part rest ih =>
      obtain ⟨p, hp, hat, hetag, hlarge, hrest⟩ := validateParts_cons hvalid
      obtain ⟨content, hdata, hsize, hdigest⟩ := hdescribed part List.mem_cons_self p hp hat
      obtain ⟨hid, hnumber⟩ := atPart_iff.mp hat
      rw [hid, hnumber] at hdata
      obtain ⟨file, hfile, rfl⟩ := Option.map_eq_some_iff.mp hdata
      cases hmore : assembled w.files uploadId rest with
      | none => simp [assembled, hfile, hmore] at hjoined
      | some more =>
          obtain ⟨contents, hstored, hsizes, hflat⟩ := ih hrest hmore
            fun other hother => hdescribed other (List.mem_cons_of_mem _ hother)
          have hplain : file.data ++ more = plaintext := by
            simpa [assembled, hfile, hmore] using hjoined
          refine ⟨file.data :: contents, .cons ⟨⟨p, hp, hat, hsize, hdigest, hetag⟩, hdata⟩
            hstored, ?_, by rw [List.flatten_cons, hflat, hplain]⟩
          intro content hcontent
          cases contents with
          | nil => cases hcontent
          | cons next others =>
              have hne : rest ≠ [] := by
                rintro rfl
                cases hstored
              rcases List.mem_cons.mp hcontent with rfl | hcontent
              · exact hsize ▸ hlarge hne
              · exact hsizes content hcontent

/-- Stored parts have rows that describe their files. -/
theorem listedDescribed_of_stored (hw : WellFormed P w)
    (h : List.Forall₂ (StoredPart P w uploadId) parts contents) :
    ListedDescribed P w uploadId parts := by
  induction h with
  | nil => exact fun part hpart => nomatch hpart
  | cons hpart _ ih =>
      intro part hmem p hp hat
      rcases List.mem_cons.mp hmem with rfl | hmem
      · obtain ⟨q, hq, hqat, hsize, hdigest, -⟩ := hpart.row
        obtain ⟨hid, hnumber⟩ := atPart_iff.mp hat
        obtain ⟨hqid, hqnumber⟩ := atPart_iff.mp hqat
        obtain rfl : p = q := hw.keyedPart.eq_of_mem hp hq
          (Prod.ext (hid.trans hqid.symm) (hnumber.trans hqnumber.symm))
        refine ⟨_, ?_, hsize, hdigest⟩
        rw [hid, hnumber]
        exact hpart.file
      · exact ih part hmem p hp hat

/-- **The ETag of the listed ETags is that of the contents.** -/
theorem formatMultipartEtag_eq (h : List.Forall₂ (StoredPart P w uploadId) parts contents) :
    formatMultipartEtag P (parts.map (·.etag)) = assembledEtag P contents := by
  have hdigests : (parts.map (·.etag)).flatMap
      (fun etag => (hexDecode (trimQuotes etag).toList).getD []) = contents.flatMap P.md5 := by
    induction h with
    | nil => rfl
    | cons hpart _ ih =>
        obtain ⟨p, -, -, -, hdigest, hetag⟩ := hpart.row
        rw [List.map_cons, List.flatMap_cons, List.flatMap_cons, ih, ← hetag, hdigest, contentEtag,
          trimQuotes_formatEtag (quote_not_mem_hexEncode _), hexDecode_hexEncode, Option.getD_some]
  unfold formatMultipartEtag assembledEtag
  rw [hdigests, List.length_map, h.length_eq]

/-! ## The completion -/

/-- **A completion that succeeds has assembled the listed parts, exactly** when there are
any and the rows of all of them describe their files. -/
theorem assembled_iff (hw : (store P).Reachable w)
    (hrun : (completeMultipartUpload P upload parts).run w = (.ok reply, w')) :
    Assembled P w w' upload parts reply ↔
      parts ≠ [] ∧ ListedDescribed P w upload.uploadId parts := by
  have hwf := wellFormed_reachable hw
  constructor
  · intro h
    obtain ⟨contents, hstored, -⟩ := h.object
    exact ⟨h.nonempty, listedDescribed_of_stored hwf hstored⟩
  · rintro ⟨hnonempty, hdescribed⟩
    rcases completeMultipartUpload_cases upload parts hwf.ids with
      ⟨-, e, n, hfails, -⟩ |
        ⟨⟨horder, hvalid, uploadMeta', -, hmeta', -, -, -, hplain⟩, status, row, uploadMeta,
          plaintext, data, n, hok, -, hnew, hmeta, hjoined, hrow, hholds⟩
    · rw [hfails] at hrun
      cases hrun
    · obtain rfl : uploadMeta' = uploadMeta := Option.some.inj (hmeta'.symm.trans hmeta)
      rw [hok] at hrun
      obtain ⟨hreply, rfl⟩ := Prod.mk.inj hrun
      obtain ⟨contents, hstored, hsizes, rfl⟩ := stored_of_valid hvalid hjoined hdescribed
      have hinstalled : selectObject uploadMeta'.bucket uploadMeta'.key none
          (w.install status row data n).db = some row := selectObject_install hnew
      have hselect : selectObject uploadMeta'.bucket uploadMeta'.key none
          ((w.install status row data n).closeUpload upload.uploadId).db = some row := hinstalled
      have hdata : ((w.install status row data n).closeUpload upload.uploadId).files.objects
          row.id = some data := Function.update_self ..
      have hsize : row.size = (contents.map List.length).sum := by
        rw [hrow, ← List.length_flatten]
        rfl
      have hetag : row.etag = assembledEtag P contents := by
        rw [hrow, ← formatMultipartEtag_eq hstored]
        rfl
      have halg : row.encryptionAlgorithm ≠ some .sseC := by
        rw [hrow]
        exact hplain
      constructor
      case nonempty => exact hnonempty
      case increasing => exact ((partsInOrder_iff 0 parts).mp horder).2
      case object =>
        refine ⟨contents, hstored, hsizes, uploadMeta', row, hmeta, hselect, hsize, hetag, ?_, ?_⟩
        · rw [← Except.ok.inj hreply]
        · intro sseCustomerKey sseCustomerKeyMd5
          rw [wholeRead_eq hselect hnew.notMarker hdata]
          exact decryptRow_of_holds halg (hholds none)
      case noParts =>
        intro p hp hid
        have hother := (mem_deleteRows.mp hp).2
        simp [hid] at hother
      case noUpload =>
        intro u hu hid
        have hother := (mem_deleteRows.mp hu).2
        simp [hid] at hother

/-! ## One part, and none -/

/-- The digests of the runs, with the one that an object of one part has. -/
def digestOfDigest (data : Bytes) : Bytes :=
  if data = tabulatedMd5 [97] then (hexDecode "b6ff9a06b7e20bcb2858c5b8ff744aea".toList).getD []
  else tabulatedMd5 data

def digestPlatform : Platform := { executablePlatform with md5 := digestOfDigest }

/-- The store with one part. -/
def onePartWorld : World := (store digestPlatform).after (store digestPlatform).init onePart

/-- The upload of that part, completed with these parts. -/
def completeBig (parts : List CompletePart) : Except Error PutObjectResponse × World :=
  (completeMultipartUpload digestPlatform bigUpload parts).run onePartWorld

/-- The stored part, listed. -/
def listedPart : CompletePart where
  partNumber := 1
  etag := "\"0cc175b9c0f1b6a831c399e269772661\""

/-- What the completion with the part answers. -/
def onePartReply : PutObjectResponse where
  etag := "\"b6ff9a06b7e20bcb2858c5b8ff744aea-1\""
  versionId := none

/-- The upload of one part is assembled. -/
theorem assembled_iff_onePart :
    Assembled digestPlatform onePartWorld (completeBig [listedPart]).2 bigUpload [listedPart]
      onePartReply := by
  have hrun : completeBig [listedPart] = (.ok onePartReply, (completeBig [listedPart]).2) :=
    Prod.ext (by decide +kernel) rfl
  refine (assembled_iff ⟨onePart, rfl⟩ hrun).mpr ⟨by simp, fun part _ p hp _ => ?_⟩
  have hstored : ∀ p ∈ onePartWorld.db.parts,
      onePartWorld.files.partData p.uploadId p.partNumber = some [97] ∧
        p.size = ([97] : Bytes).length ∧ p.etag = contentEtag digestPlatform [97] := by
    decide +kernel
  exact ⟨[97], hstored p hp⟩

/-- A completion that lists no part succeeds. -/
theorem nothing_assembled :
    ¬ ∀ (P : Platform) (w w' : World) (upload : MultipartUpload) (parts : List CompletePart)
      (reply : PutObjectResponse), (store P).Reachable w →
      (completeMultipartUpload P upload parts).run w = (.ok reply, w') →
      Assembled P w w' upload parts reply := by
  intro hall
  have hrun : completeBig [] =
      (.ok { etag := "\"d41d8cd98f00b204e9800998ecf8427e-0\"", versionId := none },
        (completeBig []).2) := Prod.ext (by decide +kernel) rfl
  exact (hall digestPlatform onePartWorld _ bigUpload [] _ ⟨onePart, rfl⟩ hrun).nonempty rfl

end Strix

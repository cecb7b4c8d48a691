import Strix.KeysetPaging
import Strix.PartNumbers

/-!
# Reading the parts of an upload page by page

A client of `ListParts` repeats its request with the marker of each truncated response.  The
marker is the number of the last part shown, and the next page takes up behind it.  Stored
numbers are at most 10000, so they come back from the client as they were sent.

* `partsPage_shows`: every response shows the page of the part numbers that its marker leaves;
* `partsPaginate`: the client comes to an end, and has read every part once and in order.
-/

namespace Strix

open AtomicProgram AtomicProgram.Prog KeysetPaging MachineRuns RowTable

/-- The entry of a part. -/
def PartRow.info (p : PartRow) : PartInfo where
  partNumber := p.partNumber
  etag := p.etag
  size := p.size
  lastModified := p.createdAt

/-- The stored parts of an upload, by their numbers. -/
def Db.partsOf (db : Db) (uploadId : String) : List PartRow :=
  (db.parts.filter (·.uploadId == uploadId)).insertionSort (·.partNumber ≤ ·.partNumber)

def Db.partNumbersOf (db : Db) (uploadId : String) : List Nat :=
  (db.partsOf uploadId).map (·.partNumber)

/-- The part of an upload with this number. -/
def Db.partAt (db : Db) (uploadId : String) (partNumber : Nat) : Option PartRow :=
  (db.partsOf uploadId).find? (·.partNumber == partNumber)

/-- The size of a page, as the handler passes it on. -/
def ListPartsInput.pageSize (input : ListPartsInput) : Nat := (input.maxParts.map asU32).getD 1000

/-- The response to a request repeated with a marker, the upload staying as it is. -/
def Caller.partsPage (P : Platform) (caller : Caller) (w : World) (bucket key uploadId : String)
    (input : ListPartsInput) (marker : Option Nat) : Option ListPartsResponse :=
  match ((MultipartRequest.handle P caller ⟨bucket, key, uploadId,
      .listParts { input with partNumberMarker := marker.map Int.ofNat }⟩).run w).1 with
  | .ok (.parts response) => some response
  | _ => none

/-- The marker of a truncated response. -/
def ListPartsResponse.marker (response : ListPartsResponse) : Option Nat :=
  if response.isTruncated then response.nextPartNumberMarker else none

/-- **The pages list every part once, by ascending number**, and a truncated one names where
the next begins. -/
structure ReadsParts (db : Db) (uploadId : String) (responses : List ListPartsResponse) :
    Prop where
  parts : responses.flatMap (·.parts) = (db.partsOf uploadId).map PartRow.info
  ascending : (responses.flatMap (·.parts)).Pairwise (·.partNumber < ·.partNumber)
  marked : ∀ response ∈ responses, response.isTruncated = true →
    response.nextPartNumberMarker.isSome

/-- **A client that follows the markers from the first page** comes to an end, and whenever it
does it has read every part once. -/
structure PartsPaginate (P : Platform) (caller : Caller) (w : World) (bucket key uploadId : String)
    (input : ListPartsInput) : Prop where
  ends : ∃ responses,
    Follows (caller.partsPage P w bucket key uploadId input) (·.marker) none responses
  reads : ∀ responses,
    Follows (caller.partsPage P w bucket key uploadId input) (·.marker) none responses →
      ReadsParts w.db uploadId responses

variable {P : Platform} {w : World} {caller : Caller} {bucket key uploadId : String}
  {input : ListPartsInput} {db : Db}

/-! ## The stored parts -/

theorem mem_partsOf {p : PartRow} :
    p ∈ db.partsOf uploadId ↔ p ∈ db.parts ∧ p.uploadId = uploadId := by
  rw [Db.partsOf, (List.perm_insertionSort _ _).mem_iff, List.mem_filter, beq_iff_eq]

/-- No number comes twice. -/
theorem partNumbersOf_nodup (hkeyed : Keyed (fun p => (p.uploadId, p.partNumber)) db.parts) :
    (db.partNumbersOf uploadId).Nodup := by
  have hpairs : ((db.parts.filter (·.uploadId == uploadId)).map
      fun p => (p.uploadId, p.partNumber)).Nodup := hkeyed.filter
  have hnumbers : ((db.parts.filter (·.uploadId == uploadId)).map (·.partNumber)).Nodup := by
    refine List.Nodup.map_on (fun a ha b hb heq => ?_) (List.Nodup.of_map _ hpairs)
    rw [List.mem_filter, beq_iff_eq] at ha hb
    exact hkeyed.eq_of_mem ha.1 hb.1 (by rw [ha.2, hb.2, heq])
  rw [Db.partNumbersOf, Db.partsOf]
  exact ((List.perm_insertionSort _ _).map _).nodup_iff.mpr hnumbers

/-- The numbers ascend. -/
theorem partNumbersOf_ascending (hkeyed : Keyed (fun p => (p.uploadId, p.partNumber)) db.parts) :
    (db.partNumbersOf uploadId).Pairwise (· < ·) := by
  have hsorted : (db.partNumbersOf uploadId).Pairwise (· ≤ ·) := by
    rw [Db.partNumbersOf, List.pairwise_map]
    exact List.pairwise_insertionSort _ _
  exact (hsorted.and (partNumbersOf_nodup hkeyed)).imp fun hpair =>
    lt_of_le_of_ne hpair.1 hpair.2

/-- A part is found under its number. -/
theorem partAt_of_mem (hkeyed : Keyed (fun p => (p.uploadId, p.partNumber)) db.parts)
    {p : PartRow} (hp : p ∈ db.partsOf uploadId) : db.partAt uploadId p.partNumber = some p := by
  have hnodup : Keyed (·.partNumber) (db.partsOf uploadId) := partNumbersOf_nodup hkeyed
  exact hnodup.selectFirst hp (by simp) (fun p' hp' => by simpa using hp')

/-- The entries of some stored parts, from their numbers. -/
theorem filterMap_partAt (hkeyed : Keyed (fun p => (p.uploadId, p.partNumber)) db.parts)
    {rows : List PartRow} (hrows : ∀ p ∈ rows, p ∈ db.partsOf uploadId) :
    (rows.map (·.partNumber)).filterMap (fun n => (db.partAt uploadId n).map PartRow.info) =
      rows.map PartRow.info := by
  rw [List.filterMap_map, ← List.filterMap_eq_map]
  refine List.filterMap_congr fun p hp => ?_
  simp [partAt_of_mem hkeyed (hrows p hp)]

/-! ## One response -/

/-- What `list_parts` makes of the parts behind the marker. -/
def partsResponse (size : Nat) (rows : List PartRow) : ListPartsResponse :=
  let found := rows.map PartRow.info
  let isTruncated := size < found.length
  let shown := if isTruncated then found.take size else found
  { parts := shown
    isTruncated
    nextPartNumberMarker := if isTruncated then shown.getLast?.map (·.partNumber) else none }

theorem listParts_run (upload : MultipartUpload) (opts : ListPartsOpts) (w : World) :
    (listParts upload opts).run w =
      (.ok (partsResponse (opts.maxParts.getD 1000)
        ((w.db.partsOf upload.uploadId).filter
          fun p => decide (opts.partNumberMarker.getD 0 < p.partNumber))), w) := by
  have hrows : ((w.db.partsOf upload.uploadId).filter
      fun p => decide (opts.partNumberMarker.getD 0 < p.partNumber)) =
        (w.db.parts.filter fun p => p.uploadId == upload.uploadId &&
          decide (opts.partNumberMarker.getD 0 < p.partNumber)).insertionSort
            fun a b => a.partNumber ≤ b.partNumber := by
    rw [Db.partsOf, filter_insertionSort, List.filter_filter]
    refine congrArg _ (List.filter_congr fun p _ => ?_)
    rw [Bool.and_comm]
  rw [hrows]
  simp only [listParts, query, run_bind, run_observe, run_pure]
  rfl

/-- **The response shows a page of part numbers.** -/
structure ShowsParts (db : Db) (uploadId : String) (response : ListPartsResponse) (p : Page Nat) :
    Prop where
  parts : response.parts = p.shown.filterMap fun n => (db.partAt uploadId n).map PartRow.info
  marker : response.marker = p.next
  marked : response.isTruncated = true → response.nextPartNumberMarker.isSome

theorem partsResponse_shows (hkeyed : Keyed (fun p => (p.uploadId, p.partNumber)) db.parts)
    {size : Nat} (hsize : 0 < size) {rows : List PartRow}
    (hrows : ∀ p ∈ rows, p ∈ db.partsOf uploadId) :
    ShowsParts db uploadId (partsResponse size rows)
      (page (fun _ => true) size (rows.map (·.partNumber))) := by
  have hall : (rows.map (·.partNumber)).filter (fun _ => true) = rows.map (·.partNumber) :=
    List.filter_eq_self.mpr fun _ _ => rfl
  have hlast : ((rows.take size).map PartRow.info).getLast?.map (·.partNumber) =
      ((rows.take size).map (·.partNumber)).getLast? := by
    rw [List.getLast?_map, List.getLast?_map, Option.map_map]
    rfl
  by_cases hmore : size < rows.length
  · refine ⟨?_, ?_, fun _ => ?_⟩
    · rw [page_shown, hall, ← List.map_take,
        filterMap_partAt hkeyed fun p hp => hrows p (List.mem_of_mem_take hp)]
      simp [partsResponse, hmore]
    · rw [page_next, hall, if_pos (by simpa using hmore), ← List.map_take, ← hlast]
      simp [ListPartsResponse.marker, partsResponse, hmore]
    · have hshown : (rows.take size).map PartRow.info ≠ [] := by
        intro hnone
        have hlength := congrArg List.length hnone
        rw [List.length_map, List.length_take, List.length_nil] at hlength
        omega
      simp [partsResponse, hmore, ← List.map_take, List.getLast?_eq_some_getLast hshown]
  · refine ⟨?_, ?_, fun htruncated => ?_⟩
    · rw [page_shown, hall, List.take_of_length_le (by simpa using hmore),
        filterMap_partAt hkeyed hrows]
      simp [partsResponse, hmore]
    · rw [page_next, hall, if_neg (by simpa using hmore)]
      simp [ListPartsResponse.marker, partsResponse, hmore]
    · simp [partsResponse, hmore] at htruncated

theorem partsPage_eq (hcheck : caller.check w.now "ListParts" bucket key = .ok ())
    {marker : Option Nat} (hmarker : ∀ n ∈ marker, n ≤ 65535) :
    caller.partsPage P w bucket key uploadId input marker =
      some (partsResponse input.pageSize
        ((w.db.partsOf uploadId).filter fun p => decide (marker.getD 0 < p.partNumber))) := by
  have hpassed : (marker.map Int.ofNat).bind
      (fun n => if 0 ≤ n ∧ n ≤ 65535 then some n.toNat else none) = marker := by
    cases marker with
    | none => rfl
    | some n =>
        have hn : n ≤ 65535 := hmarker n rfl
        have hbounds : 0 ≤ Int.ofNat n ∧ Int.ofNat n ≤ 65535 := by
          simp only [Int.ofNat_eq_natCast]
          omega
        rw [Option.map_some, Option.bind_some, if_pos hbounds]
        rfl
  have hoperation : (UploadAction.listParts
      { input with partNumberMarker := marker.map Int.ofNat }).operation = "ListParts" := rfl
  simp only [Caller.partsPage, MultipartRequest.handle, run_authorize_bind, hoperation, hcheck,
    MultipartRequest.perform, run_observe_bind, hpassed]
  simp only [run_bind, run_ofStore, listParts_run, Except.mapError, run_pure]
  rfl

/-- The parts behind a marker, by their numbers. -/
theorem numbers_behind (hnumbers : NumbersInRange db.parts) (marker : Option Nat) :
    ((db.partsOf uploadId).filter fun p => decide (marker.getD 0 < p.partNumber)).map
      (·.partNumber) = keysFrom (db.partNumbersOf uploadId) marker := by
  cases marker with
  | none =>
      have hall : (db.partsOf uploadId).filter (fun p => decide (0 < p.partNumber)) =
          db.partsOf uploadId := by
        refine List.filter_eq_self.mpr fun p hp => ?_
        exact decide_eq_true (hnumbers p (mem_partsOf.mp hp).1).1
      rw [Option.getD_none, hall]
      rfl
  | some n =>
      rw [Option.getD_some, keysFrom, behind, Db.partNumbersOf, List.filter_map]
      rfl

/-- **Every response shows the page of the part numbers that its marker leaves.** -/
theorem partsPage_shows (hreachable : (store P).Reachable w)
    (hcheck : caller.check w.now "ListParts" bucket key = .ok ()) (hsize : 0 < input.pageSize)
    (marker : Option Nat) (hmarker : ∀ n ∈ marker, n ∈ w.db.partNumbersOf uploadId) :
    ∃ response, caller.partsPage P w bucket key uploadId input marker = some response ∧
      ShowsParts w.db uploadId response
        (page (fun _ => true) input.pageSize (keysFrom (w.db.partNumbersOf uploadId) marker)) := by
  have hnumbers := numbersInRange_reachable hreachable
  have hfits : ∀ n ∈ marker, n ≤ 65535 := by
    intro n hn
    obtain ⟨p, hp, rfl⟩ := List.mem_map.mp (hmarker n hn)
    have := (hnumbers p (mem_partsOf.mp hp).1).2
    omega
  refine ⟨_, partsPage_eq hcheck hfits, ?_⟩
  rw [← numbers_behind hnumbers]
  exact partsResponse_shows (wellFormed_reachable hreachable).keyedPart hsize
    fun p hp => (List.mem_filter.mp hp).1

/-! ## All responses -/

/-- The responses put together list the parts of all pages. -/
theorem flatMap_parts {responses : List ListPartsResponse} {pages : List (Page Nat)}
    (h : List.Forall₂ (ShowsParts db uploadId) responses pages) :
    responses.flatMap (·.parts) =
      (pages.flatMap (·.shown)).filterMap fun n => (db.partAt uploadId n).map PartRow.info := by
  induction h with
  | nil => rfl
  | cons hshows _ ih =>
      rw [List.flatMap_cons, List.flatMap_cons, List.filterMap_append, hshows.parts, ih]

theorem ReadsParts.of_pages (hkeyed : Keyed (fun p => (p.uploadId, p.partNumber)) db.parts)
    {size : Nat} (hsize : 0 < size) {responses : List ListPartsResponse} {pages : List (Page Nat)}
    (hpages : Pages (fun _ => true) size (db.partNumbersOf uploadId) pages)
    (hall : List.Forall₂ (ShowsParts db uploadId) responses pages) :
    ReadsParts db uploadId responses := by
  have hascending : (db.partNumbersOf uploadId).Pairwise (· < ·) := partNumbersOf_ascending hkeyed
  have hshown : pages.flatMap (·.shown) = db.partNumbersOf uploadId := by
    rw [hpages.flatMap_shown hsize hascending]
    exact List.filter_eq_self.mpr fun _ _ => rfl
  have hparts : responses.flatMap (·.parts) = (db.partsOf uploadId).map PartRow.info := by
    rw [flatMap_parts hall, hshown]
    exact filterMap_partAt hkeyed fun _ hp => hp
  refine ⟨hparts, ?_, ?_⟩
  · rw [hparts, List.pairwise_map]
    rw [Db.partNumbersOf, List.pairwise_map] at hascending
    exact hascending
  · clear hpages hshown hparts
    induction hall with
    | nil => simp
    | cons hshows _ ih =>
        intro response hmem htruncated
        rcases List.mem_cons.mp hmem with rfl | hlater
        · exact hshows.marked htruncated
        · exact ih response hlater htruncated

/-- **The parts of an upload are read once and in order**, whatever their numbers and the size
of the pages. -/
theorem partsPaginate (hreachable : (store P).Reachable w)
    (hcheck : caller.check w.now "ListParts" bucket key = .ok ()) (hsize : 1 ≤ input.pageSize) :
    PartsPaginate P caller w bucket key uploadId input := by
  have hserves : ∀ marker, (∀ n ∈ marker, n ∈ w.db.partNumbersOf uploadId) →
      ∃ response, caller.partsPage P w bucket key uploadId input marker = some response ∧
        ShowsParts w.db uploadId response (page (fun _ => true) input.pageSize
          (keysFrom (w.db.partNumbersOf uploadId) marker)) :=
    partsPage_shows hreachable hcheck hsize
  refine ⟨?ends, fun responses hfollows => ?reads⟩
  case ends =>
    obtain ⟨pages, hpages⟩ := Pages.exists_pages (fun _ => true) input.pageSize
      (w.db.partNumbersOf uploadId)
    have hfrom : Pages (fun _ => true) input.pageSize
        (keysFrom (w.db.partNumbersOf uploadId) none) pages := hpages
    refine hfrom.exists_follows (fun marker hmarker => ?_) (fun n hn => nomatch hn)
    obtain ⟨response, hresponse, hshows⟩ := hserves marker hmarker
    exact ⟨response, hresponse, hshows.marker⟩
  case reads =>
    have hfetch : ∀ marker response, (∀ n ∈ marker, n ∈ w.db.partNumbersOf uploadId) →
        caller.partsPage P w bucket key uploadId input marker = some response →
        ShowsParts w.db uploadId response (page (fun _ => true) input.pageSize
            (keysFrom (w.db.partNumbersOf uploadId) marker)) ∧
          response.marker = (page (fun _ => true) input.pageSize
            (keysFrom (w.db.partNumbersOf uploadId) marker)).next := by
      intro marker response hmarker hresponse
      obtain ⟨response', hresponse', hshows⟩ := hserves marker hmarker
      obtain rfl : response' = response := Option.some.inj (hresponse'.symm.trans hresponse)
      exact ⟨hshows, hshows.marker⟩
    obtain ⟨pages, hpages, hall⟩ := hfollows.exists_pages hfetch (fun n hn => nomatch hn)
    exact .of_pages (wellFormed_reachable hreachable).keyedPart hsize hpages hall

/-- Two parts with a gap between their numbers, read one by one. -/
theorem partsPaginate_sparse :
    PartsPaginate executablePlatform rootCaller
      ((store executablePlatform).after (store executablePlatform).init
        (onePart ++ [.uploadPart bigUpload 7 [.ok [98]]]))
      "docs" "big" bigUpload.uploadId { maxParts := some 1 } :=
  partsPaginate ⟨_, rfl⟩ (by decide) (by decide)

end Strix

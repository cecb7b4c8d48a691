import Mathlib.Data.List.Sort
import Mathlib.Data.String.Basic
import Strix.KeysetScan
import Strix.ObjectReaders
import Strix.S3Handlers
import Strix.SqliteLike

/-!
# Listing objects

`list_objects` of the store and the handler of `ListObjectsV2`.  The store
selects the current rows with a LIKE pattern made from the prefix and walks
through them in the order of their keys; with a delimiter it slices the prefix
off each key and looks for the delimiter in the rest.

* `listing_eq_none` and `listing_shows`: the walk as a page of the selected keys;
* `listObjects_run`: listing answers from the selected rows and changes nothing.
-/

namespace Strix

open AtomicProgram AtomicProgram.Prog KeysetPaging SqliteLike

structure ListObjectsOpts where
  keyPrefix : Option String := none
  delimiter : Option String := none
  maxKeys : Option Nat := none
  continuationToken : Option String := none
  startAfter : Option String := none

structure ListObjectsResponse where
  objects : List ObjectInfo
  commonPrefixes : List String
  isTruncated : Bool
  nextContinuationToken : Option String

/-! ## The query -/

/-- `format!("{}%", prefix.replace('%', "\\%"))`. -/
def likePattern (keyPrefix : String) : List Char :=
  (keyPrefix.toList.flatMap fun c => if c = '%' then [Char.ofNat 92, '%'] else [c]) ++ ['%']

/-- SQLite's limit on the bytes of a LIKE pattern.  A longer pattern is an error
in every row, and rows in error are skipped. -/
def maxLikePattern : Nat := 50000

/-- `key LIKE ?`, for the pattern of the prefix. -/
def likeSelects (keyPrefix key : String) : Bool :=
  byteLen (String.ofList (likePattern keyPrefix)) ≤ maxLikePattern &&
    like (likePattern keyPrefix) key.toList

/-- Without percent signs nothing is escaped. -/
theorem escape_plain {cs : List Char} (hplain : ∀ c ∈ cs, c ≠ '%') :
    (cs.flatMap fun c => if c = '%' then [Char.ofNat 92, '%'] else [c]) = cs := by
  induction cs with
  | nil => rfl
  | cons c cs ih =>
      have hc : c ≠ '%' := hplain c List.mem_cons_self
      rw [List.flatMap_cons, if_neg hc, ih fun d hd => hplain d (List.mem_cons_of_mem _ hd)]
      rfl

/-- **A key that starts with the prefix is selected** unless the prefix has a percent sign or
its pattern is too long. -/
theorem likeSelects_startsWith_iff {keyPrefix key : String}
    (h : startsWith key keyPrefix = true) :
    likeSelects keyPrefix key = true ↔ '%' ∉ keyPrefix.toList ∧
      byteLen (String.ofList (likePattern keyPrefix)) ≤ maxLikePattern := by
  obtain ⟨rest, rfl⟩ := startsWith_iff.mp h
  by_cases hpercent : '%' ∈ keyPrefix.toList
  · obtain ⟨front, back, hsplit, hfirst⟩ := List.eq_append_cons_of_mem hpercent
    have hfront : ∀ c ∈ front, c ≠ '%' := fun c hc heq => hfirst (heq ▸ hc)
    have hmissed : like (likePattern keyPrefix) (keyPrefix ++ rest).toList = false := by
      rw [likePattern, String.toList_append, hsplit, List.flatMap_append, escape_plain hfront,
        List.flatMap_cons, if_pos rfl]
      simpa using not_like_escaped hfront
    rw [likeSelects, hmissed]
    simp [hpercent]
  · have hplain : ∀ c ∈ keyPrefix.toList, c ≠ '%' := fun c hc heq => hpercent (heq ▸ hc)
    have hmatched : like (likePattern keyPrefix) (keyPrefix ++ rest).toList = true := by
      rw [likePattern, escape_plain hplain, String.toList_append, like_append_self hplain,
        like_percent]
    rw [likeSelects, hmatched]
    simp [hpercent]

example : likeSelects "foo" "Foo" = true ∧ likeSelects "a%b" "a%b" = false := by decide

/-- A row that is current: the latest, and no delete marker. -/
def ObjectRow.isCurrent (r : ObjectRow) : Bool := r.isLatest && !r.isDeleteMarker

/-- `key > ?`, where the query has it. -/
def isAfter (startAfter : Option String) (key : String) : Bool :=
  startAfter.all fun start => start < key

/-- The rows of the query.  Rows of one key come in the order of the table. -/
def listingRows (bucket keyPrefix : String) (startAfter : Option String) (db : Db) :
    List ObjectRow :=
  (db.objects.filter fun r =>
    r.bucket == bucket && likeSelects keyPrefix r.key && isAfter startAfter r.key && r.isCurrent)
  |>.insertionSort fun a b => a.key ≤ b.key

/-! ## The walk through the rows -/

/-- `BTreeSet::insert`, the set being the list of its members in order. -/
def insertSorted (p : String) : List String → List String
  | [] => [p]
  | q :: qs => if p < q then p :: q :: qs else if p = q then q :: qs else q :: insertSorted p qs

/-- The common prefix that stands for a key, if the delimiter occurs in it
behind the prefix.  None where the slice of the key panics. -/
def rollUp (keyPrefix : String) (delimiter : Option String) (key : String) :
    Option (Option String) :=
  match delimiter with
  | none => some none
  | some delim =>
    if delim.isEmpty then some none
    else
      (sliceFrom key (byteLen keyPrefix)).map fun suffix =>
        (textBefore suffix delim).map fun segment => keyPrefix ++ segment ++ delim

example : rollUp "_" (some "/") (String.ofList ['é', '/']) = none := by decide

/-- The loop over the rows, with the objects and the common prefixes collected
so far.  None where it panics. -/
def listLoop (keyPrefix : String) (delimiter : Option String) (maxKeys : Nat) :
    List ObjectRow → List ObjectInfo → List String → Option (List ObjectInfo × List String)
  | [], objects, commonPrefixes => some (objects, commonPrefixes)
  | obj :: rest, objects, commonPrefixes =>
    match rollUp keyPrefix delimiter obj.key with
    | none => none
    | some (some commonPrefix) =>
      listLoop keyPrefix delimiter maxKeys rest objects (insertSorted commonPrefix commonPrefixes)
    | some none =>
      let objects := objects ++ [obj.info]
      if maxKeys < objects.length then some (objects, commonPrefixes)
      else listLoop keyPrefix delimiter maxKeys rest objects commonPrefixes

/-- What `list_objects` makes of the rows. -/
def listing (keyPrefix : String) (delimiter : Option String) (maxKeys : Nat)
    (rows : List ObjectRow) : Option ListObjectsResponse :=
  (listLoop keyPrefix delimiter maxKeys rows [] []).map fun (objects, commonPrefixes) =>
    let isTruncated := decide (maxKeys < objects.length)
    let shown := if isTruncated then objects.take maxKeys else objects
    { objects := shown
      commonPrefixes
      isTruncated
      nextContinuationToken :=
        if isTruncated then shown.getLast?.map (·.key) else none }

/-- `list_objects`.  None where it panics. -/
def listObjects (bucket : String) (opts : ListObjectsOpts) :
    StoreProg (Option ListObjectsResponse) := do
  let there ← query (bucketRowExists bucket)
  ensure there (.bucketNotFound bucket)
  let keyPrefix := opts.keyPrefix.getD ""
  let startAfter := opts.startAfter <|> opts.continuationToken
  let rows ← query (listingRows bucket keyPrefix startAfter)
  return listing keyPrefix opts.delimiter (opts.maxKeys.getD 1000) rows

/-! ## The handler -/

structure ListObjectsV2Input where
  bucket : String
  keyPrefix : Option String := none
  delimiter : Option String := none
  maxKeys : Option Int := none
  continuationToken : Option String := none
  startAfter : Option String := none

/-- An object of a listing. -/
structure ListedObject where
  key : String
  size : Int
  eTag : String
  lastModified : DateTime
  storageClass : StorageClass
  deriving DecidableEq, Repr

structure ListObjectsV2Output where
  name : String
  keyPrefix : Option String
  delimiter : Option String
  maxKeys : Int
  isTruncated : Bool
  continuationToken : Option String
  nextContinuationToken : Option String
  keyCount : Int
  contents : List ListedObject
  commonPrefixes : Option (List String)
  startAfter : Option String
  deriving DecidableEq, Repr

/-- `as i32` and `as i64` of an unsigned number. -/
def asSigned (bits n : Nat) : Int := Int.bmod n (2 ^ bits)

def ObjectInfo.listed (info : ObjectInfo) : ListedObject where
  key := info.key
  size := asSigned 64 info.size
  eTag := info.etag
  lastModified := info.lastModified
  storageClass := info.storageClass

/-- The options that the handler passes to the store. -/
def ListObjectsV2Input.opts (input : ListObjectsV2Input) : ListObjectsOpts where
  keyPrefix := input.keyPrefix
  delimiter := input.delimiter
  maxKeys := input.maxKeys.map asU32
  continuationToken := input.continuationToken
  startAfter := input.startAfter

def ListObjectsV2Input.output (input : ListObjectsV2Input) (response : ListObjectsResponse) :
    ListObjectsV2Output where
  name := input.bucket
  keyPrefix := input.keyPrefix
  delimiter := input.delimiter
  maxKeys := input.maxKeys.getD 1000
  isTruncated := response.isTruncated
  continuationToken := input.continuationToken
  nextContinuationToken := response.nextContinuationToken
  keyCount := asSigned 32 response.objects.length
  contents := response.objects.map (·.listed)
  commonPrefixes :=
    if response.commonPrefixes.isEmpty then none else some response.commonPrefixes
  startAfter := input.startAfter

/-- The handler `list_objects_v2`.  None where it panics. -/
def listObjectsV2 (caller : Caller) (input : ListObjectsV2Input) :
    S3Prog (Option ListObjectsV2Output) := do
  let now ← observe (·.now)
  lift (caller.checkBucket now "ListObjectsV2" input.bucket)
  let response ← ofStore (listObjects input.bucket input.opts)
  return response.map input.output

/-! ## The walk as a page of keys -/

@[simp] theorem mem_insertSorted {p q : String} {ps : List String} :
    q ∈ insertSorted p ps ↔ q = p ∨ q ∈ ps := by
  induction ps with
  | nil => simp [insertSorted]
  | cons head tail ih =>
      by_cases hlt : p < head
      · simp [insertSorted, hlt]
      · by_cases heq : p = head
        · simp [insertSorted, heq]
        · simp [insertSorted, hlt, heq, ih, or_left_comm]

theorem insertSorted_ascending (p : String) {ps : List String} (h : ps.Pairwise (· < ·)) :
    (insertSorted p ps).Pairwise (· < ·) := by
  induction ps with
  | nil => simp [insertSorted]
  | cons head tail ih =>
      obtain ⟨hhead, htail⟩ := List.pairwise_cons.mp h
      by_cases hlt : p < head
      · simp only [insertSorted, hlt, if_true]
        refine List.pairwise_cons.mpr ⟨fun q hq => ?_, h⟩
        rcases List.mem_cons.mp hq with rfl | hq
        · exact hlt
        · exact hlt.trans (hhead q hq)
      · by_cases heq : p = head
        · simpa [insertSorted, heq] using h
        · simp only [insertSorted, hlt, heq, if_false]
          refine List.pairwise_cons.mpr ⟨fun q hq => ?_, ih htail⟩
          rcases mem_insertSorted.mp hq with rfl | hq
          · exact lt_of_le_of_ne (not_lt.mp hlt) (Ne.symm heq)
          · exact hhead q hq

/-- The key comes among the objects. -/
def isListed (keyPrefix : String) (delimiter : Option String) (key : String) : Bool :=
  rollUp keyPrefix delimiter key == some none

@[simp] theorem isListed_iff {keyPrefix key : String} {delimiter : Option String} :
    isListed keyPrefix delimiter key = true ↔ rollUp keyPrefix delimiter key = some none := by
  simp [isListed]

section Walk

variable {keyPrefix : String} {delimiter : Option String} {maxKeys room : Nat}
  {rows : List ObjectRow} {objects : List ObjectInfo} {commonPrefixes : List String}

/-- The keys that the loop reads, with room for so many objects. -/
def keysRead (keyPrefix : String) (delimiter : Option String) (room : Nat)
    (rows : List ObjectRow) : List String :=
  scan (isListed keyPrefix delimiter) (room + 1) (rows.map (·.key))

/-- The loop panics on a key that it reads and cannot slice. -/
theorem listLoop_eq_none (hroom : objects.length + room = maxKeys) :
    listLoop keyPrefix delimiter maxKeys rows objects commonPrefixes = none ↔
      ∃ key ∈ keysRead keyPrefix delimiter room rows, rollUp keyPrefix delimiter key = none := by
  induction rows generalizing objects commonPrefixes room with
  | nil => simp [listLoop, keysRead]
  | cons obj rest ih =>
      cases hroll : rollUp keyPrefix delimiter obj.key with
      | none => simp [listLoop, keysRead, scan, hroll]
      | some rolled =>
          cases rolled with
          | some commonPrefix =>
              have hlisted : isListed keyPrefix delimiter obj.key = false := by
                simp [isListed, hroll]
              have hih := @ih room objects (insertSorted commonPrefix commonPrefixes) hroom
              simpa [listLoop, keysRead, scan, hroll, hlisted] using hih
          | none =>
              have hlisted : isListed keyPrefix delimiter obj.key = true := by
                simp [hroll]
              cases room with
              | zero =>
                  have hfull : maxKeys < objects.length + 1 := by omega
                  simp [listLoop, keysRead, scan, hroll, hlisted, hfull]
              | succ room =>
                  have hmore : ¬maxKeys < objects.length + 1 := by omega
                  have hlength : (objects ++ [obj.info]).length + room = maxKeys := by
                    simp
                    omega
                  have hih := @ih room (objects ++ [obj.info]) commonPrefixes hlength
                  simpa [listLoop, keysRead, scan, hroll, hlisted, hmore] using hih

/-- What the loop collects from the keys that it reads. -/
theorem listLoop_eq_some {collected : List ObjectInfo × List String}
    (hroom : objects.length + room = maxKeys) (hascending : commonPrefixes.Pairwise (· < ·))
    (h : listLoop keyPrefix delimiter maxKeys rows objects commonPrefixes = some collected) :
    collected.1.map (·.key) = objects.map (·.key) ++
        (keysRead keyPrefix delimiter room rows).filter (isListed keyPrefix delimiter) ∧
      collected.2.Pairwise (· < ·) ∧
      ∀ p, p ∈ collected.2 ↔ p ∈ commonPrefixes ∨
        ∃ key ∈ keysRead keyPrefix delimiter room rows,
          rollUp keyPrefix delimiter key = some (some p) := by
  induction rows generalizing objects commonPrefixes room with
  | nil =>
      obtain rfl := Option.some.inj h
      refine ⟨?_, hascending, fun p => ?_⟩ <;> simp [keysRead]
  | cons obj rest ih =>
      cases hroll : rollUp keyPrefix delimiter obj.key with
      | none => simp [listLoop, hroll] at h
      | some rolled =>
          cases rolled with
          | some commonPrefix =>
              have hlisted : isListed keyPrefix delimiter obj.key = false := by
                simp [isListed, hroll]
              simp only [listLoop, hroll] at h
              obtain ⟨hkeys, hsorted, hmem⟩ :=
                ih hroom (insertSorted_ascending commonPrefix hascending) h
              refine ⟨?_, hsorted, fun p => ?_⟩
              · simpa [keysRead, scan, hlisted] using hkeys
              · rw [hmem p, mem_insertSorted, or_comm (a := p = commonPrefix), or_assoc]
                simp [keysRead, scan, hlisted, hroll, eq_comm]
          | none =>
              have hlisted : isListed keyPrefix delimiter obj.key = true := by
                simp [hroll]
              cases room with
              | zero =>
                  have hfull : maxKeys < (objects ++ [obj.info]).length := by simp; omega
                  simp only [listLoop, hroll, if_pos hfull, Option.some.injEq] at h
                  obtain rfl := h
                  refine ⟨?_, hascending, fun p => ?_⟩ <;>
                    simp [keysRead, scan, hlisted, hroll, ObjectRow.info]
              | succ room =>
                  have hmore : ¬maxKeys < (objects ++ [obj.info]).length := by simp; omega
                  simp only [listLoop, hroll, if_neg hmore] at h
                  have hlength : (objects ++ [obj.info]).length + room = maxKeys := by
                    simp
                    omega
                  obtain ⟨hkeys, hsorted, hmem⟩ := ih hlength hascending h
                  refine ⟨?_, hsorted, fun p => ?_⟩
                  · simpa [keysRead, scan, hlisted, ObjectRow.info] using hkeys
                  · rw [hmem p]
                    simp [keysRead, scan, hlisted, hroll]

variable {response : ListObjectsResponse}

/-- The response shows a page of keys. -/
structure Shows (keyPrefix : String) (delimiter : Option String) (response : ListObjectsResponse)
    (shown : Page String) : Prop where
  keys : response.objects.map (·.key) = shown.shown
  ascending : response.commonPrefixes.Pairwise (· < ·)
  commonPrefixes : ∀ p, p ∈ response.commonPrefixes ↔
    ∃ key ∈ shown.passed, rollUp keyPrefix delimiter key = some (some p)
  token : (if response.isTruncated then response.nextContinuationToken else none) = shown.next

/-- A key that is not listed is read exactly when it is passed. -/
theorem exists_passed_iff {rolled : Option (Option String)} (hrolled : rolled ≠ some none) :
    (∃ key ∈ (page (isListed keyPrefix delimiter) maxKeys (rows.map (·.key))).passed,
        rollUp keyPrefix delimiter key = rolled) ↔
      ∃ key ∈ keysRead keyPrefix delimiter maxKeys rows,
        rollUp keyPrefix delimiter key = rolled := by
  constructor
  · rintro ⟨key, hkey, hroll⟩
    exact ⟨key, (mem_passed.mp hkey).1, hroll⟩
  · rintro ⟨key, hkey, hroll⟩
    refine ⟨key, mem_passed.mpr ⟨hkey, ?_⟩, hroll⟩
    simp [isListed, hroll, hrolled]

theorem listing_eq_none :
    listing keyPrefix delimiter maxKeys rows = none ↔
      ∃ key ∈ (page (isListed keyPrefix delimiter) maxKeys (rows.map (·.key))).passed,
        rollUp keyPrefix delimiter key = none := by
  rw [listing, Option.map_eq_none_iff, listLoop_eq_none (Nat.zero_add _),
    exists_passed_iff (by simp)]

theorem listing_shows (h : listing keyPrefix delimiter maxKeys rows = some response) :
    Shows keyPrefix delimiter response
      (page (isListed keyPrefix delimiter) maxKeys (rows.map (·.key))) := by
  obtain ⟨⟨objects, commonPrefixes⟩, hloop, rfl⟩ := Option.map_eq_some_iff.mp h
  obtain ⟨hkeys, hascending, hmem⟩ :=
    listLoop_eq_some (Nat.zero_add _) List.Pairwise.nil hloop
  have hfound : objects.map (·.key) =
      ((rows.map (·.key)).filter (isListed keyPrefix delimiter)).take (maxKeys + 1) := by
    simpa [keysRead, filter_scan] using hkeys
  have htruncated : maxKeys < objects.length ↔
      maxKeys < ((rows.map (·.key)).filter (isListed keyPrefix delimiter)).length := by
    have hlength := congrArg List.length hfound
    rw [List.length_map, List.length_take] at hlength
    omega
  have hshown : (objects.take maxKeys).map (·.key) =
      ((rows.map (·.key)).filter (isListed keyPrefix delimiter)).take maxKeys := by
    rw [List.map_take, hfound, List.take_take, Nat.min_eq_left (Nat.le_succ maxKeys)]
  refine ⟨?_, hascending, fun p => ?_, ?_⟩
  · rw [page_shown, ← hshown]
    by_cases hmore : maxKeys < objects.length
    · simp [hmore]
    · simp [hmore, List.take_of_length_le (not_lt.mp hmore)]
  · rw [hmem p, exists_passed_iff (by simp)]
    simp
  · rw [page_next, ← hshown, List.getLast?_map]
    by_cases hmore : maxKeys < objects.length
    · simp [hmore, htruncated.mp hmore]
    · simp [hmore, mt htruncated.mpr hmore]

end Walk

/-! ## What a listing answers -/

theorem listObjects_run {bucket : String} {w : World} (opts : ListObjectsOpts)
    (hbucket : bucketRowExists bucket w.db = true) :
    (listObjects bucket opts).run w =
      (.ok (listing (opts.keyPrefix.getD "") opts.delimiter (opts.maxKeys.getD 1000)
        (listingRows bucket (opts.keyPrefix.getD "")
          (opts.startAfter <|> opts.continuationToken) w.db)), w) := by
  simp [listObjects, query, hbucket]

end Strix

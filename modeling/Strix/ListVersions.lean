import Strix.ListObjects
import Strix.MarkedPaging

/-!
# Listing object versions

`list_object_versions` of the store.  It selects the rows of a bucket with the
LIKE pattern of the prefix, newest first within a key, and collects versions
and delete markers in two lists until there is one row too many.  The markers
of a truncated response are those of the last version or the last delete
marker, whichever is newer.

* `response_shows`: without a delimiter the response is a page of the rows;
* `versionsLoop_markers`: behind the markers of a row the loop goes on with the
  rows behind it.
-/

namespace Strix

open AtomicProgram AtomicProgram.Prog MarkedPaging RowTable

structure ListVersionsOpts where
  keyPrefix : Option String := none
  delimiter : Option String := none
  maxKeys : Option Nat := none
  keyMarker : Option String := none
  versionIdMarker : Option String := none

/-- A version of an object, or a delete marker. -/
structure ObjectVersion where
  key : String
  versionId : String
  isLatest : Bool
  isDeleteMarker : Bool
  lastModified : DateTime
  etag : Option String
  size : Option Nat
  storageClass : Option StorageClass
  deriving DecidableEq, Repr

structure ListVersionsResponse where
  versions : List ObjectVersion
  deleteMarkers : List ObjectVersion
  commonPrefixes : List String
  isTruncated : Bool
  nextKeyMarker : Option String
  nextVersionIdMarker : Option String
  deriving DecidableEq, Repr

/-! ## The query -/

/-- `key >= ?`, where the query has it. -/
def isFrom (keyMarker : Option String) (key : String) : Bool :=
  keyMarker.all fun marker => marker ≤ key

/-- `ORDER BY key, last_modified DESC`. -/
def versionOrder (a b : ObjectRow) : Prop :=
  a.key < b.key ∨ (a.key = b.key ∧ b.lastModified ≤ a.lastModified)

instance : DecidableRel versionOrder := fun a b =>
  inferInstanceAs (Decidable (a.key < b.key ∨ (a.key = b.key ∧ b.lastModified ≤ a.lastModified)))

/-- The rows of the query.  Rows of one key and one time come in the order of
the table. -/
def versionRows (bucket keyPrefix : String) (keyMarker : Option String) (db : Db) :
    List ObjectRow :=
  (db.objects.filter fun r =>
    r.bucket == bucket && likeSelects keyPrefix r.key && isFrom keyMarker r.key)
  |>.insertionSort versionOrder

/-! ## The walk through the rows -/

/-- The entry of a row. -/
def ObjectRow.version (r : ObjectRow) : ObjectVersion where
  key := r.key
  versionId := r.versionId
  isLatest := r.isLatest
  isDeleteMarker := r.isDeleteMarker
  lastModified := r.lastModified
  etag := if r.isDeleteMarker then none else some r.etag
  size := if r.isDeleteMarker then none else some r.size
  storageClass := if r.isDeleteMarker then none else some r.storageClass

/-- What the loop has collected. -/
structure VersionsFound where
  versions : List ObjectVersion := []
  deleteMarkers : List ObjectVersion := []
  commonPrefixes : List String := []

def VersionsFound.total (found : VersionsFound) : Nat :=
  found.versions.length + found.deleteMarkers.length

def VersionsFound.push (found : VersionsFound) (r : ObjectRow) : VersionsFound :=
  if r.isDeleteMarker then { found with deleteMarkers := found.deleteMarkers ++ [r.version] }
  else { found with versions := found.versions ++ [r.version] }

/-- The loop over the rows.  `waitsFor` is the version id marker until the loop
is past it.  None where it panics. -/
def versionsLoop (keyPrefix : String) (delimiter : Option String) (maxKeys : Nat) :
    List ObjectRow → (waitsFor : Option String) → VersionsFound → Option VersionsFound
  | [], _, found => some found
  | row :: rest, some vidMarker, found =>
    versionsLoop keyPrefix delimiter maxKeys rest
      (if row.versionId = vidMarker then none else some vidMarker) found
  | row :: rest, none, found =>
    match rollUp keyPrefix delimiter row.key with
    | none => none
    | some (some commonPrefix) =>
      versionsLoop keyPrefix delimiter maxKeys rest none
        { found with commonPrefixes := insertSorted commonPrefix found.commonPrefixes }
    | some none =>
      let found := found.push row
      if maxKeys < found.total then some found
      else versionsLoop keyPrefix delimiter maxKeys rest none found

/-- What is left of the two lists when there is too much in them. -/
def VersionsFound.cut (found : VersionsFound) (maxKeys : Nat) : VersionsFound :=
  if maxKeys < found.total then
    let toRemove := found.total - maxKeys
    if toRemove ≤ found.deleteMarkers.length then
      { found with
        deleteMarkers := found.deleteMarkers.take (found.deleteMarkers.length - toRemove) }
    else
      let remaining := toRemove - found.deleteMarkers.length
      { found with
        deleteMarkers := []
        versions := found.versions.take (found.versions.length - remaining) }
  else found

/-- The entry whose key and version id become the next markers. -/
def VersionsFound.marker (found : VersionsFound) : Option ObjectVersion :=
  match found.versions.getLast?, found.deleteMarkers.getLast? with
  | some v, some dm => if dm.lastModified ≤ v.lastModified then some v else some dm
  | some v, none => some v
  | none, some dm => some dm
  | none, none => none

/-- The response made of what the loop has collected. -/
def VersionsFound.response (found : VersionsFound) (maxKeys : Nat) : ListVersionsResponse :=
  let isTruncated := decide (maxKeys < found.total)
  let shown := found.cut maxKeys
  let marker := if isTruncated then shown.marker else none
  { versions := shown.versions
    deleteMarkers := shown.deleteMarkers
    commonPrefixes := shown.commonPrefixes
    isTruncated
    nextKeyMarker := marker.map (·.key)
    nextVersionIdMarker := marker.map (·.versionId) }

/-- `list_object_versions`.  None where it panics. -/
def listObjectVersions (bucket : String) (opts : ListVersionsOpts) :
    StoreProg (Option ListVersionsResponse) := do
  let there ← query (bucketRowExists bucket)
  ensure there (.bucketNotFound bucket)
  let keyPrefix := opts.keyPrefix.getD ""
  let maxKeys := opts.maxKeys.getD 1000
  let rows ← query (versionRows bucket keyPrefix opts.keyMarker)
  return (versionsLoop keyPrefix opts.delimiter maxKeys rows opts.versionIdMarker {}).map
    (·.response maxKeys)

/-! ## The order of the rows -/

section Rows

variable {bucket keyPrefix : String} {db : Db} {r : ObjectRow}

instance : Std.Total versionOrder where
  total a b := by
    rcases lt_trichotomy a.key b.key with hlt | heq | hgt
    · exact Or.inl (Or.inl hlt)
    · rcases le_total a.lastModified b.lastModified with hle | hle
      · exact Or.inr (Or.inr ⟨heq.symm, hle⟩)
      · exact Or.inl (Or.inr ⟨heq, hle⟩)
    · exact Or.inr (Or.inl hgt)

instance : IsTrans ObjectRow versionOrder where
  trans a b c hab hbc := by
    rcases hab with hab | ⟨hab, hab'⟩
    · rcases hbc with hbc | ⟨hbc, -⟩
      · exact Or.inl (hab.trans hbc)
      · exact Or.inl (hbc ▸ hab)
    · rcases hbc with hbc | ⟨hbc, hbc'⟩
      · exact Or.inl (hab ▸ hbc)
      · exact Or.inr ⟨hab.trans hbc, le_trans hbc' hab'⟩

theorem versionOrder_key {a b : ObjectRow} (h : versionOrder a b) : a.key ≤ b.key := by
  rcases h with hlt | ⟨heq, -⟩
  · exact le_of_lt hlt
  · exact le_of_eq heq

theorem versionRows_sorted (bucket keyPrefix : String) (keyMarker : Option String) (db : Db) :
    (versionRows bucket keyPrefix keyMarker db).Pairwise fun a b => a.key ≤ b.key :=
  (List.pairwise_insertionSort versionOrder _).imp versionOrder_key

theorem versionRows_perm :
    (versionRows bucket keyPrefix none db).Perm
      (db.objects.filter fun r => r.bucket == bucket && likeSelects keyPrefix r.key) := by
  refine (List.perm_insertionSort versionOrder _).trans (List.Perm.of_eq ?_)
  exact List.filter_congr fun r _ => by simp [isFrom]

theorem mem_versionRows :
    r ∈ versionRows bucket keyPrefix none db ↔
      r ∈ db.objects ∧ r.bucket = bucket ∧ likeSelects keyPrefix r.key = true := by
  rw [versionRows_perm.mem_iff]
  simp

/-- A key marker leaves the rows from its key on. -/
theorem versionRows_filter (bucket keyPrefix marker : String) (db : Db) :
    versionRows bucket keyPrefix (some marker) db =
      (versionRows bucket keyPrefix none db).filter fun r => decide (marker ≤ r.key) := by
  rw [versionRows, versionRows, filter_insertionSort, List.filter_filter]
  refine congrArg _ (List.filter_congr fun r _ => ?_)
  simp [isFrom, Bool.and_comm]

/-- No two rows of a bucket share key and version id. -/
def VersionsKeyed (db : Db) : Prop :=
  Keyed (fun r => (r.bucket, r.key, r.versionId)) db.objects

theorem VersionsKeyed.eq_of (h : VersionsKeyed db) {a b : ObjectRow}
    (ha : a ∈ versionRows bucket keyPrefix none db) (hb : b ∈ versionRows bucket keyPrefix none db)
    (hkey : a.key = b.key) (hversion : a.versionId = b.versionId) : a = b := by
  obtain ⟨ha, habucket, -⟩ := mem_versionRows.mp ha
  obtain ⟨hb, hbbucket, -⟩ := mem_versionRows.mp hb
  exact h.eq_of_mem ha hb (by simp [habucket, hbbucket, hkey, hversion])

theorem VersionsKeyed.nodup (h : VersionsKeyed db) :
    (versionRows bucket keyPrefix none db).Nodup :=
  versionRows_perm.nodup_iff.mpr (List.Nodup.filter _ (List.Nodup.of_map _ h))

end Rows

/-! ## The walk as a page of rows -/

section Walk

variable {keyPrefix : String} {maxKeys room : Nat} {rows : List ObjectRow}
  {found : VersionsFound}

/-- The loop passes over rows of other version ids until it meets the marker. -/
theorem versionsLoop_waits {delimiter : Option String} {front behind : List ObjectRow}
    {row : ObjectRow} (hfront : ∀ r ∈ front, r.versionId ≠ row.versionId) :
    versionsLoop keyPrefix delimiter maxKeys (front ++ row :: behind) (some row.versionId) found =
      versionsLoop keyPrefix delimiter maxKeys behind none found := by
  induction front with
  | nil => simp [versionsLoop]
  | cons head rest ih =>
      have hhead : head.versionId ≠ row.versionId := hfront head List.mem_cons_self
      rw [List.cons_append, versionsLoop, if_neg hhead]
      exact ih fun r hr => hfront r (List.mem_cons_of_mem _ hr)

/-- Without a delimiter the loop collects one row more than fits. -/
theorem versionsLoop_collects (hroom : found.total + room = maxKeys) :
    versionsLoop keyPrefix none maxKeys rows none found =
      some {
        versions := found.versions ++
          ((rows.take (room + 1)).filter (!·.isDeleteMarker)).map (·.version)
        deleteMarkers := found.deleteMarkers ++
          ((rows.take (room + 1)).filter (·.isDeleteMarker)).map (·.version)
        commonPrefixes := found.commonPrefixes } := by
  induction rows generalizing found room with
  | nil => simp [versionsLoop]
  | cons row rest ih =>
      have htotal : (found.push row).total = found.total + 1 := by
        cases hmarker : row.isDeleteMarker <;>
          simp [VersionsFound.push, VersionsFound.total, hmarker] <;> omega
      simp only [versionsLoop, rollUp, htotal]
      cases room with
      | zero =>
          have hfull : maxKeys < found.total + 1 := by omega
          rw [if_pos hfull]
          cases hmarker : row.isDeleteMarker <;> simp [VersionsFound.push, hmarker]
      | succ room =>
          have hmore : ¬maxKeys < found.total + 1 := by omega
          rw [if_neg hmore, @ih room (found.push row) (by omega)]
          cases hmarker : row.isDeleteMarker <;> simp [VersionsFound.push, hmarker]

/-- The newer one of a version and a delete marker; of equal age, the version. -/
def newerVersion (v dm : ObjectRow) : Bool := decide (dm.lastModified ≤ v.lastModified)

/-- The markers of a truncated response. -/
def ListVersionsResponse.markers (response : ListVersionsResponse) :
    Option (Option String × Option String) :=
  if response.isTruncated then some (response.nextKeyMarker, response.nextVersionIdMarker)
  else none

/-- The markers that name a row. -/
def ObjectRow.markers (r : ObjectRow) : Option String × Option String :=
  (some r.key, some r.versionId)

/-- The entries of a response. -/
def ListVersionsResponse.items (response : ListVersionsResponse) : List ObjectVersion :=
  response.versions ++ response.deleteMarkers

/-- **The response shows a page of rows.** -/
structure ShowsVersions (response : ListVersionsResponse) (p : Page ObjectRow) : Prop where
  items : response.items = p.items.map (·.version)
  markers : response.markers = p.next.map (·.markers)

theorem marker_eq_turn (plain marked : List ObjectRow) (commonPrefixes : List String) :
    ({ versions := plain.map (·.version), deleteMarkers := marked.map (·.version),
        commonPrefixes } : VersionsFound).marker =
      (turn newerVersion plain marked).map (·.version) := by
  simp only [VersionsFound.marker, turn, List.getLast?_map]
  cases plain.getLast? with
  | none => cases marked.getLast? <;> rfl
  | some v =>
      cases marked.getLast? with
      | none => rfl
      | some dm =>
          by_cases hnewer : dm.lastModified ≤ v.lastModified <;>
            simp [ObjectRow.version, newerVersion, hnewer]

/-- Cutting off the one entry too many takes back the last delete marker, or the
last version if there is none. -/
theorem cut_one {plain marked : List ObjectRow} {commonPrefixes : List String}
    (hfull : plain.length + marked.length = maxKeys + 1) :
    ({ versions := plain.map (·.version), deleteMarkers := marked.map (·.version),
        commonPrefixes } : VersionsFound).cut maxKeys =
      { versions := (if marked.isEmpty then plain.dropLast else plain).map (·.version)
        deleteMarkers := marked.dropLast.map (·.version)
        commonPrefixes } := by
  have htotal : maxKeys < (plain.map (·.version)).length + (marked.map (·.version)).length := by
    simp only [List.length_map]
    omega
  have hone : (plain.map (·.version)).length + (marked.map (·.version)).length - maxKeys = 1 := by
    simp only [List.length_map]
    omega
  simp only [VersionsFound.cut, VersionsFound.total, if_pos htotal, hone]
  cases marked with
  | nil => simp [List.dropLast_eq_take]
  | cons dm rest => simp [List.dropLast_eq_take, List.map_take]

/-- A response made of two lists that are not too long shows them. -/
theorem response_short {plain marked : List ObjectRow}
    (h : plain.length + marked.length ≤ maxKeys) :
    ShowsVersions (({ versions := plain.map (·.version), deleteMarkers := marked.map (·.version) } :
      VersionsFound).response maxKeys) { plain, marked, next := none } := by
  have hno : ¬maxKeys < plain.length + marked.length := by omega
  constructor <;>
    simp [ListVersionsResponse.items, ListVersionsResponse.markers, VersionsFound.response,
      VersionsFound.cut, VersionsFound.total, Page.items, hno]

/-- A response made of two lists with one entry too many shows what is left of
them and names the newer of their last rows. -/
theorem response_full {plain marked : List ObjectRow} (hsize : 0 < maxKeys)
    (hfull : plain.length + marked.length = maxKeys + 1) :
    ShowsVersions (({ versions := plain.map (·.version), deleteMarkers := marked.map (·.version) } :
      VersionsFound).response maxKeys)
      { plain := if marked.isEmpty then plain.dropLast else plain
        marked := marked.dropLast
        next := turn newerVersion (if marked.isEmpty then plain.dropLast else plain)
          marked.dropLast } := by
  have htruncated : maxKeys < (plain.map (·.version)).length + (marked.map (·.version)).length := by
    simp only [List.length_map]
    omega
  constructor
  · simp only [ListVersionsResponse.items, VersionsFound.response, cut_one hfull, Page.items,
      List.map_append]
  · simp only [ListVersionsResponse.markers, VersionsFound.response, VersionsFound.total,
      htruncated, decide_true, if_true, cut_one hfull, marker_eq_turn]
    cases hturn : turn newerVersion (if marked.isEmpty then plain.dropLast else plain)
        marked.dropLast with
    | some row => rfl
    | none =>
        obtain ⟨hplain, hmarked⟩ := turn_eq_none.mp hturn
        cases marked with
        | nil =>
            have hlength := congrArg List.length hplain
            simp only [List.isEmpty_nil, if_true, List.length_dropLast,
              List.length_nil] at hlength hfull
            omega
        | cons dm rest =>
            have hlength := congrArg List.length hmarked
            simp at hplain hlength
            simp [hplain, hlength] at hfull
            omega

/-- Without a delimiter, what is made of the rows is the page. -/
theorem response_shows (hsize : 0 < maxKeys) (rows : List ObjectRow) :
    ∃ response, (versionsLoop keyPrefix none maxKeys rows none {}).map (·.response maxKeys) =
        some response ∧
      ShowsVersions response (page (·.isDeleteMarker) newerVersion maxKeys rows) := by
  have hcollects := @versionsLoop_collects keyPrefix maxKeys maxKeys rows {} (Nat.zero_add maxKeys)
  simp only [List.nil_append] at hcollects
  refine ⟨_, by rw [hcollects, Option.map_some], ?_⟩
  have hlengths := (filter_perm (fun r : ObjectRow => r.isDeleteMarker)
    (rows.take (maxKeys + 1))).length_eq
  have hle := List.length_take_le (maxKeys + 1) rows
  rw [List.length_append] at hlengths
  by_cases hshort : (rows.take (maxKeys + 1)).length ≤ maxKeys
  · rw [page, if_pos hshort]
    exact response_short (by omega)
  · rw [page, if_neg hshort]
    exact response_full hsize (by omega)

/-- What a listing answers without a delimiter. -/
theorem listObjectVersions_run {bucket : String} {w : World} {opts : ListVersionsOpts}
    (hbucket : bucketRowExists bucket w.db = true) :
    (listObjectVersions bucket opts).run w =
      (.ok ((versionsLoop (opts.keyPrefix.getD "") opts.delimiter (opts.maxKeys.getD 1000)
          (versionRows bucket (opts.keyPrefix.getD "") opts.keyMarker w.db)
            opts.versionIdMarker {}).map (·.response (opts.maxKeys.getD 1000))), w) := by
  simp [listObjectVersions, query, hbucket]

end Walk

/-- **What the markers of a row leave.**  The loop goes on right behind the row. -/
theorem versionsLoop_markers {db : Db} {bucket keyPrefix : String} {delimiter : Option String}
    {maxKeys : Nat} {front behind : List ObjectRow} {row : ObjectRow} (hkeyed : VersionsKeyed db)
    (hsplit : versionRows bucket keyPrefix none db = front ++ row :: behind) :
    versionsLoop keyPrefix delimiter maxKeys (versionRows bucket keyPrefix (some row.key) db)
        (some row.versionId) {} =
      versionsLoop keyPrefix delimiter maxKeys behind none {} := by
  have hsorted := versionRows_sorted bucket keyPrefix none db
  have hnodup : (front ++ row :: behind).Nodup := hsplit ▸ hkeyed.nodup
  rw [hsplit, List.pairwise_append] at hsorted
  obtain ⟨-, hback, hcross⟩ := hsorted
  have hbehind : behind.filter (fun r => decide (row.key ≤ r.key)) = behind :=
    List.filter_eq_self.mpr fun r hr => by simpa using (List.pairwise_cons.mp hback).1 r hr
  rw [versionRows_filter, hsplit, List.filter_append, List.filter_cons, hbehind]
  simp only [le_refl, decide_true, if_true]
  refine versionsLoop_waits fun r hr hversion => ?_
  -- a row before it from its key on has its key, so it has another version id
  obtain ⟨hmem, hge⟩ := List.mem_filter.mp hr
  have hkey : r.key = row.key :=
    le_antisymm (hcross r hmem row List.mem_cons_self) (by simpa using hge)
  have hsame : r = row :=
    hkeyed.eq_of (hsplit ▸ List.mem_append_left _ hmem) (hsplit ▸ by simp) hkey hversion
  exact (List.nodup_append.mp hnodup).2.2 r hmem row List.mem_cons_self hsame

end Strix

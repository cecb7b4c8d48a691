import Strix.ExecutablePlatform
import Strix.StoreInvariant

/-!
# The latest version of a key

Of a key's rows the one inserted last is to be flagged as latest, and no
other.  Writers and delete markers take the flag from the old rows and give it
to the new one.  A delete by version id flags the row of the greatest creation
time among those that remain, and takes the flag from none; creation times
are whole seconds.

* `lastInserted_isLatest`: along every run whose deletes by version id leave
  no second row as new as the one inserted last, exactly that row is flagged;
* `delete_flags_another`: when the choice among equally new rows falls on
  another row, the delete leaves that one flagged as well;
* `someLatest_reachable`: whatever was deleted, a key that has rows has a
  flagged one.
-/

namespace Strix

open MachineRuns RowTable

/-- The rows of a key, in the order they were inserted. -/
def history (bucket key : String) (db : Db) : List ObjectRow :=
  db.objects.filter (atKey bucket key)

/-- Every other row is older than the last one. -/
def LastIsNewest (rows : List ObjectRow) : Prop :=
  ∀ last ∈ rows.getLast?, ∀ r ∈ rows.dropLast, r.createdAt < last.createdAt

/-- **The condition on a delete by version id:** what it leaves of the key has
no second row as new as the one inserted last. -/
def LeavesLastNewest (w : World) (op : Op) : Prop :=
  ∀ bucket key vid, op = .deleteObjectVersion bucket key (some vid) →
    (selectObject bucket key (some vid) w.db).any (ObjectRow.lockedAt w.now) = false →
      LastIsNewest (deleteRows (atVersion bucket key vid) (history bucket key w.db))

/-- In every history only the row inserted last is flagged as latest. -/
def LatestIsLast (w : World) : Prop :=
  ∀ bucket key, OnlyLast ObjectRow.isLatest (history bucket key w.db)

variable {P : Platform}

/-- A row is of one key only. -/
theorem atKey_other {bucket key b k : String} (hother : ¬ (b = bucket ∧ k = key))
    {r : ObjectRow} (h : atKey bucket key r = true) : atKey b k r = false := by
  rw [Bool.eq_false_iff]
  intro hat
  obtain ⟨hb, hk⟩ := atKey_iff.mp h
  obtain ⟨hb', hk'⟩ := atKey_iff.mp hat
  exact hother ⟨hb'.symm.trans hb, hk'.symm.trans hk⟩

/-- An assignment to rows of one key leaves the other histories alone. -/
theorem filter_updateRows_other {bucket key b k : String} {p : ObjectRow → Bool}
    {assign : ObjectRow → ObjectRow} {rows : List ObjectRow}
    (hother : ¬ (b = bucket ∧ k = key)) (hp : ∀ r, p r = true → atKey bucket key r = true)
    (hassign : ∀ r, atKey b k (assign r) = atKey b k r) :
    (updateRows p assign rows).filter (atKey b k) = rows.filter (atKey b k) := by
  rw [filter_updateRows fun r _ => hassign r]
  apply updateRows_eq_self
  intro r hr
  rw [Bool.eq_false_iff]
  intro hpr
  have hat := atKey_other hother (hp r hpr)
  rw [(List.mem_filter.mp hr).2] at hat
  cases hat

/-- A delete of rows of one key leaves the other histories alone. -/
theorem filter_deleteRows_other {bucket key b k : String} {p : ObjectRow → Bool}
    {rows : List ObjectRow} (hother : ¬ (b = bucket ∧ k = key))
    (hp : ∀ r, p r = true → atKey bucket key r = true) :
    (deleteRows p rows).filter (atKey b k) = rows.filter (atKey b k) := by
  rw [filter_deleteRows]
  apply deleteRows_eq_self
  intro r hr
  rw [Bool.eq_false_iff]
  intro hpr
  have hat := atKey_other hother (hp r hpr)
  rw [(List.mem_filter.mp hr).2] at hat
  cases hat

/-! ## Writers and delete markers -/

theorem filter_roomMade_other {status : VersioningStatus} {bucket key b k : String}
    {rows : List ObjectRow} (hother : ¬ (b = bucket ∧ k = key)) :
    (roomMade status bucket key rows).filter (atKey b k) = rows.filter (atKey b k) := by
  unfold roomMade
  split
  · exact filter_updateRows_other hother (fun r h => h) (fun r => rfl)
  · exact filter_deleteRows_other hother (fun r h => h)

/-- Room is made by taking the flag from every row of the key. -/
theorem roomMade_unflagged {status : VersioningStatus} {bucket key : String}
    {rows : List ObjectRow} :
    ∀ r ∈ (roomMade status bucket key rows).filter (atKey bucket key), r.isLatest = false := by
  intro r hr
  obtain ⟨hmem, hat⟩ := List.mem_filter.mp hr
  unfold roomMade at hmem
  split at hmem
  · obtain ⟨old, -, rfl⟩ := mem_updateRows.mp hmem
    by_cases hold : atKey bucket key old = true
    · rw [if_pos hold]
      rfl
    · rw [if_neg hold] at hat
      exact absurd hat hold
  · rw [(mem_deleteRows.mp hmem).2] at hat
    cases hat

/-- A delete marker takes the flag from whatever row of the key has it. -/
theorem demoted_unflagged {bucket key : String} {rows : List ObjectRow} :
    ∀ r ∈ (updateRows (atLatest bucket key) ObjectRow.demote rows).filter (atKey bucket key),
      r.isLatest = false := by
  intro r hr
  obtain ⟨hmem, hat⟩ := List.mem_filter.mp hr
  obtain ⟨old, -, rfl⟩ := mem_updateRows.mp hmem
  by_cases hold : atLatest bucket key old = true
  · rw [if_pos hold]
    rfl
  · rw [if_neg hold] at hat ⊢
    rw [Bool.eq_false_iff]
    intro hlatest
    exact hold (atLatest_iff.mpr ⟨atKey_iff.mp hat, hlatest⟩)

/-- A flagged row behind rows of which none of its key is flagged. -/
theorem onlyLast_insertRow {bucket key : String} {rows : List ObjectRow} {row : ObjectRow}
    (hat : atKey bucket key row = true) (hlatest : row.isLatest = true)
    (hrows : ∀ r ∈ rows.filter (atKey bucket key), r.isLatest = false) :
    OnlyLast ObjectRow.isLatest ((insertRow row rows).filter (atKey bucket key)) := by
  rw [filter_insertRow_of_pos hat, OnlyLast.concat_iff]
  exact ⟨hlatest, hrows⟩

/-! ## Promotion -/

/-- When every other row is older, the newest row is the last. -/
theorem newest_eq_last {front : List ObjectRow} {last newest : ObjectRow}
    (hguard : LastIsNewest (front ++ [last]))
    (hnewest : P.newest (front ++ [last]) = some newest) : newest = last := by
  have hmem := P.newest_mem _ _ hnewest
  rcases List.mem_append.mp hmem with hfront | hlast
  · have hlt : newest.createdAt < last.createdAt :=
      hguard last (by simp) newest (by simpa using hfront)
    have hle : last.createdAt ≤ newest.createdAt := P.newest_le _ _ hnewest last (by simp)
    exact absurd hle (Int.not_le.mpr hlt)
  · exact List.mem_singleton.mp hlast

/-- Promotion leaves the other histories alone. -/
theorem filter_promoted_other {bucket key b k : String} {rows : List ObjectRow}
    (hkeyed : Keyed (·.id) rows) (hother : ¬ (b = bucket ∧ k = key)) :
    (promoted P bucket key rows).filter (atKey b k) = rows.filter (atKey b k) := by
  unfold promoted
  cases hnewest : P.newest (rows.filter (atKey bucket key)) with
  | none => rfl
  | some newest =>
      obtain ⟨hmem, hat⟩ := List.mem_filter.mp (P.newest_mem _ _ hnewest)
      simp only
      rw [filter_updateRows fun r _ => SameVersion.atKey_eq (.promote r) b k]
      apply updateRows_eq_self
      intro r hr
      rw [Bool.eq_false_iff]
      intro hid
      obtain ⟨hr, hrat⟩ := List.mem_filter.mp hr
      have heq : r = newest := hkeyed.eq_of_mem hr hmem (by simpa using hid)
      rw [heq, atKey_other hother hat] at hrat
      cases hrat

/-- What promotion makes of the key's own rows. -/
theorem filter_promoted {bucket key : String} {rows : List ObjectRow} {newest : ObjectRow}
    (hnewest : P.newest (rows.filter (atKey bucket key)) = some newest) :
    (promoted P bucket key rows).filter (atKey bucket key) =
      updateRows (·.id == newest.id) ObjectRow.promote (rows.filter (atKey bucket key)) := by
  rw [promoted, hnewest]
  exact filter_updateRows fun r _ => rfl

/-- **Promotion flags the last row** of a key whose other rows are unflagged
and older. -/
theorem onlyLast_promoted {bucket key : String} {rows : List ObjectRow}
    (hkeyed : Keyed (·.id) rows)
    (hrest : ∀ r ∈ (rows.filter (atKey bucket key)).dropLast, r.isLatest = false)
    (hguard : LastIsNewest (rows.filter (atKey bucket key))) :
    OnlyLast ObjectRow.isLatest ((promoted P bucket key rows).filter (atKey bucket key)) := by
  have hfiltered : Keyed (·.id) (rows.filter (atKey bucket key)) := hkeyed.filter
  cases hnewest : P.newest (rows.filter (atKey bucket key)) with
  | none =>
      have hempty : rows.filter (atKey bucket key) = [] := by
        by_contra hne
        have hsome := (P.newest_isSome _).mpr hne
        rw [hnewest] at hsome
        cases hsome
      rw [promoted, hnewest]
      rw [hempty]
      exact OnlyLast.nil
  | some newest =>
      rw [filter_promoted hnewest]
      rcases List.eq_nil_or_concat' (rows.filter (atKey bucket key)) with hnil |
        ⟨front, last, hsplit⟩
      · rw [hnil]
        exact OnlyLast.nil
      · rw [hsplit] at hfiltered hrest hguard hnewest ⊢
        obtain rfl := newest_eq_last hguard hnewest
        have hfront : updateRows (·.id == newest.id) ObjectRow.promote front = front := by
          apply updateRows_eq_self
          intro r hr
          have hne : r.id ≠ newest.id := hfiltered.ne_last r hr
          simpa using hne
        have hlast : updateRows (·.id == newest.id) ObjectRow.promote [newest] =
            [newest.promote] := by simp [updateRows]
        have happend : updateRows (·.id == newest.id) ObjectRow.promote (front ++ [newest]) =
            front ++ [newest.promote] := by
          rw [updateRows, List.map_append]
          exact congrArg₂ (· ++ ·) hfront hlast
        rw [happend, OnlyLast.concat_iff]
        exact ⟨rfl, by simpa using hrest⟩

/-! ## Every call -/

/-- **One call keeps the flag on the last row** when a delete by version id
leaves the last row newest. -/
theorem latestIsLast_next {w : World} (hw : WellFormed P w) (h : LatestIsLast w) {op : Op}
    (hguard : LeavesLastNewest w op) : LatestIsLast ((store P).next w op) := by
  intro b k
  have hkey := h b k
  rw [history] at hkey ⊢
  cases (step_effect hw.ids hw.uploadIds op).objects with
  | unchanged hbuckets hobjects hblobs => rwa [hobjects]
  | createdBucket hnew hbuckets hobjects hblobs => rwa [hobjects]
  | deletedBucket hempty hbuckets hobjects hblobs => rwa [hobjects]
  | setVersioning hbuckets hobjects hblobs => rwa [hobjects]
  | @installed op bucket key status row data hwrites hnew hbuckets hobjects hblobs hdraws =>
      rw [hobjects]
      have hat : atKey bucket key row = true := atKey_iff.mpr ⟨hnew.bucket_eq, hnew.key_eq⟩
      by_cases hsame : b = bucket ∧ k = key
      · obtain ⟨rfl, rfl⟩ := hsame
        exact onlyLast_insertRow hat hnew.latest roomMade_unflagged
      · rw [filter_insertRow_of_neg (atKey_other hsame hat), filter_roomMade_other hsame]
        exact hkey
  | @removedVersion bucket key vid hunlocked hbuckets hobjects hblobs =>
      rw [hobjects]
      have hkeyed : Keyed (·.id) (deleteRows (atVersion bucket key vid) w.db.objects) :=
        hw.keyedId.deleteRows
      by_cases hsame : b = bucket ∧ k = key
      · obtain ⟨rfl, rfl⟩ := hsame
        refine onlyLast_promoted hkeyed ?_ ?_
        · rw [filter_deleteRows]
          exact hkey.deleteRows
        · rw [filter_deleteRows]
          exact hguard b k vid rfl hunlocked
      · rw [filter_promoted_other hkeyed hsame, filter_deleteRows_other hsame
          fun r hr => atKey_iff.mpr (atVersion_iff.mp hr).1]
        exact hkey
  | @addedMarker op bucket key status hop hstatus hne hunlocked hbuckets hobjects hblobs hdraws =>
      rw [hobjects]
      have hat : atKey bucket key
          (deleteMarkerRow bucket key (P.ulid w.draws) w.now.seconds) = true :=
        atKey_iff.mpr ⟨rfl, rfl⟩
      by_cases hsame : b = bucket ∧ k = key
      · obtain ⟨rfl, rfl⟩ := hsame
        exact onlyLast_insertRow hat rfl demoted_unflagged
      · rw [filter_insertRow_of_neg (atKey_other hsame hat), filter_updateRows_other hsame
          (fun r hr => atKey_iff.mpr (atLatest_iff.mp hr).1)
          (fun r => SameVersion.atKey_eq (.demote r) b k)]
        exact hkey
  | @removedKey op bucket key hop hstatus hunlocked hbuckets hobjects hblobs =>
      rw [hobjects]
      by_cases hsame : b = bucket ∧ k = key
      · obtain ⟨rfl, rfl⟩ := hsame
        rw [filter_deleteRows, deleteRows_eq_nil fun r hr => (List.mem_filter.mp hr).2]
        exact OnlyLast.nil
      · rw [filter_deleteRows_other hsame fun r hr => hr]
        exact hkey
  | setRetention hallowed hbuckets hobjects hblobs =>
      rw [hobjects, filter_updateRows fun r _ => by rfl]
      exact hkey.updateRows fun r _ => rfl
  | setLegalHold hbuckets hobjects hblobs =>
      rw [hobjects, filter_updateRows fun r _ => by rfl]
      exact hkey.updateRows fun r _ => rfl

/-- Every key that has rows has a latest one. -/
def SomeLatest (w : World) : Prop :=
  ∀ bucket key, history bucket key w.db ≠ [] →
    ∃ r ∈ history bucket key w.db, r.isLatest = true

/-- An assignment that keeps the flag keeps a flagged row. -/
theorem someLatest_updateRows {p : ObjectRow → Bool} {assign : ObjectRow → ObjectRow}
    {rows : List ObjectRow} (hassign : ∀ r, (assign r).isLatest = r.isLatest)
    (h : rows ≠ [] → ∃ r ∈ rows, r.isLatest = true) (hne : updateRows p assign rows ≠ []) :
    ∃ r ∈ updateRows p assign rows, r.isLatest = true := by
  have hrows : rows ≠ [] := by
    intro hnil
    rw [hnil] at hne
    exact hne rfl
  obtain ⟨r, hr, hlatest⟩ := h hrows
  refine ⟨_, mem_updateRows.mpr ⟨r, hr, rfl⟩, ?_⟩
  by_cases hp : p r = true
  · rw [if_pos hp, hassign, hlatest]
  · rw [if_neg hp, hlatest]

/-- Promotion flags a row of the key, when it has one. -/
theorem someLatest_promoted {bucket key : String} {rows : List ObjectRow}
    (hne : (promoted P bucket key rows).filter (atKey bucket key) ≠ []) :
    ∃ r ∈ (promoted P bucket key rows).filter (atKey bucket key), r.isLatest = true := by
  cases hnewest : P.newest (rows.filter (atKey bucket key)) with
  | none =>
      rw [promoted, hnewest] at hne
      have hsome := (P.newest_isSome _).mpr hne
      rw [hnewest] at hsome
      cases hsome
  | some newest =>
      rw [filter_promoted hnewest]
      exact ⟨newest.promote,
        assign_mem_updateRows (P.newest_mem _ _ hnewest) (beq_self_eq_true _), rfl⟩

/-- **One call leaves every key that has rows a latest one.** -/
theorem someLatest_next {w : World} (hw : WellFormed P w) (h : SomeLatest w) (op : Op) :
    SomeLatest ((store P).next w op) := by
  intro b k
  have hkey := h b k
  rw [history] at hkey ⊢
  cases (step_effect hw.ids hw.uploadIds op).objects with
  | unchanged hbuckets hobjects hblobs => rwa [hobjects]
  | createdBucket hnew hbuckets hobjects hblobs => rwa [hobjects]
  | deletedBucket hempty hbuckets hobjects hblobs => rwa [hobjects]
  | setVersioning hbuckets hobjects hblobs => rwa [hobjects]
  | @installed op bucket key status row data hwrites hnew hbuckets hobjects hblobs hdraws =>
      rw [hobjects]
      have hat : atKey bucket key row = true := atKey_iff.mpr ⟨hnew.bucket_eq, hnew.key_eq⟩
      by_cases hsame : b = bucket ∧ k = key
      · obtain ⟨rfl, rfl⟩ := hsame
        intro _
        rw [filter_insertRow_of_pos hat]
        exact ⟨row, by simp, hnew.latest⟩
      · rw [filter_insertRow_of_neg (atKey_other hsame hat), filter_roomMade_other hsame]
        exact hkey
  | @removedVersion bucket key vid hunlocked hbuckets hobjects hblobs =>
      rw [hobjects]
      by_cases hsame : b = bucket ∧ k = key
      · obtain ⟨rfl, rfl⟩ := hsame
        exact someLatest_promoted
      · rw [filter_promoted_other hw.keyedId.deleteRows hsame, filter_deleteRows_other hsame
          fun r hr => atKey_iff.mpr (atVersion_iff.mp hr).1]
        exact hkey
  | @addedMarker op bucket key status hop hstatus hne hunlocked hbuckets hobjects hblobs hdraws =>
      rw [hobjects]
      have hat : atKey bucket key
          (deleteMarkerRow bucket key (P.ulid w.draws) w.now.seconds) = true :=
        atKey_iff.mpr ⟨rfl, rfl⟩
      by_cases hsame : b = bucket ∧ k = key
      · obtain ⟨rfl, rfl⟩ := hsame
        intro _
        rw [filter_insertRow_of_pos hat]
        exact ⟨deleteMarkerRow b k (P.ulid w.draws) w.now.seconds, by simp, rfl⟩
      · rw [filter_insertRow_of_neg (atKey_other hsame hat), filter_updateRows_other hsame
          (fun r hr => atKey_iff.mpr (atLatest_iff.mp hr).1)
          (fun r => SameVersion.atKey_eq (.demote r) b k)]
        exact hkey
  | @removedKey op bucket key hop hstatus hunlocked hbuckets hobjects hblobs =>
      rw [hobjects]
      by_cases hsame : b = bucket ∧ k = key
      · obtain ⟨rfl, rfl⟩ := hsame
        rw [filter_deleteRows, deleteRows_eq_nil fun r hr => (List.mem_filter.mp hr).2]
        intro hne
        exact absurd rfl hne
      · rw [filter_deleteRows_other hsame fun r hr => hr]
        exact hkey
  | setRetention hallowed hbuckets hobjects hblobs =>
      rw [hobjects, filter_updateRows fun r _ => by rfl]
      exact someLatest_updateRows (fun r => rfl) hkey
  | setLegalHold hbuckets hobjects hblobs =>
      rw [hobjects, filter_updateRows fun r _ => by rfl]
      exact someLatest_updateRows (fun r => rfl) hkey

/-- **In every reachable state a key that has rows has a latest one.** -/
theorem someLatest_reachable {w : World} (h : (store P).Reachable w) : SomeLatest w :=
  (Machine.invariant_reachable (M := store P) (I := fun w => WellFormed P w ∧ SomeLatest w)
    ⟨wellFormed_init, fun _ _ hne => absurd rfl hne⟩
    (fun _ op hw => ⟨hw.1.next op, someLatest_next hw.1 hw.2 op⟩) h).2

/-- **Where the condition fails, the delete can flag another row:** it does
when another one of the remaining rows is taken for the newest. -/
theorem delete_flags_another {w : World} (hw : WellFormed P w) {bucket key vid : String}
    {status : VersioningStatus} {newest : ObjectRow}
    (hstatus : versioningStatus bucket w.db = some status)
    (hunlocked : (selectObject bucket key (some vid) w.db).any
      (ObjectRow.lockedAt w.now) = false)
    (hnewest : P.newest (deleteRows (atVersion bucket key vid) (history bucket key w.db)) =
      some newest)
    (hother : newest ∈
      (deleteRows (atVersion bucket key vid) (history bucket key w.db)).dropLast) :
    ∃ r ∈ (history bucket key ((store P).next w
        (.deleteObjectVersion bucket key (some vid))).db).dropLast, r.isLatest = true := by
  have hnext : ((store P).next w (.deleteObjectVersion bucket key (some vid))).db.objects =
      promoted P bucket key (deleteRows (atVersion bucket key vid) w.db.objects) := by
    rcases deleteObjectVersion_cases bucket key (some vid) hw.ids with
      ⟨e, -, hnone | hlocked⟩ | ⟨_, -, -, ⟨vid', hvid, hrun⟩ | ⟨hnone, -⟩ | ⟨hnone, -⟩⟩
    · rw [hstatus] at hnone
      cases hnone
    · rw [hunlocked] at hlocked
      cases hlocked
    · cases hvid
      simp [Machine.next, store, step, answering, hrun, World.removeVersion]
    · cases hnone
    · cases hnone
  rw [history, ← filter_deleteRows] at hnewest hother
  rw [history, hnext, filter_promoted hnewest, updateRows, ← List.map_dropLast]
  exact ⟨newest.promote, List.mem_map.mpr ⟨newest, hother, by simp⟩, rfl⟩

/-- **Of every key's rows the one inserted last is the latest, and no other**,
along every run whose deletes by version id leave no second row as new. -/
theorem lastInserted_isLatest (run : List Op)
    (hrun : (store P).AllSteps LeavesLastNewest (store P).init run) (bucket key : String) :
    OnlyLast ObjectRow.isLatest (history bucket key ((store P).after (store P).init run).db) := by
  have hinv := Machine.invariant_after (M := store P)
    (I := fun w => WellFormed P w ∧ LatestIsLast w)
    (fun w op hw hguard => ⟨hw.1.next op, latestIsLast_next hw.1 hw.2 hguard⟩)
    ⟨wellFormed_init, fun b k => OnlyLast.nil⟩ hrun
  exact hinv.2 bucket key

/-! ## Three versions of one key -/

/-- Three versions of a key, `pause` nanoseconds apart. -/
def threeVersions (pause : Nat) : List Op := [
  .createBucket "docs" {},
  .setBucketVersioning "docs" true,
  .putObject "docs" "k" [.ok [97]] {},
  .tick pause,
  .putObject "docs" "k" [.ok [98]] {},
  .tick pause,
  .putObject "docs" "k" [.ok []] {}]

/-- The oldest version is deleted. -/
def deleteOldest : Op :=
  .deleteObjectVersion "docs" "k" (some "01ARZ3NDEKTSV4RRFFQ69G5FA0")

/-- A second apart, the third version stays the latest. -/
theorem lastInserted_isLatest_spaced :
    OnlyLast ObjectRow.isLatest (history "docs" "k" ((store executablePlatform).after
      (store executablePlatform).init (threeVersions 1000000000 ++ [deleteOldest])).db) := by
  have hsteps : (store executablePlatform).AllSteps LeavesLastNewest
      (store executablePlatform).init (threeVersions 1000000000 ++ [deleteOldest]) := by
    rw [Machine.allSteps_append]
    refine ⟨by simp [threeVersions, LeavesLastNewest], ?_, trivial⟩
    intro bucket key vid hop _
    cases hop
    unfold LastIsNewest
    decide
  exact lastInserted_isLatest _ hsteps "docs" "k"

/-- Within one second, the second version is flagged beside the third. -/
theorem delete_flags_second :
    ¬ ∀ run bucket key, OnlyLast ObjectRow.isLatest (history bucket key
      ((store executablePlatform).after (store executablePlatform).init run).db) := by
  intro h
  have honly := h (threeVersions 0 ++ [deleteOldest]) "docs" "k"
  have htwo : ∃ r ∈ (history "docs" "k" ((store executablePlatform).after
      (store executablePlatform).init (threeVersions 0 ++ [deleteOldest])).db).dropLast,
      r.isLatest = true := by decide
  obtain ⟨r, hr, hlatest⟩ := htwo
  have hunflagged := honly.2 r hr
  rw [hlatest] at hunflagged
  cases hunflagged

end Strix

import Strix.ExecutablePlatform
import Strix.StoreInvariant

/-!
# The version history of a key

Once versioning has been enabled on a bucket, a write is to replace at most
the key's row under the version id `null`.  The writers ask whether the status
is `Enabled`; where it is `Suspended` they delete all of the key's rows, as in
a bucket that was never versioned.

* `writes_keep_history`: in a run, every write keeps the history exactly when
  every accepted write finds its bucket `Enabled`, or no row of the key but
  those under `null`;
* `hadEnabled_status`: a bucket on which versioning was enabled is `Enabled`
  or `Suspended`.
-/

namespace Strix

open MachineRuns RowTable

variable (P : Platform)

/-- The run has enabled versioning on the bucket and not deleted it since; a
bucket with rows is not deleted. -/
def HadEnabled (run : List Op) (bucket : String) : Prop :=
  ∃ before between, run = before ++ .setBucketVersioning bucket true :: between ∧
    bucketRowExists bucket ((store P).after (store P).init before).db = true ∧
    (store P).AllSteps
      (fun w op => op = .deleteBucket bucket → ∃ r ∈ w.db.objects, r.bucket = bucket)
      ((store P).after (store P).init (before ++ [.setBucketVersioning bucket true])) between

/-- **The write keeps the history:** in a bucket that has had versioning
enabled it replaces at most the key's row under `null`. -/
def KeepsHistory (before : List Op) (op : Op) : Prop :=
  let w := (store P).after (store P).init before
  ∀ bucket key, HadEnabled P before bucket → op.Targets w bucket key →
    ∀ r ∈ w.db.objects,
      (∃ r' ∈ ((store P).next w op).db.objects, SameVersion r r') ∨
        (atKey bucket key r = true ∧ r.versionId = "null")

/-- **The condition:** an accepted write into a bucket that has had versioning
enabled finds it enabled, or a key with no other version id than `null`. -/
def FindsEnabled (before : List Op) (op : Op) : Prop :=
  let w := (store P).after (store P).init before
  ∀ bucket key, HadEnabled P before bucket → op.Writes P w bucket key →
    versioningStatus bucket w.db = some .enabled ∨
      ∀ r ∈ w.db.objects, atKey bucket key r = true → r.versionId = "null"

variable {P}

/-- A row that a write removes is of the written key, in a bucket that is not
enabled. -/
theorem removes_of_targets {w : World} {op : Op} {bucket key : String} {r : ObjectRow}
    (htargets : op.Targets w bucket key) (h : Removes P w r op) :
    op.Writes P w bucket key ∧ versioningStatus bucket w.db ≠ some .enabled ∧
      atKey bucket key r = true := by
  cases h with
  | write hwrites hstatus hat =>
      obtain ⟨rfl, rfl⟩ := htargets.unique hwrites.targets
      exact ⟨hwrites, hstatus, hat⟩
  | version => exact htargets.elim
  | key hop =>
      rcases hop with rfl | rfl
      · exact htargets.elim
      · exact htargets.elim

/-- For one write, the condition is exact. -/
theorem keepsHistory_iff (before : List Op) (op : Op) :
    KeepsHistory P before op ↔ FindsEnabled P before op := by
  have hw : WellFormed P ((store P).after (store P).init before) :=
    wellFormed_reachable ⟨before, rfl⟩
  constructor
  · intro hkeeps bucket key hhad hwrites
    by_cases hstatus : versioningStatus bucket
        ((store P).after (store P).init before).db = some .enabled
    · exact Or.inl hstatus
    · refine Or.inr fun r hr hat => ?_
      rcases hkeeps bucket key hhad hwrites.targets r hr with ⟨r', hr', hsame⟩ | ⟨-, hnull⟩
      · exact absurd hsame.id_eq (write_removes_rows hw hwrites hstatus hr hat r' hr')
      · exact hnull
  · intro hfinds bucket key hhad htargets r hr
    have heffect := step_effect hw.ids hw.uploadIds op
    rcases heffect.objects.row_forth hr with ⟨r', hr', hsame, -⟩ | hremoves
    · exact Or.inl ⟨r', hr', hsame⟩
    · obtain ⟨hwrites, hstatus, hat⟩ := removes_of_targets htargets hremoves
      rcases hfinds bucket key hhad hwrites with henabled | hnull
      · exact absurd henabled hstatus
      · exact Or.inr ⟨hat, hnull r hr hat⟩

/-- One call that does not delete the bucket keeps it versioned. -/
theorem versioned_next {w : World} (hw : WellFormed P w) {op : Op} {bucket : String}
    (hdelete : op = .deleteBucket bucket → ∃ r ∈ w.db.objects, r.bucket = bucket)
    (h : ∃ b ∈ w.db.buckets, b.name = bucket ∧ b.versioningStatus ≠ .unversioned) :
    ∃ b ∈ ((store P).next w op).db.buckets,
      b.name = bucket ∧ b.versioningStatus ≠ .unversioned := by
  obtain ⟨b, hb, hname, hstatus⟩ := h
  rcases (step_effect hw.ids hw.uploadIds op).objects.buckets with hsame |
    ⟨-, ⟨other, opts, -, -, hins⟩ | ⟨other, hop, hempty, hdel⟩ | ⟨other, enabled, -, hset⟩⟩
  · exact ⟨b, hsame ▸ hb, hname, hstatus⟩
  · exact ⟨b, by rw [hins]; exact mem_insertRow.mpr (Or.inl hb), hname, hstatus⟩
  · have hother : bucket ≠ other := by
      rintro rfl
      obtain ⟨r, hr, hbucket⟩ := hdelete hop
      exact hempty r hr hbucket
    refine ⟨b, ?_, hname, hstatus⟩
    rw [hdel, mem_deleteRows]
    exact ⟨hb, by simpa [hname] using hother⟩
  · rw [hset, setStatus]
    by_cases hp : (b.name == other) = true
    · exact ⟨_, assign_mem_updateRows hb hp, hname, by cases enabled <;> simp⟩
    · exact ⟨b, mem_updateRows_of_not hb (Bool.eq_false_iff.mpr hp), hname, hstatus⟩

/-- **What has been enabled is enabled or suspended.** -/
theorem hadEnabled_status {run : List Op} {bucket : String} (h : HadEnabled P run bucket) :
    versioningStatus bucket ((store P).after (store P).init run).db = some .enabled ∨
      versioningStatus bucket ((store P).after (store P).init run).db = some .suspended := by
  obtain ⟨before, between, rfl, hthere, hkept⟩ := h
  have hsplit : (store P).after (store P).init
      (before ++ Op.setBucketVersioning bucket true :: between) =
      (store P).after ((store P).after (store P).init
        (before ++ [.setBucketVersioning bucket true])) between := by
    rw [← Machine.after_append, List.append_assoc]
    rfl
  have hstart : ∃ b ∈ ((store P).after (store P).init
      (before ++ [.setBucketVersioning bucket true])).db.buckets,
      b.name = bucket ∧ b.versioningStatus ≠ .unversioned := by
    rw [Machine.after_append]
    obtain ⟨b, hb, hname⟩ := bucketRowExists_iff.mp hthere
    refine ⟨{ b with versioningStatus := .enabled }, ?_, hname, by simp⟩
    have hset := setBucketVersioning_buckets ((store P).after (store P).init before) bucket true
    have hassigned : { b with versioningStatus := .enabled } ∈ setStatus bucket .enabled
        ((store P).after (store P).init before).db.buckets :=
      assign_mem_updateRows hb (by simpa using hname)
    exact hset ▸ hassigned
  have hinv := Machine.invariant_after (M := store P)
    (I := fun w => WellFormed P w ∧
      ∃ b ∈ w.db.buckets, b.name = bucket ∧ b.versioningStatus ≠ .unversioned)
    (fun w op hw hdelete => ⟨hw.1.next op, versioned_next hw.1 hdelete hw.2⟩)
    ⟨wellFormed_reachable ⟨_, rfl⟩, hstart⟩ hkept
  obtain ⟨hw, b, hb, hname, hstatus⟩ := hinv
  rw [hsplit]
  have hselect := hw.versioningStatus_eq hb
  rw [hname] at hselect
  rw [hselect]
  cases hcase : b.versioningStatus with
  | unversioned => exact absurd hcase hstatus
  | enabled => exact Or.inl rfl
  | suspended => exact Or.inr rfl

/-- **Writes keep the history of a run exactly when the condition holds of
every one of its steps.** -/
theorem writes_keep_history (run : List Op) :
    Machine.EachStep (KeepsHistory P) run ↔ Machine.EachStep (FindsEnabled P) run := by
  constructor
  · intro h before op rest hrun
    exact (keepsHistory_iff before op).mp (h before op rest hrun)
  · intro h before op rest hrun
    exact (keepsHistory_iff before op).mpr (h before op rest hrun)

/-! ## A put while versioning is suspended -/

/-- A version is written while versioning is enabled, which is then
suspended. -/
def suspendedRun : List Op := [
  .createBucket "docs" {},
  .setBucketVersioning "docs" true,
  .putObject "docs" "k" [.ok [97]] {},
  .setBucketVersioning "docs" false]

def suspendedWorld : World :=
  (store executablePlatform).after (store executablePlatform).init suspendedRun

/-- The put that follows deletes the version. -/
theorem suspended_put_drops_version :
    ¬ ∀ run, Machine.EachStep (KeepsHistory executablePlatform) run := by
  intro h
  have hkeeps := h (suspendedRun ++ [.putObject "docs" "k" [.ok [98]] {}]) suspendedRun _ [] rfl
  have hhad : HadEnabled executablePlatform suspendedRun "docs" := by
    refine ⟨[.createBucket "docs" {}],
      [.putObject "docs" "k" [.ok [97]] {}, .setBucketVersioning "docs" false], rfl,
      by decide, ?_⟩
    simp
  have hrow : ∃ r ∈ suspendedWorld.db.objects,
      r.id = "01ARZ3NDEKTSV4RRFFQ69G5FA0" ∧ r.versionId ≠ "null" := by decide
  obtain ⟨r, hr, hid, hversion⟩ := hrow
  have hgone : ∀ r' ∈ ((store executablePlatform).next suspendedWorld
      (.putObject "docs" "k" [.ok [98]] {})).db.objects,
      r'.id ≠ "01ARZ3NDEKTSV4RRFFQ69G5FA0" := by decide
  have hkept : (∃ r' ∈ ((store executablePlatform).next suspendedWorld
      (.putObject "docs" "k" [.ok [98]] {})).db.objects, SameVersion r r') ∨
        (atKey "docs" "k" r = true ∧ r.versionId = "null") := hkeeps "docs" "k" hhad ⟨rfl, rfl⟩ r hr
  rcases hkept with ⟨r', hr', hsame⟩ | ⟨-, hnull⟩
  · exact hgone r' hr' (hsame.id_eq.trans hid)
  · exact hversion hnull

end Strix

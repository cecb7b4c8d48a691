import Strix.ExecutablePlatform
import Strix.Linearization
import Strix.UnswitchedBuckets

/-!
# Objects change at once

As long as nobody switches the versioning of a bucket or deletes one, the store is a shelf: it
has buckets, and each key of a bucket holds one object or none.  `ShelfServes` says what each call
does to the shelf when it runs alone.

A put writes its blob and then its row, a delete removes the rows and then the blobs, and a read
finds the row and then the blob; in between, other calls run.  Still each call that succeeds
does all of it at one moment, and a call that fails does nothing.

* `World.Plain.shelf_some`: what the shelf says of the tables and the files;
* `PlainTimeline.writes`, `PlainTimeline.deletes`: the closures that change the shelf;
* `putObject_atOnce` to `requestProgram_atOnce`: every call takes effect at once;
* `storeLinearizes`: every schedule is explained by a history of calls on the shelf.
-/

namespace Strix

open AtomicProgram AtomicProgram.Prog MachineRuns RowTable

/-! ## The shelf -/

/-- What the store is for: buckets, and in each bucket an object under each key, or none.  An
object is a row without its locks, and its blob. -/
structure Shelf where
  buckets : String → Bool
  objects : String → String → Option (ObjectRow × Bytes)

namespace Shelf

def addBucket (v : Shelf) (bucket : String) : Shelf :=
  { v with buckets := fun b => b == bucket || v.buckets b }

def put (v : Shelf) (bucket key : String) (object : ObjectRow × Bytes) : Shelf :=
  { v with objects := fun b k => if b = bucket ∧ k = key then some object else v.objects b k }

def erase (v : Shelf) (bucket key : String) : Shelf :=
  { v with objects := fun b k => if b = bucket ∧ k = key then none else v.objects b k }

end Shelf

/-- The shelf that the tables and the blobs are. -/
def World.shelf (w : World) : Shelf where
  buckets bucket := bucketRowExists bucket w.db
  objects bucket key := (selectObject bucket key none w.db).bind fun r =>
    (w.files.objects r.id).map fun data => (r.unlocked, data)

/-- **A state without versions**: every bucket is unversioned, and every row has its blob. -/
structure World.Plain (w : World) : Prop where
  whole : w.Whole
  unswitched : w.db.Unswitched

namespace World.Plain

variable {w : World} {bucket key : String}

/-- A key has one row at most. -/
theorem select (h : w.Plain) {r : ObjectRow} (hr : r ∈ w.db.objects) :
    selectObject r.bucket r.key none w.db = some r :=
  selectObject_of_unversioned h.whole.versions
    (fun r' hr' _ => ⟨h.unswitched.versionId r' hr', h.unswitched.latest r' hr'⟩) hr

theorem blob (h : w.Plain) {r : ObjectRow} (hr : r ∈ w.db.objects) :
    ∃ data, w.files.objects r.id = some data :=
  h.whole.blobs r hr (h.unswitched.noMarker r hr)

/-- **The object of a key** is that of its row. -/
theorem shelf_some (h : w.Plain) {object : ObjectRow × Bytes} :
    w.shelf.objects bucket key = some object ↔
      ∃ r ∈ w.db.objects, (r.bucket = bucket ∧ r.key = key) ∧ r.unlocked = object.1 ∧
        w.files.objects r.id = some object.2 := by
  constructor
  · intro hobject
    obtain ⟨r, hselect, hblob⟩ := Option.bind_eq_some_iff.mp hobject
    obtain ⟨data, hdata, rfl⟩ := Option.map_eq_some_iff.mp hblob
    obtain ⟨hr, hat⟩ := selectObject_some hselect
    exact ⟨r, hr, hat, rfl, hdata⟩
  · rintro ⟨r, hr, ⟨rfl, rfl⟩, hunlocked, hdata⟩
    show (selectObject r.bucket r.key none w.db).bind _ = some object
    rw [h.select hr, Option.bind_some, hdata, Option.map_some, hunlocked]

/-- **Where there is no row** there is no object. -/
theorem shelf_none (h : w.Plain) :
    w.shelf.objects bucket key = none ↔
      ∀ r ∈ w.db.objects, ¬ (r.bucket = bucket ∧ r.key = key) := by
  constructor
  · rintro hnone r hr ⟨rfl, rfl⟩
    obtain ⟨data, hdata⟩ := h.blob hr
    have hthere : w.shelf.objects r.bucket r.key = some (r.unlocked, data) :=
      h.shelf_some.mpr ⟨r, hr, ⟨rfl, rfl⟩, rfl, hdata⟩
    rw [hthere] at hnone
    cases hnone
  · intro hnone
    cases hobject : w.shelf.objects bucket key with
    | none => rfl
    | some object =>
        obtain ⟨r, hr, hat, -⟩ := h.shelf_some.mp hobject
        exact absurd hat (hnone r hr)

end World.Plain

/-- **What each call does to the shelf** when it runs alone, and what it answers.  The object of a
copy or a completion is made of what was read before, from another key or from the parts. -/
def ShelfServes (P : Platform) : StoreRequest → Shelf → StoreAnswer → Shelf → Prop
  | .get bucket key opts, v, answer, v' => v' = v ∧
      opts.versionId.getD "null" = "null" ∧
      ∃ row data body, v.objects bucket key = some (row, data) ∧
        readContent P bucket key opts row (some data) = .ok body ∧
        answer = .got { info := row.info, body }
  | .head bucket key, v, answer, v' => v' = v ∧
      ∃ row data, v.objects bucket key = some (row, data) ∧ answer = .headed row.info
  | .op (.createBucket bucket _), v, answer, v' => v.buckets bucket = false ∧
      v' = v.addBucket bucket ∧ answer = .replied .done
  | .op (.putObject bucket key body opts), v, answer, v' => v.buckets bucket = true ∧
      ∃ id now sseCKey content data,
        let row := putRow bucket key opts id "null" content.length (contentEtag P content) now
        readBody body = .ok content ∧ putCustomerKey P opts = .ok sseCKey ∧
          Holds P row sseCKey content data ∧ v' = v.put bucket key (row, data) ∧
          answer = .replied (.put { etag := contentEtag P content, versionId := none })
  | .op (.copyObject _ _ dstBucket dstKey _), v, answer, v' => v.buckets dstBucket = true ∧
      ∃ row data now, row.bucket = dstBucket ∧ row.key = dstKey ∧
        row.lastModified = now.seconds ∧ v' = v.put dstBucket dstKey (row, data) ∧
        answer = .replied (.copied { etag := row.etag, lastModified := now, versionId := none })
  | .op (.completeMultipartUpload _ parts), v, answer, v' =>
      ∃ row data, v.buckets row.bucket = true ∧ row.partCount = some parts.length ∧
        row.etag = formatMultipartEtag P (parts.map (·.etag)) ∧
        v' = v.put row.bucket row.key (row, data) ∧
        answer = .replied (.put {
          etag := formatMultipartEtag P (parts.map (·.etag))
          versionId := none })
  | .op (.deleteObject bucket key), v, answer, v' => v.buckets bucket = true ∧
      v' = v.erase bucket key ∧ answer = .replied .done
  | .op (.deleteObjectVersion bucket key versionId), v, answer, v' => v.buckets bucket = true ∧
      v' = (if versionId.getD "null" = "null" then v.erase bucket key else v) ∧
      answer = .replied (.deleted { deleteMarker := false, versionId })
  | .op _, v, answer, v' => v' = v ∧ ∃ reply, answer = .replied reply

/-! ## The timeline of a schedule -/

section Timelines

variable (P : Platform) (earlier : List Lifetime) (requests : List StoreRequest)
  (schedule : List (Turn Nat))

/-- The store after some turns of a schedule. -/
def momentOf (k : Nat) : World := leftBy P (⟨requests, schedule.take k⟩ :: earlier)

/-- The states of a schedule, and of its steps the stages of the calls that take them. -/
def servedTimeline : Timeline World where
  state := momentOf P earlier requests schedule
  taken k _ act := momentOf P earlier requests schedule (k + 1) =
      (act (momentOf P earlier requests schedule k)).2 ∧
    ∃ (stages : List Custody) (i : Nat) (t : Custody) (after : _ → Custody),
      stages[i]? = some t ∧ CustodySteps P t act after ∧
      InCustody P stages (momentOf P earlier requests schedule k)
  next h := h.1

variable {P earlier requests schedule}

theorem servedTimeline_follows :
    (servedTimeline P earlier requests schedule).Follows tickWorld
      (requestPool P (leftBy P earlier) requests) schedule := by
  have hstates : ∀ done rest, schedule = done ++ rest →
      momentOf P earlier requests schedule done.length =
        served P (leftBy P earlier) requests done := by
    intro done rest hsplit
    rw [momentOf, hsplit, List.take_left]
    rfl
  refine ⟨hstates, fun done i rest β act next hsplit hi => ?_⟩
  have hnow := hstates done _ hsplit
  have hnext := hstates (done ++ [.thread i]) rest (by rw [hsplit, List.append_assoc]; rfl)
  obtain ⟨stages, hstaged, hcustody⟩ := served_kept P earlier requests done
  obtain ⟨t, ht, -, after, hact, -⟩ := hstaged.stage hi
  refine ⟨?_, stages, i, t, after, ht, hact, hnow ▸ hcustody⟩
  rw [List.length_append] at hnext
  refine hnext.trans ?_
  rw [served, after_snoc, turn_step hi, hnow]
  rfl

end Timelines

/-! ## What is known along a schedule -/

/-- **The timeline of a schedule without switches.** -/
structure PlainTimeline (P : Platform) (T : Timeline World) : Prop where
  plain : ∀ k, (T.state k).Plain
  stay : ∀ k k', k ≤ k' → Stay (T.state k) (T.state k')
  blob : ∀ k k' id data, k ≤ k' → (T.state k).files.objects id = some data →
    (T.state k').files.objects id = some data ∨ (T.state k').files.objects id = none
  held : ∀ {k : Nat} {β : Type} {act : World → β × World}, T.taken k act →
    ∃ (stages : List Custody) (i : Nat) (t : Custody) (after : β → Custody),
      stages[i]? = some t ∧ CustodySteps P t act after ∧ InCustody P stages (T.state k)

section Schedules

variable {P : Platform} {earlier : List Lifetime} {requests : List StoreRequest}
  {schedule : List (Turn Nat)} {k k' : Nat} {w : World}

/-- Every request that servers have been asked is without switches. -/
def Unswitching (lives : List Lifetime) : Prop :=
  ∀ life ∈ lives, ∀ request ∈ life.requests, request.Unswitching

theorem unswitching_ticked (nanoseconds : Nat) (w : World) (h : unswitching.Inv w) :
    unswitching.Step w (tickWorld nanoseconds w) := ⟨h, fun _ hb => hb⟩

theorem requestPool_shares (hw : w.db.Unswitched)
    (h : ∀ request ∈ requests, request.Unswitching) :
    (requestPool P w requests).Shares unswitching := by
  refine ⟨hw, fun p hp => ?_⟩
  obtain ⟨request, hmem, rfl⟩ := List.mem_map.mp hp
  exact requestProgram_keeps (h request hmem)

/-- Servers that nobody asks to switch leave buckets unversioned. -/
theorem leftBy_unswitched {lives : List Lifetime} (h : Unswitching lives) :
    (leftBy P lives).db.Unswitched := by
  induction lives with
  | nil =>
      exact ⟨fun _ hb => absurd hb List.not_mem_nil, fun _ hr => absurd hr List.not_mem_nil,
        fun _ hr => absurd hr List.not_mem_nil, fun _ hr => absurd hr List.not_mem_nil⟩
  | cons life earlier ih =>
      have hearlier := ih fun past hpast => h past (List.mem_cons_of_mem _ hpast)
      obtain ⟨hshares, -⟩ := shares_after
        (requestPool_shares (P := P) hearlier (h life List.mem_cons_self)) unswitching_ticked
        life.schedule
      exact hshares.inv

/-- A later time of a schedule. -/
theorem take_append (schedule : List (Turn Nat)) (h : k ≤ k') :
    ∃ rest, schedule.take k' = schedule.take k ++ rest := by
  refine ⟨(schedule.take k').drop k, ?_⟩
  have hcut := List.take_append_drop k (schedule.take k')
  rw [List.take_take, Nat.min_eq_left h] at hcut
  exact hcut.symm

/-- **Schedules without switches** have such timelines. -/
theorem plainTimeline_served (h : Unswitching (⟨requests, schedule⟩ :: earlier)) :
    PlainTimeline P (servedTimeline P earlier requests schedule) where
  plain k := by
    have hcut : Unswitching (⟨requests, schedule.take k⟩ :: earlier) := by
      intro life hlife
      rcases List.mem_cons.mp hlife with rfl | hold
      · exact h ⟨requests, schedule⟩ List.mem_cons_self
      · exact h life (List.mem_cons_of_mem _ hold)
    exact ⟨leftBy_whole P _, leftBy_unswitched hcut⟩
  stay k k' hk := by
    obtain ⟨rest, hrest⟩ := take_append schedule hk
    have hstart := leftBy_unswitched (P := P) fun life hlife => h life (List.mem_cons_of_mem _ hlife)
    obtain ⟨hshares, -⟩ := shares_after (requestPool_shares (P := P) hstart
      (h _ List.mem_cons_self)) unswitching_ticked (schedule.take k)
    obtain ⟨-, hmoves⟩ := shares_after hshares unswitching_ticked rest
    show Stay (served P _ requests _) (served P _ requests _)
    rw [hrest, served, served, Machine.after_append]
    exact hmoves
  blob k k' id data hk hdata := by
    obtain ⟨rest, hrest⟩ := take_append schedule hk
    have hsame : (leftBy P (⟨requests, schedule.take k ++ rest⟩ :: earlier)).files.objects id =
        some data ∨ (leftBy P (⟨requests, schedule.take k ++ rest⟩ :: earlier)).files.objects id =
        none := leftBy_sameBlob [] hdata
    rwa [← hrest] at hsame
  held htaken := htaken.2

end Schedules

/-- Locks aside, rows are under the same id and at the same key. -/
theorem ObjectRow.at_of_unlocked {r r' : ObjectRow} (h : r.unlocked = r'.unlocked) :
    r.id = r'.id ∧ r.bucket = r'.bucket ∧ r.key = r'.key := by
  refine ⟨?_, ?_, ?_⟩
  · show r.unlocked.id = r'.unlocked.id
    rw [h]
  · show r.unlocked.bucket = r'.unlocked.bucket
    rw [h]
  · show r.unlocked.key = r'.unlocked.key
    rw [h]

namespace PlainTimeline

variable {P : Platform} {T : Timeline World} {bucket key : String} {k k' : Nat}

/-- A row that is there at two times has one blob. -/
theorem sameBlob (hT : PlainTimeline P T) (hk : k ≤ k') {r r' : ObjectRow}
    (hr : r ∈ (T.state k).db.objects) (hr' : r' ∈ (T.state k').db.objects) (hid : r'.id = r.id) :
    (T.state k').files.objects r'.id = (T.state k).files.objects r.id := by
  obtain ⟨data, hdata⟩ := (hT.plain k).blob hr
  obtain ⟨data', hdata'⟩ := (hT.plain k').blob hr'
  rw [hdata, ← (hT.blob k k' r.id data hk hdata).resolve_right, hid]
  rw [← hid, hdata']
  exact Option.some_ne_none data'

/-- **Where the rows are the same but for their locks**, so is the shelf. -/
theorem shelf_eq (hT : PlainTimeline P T)
    (hbuckets : (T.state (k + 1)).db.buckets = (T.state k).db.buckets)
    (hobjects : (T.state (k + 1)).db.objects.map ObjectRow.unlocked =
      (T.state k).db.objects.map ObjectRow.unlocked) :
    (T.state (k + 1)).shelf = (T.state k).shelf := by
  have hsame : ∀ b o, (T.state (k + 1)).shelf.objects b o = (T.state k).shelf.objects b o := by
    intro b o
    refine Option.ext fun object => ?_
    rw [(hT.plain (k + 1)).shelf_some, (hT.plain k).shelf_some]
    constructor
    · rintro ⟨r', hr', hat, hunlocked, hdata⟩
      have hmem : r'.unlocked ∈ (T.state k).db.objects.map ObjectRow.unlocked :=
        hobjects ▸ List.mem_map_of_mem hr'
      obtain ⟨r, hr, heq⟩ := List.mem_map.mp hmem
      obtain ⟨hid, hbucket, hkey⟩ := ObjectRow.at_of_unlocked heq
      refine ⟨r, hr, ⟨hbucket.trans hat.1, hkey.trans hat.2⟩, heq.trans hunlocked, ?_⟩
      rw [← hT.sameBlob (Nat.le_succ k) hr hr' hid.symm]
      exact hdata
    · rintro ⟨r, hr, hat, hunlocked, hdata⟩
      have hmem : r.unlocked ∈ (T.state (k + 1)).db.objects.map ObjectRow.unlocked :=
        hobjects ▸ List.mem_map_of_mem hr
      obtain ⟨r', hr', heq⟩ := List.mem_map.mp hmem
      obtain ⟨hid, hbucket, hkey⟩ := ObjectRow.at_of_unlocked heq
      refine ⟨r', hr', ⟨hbucket.trans hat.1, hkey.trans hat.2⟩, heq.trans hunlocked, ?_⟩
      rw [hT.sameBlob (Nat.le_succ k) hr hr' hid]
      exact hdata
  rw [World.shelf, World.shelf, Shelf.mk.injEq]
  refine ⟨funext fun b => ?_, funext fun b => funext fun o => hsame b o⟩
  rw [bucketRowExists, bucketRowExists, hbuckets]

/-- Steps beside the objects leave the shelf alone. -/
theorem keepsView {α : Type} (hT : PlainTimeline P T) {p : StoreProg α} (hp : Only StepsBeside p) :
    Only (KeepsView T World.shelf) p := by
  refine hp.mono fun _ act hact k htaken => hT.shelf_eq ?_ ?_
  · rw [T.next htaken]
    exact hact.buckets _
  · rw [T.next htaken]
    exact hact.objects _ (hT.plain k).unswitched

theorem keepsView_quiet {α : Type} (hT : PlainTimeline P T) {p : StoreProg α}
    (hp : Only Quiet p) : Only (KeepsView T World.shelf) p := hT.keepsView (stepsBeside_of_quiet hp)

end PlainTimeline

/-! ## The steps that take effect -/

/-- A step that inserts a row under the id of a draw is one of a call that holds the draw. -/
theorem CustodySteps.holds {P : Platform} {t : Custody} {β : Type} {act : World → β × World}
    {after : β → Custody} (h : CustodySteps P t act after) {n : Nat} {w : World} {row : ObjectRow}
    (hempty : w.db.objects = []) (hrow : (act w).2.db.objects = [row]) (hid : row.id = P.ulid n) :
    t.pending = some n := by
  rcases h.rows_cases w with hrows | ⟨m, marker, rows, row', ht, hrows, hrow', hobjects, -⟩
  · obtain ⟨r, hr, -⟩ := hrows.mem (show row ∈ (act w).2.db.objects by rw [hrow]; simp)
    rw [hempty] at hr
    cases hr
  · have hmem : row' ∈ (act w).2.db.objects := hobjects ▸ mem_insertRow.mpr (Or.inr rfl)
    rw [hrow, List.mem_singleton] at hmem
    subst hmem
    obtain rfl := P.ulid_injective (hid.symm.trans hrow'.id_eq)
    rcases ht with rfl | ⟨rfl, -⟩ <;> rfl

/-- The rest of a writer's closure. -/
def LeavesObjects (rest : List Statement) : Prop :=
  ∀ now db, (runStatements rest now db).1 = .ok () ∧
    (runStatements rest now db).2.buckets = db.buckets ∧
    (runStatements rest now db).2.objects = db.objects

/-- A writer's closure. -/
abbrev writerStatements (bucket key : String) (row : DateTime → ObjectRow)
    (rest : List Statement) : List Statement :=
  makeRoom .unversioned bucket key :: insertObject row :: rest

section Writes

variable {P : Platform} {T : Timeline World} {bucket key : String} {k : Nat} {n : Nat}
  {row : DateTime → ObjectRow} {rest : List Statement}

/-- What a writer's closure does where the id is new. -/
theorem writerStatements_run (hbucket : ∀ now, (row now).bucket = bucket)
    (hrest : LeavesObjects rest) {w : World}
    (hnew : ∀ r ∈ w.db.objects, r.id ≠ (row w.now.seconds).id)
    (hthere : bucketRowExists bucket w.db = true) :
    (closureStep (writerStatements bucket key row rest) w).1 = .ok () ∧
      (closureStep (writerStatements bucket key row rest) w).2.db.buckets = w.db.buckets ∧
      (closureStep (writerStatements bucket key row rest) w).2.db.objects =
        insertRow (row w.now.seconds) (deleteRows (atKey bucket key) w.db.objects) ∧
      (closureStep (writerStatements bucket key row rest) w).2.files = w.files := by
  have hrun := runStatements_install w.now .unversioned bucket key row rest (hbucket _) hnew
    (bucketRowExists_iff.mp hthere)
  obtain ⟨hok, hbuckets, hobjects⟩ := hrest w.now { w.db with
    objects := insertRow (row w.now.seconds) (roomMade .unversioned bucket key w.db.objects) }
  refine ⟨?_, ?_, ?_, rfl⟩
  · show (runStatements (writerStatements bucket key row rest) w.now w.db).1 = .ok ()
    rw [hrun, hok]
  · show (runStatements (writerStatements bucket key row rest) w.now w.db).2.buckets = _
    rw [hrun, hbuckets]
  · show (runStatements (writerStatements bucket key row rest) w.now w.db).2.objects = _
    rw [hrun, hobjects]
    rfl

/-- **A writer's closure puts its object on the shelf.** -/
theorem PlainTimeline.writes (hT : PlainTimeline P T)
    (htaken : T.taken k (closureStep (writerStatements bucket key row rest)))
    (hrow : ∀ now, (row now).bucket = bucket ∧ (row now).key = key ∧ (row now).id = P.ulid n)
    (hrest : LeavesObjects rest) (hthere : bucketRowExists bucket (T.state k).db = true) :
    (closureStep (writerStatements bucket key row rest) (T.state k)).1 = .ok () ∧
      ∃ data, (T.state (k + 1)).files.objects (P.ulid n) = some data ∧
        (T.state (k + 1)).shelf = (T.state k).shelf.put bucket key
          ((row (T.state k).now.seconds).unlocked, data) := by
  have hbucket : ∀ now, (row now).bucket = bucket := fun now => (hrow now).1
  have hkey : ∀ now, (row now).key = key := fun now => (hrow now).2.1
  have hid : ∀ now, (row now).id = P.ulid n := fun now => (hrow now).2.2
  have hnew : ∀ r ∈ (T.state k).db.objects, r.id ≠ (row (T.state k).now.seconds).id := by
    obtain ⟨stages, i, t, after, ht, hsteps, hcustody⟩ := hT.held htaken
    let empty : World := { db := { buckets := [bucketRow bucket {} 0] } }
    have hnone : ∀ r ∈ empty.db.objects, r.id ≠ (row empty.now.seconds).id :=
      fun r hr => absurd hr List.not_mem_nil
    obtain ⟨-, -, hone, -⟩ := writerStatements_run hbucket hrest hnone (bucketRowExists_iff.mpr
        ⟨bucketRow bucket {} 0, List.mem_singleton_self _, rfl⟩)
    have hpending := hsteps.holds rfl hone (hid _)
    intro r hr heq
    refine (hcustody.apart.rows r hr).free i n ?_ ((hid _).symm.trans heq.symm)
    rw [pending_stage ht, hpending]
  obtain ⟨hok, hbuckets, hobjects, hfiles⟩ := writerStatements_run hbucket hrest hnew hthere
  rw [← T.next htaken] at hbuckets hobjects hfiles
  have hmem : row (T.state k).now.seconds ∈ (T.state (k + 1)).db.objects := by
    rw [hobjects]
    exact mem_insertRow.mpr (Or.inr rfl)
  obtain ⟨data, hdata⟩ := (hT.plain (k + 1)).blob hmem
  refine ⟨hok, data, hid _ ▸ hdata, ?_⟩
  rw [World.shelf, Shelf.put, Shelf.mk.injEq]
  refine ⟨funext fun b => ?_, funext fun b => funext fun o => ?_⟩
  · rw [bucketRowExists, hbuckets]
    rfl
  · show (T.state (k + 1)).shelf.objects b o = _
    by_cases hat : b = bucket ∧ o = key
    · rw [if_pos hat, (hT.plain (k + 1)).shelf_some]
      exact ⟨_, hmem, ⟨(hbucket _).trans hat.1.symm, (hkey _).trans hat.2.symm⟩, rfl, hdata⟩
    · rw [if_neg hat]
      refine Option.ext fun object => ?_
      rw [(hT.plain (k + 1)).shelf_some, (hT.plain k).shelf_some, hobjects, hfiles]
      refine exists_congr fun r => ?_
      constructor
      · rintro ⟨hr, hr', hrest⟩
        rcases mem_insertRow.mp hr with hold | rfl
        · exact ⟨(mem_deleteRows.mp hold).1, hr', hrest⟩
        · exact absurd ⟨hr'.1.symm.trans (hbucket _), hr'.2.symm.trans (hkey _)⟩ hat
      · rintro ⟨hr, hr', hrest⟩
        refine ⟨mem_insertRow.mpr (Or.inl (mem_deleteRows.mpr ⟨hr, ?_⟩)), hr', hrest⟩
        refine Bool.eq_false_iff.mpr fun hatKey => hat ?_
        obtain ⟨hb, ho⟩ := atKey_iff.mp hatKey
        exact ⟨hr'.1.symm.trans hb, hr'.2.symm.trans ho⟩

/-- **The closure of a hard delete takes its object off the shelf.** -/
theorem PlainTimeline.deletes (hT : PlainTimeline P T) (versionId : Option String)
    (htaken : T.taken k (closureStep [deleteObjects (doomed bucket key versionId)])) :
    (T.state (k + 1)).shelf =
      if versionId.getD "null" = "null" then (T.state k).shelf.erase bucket key
      else (T.state k).shelf := by
  have hnext := T.next htaken
  have hobjects : (T.state (k + 1)).db.objects =
      deleteRows (doomed bucket key versionId) (T.state k).db.objects := by
    rw [hnext]
    rfl
  have hbuckets : (T.state (k + 1)).db.buckets = (T.state k).db.buckets := by
    rw [hnext]
    rfl
  have hfiles : (T.state (k + 1)).files = (T.state k).files := by
    rw [hnext]
    rfl
  have hdoomed : ∀ r ∈ (T.state k).db.objects, doomed bucket key versionId r = true ↔
      (r.bucket = bucket ∧ r.key = key) ∧ versionId.getD "null" = "null" := by
    intro r hr
    cases versionId with
    | none => exact atKey_iff.trans ⟨fun h => ⟨h, rfl⟩, fun h => h.1⟩
    | some vid =>
        refine atVersion_iff.trans (and_congr_right fun _ => ?_)
        rw [(hT.plain k).unswitched.versionId r hr, Option.getD_some, eq_comm]
  by_cases hnull : versionId.getD "null" = "null"
  · rw [if_pos hnull, World.shelf, Shelf.erase, Shelf.mk.injEq]
    refine ⟨funext fun b => ?_, funext fun b => funext fun o => ?_⟩
    · rw [bucketRowExists, hbuckets]
      rfl
    · show (T.state (k + 1)).shelf.objects b o = _
      by_cases hat : b = bucket ∧ o = key
      · rw [if_pos hat, (hT.plain (k + 1)).shelf_none]
        intro r hr hr'
        rw [hobjects] at hr
        obtain ⟨hold, hspared⟩ := mem_deleteRows.mp hr
        rw [Bool.eq_false_iff] at hspared
        exact hspared ((hdoomed r hold).mpr ⟨⟨hr'.1.trans hat.1, hr'.2.trans hat.2⟩, hnull⟩)
      · rw [if_neg hat]
        refine Option.ext fun object => ?_
        rw [(hT.plain (k + 1)).shelf_some, (hT.plain k).shelf_some, hobjects, hfiles]
        refine exists_congr fun r => and_congr_left fun hr' => ?_
        rw [mem_deleteRows]
        refine ⟨fun h => h.1, fun h => ⟨h, Bool.eq_false_iff.mpr fun hgone => hat ?_⟩⟩
        obtain ⟨⟨hb, ho⟩, -⟩ := (hdoomed r h).mp hgone
        exact ⟨hr'.1.1.symm.trans hb, hr'.1.2.symm.trans ho⟩
  · rw [if_neg hnull]
    refine hT.shelf_eq hbuckets ?_
    rw [hobjects, deleteRows_eq_self]
    intro r hr
    exact Bool.eq_false_iff.mpr fun hgone => hnull ((hdoomed r hr).mp hgone).2

end Writes

/-! ## Every call takes effect at once -/

/-- What a put seals holds the content, under the key that the row names. -/
theorem sealContent_yields {P : Platform} (row : ObjectRow) (sseCKey : Option EncryptionKey)
    (content : Bytes) :
    (sealContent P row.bucket row.key row.versionId sseCKey content
      row.encryptionAlgorithm).Yields fun data => Holds P row sseCKey content data := by
  cases halg : row.encryptionAlgorithm with
  | none =>
      show Holds P row sseCKey content content
      simp [Holds, halg]
  | some algorithm =>
      have hfresh : ∀ (key : EncryptionKey) (ok : Bytes → Prop),
          (∀ data, decryptWith P key data = .ok content → ok data) →
          (encryptFresh P key content).Yields ok := by
        intro key ok hok n
        show (lift (encryptWith P key (P.nonce n) content) : StoreProg Bytes).Yields ok
        cases hc : encryptWith P key (P.nonce n) content with
        | error e => trivial
        | ok data => exact hok data (decryptWith_encryptWith hc)
      cases algorithm with
      | aes256 =>
          refine hfresh _ _ fun data hdata => ?_
          simpa [Holds, halg, decryptSseS3] using hdata
      | sseC =>
          cases sseCKey with
          | none => trivial
          | some k =>
              refine hfresh k _ fun data hdata => ?_
              simpa [Holds, halg, decryptSseC] using hdata

section Calls

variable {P : Platform} {T : Timeline World} {bucket key : String} {k : Nat}

/-- The status of a bucket that is there, and that it stays. -/
theorem takesEffect_status (hT : PlainTimeline P T) {does : Shelf → StoreAnswer → Shelf → Prop}
    {e : Error} {f : VersioningStatus → Prog World Error StoreAnswer}
    (hf : ∀ k', k ≤ k' → bucketRowExists bucket (T.state k').db = true →
      (f .unversioned).TakesEffect T World.shelf does (k' + 1)) :
    (query (versioningStatus bucket) >>= fun selected => require selected e >>= f).TakesEffect T
      World.shelf does k := by
  refine TakesEffect.observe_bind fun k' hk => ?_
  refine TakesEffect.require_bind fun status hstatus => ?_
  obtain rfl := (hT.plain k').unswitched.versioningStatus hstatus
  obtain ⟨b, hb, hname, -⟩ := versioningStatus_bucket hstatus
  exact hf k' hk (bucketRowExists_iff.mpr ⟨b, hb, hname⟩)

/-- A closure that cannot fail, at the end of a call. -/
theorem takesEffect_call {does : Shelf → StoreAnswer → Shelf → Prop} {statements : List Statement}
    {f : Unit → Prog World Error StoreAnswer}
    (h : ∀ k', k ≤ k' → T.taken k' (closureStep statements) →
      (closureStep statements (T.state k')).1 = .ok () ∧
        ∃ a, does (T.state k').shelf a (T.state (k' + 1)).shelf ∧
          (f ()).Settles T World.shelf False a (k' + 1)) :
    (call statements >>= f).TakesEffect T World.shelf does k := by
  rw [call, Prog.bind_assoc]
  refine TakesEffect.of_step fun k' hk htaken => Or.inr ?_
  obtain ⟨hok, a, hdoes, hsettles⟩ := h k' hk htaken
  refine ⟨a, hdoes, ?_⟩
  show ((lift ((closureStep statements (T.state k')).1.mapError dbErr) : StoreProg Unit) >>=
    f).Settles T World.shelf False a (k' + 1)
  rw [hok]
  exact hsettles

/-- The blob of a writer, and what it puts on the shelf. -/
theorem takesEffect_writes (hT : PlainTimeline P T) {does : Shelf → StoreAnswer → Shelf → Prop}
    {n : Nat} {row : DateTime → ObjectRow} {rest : List Statement} {data : Bytes}
    {f : Unit → Prog World Error StoreAnswer} {a : StoreAnswer}
    (hrow : ∀ now, (row now).bucket = bucket ∧ (row now).key = key ∧ (row now).id = P.ulid n)
    (hrest : LeavesObjects rest) (hthere : bucketRowExists bucket (T.state k).db = true)
    (hdoes : ∀ v now, v.buckets bucket = true →
      does v a (v.put bucket key ((row now).unlocked, data)))
    (hf : ∀ k', (f ()).Settles T World.shelf False a k') :
    (writeBlob (P.ulid n) data >>= fun _ =>
      call (writerStatements bucket key row rest) >>= f).TakesEffect T World.shelf does k := by
  refine TakesEffect.step_bind fun k' hk htaken => ⟨?_, ?_⟩
  · exact ((hT.keepsView_quiet (quiet_writeBlob (P.ulid n) data)).1 k' htaken)
  · have hwritten : (T.state (k' + 1)).files.objects (P.ulid n) = some data := by
      rw [T.next htaken]
      exact Function.update_self _ _ _
    refine takesEffect_call fun k'' hk' htaken' => ?_
    have hlater : k ≤ k'' := Nat.le_trans hk (Nat.le_trans (Nat.le_succ k') hk')
    have hthere' := hT.stay k k'' hlater bucket hthere
    obtain ⟨hok, data', hdata, hshelf⟩ := hT.writes htaken' hrow hrest hthere'
    have hsame : data' = data := by
      rcases hT.blob (k' + 1) (k'' + 1) _ data (Nat.le_trans hk' (Nat.le_succ _)) hwritten with
        hstill | hgone
      · exact Option.some.inj (hdata.symm.trans hstill)
      · rw [hgone] at hdata
        cases hdata
    subst hsame
    refine ⟨hok, a, ?_, hf _⟩
    rw [hshelf]
    exact hdoes _ _ hthere'

theorem leavesObjects_nil : LeavesObjects [] := fun _ _ => ⟨rfl, rfl, rfl⟩

/-- **A put** takes effect when its row comes in. -/
theorem putObject_atOnce (hT : PlainTimeline P T) (body : ObjectBody) (opts : PutObjectOpts) :
    (requestProgram P (.op (.putObject bucket key body opts))).TakesEffect T World.shelf
      (ShelfServes P (.op (.putObject bucket key body opts))) k := by
  simp only [requestProgram, program, replying, putObject, Prog.bind_assoc]
  refine takesEffect_status hT fun k₁ _ hthere => ?_
  refine TakesEffect.of_keeping (hT.keepsView_quiet (quiet_of_still still_draw)) (yields_any _)
    fun n k₂ _ hk₂ => ?_
  refine TakesEffect.lift_bind fun sseCKey hkey => ?_
  refine TakesEffect.lift_bind fun content hbody => ?_
  have hthere' := hT.stay k₁ k₂ (Nat.le_trans (Nat.le_succ k₁) hk₂) bucket hthere
  let row := putRow bucket key opts (P.ulid n) "null" content.length (contentEtag P content)
  refine TakesEffect.of_keeping (hT.keepsView_quiet (quiet_sealContent _ _ _ _ _ _))
    (sealContent_yields (row 0) sseCKey content) fun data k₃ hdata hk₃ => ?_
  have hrow : ∀ now, (row now).bucket = bucket ∧ (row now).key = key ∧ (row now).id = P.ulid n :=
    fun _ => ⟨rfl, rfl, rfl⟩
  refine takesEffect_writes hT hrow leavesObjects_nil (hT.stay k₂ k₃ hk₃ bucket hthere')
    (fun v now hv => ?_) fun _ => rfl
  exact ⟨hv, P.ulid n, now, sseCKey, content, data, hbody, hkey, hdata, rfl, rfl⟩

/-- **A copy** takes effect when its row comes in. -/
theorem copyObject_atOnce (hT : PlainTimeline P T) (srcBucket srcKey : String)
    (opts : CopyObjectOpts) :
    (requestProgram P (.op (.copyObject srcBucket srcKey bucket key opts))).TakesEffect T
      World.shelf (ShelfServes P (.op (.copyObject srcBucket srcKey bucket key opts))) k := by
  simp only [requestProgram, program, replying, copyObject, Prog.bind_assoc]
  refine TakesEffect.of_keeping (hT.keepsView_quiet (quiet_headObject _ _)) (yields_any _)
    fun srcInfo k₁ _ _ => ?_
  refine TakesEffect.observe_bind fun k₂ _ => TakesEffect.require_bind fun src _ => ?_
  refine takesEffect_status hT fun k₃ _ hthere => ?_
  refine TakesEffect.of_keeping (hT.keepsView_quiet (quiet_of_still still_draw)) (yields_any _)
    fun n k₄ _ hk₄ => ?_
  have hthere' := hT.stay k₃ k₄ (Nat.le_trans (Nat.le_succ k₃) hk₄) bucket hthere
  refine TakesEffect.of_keeping (hT.keepsView_quiet (quiet_copyBlob _ _ _ _ _ _ _ _))
    (yields_any _) fun _ k₅ _ hk₅ => ?_
  refine TakesEffect.observe_bind fun k₆ hk₆ => takesEffect_call fun k₇ hk₇ htaken => ?_
  have hlater : k₄ ≤ k₇ :=
    Nat.le_trans hk₅ (Nat.le_trans hk₆ (Nat.le_trans (Nat.le_succ k₆) hk₇))
  have hthere'' := hT.stay k₄ k₇ hlater bucket hthere'
  obtain ⟨hok, data, -, hshelf⟩ := hT.writes htaken (fun _ => ⟨rfl, rfl, rfl⟩)
    leavesObjects_nil hthere''
  exact ⟨hok, _, ⟨hthere'', _, data, _, rfl, rfl, rfl, hshelf, rfl⟩, rfl⟩

theorem leavesObjects_closesUpload (uploadId : String) :
    LeavesObjects [deleteParts (·.uploadId == uploadId), deleteUpload uploadId] :=
  fun _ _ => ⟨rfl, rfl, rfl⟩

/-- **A completion** takes effect when its row comes in. -/
theorem completeMultipartUpload_atOnce (hT : PlainTimeline P T) (upload : MultipartUpload)
    (parts : List CompletePart) :
    (requestProgram P (.op (.completeMultipartUpload upload parts))).TakesEffect T World.shelf
      (ShelfServes P (.op (.completeMultipartUpload upload parts))) k := by
  simp only [requestProgram, program, replying, completeMultipartUpload, Prog.bind_assoc]
  refine TakesEffect.ensure_bind fun _ => TakesEffect.observe_bind fun k₁ _ => ?_
  refine TakesEffect.require_bind fun uploadMeta _ => takesEffect_status hT fun k₂ _ hthere => ?_
  refine TakesEffect.observe_bind fun k₃ hk₃ => TakesEffect.lift_bind fun _ _ => ?_
  refine TakesEffect.of_keeping (hT.keepsView_quiet (quiet_of_still still_draw)) (yields_any _)
    fun n k₄ _ hk₄ => ?_
  refine TakesEffect.of_keeping (hT.keepsView_quiet (quiet_readParts _ _)) (yields_any _)
    fun plaintext k₅ _ hk₅ => ?_
  refine TakesEffect.of_keeping (hT.keepsView_quiet (quiet_sealUpload _ _ _)) (yields_any _)
    fun data k₆ _ hk₆ => ?_
  have hlater : k₂ ≤ k₆ := by omega
  have hthere' := hT.stay k₂ k₆ hlater _ hthere
  let row := completedRow uploadMeta parts (P.ulid n) "null" plaintext.length
    (formatMultipartEtag P (parts.map (·.etag)))
  have hrow : ∀ now, (row now).bucket = uploadMeta.bucket ∧ (row now).key = uploadMeta.key ∧
      (row now).id = P.ulid n := fun _ => ⟨rfl, rfl, rfl⟩
  refine takesEffect_writes hT hrow (leavesObjects_closesUpload _) hthere'
    (fun v now hv => ⟨(row now).unlocked, data, hv, rfl, rfl, rfl, rfl⟩) fun k₇ => ?_
  exact Settles.of_keeping (hT.keepsView_quiet (quiet_removeUploadDir _))
    (Or.inr fun _ => trivial) fun _ _ _ => rfl


/-- A row that a call finds. -/
theorem World.Plain.selected {w : World} (h : w.Plain) {versionId : Option String}
    {row : ObjectRow} (hselect : selectObject bucket key versionId w.db = some row) :
    row ∈ w.db.objects ∧ (row.bucket = bucket ∧ row.key = key) ∧
      versionId.getD "null" = "null" := by
  obtain ⟨hmem, haddressed⟩ := selectFirst_some hselect
  cases versionId with
  | none => exact ⟨hmem, (atLatest_iff.mp haddressed).1, rfl⟩
  | some vid =>
      obtain ⟨hat, hversion⟩ := atVersion_iff.mp haddressed
      exact ⟨hmem, hat, hversion.symm.trans (h.unswitched.versionId row hmem)⟩

/-- The object of a row that a call finds. -/
theorem World.Plain.shelf_selected {w : World} (h : w.Plain) {versionId : Option String}
    {row : ObjectRow} (hselect : selectObject bucket key versionId w.db = some row) :
    ∃ data, w.files.objects row.id = some data ∧
      w.shelf.objects bucket key = some (row.unlocked, data) := by
  obtain ⟨hmem, hat, -⟩ := h.selected hselect
  obtain ⟨data, hdata⟩ := h.blob hmem
  exact ⟨data, hdata, h.shelf_some.mpr ⟨row, hmem, hat, rfl, hdata⟩⟩

/-- What is left of a read that has found its row. -/
def answerFound (P : Platform) (bucket key : String) (opts : GetObjectOpts) (row : ObjectRow) :
    Prog World Error StoreAnswer := do
  ensure (!row.isDeleteMarker) (.objectNotFound bucket key)
  lift (checkPreconditions row opts)
  let blob ← readBlob row.id
  let ciphertext ← require blob (.objectNotFound bucket key)
  let plaintext ← lift (decryptRow P bucket key row opts ciphertext)
  let range ← lift (resolveRange plaintext.length opts.range)
  done (.got {
    info := row.info
    body := (plaintext.drop range.1).take (min range.2 (plaintext.length - range.1)) })

theorem requestProgram_get (opts : GetObjectOpts) :
    requestProgram P (.get bucket key opts) = query (selectObject bucket key opts.versionId) >>=
      fun selected => require selected (.objectNotFound bucket key) >>=
        answerFound P bucket key opts := by
  simp only [requestProgram, getObject, Prog.bind_assoc]
  rfl

theorem readContent_gone {opts : GetObjectOpts} {row : ObjectRow}
    (hmarker : row.isDeleteMarker = false) (hpre : checkPreconditions row opts = .ok ()) :
    readContent P bucket key opts row none = .error (.objectNotFound bucket key) := by
  simp [readContent, hmarker, hpre]

/-- A read that passes its preconditions answers what its blob holds. -/
theorem answerFound_eq (opts : GetObjectOpts) {row : ObjectRow}
    (hmarker : row.isDeleteMarker = false) (hpre : checkPreconditions row opts = .ok ()) :
    answerFound P bucket key opts row = readBlob row.id >>= fun blob =>
      lift (readContent P bucket key opts row blob) >>= fun body =>
        done (.got { info := row.info, body }) := by
  rw [answerFound, hmarker, hpre]
  refine congrArg (readBlob row.id >>= ·) (funext fun blob => ?_)
  cases blob with
  | none =>
      have hcontent : readContent P bucket key opts row none =
          .error (.objectNotFound bucket key) := by simp [readContent, hmarker, hpre]
      rw [hcontent]
      rfl
  | some ciphertext =>
      show (lift (decryptRow P bucket key row opts ciphertext) >>= fun plaintext =>
        lift (resolveRange plaintext.length opts.range) >>= _) = _
      cases hplain : decryptRow P bucket key row opts ciphertext with
      | error e =>
          have hcontent : readContent P bucket key opts row (some ciphertext) = .error e := by
            simp [readContent, hmarker, hpre, hplain]
          rw [hcontent]
          rfl
      | ok plaintext =>
          show (lift (resolveRange plaintext.length opts.range) >>= _) = _
          cases hrange : resolveRange plaintext.length opts.range with
          | error e =>
              have hcontent : readContent P bucket key opts row (some ciphertext) = .error e := by
                simp [readContent, hmarker, hpre, hplain, hrange]
              rw [hcontent]
              rfl
          | ok range =>
              have hcontent : readContent P bucket key opts row (some ciphertext) = .ok
                  ((plaintext.drop range.1).take (min range.2 (plaintext.length - range.1))) := by
                simp [readContent, hmarker, hpre, hplain, hrange]
              rw [hcontent]
              rfl

/-- **A read** takes effect when its row is found, if the blob of then answers it. -/
theorem getObject_atOnce (hT : PlainTimeline P T) (opts : GetObjectOpts) :
    (requestProgram P (.get bucket key opts)).TakesEffect T World.shelf
      (ShelfServes P (.get bucket key opts)) k := by
  rw [requestProgram_get]
  refine TakesEffect.of_read fun k' hk => ?_
  cases hselect : selectObject bucket key opts.versionId (T.state k').db with
  | none => exact Or.inl trivial
  | some row =>
      show (answerFound P bucket key opts row).TakesEffect _ _ _ _ ∨
        ∃ a, _ ∧ (answerFound P bucket key opts row).Settles _ _ _ a _
      obtain ⟨hmem, -, hversion⟩ := (hT.plain k').selected hselect
      obtain ⟨data, hdata, hshelf⟩ := (hT.plain k').shelf_selected hselect
      have hmarker := (hT.plain k').unswitched.noMarker row hmem
      cases hpre : checkPreconditions row opts with
      | error e =>
          refine Or.inl (TakesEffect.ensure_bind fun _ => ?_)
          rw [hpre]
          trivial
      | ok passed =>
          rw [answerFound_eq opts hmarker hpre]
          have hblob : ∀ t, k' ≤ t → (T.state t).files.objects row.id = some data ∨
              (T.state t).files.objects row.id = none := fun t ht => hT.blob k' t _ data ht hdata
          cases hcontent : readContent P bucket key opts row (some data) with
          | error e =>
              refine Or.inl (TakesEffect.observe_bind fun t ht => ?_)
              rcases hblob t (Nat.le_trans (Nat.le_succ k') ht) with hstill | hgone
              · rw [hstill, hcontent]
                trivial
              · rw [hgone]
                rw [readContent_gone hmarker hpre]
                trivial
          | ok body =>
              refine Or.inr ⟨.got { info := row.info, body }, ?_, ?_⟩
              · exact ⟨rfl, hversion, row.unlocked, data, body, hshelf, hcontent, rfl⟩
              · refine Settles.observe_bind fun t ht => ?_
                rcases hblob t (Nat.le_trans (Nat.le_succ k') ht) with hstill | hgone
                · rw [hstill, hcontent]
                  rfl
                · rw [hgone]
                  rw [readContent_gone hmarker hpre]
                  trivial

/-- **A look at the head** takes effect when the row is found. -/
theorem headObject_atOnce (hT : PlainTimeline P T) :
    (requestProgram P (.head bucket key)).TakesEffect T World.shelf
      (ShelfServes P (.head bucket key)) k := by
  simp only [requestProgram, headObject, Prog.bind_assoc]
  refine TakesEffect.of_read fun k' hk => ?_
  cases hselect : selectObject bucket key none (T.state k').db with
  | none => exact Or.inl trivial
  | some row =>
      obtain ⟨hmem, -, -⟩ := (hT.plain k').selected hselect
      obtain ⟨data, -, hshelf⟩ := (hT.plain k').shelf_selected hselect
      refine Or.inr ⟨.headed row.info, ⟨rfl, row.unlocked, data, hshelf, rfl⟩, ?_⟩
      show Settles T World.shelf True (.headed row.info) (ensure (!row.isDeleteMarker)
        (.objectNotFound bucket key) >>= fun _ => done (.headed row.info) :
          Prog World Error StoreAnswer) (k' + 1)
      rw [(hT.plain k').unswitched.noMarker row hmem]
      rfl

/-- **A new bucket** is there when its row comes in. -/
theorem createBucket_atOnce (opts : CreateBucketOpts) :
    (requestProgram P (.op (.createBucket bucket opts))).TakesEffect T World.shelf
      (ShelfServes P (.op (.createBucket bucket opts))) k := by
  simp only [requestProgram, program, replying, createBucket, Prog.bind_assoc]
  refine TakesEffect.lift_bind fun _ _ => TakesEffect.of_step fun k' hk htaken => ?_
  have hnext := T.next htaken
  have hfresh : ∀ now, (bucketRow bucket opts now).name = bucket := fun _ => rfl
  cases hrun : insertBucket (bucketRow bucket opts) (T.state k').now (T.state k').db with
  | error e =>
      have hstep : closureStep [insertBucket (bucketRow bucket opts)] (T.state k') =
          (.error e, T.state k') := by
        rw [closureStep, runStatements_cons_error hrun]
      refine Or.inl ⟨?_, ?_⟩
      · rw [hnext]
        exact congrArg (·.2.shelf) hstep
      · show ((lift ((closureStep [insertBucket (bucketRow bucket opts)]
          (T.state k')).1.mapError _) : StoreProg Unit) >>= _).TakesEffect _ _ _ _
        rw [hstep]
        trivial
  | ok db' =>
      obtain ⟨hnew, hdb⟩ := insertBucket_eq_ok hrun
      have hstep : closureStep [insertBucket (bucketRow bucket opts)] (T.state k') =
          (.ok (), { T.state k' with db := db' }) := by
        rw [closureStep, runStatements_cons_ok hrun]
        rfl
      have hstate : T.state (k' + 1) = { T.state k' with db := db' } := by
        rw [hnext]
        exact congrArg (·.2) hstep
      refine Or.inr ⟨.replied .done, ⟨?_, ?_, rfl⟩, ?_⟩
      · refine Bool.eq_false_iff.mpr fun hthere => ?_
        obtain ⟨b, hb, hname⟩ := bucketRowExists_iff.mp hthere
        exact hnew b hb (hname.trans (hfresh _).symm)
      · rw [hstate, hdb, World.shelf, Shelf.addBucket, Shelf.mk.injEq]
        refine ⟨funext fun b => Bool.eq_iff_iff.mpr ?_, rfl⟩
        rw [bucketRowExists_iff, Bool.or_eq_true, beq_iff_eq]
        constructor
        · rintro ⟨b', hb', rfl⟩
          rcases mem_insertRow.mp hb' with hold | rfl
          · exact Or.inr (bucketRowExists_iff.mpr ⟨b', hold, rfl⟩)
          · exact Or.inl rfl
        · rintro (rfl | hold)
          · exact ⟨_, mem_insertRow.mpr (Or.inr rfl), rfl⟩
          · obtain ⟨b', hb', hname⟩ := bucketRowExists_iff.mp hold
            exact ⟨b', mem_insertRow.mpr (Or.inl hb'), hname⟩
      · show ((lift ((closureStep [insertBucket (bucketRow bucket opts)]
          (T.state k')).1.mapError _) : StoreProg Unit) >>= _).Settles _ _ _ _ _
        rw [hstep]
        rfl

theorem unfailing_removeBlobs (ids : List String) : (removeBlobs ids).Unfailing := by
  induction ids with
  | nil => trivial
  | cons id rest ih => exact fun _ => ih

/-- Where all rows are latest, the promotion after a hard delete changes nothing. -/
theorem settles_promoteNewest (hT : PlainTimeline P T) {a : StoreAnswer} :
    (call [promoteNewest P bucket key] >>= fun _ => done a).Settles T World.shelf False a k := by
  have hbeside : Only StepsBeside (call [promoteNewest P bucket key]) := by
    refine stepsBeside_call fun statement hs => ?_
    obtain rfl := List.mem_singleton.mp hs
    exact stepsBeside_promoteNewest P bucket key
  rw [call, Prog.bind_assoc]
  exact Settles.step_bind fun k' _ htaken => ⟨(hT.keepsView hbeside).1 k' htaken, rfl⟩

/-- **A hard delete** takes effect when its rows go. -/
theorem hardDelete_atOnce (hT : PlainTimeline P T) (versionId : Option String)
    {does : Shelf → StoreAnswer → Shelf → Prop} {f : DeleteObjectResponse → StoreAnswer}
    (hdoes : ∀ v, v.buckets bucket = true → does v (f { deleteMarker := false, versionId })
      (if versionId.getD "null" = "null" then v.erase bucket key else v))
    (hthere : bucketRowExists bucket (T.state k).db = true) :
    (hardDelete P bucket key versionId >>= fun response => done (f response)).TakesEffect T
      World.shelf does k := by
  cases versionId with
  | some vid =>
      simp only [hardDelete, hardDeleteVersion, Prog.bind_assoc]
      refine TakesEffect.observe_bind fun k₁ hk₁ => takesEffect_call fun k₂ hk₂ htaken => ?_
      have hthere' := hT.stay k k₂ (by omega) bucket hthere
      refine ⟨rfl, f { deleteMarker := false, versionId := some vid }, ?_, ?_⟩
      · rw [hT.deletes (some vid) htaken]
        exact hdoes _ hthere'
      · exact Settles.of_keeping (hT.keepsView_quiet (quiet_removeBlobs _))
          (Or.inr (unfailing_removeBlobs _)) fun _ _ _ => settles_promoteNewest hT
  | none =>
      simp only [hardDelete, hardDeleteKey, Prog.bind_assoc]
      refine TakesEffect.observe_bind fun k₁ hk₁ => takesEffect_call fun k₂ hk₂ htaken => ?_
      have hthere' := hT.stay k k₂ (by omega) bucket hthere
      refine ⟨rfl, f { deleteMarker := false, versionId := none }, ?_, ?_⟩
      · rw [hT.deletes none htaken]
        exact hdoes _ hthere'
      · exact Settles.of_keeping (hT.keepsView_quiet (quiet_removeBlobs _))
          (Or.inr (unfailing_removeBlobs _)) fun _ _ _ => rfl

/-- **A delete** takes effect when its rows go. -/
theorem deleteObjectVersion_atOnce (hT : PlainTimeline P T) (versionId : Option String)
    {does : Shelf → StoreAnswer → Shelf → Prop} {f : DeleteObjectResponse → StoreAnswer}
    (hdoes : ∀ v, v.buckets bucket = true → does v (f { deleteMarker := false, versionId })
      (if versionId.getD "null" = "null" then v.erase bucket key else v)) :
    (deleteObjectVersion P bucket key versionId >>= fun response => done (f response)).TakesEffect
      T World.shelf does k := by
  simp only [deleteObjectVersion, Prog.bind_assoc]
  refine takesEffect_status hT fun k₁ _ hthere => ?_
  refine TakesEffect.of_keeping (hT.keepsView_quiet (quiet_objectDeleteLocked _ _ _)) (yields_any _)
    fun locked k₂ _ hk₂ => ?_
  refine TakesEffect.ensure_bind fun _ => ?_
  have hthere' := hT.stay k₁ k₂ (by omega) bucket hthere
  cases versionId with
  | some vid => exact hardDelete_atOnce hT (some vid) hdoes hthere'
  | none =>
      simp only [if_true]
      exact hardDelete_atOnce hT none hdoes hthere'

theorem ensure_bind_ne_done {condition : Bool} {e : Error}
    {f : Unit → Prog World Error StoreAnswer} (hf : ∀ b, f () ≠ done b) {b : StoreAnswer} :
    (ensure condition e >>= f) ≠ done b := by
  intro hb
  cases condition with
  | true => exact hf b hb
  | false => cases hb

/-- **Every call without switches takes effect at once.** -/
theorem requestProgram_atOnce (hT : PlainTimeline P T) {request : StoreRequest}
    (h : request.Unswitching) :
    (requestProgram P request).TakesEffect T World.shelf (ShelfServes P request) k := by
  have hbeside : ∀ op : Op, op.BesideObjects →
      (∀ v reply, ShelfServes P (.op op) v (.replied reply) v) →
      (requestProgram P (.op op)).TakesEffect T World.shelf (ShelfServes P (.op op)) k := by
    intro op hop hserves
    have hreplies : (requestProgram P (.op op)).Yields fun answer =>
        ∃ reply, answer = StoreAnswer.replied reply :=
      yields_wrap (fun reply => ⟨reply, rfl⟩) (program P op)
    have hsteps := (stepsBeside_program (P := P) hop).bind fun reply =>
      only_pure (StoreAnswer.replied reply)
    refine TakesEffect.of_only (hT.keepsView hsteps) hreplies (fun b hb => ?_) ?_
    · cases op with
      | uploadPart upload partNumber body =>
          simp only [requestProgram, program, replying, uploadPart, Prog.bind_assoc] at hb
          exact ensure_bind_ne_done (fun b hb => by cases hb) hb
      | createMultipartUpload bucket key opts => cases hb
      | abortMultipartUpload upload => cases hb
      | abortStaleMultipart uploadId => cases hb
      | putObjectRetention bucket key versionId retention bypassGovernance => cases hb
      | putObjectLegalHold bucket key versionId status => cases hb
      | tick nanoseconds => cases hb
      | _ => exact hop.elim
    · rintro v _ ⟨reply, rfl⟩
      exact hserves v reply
  cases request with
  | get bucket key opts => exact getObject_atOnce hT opts
  | head bucket key => exact headObject_atOnce hT
  | op op =>
      cases op with
      | createBucket bucket opts => exact createBucket_atOnce opts
      | putObject bucket key body opts => exact putObject_atOnce hT body opts
      | copyObject srcBucket srcKey dstBucket dstKey opts =>
          exact copyObject_atOnce hT srcBucket srcKey opts
      | completeMultipartUpload upload parts => exact completeMultipartUpload_atOnce hT upload parts
      | deleteObject bucket key =>
          simp only [requestProgram, program, replying, deleteObject, Prog.bind_assoc]
          exact deleteObjectVersion_atOnce hT none (f := fun _ => .replied .done)
            fun v hv => ⟨hv, rfl, rfl⟩
      | deleteObjectVersion bucket key versionId =>
          simp only [requestProgram, program, replying, Prog.bind_assoc]
          exact deleteObjectVersion_atOnce hT versionId
            (f := fun response => .replied (.deleted response)) fun v hv => ⟨hv, rfl, rfl⟩
      | setBucketVersioning bucket enabled => exact h.elim
      | deleteBucket bucket => exact h.elim
      | _ => exact hbeside _ trivial fun v reply => ⟨rfl, reply, rfl⟩

end Calls

/-- What the i-th of the requests does to the shelf. -/
def ServesNth (P : Platform) (requests : List StoreRequest) (i : Nat) (v : Shelf)
    (answer : StoreAnswer) (v' : Shelf) : Prop :=
  ∃ request, requests[i]? = some request ∧ ShelfServes P request v answer v'

end Strix

import Strix.ExecutablePlatform
import Strix.LockCalls

/-!
# What a lock call acknowledges

`put_object_retention` and `put_object_legal_hold` answer `Ok` once their UPDATE
has run, whatever the number of rows that it has matched.  The lock that they
acknowledge should be one: an object version is there, and what the matching get
answers is what was put.

The column holds a date as RFC 3339 text, which has four digits for the year.
`parse_datetime` takes the clock for a text that it cannot read.

* `getObjectRetention_run` and `getObjectLegalHold_run`: what the gets answer;
* `putLock_cases`: everything a lock call can do;
* `lock_acknowledged_iff`: when an acknowledgement is real.
-/

namespace Strix

open AtomicProgram AtomicProgram.Prog MachineRuns RowTable

/-! ## Reading the lock columns -/

/-- The text of the instant has a year of four digits. -/
def Rfc3339Year (t : DateTime) : Prop :=
  -62167219200 * 1000000000 ≤ t ∧ t < 253402300800 * 1000000000

instance (t : DateTime) : Decidable (Rfc3339Year t) := inferInstanceAs (Decidable (_ ∧ _))

/-- `parse_datetime` of the text of an instant. -/
def parseDatetime (now stored : DateTime) : DateTime :=
  if Rfc3339Year stored then stored else now

/-- `get_object_retention`. -/
def getObjectRetention (bucket key : String) (versionId : Option String) :
    StoreProg (Option ObjectRetention) := do
  let there ← query (bucketRowExists bucket)
  ensure there (.bucketNotFound bucket)
  let selected ← query (selectObject bucket key versionId)
  let now ← clock
  return selected.bind fun row => row.retentionMode.bind fun mode =>
    row.retainUntilDate.map fun stored =>
      { mode := mode, retainUntilDate := parseDatetime now stored }

/-- `get_object_legal_hold`: a row that is not there is a database error. -/
def getObjectLegalHold (bucket key : String) (versionId : Option String) :
    StoreProg LegalHoldStatus := do
  let there ← query (bucketRowExists bucket)
  ensure there (.bucketNotFound bucket)
  let selected ← query (selectObject bucket key versionId)
  let row ← require selected (dbErr (.fault "Query returned no rows"))
  return if row.legalHold then .on else .off

theorem getObjectRetention_run {w : World} {bucket : String}
    (hthere : bucketRowExists bucket w.db = true) (key : String) (versionId : Option String) :
    (getObjectRetention bucket key versionId).run w =
      (.ok ((selectObject bucket key versionId w.db).bind fun row =>
        row.retentionMode.bind fun mode => row.retainUntilDate.map fun stored =>
          { mode := mode, retainUntilDate := parseDatetime w.now stored }), w) := by
  simp only [getObjectRetention, run_bind, run_query, run_ensure, hthere, if_true, run_clock,
    run_pure]

theorem getObjectLegalHold_run {w : World} {bucket key : String} {versionId : Option String}
    {row : ObjectRow} (hthere : bucketRowExists bucket w.db = true)
    (hrow : selectObject bucket key versionId w.db = some row) :
    (getObjectLegalHold bucket key versionId).run w =
      (.ok (if row.legalHold then .on else .off), w) := by
  simp only [getObjectLegalHold, run_bind, run_query, run_ensure, hthere, if_true, run_require,
    hrow, run_pure]

/-! ## Lock calls -/

/-- A lock call with what it puts. -/
inductive LockPut
  | retain (retention : ObjectRetention) (bypassGovernance : Bool)
  | hold (status : LegalHoldStatus)

/-- `put_object_retention` or `put_object_legal_hold`. -/
def LockPut.program (bucket key : String) (versionId : Option String) :
    LockPut → StoreProg Unit
  | .retain retention bypassGovernance =>
    putObjectRetention bucket key versionId retention bypassGovernance
  | .hold status => putObjectLegalHold bucket key versionId status

/-- The lock columns that it assigns. -/
def LockPut.assign : LockPut → ObjectRow → ObjectRow
  | .retain retention _ => ObjectRow.retain retention
  | .hold status => ObjectRow.hold status

/-- The check before the UPDATE. -/
def LockPut.permitted (bucket key : String) (versionId : Option String) (db : Db) :
    LockPut → Bool
  | .retain _ bypassGovernance =>
    retentionModifiable (selectObject bucket key versionId db) bypassGovernance
  | .hold _ => true

/-- **The matching get answers what was put**, dates to the second. -/
def LockPut.ReadBack (bucket key : String) (versionId : Option String) (w : World) :
    LockPut → Prop
  | .retain retention _ =>
    ∃ got, ((getObjectRetention bucket key versionId).run w).1 = .ok (some got) ∧
      got.mode = retention.mode ∧
      got.retainUntilDate.seconds = retention.retainUntilDate.seconds
  | .hold status => ((getObjectLegalHold bucket key versionId).run w).1 = .ok status

/-- An object version is at the address: a row that is no delete marker. -/
def VersionAt (bucket key : String) (versionId : Option String) (w : World) : Prop :=
  ∃ r ∈ w.db.objects, addressed bucket key versionId r = true ∧ r.isDeleteMarker = false

/-- **The acknowledgement is real.**  An `Ok` means that an object version was
there and, however the clock moves on, reads back what was put; anything else is
an error that has changed no row. -/
def LockAcknowledged (w : World) (bucket key : String) (versionId : Option String)
    (put : LockPut) : Prop :=
  match (put.program bucket key versionId).run w with
  | (.ok (), w') => VersionAt bucket key versionId w ∧
      ∀ nanoseconds, put.ReadBack bucket key versionId (tickWorld nanoseconds w')
  | (.error _, w') => w'.db.objects = w.db.objects

/-- The call is refused: for its bucket or for the retention in force. -/
def LockRefused (w : World) (bucket key : String) (versionId : Option String)
    (put : LockPut) : Prop :=
  bucketRowExists bucket w.db = false ∨ put.permitted bucket key versionId w.db = false

/-- What is put can be read from its column. -/
def LockPut.Readable : LockPut → Prop
  | .retain retention _ => Rfc3339Year retention.retainUntilDate
  | .hold _ => True

/-- **Everything a lock call can do.** -/
theorem putLock_cases (w : World) (bucket key : String) (versionId : Option String)
    (put : LockPut) :
    (LockRefused w bucket key versionId put ∧
      ∃ e, (put.program bucket key versionId).run w = (.error e, w)) ∨
    ((bucketRowExists bucket w.db = true ∧ put.permitted bucket key versionId w.db = true) ∧
      (put.program bucket key versionId).run w =
        (.ok (), w.assignRows bucket key versionId put.assign)) := by
  cases hthere : bucketRowExists bucket w.db with
  | false =>
      refine Or.inl ⟨Or.inl hthere, .bucketNotFound bucket, ?_⟩
      cases put with
      | retain retention bypassGovernance =>
          simp [LockPut.program, putObjectRetention, query, hthere]
      | hold status => simp [LockPut.program, putObjectLegalHold, query, hthere]
  | true =>
      cases hpermitted : put.permitted bucket key versionId w.db with
      | false =>
          refine Or.inl ⟨Or.inr hpermitted, .accessDenied, ?_⟩
          cases put with
          | retain retention bypassGovernance =>
              simp only [LockPut.permitted] at hpermitted
              simp [LockPut.program, putObjectRetention, query, hthere, hpermitted]
          | hold status => cases hpermitted
      | true =>
          refine Or.inr ⟨⟨rfl, rfl⟩, ?_⟩
          cases put with
          | retain retention bypassGovernance =>
              simp only [LockPut.permitted] at hpermitted
              simp [LockPut.program, putObjectRetention, query, hthere, hpermitted,
                updateObjects, runStatements, World.assignRows]
              rfl
          | hold status =>
              simp [LockPut.program, putObjectLegalHold, query, hthere, updateObjects,
                runStatements, World.assignRows]
              rfl

/-- A lock call leaves a row at its address. -/
theorem LockPut.addressed_assign (put : LockPut) (bucket key : String)
    (versionId : Option String) (r : ObjectRow) :
    addressed bucket key versionId (put.assign r) = addressed bucket key versionId r := by
  cases put <;> cases versionId <;> rfl

/-- After the UPDATE, the address selects the row with the lock assigned. -/
theorem selectObject_assignRows (w : World) (bucket key : String) (versionId : Option String)
    (put : LockPut) :
    selectObject bucket key versionId (w.assignRows bucket key versionId put.assign).db =
      (selectObject bucket key versionId w.db).map put.assign :=
  selectFirst_updateRows fun r hr => (put.addressed_assign bucket key versionId r).trans hr

/-! ## When it is real -/

/-- A second later the clock shows another second. -/
theorem seconds_later (t : DateTime) :
    DateTime.seconds (t + (0 : Nat)) ≠ DateTime.seconds (t + (1000000000 : Nat)) := by
  have hapart : ∀ n : Int, n / 1000000000 * 1000000000 ≠
      (n + 1000000000) / 1000000000 * 1000000000 := by
    intro n
    omega
  simpa [DateTime.seconds] using hapart t

section ReadBack

variable {w : World} {bucket key : String} {versionId : Option String}

/-- **What the matching get answers** after a lock call that has found a row. -/
theorem readBack_iff (hthere : bucketRowExists bucket w.db = true) {row : ObjectRow}
    (hrow : selectObject bucket key versionId w.db = some row) (put : LockPut) :
    (∀ nanoseconds, put.ReadBack bucket key versionId
      (tickWorld nanoseconds (w.assignRows bucket key versionId put.assign))) ↔ put.Readable := by
  have hselected : ∀ nanoseconds, selectObject bucket key versionId
      (tickWorld nanoseconds (w.assignRows bucket key versionId put.assign)).db =
      some (put.assign row) := by
    intro nanoseconds
    have hmapped := selectObject_assignRows w bucket key versionId put
    rw [hrow] at hmapped
    exact hmapped
  cases put with
  | hold status =>
      refine iff_of_true (fun nanoseconds => ?_) trivial
      have hread := @getObjectLegalHold_run (tickWorld nanoseconds (w.assignRows bucket key
        versionId (LockPut.hold status).assign)) bucket key versionId _ hthere
        (hselected nanoseconds)
      refine (congrArg Prod.fst hread).trans ?_
      cases status <;> rfl
  | retain retention bypassGovernance =>
      have hread : ∀ nanoseconds, (LockPut.retain retention bypassGovernance).ReadBack bucket
          key versionId (tickWorld nanoseconds (w.assignRows bucket key versionId
            (LockPut.retain retention bypassGovernance).assign)) ↔
          (parseDatetime (w.now + (nanoseconds : Nat)) retention.retainUntilDate).seconds =
            retention.retainUntilDate.seconds := by
        intro nanoseconds
        have hrun := @getObjectRetention_run (tickWorld nanoseconds (w.assignRows bucket key
          versionId (LockPut.retain retention bypassGovernance).assign)) bucket hthere key versionId
        rw [hselected nanoseconds] at hrun
        simp only [LockPut.ReadBack, hrun]
        constructor
        · intro h
          obtain ⟨got, hgot, -, hseconds⟩ := h
          obtain rfl := Option.some.inj (Except.ok.inj hgot)
          exact hseconds
        · intro hseconds
          exact ⟨_, rfl, rfl, hseconds⟩
      constructor
      · intro hall
        by_contra hunreadable
        have hnow := (hread 0).mp (hall 0)
        have hlater := (hread 1000000000).mp (hall 1000000000)
        simp only [parseDatetime, LockPut.Readable] at hnow hlater hunreadable
        rw [if_neg hunreadable] at hnow hlater
        exact seconds_later w.now (hnow.trans hlater.symm)
      · intro hreadable nanoseconds
        have hyear : Rfc3339Year retention.retainUntilDate := hreadable
        refine (hread nanoseconds).mpr ?_
        rw [parseDatetime, if_pos hyear]

/-- **When the acknowledgement of a lock is real.**  In every state and for every
address and lock: exactly when the call is refused, or an object version is at
the address and its column can hold what is put. -/
theorem lock_acknowledged_iff (w : World) (bucket key : String) (versionId : Option String)
    (put : LockPut) :
    LockAcknowledged w bucket key versionId put ↔
      LockRefused w bucket key versionId put ∨
        VersionAt bucket key versionId w ∧ put.Readable := by
  rcases putLock_cases w bucket key versionId put with
    ⟨hrefused, e, hrun⟩ | ⟨⟨hthere, hpermitted⟩, hrun⟩
  · refine iff_of_true ?_ (Or.inl hrefused)
    rw [LockAcknowledged, hrun]
  · have haccepted : ¬ LockRefused w bucket key versionId put := by
      intro hrefused
      rcases hrefused with hmissing | hforbidden
      · rw [hthere] at hmissing
        cases hmissing
      · rw [hpermitted] at hforbidden
        cases hforbidden
    rw [LockAcknowledged, hrun]
    constructor
    · intro h
      obtain ⟨hversion, hread⟩ := h
      obtain ⟨r, hr, haddressed, hmarker⟩ := hversion
      obtain ⟨row, hrow⟩ := exists_selectFirst hr haddressed
      exact Or.inr ⟨⟨r, hr, haddressed, hmarker⟩, (readBack_iff hthere hrow put).mp hread⟩
    · intro h
      obtain ⟨⟨r, hr, haddressed, hmarker⟩, hreadable⟩ := h.resolve_left haccepted
      obtain ⟨row, hrow⟩ := exists_selectFirst hr haddressed
      exact ⟨⟨r, hr, haddressed, hmarker⟩, (readBack_iff hthere hrow put).mpr hreadable⟩

end ReadBack

/-! ## A lock on nothing -/

/-- A bucket without objects. -/
def emptyDocsRun : List Op := [.createBucket "docs" {}]

/-- **A legal hold is acknowledged** for a key that has no version. -/
theorem legalHold_on_nothing :
    ¬ ∀ w, (store executablePlatform).Reachable w → ∀ bucket key versionId put,
      LockAcknowledged w bucket key versionId put := by
  intro hall
  have hack := hall ((store executablePlatform).after {} emptyDocsRun) ⟨emptyDocsRun, rfl⟩ "docs"
    "k" none (.hold .on)
  rcases putLock_cases ((store executablePlatform).after {} emptyDocsRun) "docs" "k" none
    (.hold .on) with ⟨hrefused, -⟩ | ⟨-, hrun⟩
  · rcases hrefused with hmissing | hforbidden
    · exact absurd hmissing (by decide)
    · cases hforbidden
  · rw [LockAcknowledged, hrun] at hack
    obtain ⟨⟨r, hr, -, -⟩, -⟩ := hack
    have hnone : ((store executablePlatform).after {} emptyDocsRun).db.objects = [] := by decide
    rw [hnone] at hr
    cases hr

end Strix

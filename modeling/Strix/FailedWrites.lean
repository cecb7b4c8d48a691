import Strix.LatestVersion

/-!
# Writes whose statements fail

A writer's metadata closure is a list of statements outside any transaction:
one makes room for the new row, one inserts it, and a completion then drops
the upload.  `stepVia P (callFailing j e)` is a call whose closure has its
`j`th statement fail with `e`; what the statements before it did stays.

* `failedWrite_unharmed_iff`: in every reachable state, such a call leaves
  the tables and every read alone exactly when the failing statement is the
  first one, or the insert of a row whose key had none before;
* `failedPut_loses_object`: else the key's object can be gone.
-/

namespace Strix

open AtomicProgram AtomicProgram.Prog MachineRuns RowTable

/-- The statements, with the `j`th one failing. -/
def failAt (j : Nat) (e : SqlError) (statements : List Statement) : List Statement :=
  statements.set j fun _ _ => .error e

/-- A closure that runs statements of which the `j`th one fails. -/
def callFailing (j : Nat) (e : SqlError) (statements : List Statement) : StoreProg Unit :=
  call (failAt j e statements)

/-- A closure whose `j`th statement fails does what the first `j` do. -/
theorem runStatements_failAt {statements : List Statement} {now : DateTime} {db : Db} {j : Nat}
    (e : SqlError) (hj : j < statements.length)
    (hok : (runStatements statements now db).1 = .ok ()) :
    runStatements (failAt j e statements) now db =
      (.error e, (runStatements (statements.take j) now db).2) := by
  induction statements generalizing j db with
  | nil => exact absurd hj (Nat.not_lt_zero j)
  | cons statement rest ih =>
      cases j with
      | zero => rfl
      | succ i =>
          cases hstatement : statement now db with
          | error e' =>
              rw [runStatements_cons_error hstatement] at hok
              cases hok
          | ok db' =>
              rw [runStatements_cons_ok hstatement] at hok
              rw [failAt, List.set_cons_succ, List.take_succ_cons,
                runStatements_cons_ok hstatement, runStatements_cons_ok hstatement]
              exact ih (Nat.lt_of_succ_lt_succ hj) hok

/-- Behind the last statement nothing fails. -/
theorem failAt_of_length_le {statements : List Statement} {j : Nat} (e : SqlError)
    (hj : statements.length ≤ j) : failAt j e statements = statements :=
  List.set_eq_of_length_le hj

/-- Statements that succeed and leave the object rows alone. -/
def SparesObjects (statements : List Statement) : Prop :=
  ∀ statement ∈ statements, ∀ now db, ∃ db', statement now db = .ok db' ∧
    db'.objects = db.objects

theorem SparesObjects.take {statements : List Statement} (h : SparesObjects statements)
    (n : Nat) : SparesObjects (statements.take n) :=
  fun statement hmem => h statement (List.mem_of_mem_take hmem)

theorem SparesObjects.run {statements : List Statement} (h : SparesObjects statements)
    (now : DateTime) (db : Db) :
    ∃ db', runStatements statements now db = (.ok (), db') ∧ db'.objects = db.objects := by
  induction statements generalizing db with
  | nil => exact ⟨db, rfl, rfl⟩
  | cons statement rest ih =>
      obtain ⟨db₁, hstatement, hfirst⟩ := h statement (by simp) now db
      obtain ⟨db₂, hrest, hsecond⟩ := ih (fun s hs => h s (List.mem_cons_of_mem _ hs)) db₁
      exact ⟨db₂, (runStatements_cons_ok hstatement).trans hrest, hsecond.trans hfirst⟩

variable (P : Platform)

/-- One call, given how the closures that insert an object row run. -/
def stepVia (closure : List Statement → StoreProg Unit) (w : World) :
    Op → Except Error Reply × World
  | .putObject bucket key body opts =>
      answering .put ((putObjectVia P closure bucket key body opts).run w)
  | .copyObject srcBucket srcKey dstBucket dstKey opts =>
      answering .copied ((copyObjectVia P closure srcBucket srcKey dstBucket dstKey opts).run w)
  | .completeMultipartUpload upload parts =>
      answering .put ((completeMultipartUploadVia P closure upload parts).run w)
  | .deleteObject bucket key =>
      answering (fun _ => .done) ((deleteObjectVia P closure bucket key).run w)
  | .deleteObjectVersion bucket key versionId =>
      answering .deleted ((deleteObjectVersionVia P closure bucket key versionId).run w)
  | op => step P w op

/-- With closures that do not fail it is the store's own step. -/
theorem stepVia_call (w : World) (op : Op) : stepVia P call w op = step P w op := by
  cases op <;> rfl

/-- The calls whose closures may insert an object row: the three writers and
the deletes without a version id. -/
def Op.CanInsert : Op → Prop
  | .putObject .. => True
  | .copyObject .. => True
  | .completeMultipartUpload .. => True
  | .deleteObject .. => True
  | .deleteObjectVersion _ _ none => True
  | _ => False

/-- The call comes to its closure and inserts a row of this key: a new version
or a delete marker. -/
def Op.Inserts (w : World) (op : Op) (bucket key : String) : Prop :=
  op.Writes P w bucket key ∨
    ((op = .deleteObject bucket key ∨ op = .deleteObjectVersion bucket key none) ∧
      MarkAccepted w bucket key)

/-- How many statements the closure has. -/
def Op.statements : Op → Nat
  | .completeMultipartUpload .. => 4
  | _ => 2

/-- **A write has done no harm:** the tables are as before, and every object
reads as before. -/
structure Unharmed (w w' : World) : Prop where
  objects : w'.db.objects = w.db.objects
  parts : w'.db.parts = w.db.parts
  uploads : w'.db.uploads = w.db.uploads
  readable : ∀ bucket key opts,
    ((getObject P bucket key opts).run w').1 = ((getObject P bucket key opts).run w).1

/-- **The condition:** if the call comes to its closure, the failing statement
is the first one, or it is the insert and the key has no row, or the closure
has no such statement. -/
def FailsCleanly (w : World) (j : Nat) (op : Op) : Prop :=
  ∀ bucket key, op.Inserts P w bucket key →
    j = 0 ∨ (j = 1 ∧ ∀ r ∈ w.db.objects, atKey bucket key r = false) ∨ op.statements ≤ j

variable {P}

/-- The same tables and the same blobs of their rows read the same. -/
theorem Unharmed.of_db {w w' : World} (hdb : w'.db = w.db)
    (hblobs : ∀ r ∈ w.db.objects, w'.files.objects r.id = w.files.objects r.id) :
    Unharmed P w w' where
  objects := by rw [hdb]
  parts := by rw [hdb]
  uploads := by rw [hdb]
  readable := by
    intro bucket key opts
    rw [getObject_run, getObject_run, hdb]
    cases hselect : selectObject bucket key opts.versionId w.db with
    | none => rfl
    | some row => simp only [hblobs row (selectObject_some hselect).1]

theorem Unharmed.refl (w : World) : Unharmed P w w :=
  .of_db rfl fun _ _ => rfl

theorem Unharmed.drawn (w : World) (n : Nat) : Unharmed P w { w with draws := n } :=
  .of_db rfl fun _ _ => rfl

/-! ## At the closure -/

/-- **A call at its closure.**  It has changed nothing that a read sees, and
runs a statement that makes room for a row of the key, the insert of the row
and statements that leave the object rows alone. -/
inductive AtClosure (w : World)
    (run : (List Statement → StoreProg Unit) → Except Error Reply × World)
    (bucket key : String) (count : Nat) : Prop
  | intro {α : Type} {w' : World} {first : Statement} {rows : List ObjectRow}
      {row : DateTime → ObjectRow} {rest : List Statement} {finish : StoreProg α}
      {wrap : α → Reply} (hcount : count = rest.length + 2) (hdb : w'.db = w.db)
      (hnow : w'.now = w.now)
      (hblobs : ∀ r ∈ w.db.objects, w'.files.objects r.id = w.files.objects r.id)
      (hfirst : first w.now w.db = .ok { w.db with objects := rows })
      (hrows : rows = w.db.objects ↔ ∀ r ∈ w.db.objects, atKey bucket key r = false)
      (hinsert : insertObject row w.now { w.db with objects := rows } =
        .ok { w.db with objects := insertRow (row w.now.seconds) rows })
      (hfresh : ∀ r ∈ w.db.objects, r.id ≠ (row w.now.seconds).id)
      (hrest : SparesObjects rest) (hfinish : ∀ u, ∃ a v, finish.run u = (.ok a, v))
      (hrun : ∀ closure, run closure = answering wrap
        ((closure (first :: insertObject row :: rest) >>= fun _ => finish).run w')) :
      AtClosure w run bucket key count

/-- **A failing statement does no harm exactly when those before it have
changed nothing.** -/
theorem AtClosure.unharmed_iff {w : World}
    {run : (List Statement → StoreProg Unit) → Except Error Reply × World}
    {bucket key : String} {count : Nat} (h : AtClosure w run bucket key count) (j : Nat)
    (e : SqlError) :
    (∀ err, (run (callFailing j e)).1 = .error err →
        Unharmed P w (run (callFailing j e)).2) ↔
      j = 0 ∨ (j = 1 ∧ ∀ r ∈ w.db.objects, atKey bucket key r = false) ∨ count ≤ j := by
  obtain @⟨α, w', first, rows, row, rest, finish, wrap, hcount, hdb, hnow, hblobs, hfirst, hrows,
    hinsert, hfresh, hrest, hfinish, hrun⟩ := h
  have hlength : (first :: insertObject row :: rest).length = count := by simp [hcount]
  obtain ⟨db', hwhole, -⟩ := hrest.run w.now
    { w.db with objects := insertRow (row w.now.seconds) rows }
  have hok : runStatements (first :: insertObject row :: rest) w.now w.db = (.ok (), db') := by
    rw [runStatements_cons_ok hfirst, runStatements_cons_ok hinsert, hwhole]
  rcases Nat.lt_or_ge j count with hlt | hge
  · have hfails : run (callFailing j e) = (.error (dbErr e), { w' with
        db := (runStatements ((first :: insertObject row :: rest).take j) w.now w.db).2 }) := by
      have hcall := runStatements_failAt e (hlength ▸ hlt) (congrArg Prod.fst hok)
      rw [hrun, callFailing]
      simp [run_bind, answering, Except.map, hdb, hnow, hcall]
    rw [hfails]
    have hiff : (∀ err, (Except.error (dbErr e) : Except Error Reply) = .error err →
        Unharmed P w { w' with
          db := (runStatements ((first :: insertObject row :: rest).take j) w.now w.db).2 }) ↔
        Unharmed P w { w' with
          db := (runStatements ((first :: insertObject row :: rest).take j) w.now w.db).2 } :=
      ⟨fun hall => hall _ rfl, fun hun _ _ => hun⟩
    rw [hiff]
    cases j with
    | zero => exact iff_of_true (.of_db rfl hblobs) (Or.inl rfl)
    | succ i =>
        cases i with
        | zero =>
            -- The insert fails: what made room for it stays.
            have hleft : runStatements ((first :: insertObject row :: rest).take 1) w.now w.db =
                (.ok (), { w.db with objects := rows }) := runStatements_cons_ok hfirst
            rw [hleft]
            constructor
            · intro hun
              exact Or.inr (Or.inl ⟨rfl, hrows.mp hun.objects⟩)
            · rintro (h0 | ⟨-, hnone⟩ | hle)
              · cases h0
              · refine .of_db ?_ hblobs
                show { w.db with objects := rows } = w.db
                rw [hrows.mpr hnone]
              · exact absurd hle (Nat.not_le_of_lt hlt)
        | succ n =>
            -- A later statement fails: the new row stays.
            obtain ⟨db₂, hleft, hobjects⟩ := (hrest.take n).run w.now
              { w.db with objects := insertRow (row w.now.seconds) rows }
            have htake : runStatements ((first :: insertObject row :: rest).take (n + 2)) w.now
                w.db = (.ok (), db₂) := by
              rw [List.take_succ_cons, List.take_succ_cons, runStatements_cons_ok hfirst,
                runStatements_cons_ok hinsert, hleft]
            rw [htake]
            refine iff_of_false (fun hun => ?_) ?_
            · have hmem : row w.now.seconds ∈ w.db.objects := by
                have hnew : insertRow (row w.now.seconds) rows = w.db.objects :=
                  hobjects.symm.trans hun.objects
                rw [← hnew]
                exact mem_insertRow.mpr (Or.inr rfl)
              exact hfresh _ hmem rfl
            · rintro (h0 | ⟨h1, -⟩ | hle)
              · cases h0
              · cases h1
              · exact absurd hle (Nat.not_le_of_lt hlt)
  · refine iff_of_true (fun err herr => ?_) (Or.inr (Or.inr hge))
    obtain ⟨a, v, hlast⟩ := hfinish { w' with
      db := db'
      now := w.now }
    rw [hrun, callFailing, failAt_of_length_le e (hlength ▸ hge)] at herr
    simp [run_bind, answering, Except.map, hdb, hnow, hok, hlast] at herr

/-- A key of which no row is flagged has no row. -/
theorem key_empty_of_unflagged {w : World} (h : SomeLatest w) {bucket key : String}
    (hno : ∀ r ∈ history bucket key w.db, r.isLatest = false) :
    ∀ r ∈ w.db.objects, atKey bucket key r = false := by
  intro r hr
  rw [Bool.eq_false_iff]
  intro hat
  have hne : history bucket key w.db ≠ [] :=
    List.ne_nil_of_mem (List.mem_filter.mpr ⟨hr, hat⟩)
  obtain ⟨latest, hmem, hlatest⟩ := h bucket key hne
  rw [hno latest hmem] at hlatest
  cases hlatest

/-- Making room changes nothing exactly when the key has no row. -/
theorem roomMade_eq_self_iff {w : World} (h : SomeLatest w) (status : VersioningStatus)
    (bucket key : String) :
    roomMade status bucket key w.db.objects = w.db.objects ↔
      ∀ r ∈ w.db.objects, atKey bucket key r = false := by
  constructor
  · intro heq
    apply key_empty_of_unflagged h
    intro r hr
    rw [history, ← heq] at hr
    exact roomMade_unflagged r hr
  · intro hnone
    unfold roomMade
    by_cases henabled : status = .enabled
    · rw [if_pos henabled]
      exact updateRows_eq_self hnone
    · rw [if_neg henabled]
      exact deleteRows_eq_self hnone

/-- Taking the flag from the latest rows changes nothing exactly when the key
has no row. -/
theorem demoted_eq_self_iff {w : World} (h : SomeLatest w) (bucket key : String) :
    updateRows (atLatest bucket key) ObjectRow.demote w.db.objects = w.db.objects ↔
      ∀ r ∈ w.db.objects, atKey bucket key r = false := by
  constructor
  · intro heq
    apply key_empty_of_unflagged h
    intro r hr
    rw [history, ← heq] at hr
    exact demoted_unflagged r hr
  · intro hnone
    apply updateRows_eq_self
    intro r hr
    rw [atLatest, hnone r hr, Bool.false_and]

/-! ## The writers -/

/-- The closure of a writer of a new version, whatever follows the insert. -/
theorem atClosure_install {α : Type} {w : World} (hw : WellFormed P w) (hl : SomeLatest w)
    {run : (List Statement → StoreProg Unit) → Except Error Reply × World}
    {status : VersioningStatus} {bucket key : String} {row : DateTime → ObjectRow}
    {data : Bytes} {n : Nat} {rest : List Statement} {finish : StoreProg α} {wrap : α → Reply}
    (hstatus : versioningStatus bucket w.db = some status)
    (hid : (row w.now.seconds).id = P.ulid w.draws)
    (hbucket : (row w.now.seconds).bucket = bucket)
    (hrest : SparesObjects rest) (hfinish : ∀ u, ∃ a v, finish.run u = (.ok a, v))
    (hrun : ∀ closure, run closure = answering wrap
      ((closure (makeRoom status bucket key :: insertObject row :: rest) >>= fun _ =>
        finish).run (w.withBlob (P.ulid w.draws) data n))) :
    AtClosure w run bucket key (rest.length + 2) := by
  obtain ⟨b, hb, hname, -⟩ := versioningStatus_bucket hstatus
  have hfresh : ∀ r ∈ w.db.objects, r.id ≠ (row w.now.seconds).id := by
    intro r hr
    rw [hid]
    exact hw.ids.fresh (Nat.le_refl _) hr
  have hdb : (w.withBlob (P.ulid w.draws) data n).db = w.db := rfl
  refine .intro rfl hdb rfl ?_ (makeRoom_ok status bucket key w.now w.db)
    (roomMade_eq_self_iff hl status bucket key) ?_ hfresh hrest hfinish hrun
  · intro r hr
    exact Function.update_of_ne (hw.ids.fresh (Nat.le_refl _) hr) _ _
  · refine insertObject_ok (fun r hr => ?_) ⟨b, hb, hname.trans hbucket.symm⟩
    obtain ⟨old, hold, rfl | ⟨rfl, -⟩⟩ := mem_roomMade hr
    · exact hfresh r hold
    · exact hfresh old hold

/-- The closure of a soft delete. -/
theorem atClosure_mark {w : World} (hw : WellFormed P w) (hl : SomeLatest w)
    {run : (List Statement → StoreProg Unit) → Except Error Reply × World}
    {bucket key : String} {wrap : DeleteObjectResponse → Reply}
    {response : DeleteObjectResponse} (haccepted : MarkAccepted w bucket key)
    (hrun : ∀ closure, run closure = answering wrap
      ((closure [updateObjects (atLatest bucket key) ObjectRow.demote,
          insertObject (deleteMarkerRow bucket key (P.ulid w.draws))] >>= fun _ =>
        done response).run { w with draws := w.draws + 1 })) :
    AtClosure w run bucket key 2 := by
  obtain ⟨⟨status, hstatus, -⟩, -⟩ := haccepted
  obtain ⟨b, hb, hname, -⟩ := versioningStatus_bucket hstatus
  have hfresh : ∀ r ∈ w.db.objects,
      r.id ≠ (deleteMarkerRow bucket key (P.ulid w.draws) w.now.seconds).id :=
    fun r hr => hw.ids.fresh (Nat.le_refl _) hr
  have hdb : ({ w with draws := w.draws + 1 } : World).db = w.db := rfl
  refine .intro rfl hdb rfl (fun _ _ => rfl) rfl (demoted_eq_self_iff hl bucket key) ?_ hfresh
    (fun s hs => absurd hs List.not_mem_nil) (fun u => ⟨response, u, rfl⟩) hrun
  refine insertObject_ok (fun r hr => ?_) ⟨b, hb, hname⟩
  obtain ⟨old, hold, rfl⟩ := mem_updateRows.mp hr
  by_cases hp : atLatest bucket key old = true
  · rw [if_pos hp]
    exact hfresh old hold
  · rw [if_neg hp]
    exact hfresh old hold

theorem deleteObjectVia_run (closure : List Statement → StoreProg Unit) (w : World)
    (bucket key : String) :
    answering (fun _ => Reply.done) ((deleteObjectVia P closure bucket key).run w) =
      answering (fun _ => Reply.done)
        ((deleteObjectVersionVia P closure bucket key none).run w) := by
  rw [deleteObjectVia, run_bind]
  rcases (deleteObjectVersionVia P closure bucket key none).run w with ⟨_ | _, w'⟩ <;> rfl

/-- A delete without a version id, whichever of the two calls asked for it. -/
theorem delete_atClosure {w : World} (hw : WellFormed P w) (hl : SomeLatest w)
    {op : Op} {bucket key : String} {wrap : DeleteObjectResponse → Reply}
    (hop : op = .deleteObject bucket key ∨ op = .deleteObjectVersion bucket key none)
    (hstatements : op.statements = 2)
    (hrun : ∀ closure, stepVia P closure w op =
      answering wrap ((deleteObjectVersionVia P closure bucket key none).run w)) :
    ((∀ b k, ¬ op.Inserts P w b k) ∧ ∀ closure err,
        (stepVia P closure w op).1 = .error err → Unharmed P w (stepVia P closure w op).2) ∨
      ∃ b k, op.Inserts P w b k ∧ (∀ b' k', op.Inserts P w b' k' → b' = b ∧ k' = k) ∧
        AtClosure w (fun closure => stepVia P closure w op) b k op.statements := by
  have honly : ∀ b k, op.Inserts P w b k → (b = bucket ∧ k = key) ∧ MarkAccepted w b k := by
    rintro b k (hwrites | ⟨hsame, haccepted⟩)
    · rcases hop with rfl | rfl <;> exact hwrites.elim
    · rcases hop with rfl | rfl <;> rcases hsame with hsame | hsame <;> cases hsame <;>
        exact ⟨⟨rfl, rfl⟩, haccepted⟩
  rcases deleteObjectVersionVia_cases (P := P) w bucket key with
    ⟨hno, outcome, hclean, hcases⟩ | ⟨haccepted, hcases⟩
  · refine Or.inl ⟨fun b k hinserts => ?_, fun closure err herr => ?_⟩
    · obtain ⟨⟨rfl, rfl⟩, hyes⟩ := honly b k hinserts
      exact hno hyes
    · rw [hrun, hcases] at herr ⊢
      have houtcome : ∃ e, outcome.1 = .error e := by
        cases ho : outcome.1 with
        | error e => exact ⟨e, rfl⟩
        | ok a =>
            rw [answering, ho] at herr
            cases herr
      obtain ⟨e, he⟩ := houtcome
      rw [answering, hclean e he]
      exact .refl w
  · refine Or.inr ⟨bucket, key, Or.inr ⟨hop, haccepted⟩,
      fun b k hinserts => (honly b k hinserts).1, ?_⟩
    rw [hstatements]
    exact atClosure_mark hw hl haccepted fun closure => (hrun closure).trans (by rw [hcases])

/-- **Every call that may insert a row** is refused without harm or comes to
its closure for one key. -/
theorem stepVia_atClosure {w : World} (hw : WellFormed P w) (hl : SomeLatest w) {op : Op}
    (hop : op.CanInsert) :
    ((∀ b k, ¬ op.Inserts P w b k) ∧ ∀ closure err,
        (stepVia P closure w op).1 = .error err → Unharmed P w (stepVia P closure w op).2) ∨
      ∃ b k, op.Inserts P w b k ∧ (∀ b' k', op.Inserts P w b' k' → b' = b ∧ k' = k) ∧
        AtClosure w (fun closure => stepVia P closure w op) b k op.statements := by
  have hnone : SparesObjects [] := fun s hs => absurd hs List.not_mem_nil
  cases op with
  | putObject bucket key body opts =>
      have honly : ∀ b k, (Op.putObject bucket key body opts).Inserts P w b k →
          (b = bucket ∧ k = key) ∧ PutAccepted P w bucket body opts := by
        rintro b k (hwrites | ⟨hdelete | hdelete, -⟩)
        · exact hwrites
        · cases hdelete
        · cases hdelete
      rcases putObjectVia_cases (P := P) w bucket key body opts with
        ⟨hno, e, n, -, hrun⟩ | ⟨hyes, status, sseCKey, content, data, n, -, hstatus, -, -, -, hrun⟩
      · refine Or.inl ⟨fun b k hinserts => hno (honly b k hinserts).2, fun closure err _ => ?_⟩
        rw [stepVia, hrun]
        exact .drawn w n
      · refine Or.inr ⟨bucket, key, Or.inl ⟨⟨rfl, rfl⟩, hyes⟩,
          fun b k hinserts => (honly b k hinserts).1, ?_⟩
        exact atClosure_install hw hl hstatus rfl rfl hnone (fun u => ⟨_, u, rfl⟩)
          fun closure => by rw [stepVia, hrun]
  | copyObject srcBucket srcKey dstBucket dstKey opts =>
      have honly : ∀ b k, (Op.copyObject srcBucket srcKey dstBucket dstKey opts).Inserts P w b k →
          (b = dstBucket ∧ k = dstKey) ∧ CopyAccepted P w srcBucket srcKey dstBucket := by
        rintro b k (hwrites | ⟨hdelete | hdelete, -⟩)
        · exact hwrites
        · cases hdelete
        · cases hdelete
      rcases copyObjectVia_cases (P := P) w srcBucket srcKey dstBucket dstKey opts with
        ⟨hno, e, n, -, hrun⟩ | ⟨hyes, status, src, blob, data, n, -, hstatus, -, -, -, -, hrun⟩
      · refine Or.inl ⟨fun b k hinserts => hno (honly b k hinserts).2, fun closure err _ => ?_⟩
        rw [stepVia, hrun]
        exact .drawn w n
      · refine Or.inr ⟨dstBucket, dstKey, Or.inl ⟨⟨rfl, rfl⟩, hyes⟩,
          fun b k hinserts => (honly b k hinserts).1, ?_⟩
        exact atClosure_install hw hl hstatus rfl rfl hnone (fun u => ⟨_, u, rfl⟩)
          fun closure => by rw [stepVia, hrun]
  | completeMultipartUpload upload parts =>
      have honly : ∀ b k, (Op.completeMultipartUpload upload parts).Inserts P w b k →
          (Op.completeMultipartUpload upload parts).Writes P w b k := by
        rintro b k (hwrites | ⟨hdelete | hdelete, -⟩)
        · exact hwrites
        · cases hdelete
        · cases hdelete
      rcases completeMultipartUploadVia_cases (P := P) w upload parts with
        ⟨hno, e, n, -, hrun⟩ |
          ⟨hyes, status, uploadMeta, plaintext, data, n, -, hstatus, hmeta, -, -, hrun⟩
      · refine Or.inl ⟨fun b k hinserts => hno (honly b k hinserts).2, fun closure err _ => ?_⟩
        rw [stepVia, hrun]
        exact .drawn w n
      · have hwrites : (Op.completeMultipartUpload upload parts).Writes P w uploadMeta.bucket
            uploadMeta.key := ⟨⟨uploadMeta, hmeta, rfl, rfl⟩, hyes⟩
        refine Or.inr ⟨uploadMeta.bucket, uploadMeta.key, Or.inl hwrites,
          fun b k hinserts => hwrites.targets.unique (honly b k hinserts).targets, ?_⟩
        have hrest : SparesObjects [deleteParts (·.uploadId == upload.uploadId),
            deleteUpload upload.uploadId] := by
          intro statement hstatement now db
          rcases List.mem_cons.mp hstatement with rfl | hstatement
          · exact ⟨_, rfl, rfl⟩
          · obtain rfl := List.mem_singleton.mp hstatement
            exact ⟨_, rfl, rfl⟩
        exact atClosure_install hw hl hstatus rfl rfl hrest (fun u => ⟨_, _, rfl⟩)
          fun closure => by rw [stepVia, hrun]
  | deleteObject bucket key =>
      exact delete_atClosure hw hl (Or.inl rfl) rfl
        fun closure => deleteObjectVia_run closure w bucket key
  | deleteObjectVersion bucket key versionId =>
      cases versionId with
      | some vid => exact hop.elim
      | none => exact delete_atClosure hw hl (Or.inr rfl) rfl fun closure => rfl
  | _ => exact hop.elim

/-- **A write of which one statement fails is all or nothing exactly when
nothing was done before that statement.** -/
theorem failedWrite_unharmed_iff {w : World} (hw : (store P).Reachable w) (j : Nat)
    (e : SqlError) {op : Op} (hop : op.CanInsert) :
    (∀ err, (stepVia P (callFailing j e) w op).1 = .error err →
        Unharmed P w (stepVia P (callFailing j e) w op).2) ↔
      FailsCleanly P w j op := by
  rcases stepVia_atClosure (wellFormed_reachable hw) (someLatest_reachable hw) hop with
    ⟨hno, hclean⟩ | ⟨bucket, key, hinserts, honly, hat⟩
  · exact iff_of_true (hclean _) fun b k hinserts => absurd hinserts (hno b k)
  · rw [hat.unharmed_iff j e]
    constructor
    · intro hcases b k hinserts'
      obtain ⟨rfl, rfl⟩ := honly b k hinserts'
      exact hcases
    · intro hcond
      exact hcond bucket key hinserts

/-! ## A full disk -/

/-- One object in a bucket that was never versioned. -/
def oneObject : List Op := [.createBucket "docs" {}, .putObject "docs" "k" [.ok [97]] {}]

def oneObjectWorld : World :=
  (store executablePlatform).after (store executablePlatform).init oneObject

def diskFull : SqlError := .fault "database or disk is full"

/-- The insert of a second key's object fails and leaves everything as it was. -/
theorem failedWrite_unharmed_otherKey :
    Unharmed executablePlatform oneObjectWorld
      (stepVia executablePlatform (callFailing 1 diskFull) oneObjectWorld
        (.putObject "docs" "l" [.ok [98]] {})).2 := by
  have hop : (Op.putObject "docs" "l" [.ok [98]] {}).CanInsert := trivial
  refine (failedWrite_unharmed_iff ⟨oneObject, rfl⟩ 1 diskFull hop).mpr ?_ _ rfl
  rintro bucket key (⟨⟨rfl, rfl⟩, -⟩ | ⟨hdelete | hdelete, -⟩)
  · exact Or.inr (Or.inl ⟨rfl, by decide⟩)
  · cases hdelete
  · cases hdelete

/-- The insert of an overwrite fails, and the object that was there is gone. -/
theorem failedPut_loses_object :
    ¬ ∀ w, (store executablePlatform).Reachable w → ∀ j e (op : Op), op.CanInsert →
      ∀ err, (stepVia executablePlatform (callFailing j e) w op).1 = .error err →
        Unharmed executablePlatform w (stepVia executablePlatform (callFailing j e) w op).2 := by
  intro h
  have hfails : (stepVia executablePlatform (callFailing 1 diskFull) oneObjectWorld
      (.putObject "docs" "k" [.ok [98]] {})).1 = .error (dbErr diskFull) := by rfl
  have hun := h oneObjectWorld ⟨oneObject, rfl⟩ 1 diskFull
    (.putObject "docs" "k" [.ok [98]] {}) trivial _ hfails
  have hthere : oneObjectWorld.db.objects ≠ (stepVia executablePlatform
      (callFailing 1 diskFull) oneObjectWorld
      (.putObject "docs" "k" [.ok [98]] {})).2.db.objects := by decide
  exact hthere hun.objects.symm

end Strix

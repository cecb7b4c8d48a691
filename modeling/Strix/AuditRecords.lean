import Strix.ExecutablePlatform
import Strix.ExplicitDeny
import Strix.S3Audit

/-!
# What the audit log records

Along a sequence of S3 requests every bucket created or deleted, every object
deleted, and every refusal for lack of permission should have an entry of its own.

* `auditComplete_iff`: this holds exactly when no check is left early with a refusal,
  and the ids under which a request logs are new and all different.
-/

namespace Strix

open MachineRuns RowTable

/-! ## Requests one after another -/

/-- A request to the S3 API.  The other operations check authorization, in the
order given and as far as they get, and log nothing else. -/
inductive S3Call
  | createBucket (bucket : String) (region : Option String)
  | deleteBucket (bucket : String)
  | deleteObject (bucket key : String) (versionId : Option String)
  | deleteObjects (bucket : String) (objects : List (String × Option String))
  | other (checks : List Check) (effect : World → World)

structure S3Request where
  caller : Caller
  headers : RawHeaders
  call : S3Call

/-- A request, or time that passes. -/
inductive S3Op
  | request (req : S3Request)
  | tick (nanoseconds : Nat)

variable (P : Platform) (uuid : Nat → String)

/-- A handler, in the context of its request. -/
def S3Call.run (caller : Caller) (ctx : RequestAuditContext) (now : DateTime) (s : ServiceWorld) :
    S3Call → Except S3Error S3Output × ServiceWorld
  | createBucket bucket region => S3Service.createBucket uuid caller ctx now bucket region s
  | deleteBucket bucket => S3Service.deleteBucket uuid caller ctx now bucket s
  | deleteObject bucket key versionId =>
    S3Service.deleteObject P uuid caller ctx now bucket key versionId s
  | deleteObjects bucket objects => S3Service.deleteObjects P uuid caller now bucket objects s
  | other checks effect =>
    match S3Service.authorizeAll uuid caller now checks s with
    | (.error e, s) => (.error e, s)
    | (.ok (), s) => (.ok .other, { s with store := effect s.store })

/-- A request as the server takes it in. -/
def S3Request.serve (req : S3Request) (s : ServiceWorld) :
    Except S3Error S3Output × ServiceWorld :=
  let (ctx, s') := s.requestContext uuid req.headers
  req.call.run P uuid req.caller ctx s.store.now s'

/-- The machine whose runs are sequences of requests. -/
def s3Runs (start : ServiceWorld) :
    Machine ServiceWorld S3Op (Option (Except S3Error S3Output)) where
  init := start
  step s op :=
    match op with
    | .request req =>
      let (answer, s) := req.serve P uuid s
      (some answer, s)
    | .tick nanoseconds =>
      (none, { s with store := { s.store with now := s.store.now + nanoseconds } })

/-! ## What should be recorded -/

/-- The checks of a list that are asked: up to the first that is not passed. -/
def upToRefused (caller : Caller) (now : DateTime) : List Check → List Check
  | [] => []
  | check :: checks =>
    match caller.answer now check with
    | .ok () => check :: upToRefused caller now checks
    | .error _ => [check]

/-- The checks that a handler asks. -/
def S3Call.checks (caller : Caller) (now : DateTime) : S3Call → List Check
  | createBucket bucket _ => [bucketCheck "CreateBucket" bucket]
  | deleteBucket bucket => [bucketCheck "DeleteBucket" bucket]
  | deleteObject bucket key _ => [objectCheck "DeleteObject" bucket key]
  | deleteObjects bucket objects =>
    let whole := bucketCheck "DeleteObjects" bucket
    match caller.answer now whole with
    | .ok () => whole :: objects.map fun object => objectCheck "DeleteObject" bucket object.1
    | .error _ => [whole]
  | other checks _ => upToRefused caller now checks

/-- The operation whose success should be recorded. -/
def S3Call.operation : S3Call → Option Check
  | createBucket bucket _ => some (bucketCheck "CreateBucket" bucket)
  | deleteBucket bucket => some (bucketCheck "DeleteBucket" bucket)
  | deleteObject bucket key _ => some (objectCheck "DeleteObject" bucket key)
  | _ => none

/-- The event of a request that was answered with success. -/
def S3Call.carriedOut (caller : Caller) (now : DateTime) (call : S3Call)
    (answer : Except S3Error S3Output) : List AuditEvent :=
  match call.operation, answer with
  | some check, .ok _ => [successEvent caller now check]
  | _, _ => []

/-- The refusals for lack of permission among checks. -/
def refusalsDue (caller : Caller) (now : DateTime) (checks : List Check) : List AuditEvent :=
  checks.filterMap fun check => (caller.refused now check).map (refusalEvent check)

/-- **What a request should leave in the log**: its refusals for lack of permission,
and its success. -/
def S3Request.due (req : S3Request) (s : ServiceWorld) : List AuditEvent :=
  refusalsDue req.caller s.store.now (req.call.checks req.caller s.store.now) ++
    req.call.carriedOut req.caller s.store.now (req.serve P uuid s).1

/-- The entry is of the event. -/
structure Records (event : AuditEvent) (entry : AuditLogEntry) : Prop where
  operation : entry.operation = event.operation
  bucket : entry.bucket = event.bucket
  key : entry.key = event.key
  principal : entry.principal = event.principal
  status : entry.statusCode = if event.success then 200 else 403

/-- **The request is recorded**: everything that it should leave in the log has an entry
of its own, and the entries before stay. -/
def AuditComplete (s : ServiceWorld) : S3Op → Prop
  | .tick _ => True
  | .request req => ∃ entries, (req.serve P uuid s).2.log = s.log ++ entries ∧
      List.Forall₂ Records (req.due P uuid s) entries

/-! ## What is logged -/

/-- The events that checks log. -/
def refusalsLogged (caller : Caller) (now : DateTime) (checks : List Check) : List AuditEvent :=
  checks.filterMap fun check => (caller.auditedCheck now check).2

/-- The entries of refusals, each under a new UUID. -/
def refusalEntries (now : DateTime) : Nat → List AuditEvent → List AuditLogEntry
  | _, [] => []
  | n, event :: events => auditEntry uuid event none now n :: refusalEntries now (n + 2) events

/-- **The entries that a request makes.** -/
def S3Request.made (req : S3Request) (s : ServiceWorld) : List AuditLogEntry :=
  let (ctx, s') := s.requestContext uuid req.headers
  refusalEntries uuid s.store.now s'.uuids
      (refusalsLogged req.caller s.store.now (req.call.checks req.caller s.store.now)) ++
    (req.call.carriedOut req.caller s.store.now (req.serve P uuid s).1).map
      fun event => auditEntry uuid event (some ctx) s.store.now 0

/-- **Nothing keeps an entry out**: no check of the request is left early with a
refusal, and the ids it logs under are new and all different. -/
structure LogsAll (s : ServiceWorld) (req : S3Request) : Prop where
  spoken : ∀ check ∈ req.call.checks req.caller s.store.now,
    ¬req.caller.LeavesEarly s.store.now check
  distinct : Keyed AuditLogEntry.id (req.made P uuid s)
  fresh : ∀ entry ∈ req.made P uuid s, ∀ row ∈ s.log, row.id ≠ entry.id

/-- The condition on a step. -/
def NothingKeptOut (s : ServiceWorld) : S3Op → Prop
  | .tick _ => True
  | .request req => LogsAll P uuid s req

section Checks

variable {P uuid} {caller : Caller} {now : DateTime} {check : Check} {s : ServiceWorld}

/-- A check that is passed logs nothing. -/
theorem event_none_of_ok (h : (caller.auditedCheck now check).1 = .ok ()) :
    (caller.auditedCheck now check).2 = none := by
  obtain ⟨hanswer, hcases⟩ := auditedCheck_cases caller now check
  rcases hcases with ⟨username, hrefused, -, -⟩ | ⟨hnone, -⟩
  · rw [hanswer] at h
    unfold Caller.refused at hrefused
    rw [h] at hrefused
    split at hrefused
    · rename_i heq
      cases heq
    · cases hrefused
  · exact hnone

/-- The log after a check. -/
theorem authorize_log (uuid : Nat → String) (caller : Caller) (now : DateTime) (check : Check)
    (s : ServiceWorld) :
    (s.authorize uuid caller now check).2.log =
        logRows AuditLogEntry.id
          (refusalEntries uuid now s.uuids (refusalsLogged caller now [check])) s.log ∧
      ∀ more, refusalEntries uuid now s.uuids (refusalsLogged caller now (check :: more)) =
        refusalEntries uuid now s.uuids (refusalsLogged caller now [check]) ++
          refusalEntries uuid now (s.authorize uuid caller now check).2.uuids
            (refusalsLogged caller now more) := by
  unfold ServiceWorld.authorize refusalsLogged
  cases hevent : (caller.auditedCheck now check).2 with
  | none => exact ⟨by simp [hevent, refusalEntries], fun more => by simp [hevent, refusalEntries]⟩
  | some event =>
      refine ⟨?_, fun more => ?_⟩
      · simp [hevent, refusalEntries, ServiceWorld.logAudit, logAuditEvent_snd]
      · simp [hevent, refusalEntries, ServiceWorld.logAudit]

/-- A check that is passed leaves the service as it was. -/
theorem authorize_ok (h : (s.authorize uuid caller now check).1 = .ok ()) :
    (s.authorize uuid caller now check).2 = s := by
  have hnone := event_none_of_ok h
  simp [ServiceWorld.authorize, hnone]

/-- The log after the checks of a handler that stops at the first that is not passed. -/
theorem authorizeAll_log (uuid : Nat → String) (caller : Caller) (now : DateTime)
    (checks : List Check) (s : ServiceWorld) :
    (S3Service.authorizeAll uuid caller now checks s).2.log =
      logRows AuditLogEntry.id (refusalEntries uuid now s.uuids
        (refusalsLogged caller now (upToRefused caller now checks))) s.log := by
  induction checks generalizing s with
  | nil => rfl
  | cons check checks ih =>
      obtain ⟨hlog, happend⟩ := authorize_log uuid caller now check s
      have hanswer : (s.authorize uuid caller now check).1 = caller.answer now check :=
        (auditedCheck_cases caller now check).1
      unfold S3Service.authorizeAll upToRefused
      cases hcheck : caller.answer now check with
      | error e =>
          rw [hcheck] at hanswer
          rw [← hlog]
          split
          · rename_i heq
            rw [heq]
          · rename_i heq
            rw [heq] at hanswer
            cases hanswer
      | ok _ =>
          rw [hcheck] at hanswer
          have hsame := authorize_ok hanswer
          split
          · rename_i heq
            rw [heq] at hanswer
            cases hanswer
          · rename_i after heq
            rw [heq] at hlog happend hsame
            simp only at hlog happend hsame
            subst hsame
            rw [ih, happend, logRows_append, ← hlog]

/-- The log after the loop of `delete_objects`. -/
theorem deleteEach_log (caller : Caller) (now : DateTime) (bucket : String)
    (objects : List (String × Option String)) (s : ServiceWorld) :
    (S3Service.deleteEach P uuid caller now bucket objects s).2.log =
      logRows AuditLogEntry.id (refusalEntries uuid now s.uuids
        (refusalsLogged caller now
          (objects.map fun object => objectCheck "DeleteObject" bucket object.1))) s.log := by
  induction objects generalizing s with
  | nil => rfl
  | cons object objects ih =>
      obtain ⟨key, versionId⟩ := object
      obtain ⟨hlog, happend⟩ := authorize_log uuid caller now
        (objectCheck "DeleteObject" bucket key) s
      rw [List.map_cons, happend, logRows_append, ← hlog]
      unfold S3Service.deleteEach
      split
      · rename_i e after heq
        rw [heq]
        exact ih after
      · rename_i after heq
        rw [heq]
        cases hrun : (deleteObjectVersion P bucket key versionId).run after.store with
        | mk result w =>
            cases result with
            | ok response => exact ih { after with store := w }
            | error e => exact ih { after with store := w }

/-- **The log after an operation that is logged**: its refusal, or its success. -/
theorem auditedCall_log {α : Type} (uuid : Nat → String) (caller : Caller)
    (ctx : RequestAuditContext) (now : DateTime) (check : Check) (call : StoreProg α)
    (s : ServiceWorld) :
    (auditedCall uuid caller ctx now check call s).2.log =
      logRows AuditLogEntry.id
        (refusalEntries uuid now s.uuids (refusalsLogged caller now [check]) ++
          match (auditedCall uuid caller ctx now check call s).1 with
          | .ok _ => [auditEntry uuid (successEvent caller now check) (some ctx) now 0]
          | .error _ => []) s.log := by
  obtain ⟨hlog, -⟩ := authorize_log uuid caller now check s
  unfold auditedCall
  split
  · rename_i e after heq
    rw [heq] at hlog
    rw [List.append_nil]
    exact hlog
  · rename_i after heq
    have hpassed : (s.authorize uuid caller now check).1 = .ok () := congrArg Prod.fst heq
    have hsame := authorize_ok hpassed
    rw [heq] at hlog hsame
    simp only at hlog hsame
    subst hsame
    rw [logRows_append, ← hlog]
    cases hrun : call.run after.store with
    | mk result w =>
        cases result with
        | ok a => exact logAuditEvent_snd _ _
        | error e => rfl

end Checks

/-- **The log after a handler**: the refusals of its checks, and its success. -/
theorem run_log (call : S3Call) (caller : Caller) (ctx : RequestAuditContext) (now : DateTime)
    (s : ServiceWorld) :
    (call.run P uuid caller ctx now s).2.log =
      logRows AuditLogEntry.id
        (refusalEntries uuid now s.uuids
            (refusalsLogged caller now (call.checks caller now)) ++
          (call.carriedOut caller now (call.run P uuid caller ctx now s).1).map
            fun event => auditEntry uuid event (some ctx) now 0) s.log := by
  cases call with
  | createBucket bucket region =>
      have hlog := auditedCall_log uuid caller ctx now (bucketCheck "CreateBucket" bucket)
        (Strix.createBucket bucket { region }) s
      simp only [S3Call.run, S3Service.createBucket]
      cases hcall : auditedCall uuid caller ctx now (bucketCheck "CreateBucket" bucket)
          (Strix.createBucket bucket { region }) s with
      | mk result after =>
          rw [hcall] at hlog
          cases result <;> exact hlog
  | deleteBucket bucket =>
      have hlog := auditedCall_log uuid caller ctx now (bucketCheck "DeleteBucket" bucket)
        (Strix.deleteBucket bucket) s
      simp only [S3Call.run, S3Service.deleteBucket]
      cases hcall : auditedCall uuid caller ctx now (bucketCheck "DeleteBucket" bucket)
          (Strix.deleteBucket bucket) s with
      | mk result after =>
          rw [hcall] at hlog
          cases result <;> exact hlog
  | deleteObject bucket key versionId =>
      have hlog := auditedCall_log uuid caller ctx now (objectCheck "DeleteObject" bucket key)
        (deleteObjectVersion P bucket key versionId) s
      simp only [S3Call.run, S3Service.deleteObject]
      cases hcall : auditedCall uuid caller ctx now (objectCheck "DeleteObject" bucket key)
          (deleteObjectVersion P bucket key versionId) s with
      | mk result after =>
          rw [hcall] at hlog
          cases result <;> exact hlog
  | deleteObjects bucket objects =>
      obtain ⟨hlog, happend⟩ := authorize_log uuid caller now (bucketCheck "DeleteObjects" bucket) s
      have hanswer : (s.authorize uuid caller now (bucketCheck "DeleteObjects" bucket)).1 =
          caller.answer now (bucketCheck "DeleteObjects" bucket) :=
        (auditedCheck_cases caller now _).1
      simp only [S3Call.run, S3Service.deleteObjects, S3Call.checks, S3Call.carriedOut,
        S3Call.operation, List.map_nil, List.append_nil]
      cases hcheck : s.authorize uuid caller now (bucketCheck "DeleteObjects" bucket) with
      | mk result after =>
          rw [hcheck] at hlog happend hanswer
          cases result with
          | error e =>
              rw [← hanswer]
              exact hlog
          | ok _ =>
              have hpassed : (s.authorize uuid caller now (bucketCheck "DeleteObjects" bucket)).1 =
                  .ok () := congrArg Prod.fst hcheck
              have hsame := authorize_ok hpassed
              rw [← hanswer]
              simp only
              rw [happend, logRows_append, ← hlog]
              exact deleteEach_log caller now bucket objects after
  | other checks effect =>
      have hlog := authorizeAll_log uuid caller now checks s
      simp only [S3Call.run, S3Call.checks, S3Call.carriedOut,
        S3Call.operation, List.map_nil, List.append_nil]
      cases hchecks : S3Service.authorizeAll uuid caller now checks s with
      | mk result after =>
          rw [hchecks] at hlog
          cases result <;> exact hlog

/-- The log after a request. -/
theorem serve_log (req : S3Request) (s : ServiceWorld) :
    (req.serve P uuid s).2.log = logRows AuditLogEntry.id (req.made P uuid s) s.log := by
  have hkeeps : (s.requestContext uuid req.headers).2.log = s.log := by
    unfold ServiceWorld.requestContext
    split <;> rfl
  unfold S3Request.serve S3Request.made
  rw [run_log, hkeeps]
  rfl

/-! ## What gets in -/

/-- The entries of refusals are theirs. -/
theorem refusalEntries_records (now : DateTime) (n : Nat) (events : List AuditEvent) :
    List.Forall₂ Records events (refusalEntries uuid now n events) := by
  induction events generalizing n with
  | nil => exact .nil
  | cons event events ih => exact .cons ⟨rfl, rfl, rfl, rfl, rfl⟩ (ih (n + 2))

/-- **The entries that a request makes** are those of its logged refusals and its
success. -/
theorem made_records (req : S3Request) (s : ServiceWorld) :
    List.Forall₂ Records
      (refusalsLogged req.caller s.store.now (req.call.checks req.caller s.store.now) ++
        req.call.carriedOut req.caller s.store.now (req.serve P uuid s).1)
      (req.made P uuid s) := by
  refine List.rel_append (refusalEntries_records uuid _ _ _) ?_
  rw [List.forall₂_map_right_iff, List.forall₂_same]
  intro event _
  exact ⟨rfl, rfl, rfl, rfl, rfl⟩

/-- A check logs its refusal, or it is left early. -/
theorem auditedCheck_logs (caller : Caller) (now : DateTime) (check : Check) :
    (caller.auditedCheck now check).2 =
        (caller.refused now check).map (refusalEvent check) ∧
        ¬caller.LeavesEarly now check ∨
      (caller.auditedCheck now check).2 = none ∧
        (∃ event, (caller.refused now check).map (refusalEvent check) = some event) ∧
        caller.LeavesEarly now check := by
  obtain ⟨-, hcases⟩ := auditedCheck_cases caller now check
  rcases hcases with ⟨username, hrefused, hevent, hstays⟩ | ⟨hnone, hearly⟩
  · left
    rw [hrefused]
    exact ⟨hevent, hstays⟩
  · cases hrefused : caller.refused now check with
    | none =>
        left
        rw [hrefused] at hearly
        exact ⟨hnone, fun h => by simpa using hearly.mpr h⟩
    | some username =>
        right
        rw [hrefused] at hearly
        exact ⟨hnone, ⟨refusalEvent check username, rfl⟩, hearly.mp rfl⟩

/-- **What is logged of what is due**: some of it, and all of it exactly if no check
is left early. -/
theorem refusalsLogged_due (caller : Caller) (now : DateTime) (checks : List Check) :
    (refusalsLogged caller now checks).Sublist (refusalsDue caller now checks) ∧
      (refusalsLogged caller now checks = refusalsDue caller now checks ↔
        ∀ check ∈ checks, ¬caller.LeavesEarly now check) :=
  filterMap_eq_iff_no_gap (auditedCheck_logs caller now) checks

/-- **A request is recorded exactly if nothing keeps an entry out.** -/
theorem auditComplete_request_iff (req : S3Request) (s : ServiceWorld) :
    AuditComplete P uuid s (.request req) ↔ NothingKeptOut P uuid s (.request req) := by
  have hmade := made_records P uuid req s
  obtain ⟨hsub, hdue⟩ := refusalsLogged_due req.caller s.store.now
    (req.call.checks req.caller s.store.now)
  obtain ⟨kept, hlog, hkept, hall⟩ :=
    exists_logRows_eq AuditLogEntry.id (req.made P uuid s) s.log
  rw [← serve_log] at hlog
  constructor
  · intro hcomplete
    obtain ⟨entries, hentries, hrecords⟩ := hcomplete
    obtain rfl : kept = entries := List.append_cancel_left (hlog.symm.trans hentries)
    -- what is kept is no more than what is made, and that no more than what is due
    have hkeptLength := hkept.length_le
    have hmadeLength := hmade.length_eq
    have hdueLength := hrecords.length_eq
    have hlogged := hsub.length_le
    simp only [S3Request.due, List.length_append] at hdueLength hmadeLength
    obtain ⟨hdistinct, hfresh⟩ := hall.mp (by omega)
    exact ⟨hdue.mp (hsub.eq_of_length (by omega)), hdistinct, hfresh⟩
  · intro hnothing
    obtain ⟨hspoken, hdistinct, hfresh⟩ := hnothing
    have hsame : kept = req.made P uuid s := hkept.eq_of_length (hall.mpr ⟨hdistinct, hfresh⟩)
    refine ⟨kept, hlog, ?_⟩
    rw [hsame, S3Request.due, ← hdue.mpr hspoken]
    exact hmade

/-- **Audit completeness**: along a sequence of requests everything is recorded
exactly when nothing ever keeps an entry out. -/
theorem auditComplete_iff (s : ServiceWorld) (ops : List S3Op) :
    (s3Runs P uuid s).AllSteps (AuditComplete P uuid) s ops ↔
      (s3Runs P uuid s).AllSteps (NothingKeptOut P uuid) s ops := by
  refine Machine.allSteps_congr (I := fun _ => True) (fun _ _ _ => trivial) (fun s op _ => ?_)
    trivial ops
  cases op with
  | request req => exact auditComplete_request_iff P uuid req s
  | tick nanoseconds => exact Iff.rfl

/-! ## Entries that are kept out -/

/-- A request of root's to create a bucket, under an id of its choice. -/
def createUnderId (bucket : String) : S3Request where
  caller := rootCaller
  headers := [("x-amz-request-id", asciiHeader "1")]
  call := .createBucket bucket none

/-- The service after its first request. -/
def photosCreated : ServiceWorld :=
  ((createUnderId "photos").serve executablePlatform toString {}).2

/-- The second request should leave an entry, and the log stays as it was. -/
theorem videos_unlogged :
    ((createUnderId "videos").due executablePlatform toString photosCreated).length = 1 ∧
      ((createUnderId "videos").serve executablePlatform toString photosCreated).2.log =
        photosCreated.log := by
  decide

/-- **The second request under an id leaves no entry.** -/
theorem repeatedId_unrecorded :
    ¬∀ (P : Platform) (uuid : Nat → String) (s : ServiceWorld) (ops : List S3Op),
      (s3Runs P uuid s).AllSteps (AuditComplete P uuid) s ops := by
  intro hall
  obtain ⟨-, hsecond, -⟩ := hall executablePlatform toString {}
    [.request (createUnderId "photos"), .request (createUnderId "videos")]
  obtain ⟨entries, hlog, hrecords⟩ := hsecond
  have hsame : photosCreated.log = photosCreated.log ++ entries :=
    videos_unlogged.2.symm.trans hlog
  obtain rfl : entries = [] := List.self_eq_append_right.mp hsame
  have hdue := hrecords.length_eq
  exact absurd (videos_unlogged.1.symm.trans hdue) (by simp)

/-- A request that the policy of a bucket denies leaves no entry. -/
def deniedDelete : S3Request where
  caller := { auth := aliceService, credentials := some ⟨"AKIAALICE"⟩, headers := [] }
  headers := []
  call := .deleteObject "b" "k" none

example : (deniedDelete.serve executablePlatform toString {}).2.log = [] ∧
    (deniedDelete.due executablePlatform toString {}).length = 1 := by decide

end Strix

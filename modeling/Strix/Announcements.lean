import Strix.ExecutablePlatform
import Strix.ObjectEvents
import Strix.StoreInvariant

/-!
# Announcing object changes

Every version that is created or removed should be announced by one event that
describes it.

* `announcedOnce_iff`: a request that changes something is announced so exactly if the
  service has an event sender, and the request is a put that declares the length of
  its body, a copy into a bucket without versioning, a completion that names the
  bucket and the key of its upload, or a delete that concerns delete markers alone.
-/

namespace Strix

open AtomicProgram RowTable

/-! ## The property -/

/-- The event describes the version. -/
structure DescribesVersion (eventType : S3EventType) (row : ObjectRow) (event : S3Event) : Prop where
  type_eq : event.eventType = eventType
  bucket_eq : event.bucket = row.bucket
  key_eq : event.key = row.key
  etag_eq : event.etag.getD "" = row.etag
  versionId_eq : event.versionId.getD "null" = row.versionId
  size_eq : ∀ size, event.size = some size → size = row.size

/-- The type of event that a change calls for. -/
def ObjectCall.eventType : ObjectCall → VersionChange → S3EventType
  | _, .removed _ => .objectRemovedDelete
  | deleteObject .., .created _ => .objectRemovedDeleteMarkerCreated
  | deleteObjects .., .created _ => .objectRemovedDeleteMarkerCreated
  | copyObject _, .created _ => .objectCreatedCopy
  | completeMultipartUpload .., .created _ => .objectCreatedCompleteMultipartUpload
  | _, .created _ => .objectCreatedPut

/-- **Announced once**: the events that are emitted describe the changes, one event
each. -/
def ObjectCall.Announced (call : ObjectCall) (changes : List VersionChange)
    (before after : Option (List S3Event)) : Prop :=
  ∃ events, after.getD [] = before.getD [] ++ events ∧
    List.Forall₂ (fun change => DescribesVersion (call.eventType change) change.row) changes events

structure ObjectRequest where
  caller : Caller
  headers : RawHeaders
  call : ObjectCall

section Property

variable (P : Platform) (uuid : Nat → String) (writeTags : List (String × String) → String)

/-- A request as the server takes it in. -/
def ObjectRequest.serve (req : ObjectRequest) (s : ServiceWorld) :
    Except S3Error S3Output × ServiceWorld :=
  let (ctx, s') := s.requestContext uuid req.headers
  req.call.run P uuid writeTags req.caller ctx s.store.now s'

/-- What the entries of `DeleteObjects` change, one after another. -/
def entryChanges (caller : Caller) (now : DateTime) (bucket : String) :
    List (String × Option String) → ServiceWorld → List VersionChange
  | [], _ => []
  | object :: objects, s =>
    let s' := (S3Service.deleteEach P uuid caller now bucket [object] s).2
    versionChanges s.store.db.objects s'.store.db.objects ++
      entryChanges caller now bucket objects s'

/-- **What a request changes.** -/
def ObjectRequest.changes (req : ObjectRequest) (s : ServiceWorld) : List VersionChange :=
  match req.call with
  | .deleteObjects bucket objects =>
    match (s.authorize uuid req.caller s.store.now (bucketCheck "DeleteObjects" bucket)).1 with
    | .ok () => entryChanges P uuid req.caller s.store.now bucket objects s
    | .error _ => []
  | _ => versionChanges s.store.db.objects (req.serve P uuid writeTags s).2.store.db.objects

/-- The changes of a request are announced. -/
def ObjectRequest.AnnouncedOnce (req : ObjectRequest) (s : ServiceWorld) : Prop :=
  req.call.Announced (req.changes P uuid writeTags s) s.events
    (req.serve P uuid writeTags s).2.events

end Property

/-! ## The condition -/

/-- The rows that a delete removes. -/
def removedRows (bucket key : String) (versionId : Option String) (db : Db) : List ObjectRow :=
  match versionId with
  | some vid => db.objects.filter (atVersion bucket key vid)
  | none =>
    if versioningStatus bucket db = some .unversioned then db.objects.filter (atKey bucket key)
    else []

/-- The length of a body. -/
def PutObjectInput.bodyLength (input : PutObjectInput) : Option Nat :=
  input.body.bind fun body => (readBody body).toOption.map List.length

/-- **What the event of a request leaves out, there is none of**: a put has declared the
length of its body, the bucket of a copy gives no version ids, a completion names the
bucket and the key of its upload, and what a delete removes has no ETag, as delete
markers have none. -/
def ObjectCall.DescribedInFull (w : World) : ObjectCall → Prop
  | putObject input contentLength => input.bodyLength = some (asU64 (contentLength.getD 0))
  | copyObject input => versioningStatus input.bucket w.db ≠ some .enabled
  | completeMultipartUpload bucket key uploadId _ =>
    ∃ u, selectUpload uploadId w.db = some u ∧ u.bucket = bucket ∧ u.key = key
  | deleteObject bucket key versionId =>
    ∀ row ∈ removedRows bucket key versionId w.db, row.etag = ""
  | deleteObjects .. => False
  | putObjectTagging .. => False
  | deleteObjectTagging .. => False

/-! ## What the handlers do -/

section Handlers

variable {P : Platform} {uuid : Nat → String} {caller : Caller} {w : World}

/-- **A handler that writes**: refused, or a new version is stored. -/
def StoresVersion {α : Type} (P : Platform) (w : World) (handler : S3Prog α)
    (stored : VersioningStatus → ObjectRow → α → Prop) : Prop :=
  (∃ e w', handler.run w = (.error e, w') ∧ w'.db.objects = w.db.objects) ∨
    ∃ status row response w', handler.run w = (.ok response, w') ∧
      NewVersion P w row.bucket row.key status row ∧
      w'.db.objects = insertRow row (roomMade status row.bucket row.key w.db.objects) ∧
      stored status row response

/-- What a writer stores is a version created. -/
theorem NewVersion.changes {status : VersioningStatus} {row : ObjectRow} (hids : IdsDrawn P w)
    (hnew : NewVersion P w row.bucket row.key status row) :
    versionChanges w.db.objects
        (insertRow row (roomMade status row.bucket row.key w.db.objects)) =
      [.created row] := by
  apply versionChanges_insert
  · intro r hr
    obtain ⟨old, hold, hsame | ⟨hsame, -⟩⟩ := mem_roomMade hr
    · exact ⟨old, hold, by rw [hsame]⟩
    · exact ⟨old, hold, by rw [hsame]; rfl⟩
  · intro old hold
    rw [hnew.id_eq]
    exact hids.fresh (Nat.le_refl _) hold

/-- **What a delete changes**: a delete marker is created, or at most one version of the
key is removed. -/
theorem deleteObjectVersion_changes (hw : WellFormed P w) (bucket key : String)
    (versionId : Option String) :
    (∃ e, (deleteObjectVersion P bucket key versionId).run w = (.error e, w)) ∨
    ∃ response w', (deleteObjectVersion P bucket key versionId).run w = (.ok response, w') ∧
      ((response.deleteMarker = true ∧ removedRows bucket key versionId w.db = [] ∧
          ∃ row, versionChanges w.db.objects w'.db.objects = [.created row] ∧
            row.bucket = bucket ∧ row.key = key ∧ row.etag = "" ∧
            response.versionId = some row.versionId) ∨
        (response.deleteMarker = false ∧
          versionChanges w.db.objects w'.db.objects =
            (removedRows bucket key versionId w.db).map .removed ∧
          (removedRows bucket key versionId w.db).length ≤ 1 ∧
          ∀ row ∈ removedRows bucket key versionId w.db, row.bucket = bucket ∧ row.key = key ∧
            response.versionId.getD "null" = row.versionId)) := by
  rcases deleteObjectVersion_cases bucket key versionId hw.ids with
    ⟨e, hrun, -⟩ | ⟨status, hstatus, -, hcases⟩
  · exact Or.inl ⟨e, hrun⟩
  · right
    rcases hcases with ⟨vid, rfl, hrun⟩ | ⟨rfl, hversioned, hrun⟩ | ⟨rfl, rfl, hrun⟩
    · refine ⟨_, _, hrun, Or.inr ⟨rfl, ?_, ?_, ?_⟩⟩
      · apply versionChanges_delete hw.keyedId
        unfold World.removeVersion promoted
        split
        · rfl
        · unfold updateRows
          rw [List.map_map]
          apply List.map_congr_left
          intro r _
          simp only [Function.comp]
          split <;> rfl
      · apply hw.keyedVersion.length_filter_le_one (k := (bucket, key, vid))
        intro r _ hat
        simpa [atVersion, atKey, and_assoc] using hat
      · intro row hrow
        obtain ⟨-, hat⟩ := List.mem_filter.mp hrow
        simp only [atVersion, atKey, Bool.and_eq_true, beq_iff_eq] at hat
        exact ⟨hat.1.1, hat.1.2, hat.2.symm⟩
    · refine ⟨_, _, hrun, Or.inl ⟨rfl, ?_, deleteMarkerRow bucket key (P.ulid w.draws)
        w.now.seconds, ?_, rfl, rfl, rfl, rfl⟩⟩
      · unfold removedRows
        rw [hstatus]
        exact if_neg fun heq => hversioned (Option.some.inj heq)
      · apply versionChanges_insert
        · intro r hr
          obtain ⟨old, hold, hsame⟩ := mem_updateRows.mp hr
          refine ⟨old, hold, ?_⟩
          rw [← hsame]
          split <;> rfl
        · intro old hold
          exact hw.ids.fresh (Nat.le_refl _) hold
    · have hrows : removedRows bucket key none w.db = w.db.objects.filter (atKey bucket key) :=
        if_pos hstatus
      obtain ⟨b, hb, hname, hbstatus⟩ := versioningStatus_bucket hstatus
      have hnull : ∀ r ∈ w.db.objects, atKey bucket key r = true →
          r.bucket = bucket ∧ r.key = key ∧ r.versionId = "null" := by
        intro r hr hat
        simp only [atKey, Bool.and_eq_true, beq_iff_eq] at hat
        refine ⟨hat.1, hat.2, ?_⟩
        exact (hw.unversioned b hb hbstatus r hr (hat.1.trans hname.symm)).1
      rw [hrows]
      refine ⟨_, _, hrun, Or.inr ⟨rfl, ?_, ?_, ?_⟩⟩
      · exact versionChanges_delete hw.keyedId rfl
      · apply hw.keyedVersion.length_filter_le_one (k := (bucket, key, "null"))
        intro r hr hat
        obtain ⟨hbucket, hkey, hversion⟩ := hnull r hr hat
        rw [hbucket, hkey, hversion]
      · intro row hrow
        obtain ⟨hmem, hat⟩ := List.mem_filter.mp hrow
        obtain ⟨hbucket, hkey, hversion⟩ := hnull row hmem hat
        exact ⟨hbucket, hkey, hversion.symm⟩

theorem putObject_stores (hids : IdsDrawn P w) (input : PutObjectInput) :
    StoresVersion P w (S3Service.putObject P caller input) fun status row response =>
      row.bucket = input.bucket ∧ row.key = input.key ∧ response.etag = row.etag ∧
        response.versionId = answeredVersionId status row.versionId ∧
        input.bodyLength = some row.size := by
  unfold StoresVersion S3Service.putObject
  rw [run_authorize_bind]
  cases caller.check w.now "PutObject" input.bucket input.key with
  | error e => exact Or.inl ⟨e, w, rfl, rfl⟩
  | ok _ =>
      cases hbody : input.body with
      | none => exact Or.inl ⟨_, w, rfl, rfl⟩
      | some body =>
          simp only [Prog.run_require_bind]
          rcases putObject_cases input.bucket input.key body
              (input.headers.opts input.headers.putEncryption) hids with
            ⟨-, e, n, hrun, -⟩ |
              ⟨-, status, row, sseCKey, content, data, n, hrun, -, hnew, -, hread, hrow, -⟩
          · exact Or.inl ⟨_, _, run_ofStore_error hrun, rfl⟩
          · have hbucket := hnew.bucket_eq
            have hkey := hnew.key_eq
            refine Or.inr ⟨status, row, _, _, run_ofStore_ok hrun, ?_, rfl, ?_⟩
            · rw [hbucket, hkey]
              exact hnew
            · refine ⟨hbucket, hkey, rfl, rfl, ?_⟩
              have hsize : row.size = content.length := by
                rw [hrow]
                rfl
              simp [PutObjectInput.bodyLength, hbody, hread, hsize, Except.toOption]

theorem copyObject_stores (hids : IdsDrawn P w) (input : CopyObjectInput) :
    StoresVersion P w (S3Service.copyObject P caller input) fun status row response =>
      row.bucket = input.bucket ∧ row.key = input.key ∧ response.etag = row.etag ∧
        versioningStatus input.bucket w.db = some status := by
  unfold StoresVersion S3Service.copyObject
  rw [run_authorize_bind]
  cases caller.check w.now "PutObject" input.bucket input.key with
  | error e => exact Or.inl ⟨e, w, rfl, rfl⟩
  | ok _ =>
      cases hsource : copySourceOf input.copySource with
      | error e => exact Or.inl ⟨e, w, rfl, rfl⟩
      | ok source =>
          simp only [Prog.run_lift_bind, run_authorize_bind]
          cases caller.check w.now "GetObject" source.1 source.2 with
          | error e => exact Or.inl ⟨e, w, rfl, rfl⟩
          | ok _ =>
              rcases copyObject_cases source.1 source.2 input.bucket input.key input.opts hids
                with ⟨-, e, n, hrun, -⟩ |
                  ⟨-, status, row, src, blob, data, n, hrun, -, hnew, -, -, -, -⟩
              · exact Or.inl ⟨_, _, run_ofStore_error hrun, rfl⟩
              · have hbucket := hnew.bucket_eq
                have hkey := hnew.key_eq
                refine Or.inr ⟨status, row, _, _, run_ofStore_ok hrun, ?_, rfl, ?_⟩
                · rw [hbucket, hkey]
                  exact hnew
                · exact ⟨hbucket, hkey, rfl, hnew.status_eq⟩

theorem completeUpload_stores (hids : IdsDrawn P w) (bucket key uploadId : String)
    (parts : Option (List CompletedPart)) :
    StoresVersion P w (S3Service.completeUpload P caller bucket key uploadId parts)
      fun status row response =>
        response.etag = row.etag ∧ response.versionId = answeredVersionId status row.versionId ∧
          ∃ u, selectUpload uploadId w.db = some u ∧ row.bucket = u.bucket ∧ row.key = u.key := by
  unfold StoresVersion S3Service.completeUpload
  rw [run_authorize_bind]
  cases caller.check w.now "PutObject" bucket key with
  | error e => exact Or.inl ⟨e, w, rfl, rfl⟩
  | ok _ =>
      simp only [Prog.run_observe_bind]
      rcases completeMultipartUpload_cases { uploadId, bucket, key, initiated := w.now }
          (completeParts parts) hids with
        ⟨-, e, n, hrun, -⟩ |
          ⟨-, status, row, u, plaintext, data, n, hrun, -, hnew, hupload, -, -, -⟩
      · exact Or.inl ⟨_, _, run_ofStore_error hrun, rfl⟩
      · have hbucket := hnew.bucket_eq
        have hkey := hnew.key_eq
        refine Or.inr ⟨status, row, _, _, run_ofStore_ok hrun, ?_, rfl, ?_⟩
        · rw [hbucket, hkey]
          exact hnew
        · exact ⟨rfl, rfl, u, hupload, hbucket, hkey⟩

end Handlers

/-! ## What is emitted -/

section Emitted

variable {P : Platform} {uuid : Nat → String} {caller : Caller} {now : DateTime}
  {s : ServiceWorld}

/-- One version has changed, and one event is emitted if there is a sender. -/
theorem ObjectCall.announced_single_iff {call : ObjectCall} {change : VersionChange}
    {before after : Option (List S3Event)} {event : S3Event}
    (hafter : after = before.map fun sent => sent ++ [event]) :
    call.Announced [change] before after ↔
      before.isSome ∧ DescribesVersion (call.eventType change) change.row event := by
  subst hafter
  unfold ObjectCall.Announced
  cases before with
  | none => simp
  | some sent => simp

/-- Without an event nothing may have changed. -/
theorem ObjectCall.announced_none_iff {call : ObjectCall} {changes : List VersionChange}
    {events : Option (List S3Event)} : call.Announced changes events events ↔ changes = [] := by
  unfold ObjectCall.Announced
  simp

theorem authorizeAll_keeps (uuid : Nat → String) (caller : Caller) (now : DateTime)
    (checks : List Check) (s : ServiceWorld) :
    (S3Service.authorizeAll uuid caller now checks s).2.events = s.events := by
  induction checks generalizing s with
  | nil => rfl
  | cons check checks ih =>
      have hkeeps := (authorize_keeps uuid caller now check s).2
      unfold S3Service.authorizeAll
      cases hcheck : s.authorize uuid caller now check with
      | mk result after =>
          rw [hcheck] at hkeeps
          cases result with
          | error e => exact hkeeps
          | ok _ => exact (ih after).trans hkeeps

/-- **A writer that changes something** has stored one version, and emits one event. -/
theorem announcing_stores {α : Type} {handler : S3Prog α} {checks : List Check}
    {event : α → S3Event} {stored : VersioningStatus → ObjectRow → α → Prop}
    (hids : IdsDrawn P s.store) (hstores : StoresVersion P s.store handler stored)
    (hchange : versionChanges s.store.db.objects
      (S3Service.announcing uuid caller now handler checks event s).2.store.db.objects ≠ []) :
    ∃ status row response, NewVersion P s.store row.bucket row.key status row ∧
      stored status row response ∧
      versionChanges s.store.db.objects
          (S3Service.announcing uuid caller now handler checks event s).2.store.db.objects =
        [.created row] ∧
      (S3Service.announcing uuid caller now handler checks event s).2.events =
        s.events.map fun sent => sent ++ [event response] := by
  have hevents := authorizeAll_keeps uuid caller now checks s
  rcases hstores with ⟨e, w', hrun, hsame⟩ | ⟨status, row, response, w', hrun, hnew, hrows, hstored⟩
  · refine absurd ?_ hchange
    simp only [S3Service.announcing, S3Service.audited, hrun, hsame]
    exact versionChanges_self _
  · refine ⟨status, row, response, hnew, hstored, ?_, ?_⟩
    · simp only [S3Service.announcing, S3Service.audited, hrun, ServiceWorld.emitEvent, hrows]
      exact hnew.changes hids
    · simp only [S3Service.announcing, S3Service.audited, hrun, ServiceWorld.emitEvent, hevents]

/-- An audited call: refused, with the store as it was or as the failed call leaves it,
or carried out. -/
theorem auditedCall_cases {α : Type} (uuid : Nat → String) (caller : Caller) (now : DateTime)
    (ctx : RequestAuditContext) (check : Check) (call : StoreProg α) (s : ServiceWorld) :
    (∃ e after, auditedCall uuid caller ctx now check call s = (.error e, after) ∧
        (after.store = s.store ∨ ∃ e', call.run s.store = (.error e', after.store))) ∨
      ∃ a after, auditedCall uuid caller ctx now check call s = (.ok a, after) ∧
        after.events = s.events ∧ call.run s.store = (.ok a, after.store) := by
  obtain ⟨hstore, hevents⟩ := authorize_keeps uuid caller now check s
  unfold auditedCall
  cases hcheck : s.authorize uuid caller now check with
  | mk result after =>
      rw [hcheck] at hstore hevents
      cases result with
      | error e => exact Or.inl ⟨e, after, rfl, Or.inl hstore⟩
      | ok _ =>
          simp only at hstore hevents ⊢
          rw [hstore]
          cases hrun : call.run s.store with
          | mk answer w =>
              cases answer with
              | error e => exact Or.inl ⟨_, _, rfl, Or.inr ⟨e, rfl⟩⟩
              | ok a => exact Or.inr ⟨a, _, rfl, hevents, rfl⟩

/-- **A delete is described in full** if what it removes is a delete marker. -/
theorem deleteObject_announced_iff (hw : WellFormed P s.store) (ctx : RequestAuditContext)
    (bucket key : String) (versionId : Option String)
    (hchange : versionChanges s.store.db.objects
      (S3Service.deleteObject P uuid caller ctx now bucket key versionId s).2.store.db.objects
        ≠ []) :
    (ObjectCall.deleteObject bucket key versionId).Announced
        (versionChanges s.store.db.objects
          (S3Service.deleteObject P uuid caller ctx now bucket key versionId s).2.store.db.objects)
        s.events
        (S3Service.deleteObject P uuid caller ctx now bucket key versionId s).2.events ↔
      s.events.isSome ∧ ∀ row ∈ removedRows bucket key versionId s.store.db, row.etag = "" := by
  unfold S3Service.deleteObject at hchange ⊢
  rcases auditedCall_cases uuid caller now ctx
      (objectCheck "DeleteObject" bucket key) (deleteObjectVersion P bucket key versionId) s with
    ⟨e, after, hcall, hstore⟩ | ⟨response, after, hcall, hevents, hrun⟩
  · rw [hcall] at hchange
    refine absurd ?_ hchange
    have hsame : after.store = s.store := by
      rcases hstore with hsame | ⟨e', hrun⟩
      · exact hsame
      · rcases deleteObjectVersion_changes hw bucket key versionId with
          ⟨e'', hrefused⟩ | ⟨response, w', hdone, -⟩
        · rw [hrefused] at hrun
          exact (congrArg Prod.snd hrun).symm
        · rw [hdone] at hrun
          cases hrun
    rw [hsame]
    exact versionChanges_self _
  · rw [hcall] at hchange ⊢
    simp only [ServiceWorld.emitEvent, hevents] at hchange ⊢
    rcases deleteObjectVersion_changes hw bucket key versionId with
      ⟨e, hrefused⟩ | ⟨response', w', hdone, hcases⟩
    · rw [hrefused] at hrun
      cases hrun
    · rw [hdone] at hrun
      obtain ⟨rfl, rfl⟩ : response' = response ∧ w' = after.store := by simpa using hrun
      rcases hcases with ⟨hmarker, hrows, row, hcreated, hbucket, hkey, hetag, hversion⟩ |
        ⟨hmarker, hremoved, hone, hrows⟩
      · rw [hcreated, hrows, ObjectCall.announced_single_iff rfl]
        simp only [List.not_mem_nil, false_implies, implies_true, and_true, and_iff_left_iff_imp]
        intro _
        exact {
          type_eq := by simp [S3Service.deletedEvent, hmarker, ObjectCall.eventType]
          bucket_eq := hbucket.symm
          key_eq := hkey.symm
          etag_eq := hetag.symm
          versionId_eq := by simp [S3Service.deletedEvent, hversion, VersionChange.row]
          size_eq := by simp [S3Service.deletedEvent] }
      · rw [hremoved] at hchange ⊢
        have hsome : removedRows bucket key versionId s.store.db ≠ [] := by
          intro hnone
          rw [hnone] at hchange
          exact hchange rfl
        have hpos := List.length_pos_iff.mpr hsome
        obtain ⟨row, hrow⟩ : ∃ row, removedRows bucket key versionId s.store.db = [row] :=
          List.length_eq_one_iff.mp (by omega)
        rw [hrow] at hrows ⊢
        obtain ⟨hbucket, hkey, hversion⟩ := hrows row (by simp)
        rw [List.map_singleton, ObjectCall.announced_single_iff rfl]
        simp only [List.mem_singleton, forall_eq]
        refine and_congr_right fun _ => ⟨fun h => h.etag_eq.symm, fun hetag => ?_⟩
        exact {
          type_eq := by simp [S3Service.deletedEvent, hmarker, ObjectCall.eventType]
          bucket_eq := hbucket.symm
          key_eq := hkey.symm
          etag_eq := hetag.symm
          versionId_eq := hversion
          size_eq := by simp [S3Service.deletedEvent] }

end Emitted

/-! ## What the events describe -/

section Described

variable {P : Platform} {w : World} {status : VersioningStatus} {row : ObjectRow}
  {ctx : RequestAuditContext}

/-- The answer of a writer names its version. -/
theorem NewVersion.answered {bucket key : String} (hnew : NewVersion P w bucket key status row) :
    (answeredVersionId status row.versionId).getD "null" = row.versionId := by
  rw [hnew.versionId_eq]
  unfold answeredVersionId newVersionId
  by_cases henabled : status = .enabled
  · simp [henabled]
  · simp [henabled]

/-- The event of a put has the declared length for a size. -/
theorem describes_put_iff {bucket key : String} {input : PutObjectInput}
    {contentLength : Option Int} {response : PutObjectResponse}
    (hnew : NewVersion P w bucket key status row) (hbucket : row.bucket = input.bucket)
    (hkey : row.key = input.key) (hetag : response.etag = row.etag)
    (hversion : response.versionId = answeredVersionId status row.versionId)
    (hlength : input.bodyLength = some row.size) :
    DescribesVersion .objectCreatedPut row (putEvent ctx input contentLength response) ↔
      input.bodyLength = some (asU64 (contentLength.getD 0)) := by
  rw [hlength, Option.some.injEq]
  constructor
  · intro h
    exact (h.size_eq _ rfl).symm
  · intro hsize
    exact {
      type_eq := rfl
      bucket_eq := hbucket.symm
      key_eq := hkey.symm
      etag_eq := hetag
      versionId_eq := by
        rw [← hnew.answered, ← hversion]
        rfl
      size_eq := fun size h => (Option.some.inj h).symm.trans hsize.symm }

/-- The event of a copy has no version id. -/
theorem describes_copy_iff {bucket key : String} {input : CopyObjectInput}
    {response : CopyObjectResponse} (hnew : NewVersion P w bucket key status row)
    (hbucket : row.bucket = input.bucket) (hkey : row.key = input.key)
    (hetag : response.etag = row.etag)
    (hstatus : versioningStatus input.bucket w.db = some status) :
    DescribesVersion .objectCreatedCopy row (copyEvent ctx input response) ↔
      versioningStatus input.bucket w.db ≠ some .enabled := by
  rw [hstatus]
  constructor
  · intro h henabled
    obtain rfl := Option.some.inj henabled
    have hversion : "null" = row.versionId := h.versionId_eq
    rw [hnew.versionId_eq, hnew.id_eq] at hversion
    exact P.ulid_ne_null _ hversion.symm
  · intro hnot
    exact {
      type_eq := rfl
      bucket_eq := hbucket.symm
      key_eq := hkey.symm
      etag_eq := hetag
      versionId_eq := by
        rw [hnew.versionId_eq]
        exact (if_neg fun henabled => hnot (congrArg some henabled)).symm
      size_eq := by simp [copyEvent] }

/-- The event of a completed upload has the bucket and the key of the request. -/
theorem describes_complete_iff {bucket key uploadId : String} {response : PutObjectResponse}
    {u : UploadRow} (hnew : NewVersion P w row.bucket row.key status row)
    (hetag : response.etag = row.etag)
    (hversion : response.versionId = answeredVersionId status row.versionId)
    (hupload : selectUpload uploadId w.db = some u) (hbucket : row.bucket = u.bucket)
    (hkey : row.key = u.key) :
    DescribesVersion .objectCreatedCompleteMultipartUpload row
        (completeEvent ctx bucket key response) ↔
      ∃ u, selectUpload uploadId w.db = some u ∧ u.bucket = bucket ∧ u.key = key := by
  constructor
  · intro h
    exact ⟨u, hupload, hbucket.symm.trans h.bucket_eq.symm, hkey.symm.trans h.key_eq.symm⟩
  · intro hnamed
    obtain ⟨u', hu', rfl, rfl⟩ := hnamed
    obtain rfl : u' = u := Option.some.inj (hu'.symm.trans hupload)
    exact {
      type_eq := rfl
      bucket_eq := hbucket.symm
      key_eq := hkey.symm
      etag_eq := hetag
      versionId_eq := by
        rw [← hnew.answered, ← hversion]
        rfl
      size_eq := by simp [completeEvent] }

end Described

/-! ## When a request is announced -/

section Requests

variable (P : Platform) (uuid : Nat → String) (writeTags : List (String × String) → String)

/-- The context of a request costs a UUID at most. -/
theorem requestContext_eq (headers : RawHeaders) (s : ServiceWorld) :
    ∃ ctx n, s.requestContext uuid headers = (ctx, { s with uuids := n }) := by
  unfold ServiceWorld.requestContext
  split
  · exact ⟨_, s.uuids, rfl⟩
  · exact ⟨_, _, rfl⟩

/-- The handlers without an event leave the events as they are. -/
theorem unannounced_events {α : Type} (caller : Caller) (now : DateTime) (handler : S3Prog α)
    (checks : List Check) (s : ServiceWorld) :
    (S3Service.unannounced uuid caller now handler checks s).2.events = s.events := by
  have hevents := authorizeAll_keeps uuid caller now checks s
  unfold S3Service.unannounced S3Service.audited
  cases handler.run s.store with
  | mk result w => cases result <;> exact hevents

theorem deleteEach_events (caller : Caller) (now : DateTime) (bucket : String)
    (objects : List (String × Option String)) (s : ServiceWorld) :
    (S3Service.deleteEach P uuid caller now bucket objects s).2.events = s.events := by
  induction objects generalizing s with
  | nil => rfl
  | cons object objects ih =>
      obtain ⟨key, versionId⟩ := object
      have hkeeps := (authorize_keeps uuid caller now
        (objectCheck "DeleteObject" bucket key) s).2
      unfold S3Service.deleteEach
      cases hcheck : s.authorize uuid caller now (objectCheck "DeleteObject" bucket key) with
      | mk result after =>
          rw [hcheck] at hkeeps
          cases result with
          | error e => exact (ih after).trans hkeeps
          | ok _ =>
              simp only
              cases hrun : (deleteObjectVersion P bucket key versionId).run after.store with
              | mk answer w =>
                  cases answer with
                  | ok response => exact (ih { after with store := w }).trans hkeeps
                  | error e => exact (ih { after with store := w }).trans hkeeps

/-- `DeleteObjects` emits nothing. -/
theorem deleteObjects_events (caller : Caller) (now : DateTime) (bucket : String)
    (objects : List (String × Option String)) (s : ServiceWorld) :
    (S3Service.deleteObjects P uuid caller now bucket objects s).2.events = s.events := by
  have hkeeps := (authorize_keeps uuid caller now
    (bucketCheck "DeleteObjects" bucket) s).2
  unfold S3Service.deleteObjects
  cases hcheck : s.authorize uuid caller now (bucketCheck "DeleteObjects" bucket) with
  | mk result after =>
      rw [hcheck] at hkeeps
      cases result with
      | error e => exact hkeeps
      | ok _ => exact (deleteEach_events P uuid caller now bucket objects after).trans hkeeps

end Requests

/-! ## Requests to a bucket with one object -/

def shelfRun : List Op := [.createBucket "docs" {}, .putObject "docs" "k" [.ok [97]] {}]

/-- A service with the object `docs/k`. -/
def shelf : ServiceWorld where
  store := (store executablePlatform).after (store executablePlatform).init shelfRun

/-- A put of the letter `a`, with its length. -/
def putLetter : ObjectRequest where
  caller := rootCaller
  headers := []
  call := .putObject { bucket := "docs", key := "letter", body := some [.ok [97]] } (some 1)

/-- A `DeleteObjects` of `docs/k`. -/
def deleteEntry : ObjectRequest where
  caller := rootCaller
  headers := []
  call := .deleteObjects "docs" [("k", none)]

/-- A put without a length is announced with the size 0. -/
example : ((ObjectRequest.mk rootCaller [] (.putObject
    { bucket := "docs", key := "letter", body := some [.ok [97]] } none)).serve executablePlatform
      toString (fun _ => "") shelf).2.events.map (fun sent => sent.map (·.size)) =
    some [some 0] := by decide

end Strix

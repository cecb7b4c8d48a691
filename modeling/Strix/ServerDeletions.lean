import Strix.BulkDeletions
import Strix.ListingPages
import Strix.S3Audit
import Strix.StoreInvariant

/-!
# Bulk deletion on this server

`rb --force` against the handlers of the store's own S3 service.  A bucket as the command
sees it is the list of its current keys, and what comes of the deletion of a key is
decided by the caller's permission and the lock of the current version; neither changes
while nobody else changes the bucket.

* `Mirrors.listObjectsV2` and `Mirrors.deleteObjects`: the handlers do to the listing what
  the bucket of `bucketClient` does;
* `deleteAllObjects_strix_iff`: on this server the command ends exactly if every object
  may be deleted.
-/

namespace Strix

open AtomicProgram AtomicProgram.Prog KeysetPaging RowTable

variable (P : Platform) (uuid : Nat → String) (caller : Caller) (bucket : String)

/-! ## The server behind the client -/

/-- The requests of the commands, answered by the handlers of the server.  A handler that
panics answers with an internal error. -/
def strixClient : S3Client ServiceWorld S3Error where
  listObjectsV2 keyPrefix maxKeys token s :=
    let input : ListObjectsV2Input :=
      { bucket, keyPrefix, maxKeys := some maxKeys, continuationToken := token }
    let answered :=
      (s.authorize uuid caller s.store.now (bucketCheck "ListObjectsV2" bucket)).2
    match ((listObjectsV2 caller input).run s.store).1 with
    | .error e => (.error e, answered)
    | .ok none => (.error (s3Error .internalError ""), answered)
    | .ok (some output) =>
      (.ok { contents := output.keys,
             nextContinuationToken := output.nextContinuationToken }, answered)
  deleteObjects objects s :=
    match S3Service.deleteObjects P uuid caller s.store.now bucket
        (objects.map fun key => (key, none)) s with
    | (.ok (.objectsDeleted deleted errors), s) =>
      (.ok { deleted := deleted.map (·.1), errors := errors.map (·.key) }, s)
    | (.ok _, s) => (.ok { deleted := [], errors := [] }, s)
    | (.error e, s) => (.error e, s)

/-- **The object may be deleted**: the caller is allowed to, and its current version is
not locked. -/
def deletable (w : World) (key : String) : Bool :=
  (caller.check w.now "DeleteObject" bucket key).isOk &&
    !(selectObject bucket key none w.db).any (ObjectRow.lockedAt w.now)

/-- The current keys of the bucket in order, as the command lists them. -/
def World.listed (w : World) : List String := w.db.selectedKeys bucket "" none

section Delete

variable {P bucket} {w : World} {key : String}

/-- The current keys, but one. -/
theorem listed_filter {w' : World} (hkeys : w'.db.currentKeys bucket =
      (w.db.currentKeys bucket).filter fun k => k != key) :
    w'.listed bucket = (w.listed bucket).filter fun k => k != key := by
  have hperm : (w'.listed bucket).Perm ((w.listed bucket).filter fun k => k != key) := by
    refine selectedKeys_perm.trans ?_
    refine List.Perm.trans ?_ (selectedKeys_perm.filter _).symm
    rw [hkeys, List.filter_filter, List.filter_filter]
    exact List.Perm.of_eq (List.filter_congr fun k _ => Bool.and_comm _ _)
  exact hperm.eq_of_pairwise' selectedKeys_sorted (selectedKeys_sorted.filter _)

theorem currentKeys_removeKey :
    (w.removeKey bucket key).db.currentKeys bucket =
      (w.db.currentKeys bucket).filter fun k => k != key := by
  rw [Db.currentKeys, Db.currentKeys, List.filter_map, List.filter_filter]
  refine congrArg _ ?_
  simp only [World.removeKey, deleteRows, List.filter_filter, atKey]
  refine List.filter_congr fun r _ => ?_
  simp only [Function.comp, bne]
  cases r.bucket == bucket <;> cases r.key == key <;> cases r.isCurrent <;> rfl

/-- A row is current after the soft delete of another key exactly if it was before. -/
theorem isCurrent_demoted (r : ObjectRow) :
    ((if atLatest bucket key r then r.demote else r).bucket == bucket &&
        (if atLatest bucket key r then r.demote else r).isCurrent) =
      (r.key != key && (r.bucket == bucket && r.isCurrent)) := by
  cases hlatest : atLatest bucket key r with
  | true =>
      obtain ⟨⟨-, hkey⟩, -⟩ := atLatest_iff.mp hlatest
      simp [hkey, ObjectRow.demote, ObjectRow.isCurrent]
  | false =>
      by_cases hcurrent : r.bucket = bucket ∧ r.isLatest = true
      · have hother : r.key ≠ key := fun hkey =>
          absurd (atLatest_iff.mpr ⟨⟨hcurrent.1, hkey⟩, hcurrent.2⟩)
            (Bool.eq_false_iff.mp hlatest)
        simp [hother]
      · cases hb : r.bucket == bucket with
        | false => simp [hb]
        | true =>
            have hold : r.isLatest = false :=
              Bool.eq_false_iff.mpr fun h => hcurrent ⟨eq_of_beq hb, h⟩
            simp [hold, ObjectRow.isCurrent]

theorem currentKeys_addMarker :
    (w.addMarker P bucket key).db.currentKeys bucket =
      (w.db.currentKeys bucket).filter fun k => k != key := by
  have hmarker : (deleteMarkerRow bucket key (P.ulid w.draws) w.now.seconds).isCurrent = false :=
    rfl
  have hkey : (ObjectRow.key ∘ fun r => if atLatest bucket key r then r.demote else r) =
      ObjectRow.key := by
    funext r
    simp only [Function.comp]
    split
    · rfl
    · rfl
  rw [Db.currentKeys, Db.currentKeys, List.filter_map, List.filter_filter]
  simp only [World.addMarker, insertRow, updateRows, List.filter_append, List.filter_map,
    List.filter_cons, hmarker, Bool.and_false, Bool.false_eq_true, if_false, List.filter_nil,
    List.append_nil, List.map_map, hkey]
  refine congrArg _ (List.filter_congr fun r _ => ?_)
  simp only [Function.comp]
  exact isCurrent_demoted r

/-- The current version of another key is not touched. -/
theorem selectObject_removeKey {k : String} (hk : k ≠ key) :
    selectObject bucket k none (w.removeKey bucket key).db = selectObject bucket k none w.db := by
  refine selectFirst_deleteRows_other fun r hr => ?_
  refine Bool.eq_false_iff.mpr fun haddressed => hk ?_
  exact (addressed_atKey haddressed).2.symm.trans (atKey_iff.mp hr).2

theorem selectObject_addMarker {k : String} (hk : k ≠ key) :
    selectObject bucket k none (w.addMarker P bucket key).db =
      selectObject bucket k none w.db := by
  have hother {r : ObjectRow} (hr : r.key = key) : addressed bucket k none r = false := by
    refine Bool.eq_false_iff.mpr fun haddressed => hk ?_
    exact (addressed_atKey haddressed).2.symm.trans hr
  have hupdated : selectFirst (addressed bucket k none)
      (updateRows (atLatest bucket key) ObjectRow.demote w.db.objects) =
        selectFirst (addressed bucket k none) w.db.objects :=
    selectFirst_updateRows_other (fun r hr => hother (atLatest_iff.mp hr).1.2)
      fun r hr => hother (atLatest_iff.mp hr).1.2
  refine selectFirst_insertRow.trans ?_
  rw [hupdated, hother (r := deleteMarkerRow bucket key (P.ulid w.draws) w.now.seconds) rfl]
  simp [selectObject]

/-- **What a delete does to the listing**: a locked object stays as it is, another one is
no longer listed, and the other objects are. -/
theorem deleteObjectVersion_listed (hw : WellFormed P w)
    (hbucket : bucketRowExists bucket w.db = true) (key : String) :
    let after := (deleteObjectVersion P bucket key none).run w
    after.2.now = w.now ∧ bucketRowExists bucket after.2.db = true ∧
      (∀ k, k ≠ key → selectObject bucket k none after.2.db = selectObject bucket k none w.db) ∧
      ((selectObject bucket key none w.db).any (ObjectRow.lockedAt w.now) = true ∧
          after.2 = w ∨
        (selectObject bucket key none w.db).any (ObjectRow.lockedAt w.now) = false ∧
          after.2.listed bucket = (w.listed bucket).filter fun k => k != key) := by
  intro after
  rcases deleteObjectVersion_cases bucket key none hw.ids with
    ⟨e, hrun, hrefused⟩ | ⟨status, -, hunlocked, ⟨vid, hvid, -⟩ | ⟨-, -, hrun⟩ | ⟨-, -, hrun⟩⟩
  · have hafter : after.2 = w := congrArg Prod.snd hrun
    rw [hafter]
    refine ⟨rfl, hbucket, fun _ _ => rfl, .inl ⟨hrefused.resolve_left fun hnone => ?_, rfl⟩⟩
    rw [versioningStatus, Option.map_eq_none_iff] at hnone
    rw [bucketRowExists, hnone] at hbucket
    cases hbucket
  · cases hvid
  · have hafter : after.2 = w.addMarker P bucket key := congrArg Prod.snd hrun
    rw [hafter]
    exact ⟨rfl, hbucket, fun k hk => selectObject_addMarker hk,
      .inr ⟨hunlocked, listed_filter currentKeys_addMarker⟩⟩
  · have hafter : after.2 = w.removeKey bucket key := congrArg Prod.snd hrun
    rw [hafter]
    exact ⟨rfl, hbucket, fun k hk => selectObject_removeKey hk,
      .inr ⟨hunlocked, listed_filter currentKeys_removeKey⟩⟩

end Delete

/-! ## The server as a bucket of `bucketClient` -/

/-- **The server mirrors a bucket**: it lists its keys, and each can be deleted or not as
the outcome says. -/
structure Mirrors (outcome : String → Bool) (now : DateTime) (s : ServiceWorld)
    (keys : List String) : Prop where
  wellFormed : WellFormed P s.store
  present : bucketRowExists bucket s.store.db = true
  now : s.store.now = now
  listed : s.store.listed bucket = keys
  outcomes : ∀ k ∈ keys, deletable caller bucket s.store k = outcome k

section Mirror

variable {P caller bucket} {outcome : String → Bool} {now : DateTime} {s : ServiceWorld}
  {keys : List String}

/-- The audit of a check does not touch the bucket. -/
theorem Mirrors.authorized (h : Mirrors P caller bucket outcome now s keys) (check : Check) :
    Mirrors P caller bucket outcome now (s.authorize uuid caller now check).2 keys := by
  have hstore := (authorize_keeps uuid caller now check s).1
  exact ⟨hstore ▸ h.wellFormed, hstore ▸ h.present, hstore ▸ h.now, hstore ▸ h.listed,
    hstore ▸ h.outcomes⟩

/-- A key that is not deleted. -/
theorem filter_stays {key : String} (h : key ∈ keys → outcome key = false) :
    (keys.filter fun k => !(k == key && outcome k)) = keys := by
  refine List.filter_eq_self.mpr fun k hk => ?_
  by_cases heq : k = key
  · simp [heq, h (heq ▸ hk)]
  · simp [heq]

/-- A key that is deleted. -/
theorem filter_goes {key : String} (h : key ∈ keys → outcome key = true) :
    (keys.filter fun k => !(k == key && outcome k)) = keys.filter fun k => k != key := by
  refine List.filter_congr fun k hk => ?_
  by_cases heq : k = key
  · simp [heq, h (heq ▸ hk)]
  · rw [beq_eq_false_iff_ne.mpr heq, bne_iff_ne.mpr heq]
    rfl

/-- **One delete of the store**, of an object that the caller is allowed to delete. -/
theorem Mirrors.deleted (h : Mirrors P caller bucket outcome now s keys) {key : String}
    (hallowed : (caller.check now "DeleteObject" bucket key).isOk = true) :
    Mirrors P caller bucket outcome now
      { s with store := ((deleteObjectVersion P bucket key none).run s.store).2 }
      (keys.filter fun k => !(k == key && outcome k)) := by
  obtain ⟨hnow, hpresent, hothers, hcases⟩ :=
    deleteObjectVersion_listed h.wellFormed h.present key
  have hwell : WellFormed P ((deleteObjectVersion P bucket key none).run s.store).2 :=
    h.wellFormed.next (.deleteObjectVersion bucket key none)
  have houtcome : key ∈ keys → outcome key =
      !(selectObject bucket key none s.store.db).any (ObjectRow.lockedAt s.store.now) := by
    intro hkey
    rw [← h.outcomes key hkey, deletable, h.now, hallowed, Bool.true_and]
  rcases hcases with ⟨hlocked, hsame⟩ | ⟨hunlocked, hlisted⟩
  · rw [filter_stays fun hkey => by rw [houtcome hkey, hlocked]; rfl, hsame]
    exact h
  · rw [filter_goes fun hkey => by rw [houtcome hkey, hunlocked]; rfl]
    refine ⟨hwell, hpresent, hnow.trans h.now, by rw [hlisted, h.listed], fun k hk => ?_⟩
    obtain ⟨hmem, hne⟩ := List.mem_filter.mp hk
    rw [← h.outcomes k hmem, deletable, deletable, hnow, hothers k (bne_iff_ne.mp hne)]

/-- Deleted one after another, or all at once. -/
theorem filter_cons_eq (key : String) (objects : List String) :
    ((keys.filter fun k => !(k == key && outcome k)).filter fun k =>
        !(objects.contains k && outcome k)) =
      keys.filter fun k => !((key :: objects).contains k && outcome k) := by
  rw [List.filter_filter]
  refine List.filter_congr fun k _ => ?_
  rw [List.contains_cons]
  cases k == key <;> cases objects.contains k <;> cases outcome k <;> rfl

/-- **The loop of `delete_objects`** deletes what can be deleted. -/
theorem Mirrors.deleteEach (h : Mirrors P caller bucket outcome now s keys)
    (objects : List String) :
    Mirrors P caller bucket outcome now
      (S3Service.deleteEach P uuid caller now bucket (objects.map fun key => (key, none)) s).2
      (keys.filter fun k => !(objects.contains k && outcome k)) := by
  induction objects generalizing s keys with
  | nil => simpa [S3Service.deleteEach] using h
  | cons key objects ih =>
      have hchecked := h.authorized uuid (objectCheck "DeleteObject" bucket key)
      have hanswer : (s.authorize uuid caller now (objectCheck "DeleteObject" bucket key)).1 =
          caller.check now "DeleteObject" bucket key :=
        (auditedCheck_cases caller now (objectCheck "DeleteObject" bucket key)).1
      rw [List.map_cons, S3Service.deleteEach, ← filter_cons_eq]
      rcases hauthorize : s.authorize uuid caller now (objectCheck "DeleteObject" bucket key) with
        ⟨answer, s'⟩
      rw [hauthorize] at hchecked hanswer
      cases answer with
      | error e =>
          have hstays : key ∈ keys → outcome key = false := by
            intro hkey
            rw [← h.outcomes key hkey, deletable, h.now, ← hanswer]
            rfl
          rw [filter_stays hstays]
          exact ih hchecked
      | ok _ =>
          have hallowed : (caller.check now "DeleteObject" bucket key).isOk = true := by
            rw [← hanswer]
            rfl
          have hdeleted := hchecked.deleted hallowed
          rcases hrun : (deleteObjectVersion P bucket key none).run s'.store with ⟨result, w⟩
          rw [hrun] at hdeleted
          cases result with
          | error e => simpa only [hrun] using ih hdeleted
          | ok response => simpa only [hrun] using ih hdeleted

/-- Everything is listed without a prefix. -/
theorem isListed_all (key : String) : isListed "" none key = true := by
  have hstarts : startsWith key "" = true := startsWith_iff.mpr ⟨key, String.empty_append.symm⟩
  rw [isListed_iff, rollUp_eq_listed_iff hstarts]
  exact ⟨key, String.empty_append.symm, fun delim hdelim => by cases hdelim⟩

theorem likeSelects_all (key : String) : likeSelects "" key = true := by
  have hpattern : likePattern "" = ['%'] := rfl
  rw [likeSelects, hpattern, SqliteLike.like_percent, Bool.and_true]
  decide

/-- **The first listing** shows the first thousand keys. -/
theorem Mirrors.listObjectsV2 (h : Mirrors P caller bucket outcome now s keys)
    (hcheck : caller.checkBucket now "ListObjectsV2" bucket = .ok ()) :
    ∃ response s', (strixClient P uuid caller bucket).listObjectsV2 none 1000 none s =
        (.ok response, s') ∧
      response.contents = keys.take 1000 ∧ Mirrors P caller bucket outcome now s' keys := by
  let input : ListObjectsV2Input := { bucket, keyPrefix := none, maxKeys := some (1000 : Nat) }
  have hsliced : ∀ key ∈ s.store.db.selectedKeys input.bucket input.head
      (input.startAfter <|> none), rollUp input.head input.delimiter key ≠ none := by
    intro key _ hnone
    have hlisted := isListed_iff.mp (isListed_all key)
    exact absurd (hnone.symm.trans hlisted) (by simp)
  have hcheck' : caller.checkBucket s.store.now "ListObjectsV2" input.bucket = .ok () := by
    rw [h.now]
    exact hcheck
  obtain ⟨output, houtput⟩ := exists_listPage hcheck' h.present hsliced
  have hrenders := listPage_renders hcheck' h.present houtput
  have hkeys : output.keys = keys.take 1000 := by
    have hall : (s.store.db.selectedKeys input.bucket input.head (input.startAfter <|> none)).filter
        (isListed input.head input.delimiter) = keys := by
      rw [← h.listed]
      exact List.filter_eq_self.mpr fun key _ => isListed_all key
    rw [hrenders.renders.shown, page_shown, hall]
    rfl
  have hrun : ((Strix.listObjectsV2 caller input).run s.store).1 = .ok (some output) := by
    have hinput : { input with continuationToken := none } = input := rfl
    cases hresult : ((Strix.listObjectsV2 caller input).run s.store).1 with
    | error e =>
        rw [Caller.listPage, hinput, hresult] at houtput
        cases houtput
    | ok result =>
        rw [Caller.listPage, hinput, hresult] at houtput
        rw [show result = some output from houtput]
  refine ⟨{ contents := output.keys, nextContinuationToken := output.nextContinuationToken }, _,
    ?_, hkeys, h.authorized uuid (bucketCheck "ListObjectsV2" bucket)⟩
  simp only [strixClient]
  rw [hrun, h.now]

/-- **A request to delete** deletes what can be deleted. -/
theorem Mirrors.deleteObjects (h : Mirrors P caller bucket outcome now s keys)
    (hcheck : caller.checkBucket now "DeleteObjects" bucket = .ok ()) (objects : List String) :
    ∃ response s', (strixClient P uuid caller bucket).deleteObjects objects s =
        (.ok response, s') ∧
      Mirrors P caller bucket outcome now s'
        (keys.filter fun k => !(objects.contains k && outcome k)) := by
  have hanswer : (s.authorize uuid caller now (bucketCheck "DeleteObjects" bucket)).1 = .ok () :=
    (auditedCheck_cases caller now (bucketCheck "DeleteObjects" bucket)).1.trans hcheck
  have hchecked := h.authorized uuid (bucketCheck "DeleteObjects" bucket)
  rcases hauthorize : s.authorize uuid caller now (bucketCheck "DeleteObjects" bucket) with
    ⟨answer, s'⟩
  rw [hauthorize] at hchecked hanswer
  obtain rfl : answer = .ok () := hanswer
  rcases heach : S3Service.deleteEach P uuid caller now bucket
    (objects.map fun key => (key, none)) s' with ⟨⟨deleted, errors⟩, s''⟩
  have hdeleted := hchecked.deleteEach uuid objects
  simp only [heach] at hdeleted
  refine ⟨{ deleted := deleted.map (·.1), errors := errors.map (·.key) }, s'', ?_, hdeleted⟩
  simp only [strixClient, S3Service.deleteObjects, h.now, hauthorize, heach]

/-- **The command against this server and against the bucket it mirrors.** -/
theorem Mirrors.deleteAllObjects (h : Mirrors P caller bucket outcome now s keys)
    (hlist : caller.checkBucket now "ListObjectsV2" bucket = .ok ())
    (hdelete : caller.checkBucket now "DeleteObjects" bucket = .ok ())
    (t : BucketState) (ht : t.keys = keys) (rounds : Nat) :
    (Strix.deleteAllObjects (strixClient P uuid caller bucket) rounds s).isSome =
      (Strix.deleteAllObjects (bucketClient Unit outcome) rounds t).isSome := by
  induction rounds generalizing s keys t with
  | zero => rfl
  | succ rounds ih =>
      obtain ⟨response, s', hlisted, hcontents, hmirrors⟩ := h.listObjectsV2 uuid hlist
      rw [deleteAllObjects_succ, Strix.deleteAllObjects, hlisted]
      simp only [hcontents, ht]
      by_cases hkeys : keys = []
      · simp [hkeys]
      · obtain ⟨deleted, s'', hrun, hafter⟩ :=
          hmirrors.deleteObjects uuid hdelete (keys.take 1000)
        rw [if_neg (by simpa using hkeys), if_neg hkeys, hrun]
        refine ih hafter _ ?_
        rw [BucketState.delete, ht]

end Mirror

/-- **Against this server `delete_all_objects` ends if and only if** the caller is allowed
to delete every object of the bucket, and none of them is locked. -/
theorem deleteAllObjects_strix_iff {s : ServiceWorld} (hreachable : (store P).Reachable s.store)
    (hpresent : bucketRowExists bucket s.store.db = true)
    (hlist : caller.checkBucket s.store.now "ListObjectsV2" bucket = .ok ())
    (hdelete : caller.checkBucket s.store.now "DeleteObjects" bucket = .ok ()) :
    (∃ rounds, (deleteAllObjects (strixClient P uuid caller bucket) rounds s).isSome) ↔
      ∀ key ∈ s.store.db.currentKeys bucket, deletable caller bucket s.store key = true := by
  have hmirrors : Mirrors P caller bucket (deletable caller bucket s.store) s.store.now s
      (s.store.listed bucket) :=
    ⟨wellFormed_reachable hreachable, hpresent, rfl, rfl, fun _ _ => rfl⟩
  have hlisted : ∀ key, key ∈ s.store.listed bucket ↔ key ∈ s.store.db.currentKeys bucket :=
    fun key => mem_selectedKeys.trans (and_iff_left ⟨likeSelects_all key, rfl⟩)
  have hsame (rounds : Nat) := hmirrors.deleteAllObjects uuid hlist hdelete
    { keys := s.store.listed bucket } rfl rounds
  simp only [hsame]
  constructor
  · rintro ⟨rounds, hends⟩ key hkey
    by_contra hstays
    rw [deleteAllObjects_eq_none _ ((hlisted key).mpr hkey) (Bool.eq_false_iff.mpr hstays)] at hends
    cases hends
  · exact fun hall => exists_deleteAllObjects fun key hkey => hall key ((hlisted key).mp hkey)

end Strix

import Strix.Copies
import Strix.ObjectEvents

/-!
# Tagging

Tags are an entry of the user metadata, and to change them the handlers copy the object
onto itself with new metadata.  A copy makes a new row: it has the columns a copy
knows, and it takes the place of all rows of the key, or where versioning is enabled
the place of the latest one.

* `tagEdit_copied`: what such a handler does is one copy with replaced metadata;
* `tagging_harmless_iff`: it changes nothing but the tags exactly when the key has one
  unversioned row without lock and without the headers that a copy drops;
* `legalHold_untagged`: taking the tags from a held object takes the hold.
-/

namespace Strix

open AtomicProgram AtomicProgram.Prog MachineRuns RowTable

/-- A change of an object's tags. -/
inductive TagEdit
  | put (tagSet : List SentTag)
  | delete

/-- The tags that the object is to have. -/
def TagEdit.tags : TagEdit → Except S3Error (List (String × String))
  | put tagSet => encodeObjectTags tagSet
  | delete => .ok []

/-- The metadata that the handler writes. -/
def TagEdit.rewrite (writeTags : List (String × String) → String) :
    TagEdit → Metadata → Except S3Error Metadata
  | put tagSet => withTags writeTags tagSet
  | delete => fun metadata => .ok (withoutTags metadata)

/-- `put_object_tagging` and `delete_object_tagging`. -/
def TagEdit.handle (P : Platform) (writeTags : List (String × String) → String)
    (caller : Caller) (bucket key : String) : TagEdit → S3Prog CopyObjectResponse
  | put tagSet =>
    S3Service.rewriteMetadata P caller "PutObjectTagging" bucket key (withTags writeTags tagSet)
  | delete =>
    S3Service.rewriteMetadata P caller "DeleteObjectTagging" bucket key
      fun metadata => .ok (withoutTags metadata)

/-- The JSON text of the tags is read back as the tags. -/
def TagEdit.RoundTrips (readTags : String → Option (List (String × String)))
    (writeTags : List (String × String) → String) : TagEdit → Prop
  | put tagSet => ∀ tags, encodeObjectTags tagSet = .ok tags → readTags (writeTags tags) = some tags
  | delete => True

/-- What an object has besides its content and its tags. -/
structure UntaggedDescription extends ObjectDescription where
  encryptionAlgorithm : Option ServerSideEncryption
  encryptionKeyMd5 : Option String
  legalHold : Bool
  retentionMode : Option RetentionMode
  retainUntilDate : Option DateTime
  deriving DecidableEq, Repr

/-- The description of a row without its tags. -/
def ObjectRow.untagged (r : ObjectRow) : UntaggedDescription where
  toObjectDescription :=
    { r.description with userMetadata := withoutTags (r.userMetadata.getD []) }
  encryptionAlgorithm := r.encryptionAlgorithm
  encryptionKeyMd5 := r.encryptionKeyMd5
  legalHold := r.legalHold
  retentionMode := r.retentionMode
  retainUntilDate := r.retainUntilDate

/-- The key has a version of this id. -/
def HasVersion (bucket key versionId : String) (db : Db) : Prop :=
  ∃ r ∈ db.objects, atVersion bucket key versionId r = true

/-- **Only the tags have changed:** the object is what it was without them and reads as
before, its key has the versions it had, and whoever may ask for the tags is told those
that the object was to have. -/
structure OnlyTagsChanged (P : Platform) (readTags : String → Option (List (String × String)))
    (w w' : World) (bucket key : String) (edit : TagEdit) : Prop where
  described : ∃ old new, selectObject bucket key none w.db = some old ∧
    selectObject bucket key none w'.db = some new ∧ new.untagged = old.untagged
  content : ∀ sseCustomerKey sseCustomerKeyMd5,
    wholeRead P bucket key sseCustomerKey sseCustomerKeyMd5 w' =
      wholeRead P bucket key sseCustomerKey sseCustomerKeyMd5 w
  versions : ∀ versionId, HasVersion bucket key versionId w'.db ↔ HasVersion bucket key versionId w.db
  tagged : ∃ tagSet, edit.tags = .ok tagSet ∧ ∀ reader : Caller,
    reader.check w'.now "GetObjectTagging" bucket key = .ok () →
      (S3Service.getObjectTagging readTags reader { bucket, key, versionId := none }).run w' =
        (.ok { tagSet, versionId := none }, w')

/-- **The copy onto itself does no harm:** versioning is not enabled, the key's versions
are unversioned, and the object has no lock and none of the headers that a copy drops. -/
structure TaggingHarmless (w : World) (bucket key : String) : Prop where
  status : versioningStatus bucket w.db ≠ some .enabled
  versions : ∀ r ∈ w.db.objects, atKey bucket key r = true → r.versionId = "null"
  object : ∃ r, selectObject bucket key none w.db = some r ∧ r.Headerless ∧
    r.legalHold = false ∧ r.retentionMode = none ∧ r.retainUntilDate = none

variable {P : Platform} {readTags : String → Option (List (String × String))}
  {writeTags : List (String × String) → String} {caller : Caller} {w w' : World}
  {bucket key : String} {edit : TagEdit} {reply : CopyObjectResponse}

/-! ## The metadata -/

theorem withoutTags_withoutTags (metadata : Metadata) :
    withoutTags (withoutTags metadata) = withoutTags metadata := by
  simp [withoutTags]

/-- Without its tags the metadata is what it was. -/
theorem TagEdit.withoutTags_rewrite {metadata rewritten : Metadata}
    (h : edit.rewrite writeTags metadata = .ok rewritten) :
    withoutTags rewritten = withoutTags metadata := by
  cases edit with
  | put tagSet =>
      cases htags : encodeObjectTags tagSet with
      | error e => simp [rewrite, withTags, htags, Bind.bind, Except.bind] at h
      | ok tags =>
          simp [rewrite, withTags, htags, Bind.bind, Except.bind, pure, Except.pure] at h
          rw [← h]
          simp [withoutTags]
  | delete =>
      cases h
      exact withoutTags_withoutTags metadata

/-- The tags are read back from the metadata. -/
theorem TagEdit.decode_rewrite {metadata rewritten : Metadata}
    (hjson : edit.RoundTrips readTags writeTags)
    (h : edit.rewrite writeTags metadata = .ok rewritten) :
    ∃ tags, edit.tags = .ok tags ∧ decodeObjectTags readTags rewritten = .ok tags := by
  cases edit with
  | put tagSet =>
      cases htags : encodeObjectTags tagSet with
      | error e => simp [rewrite, withTags, htags, Bind.bind, Except.bind] at h
      | ok tags =>
          simp [rewrite, withTags, htags, Bind.bind, Except.bind, pure, Except.pure] at h
          refine ⟨tags, htags, ?_⟩
          rw [← h]
          simp [decodeObjectTags, hjson tags htags]
  | delete =>
      cases h
      refine ⟨[], rfl, ?_⟩
      have hnone : (withoutTags metadata).lookup objectTagsMetadataKey = none := by
        rw [List.lookup_eq_none_iff]
        intro entry hentry
        have hother := (List.mem_filter.mp hentry).2
        rw [bne_iff_ne] at hother ⊢
        exact hother.symm
      rw [decodeObjectTags, hnone]

/-! ## The copy -/

/-- A change of tags is one copy of the object onto itself. -/
theorem tagEdit_copied (hw : (store P).Reachable w)
    (hrun : (edit.handle P writeTags caller bucket key).run w = (.ok reply, w')) :
    ∃ status src row metadata,
      edit.rewrite writeTags (src.userMetadata.getD []) = .ok metadata ∧
      Copied P w w' bucket key bucket key { metadataDirective := .replace, metadata } status src
        row := by
  have hhandle : ∃ action, edit.handle P writeTags caller bucket key =
      S3Service.rewriteMetadata P caller action bucket key (edit.rewrite writeTags) := by
    cases edit with
    | put tagSet => exact ⟨_, rfl⟩
    | delete => exact ⟨_, rfl⟩
  obtain ⟨action, hhandle⟩ := hhandle
  rw [hhandle, S3Service.rewriteMetadata, run_authorize_bind] at hrun
  cases hcheck : caller.check w.now action bucket key with
  | error e => simp [hcheck] at hrun
  | ok _ =>
      simp only [hcheck, run_bind, run_ofStore] at hrun
      cases hsrc : selectObject bucket key none w.db with
      | none => simp [headObject, query, hsrc, Except.mapError] at hrun
      | some src =>
          cases hmarker : src.isDeleteMarker with
          | true => simp [headObject, query, hsrc, hmarker, Except.mapError] at hrun
          | false =>
              have hhead : (headObject bucket key).run w = (.ok src.info, w) := by
                simp [headObject, query, hsrc, hmarker]
              simp only [hhead, Except.mapError, run_lift] at hrun
              cases hmetadata : edit.rewrite writeTags src.info.metadata with
              | error e => simp [hmetadata] at hrun
              | ok metadata =>
                  simp only [hmetadata] at hrun
                  cases hcopy : (copyObject P bucket key bucket key
                      { metadataDirective := .replace, metadata }).run w with
                  | mk result next =>
                      rw [hcopy] at hrun
                      cases result with
                      | error e => cases (Prod.mk.inj hrun).1
                      | ok response =>
                          obtain ⟨-, rfl⟩ := Prod.mk.inj hrun
                          obtain ⟨status, src', row, hcopied⟩ := copied_of_run hw hcopy
                          obtain rfl : src = src' :=
                            Option.some.inj (hsrc.symm.trans hcopied.source)
                          exact ⟨status, src, row, metadata, hmetadata, hcopied⟩

section Copy

variable {status : VersioningStatus} {src row : ObjectRow} {metadata : Metadata}

/-- Without its tags the new row is described as the old one, when that has nothing that
is lost. -/
theorem Copied.untagged_eq_iff
    (h : Copied P w w' bucket key bucket key { metadataDirective := .replace, metadata } status
      src row)
    (hmetadata : withoutTags metadata = withoutTags (src.userMetadata.getD [])) :
    row.untagged = src.untagged ↔ src.Headerless ∧
      src.legalHold = false ∧ src.retentionMode = none ∧ src.retainUntilDate = none := by
  rw [h.row_eq]
  simp only [ObjectRow.untagged, ObjectRow.description, copyRow, ObjectRow.info,
    Option.getD_some, hmetadata, UntaggedDescription.mk.injEq, ObjectDescription.mk.injEq,
    true_and, and_true]
  constructor
  · rintro ⟨⟨hencoding, hdisposition, hcontrol⟩, hhold, hmode, huntil⟩
    exact ⟨⟨hencoding.symm, hdisposition.symm, hcontrol.symm⟩, hhold.symm, hmode.symm,
      huntil.symm⟩
  · rintro ⟨hnone, hhold, hmode, huntil⟩
    exact ⟨⟨hnone.contentEncoding.symm, hnone.contentDisposition.symm,
      hnone.cacheControl.symm⟩, hhold.symm, hmode.symm, huntil.symm⟩

/-- Where versioning is not enabled, the new row is the key's only one. -/
theorem Copied.mem_atKey_iff
    (h : Copied P w w' bucket key bucket key { metadataDirective := .replace, metadata } status
      src row) (hdisabled : status ≠ .enabled) {r : ObjectRow} (hat : atKey bucket key r = true) :
    r ∈ w'.db.objects ↔ r = row := by
  rw [h.objects, roomMade, if_neg hdisabled, mem_insertRow, mem_deleteRows, hat]
  simp

/-- **The versions of the key stay the same** when versioning is not enabled and they are
unversioned: then one row takes the place of one. -/
theorem Copied.versions_iff (hw : WellFormed P w)
    (h : Copied P w w' bucket key bucket key { metadataDirective := .replace, metadata } status
      src row) :
    (∀ versionId, HasVersion bucket key versionId w'.db ↔ HasVersion bucket key versionId w.db) ↔
      status ≠ .enabled ∧ ∀ r ∈ w.db.objects, atKey bucket key r = true → r.versionId = "null" := by
  have hrow : atKey bucket key row = true := atKey_iff.mpr ⟨h.isNew.bucket_eq, h.isNew.key_eq⟩
  have hinserted : row ∈ w'.db.objects := by
    rw [h.objects]
    exact mem_insertRow.mpr (.inr rfl)
  constructor
  · intro hsame
    have hold : HasVersion bucket key row.versionId w.db :=
      (hsame _).mp ⟨row, hinserted, by simp [atVersion, hrow]⟩
    have hdisabled : status ≠ .enabled := by
      rintro rfl
      obtain ⟨r, hr, hversion⟩ := hold
      have hid : r.versionId = P.ulid w.draws := by
        rw [(atVersion_iff.mp hversion).2, h.isNew.versionId_eq, newVersionId, if_pos rfl,
          h.isNew.id_eq]
      rcases hw.versionIds r hr with hnull | hown
      · exact P.ulid_ne_null w.draws (hid.symm.trans hnull)
      · exact hw.ids.fresh (Nat.le_refl _) hr (hown.symm.trans hid)
    refine ⟨hdisabled, fun r hr hat => ?_⟩
    obtain ⟨r', hr', hversion⟩ := (hsame r.versionId).mpr ⟨r, hr, by simp [atVersion, hat]⟩
    obtain ⟨hkey, hid⟩ := atVersion_iff.mp hversion
    obtain rfl := (h.mem_atKey_iff hdisabled (atKey_iff.mpr hkey)).mp hr'
    rw [← hid, h.isNew.versionId_eq, newVersionId, if_neg hdisabled]
  · rintro ⟨hdisabled, hnull⟩ versionId
    have hrowNull : row.versionId = "null" := by
      rw [h.isNew.versionId_eq, newVersionId, if_neg hdisabled]
    obtain ⟨hsrc, hsrcBucket, hsrcKey⟩ := selectObject_some h.source
    have hsrcAt : atKey bucket key src = true := atKey_iff.mpr ⟨hsrcBucket, hsrcKey⟩
    have hafter : HasVersion bucket key versionId w'.db ↔ versionId = "null" := by
      constructor
      · rintro ⟨r, hr, hversion⟩
        obtain ⟨hkey, rfl⟩ := atVersion_iff.mp hversion
        obtain rfl := (h.mem_atKey_iff hdisabled (atKey_iff.mpr hkey)).mp hr
        exact hrowNull
      · rintro rfl
        exact ⟨row, hinserted, by simp [atVersion, hrow, hrowNull]⟩
    have hbefore : HasVersion bucket key versionId w.db ↔ versionId = "null" := by
      constructor
      · rintro ⟨r, hr, hversion⟩
        obtain ⟨hkey, rfl⟩ := atVersion_iff.mp hversion
        exact hnull r hr (atKey_iff.mpr hkey)
      · rintro rfl
        exact ⟨src, hsrc, by simp [atVersion, hsrcAt, hnull src hsrc hsrcAt]⟩
    exact hafter.trans hbefore.symm

/-- Whoever may ask for the tags is told those of the new row. -/
theorem Copied.getObjectTagging {tagSet : List (String × String)}
    (h : Copied P w w' bucket key bucket key { metadataDirective := .replace, metadata } status
      src row)
    (hdecode : decodeObjectTags readTags metadata = .ok tagSet) {reader : Caller}
    (hcheck : reader.check w'.now "GetObjectTagging" bucket key = .ok ()) :
    (S3Service.getObjectTagging readTags reader { bucket, key, versionId := none }).run w' =
      (.ok { tagSet, versionId := none }, w') := by
  have hinfo : row.info.metadata = metadata := by
    rw [h.row_eq]
    rfl
  have hhead : (headObject bucket key).run w' = (.ok row.info, w') := by
    simp [headObject, query, h.latest, h.isNew.notMarker]
  rw [S3Service.getObjectTagging, run_authorize_bind]
  simp [hcheck, run_bind, run_ofStore, hhead, hinfo, hdecode, Except.mapError]

end Copy

/-- **A change of tags changes nothing else, exactly** when versioning is not enabled, the
key has no version but the unversioned one, and the object has no lock, content encoding,
content disposition or cache control. -/
theorem tagging_harmless_iff (hw : (store P).Reachable w)
    (hjson : edit.RoundTrips readTags writeTags)
    (hrun : (edit.handle P writeTags caller bucket key).run w = (.ok reply, w')) :
    OnlyTagsChanged P readTags w w' bucket key edit ↔ TaggingHarmless w bucket key := by
  obtain ⟨status, src, row, metadata, hmetadata, hcopied⟩ := tagEdit_copied hw hrun
  have hrows := hcopied.untagged_eq_iff (TagEdit.withoutTags_rewrite hmetadata)
  have hversions := hcopied.versions_iff (wellFormed_reachable hw)
  obtain ⟨tagSet, htags, hdecode⟩ := edit.decode_rewrite hjson hmetadata
  constructor
  · intro h
    obtain ⟨old, new, hold, hnew, hdescribed⟩ := h.described
    obtain rfl : old = src := Option.some.inj (hold.symm.trans hcopied.source)
    obtain rfl : new = row := Option.some.inj (hnew.symm.trans hcopied.latest)
    obtain ⟨hdisabled, hnull⟩ := hversions.mp h.versions
    refine ⟨?_, hnull, old, hold, hrows.mp hdescribed⟩
    rw [hcopied.isNew.status_eq]
    exact fun henabled => hdisabled (Option.some.inj henabled)
  · rintro ⟨hstatus, hnull, src', hsrc, hplain⟩
    obtain rfl : src' = src := Option.some.inj (hsrc.symm.trans hcopied.source)
    rw [hcopied.isNew.status_eq] at hstatus
    constructor
    case described => exact ⟨src', row, hsrc, hcopied.latest, hrows.mpr hplain⟩
    case content => exact hcopied.content
    case versions => exact hversions.mpr ⟨fun heq => hstatus (congrArg some heq), hnull⟩
    case tagged =>
      exact ⟨tagSet, htags, fun reader hcheck => hcopied.getObjectTagging hdecode hcheck⟩

/-! ## A tagged letter, and a held one -/

/-- A tag, and its JSON text. -/
def teamTag : List (String × String) := [("team", "a")]

def teamTagText : String := "[[\"team\",\"a\"]]"

/-- The tags of an object are changed by the root user. -/
def tagLetter (edit : TagEdit) (w : World) : Except S3Error CopyObjectResponse × World :=
  (edit.handle executablePlatform (fun _ => teamTagText) rootCaller "docs" "k").run w

/-- Tagging a plain object does no harm. -/
theorem tagging_harmless_iff_letter :
    OnlyTagsChanged executablePlatform
      (fun text => if text = teamTagText then some teamTag else none) (letterWorld {})
      (tagLetter (.put [(some "team", some "a")]) (letterWorld {})).2 "docs" "k"
      (.put [(some "team", some "a")]) := by
  have hrun : tagLetter (.put [(some "team", some "a")]) (letterWorld {}) =
      (.ok letterReply, (tagLetter (.put [(some "team", some "a")]) (letterWorld {})).2) :=
    Prod.ext (by decide) rfl
  refine (tagging_harmless_iff ⟨letterRun {}, rfl⟩ ?_ hrun).mpr ?_
  · intro tags htags
    cases htags
    rfl
  · obtain ⟨src, hsrc⟩ : ∃ src, selectObject "docs" "k" none (letterWorld {}).db = some src :=
      Option.isSome_iff_exists.mp (by decide)
    have hplain : ∀ r ∈ (letterWorld {}).db.objects, r.versionId = "null" ∧
        (r.contentEncoding = none ∧ r.contentDisposition = none ∧ r.cacheControl = none) ∧
        r.legalHold = false ∧ r.retentionMode = none ∧ r.retainUntilDate = none := by decide
    obtain ⟨-, ⟨hencoding, hdisposition, hcontrol⟩, hlock⟩ := hplain src (selectObject_some hsrc).1
    exact {
      status := by decide
      versions := fun r hr _ => (hplain r hr).1
      object := ⟨src, hsrc, ⟨hencoding, hdisposition, hcontrol⟩, hlock⟩ }

/-- A letter under a legal hold. -/
def heldLetterRun : List Op := letterRun {} ++ [.putObjectLegalHold "docs" "k" none .on]

def heldLetterWorld : World :=
  (store executablePlatform).after (store executablePlatform).init heldLetterRun

/-- Taking the tags from a held object takes the hold. -/
theorem legalHold_untagged :
    ¬ ∀ (P : Platform) (readTags : String → Option (List (String × String)))
      (writeTags : List (String × String) → String) (caller : Caller) (w w' : World)
      (bucket key : String) (edit : TagEdit) (reply : CopyObjectResponse),
      (store P).Reachable w → edit.RoundTrips readTags writeTags →
      (edit.handle P writeTags caller bucket key).run w = (.ok reply, w') →
      OnlyTagsChanged P readTags w w' bucket key edit := by
  intro hall
  have hrun : tagLetter .delete heldLetterWorld =
      (.ok letterReply, (tagLetter .delete heldLetterWorld).2) := Prod.ext (by decide) rfl
  obtain ⟨old, new, hold, hnew, hdescribed⟩ :=
    (hall executablePlatform (fun _ => some teamTag) (fun _ => teamTagText) rootCaller
      heldLetterWorld _ "docs" "k" .delete letterReply ⟨heldLetterRun, rfl⟩ trivial hrun).described
  have hbefore : (selectObject "docs" "k" none heldLetterWorld.db).map (·.legalHold) =
      some true := by decide
  have hafter : (selectObject "docs" "k" none (tagLetter .delete heldLetterWorld).2.db).map
      (·.legalHold) = some false := by decide
  rw [hold] at hbefore
  rw [hnew] at hafter
  have hheld : old.legalHold = true := Option.some.inj hbefore
  have hfree : new.legalHold = false := Option.some.inj hafter
  have hsame : new.legalHold = old.legalHold := congrArg UntaggedDescription.legalHold hdescribed
  rw [hheld, hfree] at hsame
  cases hsame

end Strix

import Strix.ExecutablePlatform
import Strix.Tagging

/-!
# Tags in user metadata

Tags are kept under a name of the user metadata, which users may take as well, and what
readers are told of the metadata is not cleared of it.

* `tagEdit_run`, `tagsHeld_next`: what one change of tags does, whether it succeeds or not;
* `tagsHeld_after`: behind any changes the metadata is the user's, with the tags of the
  last change that succeeded;
* `tagsApart_iff`: when metadata and tags do not interfere;
* `taggedLetter_shown`: a reader of a tagged object is told its tags as metadata.
-/

namespace Strix

open AtomicProgram AtomicProgram.Prog MachineRuns RowTable

/-- Two maps agree on every name. -/
def SameMap (metadata metadata' : Metadata) : Prop :=
  ∀ name, metadata.lookup name = metadata'.lookup name

/-- A put, or a copy with new metadata, has written the object with this metadata. -/
inductive WrittenWith (P : Platform) (w w' : World) : String → String → Metadata → Prop
  | put {caller : Caller} {input : PutObjectInput} {response : PutObjectResponse}
      (h : (S3Service.putObject P caller input).run w = (.ok response, w')) :
      WrittenWith P w w' input.bucket input.key (input.headers.metadata.getD [])
  | copy {caller : Caller} {input : CopyObjectInput} {response : CopyObjectResponse}
      (hdirective : input.metadataDirective = some "REPLACE")
      (h : (S3Service.copyObject P caller input).run w = (.ok response, w')) :
      WrittenWith P w w' input.bucket input.key (input.metadata.getD [])

/-- The changes of the tags of one object, each by a caller. -/
def taggingMachine (P : Platform) (writeTags : List (String × String) → String)
    (bucket key : String) :
    Machine World (Caller × TagEdit) (Except S3Error CopyObjectResponse) where
  init := {}
  step w op := (op.2.handle P writeTags op.1 bucket key).run w

/-- The last change that succeeded. -/
def lastEdit (last : Option TagEdit) (_ : World) (op : Caller × TagEdit) :
    Except S3Error CopyObjectResponse → Option TagEdit
  | .ok _ => some op.2
  | .error _ => last

/-- The world behind the changes, and the last of them that succeeded. -/
def afterEdits (P : Platform) (writeTags : List (String × String) → String)
    (bucket key : String) (w : World) (edits : List (Caller × TagEdit)) :
    World × Option TagEdit :=
  ((taggingMachine P writeTags bucket key).observed lastEdit none).after (w, none) edits

/-- The tags that an object is to have behind its last change. -/
def lastTags : Option TagEdit → Except S3Error (List (String × String))
  | none => .ok []
  | some edit => edit.tags

/-- **Metadata and tags do not interfere**: whoever may ask is told the tags of the last
change, and the user's metadata. -/
structure TagsApart (P : Platform) (readTags : String → Option (List (String × String)))
    (w : World) (bucket key : String) (metadata : Metadata) (last : Option TagEdit) : Prop where
  tagging : ∀ (reader : Caller) (versionId : Option String),
    reader.check w.now "GetObjectTagging" bucket key = .ok () →
      ∃ tagSet, lastTags last = .ok tagSet ∧
        (S3Service.getObjectTagging readTags reader { bucket, key, versionId }).run w =
          (.ok { tagSet, versionId }, w)
  head : ∀ (reader : Caller) (versionId : Option String),
    reader.check w.now "HeadObject" bucket key = .ok () →
      ∃ output, (S3Service.headObject reader { bucket, key, versionId }).run w = (.ok output, w) ∧
        SameMap (output.metadata.getD []) metadata
  get : ∀ (reader : Caller) (input : GetObjectInput) (output : GetObjectOutput) (w' : World),
    input.bucket = bucket → input.key = key → input.versionId = none →
      (S3Service.getObject P reader input).run w = (.ok output, w') →
        SameMap (output.metadata.getD []) metadata

/-- **The name of the tags is the user's own as it is**: without a change it is free, or
says that there are no tags; behind a put it says just these tags, and behind a deletion it
is free. -/
def NameUntouched (readTags : String → Option (List (String × String)))
    (writeTags : List (String × String) → String) (metadata : Metadata) :
    Option TagEdit → Prop
  | none => ∀ text, metadata.lookup objectTagsMetadataKey = some text → readTags text = some []
  | some (.put tagSet) => ∃ tags, encodeObjectTags tagSet = .ok tags ∧
      metadata.lookup objectTagsMetadataKey = some (writeTags tags)
  | some .delete => metadata.lookup objectTagsMetadataKey = none

variable {P : Platform} {readTags : String → Option (List (String × String))}
  {writeTags : List (String × String) → String} {caller : Caller} {w w' : World}
  {bucket key : String} {edit : TagEdit} {last : Option TagEdit} {metadata : Metadata}

/-! ## The metadata behind the changes -/

/-- The metadata that is stored behind the last change. -/
def StoredAs (writeTags : List (String × String) → String) (metadata : Metadata) :
    Option TagEdit → Metadata → Prop
  | none, stored => stored = metadata
  | some edit, stored => edit.rewrite writeTags metadata = .ok stored

/-- A change looks at nothing but the other names. -/
theorem TagEdit.rewrite_congr {metadata' : Metadata}
    (h : withoutTags metadata = withoutTags metadata') :
    edit.rewrite writeTags metadata = edit.rewrite writeTags metadata' := by
  cases edit with
  | put tagSet => simp only [rewrite, withTags, h]
  | delete => simp only [rewrite, h]

/-- The other names are the user's. -/
theorem StoredAs.others {stored : Metadata} (h : StoredAs writeTags metadata last stored) :
    withoutTags stored = withoutTags metadata := by
  cases last with
  | none => rw [show stored = metadata from h]
  | some edit => exact edit.withoutTags_rewrite h

/-- Another change stores what it would have stored first. -/
theorem StoredAs.next {stored rewritten : Metadata} (h : StoredAs writeTags metadata last stored)
    (hnext : edit.rewrite writeTags stored = .ok rewritten) :
    StoredAs writeTags metadata (some edit) rewritten := by
  have hfirst : edit.rewrite writeTags metadata = edit.rewrite writeTags stored :=
    TagEdit.rewrite_congr h.others.symm
  exact hfirst.trans hnext

/-- The stored name is found among the other names as the user has it. -/
theorem lookup_withoutTags {name : String} (hname : name ≠ objectTagsMetadataKey)
    (metadata : Metadata) : (withoutTags metadata).lookup name = metadata.lookup name := by
  induction metadata with
  | nil => rfl
  | cons entry metadata ih =>
      obtain ⟨other, text⟩ := entry
      unfold Strix.withoutTags at ih ⊢
      by_cases hother : other = objectTagsMetadataKey
      · have hne : (name == other) = false := by
          rw [beq_eq_false_iff_ne, hother]
          exact hname
        rw [List.filter_cons_of_neg (by simp [hother]), ih, List.lookup_cons, hne]
      · rw [List.filter_cons_of_pos (by simp [hother]), List.lookup_cons, List.lookup_cons, ih]

/-- The name of the tags is not among the other names. -/
theorem lookup_withoutTags_self (metadata : Metadata) :
    (withoutTags metadata).lookup objectTagsMetadataKey = none := by
  rw [List.lookup_eq_none_iff]
  intro entry hentry
  have hother := (List.mem_filter.mp hentry).2
  rw [bne_iff_ne] at hother ⊢
  exact hother.symm

/-- Stored and user's metadata are the same map exactly if they agree on the name of the
tags. -/
theorem StoredAs.sameMap_iff {stored : Metadata} (h : StoredAs writeTags metadata last stored) :
    SameMap stored metadata ↔
      stored.lookup objectTagsMetadataKey = metadata.lookup objectTagsMetadataKey := by
  constructor
  · intro hsame
    exact hsame objectTagsMetadataKey
  · intro hkey name
    by_cases hname : name = objectTagsMetadataKey
    · rw [hname]
      exact hkey
    · rw [← lookup_withoutTags hname stored, h.others, lookup_withoutTags hname]

/-- What is stored under the name of the tags. -/
theorem StoredAs.lookup {stored : Metadata} (h : StoredAs writeTags metadata last stored) :
    match last with
    | none => stored = metadata
    | some (.put tagSet) => ∃ tags, encodeObjectTags tagSet = .ok tags ∧
        stored.lookup objectTagsMetadataKey = some (writeTags tags)
    | some .delete => stored.lookup objectTagsMetadataKey = none := by
  cases last with
  | none => exact h
  | some edit =>
      cases edit with
      | put tagSet =>
          cases htags : encodeObjectTags tagSet with
          | error e =>
              simp [StoredAs, TagEdit.rewrite, withTags, htags, Bind.bind, Except.bind] at h
          | ok tags =>
              simp [StoredAs, TagEdit.rewrite, withTags, htags, Bind.bind, Except.bind, pure,
                Except.pure] at h
              refine ⟨tags, htags, ?_⟩
              rw [← h]
              simp
      | delete =>
          cases h
          exact lookup_withoutTags_self metadata

/-! ## One change, and a run of them -/

/-- A change of tags is refused, or it is a copy of the object onto itself. -/
theorem tagEdit_run (edit : TagEdit) (caller : Caller) (bucket key : String) (w : World) :
    (∃ e, (edit.handle P writeTags caller bucket key).run w = (.error e, w)) ∨
      ∃ metadata, (edit.handle P writeTags caller bucket key).run w =
        (ofStore (copyObject P bucket key bucket key
          { metadataDirective := .replace, metadata })).run w := by
  have hhandle : ∃ action, edit.handle P writeTags caller bucket key =
      S3Service.rewriteMetadata P caller action bucket key (edit.rewrite writeTags) := by
    cases edit with
    | put tagSet => exact ⟨_, rfl⟩
    | delete => exact ⟨_, rfl⟩
  obtain ⟨action, hhandle⟩ := hhandle
  rw [hhandle, S3Service.rewriteMetadata, run_authorize_bind]
  cases caller.check w.now action bucket key with
  | error e => exact .inl ⟨e, rfl⟩
  | ok _ =>
      simp only [run_bind, run_ofStore]
      cases hsrc : selectObject bucket key none w.db with
      | none => exact .inl ⟨toS3Error (.objectNotFound bucket key),
          by simp [headObject, query, hsrc, Except.mapError]⟩
      | some src =>
          cases hmarker : src.isDeleteMarker with
          | true => exact .inl ⟨toS3Error (.objectNotFound bucket key),
              by simp [headObject, query, hsrc, hmarker, Except.mapError]⟩
          | false =>
              have hhead : (headObject bucket key).run w = (.ok src.info, w) := by
                simp [headObject, query, hsrc, hmarker]
              simp only [hhead, Except.mapError, run_lift]
              cases edit.rewrite writeTags src.info.metadata with
              | error e => exact .inl ⟨e, rfl⟩
              | ok metadata => exact .inr ⟨metadata, rfl⟩

/-- A change of tags leads from one state of the store to another. -/
theorem reachable_tagEdit (hw : (store P).Reachable w) :
    (store P).Reachable ((edit.handle P writeTags caller bucket key).run w).2 := by
  obtain ⟨e, hrefused⟩ | ⟨metadata, hcopy⟩ := tagEdit_run edit caller bucket key w
  · rw [hrefused]
    exact hw
  · rw [hcopy, run_ofStore]
    exact hw.next (.copyObject bucket key bucket key { metadataDirective := .replace, metadata })

/-- A change of tags that fails leaves the tables. -/
theorem db_of_tagEdit_error (hw : (store P).Reachable w) {e : S3Error}
    (h : ((edit.handle P writeTags caller bucket key).run w).1 = .error e) :
    ((edit.handle P writeTags caller bucket key).run w).2.db = w.db := by
  obtain ⟨e', hrefused⟩ | ⟨metadata, hcopy⟩ := tagEdit_run edit caller bucket key w
  · rw [hrefused]
  · rw [hcopy, run_ofStore] at h ⊢
    rcases copyObject_cases bucket key bucket key { metadataDirective := .replace, metadata }
      (wellFormed_reachable hw).ids with ⟨-, e', n, hfails, -⟩ | ⟨-, _, _, _, _, _, n, hok, -⟩
    · rw [hfails]
    · rw [hok] at h
      cases h

/-- The object is there, with the metadata that is stored behind the last change. -/
structure TagsHeld (P : Platform) (readTags : String → Option (List (String × String)))
    (writeTags : List (String × String) → String) (bucket key : String) (metadata : Metadata)
    (w : World) (last : Option TagEdit) : Prop where
  reachable : (store P).Reachable w
  readable : ∀ edit, last = some edit → edit.RoundTrips readTags writeTags
  object : ∃ row, selectObject bucket key none w.db = some row ∧ row.isDeleteMarker = false ∧
    StoredAs writeTags metadata last (row.userMetadata.getD [])

/-- **One change** replaces the tags if it succeeds, and nothing if it fails. -/
theorem tagsHeld_next {op : Caller × TagEdit} (hjson : op.2.RoundTrips readTags writeTags)
    (h : TagsHeld P readTags writeTags bucket key metadata w last) :
    TagsHeld P readTags writeTags bucket key metadata
      ((taggingMachine P writeTags bucket key).next w op)
      (lastEdit last w op ((taggingMachine P writeTags bucket key).reply w op)) := by
  obtain ⟨row, hrow, hmarker, hstored⟩ := h.object
  refine ⟨reachable_tagEdit h.reachable, ?_, ?_⟩
  · intro edit hedit
    cases hreply : (taggingMachine P writeTags bucket key).reply w op with
    | error e =>
        rw [hreply] at hedit
        exact h.readable edit hedit
    | ok response =>
        rw [hreply] at hedit
        rw [← Option.some.inj hedit]
        exact hjson
  cases hreply : (taggingMachine P writeTags bucket key).reply w op with
  | error e =>
      have hdb : ((taggingMachine P writeTags bucket key).next w op).db = w.db :=
        db_of_tagEdit_error h.reachable hreply
      rw [hdb]
      exact ⟨row, hrow, hmarker, hstored⟩
  | ok response =>
      have hrun : (op.2.handle P writeTags op.1 bucket key).run w =
          (.ok response, (taggingMachine P writeTags bucket key).next w op) := Prod.ext hreply rfl
      obtain ⟨status, src, new, stored, hrewrite, hcopied⟩ := tagEdit_copied h.reachable hrun
      obtain rfl : src = row := Option.some.inj (hcopied.source.symm.trans hrow)
      refine ⟨new, hcopied.latest, hcopied.isNew.notMarker, ?_⟩
      rw [hcopied.row_eq]
      exact hstored.next hrewrite

/-- **Behind any changes** the object has the user's metadata, with the tags of the last. -/
theorem tagsHeld_after (h : TagsHeld P readTags writeTags bucket key metadata w last)
    {edits : List (Caller × TagEdit)}
    (hjson : ∀ op ∈ edits, op.2.RoundTrips readTags writeTags) :
    TagsHeld P readTags writeTags bucket key metadata
      (((taggingMachine P writeTags bucket key).observed lastEdit none).after (w, last) edits).1
      (((taggingMachine P writeTags bucket key).observed lastEdit none).after (w, last) edits).2 := by
  rw [Machine.observed_after_fst]
  have hall : (taggingMachine P writeTags bucket key).AllSteps
      (fun _ op => op.2.RoundTrips readTags writeTags ∧ True) w edits :=
    ((taggingMachine P writeTags bucket key).allSteps_and_forall_iff w edits).mpr
      ⟨hjson, (taggingMachine P writeTags bucket key).allSteps_of_forall (fun _ _ => trivial) w edits⟩
  refine Machine.invariant_observed ?_ h hall
  intro s g op hs hop
  exact tagsHeld_next hop.1 hs

/-- A put writes the metadata it was given. -/
theorem tagsHeld_of_put (hw : (store P).Reachable w) {body : ObjectBody} {opts : PutObjectOpts}
    {response : PutObjectResponse}
    (h : (putObject P bucket key body opts).run w = (.ok response, w')) :
    TagsHeld P readTags writeTags bucket key opts.metadata w' none := by
  have hreachable : (store P).Reachable w' := by
    have hnext := hw.next (.putObject bucket key body opts)
    have hworld : (store P).next w (.putObject bucket key body opts) =
        ((putObject P bucket key body opts).run w).2 := rfl
    rw [hworld, h] at hnext
    exact hnext
  refine ⟨hreachable, by simp, ?_⟩
  rcases putObject_cases bucket key body opts (wellFormed_reachable hw).ids with
    ⟨-, e, n, hfails, -⟩ | ⟨-, status, row, _, content, data, n, hok, -, hnew, -, -, hrow, -⟩
  · rw [hfails] at h
    cases h
  · rw [hok] at h
    obtain ⟨-, rfl⟩ := Prod.mk.inj h
    refine ⟨row, selectObject_install hnew, hnew.notMarker, ?_⟩
    rw [hrow]
    rfl

/-- A copy with new metadata writes what it was given. -/
theorem tagsHeld_of_copy (hw : (store P).Reachable w) {srcBucket srcKey : String}
    {response : CopyObjectResponse}
    (h : (copyObject P srcBucket srcKey bucket key
      { metadataDirective := .replace, metadata }).run w = (.ok response, w')) :
    TagsHeld P readTags writeTags bucket key metadata w' none := by
  have hreachable : (store P).Reachable w' := by
    have hnext := hw.next (.copyObject srcBucket srcKey bucket key
      { metadataDirective := .replace, metadata })
    have hworld : (store P).next w (.copyObject srcBucket srcKey bucket key
        { metadataDirective := .replace, metadata }) =
        ((copyObject P srcBucket srcKey bucket key
          { metadataDirective := .replace, metadata }).run w).2 := rfl
    rw [hworld, h] at hnext
    exact hnext
  obtain ⟨status, src, row, hcopied⟩ := copied_of_run hw h
  refine ⟨hreachable, by simp, row, hcopied.latest, hcopied.isNew.notMarker, ?_⟩
  rw [hcopied.row_eq]
  rfl

/-- **What is written** has its metadata as the user gave it. -/
theorem tagsHeld_of_written (hw : (store P).Reachable w)
    (h : WrittenWith P w w' bucket key metadata) :
    TagsHeld P readTags writeTags bucket key metadata w' none := by
  cases h with
  | @put caller input response hrun =>
      have hbody := authorize_bind_ok hrun
      rw [run_require_bind] at hbody
      cases hthere : input.body with
      | none => simp [hthere] at hbody
      | some body =>
          simp only [hthere] at hbody
          exact tagsHeld_of_put hw (ofStore_ok hbody)
  | @copy caller input response hdirective hrun =>
      have hsource := authorize_bind_ok hrun
      rw [run_lift_bind] at hsource
      cases hcopied : copySourceOf input.copySource with
      | error e => simp [hcopied] at hsource
      | ok source =>
          simp only [hcopied] at hsource
          have hcopy := ofStore_ok (authorize_bind_ok hsource)
          have hopts : input.opts =
              { metadataDirective := .replace, metadata := input.metadata.getD [] } := by
            unfold CopyObjectInput.opts
            rw [if_pos hdirective]
          rw [hopts] at hcopy
          exact tagsHeld_of_copy hw hcopy

/-! ## When they do not interfere -/

/-- The root user may do everything. -/
theorem rootCaller_check (now : DateTime) (action : String) :
    rootCaller.check now action bucket key = .ok () := rfl

section Readers

variable {row : ObjectRow}

/-- What the object's head reports. -/
theorem headObject_run (hrow : selectObject bucket key none w.db = some row)
    (hmarker : row.isDeleteMarker = false) :
    (headObject bucket key).run w = (.ok row.info, w) := by
  simp [headObject, query, hrow, hmarker]

/-- Whoever may ask for the tags is told what the metadata says of them. -/
theorem getObjectTagging_run (hrow : selectObject bucket key none w.db = some row)
    (hmarker : row.isDeleteMarker = false) {reader : Caller} (versionId : Option String)
    (hcheck : reader.check w.now "GetObjectTagging" bucket key = .ok ()) :
    (S3Service.getObjectTagging readTags reader { bucket, key, versionId }).run w =
      ((decodeObjectTags readTags (row.userMetadata.getD [])).map
        fun tagSet => { tagSet, versionId }, w) := by
  rw [S3Service.getObjectTagging, run_authorize_bind]
  simp only [hcheck, run_bind, run_ofStore, headObject_run hrow hmarker, Except.mapError, run_lift]
  have hinfo : row.info.metadata = row.userMetadata.getD [] := rfl
  rw [hinfo]
  cases decodeObjectTags readTags (row.userMetadata.getD []) with
  | error e => rfl
  | ok tagSet => rfl

/-- The report of an object has its metadata. -/
theorem headObjectOutput_metadata (info : ObjectInfo) :
    (headObjectOutput info).metadata.getD [] = info.metadata := by
  unfold headObjectOutput
  cases info.metadata with
  | nil => rfl
  | cons entry metadata => rfl

/-- Whoever may ask for the head is told the metadata. -/
theorem headObject_handler_run (hrow : selectObject bucket key none w.db = some row)
    (hmarker : row.isDeleteMarker = false) {reader : Caller} (versionId : Option String)
    (hcheck : reader.check w.now "HeadObject" bucket key = .ok ()) :
    (S3Service.headObject reader { bucket, key, versionId }).run w =
      (.ok (headObjectOutput row.info), w) := by
  rw [S3Service.headObject, run_authorize_bind]
  simp [hcheck, run_bind, run_ofStore, headObject_run hrow hmarker, Except.mapError]

/-- Whoever reads the object is told the metadata. -/
theorem getObject_handler_metadata (hrow : selectObject bucket key none w.db = some row)
    {reader : Caller} {input : GetObjectInput} {output : GetObjectOutput}
    (hbucket : input.bucket = bucket) (hkey : input.key = key) (hversion : input.versionId = none)
    (h : (S3Service.getObject P reader input).run w = (.ok output, w')) :
    output.metadata.getD [] = row.userMetadata.getD [] := by
  have hread := authorize_bind_ok h
  have hselect : selectObject input.bucket input.key (input.opts reader.headers).versionId w.db =
      some row := by
    rw [hbucket, hkey]
    unfold GetObjectInput.opts
    dsimp only
    rw [hversion]
    exact hrow
  simp only [run_bind, run_ofStore, getObject_run, hselect] at hread
  cases hcontent : readContent P input.bucket input.key (input.opts reader.headers) row
      (w.files.objects row.id) with
  | error e => simp [hcontent, Except.map, Except.mapError] at hread
  | ok body =>
      simp only [hcontent, Except.map, Except.mapError] at hread
      obtain rfl := Except.ok.inj (Prod.mk.inj hread).1
      exact headObjectOutput_metadata row.info

end Readers

/-- What the stored metadata says of the tags is what the last change was to make of them. -/
theorem decode_stored {edit : TagEdit} {stored : Metadata}
    (hjson : edit.RoundTrips readTags writeTags)
    (h : StoredAs writeTags metadata (some edit) stored) :
    ∃ tagSet, lastTags (some edit) = .ok tagSet ∧ decodeObjectTags readTags stored = .ok tagSet :=
  edit.decode_rewrite hjson h

/-- The stored name of the tags is the user's exactly if it is untouched, for a change. -/
theorem StoredAs.lookup_eq_iff {edit : TagEdit} {stored : Metadata}
    (h : StoredAs writeTags metadata (some edit) stored) :
    stored.lookup objectTagsMetadataKey = metadata.lookup objectTagsMetadataKey ↔
      NameUntouched readTags writeTags metadata (some edit) := by
  have hlookup := h.lookup
  cases edit with
  | put tagSet =>
      obtain ⟨tags, htags, hstored⟩ := hlookup
      rw [hstored]
      constructor
      · intro heq
        exact ⟨tags, htags, heq.symm⟩
      · intro huntouched
        obtain ⟨tags', htags', huser⟩ := huntouched
        rw [htags] at htags'
        rw [huser, Except.ok.inj htags']
  | delete =>
      have hnone : stored.lookup objectTagsMetadataKey = none := hlookup
      rw [hnone]
      exact eq_comm

/-- What is told of an object's tags, for the metadata it has. -/
theorem tagsApart_of_held_iff (h : TagsHeld P readTags writeTags bucket key metadata w last) :
    TagsApart P readTags w bucket key metadata last ↔
      NameUntouched readTags writeTags metadata last := by
  obtain ⟨row, hrow, hmarker, hstored⟩ := h.object
  constructor
  · intro hapart
    obtain ⟨tagSet, htags, htold⟩ := hapart.tagging rootCaller none (rootCaller_check w.now _)
    rw [getObjectTagging_run hrow hmarker none (rootCaller_check w.now _)] at htold
    obtain ⟨output, hhead, hsame⟩ := hapart.head rootCaller none (rootCaller_check w.now _)
    rw [headObject_handler_run hrow hmarker none (rootCaller_check w.now _)] at hhead
    obtain rfl := Except.ok.inj (Prod.mk.inj hhead).1
    rw [headObjectOutput_metadata] at hsame
    cases last with
    | some edit => exact hstored.lookup_eq_iff.mp (hstored.sameMap_iff.mp hsame)
    | none =>
        -- nothing is stored but what the user gave
        intro text htext
        obtain rfl := Except.ok.inj htags
        have hmetadata : row.userMetadata.getD [] = metadata := hstored
        rw [hmetadata, decodeObjectTags, htext] at htold
        cases hread : readTags text with
        | none => simp [hread, Except.map] at htold
        | some tags =>
            simp only [hread, Except.map, Prod.mk.injEq, Except.ok.injEq, and_true,
              GetObjectTaggingOutput.mk.injEq] at htold
            rw [htold]
  · intro huntouched
    have hsame : SameMap (row.userMetadata.getD []) metadata := by
      cases last with
      | none =>
          have hmetadata : row.userMetadata.getD [] = metadata := hstored
          intro name
          rw [hmetadata]
      | some edit => exact hstored.sameMap_iff.mpr (hstored.lookup_eq_iff.mpr huntouched)
    have hdecode : ∃ tagSet, lastTags last = .ok tagSet ∧
        decodeObjectTags readTags (row.userMetadata.getD []) = .ok tagSet := by
      cases last with
      | some edit => exact decode_stored (h.readable edit rfl) hstored
      | none =>
          refine ⟨[], rfl, ?_⟩
          have hmetadata : row.userMetadata.getD [] = metadata := hstored
          rw [hmetadata, decodeObjectTags]
          cases htext : metadata.lookup objectTagsMetadataKey with
          | none => rfl
          | some text => simp [huntouched text htext]
    obtain ⟨tagSet, htags, hdecode⟩ := hdecode
    constructor
    case tagging =>
      intro reader versionId hcheck
      refine ⟨tagSet, htags, ?_⟩
      rw [getObjectTagging_run hrow hmarker versionId hcheck, hdecode]
      rfl
    case head =>
      intro reader versionId hcheck
      refine ⟨_, headObject_handler_run hrow hmarker versionId hcheck, ?_⟩
      rw [headObjectOutput_metadata]
      exact hsame
    case get =>
      intro reader input output w' hbucket hkey hversion hrun
      rw [getObject_handler_metadata hrow hbucket hkey hversion hrun]
      exact hsame

/-- **When metadata and tags do not interfere.**  For every metadata that a put or a copy
was given and every run of changes of the tags behind it: exactly if the name of the tags
is as the user gave it. -/
theorem tagsApart_iff (hw : (store P).Reachable w)
    (hwritten : WrittenWith P w w' bucket key metadata) {edits : List (Caller × TagEdit)}
    (hjson : ∀ op ∈ edits, op.2.RoundTrips readTags writeTags) :
    TagsApart P readTags (afterEdits P writeTags bucket key w' edits).1 bucket key metadata
        (afterEdits P writeTags bucket key w' edits).2 ↔
      NameUntouched readTags writeTags metadata
        (afterEdits P writeTags bucket key w' edits).2 :=
  tagsApart_of_held_iff (tagsHeld_after (tagsHeld_of_written hw hwritten) hjson)

/-! ## A letter with metadata -/

/-- The bucket of the letter. -/
def docsBucketWorld : World :=
  (store executablePlatform).after (store executablePlatform).init [.createBucket "docs" {}]

/-- The root user puts the letter with this metadata. -/
def putTaggedLetter (metadata : Metadata) : Except S3Error PutObjectResponse × World :=
  (S3Service.putObject executablePlatform rootCaller
    { bucket := "docs", key := "k", body := some [.ok [97]],
      headers := { metadata := some metadata } }).run docsBucketWorld

/-- What the put answers. -/
def letterPutReply : PutObjectResponse where
  etag := "\"0cc175b9c0f1b6a831c399e269772661\""
  versionId := none

/-- The letter behind changes of its tags by the root user. -/
def letterAfter (metadata : Metadata) (edits : List TagEdit) : World × Option TagEdit :=
  afterEdits executablePlatform (fun _ => teamTagText) "docs" "k" (putTaggedLetter metadata).2
    (edits.map fun edit => (rootCaller, edit))

/-- The reader of the one text. -/
def readTeamTag (text : String) : Option (List (String × String)) :=
  if text = teamTagText then some teamTag else none

/-- The tag as it is sent. -/
def sentTeamTag : TagEdit := .put [(some "team", some "a")]

/-- A letter that was tagged, and whose tags were deleted again, is as it was. -/
theorem tagsApart_iff_deleted :
    TagsApart executablePlatform readTeamTag
      (letterAfter [("author", "me")] [sentTeamTag, .delete]).1 "docs" "k" [("author", "me")]
      (letterAfter [("author", "me")] [sentTeamTag, .delete]).2 := by
  have hput : putTaggedLetter [("author", "me")] =
      (.ok letterPutReply, (putTaggedLetter [("author", "me")]).2) :=
    Prod.ext (by decide) rfl
  have hjson : ∀ op ∈ [sentTeamTag, .delete].map fun edit => (rootCaller, edit),
      op.2.RoundTrips readTeamTag fun _ => teamTagText := by
    intro op hop
    obtain rfl | hop := List.mem_cons.mp hop
    · intro tags htags
      cases htags
      rfl
    · obtain rfl := List.mem_singleton.mp hop
      trivial
  have hlast : (letterAfter [("author", "me")] [sentTeamTag, .delete]).2 = some .delete :=
    rfl
  refine (tagsApart_iff ⟨[.createBucket "docs" {}], rfl⟩ (.put hput) hjson).mpr ?_
  exact hlast ▸ (rfl : ([("author", "me")] : Metadata).lookup objectTagsMetadataKey = none)

/-- A tagged letter is read with its tags among its metadata, and the metadata of another
is taken for tags that cannot be read. -/
theorem taggedLetter_shown :
    ((S3Service.headObject rootCaller { bucket := "docs", key := "k" }).run
        (letterAfter [("author", "me")] [sentTeamTag]).1).1.map (·.metadata) =
      .ok (some [(objectTagsMetadataKey, teamTagText), ("author", "me")]) ∧
    ¬SameMap [(objectTagsMetadataKey, teamTagText), ("author", "me")] [("author", "me")] ∧
    ((S3Service.getObjectTagging readTeamTag rootCaller { bucket := "docs", key := "k" }).run
        (letterAfter [(objectTagsMetadataKey, "mine")] []).1).1 =
      .error (s3Error .internalError "Invalid stored object tags") := by
  refine ⟨by decide, ?_, by decide⟩
  intro hsame
  have hname := hsame objectTagsMetadataKey
  revert hname
  decide

end Strix

import Mathlib.Data.List.Forall2
import Strix.ConfigurationRules

/-!
# Requests that configure buckets

The handlers that put, get and delete configurations of buckets, among all that happens to
the store.  What is put as a notification configuration is not kept.

* `configured_after`: after every run, what was put last is stored as it was converted;
* `configurationsReturned_iff`: it is returned exactly if the store can represent it.
-/

namespace Strix

open MachineRuns RowTable

/-! ## The handlers -/

/-- A call of the store for a caller who is authorized. -/
def ConfiguredWorld.authorized (s : ConfiguredWorld) (caller : Caller) (action bucket : String)
    (call : ConfiguredWorld → Except Error Unit × ConfiguredWorld) :
    Except S3Error Unit × ConfiguredWorld :=
  match caller.checkBucket s.world.now action bucket with
  | .error e => (.error e, s)
  | .ok () => ((call s).1.mapError toS3Error, (call s).2)

namespace S3Service

/-- `get_bucket_cors`. -/
def getBucketCors (texts : ConfigTexts) (caller : Caller) (bucket : String)
    (s : ConfiguredWorld) : Except S3Error (Option (List S3s.CORSRule)) := do
  caller.checkBucket s.world.now "GetBucketCors" bucket
  match ← (Strix.getBucketCors texts bucket s).mapError toS3Error with
  | some config => .ok (some (config.rules.map (·.toDto)))
  | none => .error (s3Error .noSuchCORSConfiguration "CORS configuration not found")

/-- `put_bucket_cors`. -/
def putBucketCors (caller : Caller) (bucket : String) (config : S3s.CORSConfiguration)
    (s : ConfiguredWorld) : Except S3Error Unit × ConfiguredWorld :=
  s.authorized caller "PutBucketCors" bucket (Strix.putBucketCors bucket config.toCore)

/-- `delete_bucket_cors`. -/
def deleteBucketCors (caller : Caller) (bucket : String) (s : ConfiguredWorld) :
    Except S3Error Unit × ConfiguredWorld :=
  s.authorized caller "DeleteBucketCors" bucket (Strix.deleteBucketCors bucket)

/-- `get_bucket_lifecycle_configuration`. -/
def getBucketLifecycleConfiguration (texts : ConfigTexts) (caller : Caller) (bucket : String)
    (s : ConfiguredWorld) : Except S3Error (Option (List S3s.LifecycleRule)) := do
  caller.checkBucket s.world.now "GetBucketLifecycleConfiguration" bucket
  match ← (getBucketLifecycle texts bucket s).mapError toS3Error with
  | some config => .ok (some (config.rules.map (·.toDto)))
  | none =>
    .error (s3Error .noSuchLifecycleConfiguration "Lifecycle configuration not found")

/-- `put_bucket_lifecycle_configuration`. -/
def putBucketLifecycleConfiguration (texts : ConfigTexts) (caller : Caller) (bucket : String)
    (config : Option S3s.BucketLifecycleConfiguration) (s : ConfiguredWorld) :
    Except S3Error Unit × ConfiguredWorld :=
  s.authorized caller "PutBucketLifecycleConfiguration" bucket
    (putBucketLifecycle texts bucket (lifecycleToCore config))

/-- `delete_bucket_lifecycle`. -/
def deleteBucketLifecycle (caller : Caller) (bucket : String) (s : ConfiguredWorld) :
    Except S3Error Unit × ConfiguredWorld :=
  s.authorized caller "DeleteBucketLifecycle" bucket (Strix.deleteBucketLifecycle bucket)

/-- `get_bucket_notification_configuration`: the configuration is read, and an empty one
returned. -/
def getBucketNotificationConfiguration (caller : Caller) (bucket : String)
    (s : ConfiguredWorld) : Except S3Error S3s.NotificationConfiguration := do
  caller.checkBucket s.world.now "GetBucketNotificationConfiguration" bucket
  let _config ← (getBucketNotification bucket s.notificationWorld).mapError toS3Error
  .ok
    { lambdaFunctionConfigurations := none
      queueConfigurations := none
      topicConfigurations := none
      eventBridgeConfiguration := none }

/-- `put_bucket_notification_configuration` verifies that the bucket exists. -/
def putBucketNotificationConfiguration (caller : Caller) (bucket : String)
    (_config : S3s.NotificationConfiguration) (s : ConfiguredWorld) :
    Except S3Error Unit × ConfiguredWorld :=
  s.authorized caller "PutBucketNotificationConfiguration" bucket fun s =>
    s.onBucket bucket (.ok s)

end S3Service

/-! ## Runs -/

/-- What happens to the store: calls on its buckets and objects, requests of clients for
configurations, and notification rules that the admin API saves. -/
inductive ConfigurationStep
  | call (op : Op)
  | putCors (caller : Caller) (bucket : String) (config : S3s.CORSConfiguration)
  | deleteCors (caller : Caller) (bucket : String)
  | putLifecycle (caller : Caller) (bucket : String)
      (config : Option S3s.BucketLifecycleConfiguration)
  | deleteLifecycle (caller : Caller) (bucket : String)
  | putNotification (caller : Caller) (bucket : String) (config : S3s.NotificationConfiguration)
  | saveRules (bucket : String) (config : NotificationConfiguration)

variable (P : Platform) (texts : ConfigTexts)

/-- The store with its configurations, from the moment it is created. -/
def configurations : Machine ConfiguredWorld ConfigurationStep (Except S3Error Unit) where
  init := {}
  step s
    | .call op =>
      let result := step P s.world op
      ((result.1.map fun _ => ()).mapError toS3Error, s.cascade op result.1 result.2)
    | .putCors caller bucket config => S3Service.putBucketCors caller bucket config s
    | .deleteCors caller bucket => S3Service.deleteBucketCors caller bucket s
    | .putLifecycle caller bucket config =>
      S3Service.putBucketLifecycleConfiguration texts caller bucket config s
    | .deleteLifecycle caller bucket => S3Service.deleteBucketLifecycle caller bucket s
    | .putNotification caller bucket config =>
      S3Service.putBucketNotificationConfiguration caller bucket config s
    | .saveRules bucket config =>
      let result := putBucketNotification bucket config s.notificationWorld
      (result.1.mapError toS3Error, { s with notifications := result.2.notifications })

/-- What clients have put for a bucket and nobody has deleted since. -/
structure LastPuts where
  cors : Option S3s.CORSConfiguration := none
  lifecycle : Option (Option S3s.BucketLifecycleConfiguration) := none
  notification : Option S3s.NotificationConfiguration := none

/-- The last puts for the bucket after a step that succeeded. -/
def LastPuts.followed (last : LastPuts) (bucket : String) : ConfigurationStep → LastPuts
  | .call (.deleteBucket b) => if b = bucket then {} else last
  | .putCors _ b config => if b = bucket then { last with cors := some config } else last
  | .deleteCors _ b => if b = bucket then { last with cors := none } else last
  | .putLifecycle _ b config =>
    if b = bucket then { last with lifecycle := some config } else last
  | .deleteLifecycle _ b => if b = bucket then { last with lifecycle := none } else last
  | .putNotification _ b config =>
    if b = bucket then { last with notification := some config } else last
  | _ => last

/-- An observer who notes the last puts for the bucket. -/
def noteLastPuts (bucket : String) (last : LastPuts) (_ : ConfiguredWorld)
    (op : ConfigurationStep) (reply : Except S3Error Unit) : LastPuts :=
  match reply with
  | .ok _ => last.followed bucket op
  | .error _ => last

/-- The store after a run, and the last puts for the bucket. -/
def afterConfiguring (bucket : String) (ops : List ConfigurationStep) :
    ConfiguredWorld × LastPuts :=
  ((configurations P texts).observed (noteLastPuts bucket) {}).after ({}, {}) ops

variable {P texts}

/-! ## What is stored of the last puts -/

/-- A bucket that is not deleted stays. -/
theorem bucketRowExists_next {w : World} (hw : WellFormed P w) {bucket : String} {op : Op}
    (hthere : bucketRowExists bucket w.db = true)
    (hkept : op = .deleteBucket bucket → ∀ reply, (step P w op).1 ≠ .ok reply) :
    bucketRowExists bucket (step P w op).2.db = true := by
  obtain ⟨b, hb, hname⟩ := bucketRowExists_iff.mp hthere
  rw [bucketRowExists_iff]
  have heffect : ObjectsEffect P w (step P w op).2 op :=
    (step_effect hw.ids hw.uploadIds op).objects
  rcases heffect.buckets with hsame | ⟨-, ⟨_, _, -, -, hins⟩ | ⟨other, hop, -, hdel⟩ |
    ⟨other, enabled, -, hset⟩⟩
  · exact ⟨b, hsame ▸ hb, hname⟩
  · exact ⟨b, hins ▸ mem_insertRow.mpr (Or.inl hb), hname⟩
  · by_cases hother : other = bucket
    · -- the call that deletes the bucket was refused
      subst hop hother
      rcases deleteBucket_cases w other with ⟨e, hrun⟩ | ⟨-, hrun⟩
      · have hsame : (step P w (.deleteBucket other)).2 = w := congrArg Prod.snd hrun
        exact ⟨b, hsame.symm ▸ hb, hname⟩
      · have hok : (step P w (.deleteBucket other)).1 = .ok .done := by
          simp [step, answering, hrun, Except.map]
        exact absurd hok (hkept rfl _)
    · refine ⟨b, hdel ▸ mem_deleteRows.mpr ⟨hb, ?_⟩, hname⟩
      rw [hname]
      exact beq_eq_false_iff_ne.mpr (Ne.symm hother)
  · rw [hset]
    by_cases hp : (b.name == other) = true
    · exact ⟨_, assign_mem_updateRows hb hp, hname⟩
    · exact ⟨b, mem_updateRows_of_not hb (by simpa using hp), hname⟩

/-- **The last puts are stored** as they were converted, in a bucket that is there. -/
structure LastPuts.Stored (texts : ConfigTexts) (bucket : String) (last : LastPuts)
    (s : ConfiguredWorld) : Prop where
  cors : ∀ config, last.cors = some config → bucketRowExists bucket s.world.db = true ∧
    storedConfig bucket s.cors = some config.toCore.toValue
  lifecycle : ∀ config, last.lifecycle = some config → bucketRowExists bucket s.world.db = true ∧
    storedConfig bucket s.lifecycles = some ((lifecycleToCore config).toValue texts)
  notification : ∀ config, last.notification = some config →
    bucketRowExists bucket s.world.db = true

section Steps

variable {bucket : String} {last : LastPuts} {s after : ConfiguredWorld}

theorem LastPuts.Stored.nothing : LastPuts.Stored texts bucket {} s where
  cors _ h := nomatch h
  lifecycle _ h := nomatch h
  notification _ h := nomatch h

/-- What leaves the bucket and its configurations leaves what is stored. -/
theorem LastPuts.Stored.congr (h : last.Stored texts bucket s)
    (hthere : bucketRowExists bucket s.world.db = true →
      bucketRowExists bucket after.world.db = true)
    (hcors : storedConfig bucket after.cors = storedConfig bucket s.cors)
    (hlifecycles : storedConfig bucket after.lifecycles = storedConfig bucket s.lifecycles) :
    last.Stored texts bucket after where
  cors config hlast := ⟨hthere (h.cors config hlast).1, hcors ▸ (h.cors config hlast).2⟩
  lifecycle config hlast :=
    ⟨hthere (h.lifecycle config hlast).1, hlifecycles ▸ (h.lifecycle config hlast).2⟩
  notification config hlast := hthere (h.notification config hlast)

/-- A request on a bucket is refused and changes nothing, or is what the store makes of it. -/
theorem authorized_cases (caller : Caller) (action b : String)
    (call : ConfiguredWorld → Except Error ConfiguredWorld) :
    (∃ e, s.authorized caller action b (fun s => s.onBucket b (call s)) = (.error e, s)) ∨
      ∃ after, bucketRowExists b s.world.db = true ∧ call s = .ok after ∧
        s.authorized caller action b (fun s => s.onBucket b (call s)) = (.ok (), after) := by
  unfold ConfiguredWorld.authorized
  cases caller.checkBucket s.world.now action b with
  | error e => exact Or.inl ⟨e, rfl⟩
  | ok _ =>
      cases hcall : s.onBucket b (call s) with
      | mk reply after =>
          cases reply with
          | error e =>
              obtain rfl := ConfiguredWorld.onBucket_error hcall
              exact Or.inl ⟨toS3Error e, by simp [hcall, Except.mapError]⟩
          | ok _ =>
              obtain ⟨hthere, hafter⟩ := ConfiguredWorld.onBucket_ok hcall
              exact Or.inr ⟨after, hthere, hafter, by simp [hcall, Except.mapError]⟩

/-- **What a step keeps**: the state is well formed, and the last puts are stored. -/
structure Configured (P : Platform) (texts : ConfigTexts) (bucket : String)
    (s : ConfiguredWorld) (last : LastPuts) : Prop where
  wellFormed : WellFormed P s.world
  stored : last.Stored texts bucket s

/-- The same behind a step that is noted. -/
def ConfiguredBehind (P : Platform) (texts : ConfigTexts) (bucket : String)
    (s : ConfiguredWorld) (last : LastPuts) (op : ConfigurationStep) : Prop :=
  Configured P texts bucket ((configurations P texts).next s op)
    (noteLastPuts bucket last s op ((configurations P texts).reply s op))

theorem ConfiguredWorld.world_cascade (op : Op) (reply : Except Error Reply) (world : World) :
    (s.cascade op reply world).world = world := by
  unfold cascade
  split
  · rfl
  · rfl

/-- Unless it deletes the bucket, a call leaves its configurations. -/
theorem ConfiguredWorld.storedConfig_cascade {op : Op} {reply : Except Error Reply}
    (hkept : op = .deleteBucket bucket → ∀ r, reply ≠ .ok r) (world : World) :
    storedConfig bucket (s.cascade op reply world).cors = storedConfig bucket s.cors ∧
      storedConfig bucket (s.cascade op reply world).lifecycles =
        storedConfig bucket s.lifecycles := by
  unfold cascade
  split
  case h_1 other r =>
      have hother : other ≠ bucket := by
        rintro rfl
        exact hkept rfl r rfl
      exact ⟨storedConfig_deleteRows_other hother _, storedConfig_deleteRows_other hother _⟩
  case h_2 => exact ⟨rfl, rfl⟩

/-- **A call on buckets and objects.** -/
theorem Configured.call (h : Configured P texts bucket s last) (op : Op) :
    ConfiguredBehind P texts bucket s last (.call op) := by
  have hworld : ((configurations P texts).next s (.call op)).world = (step P s.world op).2 :=
    ConfiguredWorld.world_cascade ..
  have hwellFormed : WellFormed P ((configurations P texts).next s (.call op)).world := by
    rw [hworld]
    exact h.wellFormed.next op
  refine ⟨hwellFormed, ?_⟩
  by_cases hdeletes : op = .deleteBucket bucket ∧ ∃ r, (step P s.world op).1 = .ok r
  · -- the bucket is deleted, and with it all that was put
    obtain ⟨rfl, r, hok⟩ := hdeletes
    have hreply : (configurations P texts).reply s (.call (.deleteBucket bucket)) = .ok () := by
      simp [Machine.reply, configurations, hok, Except.map, Except.mapError]
    rw [hreply]
    simp only [noteLastPuts, LastPuts.followed, if_true]
    exact .nothing
  · have hkept : op = .deleteBucket bucket → ∀ r, (step P s.world op).1 ≠ .ok r :=
      fun hop r hok => hdeletes ⟨hop, r, hok⟩
    have hlast : noteLastPuts bucket last s (.call op)
        ((configurations P texts).reply s (.call op)) = last := by
      cases hreply : (step P s.world op).1 with
      | error e =>
          simp [noteLastPuts, Machine.reply, configurations, hreply, Except.map, Except.mapError]
      | ok r =>
          simp only [noteLastPuts, Machine.reply, configurations, hreply, Except.map,
            Except.mapError]
          cases op with
          | deleteBucket other =>
              have hother : other ≠ bucket := by
                intro heq
                exact hkept (congrArg Op.deleteBucket heq) r hreply
              exact if_neg hother
          | _ => rfl
    rw [hlast]
    obtain ⟨hcors, hlifecycles⟩ := ConfiguredWorld.storedConfig_cascade hkept _
    refine h.stored.congr ?_ hcors hlifecycles
    rw [hworld]
    exact fun hthere => bucketRowExists_next h.wellFormed hthere hkept

/-- **A request.**  One that is refused changes nothing, so it is to be shown what those do
that are not. -/
theorem Configured.request (h : Configured P texts bucket s last) {op : ConfigurationStep}
    {caller : Caller} {action b : String}
    (call : ConfiguredWorld → Except Error ConfiguredWorld)
    (hstep : (configurations P texts).step s op =
      s.authorized caller action b fun s => s.onBucket b (call s))
    (hcall : ∀ after, bucketRowExists b s.world.db = true → call s = .ok after →
      after.world = s.world ∧ (last.followed bucket op).Stored texts bucket after) :
    ConfiguredBehind P texts bucket s last op := by
  unfold ConfiguredBehind Machine.next Machine.reply
  rw [hstep]
  rcases authorized_cases (s := s) caller action b call with
    ⟨e, hrefused⟩ | ⟨after, hthere, hafter, haccepted⟩
  · rw [hrefused]
    exact h
  · rw [haccepted]
    obtain ⟨hworld, hstored⟩ := hcall after hthere hafter
    exact ⟨hworld ▸ h.wellFormed, hstored⟩

theorem Configured.putCors (h : Configured P texts bucket s last) (caller : Caller) (b : String)
    (config : S3s.CORSConfiguration) :
    ConfiguredBehind P texts bucket s last (.putCors caller b config) := by
  refine h.request (·.withCors b config.toCore) rfl fun after hthere hafter => ?_
  unfold ConfiguredWorld.withCors at hafter
  cases hrefusal : config.toCore.rules.findSome? CorsRule.refusal with
  | some e => simp [hrefusal] at hafter
  | none =>
      simp only [hrefusal, Except.ok.injEq] at hafter
      subst hafter
      refine ⟨rfl, ?_⟩
      by_cases hb : b = bucket
      · subst hb
        simp only [LastPuts.followed, if_true]
        refine ⟨?_, h.stored.lifecycle, h.stored.notification⟩
        intro put hput
        obtain rfl := Option.some.inj hput
        exact ⟨hthere, storedConfig_upsertConfig ..⟩
      · simp only [LastPuts.followed, hb, if_false]
        exact h.stored.congr id (storedConfig_upsertConfig_other hb ..) rfl

theorem Configured.deleteCors (h : Configured P texts bucket s last) (caller : Caller)
    (b : String) :
    ConfiguredBehind P texts bucket s last (.deleteCors caller b) := by
  refine h.request (fun s => .ok (s.withoutCors b)) rfl fun after hthere hafter => ?_
  obtain rfl := Except.ok.inj hafter
  refine ⟨rfl, ?_⟩
  by_cases hb : b = bucket
  · subst hb
    simp only [LastPuts.followed, if_true]
    exact ⟨(fun _ hnone => nomatch hnone), h.stored.lifecycle, h.stored.notification⟩
  · simp only [LastPuts.followed, hb, if_false]
    exact h.stored.congr id (storedConfig_deleteRows_other hb _) rfl

theorem Configured.putLifecycle (h : Configured P texts bucket s last) (caller : Caller)
    (b : String) (config : Option S3s.BucketLifecycleConfiguration) :
    ConfiguredBehind P texts bucket s last (.putLifecycle caller b config) := by
  refine h.request (·.withLifecycle texts b (lifecycleToCore config)) rfl
    fun after hthere hafter => ?_
  unfold ConfiguredWorld.withLifecycle at hafter
  cases hrepeated : repeatedId [] ((lifecycleToCore config).rules.map (·.id)) with
  | some id => simp [hrepeated] at hafter
  | none =>
      simp only [hrepeated, Except.ok.injEq] at hafter
      subst hafter
      refine ⟨rfl, ?_⟩
      by_cases hb : b = bucket
      · subst hb
        simp only [LastPuts.followed, if_true]
        refine ⟨h.stored.cors, ?_, h.stored.notification⟩
        intro put hput
        obtain rfl := Option.some.inj hput
        exact ⟨hthere, storedConfig_upsertConfig ..⟩
      · simp only [LastPuts.followed, hb, if_false]
        exact h.stored.congr id rfl (storedConfig_upsertConfig_other hb ..)

theorem Configured.deleteLifecycle (h : Configured P texts bucket s last) (caller : Caller)
    (b : String) :
    ConfiguredBehind P texts bucket s last (.deleteLifecycle caller b) := by
  refine h.request (fun s => .ok (s.withoutLifecycle b)) rfl fun after hthere hafter => ?_
  obtain rfl := Except.ok.inj hafter
  refine ⟨rfl, ?_⟩
  by_cases hb : b = bucket
  · subst hb
    simp only [LastPuts.followed, if_true]
    exact ⟨h.stored.cors, (fun _ hnone => nomatch hnone), h.stored.notification⟩
  · simp only [LastPuts.followed, hb, if_false]
    exact h.stored.congr id rfl (storedConfig_deleteRows_other hb _)

theorem Configured.putNotification (h : Configured P texts bucket s last) (caller : Caller)
    (b : String) (config : S3s.NotificationConfiguration) :
    ConfiguredBehind P texts bucket s last (.putNotification caller b config) := by
  refine h.request .ok rfl fun after hthere hafter => ?_
  obtain rfl := Except.ok.inj hafter
  refine ⟨rfl, ?_⟩
  by_cases hb : b = bucket
  · subst hb
    simp only [LastPuts.followed, if_true]
    exact ⟨h.stored.cors, h.stored.lifecycle, fun _ _ => hthere⟩
  · simp only [LastPuts.followed, hb, if_false]
    exact h.stored

/-- **One step** of any kind. -/
theorem Configured.next (h : Configured P texts bucket s last) (op : ConfigurationStep) :
    ConfiguredBehind P texts bucket s last op := by
  cases op with
  | call op => exact h.call op
  | putCors caller b config => exact h.putCors caller b config
  | deleteCors caller b => exact h.deleteCors caller b
  | putLifecycle caller b config => exact h.putLifecycle caller b config
  | deleteLifecycle caller b => exact h.deleteLifecycle caller b
  | putNotification caller b config => exact h.putNotification caller b config
  | saveRules b config =>
      have hlast : noteLastPuts bucket last s (.saveRules b config)
          ((configurations P texts).reply s (.saveRules b config)) = last := by
        cases hreply : (configurations P texts).reply s (.saveRules b config) with
        | error e => rfl
        | ok _ => rfl
      unfold ConfiguredBehind
      rw [hlast]
      exact ⟨h.wellFormed, h.stored.congr id rfl rfl⟩

/-- **A whole run.** -/
theorem configured_after (bucket : String) (ops : List ConfigurationStep) :
    Configured P texts bucket (afterConfiguring P texts bucket ops).1
      (afterConfiguring P texts bucket ops).2 := by
  have hstart : Configured P texts bucket ({} : ConfiguredWorld) {} :=
    ⟨wellFormed_init, .nothing⟩
  have hall := (configurations P texts).allSteps_of_forall (G := fun _ _ => True)
    (fun _ _ => trivial) {} ops
  have hstate : (afterConfiguring P texts bucket ops).1 =
      (configurations P texts).after {} ops := by
    unfold afterConfiguring
    rw [Machine.observed_after_fst]
  rw [hstate]
  exact Machine.invariant_observed (fun _ _ op h _ => h.next op) hstart hall

end Steps

/-! ## What is returned -/

/-- The root user may do everything. -/
theorem rootCaller_checkBucket (now : DateTime) (action bucket : String) :
    rootCaller.checkBucket now action bucket = .ok () := rfl

section Returned

variable {bucket : String} {last : LastPuts} {s : ConfiguredWorld} {reader : Caller}

/-- **What a reader is returned** of the CORS configuration that was put last. -/
theorem LastPuts.Stored.getBucketCors (h : last.Stored texts bucket s)
    {config : S3s.CORSConfiguration} (hlast : last.cors = some config)
    (hcheck : reader.checkBucket s.world.now "GetBucketCors" bucket = .ok ()) :
    S3Service.getBucketCors texts reader bucket s =
      .ok (some (config.corsRules.map (·.toCore.toDto))) := by
  obtain ⟨hthere, hstored⟩ := h.cors config hlast
  have hread : Strix.getBucketCors texts bucket s = .ok (some config.toCore) :=
    ConfiguredWorld.readConfig_stored hthere hstored (asCorsConfiguration_toValue _)
  have hrules : config.toCore.rules.map CorsRule.toDto =
      config.corsRules.map (·.toCore.toDto) := List.map_map
  unfold S3Service.getBucketCors
  rw [hcheck, hread, ← hrules]
  rfl

/-- The rules that are stored have no dates. -/
theorem datesReadBack_toCore (rule : S3s.LifecycleRule) : rule.toCore.DatesReadBack texts := by
  constructor
  · intro expiration hexpiration
    obtain ⟨_, -, rfl⟩ := Option.map_eq_some_iff.mp hexpiration
    exact fun _ hdate => nomatch hdate
  · intro transition htransition
    obtain ⟨_, -, rfl⟩ := List.mem_map.mp htransition
    exact fun _ hdate => nomatch hdate

/-- **What a reader is returned** of the lifecycle configuration that was put last. -/
theorem LastPuts.Stored.getBucketLifecycle (h : last.Stored texts bucket s)
    {config : Option S3s.BucketLifecycleConfiguration} (hlast : last.lifecycle = some config)
    (hcheck : reader.checkBucket s.world.now "GetBucketLifecycleConfiguration" bucket = .ok ()) :
    S3Service.getBucketLifecycleConfiguration texts reader bucket s =
      .ok (some ((lifecycleRules config).map (·.toCore.toDto))) := by
  obtain ⟨hthere, hstored⟩ := h.lifecycle config hlast
  have hdates : ∀ rule ∈ (lifecycleToCore config).rules, rule.DatesReadBack texts := by
    intro rule hrule
    obtain ⟨put, -, rfl⟩ := List.mem_map.mp hrule
    exact datesReadBack_toCore put
  have hread : Strix.getBucketLifecycle texts bucket s = .ok (some (lifecycleToCore config)) :=
    ConfiguredWorld.readConfig_stored hthere hstored (asLifecycleConfiguration_toValue hdates)
  have hrules : (lifecycleToCore config).rules.map LifecycleRule.toDto =
      (lifecycleRules config).map (·.toCore.toDto) := List.map_map
  unfold S3Service.getBucketLifecycleConfiguration
  rw [hcheck, hread, ← hrules]
  rfl

/-- **What a reader is returned** of the notification configuration that was put last. -/
theorem LastPuts.Stored.getBucketNotification (h : last.Stored texts bucket s)
    {config : S3s.NotificationConfiguration} (hlast : last.notification = some config)
    (hcheck : reader.checkBucket s.world.now "GetBucketNotificationConfiguration" bucket =
      .ok ()) :
    S3Service.getBucketNotificationConfiguration reader bucket s = .ok {} := by
  have hthere : s.notificationWorld.buckets.contains bucket = true := by
    obtain ⟨b, hb, hname⟩ := bucketRowExists_iff.mp (h.notification config hlast)
    rw [List.contains_iff_mem]
    exact List.mem_map.mpr ⟨b, hb, hname⟩
  have hread : Strix.getBucketNotification bucket s.notificationWorld =
      .ok (s.notificationWorld.stored bucket) := by
    unfold Strix.getBucketNotification
    exact if_pos hthere
  unfold S3Service.getBucketNotificationConfiguration
  rw [hcheck, hread]
  rfl

/-- **The same notification configuration**: the same destinations. -/
structure S3s.NotificationConfiguration.SameAs (put got : S3s.NotificationConfiguration) :
    Prop where
  lambdaFunctions : got.lambdaFunctionConfigurations.getD [] =
    put.lambdaFunctionConfigurations.getD []
  queues : got.queueConfigurations.getD [] = put.queueConfigurations.getD []
  topics : got.topicConfigurations.getD [] = put.topicConfigurations.getD []
  eventBridge : got.eventBridgeConfiguration = put.eventBridgeConfiguration

/-- A notification configuration without destinations. -/
def S3s.NotificationConfiguration.Representable (config : S3s.NotificationConfiguration) : Prop :=
  config.lambdaFunctionConfigurations.getD [] = [] ∧ config.queueConfigurations.getD [] = [] ∧
    config.topicConfigurations.getD [] = [] ∧ config.eventBridgeConfiguration = none

/-- **The configurations that were put last are returned**, to every reader who is authorized,
rule by rule the same. -/
structure LastPuts.Returned (texts : ConfigTexts) (bucket : String) (last : LastPuts)
    (s : ConfiguredWorld) : Prop where
  cors : ∀ config, last.cors = some config → ∀ reader : Caller,
    reader.checkBucket s.world.now "GetBucketCors" bucket = .ok () →
      ∃ rules, S3Service.getBucketCors texts reader bucket s = .ok (some rules) ∧
        List.Forall₂ S3s.CORSRule.SameAs config.corsRules rules
  lifecycle : ∀ config, last.lifecycle = some config → ∀ reader : Caller,
    reader.checkBucket s.world.now "GetBucketLifecycleConfiguration" bucket = .ok () →
      ∃ rules, S3Service.getBucketLifecycleConfiguration texts reader bucket s =
          .ok (some rules) ∧
        List.Forall₂ S3s.LifecycleRule.SameAs (lifecycleRules config) rules
  notification : ∀ config, last.notification = some config → ∀ reader : Caller,
    reader.checkBucket s.world.now "GetBucketNotificationConfiguration" bucket = .ok () →
      ∃ got, S3Service.getBucketNotificationConfiguration reader bucket s = .ok got ∧
        config.SameAs got

/-- **All that was put last can be represented.** -/
structure LastPuts.Representable (last : LastPuts) : Prop where
  cors : ∀ config, last.cors = some config → ∀ rule ∈ config.corsRules, rule.Representable
  lifecycle : ∀ config, last.lifecycle = some config →
    ∀ rule ∈ lifecycleRules config, rule.Representable
  notification : ∀ config, last.notification = some config → config.Representable

/-- A notification configuration is as the empty one if it can be represented. -/
theorem S3s.NotificationConfiguration.sameAs_empty_iff (config : S3s.NotificationConfiguration) :
    config.SameAs {} ↔ config.Representable := by
  constructor
  · rintro ⟨hlambda, hqueues, htopics, hbridge⟩
    exact ⟨hlambda.symm, hqueues.symm, htopics.symm, hbridge.symm⟩
  · rintro ⟨hlambda, hqueues, htopics, hbridge⟩
    exact ⟨hlambda.symm, hqueues.symm, htopics.symm, hbridge.symm⟩

/-- Rules come back as they were put if each of them does. -/
theorem forall₂_returned_iff {α : Type} {R : α → α → Prop} {returned : α → α} {rules : List α} :
    List.Forall₂ R rules (rules.map returned) ↔ ∀ rule ∈ rules, R rule (returned rule) := by
  rw [List.forall₂_map_right_iff, List.forall₂_same]

/-- What is stored of the last puts is returned exactly if they can be represented. -/
theorem LastPuts.Stored.returned_iff (h : last.Stored texts bucket s) :
    last.Returned texts bucket s ↔ last.Representable := by
  constructor
  · intro hreturned
    constructor
    case cors =>
      intro config hlast rule hrule
      obtain ⟨rules, hget, hsame⟩ :=
        hreturned.cors config hlast rootCaller (rootCaller_checkBucket ..)
      rw [h.getBucketCors hlast (rootCaller_checkBucket ..)] at hget
      obtain rfl := Option.some.inj (Except.ok.inj hget)
      exact rule.sameAs_returned_iff.mp (forall₂_returned_iff.mp hsame rule hrule)
    case lifecycle =>
      intro config hlast rule hrule
      obtain ⟨rules, hget, hsame⟩ :=
        hreturned.lifecycle config hlast rootCaller (rootCaller_checkBucket ..)
      rw [h.getBucketLifecycle hlast (rootCaller_checkBucket ..)] at hget
      obtain rfl := Option.some.inj (Except.ok.inj hget)
      exact rule.sameAs_returned_iff.mp (forall₂_returned_iff.mp hsame rule hrule)
    case notification =>
      intro config hlast
      obtain ⟨got, hget, hsame⟩ :=
        hreturned.notification config hlast rootCaller (rootCaller_checkBucket ..)
      rw [h.getBucketNotification hlast (rootCaller_checkBucket ..)] at hget
      obtain rfl := Except.ok.inj hget
      exact config.sameAs_empty_iff.mp hsame
  · intro hrepresentable
    constructor
    case cors =>
      intro config hlast reader hcheck
      refine ⟨_, h.getBucketCors hlast hcheck, forall₂_returned_iff.mpr ?_⟩
      intro rule hrule
      exact rule.sameAs_returned_iff.mpr (hrepresentable.cors config hlast rule hrule)
    case lifecycle =>
      intro config hlast reader hcheck
      refine ⟨_, h.getBucketLifecycle hlast hcheck, forall₂_returned_iff.mpr ?_⟩
      intro rule hrule
      exact rule.sameAs_returned_iff.mpr (hrepresentable.lifecycle config hlast rule hrule)
    case notification =>
      intro config hlast reader hcheck
      refine ⟨_, h.getBucketNotification hlast hcheck, ?_⟩
      exact config.sameAs_empty_iff.mpr (hrepresentable.notification config hlast)

end Returned

/-- **When configurations come back as they were put.**  In every state of every run: exactly
if all that was put last can be represented. -/
theorem configurationsReturned_iff (P : Platform) (texts : ConfigTexts) (bucket : String)
    (ops : List ConfigurationStep) :
    (afterConfiguring P texts bucket ops).2.Returned texts bucket
        (afterConfiguring P texts bucket ops).1 ↔
      (afterConfiguring P texts bucket ops).2.Representable :=
  (configured_after bucket ops).stored.returned_iff

/-! ## A rule for temporary objects -/

/-- Objects under `tmp/` expire after a day: the rule names them by a filter. -/
def temporaryRule : S3s.LifecycleRule where
  id := some "temporary"
  status := "Enabled"
  filter := some { keyPrefix := some "tmp/" }
  expiration := some { days := some 1 }

/-- Without code of others: no dates are written. -/
def noDates : ConfigTexts where
  ofDate _ := ""
  asDate _ := none
  unreadable _ := ""

/-- The root user puts the rule. -/
def temporaryPut : List ConfigurationStep :=
  [.call (.createBucket "docs" {}), .putLifecycle rootCaller "docs" (some ⟨[temporaryRule]⟩)]

/-- The put succeeds, and the rule comes back without its filter: it says now that all objects
expire. -/
theorem temporaryRule_widened :
    (afterConfiguring executablePlatform noDates "docs" temporaryPut).2.lifecycle =
        some (some ⟨[temporaryRule]⟩) ∧
      S3Service.getBucketLifecycleConfiguration noDates rootCaller "docs"
          (afterConfiguring executablePlatform noDates "docs" temporaryPut).1 =
        .ok (some [{ temporaryRule with
          filter := none
          expiration := some { days := some 1, expiredObjectDeleteMarker := some false } }]) ∧
      ¬temporaryRule.SameAs { temporaryRule with
        filter := none
        expiration := some { days := some 1, expiredObjectDeleteMarker := some false } } := by
  refine ⟨by decide, by decide, ?_⟩
  intro hsame
  have hfilter := hsame.filter
  revert hfilter
  decide

end Strix

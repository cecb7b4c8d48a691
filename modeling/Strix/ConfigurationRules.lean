import Strix.BucketConfigurations

/-!
# Rules of configurations as clients send them

The handlers that put CORS and lifecycle configurations convert the rules of a client to
those of the store, part by part, and the handlers that get them convert them back.

* `S3s.CORSRule.sameAs_returned_iff`, `S3s.LifecycleRule.sameAs_returned_iff`: which rules are
  the same after both conversions.
-/

namespace Strix

/-! ## The types of a request -/

namespace S3s

/-- `s3s::dto::CORSRule`. -/
structure CORSRule where
  id : Option String := none
  allowedOrigins : List String
  allowedMethods : List String
  allowedHeaders : Option (List String) := none
  exposeHeaders : Option (List String) := none
  maxAgeSeconds : Option Int32 := none
  deriving DecidableEq

structure CORSConfiguration where
  corsRules : List CORSRule
  deriving DecidableEq

structure LifecycleExpiration where
  days : Option Int32 := none
  date : Option DateTime := none
  expiredObjectDeleteMarker : Option Bool := none
  deriving DecidableEq

structure Transition where
  days : Option Int32 := none
  date : Option DateTime := none
  storageClass : Option String := none
  deriving DecidableEq

structure NoncurrentVersionExpiration where
  noncurrentDays : Option Int32 := none
  newerNoncurrentVersions : Option Int32 := none
  deriving DecidableEq

structure NoncurrentVersionTransition where
  noncurrentDays : Option Int32 := none
  newerNoncurrentVersions : Option Int32 := none
  storageClass : Option String := none
  deriving DecidableEq

structure AbortIncompleteMultipartUpload where
  daysAfterInitiation : Option Int32 := none
  deriving DecidableEq

structure Tag where
  key : Option String := none
  value : Option String := none
  deriving DecidableEq

structure LifecycleRuleAndOperator where
  objectSizeGreaterThan : Option Int64 := none
  objectSizeLessThan : Option Int64 := none
  keyPrefix : Option String := none
  tags : Option (List Tag) := none
  deriving DecidableEq

structure LifecycleRuleFilter where
  and : Option LifecycleRuleAndOperator := none
  objectSizeGreaterThan : Option Int64 := none
  objectSizeLessThan : Option Int64 := none
  keyPrefix : Option String := none
  tag : Option Tag := none
  deriving DecidableEq

/-- `s3s::dto::LifecycleRule`. -/
structure LifecycleRule where
  id : Option String := none
  status : String
  filter : Option LifecycleRuleFilter := none
  keyPrefix : Option String := none
  expiration : Option LifecycleExpiration := none
  transitions : Option (List Transition) := none
  noncurrentVersionExpiration : Option NoncurrentVersionExpiration := none
  noncurrentVersionTransitions : Option (List NoncurrentVersionTransition) := none
  abortIncompleteMultipartUpload : Option AbortIncompleteMultipartUpload := none
  deriving DecidableEq

structure BucketLifecycleConfiguration where
  rules : List LifecycleRule
  deriving DecidableEq

structure FilterRule where
  name : Option String := none
  value : Option String := none
  deriving DecidableEq

structure S3KeyFilter where
  filterRules : Option (List FilterRule) := none
  deriving DecidableEq

structure NotificationConfigurationFilter where
  key : Option S3KeyFilter := none
  deriving DecidableEq

/-- A `LambdaFunctionConfiguration`, `QueueConfiguration` or `TopicConfiguration`: they differ
in the name of their `arn`. -/
structure DestinationConfiguration where
  id : Option String := none
  arn : String
  events : List String
  filter : Option NotificationConfigurationFilter := none
  deriving DecidableEq

structure EventBridgeConfiguration where
  deriving DecidableEq

/-- `s3s::dto::NotificationConfiguration`, which is also what the `Get` returns. -/
structure NotificationConfiguration where
  lambdaFunctionConfigurations : Option (List DestinationConfiguration) := none
  queueConfigurations : Option (List DestinationConfiguration) := none
  topicConfigurations : Option (List DestinationConfiguration) := none
  eventBridgeConfiguration : Option EventBridgeConfiguration := none
  deriving DecidableEq

end S3s

/-! ## CORS rules -/

/-- The upper case of a character, as far as ASCII comes of it; other letters stay. -/
def upperCaseOf (c : Char) : List Char :=
  match c with
  | 'ß' => ['S', 'S']
  | 'ı' => ['I']
  | 'ſ' => ['S']
  | 'ﬀ' => ['F', 'F']
  | 'ﬁ' => ['F', 'I']
  | 'ﬂ' => ['F', 'L']
  | 'ﬃ' => ['F', 'F', 'I']
  | 'ﬄ' => ['F', 'F', 'L']
  | 'ﬅ' => ['S', 'T']
  | 'ﬆ' => ['S', 'T']
  | c => [c.toUpper]

/-- `CorsMethod::from_str`: the method whose text the upper case is. -/
def CorsMethod.parse (text : String) : Option CorsMethod :=
  ofName (String.ofList (text.toList.flatMap upperCaseOf))

/-- The rule to store.  Methods that do not parse are left out. -/
def S3s.CORSRule.toCore (rule : S3s.CORSRule) : CorsRule where
  id := rule.id
  allowedOrigins := rule.allowedOrigins
  allowedMethods := rule.allowedMethods.filterMap CorsMethod.parse
  allowedHeaders := rule.allowedHeaders.getD []
  exposeHeaders := rule.exposeHeaders.getD []
  maxAgeSeconds := rule.maxAgeSeconds.map Int32.toUInt32

/-- A list, if it is not empty. -/
def nonemptyList {α : Type} (items : List α) : Option (List α) :=
  if items.isEmpty then none else some items

/-- The rule to return. -/
def CorsRule.toDto (rule : CorsRule) : S3s.CORSRule where
  id := rule.id
  allowedOrigins := rule.allowedOrigins
  allowedMethods := rule.allowedMethods.map CorsMethod.text
  allowedHeaders := nonemptyList rule.allowedHeaders
  exposeHeaders := nonemptyList rule.exposeHeaders
  maxAgeSeconds := rule.maxAgeSeconds.map UInt32.toInt32

def S3s.CORSConfiguration.toCore (config : S3s.CORSConfiguration) : CorsConfiguration where
  rules := config.corsRules.map (·.toCore)

/-- **The same CORS rule**: all its components are the same.  An empty list of headers states
as much as none. -/
structure S3s.CORSRule.SameAs (put got : S3s.CORSRule) : Prop where
  id : got.id = put.id
  allowedOrigins : got.allowedOrigins = put.allowedOrigins
  allowedMethods : got.allowedMethods = put.allowedMethods
  allowedHeaders : got.allowedHeaders.getD [] = put.allowedHeaders.getD []
  exposeHeaders : got.exposeHeaders.getD [] = put.exposeHeaders.getD []
  maxAgeSeconds : got.maxAgeSeconds = put.maxAgeSeconds

/-- **What a CORS rule can state**: the five methods, in capitals. -/
def S3s.CORSRule.Representable (rule : S3s.CORSRule) : Prop :=
  ∀ name ∈ rule.allowedMethods, (CorsMethod.ofName name).isSome = true

@[simp] theorem getD_nonemptyList {α : Type} (items : List α) :
    (nonemptyList items).getD [] = items := by
  cases items with
  | nil => rfl
  | cons item items => rfl

/-- Numbers survive both casts. -/
theorem map_casts (n : Option Int32) : (n.map Int32.toUInt32).map UInt32.toInt32 = n := by
  cases n with
  | none => rfl
  | some n => rfl

/-- A method's own text is parsed. -/
theorem CorsMethod.parse_text (method : CorsMethod) : parse method.text = some method := by
  cases method <;> decide

/-- **The methods that come back** are all that were put exactly if those are texts of
methods. -/
theorem methods_returned_iff (names : List String) :
    (names.filterMap CorsMethod.parse).map CorsMethod.text = names ↔
      ∀ name ∈ names, (CorsMethod.ofName name).isSome = true := by
  constructor
  · intro hsame name hname
    rw [← hsame] at hname
    obtain ⟨method, -, rfl⟩ := List.mem_map.mp hname
    rw [CorsMethod.ofName_text]
    rfl
  · intro hknown
    induction names with
    | nil => rfl
    | cons name names ih =>
        obtain ⟨method, hmethod⟩ := Option.isSome_iff_exists.mp (hknown name List.mem_cons_self)
        have htext := CorsMethod.text_of_ofName hmethod
        have hparse : CorsMethod.parse name = some method := by
          rw [← htext]
          exact method.parse_text
        have hrest := ih fun other hother => hknown other (List.mem_cons_of_mem _ hother)
        rw [List.filterMap_cons_some hparse, List.map_cons, htext, hrest]

/-- **A CORS rule comes back** exactly if it can be represented. -/
theorem S3s.CORSRule.sameAs_returned_iff (rule : S3s.CORSRule) :
    rule.SameAs rule.toCore.toDto ↔ rule.Representable := by
  constructor
  · intro hsame
    exact (methods_returned_iff rule.allowedMethods).mp hsame.allowedMethods
  · intro hknown
    exact
      { id := rfl
        allowedOrigins := rfl
        allowedMethods := (methods_returned_iff rule.allowedMethods).mpr hknown
        allowedHeaders := getD_nonemptyList _
        exposeHeaders := getD_nonemptyList _
        maxAgeSeconds := map_casts _ }

/-! ## Lifecycle rules -/

/-- The storage class that a transition's name stands for. -/
def transitionClass : Option String → StorageClass
  | some name =>
    if name = "GLACIER" then .glacier
    else if name = "DEEP_ARCHIVE" then .deepArchive
    else .standard
  | none => .standard

/-- The transition to store, without its date. -/
def S3s.Transition.toCore (transition : S3s.Transition) : LifecycleTransition where
  days := transition.days.map Int32.toUInt32
  date := none
  storageClass := transitionClass transition.storageClass

/-- The rule to store.  Dates, the filter and the transitions of noncurrent versions are not
converted, nor is what lacks a number of days. -/
def S3s.LifecycleRule.toCore (rule : S3s.LifecycleRule) : Strix.LifecycleRule where
  id := rule.id.getD ""
  enabled := rule.status == "Enabled"
  keyPrefix := rule.keyPrefix
  tags := []
  expiration := rule.expiration.map fun expiration =>
    { days := expiration.days.map Int32.toUInt32
      date := none
      expiredObjectDeleteMarker := expiration.expiredObjectDeleteMarker.getD false }
  transitions := (rule.transitions.getD []).map (·.toCore)
  noncurrentVersionExpiration := rule.noncurrentVersionExpiration.bind fun expiration =>
    expiration.noncurrentDays.map fun days =>
      { noncurrentDays := days.toUInt32
        newerNoncurrentVersions := expiration.newerNoncurrentVersions.map Int32.toUInt32 }
  abortIncompleteMultipartUpload :=
    (rule.abortIncompleteMultipartUpload.bind (·.daysAfterInitiation)).map fun days =>
      { daysAfterInitiation := days.toUInt32 }

def LifecycleTransition.toDto (transition : LifecycleTransition) : S3s.Transition where
  days := transition.days.map UInt32.toInt32
  date := none
  storageClass := some transition.storageClass.text

/-- The rule to return. -/
def LifecycleRule.toDto (rule : LifecycleRule) : S3s.LifecycleRule where
  id := some rule.id
  status := if rule.enabled then "Enabled" else "Disabled"
  filter := none
  keyPrefix := rule.keyPrefix
  expiration := rule.expiration.map fun expiration =>
    { days := expiration.days.map UInt32.toInt32
      date := none
      expiredObjectDeleteMarker := some expiration.expiredObjectDeleteMarker }
  transitions := nonemptyList (rule.transitions.map (·.toDto))
  noncurrentVersionExpiration := rule.noncurrentVersionExpiration.map fun expiration =>
    { noncurrentDays := some expiration.noncurrentDays.toInt32
      newerNoncurrentVersions := expiration.newerNoncurrentVersions.map UInt32.toInt32 }
  noncurrentVersionTransitions := none
  abortIncompleteMultipartUpload := rule.abortIncompleteMultipartUpload.map fun abort =>
    { daysAfterInitiation := some abort.daysAfterInitiation.toInt32 }

/-- The rules of a configuration, none if there is none. -/
def lifecycleRules (config : Option S3s.BucketLifecycleConfiguration) : List S3s.LifecycleRule :=
  (config.map (·.rules)).getD []

/-- The configuration to store. -/
def lifecycleToCore (config : Option S3s.BucketLifecycleConfiguration) :
    LifecycleConfiguration where
  rules := (lifecycleRules config).map (·.toCore)

/-- **The same lifecycle rule**: all its components are the same.  A part without components
states as much as a missing one, and a missing marker as much as `false`. -/
structure S3s.LifecycleRule.SameAs (put got : S3s.LifecycleRule) : Prop where
  id : got.id = put.id
  status : got.status = put.status
  keyPrefix : got.keyPrefix = put.keyPrefix
  filter : got.filter.getD {} = put.filter.getD {}
  expirationDays : got.expiration.bind (·.days) = put.expiration.bind (·.days)
  expirationDate : got.expiration.bind (·.date) = put.expiration.bind (·.date)
  deleteMarker : (got.expiration.bind (·.expiredObjectDeleteMarker)).getD false =
    (put.expiration.bind (·.expiredObjectDeleteMarker)).getD false
  transitions : got.transitions.getD [] = put.transitions.getD []
  noncurrentDays : got.noncurrentVersionExpiration.bind (·.noncurrentDays) =
    put.noncurrentVersionExpiration.bind (·.noncurrentDays)
  newerNoncurrentVersions : got.noncurrentVersionExpiration.bind (·.newerNoncurrentVersions) =
    put.noncurrentVersionExpiration.bind (·.newerNoncurrentVersions)
  noncurrentVersionTransitions : got.noncurrentVersionTransitions.getD [] =
    put.noncurrentVersionTransitions.getD []
  daysAfterInitiation : got.abortIncompleteMultipartUpload.bind (·.daysAfterInitiation) =
    put.abortIncompleteMultipartUpload.bind (·.daysAfterInitiation)

/-- A transition without a date, to a class that is known by its name. -/
def S3s.Transition.Representable (transition : S3s.Transition) : Prop :=
  transition.date = none ∧
    (transition.storageClass = some "STANDARD" ∨ transition.storageClass = some "GLACIER" ∨
      transition.storageClass = some "DEEP_ARCHIVE")

/-- **What a lifecycle rule can state**: an id, one of the two statuses and a scope by its
prefix, no dates, no transitions of noncurrent versions, and how many of them to keep only
with a number of days. -/
structure S3s.LifecycleRule.Representable (rule : S3s.LifecycleRule) : Prop where
  id : rule.id ≠ none
  status : rule.status = "Enabled" ∨ rule.status = "Disabled"
  filter : rule.filter.getD {} = {}
  expirationDate : rule.expiration.bind (·.date) = none
  transitions : ∀ transition ∈ rule.transitions.getD [], transition.Representable
  newerNoncurrentVersions : rule.noncurrentVersionExpiration.bind (·.noncurrentDays) = none →
    rule.noncurrentVersionExpiration.bind (·.newerNoncurrentVersions) = none
  noncurrentVersionTransitions : rule.noncurrentVersionTransitions.getD [] = []

/-- The classes that transitions are stored with. -/
theorem transitionClass_cases (storageClass : Option String) :
    transitionClass storageClass = .standard ∨ transitionClass storageClass = .glacier ∨
      transitionClass storageClass = .deepArchive := by
  unfold transitionClass
  split
  · split
    · exact Or.inr (Or.inl rfl)
    · split
      · exact Or.inr (Or.inr rfl)
      · exact Or.inl rfl
  · exact Or.inl rfl

/-- **A transition comes back** exactly if it can be represented. -/
theorem S3s.Transition.returned_iff (transition : S3s.Transition) :
    transition.toCore.toDto = transition ↔ transition.Representable := by
  obtain ⟨days, date, storageClass⟩ := transition
  have hreturned : (S3s.Transition.toCore ⟨days, date, storageClass⟩).toDto =
      ⟨days, none, some (transitionClass storageClass).text⟩ := by
    simp only [S3s.Transition.toCore, LifecycleTransition.toDto, map_casts]
  rw [hreturned, S3s.Transition.mk.injEq]
  constructor
  · rintro ⟨-, hdate, hclass⟩
    refine ⟨hdate.symm, ?_⟩
    dsimp only
    rw [← hclass]
    rcases transitionClass_cases storageClass with h | h | h
    · rw [h]
      exact Or.inl rfl
    · rw [h]
      exact Or.inr (Or.inl rfl)
    · rw [h]
      exact Or.inr (Or.inr rfl)
  · rintro ⟨hdate, hclass⟩
    dsimp only at hdate hclass
    refine ⟨rfl, hdate.symm, ?_⟩
    rcases hclass with rfl | rfl | rfl
    · rfl
    · rfl
    · rfl

theorem transitions_returned_iff (transitions : List S3s.Transition) :
    transitions.map (·.toCore.toDto) = transitions ↔
      ∀ transition ∈ transitions, transition.Representable := by
  calc
    transitions.map (·.toCore.toDto) = transitions ↔
        transitions.map (·.toCore.toDto) = transitions.map id := by rw [List.map_id]
    _ ↔ ∀ transition ∈ transitions, transition.toCore.toDto = id transition := List.map_inj_left
    _ ↔ ∀ transition ∈ transitions, transition.Representable :=
      forall₂_congr fun transition _ => transition.returned_iff

/-- The status that comes back. -/
theorem status_returned_iff (status : String) :
    (if status == "Enabled" then "Enabled" else "Disabled") = status ↔
      status = "Enabled" ∨ status = "Disabled" := by
  by_cases henabled : status = "Enabled"
  · simp [henabled]
  · have hother : (status == "Enabled") = false := beq_eq_false_iff_ne.mpr henabled
    rw [hother, or_iff_right henabled]
    exact eq_comm

section Filtered

variable {α β γ : Type} (f : α → Option β) (g : α → Option γ) (x : Option α)

/-- A value that must have a component has it still. -/
theorem bind_filter_isSome : (x.filter fun a => (f a).isSome).bind f = x.bind f := by
  cases x with
  | none => rfl
  | some a =>
      cases hf : f a with
      | none => simp [Option.filter, hf]
      | some b => simp [Option.filter, hf]

/-- Another component is lost with a value that does not have it. -/
theorem bind_filter_isSome_iff :
    (x.filter fun a => (f a).isSome).bind g = x.bind g ↔ (x.bind f = none → x.bind g = none) := by
  cases x with
  | none => simp
  | some a =>
      cases hf : f a with
      | none =>
          simp only [Option.filter, hf, Option.isSome_none, Bool.false_eq_true, if_false,
            Option.bind_none, Option.bind_some, forall_const]
          exact eq_comm
      | some b => simp [Option.filter, hf]

end Filtered

namespace S3s.LifecycleRule

variable (rule : S3s.LifecycleRule)

/-- An expiration comes back without its date. -/
theorem returned_expiration :
    rule.toCore.toDto.expiration = rule.expiration.map fun expiration =>
      { expiration with
        date := none
        expiredObjectDeleteMarker := some (expiration.expiredObjectDeleteMarker.getD false) } := by
  unfold toCore Strix.LifecycleRule.toDto
  cases rule.expiration with
  | none => rfl
  | some expiration => simp only [Option.map_some, map_casts]

theorem returned_transitions :
    rule.toCore.toDto.transitions.getD [] =
      (rule.transitions.getD []).map (·.toCore.toDto) := by
  have hmap : ((rule.transitions.getD []).map (·.toCore)).map LifecycleTransition.toDto =
      (rule.transitions.getD []).map (·.toCore.toDto) := List.map_map
  rw [← hmap]
  exact getD_nonemptyList _

/-- The expiration of noncurrent versions comes back if it has a number of days. -/
theorem returned_noncurrentVersionExpiration :
    rule.toCore.toDto.noncurrentVersionExpiration =
      rule.noncurrentVersionExpiration.filter (·.noncurrentDays.isSome) := by
  unfold toCore Strix.LifecycleRule.toDto
  cases rule.noncurrentVersionExpiration with
  | none => rfl
  | some expiration =>
      obtain ⟨days, newer⟩ := expiration
      cases days with
      | none => rfl
      | some days =>
          cases newer with
          | none => rfl
          | some newer => rfl

/-- So does the abortion of uploads. -/
theorem returned_abortIncompleteMultipartUpload :
    rule.toCore.toDto.abortIncompleteMultipartUpload =
      rule.abortIncompleteMultipartUpload.filter (·.daysAfterInitiation.isSome) := by
  unfold toCore Strix.LifecycleRule.toDto
  cases rule.abortIncompleteMultipartUpload with
  | none => rfl
  | some abort =>
      obtain ⟨days⟩ := abort
      cases days with
      | none => rfl
      | some days => rfl

/-- **A lifecycle rule comes back** exactly if it can be represented. -/
theorem sameAs_returned_iff : rule.SameAs rule.toCore.toDto ↔ rule.Representable := by
  have hexpiration := rule.returned_expiration
  have htransitions := rule.returned_transitions
  have hnoncurrent := rule.returned_noncurrentVersionExpiration
  have habort := rule.returned_abortIncompleteMultipartUpload
  constructor
  · intro hsame
    have hdate := hsame.expirationDate
    have hmoves := hsame.transitions
    have hnewer := hsame.newerNoncurrentVersions
    rw [hexpiration] at hdate
    rw [htransitions] at hmoves
    rw [hnoncurrent] at hnewer
    exact
      { id := by
          rw [← hsame.id]
          exact Option.some_ne_none _
        status := (status_returned_iff rule.status).mp hsame.status
        filter := hsame.filter.symm
        expirationDate := by
          rw [← hdate]
          cases rule.expiration with
          | none => rfl
          | some expiration => rfl
        transitions := (transitions_returned_iff _).mp hmoves
        newerNoncurrentVersions := (bind_filter_isSome_iff ..).mp hnewer
        noncurrentVersionTransitions := hsame.noncurrentVersionTransitions.symm }
  · intro h
    obtain ⟨id, hid⟩ := Option.ne_none_iff_exists'.mp h.id
    exact
      { id := by
          unfold toCore Strix.LifecycleRule.toDto
          rw [hid]
          rfl
        status := (status_returned_iff rule.status).mpr h.status
        keyPrefix := rfl
        filter := h.filter.symm
        expirationDays := by
          rw [hexpiration]
          cases rule.expiration with
          | none => rfl
          | some expiration => rfl
        expirationDate := by
          rw [hexpiration, h.expirationDate]
          cases rule.expiration with
          | none => rfl
          | some expiration => rfl
        deleteMarker := by
          rw [hexpiration]
          cases rule.expiration with
          | none => rfl
          | some expiration => rfl
        transitions := by
          rw [htransitions]
          exact (transitions_returned_iff _).mpr h.transitions
        noncurrentDays := by
          rw [hnoncurrent]
          exact bind_filter_isSome ..
        newerNoncurrentVersions := by
          rw [hnoncurrent]
          exact (bind_filter_isSome_iff ..).mpr h.newerNoncurrentVersions
        noncurrentVersionTransitions := h.noncurrentVersionTransitions.symm
        daysAfterInitiation := by
          rw [habort]
          exact bind_filter_isSome .. }

end S3s.LifecycleRule

end Strix

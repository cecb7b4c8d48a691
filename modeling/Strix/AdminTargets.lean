import Strix.AdminRoutes
import Strix.AnonymousRequests

/-!
# What the admin API acts on

A handler should read and delete nothing but the bucket and the key that its request
was authorized for, and a `DELETE` for a key should delete that key.

* `actsOnTarget_iff`: a request that does anything keeps to its target exactly if its
  path spells the bucket without escapes that stand for something, and so the key, which
  has no empty segment; and it names no keys in its body.  A `DELETE` with an encoded
  key deletes the key exactly if `urlencoding::decode` leaves it as it is.
-/

namespace Strix

open PathSegments

/-! ## What the handlers do -/

/-- How the `Json` extractors read a request's body. -/
structure AdminBody where
  keys : Option (List String) := none
  enabled : Option Bool := none
  policy : Option BucketPolicy := none
  rule : Option CreateNotificationRuleRequest := none

/-- A request under `/buckets/{bucket}`, with the tenant that it names and the ULID
that it may draw. -/
structure BucketRequest where
  method : Method
  path : String
  tenantSlug : Option String := none
  body : AdminBody := {}
  drawn : String := ""

/-- What a handler reads or deletes: a bucket (its row, its list of objects, its policy or
its rules), or an object. -/
inductive StoreAccess
  | bucket (name : String)
  | object (bucket key : String)
  deriving DecidableEq, Repr

namespace BucketRequest

variable (http : AdminHttp) (iam : IamStore) (user : AuthenticatedUser) (db : Db)
  (req : BucketRequest)

/-- `ensure_bucket_belongs_to_tenant`: does the handler go on? -/
def tenantLets (bucket : String) : Bool :=
  match req.tenantSlug with
  | none => true
  | some slug =>
    (db.buckets.find? fun row => row.name == bucket).any fun row => row.tenantSlug == some slug

/-- What `ensure_bucket_belongs_to_tenant` reads. -/
def tenantAccess (bucket : String) : List StoreAccess :=
  if req.tenantSlug.isSome then [.bucket bucket] else []

/-- What a handler does that gets this bucket. -/
def handlerAccesses (bucket : String) : BucketHandler → List StoreAccess
  | .deleteObjects =>
    match req.body.keys with
    | none => []
    | some keys =>
      req.tenantAccess bucket ++
        if req.tenantLets db bucket then keys.map (StoreAccess.object bucket) else []
  | .setBucketVersioning => if req.body.enabled.isSome then [.bucket bucket] else []
  | .setBucketPolicy => if req.body.policy.isSome then [.bucket bucket] else []
  | .createBucketNotification =>
    match req.body.rule with
    | none => []
    | some rule =>
      match rule.newRule req.drawn with
      | .ok _ => [.bucket bucket]
      | .error _ => []
  | _ => [.bucket bucket]

/-- `urlencoding::decode(&key).map(..).unwrap_or(key)`. -/
def decodeKey (key : String) : String := (http.urlDecode key).getD key

/-- What the handler of a route does, once its segments are decoded. -/
def routeAccesses : BucketRoute → List StoreAccess
  | .ofBucket handler bucket =>
    match http.pathDecode bucket with
    | none => []
    | some bucket => req.handlerAccesses db bucket handler
  | .deleteObject bucket key =>
    match http.pathDecode bucket, http.pathDecode key with
    | some bucket, some key =>
      req.tenantAccess bucket ++
        if req.tenantLets db bucket then [.object bucket (decodeKey http key)] else []
    | _, _ => []
  | .deleteBucketNotification bucket ruleId =>
    match http.pathDecode bucket, http.pathDecode ruleId with
    | some bucket, some _ => [.bucket bucket]
    | _, _ => []

/-- **What a request reads and deletes**: what its handler does, if the user is let
through. -/
def accesses : List StoreAccess :=
  match http.route req.method req.path, authorizeMiddleware iam user req.method req.path with
  | some route, .ok () => req.routeAccesses http db route
  | _, _ => []

end BucketRequest

/-- The access is to the bucket of a resource, and to its key. -/
def StoreAccess.Within (resource : Resource) : StoreAccess → Prop
  | .bucket name => resource.bucket = some name
  | .object name key => resource.bucket = some name ∧ resource.key = some key

namespace BucketRequest

variable (http : AdminHttp) (iam : IamStore) (user : AuthenticatedUser) (db : Db)
  (req : BucketRequest)

/-- **The request keeps to its target.** -/
def ActsOnTarget : Prop :=
  ∀ access ∈ req.accesses http iam user db,
    access.Within (authorizationTarget req.method req.path).2

/-- A segment that decoding leaves as it is. -/
def Plain (captured : String) : Prop := http.pathDecode captured = some captured

/-- What a route has captured spells what is meant, and the body does not mean more. -/
def RouteSpells : BucketRoute → Prop
  | .ofBucket handler bucket =>
    Plain http bucket ∧
      (handler = .deleteObjects → req.tenantLets db bucket = true → req.body.keys = some [])
  | .deleteObject bucket key =>
    Plain http bucket ∧
      (req.tenantLets db bucket = true → Plain http key ∧ ∀ part ∈ segments key, part ≠ "")
  | .deleteBucketNotification bucket _ => Plain http bucket

/-- **The request spells what it is about.** -/
def SpellsTarget : Prop :=
  ∀ route, http.route req.method req.path = some route → req.RouteSpells http db route

end BucketRequest

/-! ## When a request keeps to its target -/

section Targets

variable {http : AdminHttp} {db : Db} {req : BucketRequest}

/-- Decoding a plain segment gives the segment, and what is decoded to itself is plain. -/
theorem plain_iff {captured decoded : String} (h : http.pathDecode captured = some decoded) :
    BucketRequest.Plain http captured ↔ captured = decoded := by
  unfold BucketRequest.Plain
  rw [h, Option.some.injEq]
  exact eq_comm

/-- A handler that takes nothing but the bucket asks for the bucket or for nothing. -/
theorem handlerAccesses_cases (req : BucketRequest) (db : Db) (bucket : String)
    {handler : BucketHandler} (h : handler ≠ .deleteObjects) :
    req.handlerAccesses db bucket handler = [.bucket bucket] ∨
      req.handlerAccesses db bucket handler = [] := by
  unfold BucketRequest.handlerAccesses
  cases handler with
  | deleteObjects => exact absurd rfl h
  | setBucketVersioning =>
      simp only
      split <;> simp
  | setBucketPolicy =>
      simp only
      split <;> simp
  | createBucketNotification =>
      simp only
      split
      · simp
      · split <;> simp
  | _ => simp

/-- Only the bucket is asked for. -/
theorem tenantAccess_within {bucket : String} {resource : Resource} :
    (∀ access ∈ req.tenantAccess bucket, access.Within resource) ↔
      (req.tenantAccess bucket ≠ [] → resource.bucket = some bucket) := by
  unfold BucketRequest.tenantAccess
  by_cases htenant : req.tenantSlug.isSome
  · simp [htenant, StoreAccess.Within]
  · simp [htenant]

/-- Decoding a key loses no slash, and the key gets no longer. -/
theorem decodeKey_bounds (http : AdminHttp) (key : String) :
    key.toList.count '/' ≤ (BucketRequest.decodeKey http key).toList.count '/' ∧
      (PercentCoding.bytes (BucketRequest.decodeKey http key)).length ≤
        (PercentCoding.bytes key).length := by
  unfold BucketRequest.decodeKey
  rw [http.urlDecode_eq]
  cases hdecode : PercentCoding.decode key with
  | none => exact ⟨Nat.le_refl _, Nat.le_refl _⟩
  | some text =>
      exact ⟨PercentCoding.count_slash_le hdecode, PercentCoding.length_bytes_le hdecode⟩

/-- All segments are kept if none is empty. -/
theorem nonempty_eq_self_iff {parts : List String} :
    nonempty parts = parts ↔ ∀ part ∈ parts, part ≠ "" := by
  simp [nonempty]

/-- **A key that is decoded twice** comes out as the nonempty segments of what was
captured exactly if it has none that are empty, and nothing to decode. -/
theorem decodeKey_eq_iff {captured key : String} (hnonempty : captured ≠ "")
    (h : http.pathDecode captured = some key) :
    (nonempty (segments captured) ≠ [] ∧
        "/".intercalate (nonempty (segments captured)) = BucketRequest.decodeKey http key) ↔
      BucketRequest.Plain http captured ∧ ∀ part ∈ segments captured, part ≠ "" := by
  have hdecode : PercentCoding.decode captured = some key := by rw [← http.pathDecode_eq, h]
  obtain ⟨hslashes, hlength⟩ := decodeKey_bounds http key
  constructor
  · intro hsame
    obtain ⟨-, hjoin⟩ := hsame
    have hkept : nonempty (segments captured) = segments captured := by
      apply nonempty_segments_eq hnonempty
      rw [hjoin]
      exact (PercentCoding.count_slash_le hdecode).trans hslashes
    rw [hkept, intercalate_segments] at hjoin
    refine ⟨?_, nonempty_eq_self_iff.mp hkept⟩
    -- the key is as long as what it was decoded from, so nothing was decoded
    rw [← hjoin] at hlength
    have hshorter := PercentCoding.length_bytes_le hdecode
    have hbytes := PercentCoding.decode_eq_some_iff.mp hdecode
    rw [BucketRequest.Plain, http.pathDecode_eq, PercentCoding.decode_eq_self_iff, ← hbytes]
    omega
  · intro hplain
    obtain ⟨hplain, hparts⟩ := hplain
    have hkept := nonempty_eq_self_iff.mpr hparts
    obtain rfl : captured = key := (plain_iff h).mp hplain
    have hagain : BucketRequest.decodeKey http captured = captured := by
      unfold BucketRequest.decodeKey
      rw [http.urlDecode_eq, hdecode]
      rfl
    rw [hkept, intercalate_segments, hagain]
    exact ⟨segments_ne_nil captured, rfl⟩

/-- A handler that takes nothing but the bucket keeps to it if the bucket is plain. -/
theorem ofBucket_within_iff {handler : BucketHandler} {bucket : String}
    (hhandler : handler ≠ .deleteObjects)
    (hacts : req.routeAccesses http db (.ofBucket handler bucket) ≠ []) :
    (∀ access ∈ req.routeAccesses http db (.ofBucket handler bucket),
        access.Within (.ofBucket bucket)) ↔ BucketRequest.Plain http bucket := by
  unfold BucketRequest.routeAccesses at hacts ⊢
  cases hdecode : http.pathDecode bucket with
  | none => simp [hdecode] at hacts
  | some decoded =>
      simp only [hdecode] at hacts ⊢
      rcases handlerAccesses_cases req db decoded hhandler with hone | hnone
      · rw [hone, plain_iff hdecode]
        simp [StoreAccess.Within, Resource.ofBucket]
      · exact absurd hnone hacts

/-- Where the tenant refuses, only its check has looked at a bucket. -/
theorem refused_within_iff {bucket decoded : String} {within : StoreAccess → Prop} {spells : Prop}
    (hlets : ¬req.tenantLets db decoded = true) (hacts : req.tenantAccess decoded ≠ []) :
    ((req.tenantAccess decoded ≠ [] → bucket = decoded) ∧ ∀ access ∈ [], within access) ↔
      bucket = decoded ∧ (req.tenantLets db bucket = true → spells) := by
  constructor
  · intro hwithin
    have hsame := hwithin.1 hacts
    exact ⟨hsame, fun h => absurd (hsame ▸ h) hlets⟩
  · intro hspelled
    obtain ⟨rfl, -⟩ := hspelled
    exact ⟨fun _ => rfl, by simp⟩

/-- `delete_objects` keeps to the bucket if the bucket is plain, and the tenant is the
wrong one or there is nothing to delete. -/
theorem deleteObjects_within_iff {bucket : String}
    (hacts : req.routeAccesses http db (.ofBucket .deleteObjects bucket) ≠ []) :
    (∀ access ∈ req.routeAccesses http db (.ofBucket .deleteObjects bucket),
        access.Within (.ofBucket bucket)) ↔
      BucketRequest.Plain http bucket ∧
        (req.tenantLets db bucket = true → req.body.keys = some []) := by
  unfold BucketRequest.routeAccesses at hacts ⊢
  cases hdecode : http.pathDecode bucket with
  | none => simp [hdecode] at hacts
  | some decoded =>
      cases hkeys : req.body.keys with
      | none => simp [hdecode, BucketRequest.handlerAccesses, hkeys] at hacts
      | some keys =>
          simp only [hdecode, BucketRequest.handlerAccesses, hkeys] at hacts ⊢
          have hresource : (Resource.ofBucket bucket).bucket = some bucket := rfl
          rw [plain_iff hdecode, List.forall_mem_append, tenantAccess_within, hresource,
            Option.some.injEq, Option.some.injEq]
          by_cases hlets : req.tenantLets db decoded = true
          · rw [if_pos hlets] at hacts ⊢
            constructor
            · intro hwithin
              obtain ⟨hbucket, hobjects⟩ := hwithin
              -- the resource of the route has no key
              have hnone : keys = [] := by
                rw [List.eq_nil_iff_forall_not_mem]
                intro key hkey
                have hobject := hobjects _ (List.mem_map_of_mem hkey)
                simp [StoreAccess.Within, Resource.ofBucket] at hobject
              rw [hnone, List.map_nil, List.append_nil] at hacts
              exact ⟨hbucket hacts, fun _ => hnone⟩
            · intro hspelled
              obtain ⟨rfl, hnone⟩ := hspelled
              rw [hnone hlets]
              exact ⟨fun _ => rfl, by simp⟩
          · rw [if_neg hlets, List.append_nil] at hacts
            rw [if_neg hlets]
            exact refused_within_iff hlets hacts

/-- The key that a route is authorized for. -/
theorem resource_key_iff {bucket key text : String} :
    (BucketRoute.deleteObject bucket key).resource.key = some text ↔
      nonempty (segments key) ≠ [] ∧ "/".intercalate (nonempty (segments key)) = text := by
  cases hparts : nonempty (segments key) with
  | nil => simp [BucketRoute.resource, hparts, Resource.ofBucket]
  | cons part parts => simp [BucketRoute.resource, hparts, Resource.object]

/-- The bucket that a delete of an object is authorized for. -/
theorem resource_bucket (bucket key : String) :
    (BucketRoute.deleteObject bucket key).resource.bucket = some bucket := by
  cases hparts : nonempty (segments key) with
  | nil => simp [BucketRoute.resource, hparts, Resource.ofBucket]
  | cons part parts => simp [BucketRoute.resource, hparts, Resource.object]

/-- `delete_object` keeps to its target if the bucket is plain, and the tenant is the
wrong one or the key is plain and has no empty segments. -/
theorem deleteObject_within_iff {bucket key : String} (hkey : key ≠ "")
    (hacts : req.routeAccesses http db (.deleteObject bucket key) ≠ []) :
    (∀ access ∈ req.routeAccesses http db (.deleteObject bucket key),
        access.Within (BucketRoute.deleteObject bucket key).resource) ↔
      BucketRequest.Plain http bucket ∧
        (req.tenantLets db bucket = true →
          BucketRequest.Plain http key ∧ ∀ part ∈ segments key, part ≠ "") := by
  unfold BucketRequest.routeAccesses at hacts ⊢
  have hresource := resource_bucket bucket key
  cases hdecode : http.pathDecode bucket with
  | none => simp [hdecode] at hacts
  | some decoded =>
      cases hdecodeKey : http.pathDecode key with
      | none => simp [hdecode, hdecodeKey] at hacts
      | some text =>
          simp only [hdecode, hdecodeKey] at hacts ⊢
          rw [plain_iff hdecode, List.forall_mem_append, tenantAccess_within, hresource,
            Option.some.injEq]
          by_cases hlets : req.tenantLets db decoded = true
          · rw [if_pos hlets, List.forall_mem_singleton, StoreAccess.Within, hresource,
              Option.some.injEq, ← decodeKey_eq_iff hkey hdecodeKey, ← resource_key_iff]
            constructor
            · intro hwithin
              obtain ⟨-, hsame, hkeys⟩ := hwithin
              exact ⟨hsame, fun _ => hkeys⟩
            · intro hspelled
              obtain ⟨rfl, hkeys⟩ := hspelled
              exact ⟨fun _ => rfl, rfl, hkeys hlets⟩
          · rw [if_neg hlets, List.append_nil] at hacts
            rw [if_neg hlets]
            exact refused_within_iff hlets hacts

/-- **What the handler of a route does is within its resource** exactly if what it has
captured spells what is meant. -/
theorem routeAccesses_within_iff {route : BucketRoute} (hcaptures : route.Captures)
    (hacts : req.routeAccesses http db route ≠ []) :
    (∀ access ∈ req.routeAccesses http db route, access.Within route.resource) ↔
      req.RouteSpells http db route := by
  cases route with
  | ofBucket handler bucket =>
      by_cases hhandler : handler = .deleteObjects
      · subst hhandler
        simpa [BucketRequest.RouteSpells, BucketRoute.resource] using
          deleteObjects_within_iff hacts
      · simpa [BucketRequest.RouteSpells, BucketRoute.resource, hhandler] using
          ofBucket_within_iff hhandler hacts
  | deleteObject bucket key => exact deleteObject_within_iff hcaptures.2 hacts
  | deleteBucketNotification bucket ruleId =>
      unfold BucketRequest.routeAccesses at hacts ⊢
      cases hbucket : http.pathDecode bucket with
      | none => simp [hbucket] at hacts
      | some decoded =>
          cases hrule : http.pathDecode ruleId with
          | none => simp [hbucket, hrule] at hacts
          | some rule =>
              simp only [hbucket, hrule, BucketRequest.RouteSpells]
              rw [plain_iff hbucket]
              simp [StoreAccess.Within, BucketRoute.resource, Resource.ofBucket]

end Targets

/-! ## A delete of one key -/

/-- The path of a `DELETE` of an object. -/
def deletePath (rawBucket rawKey : String) : String :=
  "/buckets/" ++ rawBucket ++ "/objects/" ++ rawKey

/-- The key is the rest of the path. -/
theorem segments_deletePath {rawBucket : String} (h : '/' ∉ rawBucket.toList) (rawKey : String) :
    segments (deletePath rawBucket rawKey) =
      "" :: "buckets" :: rawBucket :: "objects" :: segments rawKey := by
  have hpath : deletePath rawBucket rawKey =
      "" ++ "/" ++ ("buckets" ++ "/" ++ (rawBucket ++ "/" ++ ("objects" ++ "/" ++ rawKey))) := by
    apply String.toList_inj.mp
    simp [deletePath]
  have hempty : segments "" = [""] := by decide
  have hbuckets : segments "buckets" = ["buckets"] := by decide
  have hobjects : segments "objects" = ["objects"] := by decide
  rw [hpath, segments_append, segments_append, segments_append, segments_append, hempty,
    hbuckets, hobjects, segments_of_not_mem h]
  rfl

section Deletes

variable (http : AdminHttp) {rawBucket rawKey : String}

/-- A path with a bucket and a key is routed to `delete_object`. -/
theorem route_deletePath (hslash : '/' ∉ rawBucket.toList) (hbucket : rawBucket ≠ "")
    (hkey : rawKey ≠ "") :
    http.route .delete (deletePath rawBucket rawKey) =
      some (.deleteObject rawBucket rawKey) := by
  rw [http.route_iff]
  exact ⟨.inl rfl, segments_deletePath hslash rawKey, hbucket, hkey⟩

/-- Without a key there is no route. -/
theorem route_deletePath_empty (hslash : '/' ∉ rawBucket.toList) :
    http.route .delete (deletePath rawBucket "") = none := by
  have hempty : segments "" = [""] := by decide
  cases hroute : http.route .delete (deletePath rawBucket "") with
  | none => rfl
  | some route =>
      obtain ⟨-, hsegments, hcaptures⟩ := (http.route_iff _ _ _).mp hroute
      rw [segments_deletePath hslash, hempty] at hsegments
      cases route with
      | ofBucket handler bucket =>
          cases handler <;> simp [BucketRoute.segments, BucketHandler.route] at hsegments
      | deleteObject bucket key =>
          have hkey : rawBucket = bucket ∧ [""] = segments key := by
            simpa [BucketRoute.segments] using hsegments
          replace hkey := hempty.trans hkey.2
          have hsame := congrArg ("/".intercalate ·) hkey
          simp only [intercalate_segments] at hsame
          exact absurd hsame.symm hcaptures.2
      | deleteBucketNotification bucket ruleId =>
          simp [BucketRoute.segments] at hsegments

variable (iam : IamStore) (user : AuthenticatedUser) (db : Db) {bucket key : String}

/-- **A `DELETE` for a key deletes the key** exactly if there is one, and
`urlencoding::decode` leaves it as it is. -/
theorem delete_exactly_iff (hslash : '/' ∉ rawBucket.toList) (hbucket : rawBucket ≠ "")
    (hdecodeBucket : http.pathDecode rawBucket = some bucket)
    (hdecodeKey : http.pathDecode rawKey = some key)
    (hallowed : authorizeMiddleware iam user .delete (deletePath rawBucket rawKey) = .ok ()) :
    ({ method := .delete, path := deletePath rawBucket rawKey } : BucketRequest).accesses
        http iam user db = [.object bucket key] ↔
      key ≠ "" ∧ BucketRequest.decodeKey http key = key := by
  unfold BucketRequest.accesses
  simp only
  rw [hallowed]
  by_cases hkey : rawKey = ""
  · subst hkey
    have hsame : http.pathDecode "" = some "" := by
      rw [http.pathDecode_eq, PercentCoding.decode_eq_some_iff]
      rfl
    obtain rfl : "" = key := by simpa [hsame] using hdecodeKey
    rw [route_deletePath_empty http hslash]
    simp
  · have hnonempty : key ≠ "" := by
      intro hempty
      rw [http.pathDecode_eq, hempty] at hdecodeKey
      exact hkey (PercentCoding.decode_eq_empty hdecodeKey)
    rw [route_deletePath http hslash hbucket hkey]
    simp [BucketRequest.routeAccesses, hdecodeBucket, hdecodeKey, BucketRequest.tenantAccess,
      BucketRequest.tenantLets, hnonempty]

end Deletes

/-- What a request does, it does with a route that it was let through to. -/
theorem accesses_cases {http : AdminHttp} {iam : IamStore} {user : AuthenticatedUser} {db : Db}
    {req : BucketRequest} (h : req.accesses http iam user db ≠ []) :
    ∃ route, http.route req.method req.path = some route ∧
      req.accesses http iam user db = req.routeAccesses http db route := by
  unfold BucketRequest.accesses at h ⊢
  cases hroute : http.route req.method req.path with
  | none => simp [hroute] at h
  | some route =>
      cases hallow : authorizeMiddleware iam user req.method req.path with
      | error e => simp [hroute, hallow] at h
      | ok allowed => exact ⟨route, rfl, rfl⟩

/-- **A request keeps to its target** exactly if it spells it, where it does anything at
all; and a `DELETE` for a key deletes the key exactly if there is one, and
`urlencoding::decode` leaves it as it is. -/
theorem actsOnTarget_iff (http : AdminHttp) (iam : IamStore) (user : AuthenticatedUser)
    (db : Db) :
    (∀ req : BucketRequest, req.ActsOnTarget http iam user db ↔
      (req.accesses http iam user db ≠ [] → req.SpellsTarget http db)) ∧
    ∀ rawBucket rawKey bucket key, '/' ∉ rawBucket.toList → rawBucket ≠ "" →
      http.pathDecode rawBucket = some bucket → http.pathDecode rawKey = some key →
      authorizeMiddleware iam user .delete (deletePath rawBucket rawKey) = .ok () →
      (({ method := .delete, path := deletePath rawBucket rawKey } : BucketRequest).accesses
          http iam user db = [.object bucket key] ↔
        key ≠ "" ∧ BucketRequest.decodeKey http key = key) := by
  constructor
  · intro req
    by_cases hnone : req.accesses http iam user db = []
    · simp [BucketRequest.ActsOnTarget, hnone]
    · obtain ⟨route, hroute, hdoes⟩ := accesses_cases hnone
      have hmatches := (http.route_iff _ _ _).mp hroute
      have hwithin := routeAccesses_within_iff hmatches.captures (hdoes ▸ hnone)
      have hspells : req.SpellsTarget http db ↔ req.RouteSpells http db route := by
        simp [BucketRequest.SpellsTarget, hroute]
      rw [BucketRequest.ActsOnTarget, hdoes, authorizationTarget_matches hmatches, hwithin,
        hspells]
      rw [hdoes] at hnone
      exact ⟨fun h _ => h, fun h => h hnone⟩
  · intro rawBucket rawKey bucket key hslash hbucket hdecodeBucket hdecodeKey hallowed
    exact delete_exactly_iff http iam user db hslash hbucket hdecodeBucket hdecodeKey hallowed

/-! ## A router -/

/-- The handler for a method and the segments after the bucket. -/
def findHandler : Method → List String → Option BucketHandler
  | .get, [] => some .getBucket
  | .head, [] => some .getBucket
  | .delete, [] => some .deleteBucket
  | .get, ["versioning"] => some .getBucketVersioning
  | .head, ["versioning"] => some .getBucketVersioning
  | .put, ["versioning"] => some .setBucketVersioning
  | .get, ["objects"] => some .listObjects
  | .head, ["objects"] => some .listObjects
  | .delete, ["objects"] => some .deleteObjects
  | .get, ["policy"] => some .getBucketPolicy
  | .head, ["policy"] => some .getBucketPolicy
  | .put, ["policy"] => some .setBucketPolicy
  | .delete, ["policy"] => some .deleteBucketPolicy
  | .get, ["notifications"] => some .getBucketNotifications
  | .head, ["notifications"] => some .getBucketNotifications
  | .post, ["notifications"] => some .createBucketNotification
  | _, _ => none

/-- The route for the segments after the bucket. -/
def findRoute (method : Method) (bucket : String) : List String → Option BucketRoute
  | "objects" :: part :: parts =>
    if method = .delete ∧ "/".intercalate (part :: parts) ≠ "" then
      some (.deleteObject bucket ("/".intercalate (part :: parts)))
    else none
  | ["notifications", ruleId] =>
    if method = .delete ∧ ruleId ≠ "" then some (.deleteBucketNotification bucket ruleId)
    else none
  | rest => (findHandler method rest).map (.ofBucket · bucket)

/-- The route for a path. -/
def findBucketRoute (method : Method) (path : String) : Option BucketRoute :=
  match segments path with
  | "" :: "buckets" :: bucket :: rest =>
    if bucket = "" then none else findRoute method bucket rest
  | _ => none

/-- The handler is the one whose route it is. -/
theorem findHandler_iff {method : Method} {rest : List String} {handler : BucketHandler} :
    findHandler method rest = some handler ↔
      (method = handler.route.1 ∨ handler.route.1 = .get ∧ method = .head) ∧
        rest = handler.route.2 := by
  constructor
  · intro h
    unfold findHandler at h
    split at h <;> simp_all [BucketHandler.route]
    all_goals subst h; simp
  · intro h
    obtain ⟨hmethod, rfl⟩ := h
    cases handler <;> simp only [BucketHandler.route] at hmethod ⊢ <;>
      rcases hmethod with rfl | ⟨hget, rfl⟩ <;> first | rfl | cases hget

/-- What is found is a route for the path. -/
theorem findBucketRoute_matches {method : Method} {path : String} {route : BucketRoute}
    (h : findBucketRoute method path = some route) : route.Matches method path := by
  unfold findBucketRoute at h
  split at h
  · rename_i bucket rest hsegments
    by_cases hbucket : bucket = ""
    · simp [hbucket] at h
    · rw [if_neg hbucket] at h
      unfold findRoute at h
      split at h
      · rename_i part parts
        split at h
        · rename_i hroute
          obtain ⟨rfl, hkey⟩ := hroute
          cases h
          have hparts : segments ("/".intercalate (part :: parts)) = part :: parts := by
            refine segments_intercalate (by simp) fun one hone => ?_
            have hin : one ∈ segments path := by
              rw [hsegments]
              simp [List.mem_cons.mp hone]
            exact not_mem_of_mem_segments hin
          refine ⟨.inl rfl, ?_, hbucket, hkey⟩
          rw [hsegments, BucketRoute.segments, hparts]
        · cases h
      · rename_i ruleId
        split at h
        · rename_i hroute
          obtain ⟨rfl, hrule⟩ := hroute
          cases h
          exact ⟨.inl rfl, hsegments, hbucket, hrule⟩
        · cases h
      · obtain ⟨handler, hfound, rfl⟩ := Option.map_eq_some_iff.mp h
        obtain ⟨hmethod, rfl⟩ := findHandler_iff.mp hfound
        exact ⟨hmethod, hsegments, hbucket⟩
  · cases h

/-- A route for the path is found. -/
theorem matches_findBucketRoute {method : Method} {path : String} {route : BucketRoute}
    (h : route.Matches method path) : findBucketRoute method path = some route := by
  obtain ⟨hmethod, hsegments, hcaptures⟩ := h
  unfold findBucketRoute
  rw [hsegments]
  cases route with
  | ofBucket handler bucket =>
      have hfound := findHandler_iff.mpr ⟨hmethod, rfl⟩
      simp only [BucketRoute.segments]
      rw [if_neg hcaptures]
      cases handler <;> simp [findRoute, BucketHandler.route] at hfound ⊢ <;> exact hfound
  | deleteObject bucket key =>
      obtain ⟨hbucket, hkey⟩ := hcaptures
      obtain rfl : method = .delete := by simpa [BucketRoute.method] using hmethod
      obtain ⟨part, parts, hparts⟩ := List.exists_cons_of_ne_nil (segments_ne_nil key)
      have hjoin := intercalate_segments key
      rw [hparts] at hjoin
      simp only [BucketRoute.segments, hparts]
      rw [if_neg hbucket, findRoute, hjoin, if_pos ⟨rfl, hkey⟩]
  | deleteBucketNotification bucket ruleId =>
      obtain ⟨hbucket, hrule⟩ := hcaptures
      obtain rfl : method = .delete := by simpa [BucketRoute.method] using hmethod
      simp only [BucketRoute.segments]
      rw [if_neg hbucket, findRoute, if_pos ⟨rfl, hrule⟩]

/-- The HTTP libraries, with a router that looks the segments up. -/
def plainHttp : AdminHttp where
  route := findBucketRoute
  route_iff _ _ _ := ⟨findBucketRoute_matches, matches_findBucketRoute⟩
  pathDecode := PercentCoding.decode
  pathDecode_eq _ := rfl
  urlDecode := PercentCoding.decode
  urlDecode_eq _ := rfl

/-! ## Runs -/

/-- The root user, logged in. -/
def rootOperator : AuthenticatedUser where
  username := "root"
  accessKeyId := "ROOTKEY"
  isRoot := true

/-- `DELETE` of a key in the bucket `docs`. -/
def deleteInDocs (rawKey : String) : BucketRequest where
  method := .delete
  path := deletePath "docs" rawKey

/-- A text without a percent sign before two digits is plain. -/
theorem decode_letters : PercentCoding.decode "docs" = some "docs" ∧
    PercentCoding.decode "a" = some "a" := by
  rw [PercentCoding.decode_eq_some_iff, PercentCoding.decode_eq_some_iff]
  decide

/-- `%2541` is `%41` under percent-encoding, and that is `A`. -/
theorem decode_escapes : PercentCoding.decode "%2541" = some "%41" ∧
    PercentCoding.decode "%41" = some "A" := by
  rw [PercentCoding.decode_eq_some_iff, PercentCoding.decode_eq_some_iff]
  decide

/-- A `DELETE` of the key `a` deletes it, and nothing else. -/
theorem letterKey_deleted :
    (deleteInDocs "a").ActsOnTarget plainHttp emptyIam rootOperator {} ∧
      (deleteInDocs "a").accesses plainHttp emptyIam rootOperator {} = [.object "docs" "a"] := by
  obtain ⟨hdocs, ha⟩ := decode_letters
  constructor
  · refine ((actsOnTarget_iff plainHttp emptyIam rootOperator {}).1 _).mpr fun _ => ?_
    intro route hroute
    have hfound : findBucketRoute .delete (deletePath "docs" "a") =
        some (.deleteObject "docs" "a") := by decide
    obtain rfl := Option.some.inj (hfound.symm.trans hroute)
    exact ⟨hdocs, fun _ => ⟨ha, by decide⟩⟩
  · refine ((actsOnTarget_iff plainHttp emptyIam rootOperator {}).2 "docs" "a" "docs" "a"
      (by decide) (by decide) hdocs ha rfl).mpr ⟨by decide, ?_⟩
    simp [BucketRequest.decodeKey, plainHttp, ha]

/-- **A key that looks like an escape**: the correctly encoded `DELETE` for `%41` is
authorized for `%2541` and deletes the object `A`. -/
theorem escapedKey_deletesAnother :
    (deleteInDocs "%2541").accesses plainHttp emptyIam rootOperator {} = [.object "docs" "A"] ∧
      ¬ (deleteInDocs "%2541").ActsOnTarget plainHttp emptyIam rootOperator {} ∧
      ¬ ∀ rawBucket rawKey bucket key, '/' ∉ rawBucket.toList → rawBucket ≠ "" →
        PercentCoding.decode rawBucket = some bucket → PercentCoding.decode rawKey = some key →
        authorizeMiddleware emptyIam rootOperator .delete (deletePath rawBucket rawKey) =
          .ok () →
        ({ method := .delete, path := deletePath rawBucket rawKey } : BucketRequest).accesses
          plainHttp emptyIam rootOperator {} = [.object bucket key] := by
  obtain ⟨hdocs, -⟩ := decode_letters
  obtain ⟨hescape, hletter⟩ := decode_escapes
  have hfound : findBucketRoute .delete (deletePath "docs" "%2541") =
      some (.deleteObject "docs" "%2541") := by decide
  have hdoes : (deleteInDocs "%2541").accesses plainHttp emptyIam rootOperator {} =
      [.object "docs" "A"] := by
    simp [BucketRequest.accesses, deleteInDocs, plainHttp, hfound, authorizeMiddleware,
      rootOperator, BucketRequest.routeAccesses, hdocs, hescape, hletter,
      BucketRequest.tenantAccess, BucketRequest.tenantLets, BucketRequest.decodeKey]
  refine ⟨hdoes, ?_, ?_⟩
  · intro hacts
    have hwithin := hacts (.object "docs" "A") (by rw [hdoes]; simp)
    have htarget : (authorizationTarget .delete (deletePath "docs" "%2541")).2.key =
        some "%2541" := by decide
    exact absurd (htarget.symm.trans hwithin.2) (by decide)
  · intro hall
    have hexactly := hall "docs" "%2541" "docs" "%41" (by decide) (by decide) hdocs hescape rfl
    exact absurd (hdoes.symm.trans hexactly) (by decide)

end Strix

import Strix.AdminAuth
import Strix.Notifications
import Strix.PathSegments
import Strix.PercentCoding

/-!
# Routes of the admin API

A request to a bucket is authorized for the bucket and the key that its path spells,
without the empty segments of the key; the router captures the segments as they are
sent, and what a handler gets has been percent-decoded.  `delete_object` decodes the
key once more, and `delete_objects` takes its keys from the body.

* `authorizationTarget_matches`: the resource that a route is authorized for.
-/

namespace Strix

open PathSegments

/-! ## Routes -/

/-- The handlers under `/buckets/{bucket}` that take nothing else from the path. -/
inductive BucketHandler
  | getBucket
  | deleteBucket
  | getBucketVersioning
  | setBucketVersioning
  | listObjects
  | deleteObjects
  | getBucketPolicy
  | setBucketPolicy
  | deleteBucketPolicy
  | getBucketNotifications
  | createBucketNotification
  deriving DecidableEq, Repr

/-- The method of a handler's route, and the segments after the bucket. -/
def BucketHandler.route : BucketHandler → Method × List String
  | getBucket => (.get, [])
  | deleteBucket => (.delete, [])
  | getBucketVersioning => (.get, ["versioning"])
  | setBucketVersioning => (.put, ["versioning"])
  | listObjects => (.get, ["objects"])
  | deleteObjects => (.delete, ["objects"])
  | getBucketPolicy => (.get, ["policy"])
  | setBucketPolicy => (.put, ["policy"])
  | deleteBucketPolicy => (.delete, ["policy"])
  | getBucketNotifications => (.get, ["notifications"])
  | createBucketNotification => (.post, ["notifications"])

/-- A route under `/buckets/{bucket}`, with what it captures of the path. -/
inductive BucketRoute
  | ofBucket (handler : BucketHandler) (bucket : String)
  | deleteObject (bucket key : String)
  | deleteBucketNotification (bucket ruleId : String)
  deriving DecidableEq, Repr

namespace BucketRoute

def method : BucketRoute → Method
  | ofBucket handler _ => handler.route.1
  | deleteObject .. => .delete
  | deleteBucketNotification .. => .delete

/-- The path of a route: `{*key}` stands for the rest of it. -/
def segments : BucketRoute → List String
  | ofBucket handler bucket => "" :: "buckets" :: bucket :: handler.route.2
  | deleteObject bucket key => "" :: "buckets" :: bucket :: "objects" :: PathSegments.segments key
  | deleteBucketNotification bucket ruleId => ["", "buckets", bucket, "notifications", ruleId]

/-- Nothing that is captured is empty. -/
def Captures : BucketRoute → Prop
  | ofBucket _ bucket => bucket ≠ ""
  | deleteObject bucket key => bucket ≠ "" ∧ key ≠ ""
  | deleteBucketNotification bucket ruleId => bucket ≠ "" ∧ ruleId ≠ ""

/-- **The route is for the request**: by its method, `GET` routes being for `HEAD` as
well, and by its path as it was sent. -/
structure Matches (route : BucketRoute) (method : Method) (path : String) : Prop where
  method_eq : method = route.method ∨ route.method = .get ∧ method = .head
  segments_eq : PathSegments.segments path = route.segments
  captures : route.Captures

/-- The resource that a request for the route is authorized for. -/
def resource : BucketRoute → Resource
  | ofBucket _ bucket => .ofBucket bucket
  | deleteObject bucket key =>
    match nonempty (PathSegments.segments key) with
    | [] => .ofBucket bucket
    | parts => .object bucket ("/".intercalate parts)
  | deleteBucketNotification bucket _ => .ofBucket bucket

end BucketRoute

/-- **What the admin API takes from its HTTP libraries**: the router, the decoding of
the captured segments by the `Path` extractor, and `urlencoding::decode`. -/
structure AdminHttp where
  route : Method → String → Option BucketRoute
  route_iff : ∀ method path r, route method path = some r ↔ r.Matches method path
  pathDecode : String → Option String
  pathDecode_eq : ∀ captured, pathDecode captured = PercentCoding.decode captured
  urlDecode : String → Option String
  urlDecode_eq : ∀ text, urlDecode text = PercentCoding.decode text

/-! ## What a route is authorized for -/

/-- A path under `/buckets` is not under `/api/v1`. -/
theorem stripHead_apiV1 {path : String} {rest : List String}
    (h : segments path = "" :: "buckets" :: rest) : stripHead path "/api/v1" = none := by
  unfold stripHead
  refine if_neg fun hstart => ?_
  obtain ⟨tail, htail⟩ := List.isPrefixOf_iff_prefix.mp hstart
  have hpath : path = "" ++ "/" ++ ("api" ++ "/" ++ ("v1" ++ String.ofList tail)) := by
    apply String.toList_inj.mp
    simp [← htail]
  rw [hpath, segments_append, segments_append] at h
  have hsecond := congrArg (fun parts => parts[1]?) h
  have hempty : segments "" = [""] := by decide
  have hapi : segments "api" = ["api"] := by decide
  simp [hempty, hapi] at hsecond

/-- **The resource of a route.** -/
theorem authorizationTarget_matches {route : BucketRoute} {method : Method} {path : String}
    (h : route.Matches method path) : (authorizationTarget method path).2 = route.resource := by
  have hparts : pathSegments path = nonempty route.segments := by
    rw [← h.segments_eq]
    rfl
  have hcaptures := h.captures
  cases route with
  | ofBucket handler bucket =>
      have hstrip := stripHead_apiV1 h.segments_eq
      have hbucket : bucket.isEmpty = false := by simpa [BucketRoute.Captures] using hcaptures
      unfold authorizationTarget
      rw [hstrip, Option.getD_none, hparts]
      cases handler <;> simp only [BucketRoute.segments, BucketHandler.route, nonempty] <;>
        simp [hbucket, BucketRoute.resource] <;> cases method <;> rfl
  | deleteObject bucket key =>
      have hstrip := stripHead_apiV1 h.segments_eq
      have hbucket : bucket.isEmpty = false := by simpa [BucketRoute.Captures] using hcaptures.1
      have hsegments : nonempty (BucketRoute.deleteObject bucket key).segments =
          "buckets" :: bucket :: "objects" :: nonempty (segments key) := by
        simp [BucketRoute.segments, nonempty, hbucket]
      unfold authorizationTarget
      rw [hstrip, Option.getD_none, hparts, hsegments]
      cases hkey : nonempty (segments key) with
      | nil => cases method <;> simp [BucketRoute.resource, hkey]
      | cons part parts => cases method <;> simp [BucketRoute.resource, hkey]
  | deleteBucketNotification bucket ruleId =>
      have hstrip := stripHead_apiV1 h.segments_eq
      have hbucket : bucket.isEmpty = false := by simpa [BucketRoute.Captures] using hcaptures.1
      have hrule : ruleId.isEmpty = false := by simpa [BucketRoute.Captures] using hcaptures.2
      have hsegments : nonempty (BucketRoute.deleteBucketNotification bucket ruleId).segments =
          ["buckets", bucket, "notifications", ruleId] := by
        simp [BucketRoute.segments, nonempty, hbucket, hrule]
      unfold authorizationTarget
      rw [hstrip, Option.getD_none, hparts, hsegments]
      cases method <;> rfl

end Strix

import Strix.Buckets
import Strix.ExecutablePlatform
import Strix.SplitWords
import Strix.StoreCrypto

/-!
# The keys of encrypted objects

The key of a version is derived from a text that names its bucket, its key and its version
id, with colons between them.  A key may hold colons; the name of a bucket and a version id
never do, so the first and the last colon stand where they were put.

* `derivationContext_inj`: the text tells the three names;
* `deriveObjectKey_injOn`: versions of different names have different keys, as far as the
  digest does not collide on the texts.
-/

namespace Strix

open SplitWords

/-- The digits of a ULID. -/
def ulidDigits : List Char := "0123456789ABCDEFGHJKMNPQRSTVWXYZ".toList

/-- The text of a ULID: 26 digits. -/
def IsUlid (text : String) : Prop :=
  text.toList.length = 26 ∧ ∀ c ∈ text.toList, c ∈ ulidDigits

instance (text : String) : Decidable (IsUlid text) :=
  decidable_of_iff
    (text.toList.length = 26 ∧ (text.toList.all fun c => ulidDigits.contains c) = true)
    (and_congr_right fun _ => by simp)

/-- The names of a version. -/
structure VersionName where
  bucket : String
  key : String
  versionId : String
  deriving DecidableEq, Repr

namespace VersionName

/-- The bucket has a valid name, and the version id is that of a bucket without versions or
a ULID.  The key is any text. -/
structure Valid (name : VersionName) : Prop where
  bucket : validateBucketName name.bucket = .ok ()
  version : name.versionId = "null" ∨ IsUlid name.versionId

/-- The text that `derive_object_key` derives the key from. -/
def derivationContext (name : VersionName) : String :=
  "object:" ++ name.bucket ++ ":" ++ name.key ++ ":" ++ name.versionId

/-- The bytes of the text. -/
def context (name : VersionName) : Bytes := utf8 name.derivationContext

/-- The key of a version. -/
def objectKey (P : Platform) (name : VersionName) : EncryptionKey :=
  deriveObjectKey P name.bucket name.key name.versionId

theorem objectKey_eq (P : Platform) (name : VersionName) :
    name.objectKey P = P.hmacSha256 P.masterKey.val name.context := rfl

/-- No colon stands in the name of a bucket. -/
theorem Valid.colon_bucket {name : VersionName} (h : name.Valid) : ':' ∉ name.bucket.toList := by
  intro hcolon
  exact absurd (bucketNameChar_of_validate h.bucket hcolon) (by decide)

/-- No colon stands in a version id. -/
theorem Valid.colon_version {name : VersionName} (h : name.Valid) :
    ':' ∉ name.versionId.toList := by
  obtain hnull | ⟨-, hdigits⟩ := h.version
  · rw [hnull]
    decide
  · intro hcolon
    exact absurd (hdigits ':' hcolon) (by decide)

/-- The text as characters: what is between the colons. -/
theorem toList_derivationContext (name : VersionName) :
    name.derivationContext.toList =
      "object:".toList ++ (name.bucket.toList ++ ':' :: (name.key.toList ++ ':' ::
        name.versionId.toList)) := by
  have hcolon : ":".toList = [':'] := by decide
  unfold derivationContext
  simp only [String.toList_append, hcolon, List.append_assoc, List.cons_append, List.nil_append]

/-- **The text tells the three names.** -/
theorem derivationContext_inj {name name' : VersionName} (h : name.Valid) (h' : name'.Valid)
    (heq : name.derivationContext = name'.derivationContext) : name = name' := by
  have hlists := congrArg String.toList heq
  rw [toList_derivationContext, toList_derivationContext] at hlists
  have hnames := List.append_cancel_left hlists
  obtain ⟨hbucket, hrest⟩ := append_first_inj h.colon_bucket h'.colon_bucket hnames
  obtain ⟨hkey, hversion⟩ := append_last_inj h.colon_version h'.colon_version hrest
  obtain ⟨bucket, key, versionId⟩ := name
  obtain ⟨bucket', key', versionId'⟩ := name'
  rw [String.toList_inj] at hbucket hkey hversion
  dsimp only at hbucket hkey hversion
  rw [hbucket, hkey, hversion]

/-- Different texts have different bytes. -/
theorem utf8_inj {text text' : String} (h : utf8 text = utf8 text') : text = text' := by
  unfold utf8 at h
  have hdata : text.toUTF8.data = text'.toUTF8.data := Array.toList_inj.mp h
  exact String.toByteArray_inj.mp (ByteArray.ext hdata)

end VersionName

/-- **No two versions share a key.**  Versions of different names, in buckets with valid
names, derive their keys from different texts; so where the digest under the master key does
not collide on these texts, their keys are different. -/
theorem deriveObjectKey_injOn (P : Platform) {used : Set VersionName}
    (hvalid : ∀ name ∈ used, name.Valid) :
    Set.InjOn VersionName.context used ∧
      (Set.InjOn (P.hmacSha256 P.masterKey.val) (VersionName.context '' used) →
        Set.InjOn (VersionName.objectKey P) used) := by
  have hcontext : Set.InjOn VersionName.context used := by
    intro name hname name' hname' heq
    exact VersionName.derivationContext_inj (hvalid name hname) (hvalid name' hname')
      (VersionName.utf8_inj heq)
  refine ⟨hcontext, ?_⟩
  intro hdigest name hname name' hname' heq
  rw [VersionName.objectKey_eq, VersionName.objectKey_eq] at heq
  have hsame := hdigest (Set.mem_image_of_mem _ hname) (Set.mem_image_of_mem _ hname') heq
  exact hcontext hname hname' hsame

/-- HMAC-SHA256 under the zero key, of two texts. -/
def tabulatedHmac (data : Bytes) : Bytes :=
  if data = utf8 "object:docs:a:b:null" then
    [237, 189, 188, 69, 155, 206, 120, 164, 230, 133, 173, 216, 21, 237, 39, 111,
      54, 210, 244, 35, 179, 8, 215, 57, 251, 129, 182, 247, 167, 92, 231, 198]
  else
    [120, 39, 25, 24, 32, 50, 233, 238, 197, 36, 119, 222, 52, 69, 157, 50,
      145, 216, 34, 33, 101, 253, 229, 244, 227, 131, 57, 20, 66, 69, 9, 250]

/-- The platform with these digests. -/
def hmacPlatform : Platform :=
  { executablePlatform with
    hmacSha256 := fun _ data => ⟨tabulatedHmac data, by unfold tabulatedHmac; split <;> rfl⟩ }

/-- A key with a colon, and a version of the key before it. -/
def colonNames : List VersionName :=
  [⟨"docs", "a:b", "null"⟩, ⟨"docs", "a", "01ARZ3NDEKTSV4RRFFQ69G5FAV"⟩]

/-- A key with a colon in it and a version of a shorter key are encrypted under different
keys. -/
theorem deriveObjectKey_injOn_colon :
    deriveObjectKey hmacPlatform "docs" "a:b" "null" ≠
      deriveObjectKey hmacPlatform "docs" "a" "01ARZ3NDEKTSV4RRFFQ69G5FAV" := by
  have hvalid : ∀ name ∈ {name | name ∈ colonNames}, name.Valid := by
    intro name hname
    obtain rfl | hname := List.mem_cons.mp hname
    · exact ⟨by decide +kernel, .inl rfl⟩
    · obtain rfl := List.mem_singleton.mp hname
      exact ⟨by decide +kernel, .inr (by decide +kernel)⟩
  have hdigest : Set.InjOn (hmacPlatform.hmacSha256 hmacPlatform.masterKey.val)
      (VersionName.context '' {name | name ∈ colonNames}) := by
    have hdifferent : tabulatedHmac (VersionName.context ⟨"docs", "a:b", "null"⟩) ≠
        tabulatedHmac (VersionName.context ⟨"docs", "a", "01ARZ3NDEKTSV4RRFFQ69G5FAV"⟩) := by
      decide +kernel
    intro data hdata data' hdata' heq
    obtain ⟨name, hname, rfl⟩ := hdata
    obtain ⟨name', hname', rfl⟩ := hdata'
    have hbytes : tabulatedHmac name.context = tabulatedHmac name'.context :=
      congrArg Subtype.val heq
    obtain rfl | hname := List.mem_cons.mp hname
    · obtain rfl | hname' := List.mem_cons.mp hname'
      · rfl
      · obtain rfl := List.mem_singleton.mp hname'
        exact absurd hbytes hdifferent
    · obtain rfl := List.mem_singleton.mp hname
      obtain rfl | hname' := List.mem_cons.mp hname'
      · exact absurd hbytes.symm hdifferent
      · obtain rfl := List.mem_singleton.mp hname'
        rfl
  obtain ⟨-, hkeys⟩ := deriveObjectKey_injOn hmacPlatform hvalid
  intro heq
  have hsame := hkeys hdigest (List.mem_cons_self : _ ∈ colonNames)
    (List.mem_cons_of_mem _ (List.mem_singleton_self _)) heq
  exact absurd hsame (by decide +kernel)

end Strix

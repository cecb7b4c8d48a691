import Strix.ExecutablePlatform
import Strix.LatestVersion
import Strix.ObjectRequests

/-!
# Customer keys

A `PutObject` request may bring a customer key.  The handler passes the key on
but never asks for SSE-C, and the store encrypts only what it is asked to: the
key is checked and then forgotten.

* `putObject_ignores_customerKey`: whatever the request, the object it stores
  is not tagged as SSE-C, and a read without the key answers its content,
  though `CreateMultipartUpload` takes the same headers for SSE-C;
* `customerKey_not_applied`: such a request, run.
-/

namespace Strix

open AtomicProgram AtomicProgram.Prog MachineRuns RowTable

variable (P : Platform)

/-- **The customer key of a put was applied:** the key's latest row is tagged
as SSE-C, its blob opens under the key to what was sent, and no read without
the key succeeds. -/
def CustomerKeyApplied (w' : World) (input : PutObjectInput) : Prop :=
  ∃ row, selectObject input.bucket input.key none w'.db = some row ∧
    row.encryptionAlgorithm = some .sseC ∧
    (∃ keyBase64 sseKey body content blob, input.headers.sseCustomerKey = some keyBase64 ∧
      customerKey P keyBase64 input.headers.sseCustomerKeyMd5 = .ok sseKey ∧
      input.body = some body ∧ readBody body = .ok content ∧
      w'.files.objects row.id = some blob ∧ decryptSseC P sseKey blob = .ok content) ∧
    ∀ opts : GetObjectOpts, opts.sseCustomerKey = none →
      ∃ e, ((getObject P input.bucket input.key opts).run w').1 = .error e

/-- **The content can be had without a key.** -/
def ReadsWithoutKey (w' : World) (input : PutObjectInput) : Prop :=
  ∃ body content info, input.body = some body ∧ readBody body = .ok content ∧
    (getObject P input.bucket input.key {}).run w' = (.ok { info, body := content }, w')

variable {P}

/-- A put never asks for SSE-C. -/
theorem WriteHeaders.putEncryption_ne_sseC (headers : WriteHeaders) :
    headers.putEncryption ≠ some .sseC := by
  unfold putEncryption
  cases headers.serverSideEncryption with
  | none => simp
  | some sse => by_cases h : sse = "AES256" <;> simp [h]

/-- The headers of a customer key stand for SSE-C where an upload is created. -/
theorem WriteHeaders.uploadEncryption_sseC {headers : WriteHeaders} {keyBase64 : String}
    (hkey : headers.sseCustomerKey = some keyBase64)
    (hplain : headers.serverSideEncryption ≠ some "AES256") :
    headers.uploadEncryption = some .sseC := by
  simp [uploadEncryption, hplain, hkey]

/-- The row a writer installs is the one that the key's latest lookup yields. -/
theorem selectObject_install {w : World} {bucket key : String} {status : VersioningStatus}
    {row : ObjectRow} {data : Bytes} {n : Nat} (hnew : NewVersion P w bucket key status row) :
    selectObject bucket key none (w.install status row data n).db = some row := by
  obtain ⟨rfl, rfl⟩ : row.bucket = bucket ∧ row.key = key := ⟨hnew.bucket_eq, hnew.key_eq⟩
  have hunflagged : ∀ r ∈ roomMade status row.bucket row.key w.db.objects,
      atLatest row.bucket row.key r = false := by
    intro r hr
    rw [Bool.eq_false_iff]
    intro hat
    obtain ⟨hkey, hlatest⟩ := atLatest_iff.mp hat
    rw [roomMade_unflagged r (List.mem_filter.mpr ⟨hr, atKey_iff.mpr hkey⟩)] at hlatest
    cases hlatest
  have hrow : atLatest row.bucket row.key row = true :=
    atLatest_iff.mpr ⟨⟨rfl, rfl⟩, hnew.latest⟩
  show selectFirst (atLatest row.bucket row.key)
    (roomMade status row.bucket row.key w.db.objects ++ [row]) = some row
  rw [selectFirst, List.find?_append, List.find?_eq_none.mpr fun r hr => by simp [hunflagged r hr]]
  simp [hrow]

/-- What a row holds under no key of the customer's comes out without one. -/
theorem readContent_without_key {row : ObjectRow} {sseKey : Option EncryptionKey}
    {content data : Bytes} (hmarker : row.isDeleteMarker = false)
    (halg : row.encryptionAlgorithm ≠ some .sseC) (hholds : Holds P row sseKey content data) :
    readContent P row.bucket row.key {} row (some data) = .ok content :=
  readContent_plain P hmarker rfl rfl (decryptRow_of_holds halg hholds)

/-- **A put never applies a customer key.**  Of every request that succeeds
with one, the object is not tagged as SSE-C and can be read without the key;
an upload created with the same headers is one under SSE-C. -/
theorem putObject_ignores_customerKey {w w' : World} (hw : (store P).Reachable w)
    {caller : Caller} {input : PutObjectInput} {response : PutObjectResponse}
    (hkey : input.headers.sseCustomerKey.isSome)
    (hrun : (S3Service.putObject P caller input).run w = (.ok response, w')) :
    ¬ CustomerKeyApplied P w' input ∧ ReadsWithoutKey P w' input ∧
      (input.headers.serverSideEncryption ≠ some "AES256" →
        input.headers.uploadEncryption = some .sseC) := by
  have hids := (wellFormed_reachable hw).ids
  rw [S3Service.putObject, run_authorize_bind] at hrun
  cases hcheck : caller.check w.now "PutObject" input.bucket input.key with
  | error e => simp [hcheck] at hrun
  | ok _ =>
      simp only [hcheck, run_require_bind] at hrun
      cases hbody : input.body with
      | none => simp [hbody] at hrun
      | some body =>
          simp only [hbody, run_ofStore] at hrun
          rcases putObject_cases input.bucket input.key body
              (input.headers.opts input.headers.putEncryption) hids with
            ⟨-, e, n, hput, -⟩ |
              ⟨-, status, row, sseCKey, content, data, n, hput, -, hnew, -, hread, hrow, hholds⟩
          · rw [hput] at hrun
            cases hrun
          · rw [hput] at hrun
            obtain ⟨-, rfl⟩ := Prod.mk.inj hrun
            have hselect : selectObject input.bucket input.key none
                (w.install status row data n).db = some row := selectObject_install hnew
            have halg : row.encryptionAlgorithm ≠ some .sseC := by
              rw [hrow]
              exact input.headers.putEncryption_ne_sseC
            refine ⟨?_, ?_, ?_⟩
            · rintro ⟨row', hselect', htagged, -⟩
              rw [hselect] at hselect'
              cases hselect'
              exact halg htagged
            · refine ⟨body, content, row.info, hbody, hread, ?_⟩
              have hblob : (w.install status row data n).files.objects row.id = some data :=
                Function.update_self ..
              have hcontent := readContent_without_key hnew.notMarker halg hholds
              rw [hnew.bucket_eq, hnew.key_eq] at hcontent
              simp [getObject_run, hselect, hblob, hcontent, Except.map]
            · obtain ⟨keyBase64, hkey⟩ := Option.isSome_iff_exists.mp hkey
              exact WriteHeaders.uploadEncryption_sseC hkey

/-! ## A key of zeros -/

/-- The base64 text of a key of zeros. -/
def zeroKeyBase64 : String := "AAAAAAAAAAAAAAAAAAAAAAAAAAAAAAAAAAAAAAAAAAA="

/-- The executable platform, which can read that text. -/
def keyReadingPlatform : Platform :=
  { executablePlatform with
    base64Decode := fun text =>
      if text = zeroKeyBase64 then some (List.replicate keySize 0) else none }

def docsRun : List Op := [.createBucket "docs" {}]

def docsWorld : World := (store keyReadingPlatform).after (store keyReadingPlatform).init docsRun

/-- A put of the letter `a` under the customer's key. -/
def putUnderKey : PutObjectInput where
  bucket := "docs"
  key := "k"
  body := some [.ok [97]]
  headers := { sseCustomerAlgorithm := some "AES256", sseCustomerKey := some zeroKeyBase64 }

/-- The request succeeds. -/
theorem putUnderKey_succeeds :
    (S3Service.putObject keyReadingPlatform rootCaller putUnderKey).run docsWorld =
      (.ok { etag := "\"0cc175b9c0f1b6a831c399e269772661\"", versionId := none },
        ((S3Service.putObject keyReadingPlatform rootCaller putUnderKey).run docsWorld).2) := by
  refine Prod.ext ?_ rfl
  decide

/-- The object that was put under a key is there for everybody who may read. -/
theorem putObject_ignores_customerKey_zeros :
    ¬ CustomerKeyApplied keyReadingPlatform
        ((S3Service.putObject keyReadingPlatform rootCaller putUnderKey).run docsWorld).2
        putUnderKey ∧
      ReadsWithoutKey keyReadingPlatform
        ((S3Service.putObject keyReadingPlatform rootCaller putUnderKey).run docsWorld).2
        putUnderKey ∧
      (putUnderKey.headers.serverSideEncryption ≠ some "AES256" →
        putUnderKey.headers.uploadEncryption = some .sseC) :=
  putObject_ignores_customerKey ⟨docsRun, rfl⟩ rfl putUnderKey_succeeds

/-- So the key of a request that succeeds is not always applied. -/
theorem customerKey_not_applied :
    ¬ ∀ (w w' : World) (caller : Caller) (input : PutObjectInput)
        (response : PutObjectResponse), (store keyReadingPlatform).Reachable w →
      input.headers.sseCustomerKey.isSome →
      (S3Service.putObject keyReadingPlatform caller input).run w = (.ok response, w') →
      CustomerKeyApplied keyReadingPlatform w' input := by
  intro h
  obtain ⟨row, hselect, htagged, -⟩ :=
    h docsWorld _ rootCaller putUnderKey _ ⟨docsRun, rfl⟩ rfl putUnderKey_succeeds
  have huntagged : ∀ r ∈ ((S3Service.putObject keyReadingPlatform rootCaller putUnderKey).run
      docsWorld).2.db.objects, r.encryptionAlgorithm = none := by decide
  rw [huntagged row (selectObject_some hselect).1] at htagged
  cases htagged

end Strix

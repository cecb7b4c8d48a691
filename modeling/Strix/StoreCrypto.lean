import Strix.StoreData

/-!
# ETags, customer keys and object encryption

The functions of `strix_crypto` that the store uses, over the digests and the
cipher of the platform.

* `decryptAes256Gcm_encryptAes256Gcm`: what was encrypted under a key decrypts
  to the same bytes under that key, whatever nonce was drawn;
* `hexDecode_hexEncode`: a digest is read back from its digits;
* `encryptAes256Gcm_isOk`: encryption fails on too long a plaintext only.
-/

namespace Strix

/-- The double quote. -/
def quote : Char := Char.ofNat 34

/-- `trim_matches('"')`: without the quotes at both ends. -/
def trimQuotes (s : String) : String :=
  let front := s.toList.dropWhile (· == quote)
  String.ofList (front.reverse.dropWhile (· == quote)).reverse

/-- A lower-case hexadecimal digit. -/
def hexDigit (n : Nat) : Char := if n < 10 then Char.ofNat (48 + n) else Char.ofNat (87 + n)

/-- `hex::encode`. -/
def hexEncode (data : Bytes) : String :=
  String.ofList (data.flatMap fun b => [hexDigit (b.toNat / 16), hexDigit (b.toNat % 16)])

/-- The value of a hexadecimal digit of either case. -/
def hexValue (c : Char) : Option Nat :=
  let n := c.toNat
  if 48 ≤ n ∧ n ≤ 57 then some (n - 48)
  else if 97 ≤ n ∧ n ≤ 102 then some (n - 87)
  else if 65 ≤ n ∧ n ≤ 70 then some (n - 55)
  else none

/-- `hex::decode`: pairs of digits, nothing else. -/
def hexDecode : List Char → Option Bytes
  | [] => some []
  | [_] => none
  | hi :: lo :: rest => do
      let h ← hexValue hi
      let l ← hexValue lo
      let bytes ← hexDecode rest
      return UInt8.ofNat (16 * h + l) :: bytes

theorem hexValue_hexDigit : ∀ n < 16, hexValue (hexDigit n) = some n := by decide

/-- **What is encoded is decoded.** -/
theorem hexDecode_hexEncode (data : Bytes) : hexDecode (hexEncode data).toList = some data := by
  rw [hexEncode, String.toList_ofList]
  induction data with
  | nil => rfl
  | cons b data ih =>
      have hbound : b.toNat < 256 := b.toNat_lt
      have hhigh := hexValue_hexDigit (b.toNat / 16) (by omega)
      have hlow := hexValue_hexDigit (b.toNat % 16) (by omega)
      have hbyte : UInt8.ofNat (16 * (b.toNat / 16) + b.toNat % 16) = b := by
        rw [show 16 * (b.toNat / 16) + b.toNat % 16 = b.toNat by omega, UInt8.ofNat_toNat]
      simp only [List.flatMap_cons, List.cons_append, List.nil_append, hexDecode, hhigh, hlow, ih]
      show some (UInt8.ofNat (16 * (b.toNat / 16) + b.toNat % 16) :: data) = some (b :: data)
      rw [hbyte]

theorem hexEncode_inj {data data' : Bytes} : hexEncode data = hexEncode data' ↔ data = data' := by
  constructor
  · intro h
    have hdecode := hexDecode_hexEncode data
    rw [h, hexDecode_hexEncode] at hdecode
    exact (Option.some.inj hdecode).symm
  · intro h
    rw [h]

/-- What is encoded consists of digits. -/
theorem exists_hexDigit {c : Char} {data : Bytes} (h : c ∈ (hexEncode data).toList) :
    ∃ n < 16, c = hexDigit n := by
  rw [hexEncode, String.toList_ofList] at h
  obtain ⟨b, -, hdigit⟩ := List.mem_flatMap.mp h
  have hbound : b.toNat < 256 := b.toNat_lt
  rcases List.mem_cons.mp hdigit with hhigh | hlow
  · exact ⟨b.toNat / 16, by omega, hhigh⟩
  · exact ⟨b.toNat % 16, by omega, List.mem_singleton.mp hlow⟩

theorem not_mem_hexEncode {c : Char} (h : ∀ n < 16, hexDigit n ≠ c) (data : Bytes) :
    c ∉ (hexEncode data).toList := by
  intro hc
  obtain ⟨n, hn, rfl⟩ := exists_hexDigit hc
  exact h n hn rfl

/-- `format_etag`: the digest in quotes. -/
def formatEtag (md5Hash : String) : String :=
  String.ofList (quote :: md5Hash.toList ++ [quote])

/-- The bytes of a string. -/
def utf8 (s : String) : Bytes := s.toUTF8.data.toList

inductive EncryptionError
  | invalidKeySize
  | invalidNonceSize
  | encryptionFailed
  | decryptionFailed
  | invalidCiphertext
  deriving DecidableEq, Repr

def EncryptionError.message : EncryptionError → String
  | invalidKeySize => "Invalid key size (must be 32 bytes)"
  | invalidNonceSize => "Invalid nonce size (must be 12 bytes)"
  | encryptionFailed => "Encryption failed"
  | decryptionFailed => "Decryption failed"
  | invalidCiphertext => "Invalid ciphertext"

variable (P : Platform)

/-- The ETag of plain content. -/
def contentEtag (content : Bytes) : String := formatEtag (hexEncode (P.md5 content))

/-- `format_multipart_etag`: the digest of the parts' digests and their number.
A part ETag that is no hexadecimal string adds nothing. -/
def formatMultipartEtag (partEtags : List String) : String :=
  let combined := partEtags.flatMap fun etag => (hexDecode (trimQuotes etag).toList).getD []
  formatEtag (hexEncode (P.md5 combined) ++ "-" ++ toString partEtags.length)

/-- `encrypt_aes256_gcm`: the nonce, then ciphertext and tag. -/
def encryptAes256Gcm (key : EncryptionKey) (nonce : Nonce) (plaintext : Bytes) :
    Except EncryptionError Bytes :=
  match P.gcmEncrypt key nonce plaintext with
  | some ciphertext => .ok (nonce.val ++ ciphertext)
  | none => .error .encryptionFailed

/-- `decrypt_aes256_gcm`: reads the nonce off the front. -/
def decryptAes256Gcm (key : EncryptionKey) (ciphertext : Bytes) :
    Except EncryptionError Bytes :=
  if h : ciphertext.length < nonceSize + tagSize then .error .invalidCiphertext
  else
    let nonce : Nonce := ⟨ciphertext.take nonceSize, by rw [List.length_take]; omega⟩
    match P.gcmDecrypt key nonce (ciphertext.drop nonceSize) with
    | some plaintext => .ok plaintext
    | none => .error .decryptionFailed

theorem decryptAes256Gcm_encryptAes256Gcm {key : EncryptionKey} {nonce : Nonce}
    {plaintext sealed : Bytes} (h : encryptAes256Gcm P key nonce plaintext = .ok sealed) :
    decryptAes256Gcm P key sealed = .ok plaintext := by
  unfold encryptAes256Gcm at h
  cases hc : P.gcmEncrypt key nonce plaintext with
  | none => simp [hc] at h
  | some ciphertext =>
      simp only [hc, Except.ok.injEq] at h
      subst h
      have hlong : ¬ (nonce.val ++ ciphertext).length < nonceSize + tagSize := by
        rw [List.length_append, nonce.property, P.gcmEncrypt_length _ _ _ _ hc]
        omega
      have htake : (nonce.val ++ ciphertext).take nonceSize = nonce.val :=
        List.take_left' nonce.property
      have hdrop : (nonce.val ++ ciphertext).drop nonceSize = ciphertext :=
        List.drop_left' nonce.property
      simp only [decryptAes256Gcm, hlong, ↓reduceDIte, htake, hdrop, Subtype.coe_eta,
        P.gcmDecrypt_gcmEncrypt _ _ _ _ hc]

theorem encryptAes256Gcm_isOk (key : EncryptionKey) (nonce : Nonce) (plaintext : Bytes) :
    (∃ sealed, encryptAes256Gcm P key nonce plaintext = .ok sealed) ↔
      plaintext.length ≤ P.maxPlaintext := by
  rw [← P.gcmEncrypt_isSome key nonce plaintext, encryptAes256Gcm]
  cases P.gcmEncrypt key nonce plaintext <;> simp

/-- `validate_sse_c_key`. -/
def validateSseCKey (keyBase64 : String) (keyMd5Base64 : Option String) :
    Except EncryptionError EncryptionKey :=
  match P.base64Decode keyBase64 with
  | none => .error .invalidKeySize
  | some key =>
      if h : key.length = keySize then
        match keyMd5Base64 with
        | some md5 =>
            if md5 = P.base64Encode (P.md5 key) then .ok ⟨key, h⟩ else .error .invalidKeySize
        | none => .ok ⟨key, h⟩
      else .error .invalidKeySize

/-- `derive_object_key`: every version of every key has its own. -/
def deriveObjectKey (bucket key versionId : String) : EncryptionKey :=
  P.hmacSha256 P.masterKey.val
    (utf8 ("object:" ++ bucket ++ ":" ++ key ++ ":" ++ versionId))

/-- The store reports a failed encryption as an internal error. -/
def encryptWith (key : EncryptionKey) (nonce : Nonce) (data : Bytes) : Except Error Bytes :=
  (encryptAes256Gcm P key nonce data).mapError
    fun e => .internal ("Encryption failed: " ++ e.message)

/-- The store reports a failed decryption as an internal error. -/
def decryptWith (key : EncryptionKey) (ciphertext : Bytes) : Except Error Bytes :=
  (decryptAes256Gcm P key ciphertext).mapError
    fun e => .internal ("Decryption failed: " ++ e.message)

/-- `decrypt_sse_s3`. -/
def decryptSseS3 (bucket key versionId : String) (ciphertext : Bytes) : Except Error Bytes :=
  decryptWith P (deriveObjectKey P bucket key versionId) ciphertext

/-- `decrypt_sse_c`. -/
def decryptSseC (key : EncryptionKey) (ciphertext : Bytes) : Except Error Bytes :=
  decryptWith P key ciphertext

variable {P}

theorem decryptWith_encryptWith {key : EncryptionKey} {nonce : Nonce} {data sealed : Bytes}
    (h : encryptWith P key nonce data = .ok sealed) : decryptWith P key sealed = .ok data := by
  unfold encryptWith at h
  cases hc : encryptAes256Gcm P key nonce data with
  | error e => simp [hc, Except.mapError] at h
  | ok c =>
      simp only [hc, Except.mapError, Except.ok.injEq] at h
      subst h
      simp [decryptWith, decryptAes256Gcm_encryptAes256Gcm P hc, Except.mapError]

theorem encryptWith_isOk (key : EncryptionKey) (nonce : Nonce) (data : Bytes) :
    (∃ sealed, encryptWith P key nonce data = .ok sealed) ↔ data.length ≤ P.maxPlaintext := by
  rw [← encryptAes256Gcm_isOk P key nonce data, encryptWith]
  cases encryptAes256Gcm P key nonce data <;> simp [Except.mapError]

end Strix

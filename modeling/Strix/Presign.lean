import Strix.RustText
import Strix.SignatureV4
import Strix.StoreCrypto
import Strix.Urls

/-!
# Pre-signed URLs

`PresignUrlGenerator` writes a URL and a signature of it, so that whoever has the URL can
send one request without any key.  The content type of `PresignOptions` is not read.

* `host_new`: the host that is signed is that of the endpoint;
* `generate_eq`: the URL, as its parts are read again;
* `signature_eq_sign`: the signature is one of version 4.
-/

namespace Strix

open PercentCoding Urls

/-- HTTP methods supported for pre-signed URLs. -/
inductive PresignMethod
  | get
  | put
  | delete
  deriving DecidableEq, Repr

def PresignMethod.asStr : PresignMethod → String
  | get => "GET"
  | put => "PUT"
  | delete => "DELETE"

/-- Options for generating a pre-signed URL. -/
structure PresignOptions where
  method : PresignMethod
  bucket : String
  key : String
  expiresIn : UInt32
  region : Option String
  deriving DecidableEq, Repr

/-- The hash functions of the crates `sha2` and `hmac`. -/
structure Hashes where
  sha256 : Bytes → Bytes
  hmacSha256 : Bytes → Bytes → Bytes

/-- What `chrono` writes for `%Y%m%dT%H%M%SZ` and for `%Y%m%d`. -/
structure DateFormats where
  amzDate : DateTime → String
  dateStamp : DateTime → String
  dateStamp_digits : ∀ now, '/' ∉ (dateStamp now).toList

/-- Pre-signed URL generator. -/
structure PresignUrlGenerator where
  accessKey : String
  secretKey : String
  endpoint : String
  region : String
  deriving DecidableEq, Repr

namespace PresignUrlGenerator

/-- Create a new generator. -/
def new (accessKey secretKey endpoint : String) (region : Option String) :
    PresignUrlGenerator where
  accessKey := accessKey
  secretKey := secretKey
  endpoint := trimEndSlashes endpoint
  region := region.getD "us-east-1"

/-! ## The source -/

section Generate

variable (hashes : Hashes) (dates : DateFormats) (generator : PresignUrlGenerator)
  (opts : PresignOptions) (now : DateTime)

def signedRegion : String := opts.region.getD generator.region

def credentialScope : String :=
  dates.dateStamp now ++ "/" ++ generator.signedRegion opts ++ "/s3/aws4_request"

def credential : String :=
  generator.accessKey ++ "/" ++ generator.credentialScope dates opts now

/-- URI path (URL encode the key). -/
def uriPath : String := "/" ++ opts.bucket ++ "/" ++ encode opts.key

/-- Query string parameters, in the order of the map. -/
def params : List (String × String) :=
  [("X-Amz-Algorithm", "AWS4-HMAC-SHA256"),
   ("X-Amz-Credential", generator.credential dates opts now),
   ("X-Amz-Date", dates.amzDate now),
   ("X-Amz-Expires", toString opts.expiresIn.toNat),
   ("X-Amz-SignedHeaders", "host")]

/-- Canonical query string (without signature). -/
def canonicalQs : String := formatQuery (generator.params dates opts now)

/-- Host header. -/
def host : String := removeAll "https://" (removeAll "http://" generator.endpoint)

def canonicalHeaders : String := "host:" ++ generator.host ++ "\n"

def canonicalRequest : String :=
  opts.method.asStr ++ "\n" ++ uriPath opts ++ "\n" ++ generator.canonicalQs dates opts now ++
    "\n" ++ generator.canonicalHeaders ++ "\n" ++ "host" ++ "\n" ++ "UNSIGNED-PAYLOAD"

def stringToSign : String :=
  "AWS4-HMAC-SHA256\n" ++ dates.amzDate now ++ "\n" ++ generator.credentialScope dates opts now ++
    "\n" ++ hexEncode (hashes.sha256 (utf8 (generator.canonicalRequest dates opts now)))

def getSigningKey (dateStamp region : String) : Bytes :=
  let kDate := hashes.hmacSha256 (utf8 ("AWS4" ++ generator.secretKey)) (utf8 dateStamp)
  let kRegion := hashes.hmacSha256 kDate (utf8 region)
  let kService := hashes.hmacSha256 kRegion (utf8 "s3")
  hashes.hmacSha256 kService (utf8 "aws4_request")

/-- The signature, in hexadecimal. -/
def signature : String :=
  let signingKey :=
    generator.getSigningKey hashes (dates.dateStamp now) (generator.signedRegion opts)
  hexEncode (hashes.hmacSha256 signingKey (utf8 (generator.stringToSign hashes dates opts now)))

/-- **Generate a pre-signed URL.** -/
def generate : String :=
  generator.endpoint ++ uriPath opts ++ "?" ++ generator.canonicalQs dates opts now ++
    "&X-Amz-Signature=" ++ generator.signature hashes dates opts now

end Generate

end PresignUrlGenerator

/-! ## Endpoints -/

/-- **An endpoint**, up to slashes at its end, is a scheme and a host with its port. -/
structure Endpoint where
  text : String
  scheme : Scheme
  address : String
  authority : IsAuthority address
  trimmed : trimEndSlashes text = scheme.text ++ address

/-- Nothing is removed from a text without slashes. -/
theorem removeFrom_of_not_mem {pattern : List Char} (hslash : '/' ∈ pattern) {text : List Char}
    (h : '/' ∉ text) : removeFrom pattern 0 text = text := by
  induction text with
  | nil => rfl
  | cons c rest ih =>
      have hno : ¬pattern.isPrefixOf (c :: rest) = true := by
        intro hfront
        exact h ((List.isPrefixOf_iff_prefix.mp hfront).subset hslash)
      rw [removeFrom, if_neg hno, ih fun hmem => h (List.mem_cons_of_mem c hmem)]

theorem removeAll_of_not_mem {pattern text : String} (hslash : '/' ∈ pattern.toList)
    (h : '/' ∉ text.toList) : removeAll pattern text = text := by
  rw [removeAll, removeFrom_of_not_mem hslash h, String.ofList_toList]

theorem removeFrom_skip (pattern front rest : List Char) :
    removeFrom pattern front.length (front ++ rest) = removeFrom pattern 0 rest := by
  induction front with
  | nil => rfl
  | cons c front ih => rw [List.length_cons, List.cons_append, removeFrom, ih]

/-- The pattern is removed in front of such a text. -/
theorem removeAll_append {pattern text : String} (hslash : '/' ∈ pattern.toList)
    (h : '/' ∉ text.toList) : removeAll pattern (pattern ++ text) = text := by
  rw [removeAll, String.toList_append]
  cases hpattern : pattern.toList with
  | nil =>
      rw [hpattern] at hslash
      exact absurd hslash List.not_mem_nil
  | cons c rest =>
      have hfront : (c :: rest).isPrefixOf (c :: (rest ++ text.toList)) = true :=
        List.isPrefixOf_iff_prefix.mpr (List.prefix_append (c :: rest) text.toList)
      rw [hpattern] at hslash
      rw [List.cons_append, removeFrom, if_pos hfront, List.length_cons, Nat.add_sub_cancel,
        removeFrom_skip, removeFrom_of_not_mem hslash h, String.ofList_toList]

/-- **What remains of an address** behind a scheme. -/
theorem removeSchemes (scheme : Scheme) {address : String} (h : '/' ∉ address.toList) :
    removeAll "https://" (removeAll "http://" (scheme.text ++ address)) = address := by
  have hhttp : "http://".toList = ['h', 't', 't', 'p', ':', '/', '/'] := by decide
  have hhttps : "https://".toList = ['h', 't', 't', 'p', 's', ':', '/', '/'] := by decide
  have hmem : '/' ∈ "http://".toList := by decide
  have hmem' : '/' ∈ "https://".toList := by decide
  cases scheme with
  | http =>
      have hfirst : removeAll "http://" (Scheme.http.text ++ address) = address :=
        removeAll_append hmem h
      rw [hfirst, removeAll_of_not_mem hmem' h]
  | https =>
      -- the shorter pattern occurs nowhere in the longer
      have hfirst : removeAll "http://" (Scheme.https.text ++ address) =
          Scheme.https.text ++ address := by
        have hkept := removeFrom_of_not_mem hmem h
        rw [hhttp] at hkept
        rw [removeAll, String.toList_append, Scheme.text, hhttp, hhttps, ← String.toList_inj,
          String.toList_ofList, String.toList_append, hhttps]
        simp [removeFrom, hkept]
      rw [hfirst]
      exact removeAll_append hmem' h

/-- Slashes are trimmed only from the end. -/
theorem trimEndSlashes_append {front text : String} (hne : text ≠ "") (h : '/' ∉ text.toList) :
    trimEndSlashes (front ++ text) = front ++ text := by
  have hkept : (front ++ text).toList.reverse.dropWhile (· = '/') =
      (front ++ text).toList.reverse := by
    rw [String.toList_append, List.reverse_append]
    cases hlast : text.toList.reverse with
    | nil =>
        rw [List.reverse_eq_nil_iff, String.toList_eq_nil_iff] at hlast
        exact absurd hlast hne
    | cons c rest =>
        have hc : c ∈ text.toList := by
          rw [← List.mem_reverse, hlast]
          exact List.mem_cons_self
        have hslash : ¬c = '/' := by
          rintro rfl
          exact h hc
        rw [List.cons_append, List.dropWhile_cons_of_neg (by simpa using hslash)]
  rw [trimEndSlashes, hkept, List.reverse_reverse, String.ofList_toList]

/-- The endpoint of a server that listens at an address. -/
def Endpoint.ofAddress (address : String) (h : IsAuthority address) : Endpoint where
  text := "http://" ++ address
  scheme := .http
  address := address
  authority := h
  trimmed := trimEndSlashes_append h.1 h.2.1

/-- The hash functions, and hexadecimal digits. -/
def Hashes.primitives (hashes : Hashes) : SignatureV4.Primitives where
  sha256 := hashes.sha256
  hmac := hashes.hmacSha256
  hex := hexEncode
  hex_inj := hexEncode_inj.mp
  hex_line := not_mem_hexEncode (by decide)

@[simp] theorem Hashes.primitives_sha256 (hashes : Hashes) :
    hashes.primitives.sha256 = hashes.sha256 := rfl

@[simp] theorem Hashes.primitives_hmac (hashes : Hashes) :
    hashes.primitives.hmac = hashes.hmacSha256 := rfl

@[simp] theorem Hashes.primitives_hex (hashes : Hashes) : hashes.primitives.hex = hexEncode := rfl

theorem utf8_eq_bytes (text : String) : utf8 text = bytes text := rfl

/-! ## What is generated -/

namespace PresignUrlGenerator

variable (hashes : Hashes) (dates : DateFormats) (accessKey secretKey : String)
  (endpoint : Endpoint) (region : Option String) (opts : PresignOptions) (now : DateTime)

/-- The host that is signed is that of the endpoint. -/
theorem host_new : (new accessKey secretKey endpoint.text region).host = endpoint.address := by
  rw [host, new, endpoint.trimmed]
  exact removeSchemes endpoint.scheme endpoint.authority.2.1

theorem new_endpoint : (new accessKey secretKey endpoint.text region).endpoint =
    endpoint.scheme.text ++ endpoint.address := endpoint.trimmed

theorem uriPath_eq : uriPath opts = "/" ++ (opts.bucket ++ "/" ++ encode opts.key) := by
  rw [uriPath]
  simp only [String.append_assoc]

/-- What stands in the query of the URL. -/
def signedParams (generator : PresignUrlGenerator) : List (String × String) :=
  generator.params dates opts now ++
    [("X-Amz-Signature", generator.signature hashes dates opts now)]

/-- A digest needs no escapes. -/
theorem encode_hexEncode (data : Bytes) : encode (hexEncode data) = hexEncode data := by
  have hdigits : ∀ n < 16, ∀ b ∈ String.utf8EncodeChar (hexDigit n), isUnreserved b = true := by
    decide +kernel
  apply encode_eq_self
  intro b hb
  rw [bytes_eq_flatMap] at hb
  obtain ⟨c, hc, hb⟩ := List.mem_flatMap.mp hb
  obtain ⟨n, hn, rfl⟩ := exists_hexDigit hc
  exact hdigits n hn b hb

/-- **The URL**, as its parts are read again. -/
theorem generate_eq (generator : PresignUrlGenerator) :
    generator.generate hashes dates opts now =
      generator.endpoint ++
        ("/" ++ (opts.bucket ++ "/" ++ encode opts.key) ++ "?" ++
          formatQuery (generator.signedParams hashes dates opts now)) := by
  have hname : encode "X-Amz-Signature" = "X-Amz-Signature" := by
    apply encode_eq_self
    decide +kernel
  have hquery : formatQuery (generator.signedParams hashes dates opts now) =
      generator.canonicalQs dates opts now ++ "&X-Amz-Signature=" ++
        generator.signature hashes dates opts now := by
    rw [signedParams, formatQuery_concat (by simp [params]), canonicalQs, formatPair, encodePair]
    dsimp only
    have hjoined : "&X-Amz-Signature=" = "&" ++ ("X-Amz-Signature" ++ "=") := by decide +kernel
    rw [hname, signature, encode_hexEncode, hjoined]
    simp only [String.append_assoc]
  rw [generate, hquery, uriPath_eq]
  simp only [String.append_assoc]

/-! ## What is signed -/

/-- What a URL is signed for. -/
def scope (generator : PresignUrlGenerator) : SignatureV4.Scope where
  date := dates.dateStamp now
  region := generator.signedRegion opts
  service := "s3"

/-- The request that is signed. -/
def request (generator : PresignUrlGenerator) : SignatureV4.Request where
  method := opts.method.asStr
  uri := uriPath opts
  query := generator.canonicalQs dates opts now
  host := generator.host

theorem credentialScope_eq (generator : PresignUrlGenerator) :
    generator.credentialScope dates opts now = (scope dates opts now generator).text := by
  have htail : "/s3/aws4_request" = "/" ++ ("s3" ++ "/aws4_request") := by decide +kernel
  rw [credentialScope, SignatureV4.Scope.text, scope, htail]
  simp only [String.append_assoc]

theorem canonicalRequest_eq (generator : PresignUrlGenerator) :
    generator.canonicalRequest dates opts now = (request dates opts now generator).canonical := by
  rw [canonicalRequest, canonicalHeaders, SignatureV4.Request.canonical,
    SignatureV4.Request.below, request]
  simp only [String.append_assoc]

/-- **The signature** is one of version 4. -/
theorem signature_eq_sign (generator : PresignUrlGenerator) :
    generator.signature hashes dates opts now =
      SignatureV4.sign hashes.primitives generator.secretKey (dates.amzDate now)
        (scope dates opts now generator) (request dates opts now generator) := by
  have hsigned : generator.stringToSign hashes dates opts now =
      SignatureV4.stringToSign hashes.primitives (dates.amzDate now)
        (scope dates opts now generator) (request dates opts now generator) := by
    unfold stringToSign SignatureV4.stringToSign
    simp only [credentialScope_eq, canonicalRequest_eq, Hashes.primitives_sha256,
      Hashes.primitives_hex, utf8_eq_bytes]
  have hkey : generator.getSigningKey hashes (dates.dateStamp now) (generator.signedRegion opts) =
      SignatureV4.signingKey hashes.primitives generator.secretKey
        (scope dates opts now generator) := by
    unfold getSigningKey SignatureV4.signingKey scope
    simp only [Hashes.primitives_hmac, utf8_eq_bytes]
  unfold signature SignatureV4.sign
  simp only [hsigned, hkey, Hashes.primitives_hmac, Hashes.primitives_hex, utf8_eq_bytes]

end PresignUrlGenerator

end Strix

import Strix.PercentCoding
import Strix.SplitWords

/-!
# Signatures of requests

Version 4 of the signature scheme: a request is written in a canonical form, the form is
hashed into a string to sign, and the string is signed with a key that is derived from the
secret key and the scope.  Only the host is signed of the headers, and nothing of the payload.

* `uri_eq_of_sign_eq`: as far as hashes do not collide, equal signatures of two requests
  are signatures of one canonical path.
-/

namespace SignatureV4

open PercentCoding SplitWords

/-! ## The scheme -/

/-- The hash functions, and how their results are written: on one line, and each in a way
of its own. -/
structure Primitives where
  sha256 : List UInt8 → List UInt8
  hmac : List UInt8 → List UInt8 → List UInt8
  hex : List UInt8 → String
  hex_inj : ∀ {data data'}, hex data = hex data' → data = data'
  hex_line : ∀ data, '\n' ∉ (hex data).toList

/-- **No two inputs have one hash**, not even under different keys. -/
structure Primitives.Collisionless (P : Primitives) : Prop where
  sha256 : ∀ {data data'}, P.sha256 data = P.sha256 data' → data = data'
  hmac : ∀ {key key' data data'}, P.hmac key data = P.hmac key' data' → data = data'

/-- What a key is derived for. -/
structure Scope where
  date : String
  region : String
  service : String
  deriving DecidableEq, Repr

def Scope.text (scope : Scope) : String :=
  scope.date ++ "/" ++ scope.region ++ "/" ++ scope.service ++ "/aws4_request"

/-- What is signed of a request: the path and the query as they are canonically written. -/
structure Request where
  method : String
  uri : String
  query : String
  host : String
  deriving DecidableEq, Repr

/-- The lines below the query. -/
def Request.below (request : Request) : String :=
  "host:" ++ request.host ++ "\n" ++ "\n" ++ "host" ++ "\n" ++ "UNSIGNED-PAYLOAD"

/-- The canonical form of a request. -/
def Request.canonical (request : Request) : String :=
  request.method ++ "\n" ++ request.uri ++ "\n" ++ request.query ++ "\n" ++ request.below

variable (P : Primitives) (secretKey : String) (amzDate : String) (scope : Scope)

def stringToSign (request : Request) : String :=
  "AWS4-HMAC-SHA256\n" ++ amzDate ++ "\n" ++ scope.text ++ "\n" ++
    P.hex (P.sha256 (bytes request.canonical))

def signingKey : List UInt8 :=
  let dateKey := P.hmac (bytes ("AWS4" ++ secretKey)) (bytes scope.date)
  let regionKey := P.hmac dateKey (bytes scope.region)
  let serviceKey := P.hmac regionKey (bytes scope.service)
  P.hmac serviceKey (bytes "aws4_request")

/-- The signature of a request. -/
def sign (request : Request) : String :=
  P.hex (P.hmac (signingKey P secretKey scope) (bytes (stringToSign P amzDate scope request)))

/-! ## What a signature says -/

/-- Two texts agree in what stands above their last line, and in that line. -/
theorem append_line_inj {front front' back back' : String} (hback : '\n' ∉ back.toList)
    (hback' : '\n' ∉ back'.toList) (h : front ++ "\n" ++ back = front' ++ "\n" ++ back') :
    front = front' ∧ back = back' := by
  have hline : "\n".toList = ['\n'] := by decide
  have hlists : front.toList ++ '\n' :: back.toList = front'.toList ++ '\n' :: back'.toList := by
    have htexts := congrArg String.toList h
    simpa only [String.toList_append, hline, List.append_assoc, List.singleton_append] using htexts
  obtain ⟨hfront, hrest⟩ := append_last_inj hback hback' hlists
  exact ⟨String.toList_inj.mp hfront, String.toList_inj.mp hrest⟩

/-- Canonical forms are alike only if the paths are. -/
theorem uri_eq_of_canonical_eq {request request' : Request}
    (hmethod : request.method = request'.method) (hhost : request.host = request'.host)
    (hquery : '\n' ∉ request.query.toList) (hquery' : '\n' ∉ request'.query.toList)
    (h : request.canonical = request'.canonical) : request.uri = request'.uri := by
  have hbelow : request.below = request'.below := by
    rw [Request.below, Request.below, hhost]
  rw [Request.canonical, Request.canonical, hbelow, hmethod] at h
  have habove := String.append_left_inj _ |>.mp (String.append_left_inj _ |>.mp h)
  obtain ⟨hfront, -⟩ := append_line_inj hquery hquery' habove
  exact String.append_right_inj _ |>.mp hfront

variable {P secretKey amzDate scope}

/-- **Equal signatures** are signatures of one path, as far as hashes do not collide. -/
theorem uri_eq_of_sign_eq (hP : P.Collisionless) {amzDate' : String} {scope' : Scope}
    {request request' : Request} (hmethod : request.method = request'.method)
    (hhost : request.host = request'.host) (hquery : '\n' ∉ request.query.toList)
    (hquery' : '\n' ∉ request'.query.toList)
    (h : sign P secretKey amzDate scope request = sign P secretKey amzDate' scope' request') :
    request.uri = request'.uri := by
  have hsigned : stringToSign P amzDate scope request = stringToSign P amzDate' scope' request' :=
    bytes_inj.mp (hP.hmac (P.hex_inj h))
  obtain ⟨-, hhash⟩ := append_line_inj (P.hex_line _) (P.hex_line _) hsigned
  have hcanonical : request.canonical = request'.canonical :=
    bytes_inj.mp (hP.sha256 (P.hex_inj hhash))
  exact uri_eq_of_canonical_eq hmethod hhost hquery hquery' hcanonical

end SignatureV4

import Mathlib.Data.List.TakeWhile
import Strix.PercentEncoding

/-!
# URLs

An HTTP URL is a host, a path and a query, and a query is a list of names and values that
are percent-encoded.  The fragment is not part of what is requested.

* `parse_append`: what is read from a URL;
* `parseQuery_format`: the names and values of a query are read back.
-/

namespace Urls

open PercentCoding

/-! ## Queries -/

/-- A name and its value, as they stand in a query. -/
def formatPair (pair : String × String) : String := pair.1 ++ "=" ++ pair.2

/-- A query from its names and values. -/
def joinPairs (pairs : List (String × String)) : String :=
  "&".intercalate (pairs.map formatPair)

/-- Both percent-encoded. -/
def encodePair (pair : String × String) : String × String := (encode pair.1, encode pair.2)

/-- The query that says these names and values. -/
def formatQuery (pairs : List (String × String)) : String := joinPairs (pairs.map encodePair)

/-- The name up to the first equals sign, and the value after it. -/
def parsePair (text : List Char) : Option (String × String) := do
  let name ← decode (String.ofList (text.takeWhile (· ≠ '=')))
  let value ← decode (String.ofList ((text.dropWhile (· ≠ '=')).drop 1))
  return (name, value)

/-- The names and values that a query says. -/
def parseQuery (query : String) : Option (List (String × String)) :=
  (query.toList.splitOn '&').mapM parsePair

/-- What has none of some characters is read up to the first one. -/
theorem takeWhile_append_of_not {p : Char → Bool} {front : List Char} {c : Char}
    (hfront : ∀ c ∈ front, p c = true) (hc : p c = false) (rest : List Char) :
    (front ++ c :: rest).takeWhile p = front ∧ (front ++ c :: rest).dropWhile p = c :: rest := by
  rw [List.takeWhile_append_of_pos hfront, List.dropWhile_append_of_pos hfront]
  simp [hc]

theorem ne_of_not_mem {c : Char} {cs : List Char} (h : c ∉ cs) :
    ∀ c' ∈ cs, decide (c' ≠ c) = true := by
  intro c' hc'
  rw [decide_eq_true_eq]
  intro heq
  exact h (heq ▸ hc')

theorem toList_formatPair (pair : String × String) :
    (formatPair pair).toList = pair.1.toList ++ '=' :: pair.2.toList := by
  simp [formatPair, String.toList_append]

/-- An encoded name and its value are read back. -/
theorem parsePair_format (pair : String × String) :
    parsePair (formatPair (encodePair pair)).toList = some pair := by
  have hfront : ∀ c ∈ (encode pair.1).toList, decide (c ≠ '=') = true :=
    ne_of_not_mem (not_mem_encode (by decide) (by decide) pair.1)
  obtain ⟨htake, hdrop⟩ := takeWhile_append_of_not (c := '=') hfront (by decide)
    (encode pair.2).toList
  rw [toList_formatPair]
  simp only [parsePair, encodePair, htake, hdrop, List.drop_one, List.tail_cons,
    String.ofList_toList, decode_encode]
  rfl

/-- What is encoded does not hold a character that is neither kept nor part of an escape. -/
theorem not_mem_formatPair {c : Char} (hsign : UInt8.ofNat c.toNat ≠ 37)
    (h : isUnreserved (UInt8.ofNat c.toNat) = false) (hequals : c ≠ '=')
    (pair : String × String) : c ∉ (formatPair (encodePair pair)).toList := by
  rw [toList_formatPair, List.mem_append, List.mem_cons]
  rintro (hname | rfl | hvalue)
  · exact not_mem_encode hsign h pair.1 hname
  · exact hequals rfl
  · exact not_mem_encode hsign h pair.2 hvalue

/-- **The names and values of a query** are read back. -/
theorem parseQuery_format {pairs : List (String × String)} (hpairs : pairs ≠ []) :
    parseQuery (formatQuery pairs) = some pairs := by
  have hsplit : (formatQuery pairs).toList.splitOn '&' =
      pairs.map fun pair => (formatPair (encodePair pair)).toList := by
    rw [formatQuery, joinPairs, String.toList_intercalate]
    have hamp : "&".toList = ['&'] := by decide
    rw [hamp, List.splitOn_intercalate]
    · simp
    · intro text htext
      simp only [List.map_map, List.mem_map, Function.comp_apply] at htext
      obtain ⟨pair, -, rfl⟩ := htext
      exact not_mem_formatPair (by decide) (by decide) (by decide) pair
    · simpa using hpairs
  rw [parseQuery, hsplit]
  clear hsplit hpairs
  induction pairs with
  | nil => rfl
  | cons pair pairs ih =>
      rw [List.map_cons, List.mapM_cons, parsePair_format, ih]
      rfl

/-- A query holds only what encoded texts hold, and the characters between them. -/
theorem not_mem_formatQuery {c : Char} (hsign : UInt8.ofNat c.toNat ≠ 37)
    (h : isUnreserved (UInt8.ofNat c.toNat) = false) (hequals : c ≠ '=') (hand : c ≠ '&')
    (pairs : List (String × String)) : c ∉ (formatQuery pairs).toList := by
  rw [formatQuery, joinPairs]
  induction pairs with
  | nil => simp
  | cons pair pairs ih =>
      have hpair := not_mem_formatPair hsign h hequals pair
      cases pairs with
      | nil => simpa using hpair
      | cons pair' pairs =>
          rw [List.map_cons, List.map_cons, List.map_cons, List.map_cons,
            String.intercalate_cons_cons, String.toList_append, String.toList_append,
            List.mem_append, List.mem_append]
          rintro ((hc | hc) | hc)
          · exact hpair hc
          · have hamp : "&".toList = ['&'] := by decide
            rw [hamp, List.mem_singleton] at hc
            exact hand hc
          · exact ih hc

/-- One more name and value. -/
theorem formatQuery_concat {pairs : List (String × String)} (hpairs : pairs ≠ [])
    (pair : String × String) :
    formatQuery (pairs ++ [pair]) = formatQuery pairs ++ "&" ++ formatPair (encodePair pair) := by
  rw [formatQuery, formatQuery, joinPairs, joinPairs]
  induction pairs with
  | nil => exact absurd rfl hpairs
  | cons first pairs ih =>
      cases pairs with
      | nil => simp [String.intercalate_cons_cons]
      | cons second pairs =>
          have htail := ih (by simp)
          simp only [List.cons_append, List.map_cons, String.intercalate_cons_cons] at htail ⊢
          rw [htail]
          simp only [String.append_assoc]

/-! ## URLs -/

/-- What a request for a URL says. -/
structure Url where
  host : String
  path : String
  query : String
  deriving DecidableEq, Repr

/-- The schemes over which a server is reached. -/
inductive Scheme
  | http
  | https
  deriving DecidableEq, Repr

def Scheme.text : Scheme → String
  | http => "http://"
  | https => "https://"

/-- What stands after the scheme. -/
def afterScheme (text : List Char) : Option (List Char) :=
  if Scheme.http.text.toList.isPrefixOf text then some (text.drop 7)
  else if Scheme.https.text.toList.isPrefixOf text then some (text.drop 8)
  else none

/-- The host ends at the path or at the query, and the path ends at the query. -/
def parseTarget (target : List Char) : Url :=
  let rest := target.dropWhile (fun c => c ≠ '/' ∧ c ≠ '?')
  { host := String.ofList (target.takeWhile (fun c => c ≠ '/' ∧ c ≠ '?'))
    path := String.ofList (rest.takeWhile (· ≠ '?'))
    query := String.ofList ((rest.dropWhile (· ≠ '?')).drop 1) }

/-- The URL that a text says, up to its fragment. -/
def parse (text : String) : Option Url :=
  (afterScheme text.toList).map fun target => parseTarget (target.takeWhile (· ≠ '#'))

/-- A host and port, without anything that would end them. -/
def IsAuthority (text : String) : Prop :=
  text ≠ "" ∧ '/' ∉ text.toList ∧ '?' ∉ text.toList ∧ '#' ∉ text.toList

instance (text : String) : Decidable (IsAuthority text) :=
  inferInstanceAs (Decidable (_ ∧ _ ∧ _ ∧ _))

theorem afterScheme_append (scheme : Scheme) (rest : List Char) :
    afterScheme (scheme.text.toList ++ rest) = some rest := by
  cases scheme with
  | http =>
      have hhttp : Scheme.http.text.toList = ['h', 't', 't', 'p', ':', '/', '/'] := by decide
      rw [afterScheme, hhttp]
      simp
  | https =>
      have hhttp : Scheme.http.text.toList = ['h', 't', 't', 'p', ':', '/', '/'] := by decide
      have hhttps : Scheme.https.text.toList = ['h', 't', 't', 'p', 's', ':', '/', '/'] := by decide
      rw [afterScheme, hhttp, hhttps]
      simp

theorem slash_append (text : String) : "/" ++ text = String.ofList ('/' :: text.toList) := by
  rw [← String.toList_inj, String.toList_ofList]
  simp [String.toList_append]

variable {host : String} (hhost : IsAuthority host)
include hhost

/-- What is read from what stands after the scheme. -/
theorem parse_append (scheme : Scheme) (rest : List Char) :
    parse (scheme.text ++ host ++ String.ofList ('/' :: rest)) =
      some (parseTarget (host.toList ++ '/' :: rest.takeWhile (· ≠ '#'))) := by
  rw [parse, String.toList_append, String.toList_append, String.toList_ofList, List.append_assoc,
    afterScheme_append, Option.map_some,
    List.takeWhile_append_of_pos (ne_of_not_mem hhost.2.2.2),
    List.takeWhile_cons_of_pos (by decide)]

/-- The host ends where the path begins. -/
theorem parseTarget_append (rest : List Char) :
    parseTarget (host.toList ++ '/' :: rest) =
      { host := host
        path := String.ofList (('/' :: rest).takeWhile (· ≠ '?'))
        query := String.ofList ((('/' :: rest).dropWhile (· ≠ '?')).drop 1) } := by
  have hfront : ∀ c ∈ host.toList, decide (c ≠ '/' ∧ c ≠ '?') = true := by
    intro c hc
    rw [decide_eq_true_eq]
    constructor
    · rintro rfl
      exact hhost.2.1 hc
    · rintro rfl
      exact hhost.2.2.1 hc
  obtain ⟨htake, hdrop⟩ := takeWhile_append_of_not (c := '/') hfront (by decide) rest
  simp only [parseTarget, htake, hdrop, String.ofList_toList]

/-- The host is read as it stands, whatever follows it. -/
theorem parse_host {scheme : Scheme} {rest : String} {url : Url}
    (h : parse (scheme.text ++ host ++ ("/" ++ rest)) = some url) : url.host = host := by
  rw [slash_append, parse_append hhost, parseTarget_append hhost] at h
  rw [← Option.some.inj h]

/-- **A path and a query** are read as they stand, unless the path would end early. -/
theorem parse_path (scheme : Scheme) {path query : String} (hmark : '?' ∉ path.toList)
    (hfragment : '#' ∉ path.toList) (hquery : '#' ∉ query.toList) :
    parse (scheme.text ++ host ++ ("/" ++ path ++ "?" ++ query)) =
      some { host := host, path := "/" ++ path, query := query } := by
  have hrest : "/" ++ path ++ "?" ++ query =
      String.ofList ('/' :: (path.toList ++ '?' :: query.toList)) := by
    rw [← String.toList_inj, String.toList_ofList]
    simp [String.toList_append]
  have hkept : (path.toList ++ '?' :: query.toList).takeWhile (· ≠ '#') =
      path.toList ++ '?' :: query.toList := by
    rw [List.takeWhile_append_of_pos (ne_of_not_mem hfragment),
      List.takeWhile_cons_of_pos (by decide),
      List.takeWhile_eq_self_iff.mpr (ne_of_not_mem hquery)]
  have hfront : ∀ c ∈ '/' :: path.toList, decide (c ≠ '?') = true := by
    intro c hc
    rcases List.mem_cons.mp hc with rfl | hc
    · decide
    · exact ne_of_not_mem hmark c hc
  obtain ⟨htake, hdrop⟩ := takeWhile_append_of_not (c := '?') hfront (by decide)
    query.toList
  rw [hrest, parse_append hhost, hkept, parseTarget_append hhost, ← List.cons_append, htake,
    hdrop]
  rw [slash_append, List.drop_one, List.tail_cons, String.ofList_toList]

end Urls

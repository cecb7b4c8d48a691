import Mathlib.Algebra.Group.Int.Defs
import Strix.ListingExact

/-!
# Reading a listing page by page

A client of `ListObjectsV2` repeats its request with the token of each truncated
response.  Three things go wrong on the way: the token is ignored where
`start-after` is given, a page scans on into the common prefixes behind its last
object, and the next page starts behind the last object again.

* `listPages_of_follows`: the responses show the pages of the selected keys;
* `paginates_iff`: exactly when the client reads everything once.
-/

namespace Strix

open AtomicProgram AtomicProgram.Prog KeysetPaging

/-- The prefix of the request, empty by default. -/
def ListObjectsV2Input.head (input : ListObjectsV2Input) : String := input.keyPrefix.getD ""

/-- The size of a page. -/
def ListObjectsV2Input.pageSize (input : ListObjectsV2Input) : Nat :=
  (input.maxKeys.map asU32).getD 1000

/-- The response to a request repeated with a token, the bucket staying as it is. -/
def Caller.listPage (caller : Caller) (w : World) (input : ListObjectsV2Input)
    (token : Option String) : Option ListObjectsV2Output :=
  match ((listObjectsV2 caller { input with continuationToken := token }).run w).1 with
  | .ok output => output
  | .error _ => none

/-- The token of a truncated response. -/
def ListObjectsV2Output.token (output : ListObjectsV2Output) : Option String :=
  if output.isTruncated then output.nextContinuationToken else none

def ListObjectsV2Output.keys (output : ListObjectsV2Output) : List String :=
  output.contents.map (·.key)

def ListObjectsV2Output.prefixes (output : ListObjectsV2Output) : List String :=
  output.commonPrefixes.getD []

/-- **The pages are complete and free of duplicates.** -/
structure ReadsOnce (db : Db) (input : ListObjectsV2Input) (outputs : List ListObjectsV2Output) :
    Prop where
  keysOnce : (outputs.flatMap (·.keys)).Nodup
  keys : ∀ key ∈ db.currentKeys input.bucket, isAfter input.startAfter key = true →
    StaysObject input.head input.delimiter key → key ∈ outputs.flatMap (·.keys)
  prefixesOnce : (outputs.flatMap (·.prefixes)).Nodup
  prefixes : ∀ key ∈ db.currentKeys input.bucket, isAfter input.startAfter key = true →
    ∀ p, RollsUpTo input.head input.delimiter key p → p ∈ outputs.flatMap (·.prefixes)

/-- The client comes to an end and has read everything once. -/
def Paginates (caller : Caller) (w : World) (input : ListObjectsV2Input) : Prop :=
  ∃ outputs, Follows (caller.listPage w input) (·.token) none outputs ∧
    ReadsOnce w.db input outputs

/-- The keys that the request selects, in order, once for each current row. -/
def Db.requestedKeys (db : Db) (input : ListObjectsV2Input) : List String :=
  db.selectedKeys input.bucket input.head input.startAfter

/-- **The request pages well**: with `start-after` everything fits one page, no
selected key is sliced within a character, the pattern misses no matching key
and no matching common prefix, and the pages end well. -/
structure PagesWell (db : Db) (input : ListObjectsV2Input) : Prop where
  onePage : input.startAfter = none ∨
    ((db.requestedKeys input).filter (isListed input.head input.delimiter)).length ≤
      input.pageSize
  slices : ∀ key ∈ db.requestedKeys input, rollUp input.head input.delimiter key ≠ none
  keys : ∀ key ∈ db.currentKeys input.bucket, isAfter input.startAfter key = true →
    StaysObject input.head input.delimiter key → likeSelects input.head key = true
  prefixes : ∀ key ∈ db.currentKeys input.bucket, isAfter input.startAfter key = true →
    ∀ p, RollsUpTo input.head input.delimiter key p →
      ∃ other ∈ db.requestedKeys input, rollUp input.head input.delimiter other = some (some p)
  ends : EndsWell (isListed input.head input.delimiter) (rollUp input.head input.delimiter)
    input.pageSize (db.requestedKeys input)

/-! ## One response -/

section Response

variable {caller : Caller} {w : World} {input : ListObjectsV2Input} {token : Option String}
  {output : ListObjectsV2Output}

theorem listPage_eq (hcheck : caller.checkBucket w.now "ListObjectsV2" input.bucket = .ok ())
    (hbucket : bucketRowExists input.bucket w.db = true) (token : Option String) :
    caller.listPage w input token =
      (listing input.head input.delimiter input.pageSize
        (listingRows input.bucket input.head (input.startAfter <|> token) w.db)).map
        ({ input with continuationToken := token } : ListObjectsV2Input).output := by
  have hrun := @listObjects_run input.bucket w
    ({ input with continuationToken := token } : ListObjectsV2Input).opts hbucket
  simp only [Caller.listPage, listObjectsV2, run_observe_bind, run_lift_bind, hcheck]
  simp only [run_bind, run_ofStore, hrun]
  rfl

/-- The response renders a page of keys: its objects, and once each common prefix. -/
structure RendersPage (input : ListObjectsV2Input) (output : ListObjectsV2Output)
    (shown : Page String) : Prop where
  renders : Renders (·.keys) (fun output => output.prefixes.map fun p => some (some p))
    (rollUp input.head input.delimiter) output shown
  token : output.token = shown.next
  slices : ∀ key ∈ shown.passed, rollUp input.head input.delimiter key ≠ none

/-- A listing renders the page of the selected keys. -/
theorem listing_renders {db : Db} {response : ListObjectsResponse}
    (hlisting : listing input.head input.delimiter input.pageSize
      (listingRows input.bucket input.head (input.startAfter <|> token) db) = some response) :
    RendersPage input
      (({ input with continuationToken := token } : ListObjectsV2Input).output response)
      (page (isListed input.head input.delimiter) input.pageSize
        (db.selectedKeys input.bucket input.head (input.startAfter <|> token))) := by
  have hshows := listing_shows hlisting
  have hsliced : ∀ key ∈ (page (isListed input.head input.delimiter) input.pageSize
      (db.selectedKeys input.bucket input.head (input.startAfter <|> token))).passed,
      rollUp input.head input.delimiter key ≠ none := by
    intro key hpassed hroll
    have hpanics := listing_eq_none.mpr ⟨key, hpassed, hroll⟩
    rw [hlisting] at hpanics
    cases hpanics
  have hprefixes : ListObjectsV2Output.prefixes
      (({ input with continuationToken := token } : ListObjectsV2Input).output response) =
        response.commonPrefixes := by
    cases hempty : response.commonPrefixes <;>
      simp [ListObjectsV2Output.prefixes, ListObjectsV2Input.output, hempty]
  refine ⟨⟨?_, ?_, fun g => ?_⟩, hshows.token, hsliced⟩
  · refine Eq.trans ?_ hshows.keys
    simp [ListObjectsV2Output.keys, ListObjectsV2Input.output, ObjectInfo.listed]
  · simp only [hprefixes]
    refine List.Nodup.map (fun a b hab => by simpa using hab) ?_
    exact hshows.ascending.imp fun hlt => ne_of_lt hlt
  · simp only [hprefixes, List.mem_map]
    constructor
    · rintro ⟨p, hp, rfl⟩
      exact (hshows.commonPrefixes p).mp hp
    · rintro ⟨key, hpassed, hroll⟩
      cases g with
      | none => exact absurd hroll (hsliced key hpassed)
      | some rolled =>
          cases rolled with
          | none =>
              have hlisted := (mem_passed.mp hpassed).2
              simp [isListed, hroll] at hlisted
          | some p => exact ⟨p, (hshows.commonPrefixes p).mpr ⟨key, hpassed, hroll⟩, rfl⟩

theorem listPage_renders (hcheck : caller.checkBucket w.now "ListObjectsV2" input.bucket = .ok ())
    (hbucket : bucketRowExists input.bucket w.db = true)
    (h : caller.listPage w input token = some output) :
    RendersPage input output
      (page (isListed input.head input.delimiter) input.pageSize
        (w.db.selectedKeys input.bucket input.head (input.startAfter <|> token))) := by
  rw [listPage_eq hcheck hbucket, Option.map_eq_some_iff] at h
  obtain ⟨response, hlisting, rfl⟩ := h
  exact listing_renders hlisting

/-- A response comes whenever every selected key can be sliced. -/
theorem exists_listPage (hcheck : caller.checkBucket w.now "ListObjectsV2" input.bucket = .ok ())
    (hbucket : bucketRowExists input.bucket w.db = true)
    (hslices : ∀ key ∈ w.db.selectedKeys input.bucket input.head (input.startAfter <|> token),
      rollUp input.head input.delimiter key ≠ none) :
    ∃ output, caller.listPage w input token = some output := by
  rw [listPage_eq hcheck hbucket]
  cases hlisting : listing input.head input.delimiter input.pageSize
      (listingRows input.bucket input.head (input.startAfter <|> token) w.db) with
  | some response => exact ⟨_, rfl⟩
  | none =>
      obtain ⟨key, hpassed, hroll⟩ := listing_eq_none.mp hlisting
      exact absurd hroll (hslices key (mem_of_mem_scan (mem_passed.mp hpassed).1))

end Response

/-! ## The selected keys behind a token -/

theorem selectedKeys_some (db : Db) (bucket keyPrefix token : String) :
    db.selectedKeys bucket keyPrefix (some token) =
      behind token (db.selectedKeys bucket keyPrefix none) := by
  have hperm : (db.selectedKeys bucket keyPrefix (some token)).Perm
      (behind token (db.selectedKeys bucket keyPrefix none)) := by
    refine selectedKeys_perm.trans ?_
    rw [behind]
    refine List.Perm.trans ?_ (selectedKeys_perm.filter _).symm
    rw [List.filter_filter]
    refine List.Perm.of_eq (List.filter_congr fun key _ => ?_)
    simp [isAfter, Bool.and_comm]
  exact hperm.eq_of_pairwise' selectedKeys_sorted (behind_sorted selectedKeys_sorted)

theorem keysFrom_selectedKeys (db : Db) (bucket keyPrefix : String) (token : Option String) :
    keysFrom (db.selectedKeys bucket keyPrefix none) token =
      db.selectedKeys bucket keyPrefix token := by
  cases token with
  | none => rfl
  | some token => exact (selectedKeys_some db bucket keyPrefix token).symm

/-! ## The responses to a client -/

section Client

variable {caller : Caller} {w : World} {input : ListObjectsV2Input}
  {outputs : List ListObjectsV2Output}

/-- A client that comes to an end has read the pages of the selected keys. -/
theorem listPages_of_follows
    (hcheck : caller.checkBucket w.now "ListObjectsV2" input.bucket = .ok ())
    (hbucket : bucketRowExists input.bucket w.db = true) (hsize : 0 < input.pageSize)
    (h : Follows (caller.listPage w input) (·.token) none outputs) :
    (input.startAfter = none ∨
      ((w.db.requestedKeys input).filter (isListed input.head input.delimiter)).length ≤
        input.pageSize) ∧
      ∃ pages, Pages (isListed input.head input.delimiter) input.pageSize
          (w.db.requestedKeys input) pages ∧
        List.Forall₂ (RendersPage input) outputs pages := by
  cases hstart : input.startAfter with
  | none =>
      have hkeys : w.db.requestedKeys input = w.db.selectedKeys input.bucket input.head none := by
        rw [Db.requestedKeys, hstart]
      have hfetch : ∀ token output,
          (∀ t ∈ token, t ∈ w.db.selectedKeys input.bucket input.head none) →
          caller.listPage w input token = some output →
          RendersPage input output (page (isListed input.head input.delimiter) input.pageSize
              (keysFrom (w.db.selectedKeys input.bucket input.head none) token)) ∧
            output.token = (page (isListed input.head input.delimiter) input.pageSize
              (keysFrom (w.db.selectedKeys input.bucket input.head none) token)).next := by
        intro token output _ hreply
        have hpage := listPage_renders hcheck hbucket hreply
        rw [hstart] at hpage
        rw [keysFrom_selectedKeys]
        exact ⟨hpage, hpage.token⟩
      obtain ⟨pages, hpages, hall⟩ := h.exists_pages hfetch (fun t ht => nomatch ht)
      exact ⟨.inl rfl, pages, by rwa [hkeys], hall⟩
  | some start =>
      have hrenders : ∀ token output, caller.listPage w input token = some output →
          RendersPage input output (page (isListed input.head input.delimiter) input.pageSize
            (w.db.requestedKeys input)) := by
        intro token output hreply
        have hpage := listPage_renders hcheck hbucket hreply
        rw [hstart] at hpage
        rw [Db.requestedKeys, hstart]
        exact hpage
      by_cases hend : (page (isListed input.head input.delimiter) input.pageSize
          (w.db.requestedKeys input)).next = none
      · refine ⟨.inr (page_end hend hsize), _, .last hend, ?_⟩
        cases h with
        | last hreply _ => exact .cons (hrenders _ _ hreply) .nil
        | more hreply hnext _ =>
            rw [(hrenders _ _ hreply).token, hend] at hnext
            cases hnext
      · refine absurd h (not_follows_of_more fun token output hreply htoken => hend ?_)
        rw [← htoken, (hrenders _ _ hreply).token]

/-- A client comes to an end if every key can be sliced and its token counts. -/
theorem exists_listPages_follows
    (hcheck : caller.checkBucket w.now "ListObjectsV2" input.bucket = .ok ())
    (hbucket : bucketRowExists input.bucket w.db = true)
    (hwell : PagesWell w.db input) :
    ∃ outputs, Follows (caller.listPage w input) (·.token) none outputs := by
  have hslices := hwell.slices
  rw [Db.requestedKeys] at hslices
  by_cases hstart : input.startAfter = none
  · rw [hstart] at hslices
    obtain ⟨pages, hpages⟩ := Pages.exists_pages (isListed input.head input.delimiter)
      input.pageSize (w.db.selectedKeys input.bucket input.head none)
    have hreplies : ∀ token, (∀ t ∈ token, t ∈ w.db.selectedKeys input.bucket input.head none) →
        ∃ output, caller.listPage w input token = some output ∧
          output.token = (page (isListed input.head input.delimiter) input.pageSize
            (keysFrom (w.db.selectedKeys input.bucket input.head none) token)).next := by
      intro token _
      have hsliced : ∀ key ∈ w.db.selectedKeys input.bucket input.head
          (input.startAfter <|> token), rollUp input.head input.delimiter key ≠ none := by
        intro key hkey
        obtain ⟨hcurrent, hlike, -⟩ := mem_selectedKeys.mp hkey
        exact hslices key (mem_selectedKeys.mpr ⟨hcurrent, hlike, rfl⟩)
      obtain ⟨output, hreply⟩ := exists_listPage hcheck hbucket hsliced
      have hpage := (listPage_renders hcheck hbucket hreply).token
      rw [hstart] at hpage
      rw [keysFrom_selectedKeys]
      exact ⟨output, hreply, hpage⟩
    have hfrom : Pages (isListed input.head input.delimiter) input.pageSize
        (keysFrom (w.db.selectedKeys input.bucket input.head none) none) pages := hpages
    exact hfrom.exists_follows hreplies (fun t ht => nomatch ht)
  · obtain ⟨start, hsome⟩ := Option.ne_none_iff_exists'.mp hstart
    have hshort := hwell.onePage.resolve_left hstart
    rw [Db.requestedKeys] at hshort
    have hsliced : ∀ key ∈ w.db.selectedKeys input.bucket input.head
        (input.startAfter <|> none), rollUp input.head input.delimiter key ≠ none := by
      rw [hsome] at hslices ⊢
      exact hslices
    obtain ⟨output, hreply⟩ := exists_listPage hcheck hbucket hsliced
    refine ⟨[output], .last hreply ?_⟩
    have hpage := (listPage_renders hcheck hbucket hreply).token
    rw [hpage, page_next]
    rw [hsome] at hshort ⊢
    exact if_neg (not_lt.mpr hshort)

/-- What the responses of a client contain, by the keys that they come from. -/
theorem mem_outputs_keys {pages : List (Page String)}
    (hpages : Pages (isListed input.head input.delimiter) input.pageSize
      (w.db.requestedKeys input) pages)
    (hall : List.Forall₂ (RendersPage input) outputs pages) (hsize : 0 < input.pageSize)
    (key : String) :
    key ∈ outputs.flatMap (·.keys) ↔ key ∈ w.db.requestedKeys input ∧
      rollUp input.head input.delimiter key = some none := by
  rw [Renders.flatMap_objects (hall.imp fun _ _ h => h.renders), List.mem_flatMap]
  constructor
  · rintro ⟨p, hp, hkey⟩
    obtain ⟨hmem, hlisted⟩ := hpages.of_mem_shown hp hkey
    exact ⟨hmem, isListed_iff.mp hlisted⟩
  · rintro ⟨hmem, hroll⟩
    exact hpages.mem_shown hsize selectedKeys_sorted hmem (isListed_iff.mpr hroll)

theorem mem_outputs_prefixes {pages : List (Page String)}
    (hpages : Pages (isListed input.head input.delimiter) input.pageSize
      (w.db.requestedKeys input) pages)
    (hall : List.Forall₂ (RendersPage input) outputs pages) (hsize : 0 < input.pageSize)
    (p : String) :
    p ∈ outputs.flatMap (·.prefixes) ↔ ∃ key ∈ w.db.requestedKeys input,
      rollUp input.head input.delimiter key = some (some p) := by
  have hgroups := Renders.mem_flatMap_groups (hall.imp fun _ _ h => h.renders) (g := some (some p))
  rw [← List.map_flatMap, List.mem_map] at hgroups
  constructor
  · intro hp
    obtain ⟨q, hq, key, hkey, hroll⟩ := hgroups.mp ⟨p, hp, rfl⟩
    exact ⟨key, (hpages.of_mem_passed hq hkey).1, hroll⟩
  · rintro ⟨key, hmem, hroll⟩
    obtain ⟨q, hq, hkey⟩ := hpages.mem_passed hsize selectedKeys_sorted hmem
      (by simp [isListed, hroll])
    obtain ⟨p', hp', heq⟩ := hgroups.mpr ⟨q, hq, key, hkey, hroll⟩
    simp only [Option.some.injEq] at heq
    exact heq ▸ hp'

/-- The responses repeat nothing exactly when the pages end well. -/
theorem outputs_once_iff {pages : List (Page String)}
    (hpages : Pages (isListed input.head input.delimiter) input.pageSize
      (w.db.requestedKeys input) pages)
    (hall : List.Forall₂ (RendersPage input) outputs pages) (hsize : 0 < input.pageSize) :
    ((outputs.flatMap (·.keys)).Nodup ∧ (outputs.flatMap (·.prefixes)).Nodup) ↔
      EndsWell (isListed input.head input.delimiter) (rollUp input.head input.delimiter)
        input.pageSize (w.db.requestedKeys input) := by
  have honce := Renders.once_iff (hall.imp fun _ _ h => h.renders) hpages hsize selectedKeys_sorted
  have hinjective : Function.Injective fun p : String => some (some p) :=
    fun a b hab => by simpa using hab
  rw [← List.map_flatMap, List.nodup_map_iff hinjective] at honce
  exact honce

end Client

/-- Two objects, and one in a folder between them. -/
def folderRun : List Op := [
  .createBucket "docs" {},
  .putObject "docs" "a" [.ok [97]] {},
  .putObject "docs" "b/1" [.ok [97]] {},
  .putObject "docs" "c" [.ok [97]] {}]

def folderWorld : World := (store executablePlatform).after {} folderRun

/-- List folders, with so many objects to a page. -/
def listFolders (maxKeys : Option Int) : ListObjectsV2Input where
  bucket := "docs"
  delimiter := some "/"
  maxKeys := maxKeys

end Strix

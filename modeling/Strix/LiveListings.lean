import Strix.ListingPages
import Strix.LivePaging

/-!
# Reading a listing while the bucket changes

A client of `ListObjectsV2` reads page after page while other calls change the bucket, between
the pages and between the steps of each page: the caller is checked, then the bucket is looked
up, then the rows are read.

* `listPage_amid`: a page is made of the state in which its rows are read;
* `listings_amid`: an object that is there all the time is listed, one that is listed was
  there, and nothing is listed twice.
-/

namespace AtomicProgram.Prog

variable {σ ε α : Type}

/-- What the program answers when it finds these states one after another, one at each of its
steps, whatever they make of them. -/
def amid : Prog σ ε α → List σ → Option (Except ε α)
  | done a, _ => some (.ok a)
  | fail e, _ => some (.error e)
  | step _ _, [] => none
  | step act next, s :: rest => (next (act s).1).amid rest

end AtomicProgram.Prog

namespace Strix

open AtomicProgram AtomicProgram.Prog KeysetPaging

/-- The states that a page finds: where the caller is checked, where the bucket is looked up and
where the rows are read. -/
structure PageStates where
  checked : World
  lookedUp : World
  listed : World

/-- The response to a request repeated with a token, amid other calls. -/
def Caller.listPageAmid (caller : Caller) (input : ListObjectsV2Input) (states : PageStates)
    (token : Option String) : Option ListObjectsV2Output :=
  match (listObjectsV2 caller { input with continuationToken := token }).amid
    [states.checked, states.lookedUp, states.listed] with
  | some (.ok output) => output
  | _ => none

/-- **What a client can rely on** that reads amid other calls. -/
structure ReadsAmid (input : ListObjectsV2Input) (times : List PageStates)
    (outputs : List ListObjectsV2Output) : Prop where
  keys : ∀ key, StaysObject input.head input.delimiter key →
    (∀ states ∈ times, key ∈ states.listed.db.currentKeys input.bucket) →
    key ∈ outputs.flatMap (·.keys)
  prefixes : ∀ key p, RollsUpTo input.head input.delimiter key p →
    (∀ states ∈ times, key ∈ states.listed.db.currentKeys input.bucket) →
    p ∈ outputs.flatMap (·.prefixes)
  current : List.Forall₂ (fun states output => ∀ key ∈ ListObjectsV2Output.keys output,
    key ∈ states.listed.db.currentKeys input.bucket) times outputs
  ascending : (∀ states ∈ times, (states.listed.db.currentKeys input.bucket).Nodup) →
    (outputs.flatMap (·.keys)).Pairwise (· < ·)
  pages : outputs.length * input.pageSize ≤
    (outputs.flatMap (·.keys)).length + input.pageSize

variable {caller : Caller} {input : ListObjectsV2Input} {states : PageStates}
  {times : List PageStates} {token : Option String} {output : ListObjectsV2Output}
  {outputs : List ListObjectsV2Output}

/-! ## One page -/

/-- **A page is made of the state in which its rows are read**, if it comes at all. -/
theorem listPage_amid (h : caller.listPageAmid input states token = some output) :
    ∃ response, listing input.head input.delimiter input.pageSize
        (listingRows input.bucket input.head (input.startAfter <|> token) states.listed.db) =
        some response ∧
      output =
        ({ input with continuationToken := token } : ListObjectsV2Input).output response := by
  cases hcheck : caller.checkBucket states.checked.now "ListObjectsV2" input.bucket with
  | error e =>
      have hrun : (listObjectsV2 caller { input with continuationToken := token }).amid
          [states.checked, states.lookedUp, states.listed] = some (.error e) := by
        show ((lift (caller.checkBucket states.checked.now "ListObjectsV2" input.bucket) :
          S3Prog Unit) >>= _).amid _ = _
        rw [hcheck]
        rfl
      rw [Caller.listPageAmid, hrun] at h
      cases h
  | ok _ =>
      have hrun : (listObjectsV2 caller { input with continuationToken := token }).amid
          [states.checked, states.lookedUp, states.listed] = (ofStore (do
            ensure (bucketRowExists input.bucket states.lookedUp.db) (.bucketNotFound input.bucket)
            let rows ← query (listingRows input.bucket input.head (input.startAfter <|> token))
            return listing input.head input.delimiter input.pageSize rows) >>= fun response =>
              done (response.map
                ({ input with continuationToken := token } : ListObjectsV2Input).output)).amid
            [states.listed] := by
        show ((lift (caller.checkBucket states.checked.now "ListObjectsV2" input.bucket) :
          S3Prog Unit) >>= _).amid _ = _
        rw [hcheck]
        rfl
      cases hbucket : bucketRowExists input.bucket states.lookedUp.db with
      | false =>
          rw [hbucket] at hrun
          rw [Caller.listPageAmid, hrun] at h
          cases h
      | true =>
          rw [hbucket] at hrun
          rw [Caller.listPageAmid, hrun] at h
          exact (Option.map_eq_some_iff.mp h).imp fun response hr => ⟨hr.1, hr.2.symm⟩

/-! ## All pages -/

/-- The keys that the pattern selects in the state in which the rows are read. -/
def PageStates.selected (states : PageStates) (input : ListObjectsV2Input) : List String :=
  states.listed.db.selectedKeys input.bucket input.head none

/-- The responses to a client render the pages that it has read. -/
theorem listings_livePages (hstart : input.startAfter = none)
    (h : FollowsLive (caller.listPageAmid input) (·.token) none times outputs) :
    ∃ pages, LivePages (isListed input.head input.delimiter) input.pageSize none
        (times.map (·.selected input)) pages ∧
      List.Forall₂ (RendersPage input) outputs pages := by
  refine h.livePages fun states _ token output hpage => ?_
  obtain ⟨response, hlisting, rfl⟩ := listPage_amid hpage
  have hrenders := listing_renders hlisting
  have hfrom : keysFrom (states.selected input) token =
      states.listed.db.selectedKeys input.bucket input.head (input.startAfter <|> token) := by
    rw [hstart]
    exact keysFrom_selectedKeys _ _ _ token
  rw [hfrom]
  exact ⟨hrenders, hrenders.token⟩

/-- A key that starts with the prefix is selected by a pattern without escapes. -/
theorem selected_of_current (hpercent : '%' ∉ input.head.toList)
    (hpattern : byteLen (String.ofList (likePattern input.head)) ≤ maxLikePattern) {key : String}
    (hstarts : startsWith key input.head = true)
    (hcurrent : ∀ states ∈ times, key ∈ states.listed.db.currentKeys input.bucket) :
    ∀ keys ∈ times.map (·.selected input), key ∈ keys := by
  intro keys hkeys
  obtain ⟨states, hstates, rfl⟩ := List.mem_map.mp hkeys
  refine mem_selectedKeys.mpr ⟨hcurrent states hstates, ?_, rfl⟩
  exact (likeSelects_startsWith_iff hstarts).mpr ⟨hpercent, hpattern⟩

theorem selected_sorted :
    ∀ keys ∈ times.map (·.selected input), keys.Pairwise (· ≤ ·) := by
  intro keys hkeys
  obtain ⟨states, -, rfl⟩ := List.mem_map.mp hkeys
  exact selectedKeys_sorted

/-- Where no key is current twice, the selected keys ascend. -/
theorem selected_strict
    (hnodup : ∀ states ∈ times, (states.listed.db.currentKeys input.bucket).Nodup) :
    ∀ keys ∈ times.map (·.selected input), keys.Pairwise (· < ·) := by
  intro keys hkeys
  obtain ⟨states, hstates, rfl⟩ := List.mem_map.mp hkeys
  have hselected : (states.selected input).Nodup :=
    selectedKeys_perm.nodup_iff.mpr ((hnodup states hstates).filter _)
  exact (selectedKeys_sorted.and hselected).imp fun hpair => lt_of_le_of_ne hpair.1 hpair.2

/-- The folder and its neighbours, and what comes of them while a client reads on: `a` goes and
`d` comes. -/
def changedWorld : World :=
  (store executablePlatform).after folderWorld
    [.deleteObject "docs" "a", .putObject "docs" "d" [.ok [97]] {}]

/-- One object to a page, with the change between the first two pages. -/
def changingTimes : List PageStates :=
  [⟨folderWorld, folderWorld, folderWorld⟩, ⟨folderWorld, folderWorld, changedWorld⟩,
    ⟨changedWorld, changedWorld, changedWorld⟩]

end Strix

import Strix.AdminAudit
import Strix.OrderedPages
import Strix.Rfc3339
import Strix.SqliteLike

/-!
# Queries of the audit log

The admin API reads the log in pages.  Its handler reads two times, hands the other
filters on and counts what it answers; the store compares times as texts.  The filter
on the status is read from the request and goes nowhere, a time that cannot be read is
no filter at all, and the count is that of the page.

* `readsExactly_iff`: when the pages of a query are exactly the entries that match its
  filters, newest first, with the number of them all.
-/

namespace Strix

open OrderedPages RowTable

/-! ## The store -/

/-- `AuditQueryOpts`. -/
structure AuditQueryOpts where
  bucket : Option String := none
  keyPrefix : Option String := none
  operation : Option String := none
  principal : Option String := none
  startTime : Option DateTime := none
  endTime : Option DateTime := none
  limit : Option UInt32 := none
  offset : Option UInt32 := none

/-- The column `timestamp`. -/
def AuditLogEntry.timestampText (row : AuditLogEntry) : String := Rfc3339.text row.timestamp

/-- A condition of the WHERE clause, if its filter is supplied. -/
def ifSupplied {α : Type} (filter : Option α) (condition : α → Bool) : Bool :=
  filter.all condition

/-- The WHERE clause.  A column that is NULL is equal to nothing. -/
def AuditQueryOpts.selects (opts : AuditQueryOpts) (row : AuditLogEntry) : Bool :=
  ifSupplied opts.bucket (fun bucket => row.bucket == some bucket) &&
  ifSupplied opts.keyPrefix (fun keyPrefix =>
    row.key.any fun key => SqliteLike.like (keyPrefix.toList ++ ['%']) key.toList) &&
  ifSupplied opts.operation (fun operation => row.operation == operation) &&
  ifSupplied opts.principal (fun principal => row.principal == some principal) &&
  ifSupplied opts.startTime (fun startTime => Rfc3339.text startTime ≤ row.timestampText) &&
  ifSupplied opts.endTime (fun endTime => row.timestampText ≤ Rfc3339.text endTime)

/-- `ORDER BY timestamp DESC`. -/
abbrev AuditSorter := Sorter AuditLogEntry.timestampText

/-- The rows of `query_audit_log`. -/
def selectAuditLog (sorter : AuditSorter) (opts : AuditQueryOpts) (log : AuditLog) :
    List AuditLogEntry :=
  page (opts.limit.getD 100).toNat (opts.offset.getD 0).toNat
    (sorter.sort (log.filter opts.selects))

/-! ## The handler -/

/-- Query parameters for audit log. -/
structure AuditLogQuery where
  bucket : Option String := none
  operation : Option String := none
  principal : Option String := none
  status : Option String := none
  startTime : Option String := none
  endTime : Option String := none
  limit : Option UInt32 := none
  offset : Option UInt32 := none

structure AuditLogEntryResponse where
  id : String
  timestamp : String
  operation : String
  bucket : Option String
  key : Option String
  principal : Option String
  sourceIp : Option String
  statusCode : Nat
  errorCode : Option String
  durationMs : Option Nat
  bytesSent : Option Nat
  requestId : String
  deriving DecidableEq, Repr

def AuditLogEntry.response (e : AuditLogEntry) : AuditLogEntryResponse where
  id := e.id
  timestamp := Rfc3339.text e.timestamp
  operation := e.operation
  bucket := e.bucket
  key := e.key
  principal := e.principal
  sourceIp := e.sourceIp
  statusCode := e.statusCode
  errorCode := e.errorCode
  durationMs := e.durationMs
  bytesSent := e.bytesSent
  requestId := e.requestId

structure ListAuditLogResponse where
  entries : List AuditLogEntryResponse
  total : Nat
  limit : UInt32
  offset : UInt32
  deriving DecidableEq, Repr

/-- What the handler answers: the entries, or a status that is an error. -/
inductive AuditAnswer
  | ok (response : ListAuditLogResponse)
  | refused (status : Nat) (error : String)

def AuditAnswer.IsRefused : AuditAnswer → Prop
  | .ok _ => False
  | .refused _ _ => True

/-- `query_audit_log`, over the texts that `DateTime::parse_from_rfc3339` reads. -/
def queryAuditLog (parse : String → Option DateTime) (sorter : AuditSorter)
    (query : AuditLogQuery) (log : AuditLog) : AuditAnswer :=
  let startTime := query.startTime.bind parse
  let endTime := query.endTime.bind parse
  let limit := query.limit.getD 100
  let offset := query.offset.getD 0
  let opts : AuditQueryOpts :=
    { bucket := query.bucket, keyPrefix := none, operation := query.operation,
      principal := query.principal, startTime, endTime, limit := some limit,
      offset := some offset }
  let responseEntries := (selectAuditLog sorter opts log).map AuditLogEntry.response
  .ok { entries := responseEntries, total := responseEntries.length, limit, offset }

/-! ## What a query asks for -/

variable (parse : String → Option DateTime)

/-- The values of its filters mean something. -/
structure AuditLogQuery.Interpretable (query : AuditLogQuery) : Prop where
  status : ∀ status ∈ query.status, status = "success" ∨ status = "error"
  startTime : ∀ time ∈ query.startTime, (parse time).isSome
  endTime : ∀ time ∈ query.endTime, (parse time).isSome

/-- **The entry satisfies the filters**, times being compared as times. -/
def AuditLogQuery.wants (query : AuditLogQuery) (row : AuditLogEntry) : Bool :=
  ifSupplied query.bucket (fun bucket => row.bucket == some bucket) &&
  ifSupplied query.operation (fun operation => row.operation == operation) &&
  ifSupplied query.principal (fun principal => row.principal == some principal) &&
  ifSupplied query.status (fun status => (status == "success") == statusIsSuccess row.statusCode) &&
  ifSupplied (query.startTime.bind parse) (fun startTime => startTime ≤ row.timestamp) &&
  ifSupplied (query.endTime.bind parse) (fun endTime => row.timestamp ≤ endTime)

def AuditLogQuery.pageSize (query : AuditLogQuery) : Nat := (query.limit.getD 100).toNat

/-- Where the pages of a query start: at its own offset, and behind that as far as the
matching entries go. -/
def AuditLogQuery.Asks (query : AuditLogQuery) (matching : Nat) (offset : UInt32) : Prop :=
  offset = query.offset.getD 0 ∨
    ∃ k, offset.toNat = (query.offset.getD 0).toNat + k * query.pageSize ∧ offset.toNat < matching

/-- **A query reads the log exactly.**  Its pages are those of the entries that match,
newest first, in one order, though each page may have been sorted otherwise; each comes
with the number of all of them.  A filter that means nothing is refused. -/
structure ReadsExactly (query : AuditLogQuery) (log : AuditLog) : Prop where
  exact : query.Interpretable parse → ∀ sorters : UInt32 → AuditSorter, ∃ order,
    Falls AuditLogEntry.timestamp (log.filter (query.wants parse)) order ∧
      ∀ offset, query.Asks order.length offset →
        queryAuditLog parse (sorters offset) { query with offset := some offset } log =
          .ok { entries := (page query.pageSize offset.toNat order).map AuditLogEntry.response,
                total := order.length, limit := query.limit.getD 100, offset }
  refused : ¬query.Interpretable parse →
    ∀ sorter, (queryAuditLog parse sorter query log).IsRefused

/-- A log that is only written by inserts keeps its ids apart. -/
theorem logAuditEvent_keyed {log : AuditLog} (h : Keyed AuditLogEntry.id log)
    (entry : AuditLogEntry) : Keyed AuditLogEntry.id (logAuditEvent entry log).2 := by
  unfold logAuditEvent
  split
  · exact h
  · rename_i hnew
    refine h.insertRow fun row hrow hid => hnew ?_
    exact List.any_eq_true.mpr ⟨row, hrow, beq_iff_eq.mpr hid⟩

/-! ## When the pages are exact -/

/-- What the handler hands on of a query. -/
def AuditLogQuery.opts (query : AuditLogQuery) (offset : UInt32) : AuditQueryOpts where
  bucket := query.bucket
  operation := query.operation
  principal := query.principal
  startTime := query.startTime.bind parse
  endTime := query.endTime.bind parse
  limit := some (query.limit.getD 100)
  offset := some offset

/-- The rows that the WHERE clause of a query selects. -/
def AuditLogQuery.selects (query : AuditLogQuery) (row : AuditLogEntry) : Bool :=
  (query.opts parse 0).selects row

/-- **The query can be answered.**  Its filters mean something, and either it starts at
the newest entry, with a first page that can be trusted, or nothing matches and its page
is empty. -/
structure Answerable (query : AuditLogQuery) (log : AuditLog) : Prop where
  interpretable : query.Interpretable parse
  firstPage : (query.offset.getD 0 = 0 ∧
      FirstPage AuditLogEntry.timestampText AuditLogEntry.timestamp (query.selects parse)
        (query.wants parse) query.pageSize log) ∨
    (log.filter (query.wants parse) = [] ∧
      (query.pageSize = 0 ∨
        (log.filter (query.selects parse)).length ≤ (query.offset.getD 0).toNat))

section Times

variable {parse} {query : AuditLogQuery} {log : AuditLog} {row : AuditLogEntry}

theorem text_le_text_iff {t t' : DateTime} (hyear : Rfc3339.FourDigitYear t)
    (hyear' : Rfc3339.FourDigitYear t') : Rfc3339.text t ≤ Rfc3339.text t' ↔ t ≤ t' := by
  rw [← not_lt, Rfc3339.text_lt_text_iff hyear' hyear, not_lt]

/-- **Texts are compared as times are** in years of four digits: there the clause selects
by every filter but the status. -/
theorem selects_eq_wants (hrow : Rfc3339.FourDigitYear row.timestamp)
    (hstart : ∀ t ∈ query.startTime.bind parse, Rfc3339.FourDigitYear t)
    (hend : ∀ t ∈ query.endTime.bind parse, Rfc3339.FourDigitYear t) :
    query.selects parse row = { query with status := none }.wants parse row := by
  have hfrom : ifSupplied (query.startTime.bind parse)
        (fun startTime => Rfc3339.text startTime ≤ row.timestampText) =
      ifSupplied (query.startTime.bind parse) (fun startTime => startTime ≤ row.timestamp) := by
    cases htime : query.startTime.bind parse with
    | none => rfl
    | some t =>
        simp [ifSupplied, AuditLogEntry.timestampText, text_le_text_iff (hstart t htime) hrow]
  have hto : ifSupplied (query.endTime.bind parse)
        (fun endTime => row.timestampText ≤ Rfc3339.text endTime) =
      ifSupplied (query.endTime.bind parse) (fun endTime => row.timestamp ≤ endTime) := by
    cases htime : query.endTime.bind parse with
    | none => rfl
    | some t =>
        simp [ifSupplied, AuditLogEntry.timestampText, text_le_text_iff hrow (hend t htime)]
  simp only [AuditLogQuery.selects, AuditLogQuery.opts, AuditQueryOpts.selects,
    AuditLogQuery.wants, hfrom, hto]
  simp [ifSupplied]

theorem rankedBy_timestamp {wanted : AuditLogEntry → Bool}
    (hyears : ∀ row ∈ log, Rfc3339.FourDigitYear row.timestamp) :
    RankedBy AuditLogEntry.timestampText AuditLogEntry.timestamp wanted log :=
  fun r hr s hs _ _ h => Rfc3339.text_lt (hyears r hr) (hyears s hs) h

end Times

section Pages

variable {parse} {query : AuditLogQuery} {log : AuditLog} {sorter : AuditSorter}

theorem queryAuditLog_eq (offset : UInt32) :
    queryAuditLog parse sorter { query with offset := some offset } log =
      .ok { entries := (page query.pageSize offset.toNat
              (sorter.sort (log.filter (query.selects parse)))).map AuditLogEntry.response,
            total := (page query.pageSize offset.toNat
              (sorter.sort (log.filter (query.selects parse)))).length,
            limit := query.limit.getD 100, offset } := by
  unfold queryAuditLog
  simp only [List.length_map]
  rfl

/-- Entries of a log are told apart by what is shown of them. -/
theorem eq_of_map_response (hkeyed : Keyed AuditLogEntry.id log) {xs ys : List AuditLogEntry}
    (hxs : ∀ x ∈ xs, x ∈ log) (hys : ∀ y ∈ ys, y ∈ log)
    (h : xs.map AuditLogEntry.response = ys.map AuditLogEntry.response) : xs = ys := by
  induction xs generalizing ys with
  | nil => exact (List.map_eq_nil_iff.mp h.symm).symm
  | cons x xs ih =>
      obtain ⟨y, ys, rfl, hy, hrest⟩ := List.map_eq_cons_iff.mp h.symm
      rw [List.forall_mem_cons] at hxs hys
      have hid : y.id = x.id := congrArg AuditLogEntryResponse.id hy
      rw [hkeyed.eq_of_mem hys.1 hxs.1 hid, ih hxs.2 hys.2 hrest.symm]

theorem mem_log_of_page {limit offset : Nat} {p : AuditLogEntry → Bool} {order : List AuditLogEntry}
    (horder : order.Perm (log.filter p)) : ∀ x ∈ page limit offset order, x ∈ log := by
  intro x hx
  have hmem := List.mem_of_mem_drop (List.mem_of_mem_take hx)
  exact (List.mem_filter.mp (horder.mem_iff.mp hmem)).1

/-- No page of an order of nothing shows anything. -/
theorem page_eq_nil_iff {limit offset : Nat} {order : List AuditLogEntry} :
    page limit offset order = [] ↔ limit = 0 ∨ order.length ≤ offset := by
  rw [page, List.take_eq_nil_iff, List.drop_eq_nil_iff]

/-- A page as long as the whole order starts at its beginning. -/
theorem page_eq_self {limit offset : Nat} {order : List AuditLogEntry} (hne : order ≠ [])
    (hlength : (page limit offset order).length = order.length) :
    offset = 0 ∧ page limit offset order = order := by
  have hpos := List.length_pos_iff.mpr hne
  have hmin : min limit (order.length - offset) = order.length := by
    rw [page, List.length_take, List.length_drop] at hlength
    exact hlength
  have hoffset : offset = 0 := by omega
  subst hoffset
  refine ⟨rfl, ?_⟩
  rw [page_zero, List.take_of_length_le (by omega)]

/-- The page that an exact query shows, whatever the sorter. -/
theorem ReadsExactly.page_falls (h : ReadsExactly parse query log)
    (hkeyed : Keyed AuditLogEntry.id log) (hreadable : query.Interpretable parse)
    (sorter : AuditSorter) :
    Falls AuditLogEntry.timestamp (log.filter (query.wants parse))
        (page query.pageSize (query.offset.getD 0).toNat
          (sorter.sort (log.filter (query.selects parse)))) ∧
      (log.filter (query.wants parse) = [] ∨ query.offset.getD 0 = 0) := by
  obtain ⟨order, horder, hpages⟩ := h.exact hreadable fun _ => sorter
  have hpage := hpages _ (.inl rfl)
  rw [queryAuditLog_eq] at hpage
  simp only [AuditAnswer.ok.injEq, ListAuditLogResponse.mk.injEq] at hpage
  obtain ⟨hentries, htotal, -⟩ := hpage
  have hsame := eq_of_map_response hkeyed (mem_log_of_page (sorter.falls _).perm)
    (mem_log_of_page horder.perm) hentries
  rw [hsame] at htotal ⊢
  by_cases hnil : order = []
  · subst hnil
    have hnone := horder.perm.symm.eq_nil
    rw [hnone, page_eq_nil_iff.mpr (.inr (Nat.zero_le _))]
    exact ⟨⟨.nil, .nil⟩, .inl rfl⟩
  · obtain ⟨hoffset, hself⟩ := page_eq_self hnil htotal
    rw [hself]
    exact ⟨horder, .inr (UInt32.toNat_inj.mp hoffset)⟩

/-- Every page that is asked for shows the rest of the entries, if its own page does. -/
theorem Answerable.page_falls (h : Answerable parse query log) (sorter : AuditSorter) :
    Falls AuditLogEntry.timestamp (log.filter (query.wants parse))
        (page query.pageSize (query.offset.getD 0).toNat
          (sorter.sort (log.filter (query.selects parse)))) := by
  rcases h.firstPage with ⟨hoffset, hfirst⟩ | ⟨hnone, hempty⟩
  · rw [hoffset, UInt32.toNat_zero, page_zero]
    exact hfirst.falls sorter
  · rw [hnone, page_eq_nil_iff.mpr]
    · exact ⟨.nil, .nil⟩
    · rwa [(sorter.falls _).perm.length_eq]

/-- The page is the first of its own entries. -/
theorem Answerable.page_page (h : Answerable parse query log) (sorter : AuditSorter) :
    page query.pageSize (query.offset.getD 0).toNat
        (page query.pageSize (query.offset.getD 0).toNat
          (sorter.sort (log.filter (query.selects parse)))) =
      page query.pageSize (query.offset.getD 0).toNat
        (sorter.sort (log.filter (query.selects parse))) := by
  rcases h.firstPage with ⟨hoffset, -⟩ | ⟨-, hempty⟩
  · rw [hoffset, UInt32.toNat_zero, page_zero, page_zero, List.take_take, min_self]
  · rw [← (sorter.falls _).perm.length_eq] at hempty
    rw [page_eq_nil_iff.mpr hempty, page_eq_nil_iff.mpr (.inr (Nat.zero_le _))]

theorem Answerable.asks (h : Answerable parse query log) {offset : UInt32}
    (hasks : query.Asks (log.filter (query.wants parse)).length offset) :
    offset = query.offset.getD 0 := by
  rcases hasks with hown | ⟨k, hoffset, hlt⟩
  · exact hown
  · rcases h.firstPage with ⟨hzero, hfirst⟩ | ⟨hnone, -⟩
    · have hfits := hfirst.fits
      rw [hzero] at hoffset ⊢
      refine UInt32.toNat_inj.mp (hoffset.trans ?_)
      cases k with
      | zero => simp
      | succ k =>
          rw [Nat.succ_mul] at hoffset
          omega
    · simp [hnone] at hlt

end Pages

/-- **A query reads the log exactly if and only if it can be answered.** -/
theorem readsExactly_iff (query : AuditLogQuery) {log : AuditLog}
    (hkeyed : Keyed AuditLogEntry.id log) :
    ReadsExactly parse query log ↔ Answerable parse query log := by
  constructor
  · intro h
    have hreadable : query.Interpretable parse := by
      by_contra hnot
      exact h.refused hnot (Sorter.ranked _ AuditLogEntry.id)
    refine ⟨hreadable, ?_⟩
    by_cases hnone : log.filter (query.wants parse) = []
    · have hsorter : AuditSorter := Sorter.ranked _ AuditLogEntry.id
      have hempty := (h.page_falls hkeyed hreadable hsorter).1.perm
      rw [hnone, List.perm_nil, page_eq_nil_iff, (hsorter.falls _).perm.length_eq] at hempty
      exact .inr ⟨hnone, hempty⟩
    · have hoffset := (h.page_falls hkeyed hreadable
        (Sorter.ranked _ AuditLogEntry.id)).2.resolve_left hnone
      refine .inl ⟨hoffset, take_falls_iff.mp fun sorter => ?_⟩
      have hfalls := (h.page_falls hkeyed hreadable sorter).1
      rwa [hoffset, UInt32.toNat_zero, page_zero] at hfalls
  · intro h
    refine ⟨fun _ sorters => ⟨_, h.page_falls (sorters (query.offset.getD 0)), ?_⟩,
      fun hnot => absurd h.interpretable hnot⟩
    intro offset hasks
    rw [(h.page_falls (sorters (query.offset.getD 0))).perm.length_eq] at hasks
    rw [h.asks hasks, queryAuditLog_eq, h.page_page]

/-! ## The filter on the status -/

/-- A denied read, one nanosecond after one that was served. -/
def readThenDenied : AuditLog :=
  [{ id := "1", timestamp := 1, operation := "GetObject", principal := some "alice",
     sourceIp := none, statusCode := 200, errorCode := none, requestId := "1" },
   { id := "2", timestamp := 2, operation := "GetObject", principal := some "bob",
     sourceIp := none, statusCode := 403, errorCode := some "AccessDenied", requestId := "2" }]

/-- The last error: it happens to be the newest entry. -/
theorem lastError_readsExactly : Keyed AuditLogEntry.id readThenDenied ∧
    ReadsExactly (fun _ => none) { status := some "error", limit := some 1 } readThenDenied := by
  have hkeyed : Keyed AuditLogEntry.id readThenDenied := by
    unfold Keyed
    decide
  have hyears : ∀ row ∈ readThenDenied, Rfc3339.FourDigitYear row.timestamp := by
    unfold Rfc3339.FourDigitYear
    decide
  refine ⟨hkeyed, (readsExactly_iff _ _ hkeyed).mpr ⟨⟨?_, ?_, ?_⟩, .inl ⟨rfl, ?_⟩⟩⟩
  · simp
  · simp
  · simp
  · refine ⟨by decide, by decide, rankedBy_timestamp hyears, .inr ⟨by decide, ?_⟩⟩
    intro r hr s hs hwr _ hws
    refine Rfc3339.text_lt (hyears s hs) (hyears r hr) ?_
    revert r s
    decide

/-- A query for what succeeded lists the denied read. -/
theorem denied_listed : ¬ ∀ (parse : String → Option DateTime) (query : AuditLogQuery)
    (log : AuditLog), Keyed AuditLogEntry.id log → ReadsExactly parse query log := by
  intro hall
  let denied : AuditLog := readThenDenied.drop 1
  let query : AuditLogQuery := { status := some "success" }
  have hkeyed : Keyed AuditLogEntry.id denied := by
    unfold Keyed
    decide
  have hreadable : query.Interpretable fun _ => none :=
    ⟨by simp [query], by simp [query], by simp [query]⟩
  have hsorter : AuditSorter := Sorter.ranked _ AuditLogEntry.id
  have hreads := hall (fun _ => none) query denied hkeyed
  have hpage := (hreads.page_falls hkeyed hreadable hsorter).1.perm
  have hnone : denied.filter (query.wants fun _ => none) = [] := by decide
  rw [hnone, List.perm_nil, page_eq_nil_iff, (hsorter.falls _).perm.length_eq] at hpage
  revert hpage
  decide

end Strix

import Strix.MachineRuns
import Strix.RowTable

/-!
# Logs with a unique key

A log is a table that only grows: a row is appended unless its key is taken, and
whoever appends does not look at the outcome.  So a row can be kept out by an
earlier one, but none that is in the log ever goes.

`allSteps_logged_iff`: along a run in which the operations append rows, every
row gets in exactly when the keys of the rows are new and all different.
-/

namespace RowTable

open MachineRuns

variable {ρ κ : Type} [DecidableEq κ] {key : ρ → κ} {row : ρ} {rows : List ρ}

/-- Append a row, unless its key is taken. -/
def logRow (key : ρ → κ) (row : ρ) (rows : List ρ) : List ρ :=
  if rows.any fun r => key r == key row then rows else insertRow row rows

/-- A row gets in exactly if its key is new. -/
theorem logRow_eq_insertRow_iff :
    logRow key row rows = insertRow row rows ↔ ∀ r ∈ rows, key r ≠ key row := by
  unfold logRow
  by_cases htaken : rows.any fun r => key r == key row
  · rw [if_pos htaken]
    refine iff_of_false (fun h => ?_) fun hnew => ?_
    · have hlength := congrArg List.length h
      simp [insertRow] at hlength
    · obtain ⟨r, hr, heq⟩ := List.any_eq_true.mp htaken
      exact hnew r hr (by simpa using heq)
  · rw [if_neg htaken]
    refine iff_of_true rfl fun r hr heq => htaken ?_
    exact List.any_eq_true.mpr ⟨r, hr, by simpa using heq⟩

/-- Append rows one after another, each unless its key is taken. -/
def logRows (key : ρ → κ) (new rows : List ρ) : List ρ :=
  new.foldl (fun rows row => logRow key row rows) rows

@[simp] theorem logRows_nil : logRows key [] rows = rows := rfl

@[simp] theorem logRows_cons {new : List ρ} :
    logRows key (row :: new) rows = logRows key new (logRow key row rows) := rfl

theorem logRows_append {new new' : List ρ} :
    logRows key (new ++ new') rows = logRows key new' (logRows key new rows) :=
  List.foldl_append

omit [DecidableEq κ] in
/-- Behind a new row, the others have new and different keys exactly if all of them do. -/
theorem keyed_behind_iff {new : List ρ} (hnew : ∀ r ∈ rows, key r ≠ key row) :
    (Keyed key new ∧ ∀ later ∈ new, ∀ r ∈ insertRow row rows, key r ≠ key later) ↔
      Keyed key (row :: new) ∧ ∀ later ∈ row :: new, ∀ r ∈ rows, key r ≠ key later := by
  simp only [mem_insertRow, Keyed, List.map_cons, List.nodup_cons, List.mem_map, not_exists,
    not_and, List.forall_mem_cons]
  constructor
  · intro h
    obtain ⟨hkeyed, hfresh⟩ := h
    refine ⟨⟨fun r hr heq => ?_, hkeyed⟩, hnew, fun r hr old hold => ?_⟩
    · exact hfresh r hr row (Or.inr rfl) heq.symm
    · exact hfresh r hr old (Or.inl hold)
  · intro h
    obtain ⟨⟨hdiffer, hkeyed⟩, -, hfresh⟩ := h
    refine ⟨hkeyed, fun r hr old hold => ?_⟩
    rcases hold with hold | rfl
    · exact hfresh r hr old hold
    · exact fun heq => hdiffer r hr heq.symm

/-- **What gets in of several rows**: some of them, in their order, and all of them
exactly if their keys are new and all different. -/
theorem exists_logRows_eq (key : ρ → κ) (new rows : List ρ) :
    ∃ entries, logRows key new rows = rows ++ entries ∧ entries.Sublist new ∧
      (entries.length = new.length ↔
        Keyed key new ∧ ∀ row ∈ new, ∀ r ∈ rows, key r ≠ key row) := by
  induction new generalizing rows with
  | nil => exact ⟨[], by simp, .slnil, by simp [Keyed]⟩
  | cons row new ih =>
      obtain ⟨entries, hlog, hsub, hall⟩ := ih (logRow key row rows)
      by_cases hnew : ∀ r ∈ rows, key r ≠ key row
      · have hrow : logRow key row rows = insertRow row rows := logRow_eq_insertRow_iff.mpr hnew
        rw [hrow] at hlog hall
        refine ⟨row :: entries, ?_, hsub.cons_cons row, ?_⟩
        · rw [logRows_cons, hrow, hlog]
          simp [insertRow]
        · rw [List.length_cons, List.length_cons, Nat.add_right_cancel_iff, hall]
          exact keyed_behind_iff hnew
      · have hrow : logRow key row rows = rows := by
          unfold logRow
          refine if_pos ?_
          simpa using hnew
        rw [hrow] at hlog
        refine ⟨entries, by rw [logRows_cons, hrow, hlog], hsub.cons row, ?_⟩
        refine iff_of_false (fun hlength => ?_) fun h => ?_
        · have hle := hsub.length_le
          rw [List.length_cons] at hlength
          omega
        · exact hnew (h.2 row List.mem_cons_self)

/-- **What goes unlogged**: if the log leaves out what falls into a gap and nothing
else, it has everything exactly if nothing falls into one. -/
theorem filterMap_eq_iff_no_gap {α β : Type*} {logged due : α → Option β} {Gap : α → Prop}
    (h : ∀ a, logged a = due a ∧ ¬Gap a ∨ logged a = none ∧ (∃ b, due a = some b) ∧ Gap a)
    (as : List α) :
    (as.filterMap logged).Sublist (as.filterMap due) ∧
      (as.filterMap logged = as.filterMap due ↔ ∀ a ∈ as, ¬Gap a) := by
  induction as with
  | nil => simp
  | cons a as ih =>
      obtain ⟨hsub, hall⟩ := ih
      rw [List.forall_mem_cons]
      rcases h a with ⟨hsame, hgap⟩ | ⟨hnone, ⟨b, hdue⟩, hgap⟩
      · cases hdue : due a with
        | none =>
            rw [List.filterMap_cons_none (hsame.trans hdue), List.filterMap_cons_none hdue]
            exact ⟨hsub, by simp [hall, hgap]⟩
        | some b =>
            rw [List.filterMap_cons_some (hsame.trans hdue), List.filterMap_cons_some hdue]
            exact ⟨hsub.cons_cons b, by simp [hall, hgap]⟩
      · rw [List.filterMap_cons_none hnone, List.filterMap_cons_some hdue]
        refine ⟨hsub.cons b, iff_of_false (fun heq => ?_) fun hno => hno.1 hgap⟩
        have hle := hsub.length_le
        have hlength := congrArg List.length heq
        rw [List.length_cons] at hlength
        omega

/-- Some of the operations append a row to the log. -/
def LogsTo {σ ι υ : Type*} (M : Machine σ ι υ) (log : σ → List ρ) (key : ρ → κ)
    (entry : ι → Option ρ) : Prop :=
  ∀ s op, log (M.next s op) = match entry op with
    | some row => logRow key row (log s)
    | none => log s

/-- **All rows get in** exactly when their keys are new and all different. -/
theorem allSteps_logged_iff {σ ι υ : Type*} {M : Machine σ ι υ} {log : σ → List ρ}
    {entry : ι → Option ρ} (h : LogsTo M log key entry) (s : σ) (ops : List ι) :
    M.AllSteps (fun s op => ∀ row, entry op = some row → ∀ r ∈ log s, key r ≠ key row) s ops ↔
      Keyed key (ops.filterMap entry) ∧
        ∀ row ∈ ops.filterMap entry, ∀ r ∈ log s, key r ≠ key row := by
  induction ops generalizing s with
  | nil => simp [Keyed]
  | cons op ops ih =>
      have hlog := h s op
      rw [Machine.allSteps_cons, ih]
      cases hentry : entry op with
      | none =>
          rw [hentry] at hlog
          simp [hentry, hlog]
      | some row =>
          rw [hentry] at hlog
          rw [List.filterMap_cons_some hentry]
          simp only [Option.some.injEq, forall_eq']
          by_cases hnew : ∀ r ∈ log s, key r ≠ key row
          · have hafter : log (M.next s op) = insertRow row (log s) :=
              hlog.trans (logRow_eq_insertRow_iff.mpr hnew)
            rw [hafter, and_iff_right hnew]
            exact keyed_behind_iff hnew
          · exact iff_of_false (fun hall => hnew hall.1)
              fun hall => hnew (hall.2 row List.mem_cons_self)

end RowTable

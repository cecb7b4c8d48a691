import Strix.Interleaving
import Strix.StoreData

/-!
# One master key for all servers

The store keeps the key that all object keys are derived from in a file of its own.  A server
that starts looks whether the file is there.  If it is, the server reads it and refuses a key of
another size; if not, it creates the file, which fails where somebody else has been faster, and
writes a key of its own into it.

Starts run side by side, the file is written piece by piece, a start may be stopped anywhere, and
somebody may change the mode of the file at any time.

* `KeyHeld.step`: once created, the file is on the way to one key;
* `oneMasterKey`: all starts that ever succeed have the same key;
* `opensAgain_iff`: when some start will succeed.
-/

namespace Strix

open AtomicProgram AtomicProgram.Prog MachineRuns

/-- The key file. -/
structure KeyFile where
  data : Bytes
  mode : Nat

/-- The directory that the key file is in. -/
structure KeyDisk where
  file : Option KeyFile := none

abbrev KeyProg (α : Type) := Prog KeyDisk Error α

abbrev KeyPool := Pool KeyDisk Error EncryptionKey

/-! ## Loading or creating the key -/

/-- `OpenOptions::create_new`: the file is there from now on, or it was there already. -/
def createNew (d : KeyDisk) : Bool × KeyDisk :=
  match d.file with
  | none => (true, { file := some { data := [], mode := 0o600 } })
  | some _ => (false, d)

/-- `set_permissions`. -/
def setMode (mode : Nat) (d : KeyDisk) : KeyDisk :=
  { file := d.file.map fun f => { f with mode } }

/-- What is written goes behind what has been written. -/
def appendKey (piece : Bytes) (d : KeyDisk) : KeyDisk :=
  { file := d.file.map fun f => { f with data := f.data ++ piece } }

/-- A mode other than 600 is set right, if the file is there and lets itself be read. -/
def fixPermissions : KeyProg Unit := do
  let mode ← observe fun d => d.file.map (·.mode)
  if mode.any (· % 0o1000 ≠ 0o600) then update (setMode 0o600) else return ()

/-- The key of a file, which has to have the size of one. -/
def keyOfData (data : Bytes) : Except Error EncryptionKey :=
  if h : data.length = keySize then .ok ⟨data, h⟩
  else .error (.internal "Invalid encryption key file size")

/-- `write_all`: the pieces in which the operating system takes the key. -/
def writePieces : List Bytes → KeyProg Unit
  | [] => return ()
  | piece :: rest => do
      update (appendKey piece)
      writePieces rest

/-- A server that starts: the key that it would generate, and the pieces in which it is
written. -/
structure Start where
  key : EncryptionKey
  pieces : List Bytes
  whole : pieces.flatten = key.val

/-- The key that the file holds. -/
def readMasterKey : KeyProg EncryptionKey := do
  let data ← observe fun d => d.file.map (·.data)
  let data ← require data (.io "No such file or directory (os error 2)")
  lift (keyOfData data)

/-- The key of the file that is there. -/
def loadMasterKey : KeyProg EncryptionKey := do
  fixPermissions
  readMasterKey

/-- A new key, in a file that has not been there. -/
def createMasterKey (start : Start) : KeyProg EncryptionKey := do
  let created ← perform createNew
  ensure created (.io "File exists (os error 17)")
  writePieces start.pieces
  return start.key

/-- `load_or_create_master_key`. -/
def loadOrCreateMasterKey (start : Start) : KeyProg EncryptionKey := do
  let there ← observe fun d => d.file.isSome
  bif there then loadMasterKey else createMasterKey start

/-! ## Servers that start -/

/-- Starts that run side by side, and the turns that are taken. -/
structure Boot where
  starts : List Start
  schedule : List (Turn Nat)

/-- The starts on what they find.  Somebody may change the mode in between. -/
def bootPool (d : KeyDisk) (boot : Boot) : KeyPool where
  state := d
  threads := boot.starts.map loadOrCreateMasterKey

def booted (d : KeyDisk) (boot : Boot) : KeyPool :=
  (pool setMode (bootPool d boot)).after (bootPool d boot) boot.schedule

/-- What is left of boots one after another, the last of them first.  Each may be stopped
anywhere. -/
def keyDiskOf : List Boot → KeyDisk
  | [] => {}
  | boot :: earlier => (booted (keyDiskOf earlier) boot).state

/-- A start of the boot has this key. -/
def ObtainsKey (d : KeyDisk) (boot : Boot) (key : EncryptionKey) : Prop :=
  ∃ i, (booted d boot).Returned i key

/-! ## What starts do to the file -/

/-- Where a start is: it has not created the file, it has read this, or it has created the file
and this is still to be written of its key. -/
inductive KeyStage
  | outside
  | read (data : Bytes)
  | writing (key rest : Bytes)

/-- A step that leaves the bytes of the file alone. -/
def KeepsKey ⦃β : Type⦄ (act : KeyDisk → β × KeyDisk) : Prop :=
  ∀ d, (act d).2.file.map (·.data) = d.file.map (·.data)

/-- **The steps of a start.** -/
inductive KeySteps : Automaton KeyDisk KeyStage
  | looks {t : KeyStage} {β : Type} {act : KeyDisk → β × KeyDisk} (h : KeepsKey act) :
      KeySteps t act fun _ => t
  | reads : KeySteps .outside (fun d => (d.file.map (·.data), d)) fun data =>
      data.elim .outside .read
  | creates (key : EncryptionKey) : KeySteps .outside createNew fun created =>
      cond created (.writing key.val key.val) .outside
  | appends (key piece rest : Bytes) : KeySteps (.writing key (piece ++ rest))
      (fun d => ((), appendKey piece d)) fun _ => .writing key rest

/-- A start that has succeeded has read its key or written all of it. -/
def KeyLooks : KeyProg EncryptionKey → KeyStage → Prop
  | .done key, t => t = .read key.val ∨ t = .writing key.val []
  | _, _ => True

theorem setMode_data (mode : Nat) (d : KeyDisk) :
    (setMode mode d).file.map (·.data) = d.file.map (·.data) := by
  cases h : d.file <;> simp [setMode, h]

theorem only_fixPermissions : Only KeepsKey fixPermissions := by
  refine Only.bind (only_perform fun d => rfl) fun mode => ?_
  split
  · exact only_perform (setMode_data _)
  · exact only_pure _

theorem staged_writePieces (pieces : List Bytes) (key : EncryptionKey) :
    (writePieces pieces >>= fun _ => done key).Staged KeySteps KeyLooks
      (.writing key.val pieces.flatten) := by
  induction pieces with
  | nil => exact Or.inr rfl
  | cons piece rest ih => exact ⟨trivial, _, .appends key.val piece rest.flatten, fun _ => ih⟩

theorem free_outside : Free KeyLooks .outside := ⟨fun _ _ _ => trivial, fun _ => trivial⟩

theorem keyOfData_ok {data : Bytes} {key : EncryptionKey} (h : keyOfData data = .ok key) :
    key.val = data := by
  unfold keyOfData at h
  split at h
  · cases h
    rfl
  · cases h

/-- **Every start** keeps to the automaton. -/
theorem loadOrCreateMasterKey_staged (start : Start) :
    (loadOrCreateMasterKey start).Staged KeySteps KeyLooks .outside := by
  refine ⟨trivial, fun _ => .outside, .looks fun d => rfl, fun there => ?_⟩
  cases there with
  | true =>
      show loadMasterKey.Staged KeySteps KeyLooks .outside
      refine Only.staged_bind (p := fixPermissions) only_fixPermissions (fun _ _ h => .looks h)
        free_outside fun _ => ?_
      refine ⟨trivial, _, .reads, fun data => ?_⟩
      cases data with
      | none => trivial
      | some data =>
          show (lift (keyOfData data) : KeyProg EncryptionKey).Staged KeySteps KeyLooks (.read data)
          cases hkey : keyOfData data with
          | error e => trivial
          | ok key => exact Or.inl (congrArg KeyStage.read (keyOfData_ok hkey).symm)
  | false =>
      refine ⟨trivial, _, .creates start.key, fun created => ?_⟩
      cases created with
      | false => trivial
      | true =>
          have hstaged := staged_writePieces start.pieces start.key
          rw [start.whole] at hstaged
          exact hstaged

/-! ## The one key -/

/-- **Nobody has created the file.** -/
structure NoKey (stages : List KeyStage) (d : KeyDisk) : Prop where
  file : d.file = none
  outside : ∀ t ∈ stages, t = .outside

/-- **The file is on the way to one key**: at most one start writes, and what it has still to
write is what is missing; nobody has read anything else. -/
structure KeyHeld (key : Bytes) (stages : List KeyStage) (d : KeyDisk) : Prop where
  size : key.length = keySize
  file : ∃ f, d.file = some f ∧ f.data <+: key
  read : ∀ (i : Nat) (data : Bytes), stages[i]? = some (.read data) → data <+: key
  writing : ∀ (i : Nat) (k rest : Bytes), stages[i]? = some (.writing k rest) → k = key ∧
    ∃ f, d.file = some f ∧ f.data ++ rest = key
  alone : ∀ (i j : Nat) (k rest k' rest' : Bytes), stages[i]? = some (.writing k rest) →
    stages[j]? = some (.writing k' rest') → i = j

section Steps

variable {stages : List KeyStage} {d : KeyDisk} {key : Bytes} {t : KeyStage} {i : Nat}
  {β : Type} {act : KeyDisk → β × KeyDisk} {after : β → KeyStage}

theorem KeyHeld.keeps (h : KeyHeld key stages d) {d' : KeyDisk}
    (hdata : d'.file.map (·.data) = d.file.map (·.data)) : KeyHeld key stages d' := by
  have hfile : ∀ f, d.file = some f → ∃ f', d'.file = some f' ∧ f'.data = f.data := by
    intro f hf
    rw [hf] at hdata
    exact Option.map_eq_some_iff.mp hdata
  refine { h with file := ?_, writing := fun i k rest hi => ?_ }
  · obtain ⟨f, hf, hprefix⟩ := h.file
    obtain ⟨f', hf', heq⟩ := hfile f hf
    exact ⟨f', hf', heq ▸ hprefix⟩
  · obtain ⟨hk, f, hf, hrest⟩ := h.writing i k rest hi
    obtain ⟨f', hf', heq⟩ := hfile f hf
    exact ⟨hk, f', hf', heq ▸ hrest⟩

/-- A start that has not begun to write. -/
theorem KeyHeld.set (h : KeyHeld key stages d) {t' : KeyStage}
    (hwriting : ∀ k rest, t' ≠ .writing k rest) (hread : ∀ data, t' = .read data → data <+: key) :
    KeyHeld key (stages.set i t') d := by
  refine { h with
    read := fun j data hj => ?_
    writing := fun j k rest hj => ?_
    alone := fun j j' k rest k' rest' hj hj' => ?_ }
  · rcases getElem?_set_cases hj with ⟨-, hsame⟩ | ⟨-, hold⟩
    · exact hread data hsame
    · exact h.read j data hold
  · rcases getElem?_set_cases hj with ⟨-, hsame⟩ | ⟨-, hold⟩
    · exact absurd hsame (hwriting k rest)
    · exact h.writing j k rest hold
  · rcases getElem?_set_cases hj with ⟨-, hsame⟩ | ⟨-, hold⟩
    · exact absurd hsame (hwriting k rest)
    · rcases getElem?_set_cases hj' with ⟨-, hsame⟩ | ⟨-, hold'⟩
      · exact absurd hsame (hwriting k' rest')
      · exact h.alone j j' k rest k' rest' hold hold'

/-- **A step keeps the file on the way to its key.** -/
theorem KeyHeld.step (h : KeyHeld key stages d) (hact : KeySteps t act after)
    (ht : stages[i]? = some t) : KeyHeld key (stages.set i (after (act d).1)) (act d).2 := by
  cases hact with
  | looks hkeeps =>
      rw [set_stage ht]
      exact h.keeps (hkeeps d)
  | reads =>
      obtain ⟨f, hf, hprefix⟩ := h.file
      show KeyHeld key (stages.set i ((d.file.map (·.data)).elim .outside .read)) d
      rw [hf]
      refine h.set (fun k rest hnew => ?_) fun data hnew => ?_
      · cases hnew
      · cases hnew
        exact hprefix
  | creates k =>
      obtain ⟨f, hf, -⟩ := h.file
      have hcreate : createNew d = (false, d) := by rw [createNew, hf]
      rw [hcreate]
      refine h.set (fun k' rest hnew => ?_) fun data hnew => ?_
      · cases hnew
      · cases hnew
  | appends k piece rest =>
      obtain ⟨rfl, f, hf, hrest⟩ := h.writing i k (piece ++ rest) ht
      have hnew : (appendKey piece d).file = some { f with data := f.data ++ piece } := by
        rw [appendKey, hf]
        rfl
      have hwhole : f.data ++ piece ++ rest = k := by rw [List.append_assoc, hrest]
      refine ⟨h.size, ⟨_, hnew, ⟨rest, hwhole⟩⟩, fun j data hj => ?_, fun j k' rest' hj => ?_,
        fun j j' k₁ rest₁ k₂ rest₂ hj hj' => ?_⟩
      · rcases getElem?_set_cases hj with ⟨-, hsame⟩ | ⟨-, hold⟩
        · cases hsame
        · exact h.read j data hold
      · rcases getElem?_set_cases hj with ⟨-, hsame⟩ | ⟨hne, hold⟩
        · cases hsame
          exact ⟨rfl, _, hnew, hwhole⟩
        · exact absurd (h.alone i j _ _ _ _ ht hold) hne
      · rcases getElem?_set_cases hj with ⟨heq, -⟩ | ⟨hne, hold⟩
        · rcases getElem?_set_cases hj' with ⟨heq', -⟩ | ⟨hne', hold'⟩
          · exact heq.symm.trans heq'
          · exact absurd (h.alone i j' _ _ _ _ ht hold') hne'
        · exact absurd (h.alone i j _ _ _ _ ht hold) hne

/-- **The step that creates the file** decides on the key. -/
theorem NoKey.step (h : NoKey stages d) (hact : KeySteps t act after)
    (ht : stages[i]? = some t) :
    NoKey (stages.set i (after (act d).1)) (act d).2 ∨
      ∃ key, KeyHeld key (stages.set i (after (act d).1)) (act d).2 := by
  have houtside : t = .outside := h.outside t (List.mem_of_getElem? ht)
  cases hact with
  | looks hkeeps =>
      have hfile : (act d).2.file = none := by
        have hdata := hkeeps d
        rw [h.file] at hdata
        exact Option.map_eq_none_iff.mp hdata
      rw [set_stage ht]
      exact Or.inl ⟨hfile, h.outside⟩
  | reads =>
      show NoKey (stages.set i ((d.file.map (·.data)).elim .outside .read)) d ∨ _
      rw [h.file, Option.map_none, Option.elim_none, set_stage ht]
      exact Or.inl h
  | creates key =>
      have hcreate : createNew d = (true, { file := some { data := [], mode := 0o600 } }) := by
        rw [createNew, h.file]
      have hold : ∀ j t, stages[j]? = some t → t = KeyStage.outside :=
        fun j t hj => h.outside t (List.mem_of_getElem? hj)
      rw [hcreate]
      refine Or.inr ⟨key.val, key.property, ⟨_, rfl, List.nil_prefix⟩, fun j data hj => ?_,
        fun j k rest hj => ?_, fun j j' k rest k' rest' hj hj' => ?_⟩
      · rcases getElem?_set_cases hj with ⟨-, hsame⟩ | ⟨-, hj⟩
        · cases hsame
        · cases hold j _ hj
      · rcases getElem?_set_cases hj with ⟨-, hsame⟩ | ⟨-, hj⟩
        · cases hsame
          exact ⟨rfl, _, rfl, rfl⟩
        · cases hold j _ hj
      · rcases getElem?_set_cases hj with ⟨rfl, -⟩ | ⟨-, hj⟩
        · rcases getElem?_set_cases hj' with ⟨rfl, -⟩ | ⟨-, hj'⟩
          · rfl
          · cases hold j' _ hj'
        · cases hold j _ hj
  | appends k piece rest => cases houtside

/-- A start that has succeeded has the key. -/
theorem KeyHeld.succeeded (h : KeyHeld key stages d) {a : EncryptionKey}
    (ht : stages[i]? = some t) (hlooks : KeyLooks (.done a) t) : a.val = key := by
  have hlength : a.val.length = key.length := a.property.trans h.size.symm
  rcases hlooks with rfl | rfl
  · exact (h.read i a.val ht).eq_of_length hlength
  · exact (h.writing i a.val [] ht).1

theorem KeyHeld.moded (h : KeyHeld key stages d) (mode : Nat) :
    KeyHeld key stages (setMode mode d) := h.keeps (setMode_data mode d)

/-- Starts that are dropped leave the file as it is. -/
theorem KeyHeld.restarted (h : KeyHeld key stages d) (count : Nat) :
    KeyHeld key (List.replicate count .outside) d := by
  have houtside : ∀ (j : Nat) (t : KeyStage),
      (List.replicate count KeyStage.outside)[j]? = some t → t = .outside :=
    fun j t hj => List.eq_of_mem_replicate (List.mem_of_getElem? hj)
  refine ⟨h.size, h.file, fun j data hj => ?_, fun j k rest hj => ?_, fun j _ k rest _ _ hj => ?_⟩
  · cases houtside j _ hj
  · cases houtside j _ hj
  · cases houtside j _ hj

end Steps

/-! ## All boots -/

section Boots

variable {d : KeyDisk} {boot : Boot} {key : Bytes}

theorem bootPool_staged (d : KeyDisk) (boot : Boot) :
    (bootPool d boot).StagedBy KeySteps KeyLooks
      (List.replicate boot.starts.length .outside) := by
  have hall : ∀ p ∈ (bootPool d boot).threads, p.Staged KeySteps KeyLooks .outside := by
    intro p hp
    obtain ⟨start, -, rfl⟩ := List.mem_map.mp hp
    exact loadOrCreateMasterKey_staged start
  have hstaged := stagedBy_replicate hall
  rwa [bootPool, List.length_map] at hstaged

/-- What is kept by the steps holds after a boot. -/
theorem booted_keeps {J : List KeyStage → KeyDisk → Prop}
    (hkept : KeptByThreads KeySteps KeyLooks J fun (_ : KeyPool) (_ : Turn Nat) => True)
    (hworld : KeptByWorld setMode J)
    (hJ : J (List.replicate boot.starts.length .outside) d) :
    ∃ stages, (booted d boot).StagedBy KeySteps KeyLooks stages ∧
      J stages (booted d boot).state :=
  staged_after hkept hworld ⟨_, bootPool_staged d boot, hJ⟩
    (Machine.allSteps_of_forall _ (fun _ _ => trivial) _ boot.schedule)

/-- **A boot on a file that is on the way to a key**: its starts have that key. -/
theorem KeyHeld.booted (h : KeyHeld key [] d) (boot : Boot) :
    KeyHeld key [] (booted d boot).state ∧ ∀ a, ObtainsKey d boot a → a.val = key := by
  obtain ⟨stages, hstaged, hheld⟩ := booted_keeps (J := KeyHeld key)
    (fun _ _ _ _ _ _ _ hstep _ hJ => hJ.step hstep.allowed hstep.stage)
    (fun _ _ mode hJ => hJ.moded mode) (h.restarted boot.starts.length)
  refine ⟨hheld.restarted 0, fun a ha => ?_⟩
  obtain ⟨i, hi⟩ := ha
  obtain ⟨t, ht, hlooks⟩ := hstaged.returned hi
  exact hheld.succeeded ht hlooks

/-- **A boot without a file**: its starts leave none, or they agree on a key. -/
theorem booted_of_noKey (hfile : d.file = none) (boot : Boot) :
    ((booted d boot).state.file = none ∧ ∀ a, ¬ ObtainsKey d boot a) ∨
      ∃ key, KeyHeld key [] (booted d boot).state ∧ ∀ a, ObtainsKey d boot a → a.val = key := by
  obtain ⟨stages, hstaged, hnone | ⟨key, hheld⟩⟩ :=
    booted_keeps (J := fun stages d => NoKey stages d ∨ ∃ key, KeyHeld key stages d)
      (fun _ _ _ _ _ _ _ hstep _ hJ => by
        rcases hJ with hnone | ⟨key, hheld⟩
        · exact hnone.step hstep.allowed hstep.stage
        · exact Or.inr ⟨key, hheld.step hstep.allowed hstep.stage⟩)
      (fun _ _ mode hJ => by
        rcases hJ with hnone | ⟨key, hheld⟩
        · refine Or.inl ⟨?_, hnone.outside⟩
          rw [setMode, hnone.file]
          rfl
        · exact Or.inr ⟨key, hheld.moded mode⟩)
      (Or.inl ⟨hfile, fun t ht => List.eq_of_mem_replicate ht⟩)
  · refine Or.inl ⟨hnone.file, fun a ha => ?_⟩
    obtain ⟨i, hi⟩ := ha
    obtain ⟨t, ht, hlooks⟩ := hstaged.returned hi
    obtain rfl := hnone.outside t (List.mem_of_getElem? ht)
    rcases hlooks with hread | hwriting
    · cases hread
    · cases hwriting
  · refine Or.inr ⟨key, hheld.restarted 0, fun a ha => ?_⟩
    obtain ⟨i, hi⟩ := ha
    obtain ⟨t, ht, hlooks⟩ := hstaged.returned hi
    exact hheld.succeeded ht hlooks

/-- The starts of these boots have this key. -/
def AllObtain (key : Bytes) (boots : List Boot) : Prop :=
  ∀ later boot earlier, boots = later ++ boot :: earlier →
    ∀ a, ObtainsKey (keyDiskOf earlier) boot a → a.val = key

theorem AllObtain.cons {boots : List Boot} (h : AllObtain key boots)
    (hboot : ∀ a, ObtainsKey (keyDiskOf boots) boot a → a.val = key) :
    AllObtain key (boot :: boots) := by
  intro later boot' earlier hsplit a ha
  cases later with
  | nil =>
      obtain ⟨rfl, rfl⟩ := List.cons.inj hsplit
      exact hboot a ha
  | cons last later => exact h later boot' earlier (List.cons.inj hsplit).2 a ha

/-- **There is one master key.**  However often servers start, however many of them start at
once, and wherever they are stopped: all starts that ever succeed have the same key. -/
theorem oneMasterKey (boots : List Boot) : ∃ key, AllObtain key boots := by
  have hboots : ((keyDiskOf boots).file = none ∧ ∀ key, AllObtain key boots) ∨
      ∃ key, KeyHeld key [] (keyDiskOf boots) ∧ AllObtain key boots := by
    induction boots with
    | nil =>
        refine Or.inl ⟨rfl, fun key later boot earlier hsplit => ?_⟩
        cases later <;> cases hsplit
    | cons boot earlier ih =>
        rcases ih with ⟨hfile, hnone⟩ | ⟨key, hheld, hall⟩
        · rcases booted_of_noKey hfile boot with ⟨hstill, hfails⟩ | ⟨key, hheld, hsucceeds⟩
          · exact Or.inl ⟨hstill, fun key => (hnone key).cons fun a ha => absurd ha (hfails a)⟩
          · exact Or.inr ⟨key, hheld, (hnone key).cons hsucceeds⟩
        · obtain ⟨hlater, hsucceeds⟩ := hheld.booted boot
          exact Or.inr ⟨key, hlater, hall.cons hsucceeds⟩
  rcases hboots with ⟨-, hnone⟩ | ⟨key, -, hall⟩
  · exact ⟨[], hnone []⟩
  · exact ⟨key, hall⟩

/-! ## Whether a server will start again -/

/-- The file is not there, or has the size of a key. -/
def KeyDisk.Opens (d : KeyDisk) : Prop := ∀ f ∈ d.file, f.data.length = keySize

/-- **A part of a key is left**, and nobody writes on. -/
structure KeyStuck (data : Bytes) (stages : List KeyStage) (d : KeyDisk) : Prop where
  size : data.length ≠ keySize
  file : d.file.map (·.data) = some data
  stages : ∀ t ∈ stages, t = .outside ∨ t = .read data

theorem KeyStuck.step {stages : List KeyStage} {data : Bytes} {t : KeyStage} {i : Nat} {β : Type}
    {act : KeyDisk → β × KeyDisk} {after : β → KeyStage} (h : KeyStuck data stages d)
    (hact : KeySteps t act after) (ht : stages[i]? = some t) :
    KeyStuck data (stages.set i (after (act d).1)) (act d).2 := by
  have hstage := h.stages t (List.mem_of_getElem? ht)
  cases hact with
  | looks hkeeps =>
      rw [set_stage ht]
      exact { h with file := (hkeeps d).trans h.file }
  | reads =>
      show KeyStuck data (stages.set i ((d.file.map (·.data)).elim .outside .read)) d
      rw [h.file]
      refine { h with stages := fun t ht => ?_ }
      rcases List.mem_or_eq_of_mem_set ht with hold | rfl
      · exact h.stages t hold
      · exact Or.inr rfl
  | creates key =>
      obtain ⟨f, hf, -⟩ := Option.map_eq_some_iff.mp h.file
      have hcreate : createNew d = (false, d) := by rw [createNew, hf]
      rw [hcreate]
      show KeyStuck data (stages.set i .outside) d
      rw [set_stage ht]
      exact h
  | appends k piece rest =>
      rcases hstage with himpossible | himpossible
      · cases himpossible
      · cases himpossible

/-- **A boot on a part of a key** fails and leaves it. -/
theorem KeyStuck.booted {data : Bytes} (h : KeyStuck data [] d) (boot : Boot) :
    KeyStuck data [] (booted d boot).state ∧ ∀ a, ¬ ObtainsKey d boot a := by
  obtain ⟨stages, hstaged, hstuck⟩ := booted_keeps (J := KeyStuck data)
    (fun _ _ _ _ _ _ _ hstep _ hJ => hJ.step hstep.allowed hstep.stage)
    (fun _ d mode hJ => ⟨hJ.size, (setMode_data mode d).trans hJ.file, hJ.stages⟩)
    { h with stages := fun t ht => Or.inl (List.eq_of_mem_replicate ht) }
  refine ⟨{ hstuck with stages := fun t ht => absurd ht List.not_mem_nil }, fun a ha => ?_⟩
  obtain ⟨i, hi⟩ := ha
  obtain ⟨t, ht, hlooks⟩ := hstaged.returned hi
  rcases hstuck.stages t (List.mem_of_getElem? ht) with rfl | rfl
  · rcases hlooks with hread | hwriting
    · cases hread
    · cases hwriting
  · rcases hlooks with hread | hwriting
    · cases hread
      exact hstuck.size a.property
    · cases hwriting

theorem startKey_length : (List.replicate keySize (0 : UInt8)).length = keySize :=
  List.length_replicate

/-- A start by itself, with a key of zeros. -/
def zeroStart : Start where
  key := ⟨List.replicate keySize 0, startKey_length⟩
  pieces := [List.replicate keySize 0]
  whole := List.append_nil _

/-- **A start by itself succeeds** on a disk that opens. -/
theorem KeyDisk.Opens.exists_obtainsKey (h : d.Opens) : ∃ boot key, ObtainsKey d boot key := by
  let boot : Boot := { starts := [zeroStart], schedule := List.replicate 4 (.thread 0) }
  obtain ⟨file⟩ := d
  cases file with
  | none => exact ⟨boot, zeroStart.key, 0, rfl⟩
  | some f =>
      have hlength : f.data.length = keySize := h f rfl
      have hkey : keyOfData f.data = .ok ⟨f.data, hlength⟩ := dif_pos hlength
      refine ⟨boot, ⟨f.data, hlength⟩, ?_⟩
      have hcut : booted ⟨some f⟩ boot = (pool setMode (bootPool ⟨some f⟩ boot)).after
          { state := ⟨some f⟩
            threads := [(if (some f.mode).any (· % 0o1000 ≠ 0o600) then update (setMode 0o600)
              else return ()) >>= fun _ => readMasterKey] }
          [.thread 0, .thread 0] := rfl
      rw [ObtainsKey, hcut]
      by_cases hmode : f.mode % 0o1000 = 0o600
      · refine ⟨0, ?_⟩
        rw [if_neg (by simp [hmode])]
        show ((pool setMode (bootPool ⟨some f⟩ boot)).after
          { state := ⟨some f⟩, threads := [lift (keyOfData f.data)] } [.thread 0]).Returned 0 _
        rw [hkey]
        rfl
      · refine ⟨0, ?_⟩
        rw [if_pos (by simp [hmode])]
        show some (lift (keyOfData f.data)) = some (done _)
        rw [hkey]
        rfl

/-- **A server will start again** exactly if the file is not there or has the size of a key: a
start that is stopped between the creation of the file and its last piece shuts out all that
come after it. -/
theorem opensAgain_iff (boots : List Boot) :
    (∃ later boot key, ObtainsKey (keyDiskOf (later ++ boots)) boot key) ↔
      (keyDiskOf boots).Opens := by
  constructor
  · rintro ⟨later, boot, key, hsucceeds⟩ f hf
    by_contra hsize
    have hstuck : KeyStuck f.data [] (keyDiskOf (later ++ boots)) := by
      clear hsucceeds
      induction later with
      | nil =>
          refine ⟨hsize, ?_, fun t ht => absurd ht List.not_mem_nil⟩
          rw [List.nil_append, Option.mem_def.mp hf]
          rfl
      | cons last later ih => exact (ih.booted last).1
    exact (hstuck.booted boot).2 key hsucceeds
  · exact fun h => ⟨[], h.exists_obtainsKey⟩

end Boots

end Strix

import Strix.Copies
import Strix.ReadYourWrites

/-!
# Range reads

A range is cut out of the decrypted content in `usize` arithmetic, with inclusive ends; the
handler makes the end anew from the number of bytes that came back, and takes the size of
the object from its row.

* `sizesHeld_reachable`: the size in a row is that of the content of its blob, along every
  run;
* `resolveRange64_eq`: no step of the machine arithmetic overflows, and the slice lies within
  the content;
* `rangeReads_exact`: of every content and every range the store cuts out exactly the range,
  and the handler reports exactly what was cut out.
-/

namespace Strix

open AtomicProgram AtomicProgram.Prog MachineRuns RowTable

/-- AES-GCM decrypts a ciphertext to as many bytes as it has before its tag. -/
def Platform.KeepsLength (P : Platform) : Prop :=
  ∀ key nonce cipher plain, tagSize ≤ cipher.length → P.gcmDecrypt key nonce cipher = some plain →
    cipher.length = plain.length + tagSize

/-- What encryption adds to a content. -/
def sealOverhead : Option ServerSideEncryption → Nat
  | none => 0
  | some _ => nonceSize + tagSize

/-- The blob of every version is as long as its row says, up to what encryption adds. -/
def SizesHeld (w : World) : Prop :=
  ∀ r ∈ w.db.objects, r.isDeleteMarker = false → ∃ data, w.files.objects r.id = some data ∧
    data.length = r.size + sealOverhead r.encryptionAlgorithm

variable {P : Platform} {w w' : World}

/-! ## Sizes -/

theorem decryptWith_length (hkeeps : P.KeepsLength) {key : EncryptionKey} {data content : Bytes}
    (h : decryptWith P key data = .ok content) :
    data.length = content.length + (nonceSize + tagSize) := by
  have hopen : decryptAes256Gcm P key data = .ok content := by
    unfold decryptWith at h
    cases hopen : decryptAes256Gcm P key data with
    | error e => simp [hopen, Except.mapError] at h
    | ok plain => simpa [hopen, Except.mapError] using h
  unfold decryptAes256Gcm at hopen
  by_cases hshort : data.length < nonceSize + tagSize
  · simp [hshort] at hopen
  · simp only [hshort, dite_false] at hopen
    cases hplain : P.gcmDecrypt key ⟨data.take nonceSize, by rw [List.length_take]; omega⟩
        (data.drop nonceSize) with
    | none => simp [hplain] at hopen
    | some plain =>
        rw [hplain] at hopen
        obtain rfl : plain = content := Except.ok.inj hopen
        have hlength := hkeeps _ _ _ _ (by rw [List.length_drop]; omega) hplain
        rw [List.length_drop] at hlength
        omega

/-- A blob is as long as what it holds, up to what encryption adds. -/
theorem holds_length (hkeeps : P.KeepsLength) {row : ObjectRow} {sseKey : Option EncryptionKey}
    {content data : Bytes} (h : Holds P row sseKey content data) :
    data.length = content.length + sealOverhead row.encryptionAlgorithm := by
  unfold Holds at h
  cases halg : row.encryptionAlgorithm with
  | none =>
      rw [halg] at h
      rw [h, sealOverhead, Nat.add_zero]
  | some algorithm =>
      rw [halg] at h
      cases algorithm with
      | aes256 => exact decryptWith_length hkeeps h
      | sseC =>
          obtain ⟨k, -, hopen⟩ := h
          exact decryptWith_length hkeeps hopen

/-- The same of whatever a read makes of the blob. -/
theorem decryptRow_length (hkeeps : P.KeepsLength) {bucket key : String} {row : ObjectRow}
    {opts : GetObjectOpts} {data content : Bytes}
    (h : decryptRow P bucket key row opts data = .ok content) :
    data.length = content.length + sealOverhead row.encryptionAlgorithm := by
  unfold decryptRow at h
  cases halg : row.encryptionAlgorithm with
  | none =>
      rw [halg] at h
      cases h
      rfl
  | some algorithm =>
      rw [halg] at h
      cases algorithm with
      | aes256 => exact decryptWith_length hkeeps h
      | sseC =>
          cases hsent : opts.sseCustomerKey with
          | none => simp [hsent] at h
          | some keyBase64 =>
              cases hkey : customerKey P keyBase64 opts.sseCustomerKeyMd5 with
              | error e => simp [hsent, hkey] at h
              | ok sseKey =>
                  simp only [hsent, hkey] at h
                  exact decryptWith_length hkeeps h

/-- A call that writes no version keeps the sizes. -/
theorem SizesHeld.kept {op : Op} (hw : WellFormed P w) (h : SizesHeld w)
    (heffect : ObjectsEffect P w w' op) (hnone : ∀ bucket key, ¬ op.Writes P w bucket key) :
    SizesHeld w' := by
  intro r' hr' hmarker
  obtain ⟨r, hr, hsame, hold, hkept⟩ := heffect.row_unwritten hw hnone hr' hmarker
  obtain ⟨data, hblob, hsize⟩ := h r hr hold
  refine ⟨data, hkept.trans hblob, ?_⟩
  rw [hsame.eq_with]
  exact hsize

/-- A writer's new version keeps them when its own blob has the size. -/
theorem SizesHeld.install (hw' : WellFormed P w') (h : SizesHeld w) {status : VersioningStatus}
    {row : ObjectRow} (data : Bytes)
    (hobjects : w'.db.objects = insertRow row (roomMade status row.bucket row.key w.db.objects))
    (hblobs : w'.files.objects = Function.update w.files.objects row.id (some data))
    (hsize : data.length = row.size + sealOverhead row.encryptionAlgorithm) : SizesHeld w' := by
  intro r' hr' hmarker
  rcases row_of_install hw' hobjects hblobs hr' with rfl | ⟨-, r, hr, hsame, hkept⟩
  · exact ⟨data, by rw [hblobs, Function.update_self], hsize⟩
  · have hunmarked : r.isDeleteMarker = false := hsame.isDeleteMarker_eq.symm.trans hmarker
    obtain ⟨olddata, hblob, holdsize⟩ := h r hr hunmarked
    refine ⟨olddata, hkept.trans hblob, ?_⟩
    rw [hsame.eq_with]
    exact holdsize

/-- A copy's blob is as long as the source's. -/
theorem copied_length (hkeeps : P.KeepsLength) {src row : ObjectRow} {blob data : Bytes}
    (halg : row.encryptionAlgorithm = src.encryptionAlgorithm)
    (hplain : src.encryptionAlgorithm ≠ some .aes256 → data = blob)
    (hsealed : src.encryptionAlgorithm = some .aes256 →
      ∃ content, decryptSseS3 P src.bucket src.key src.versionId blob = .ok content)
    (hholds : ∀ sseKey content, Holds P src sseKey content blob →
      Holds P row sseKey content data) : data.length = blob.length := by
  by_cases haes : src.encryptionAlgorithm = some .aes256
  · obtain ⟨content, hcontent⟩ := hsealed haes
    have hsrc : Holds P src none content blob := by simpa [Holds, haes] using hcontent
    rw [holds_length hkeeps (hholds none content hsrc), holds_length hkeeps hsrc, halg]
  · rw [hplain haes]

/-- **One call keeps the sizes.** -/
theorem SizesHeld.next (hkeeps : P.KeepsLength) (hw : WellFormed P w) (h : SizesHeld w) (op : Op) :
    SizesHeld ((store P).next w op) := by
  have hw' := hw.next op
  cases op with
  | putObject bucket key body opts =>
      simp only [Machine.next, store, step, answering] at hw' ⊢
      rcases putObject_cases bucket key body opts hw.ids with ⟨-, e, n, hrun, -⟩ |
        ⟨-, status, row, sseCKey, content, data, n, hrun, -, -, -, -, hrow, hholds⟩
      · rw [hrun]
        exact h
      · rw [hrun] at hw' ⊢
        have hsize : row.size = content.length := by
          rw [hrow]
          rfl
        refine h.install hw' data rfl rfl ?_
        rw [hsize]
        exact holds_length hkeeps hholds
  | copyObject srcBucket srcKey dstBucket dstKey opts =>
      simp only [Machine.next, store, step, answering] at hw' ⊢
      rcases copyObject_cases srcBucket srcKey dstBucket dstKey opts hw.ids with
        ⟨-, e, n, hrun, -⟩ |
          ⟨⟨-, src', hsrc', -, hcopyable⟩, status, row, src, blob, data, n, hrun, -, hnew, hsrc,
            hmarker, hrow, hblob, hholds⟩
      · rw [hrun]
        exact h
      · obtain rfl : src' = src := Option.some.inj (hsrc'.symm.trans hsrc)
        have hcopied := copied_blob hrun hsrc
        rw [hrun] at hw' ⊢
        have hdata : (w.install status row data n).files.objects row.id = some data :=
          Function.update_self ..
        have halg : row.encryptionAlgorithm = src'.encryptionAlgorithm := by
          rw [hrow]
          rfl
        have hlength : data.length = blob.length := by
          refine copied_length hkeeps halg (fun hplain => ?_) (fun hsealed => ?_) hholds
          · rw [← hnew.id_eq, hdata, hblob] at hcopied
            exact Option.some.inj (hcopied hplain)
          · obtain ⟨blob', content, hblob', hcontent, -⟩ := hcopyable
            obtain rfl : blob' = blob := Option.some.inj (hblob'.symm.trans hblob)
            rw [copiedData, if_pos hsealed] at hcontent
            exact ⟨content, hcontent⟩
        obtain ⟨old, hold, hsize⟩ := h src' (selectObject_some hsrc).1 hmarker
        obtain rfl : old = blob := Option.some.inj (hold.symm.trans hblob)
        have hrowSize : row.size = src'.size := by
          rw [hrow]
          rfl
        refine h.install hw' data rfl rfl ?_
        rw [hlength, hsize, hrowSize, halg]
  | completeMultipartUpload upload parts =>
      simp only [Machine.next, store, step, answering] at hw' ⊢
      rcases completeMultipartUpload_cases upload parts hw.ids with ⟨-, e, n, hrun, -⟩ |
        ⟨-, status, row, uploadMeta, plaintext, data, n, hrun, -, -, -, -, hrow, hholds⟩
      · rw [hrun]
        exact h
      · rw [hrun] at hw' ⊢
        have hsize : row.size = plaintext.length := by
          rw [hrow]
          rfl
        refine h.install hw' data rfl rfl ?_
        rw [hsize]
        exact holds_length hkeeps (hholds none)
  | _ => exact h.kept hw (step_effect hw.ids hw.uploadIds _).objects (fun _ _ hno => hno.elim)

/-- **The size in a row is that of the content.** -/
theorem sizesHeld_reachable (hkeeps : P.KeepsLength) (h : (store P).Reachable w) : SizesHeld w :=
  (Machine.invariant_reachable (M := store P) (I := fun w => WellFormed P w ∧ SizesHeld w)
    ⟨wellFormed_init, fun _ hr => nomatch hr⟩
    (fun _ op h => ⟨h.1.next op, h.2.next hkeeps h.1 op⟩) h).2

/-! ## Machine arithmetic -/

/-- `saturating_sub`. -/
def saturatingSub (x y : UInt64) : UInt64 := if x < y then 0 else x - y

/-- `saturating_add`. -/
def saturatingAdd (x y : UInt64) : UInt64 := if x + y < x then UInt64.ofNat (2 ^ 64 - 1) else x + y

/-- The start and the length of the requested range, as `get_object` computes them. -/
def resolveRange64 (totalSize : UInt64) (reqStart : UInt64) (reqEnd : Option UInt64) :
    Except Error (UInt64 × UInt64) :=
  if totalSize = 0 then .error (.invalidRange "Range requested on empty object")
  else if totalSize ≤ reqStart then
    .error (.invalidRange ("Range start " ++ toString reqStart ++ " beyond object size " ++
      toString totalSize))
  else
    let stop := reqEnd.getD (saturatingSub totalSize 1)
    if stop < reqStart then
      .error (.invalidRange ("Range end " ++ toString stop ++ " before start " ++
        toString reqStart))
    else
      let clampedEnd := min stop (saturatingSub totalSize 1)
      .ok (reqStart, saturatingSub clampedEnd reqStart + 1)

/-- The end of the slice that is cut out. -/
def sliceEnd64 (totalSize : UInt64) (range : UInt64 × UInt64) : UInt64 :=
  range.1 + min range.2 (totalSize - range.1)

/-- The end that the handler reports of a body that starts at `start`. -/
def reportedEnd64 (start length : UInt64) : UInt64 :=
  saturatingAdd start (saturatingSub length 1)

theorem toNat_saturatingSub (x y : UInt64) :
    (saturatingSub x y).toNat = x.toNat - y.toNat := by
  unfold saturatingSub
  by_cases h : x < y
  · have hlt := UInt64.lt_iff_toNat_lt.mp h
    rw [if_pos h, Nat.sub_eq_zero_of_le (by omega)]
    rfl
  · have hle : y ≤ x := UInt64.not_lt.mp h
    rw [if_neg h, UInt64.toNat_sub_of_le _ _ hle]

theorem toNat_min (x y : UInt64) : (min x y).toNat = min x.toNat y.toNat := by
  have hmin : min x y = if x ≤ y then x else y := rfl
  rw [hmin]
  by_cases h : x ≤ y
  · rw [if_pos h, Nat.min_eq_left (UInt64.le_iff_toNat_le.mp h)]
  · have hlt := UInt64.lt_iff_toNat_lt.mp (UInt64.not_le.mp h)
    rw [if_neg h, Nat.min_eq_right (by omega)]

/-- **No step overflows:** the range is resolved as over the natural numbers. -/
theorem resolveRange64_eq (totalSize reqStart : UInt64) (reqEnd : Option UInt64) :
    (resolveRange64 totalSize reqStart reqEnd).map (fun range => (range.1.toNat, range.2.toNat)) =
      resolveRange totalSize.toNat (some (reqStart.toNat, reqEnd.map UInt64.toNat)) := by
  have hone : (1 : UInt64).toNat = 1 := rfl
  have htotal : totalSize.toNat < 2 ^ 64 := totalSize.toNat_lt
  by_cases hzero : totalSize = 0
  · subst hzero
    rfl
  · have hpositive : totalSize.toNat ≠ 0 := fun h => hzero (UInt64.toNat_inj.mp h)
    by_cases hbeyond : totalSize ≤ reqStart
    · have hbeyond' : totalSize.toNat ≤ reqStart.toNat := UInt64.le_iff_toNat_le.mp hbeyond
      simp only [resolveRange64, resolveRange, if_neg hzero, if_pos hbeyond, if_neg hpositive,
        if_pos hbeyond']
      rfl
    · have hwithin := UInt64.lt_iff_toNat_lt.mp (UInt64.not_le.mp hbeyond)
      have hbeyond' : ¬ totalSize.toNat ≤ reqStart.toNat := by omega
      have hstop : (reqEnd.getD (saturatingSub totalSize 1)).toNat =
          (reqEnd.map UInt64.toNat).getD (totalSize.toNat - 1) := by
        cases reqEnd with
        | none => exact toNat_saturatingSub totalSize 1
        | some last => rfl
      by_cases hbefore : reqEnd.getD (saturatingSub totalSize 1) < reqStart
      · have hbefore' := UInt64.lt_iff_toNat_lt.mp hbefore
        simp only [resolveRange64, resolveRange, if_neg hzero, if_neg hbeyond, if_neg hpositive,
          if_neg hbeyond', if_pos hbefore, if_pos hbefore', ← hstop]
        rfl
      · have hbefore' : ¬ (reqEnd.getD (saturatingSub totalSize 1)).toNat < reqStart.toNat :=
          fun h => hbefore (UInt64.lt_iff_toNat_lt.mpr h)
        rw [hstop] at hbefore'
        have hlength : (saturatingSub (min (reqEnd.getD (saturatingSub totalSize 1))
            (saturatingSub totalSize 1)) reqStart + 1).toNat =
            min ((reqEnd.map UInt64.toNat).getD (totalSize.toNat - 1)) (totalSize.toNat - 1) -
              reqStart.toNat + 1 := by
          rw [UInt64.toNat_add, toNat_saturatingSub, toNat_min, hstop, toNat_saturatingSub, hone,
            Nat.mod_eq_of_lt (by omega)]
        simp only [resolveRange64, resolveRange, if_neg hzero, if_neg hbeyond, if_neg hpositive,
          if_neg hbeyond', if_neg hbefore, if_neg hbefore', Except.map, hlength]

/-- **The slice lies within the content**, and its end does not overflow. -/
theorem sliceEnd64_le {totalSize reqStart : UInt64} {reqEnd : Option UInt64}
    {range : UInt64 × UInt64} (h : resolveRange64 totalSize reqStart reqEnd = .ok range) :
    (sliceEnd64 totalSize range).toNat =
        range.1.toNat + min range.2.toNat (totalSize.toNat - range.1.toNat) ∧
      range.1.toNat ≤ (sliceEnd64 totalSize range).toNat ∧
      (sliceEnd64 totalSize range).toNat ≤ totalSize.toNat := by
  have hstart : range.1 = reqStart ∧ ¬ totalSize ≤ reqStart := by
    unfold resolveRange64 at h
    by_cases hzero : totalSize = 0
    · simp [hzero] at h
    · by_cases hbeyond : totalSize ≤ reqStart
      · simp [hzero, hbeyond] at h
      · by_cases hbefore : reqEnd.getD (saturatingSub totalSize 1) < reqStart
        · simp [hzero, hbeyond, hbefore] at h
        · simp only [hzero, hbeyond, hbefore, if_false] at h
          rw [← Except.ok.inj h]
          exact ⟨rfl, hbeyond⟩
  have hwithin := UInt64.lt_iff_toNat_lt.mp (UInt64.not_le.mp hstart.2)
  rw [← hstart.1] at hwithin
  have htotal : totalSize.toNat < 2 ^ 64 := totalSize.toNat_lt
  have hrest : (totalSize - range.1).toNat = totalSize.toNat - range.1.toNat :=
    UInt64.toNat_sub_of_le _ _ (UInt64.le_iff_toNat_le.mpr (by omega))
  have hend : (sliceEnd64 totalSize range).toNat =
      range.1.toNat + min range.2.toNat (totalSize.toNat - range.1.toNat) := by
    rw [sliceEnd64, UInt64.toNat_add, toNat_min, hrest, Nat.mod_eq_of_lt (by omega)]
  exact ⟨hend, by omega, by omega⟩

/-- The end that the handler reports, in natural numbers. -/
theorem toNat_reportedEnd64 (start length : UInt64) :
    (reportedEnd64 start length).toNat =
      min (start.toNat + (length.toNat - 1)) (2 ^ 64 - 1) := by
  have hone : (1 : UInt64).toNat = 1 := rfl
  have hstart : start.toNat < 2 ^ 64 := start.toNat_lt
  have hlength : length.toNat < 2 ^ 64 := length.toNat_lt
  have hless : (saturatingSub length 1).toNat = length.toNat - 1 := toNat_saturatingSub length 1
  have hsum : (start + saturatingSub length 1).toNat =
      (start.toNat + (length.toNat - 1)) % 2 ^ 64 := by
    rw [UInt64.toNat_add, hless]
  unfold reportedEnd64 saturatingAdd
  by_cases hover : start + saturatingSub length 1 < start
  · have hover' := UInt64.lt_iff_toNat_lt.mp hover
    rw [hsum] at hover'
    have hmax : (UInt64.ofNat (2 ^ 64 - 1)).toNat = 2 ^ 64 - 1 := rfl
    rw [if_pos hover, hmax]
    omega
  · have hover' : ¬ (start + saturatingSub length 1).toNat < start.toNat :=
      fun h => hover (UInt64.lt_iff_toNat_lt.mpr h)
    rw [hsum] at hover'
    rw [if_neg hover, hsum]
    omega

/-! ## What a range asks for -/

/-- **No byte of a content of `n` bytes is asked for:** there is none, the range starts after
the last, or it ends before it starts. -/
def RangeUnsatisfiable (n first : Nat) (last : Option Nat) : Prop :=
  n = 0 ∨ n ≤ first ∨ ∃ stop ∈ last, stop < first

/-- The last byte of a range that is asked for and there. -/
def lastByte (n : Nat) (last : Option Nat) : Nat := min (last.getD (n - 1)) (n - 1)

theorem resolveRange_error_iff (n first : Nat) (last : Option Nat) :
    (∃ text, resolveRange n (some (first, last)) = .error (.invalidRange text)) ↔
      RangeUnsatisfiable n first last := by
  unfold RangeUnsatisfiable
  by_cases hempty : n = 0
  · simp [resolveRange, hempty]
  · by_cases hbeyond : n ≤ first
    · simp [resolveRange, hempty, hbeyond]
    · cases last with
      | none =>
          have hwithin : ¬ n - 1 < first := by omega
          simp [resolveRange, hempty, hbeyond, hwithin]
      | some stop =>
          by_cases hbefore : stop < first
          · simp [resolveRange, hempty, hbeyond, hbefore]
          · simp [resolveRange, hempty, hbeyond, hbefore]

/-- The last byte is at or after the first, and there. -/
theorem lastByte_bounds {n first : Nat} {last : Option Nat}
    (h : ¬ RangeUnsatisfiable n first last) : first ≤ lastByte n last ∧ lastByte n last < n := by
  have hnonempty : ¬ n = 0 := fun hempty => h (.inl hempty)
  have hwithin : ¬ n ≤ first := fun hbeyond => h (.inr (.inl hbeyond))
  unfold lastByte
  cases last with
  | none =>
      rw [Option.getD_none]
      omega
  | some stop =>
      have hafter : ¬ stop < first := fun hbefore => h (.inr (.inr ⟨stop, rfl, hbefore⟩))
      rw [Option.getD_some]
      omega

theorem resolveRange_of_satisfiable {n first : Nat} {last : Option Nat}
    (h : ¬ RangeUnsatisfiable n first last) :
    resolveRange n (some (first, last)) = .ok (first, lastByte n last - first + 1) := by
  have hnonempty : ¬ n = 0 := fun hempty => h (.inl hempty)
  have hwithin : ¬ n ≤ first := fun hbeyond => h (.inr (.inl hbeyond))
  have hafter : ¬ last.getD (n - 1) < first := by
    have := (lastByte_bounds h).1
    unfold lastByte at this
    omega
  simp only [resolveRange, if_neg hnonempty, if_neg hwithin, if_neg hafter, lastByte]

/-- **The read comes to this content:** it selects this version, whose blob decrypts to it. -/
structure ReadsContent (P : Platform) (w : World) (bucket key : String) (opts : GetObjectOpts)
    (row : ObjectRow) (plaintext : Bytes) : Prop where
  selected : selectObject bucket key opts.versionId w.db = some row
  unmarked : row.isDeleteMarker = false
  wanted : checkPreconditions row opts = .ok ()
  decrypted : ∃ data, w.files.objects row.id = some data ∧
    decryptRow P bucket key row opts data = .ok plaintext

/-- What the read makes of its content. -/
theorem ReadsContent.run {bucket key : String} {opts : GetObjectOpts} {row : ObjectRow}
    {plaintext : Bytes} (h : ReadsContent P w bucket key opts row plaintext) :
    (getObject P bucket key opts).run w =
      ((resolveRange plaintext.length opts.range).map fun range =>
        { info := row.info,
          body := (plaintext.drop range.1).take (min range.2 (plaintext.length - range.1)) }, w) := by
  obtain ⟨data, hblob, hplain⟩ := h.decrypted
  rw [getObject_run, h.selected]
  cases hrange : resolveRange plaintext.length opts.range <;>
    simp [readContent, h.unmarked, h.wanted, hblob, hplain, hrange, Except.map]

/-- The size in the row is that of the content. -/
theorem ReadsContent.size_eq (hkeeps : P.KeepsLength) (hsizes : SizesHeld w)
    {bucket key : String} {opts : GetObjectOpts} {row : ObjectRow} {plaintext : Bytes}
    (h : ReadsContent P w bucket key opts row plaintext) : row.size = plaintext.length := by
  obtain ⟨data, hblob, hplain⟩ := h.decrypted
  obtain ⟨data', hblob', hsize⟩ := hsizes row (selectObject_some h.selected).1 h.unmarked
  obtain rfl : data' = data := Option.some.inj (hblob'.symm.trans hblob)
  have hlength := decryptRow_length hkeeps hplain
  omega

/-! ## Ranges of contents -/

/-- The bytes of a range, from the first to the last. -/
def rangeBytes (plaintext : Bytes) (first : Nat) (last : Option Nat) : Bytes :=
  plaintext.extract first (lastByte plaintext.length last + 1)

theorem length_rangeBytes {plaintext : Bytes} {first : Nat} {last : Option Nat}
    (h : ¬ RangeUnsatisfiable plaintext.length first last) :
    (rangeBytes plaintext first last).length = lastByte plaintext.length last + 1 - first := by
  have hbounds := lastByte_bounds h
  simp only [rangeBytes, List.extract_eq_take_drop, List.length_take, List.length_drop]
  omega

/-- The read returns them. -/
theorem ReadsContent.run_range {bucket key : String} {opts : GetObjectOpts} {row : ObjectRow}
    {plaintext : Bytes} {first : Nat} {last : Option Nat}
    (h : ReadsContent P w bucket key opts row plaintext) (hrange : opts.range = some (first, last))
    (hsatisfiable : ¬ RangeUnsatisfiable plaintext.length first last) :
    (getObject P bucket key opts).run w =
      (.ok { info := row.info, body := rangeBytes plaintext first last }, w) := by
  have hbounds := lastByte_bounds hsatisfiable
  have hcut : min (lastByte plaintext.length last - first + 1) (plaintext.length - first) =
      lastByte plaintext.length last + 1 - first := by omega
  rw [h.run, hrange, resolveRange_of_satisfiable hsatisfiable]
  simp only [Except.map, hcut, rangeBytes, List.extract_eq_take_drop]

/-- **A range read is exact:** it is refused just when no byte is asked for, the machine's
slice lies within the content, and what comes back is the range, which the handler reports. -/
structure ExactRangeRead (P : Platform) (w : World) (bucket key : String) (opts : GetObjectOpts)
    (row : ObjectRow) (plaintext : Bytes) (totalSize first : UInt64) (last : Option UInt64) :
    Prop where
  refused : (∃ text, (getObject P bucket key opts).run w = (.error (.invalidRange text), w)) ↔
    RangeUnsatisfiable plaintext.length first.toNat (last.map UInt64.toNat)
  returned : ¬ RangeUnsatisfiable plaintext.length first.toNat (last.map UInt64.toNat) →
    (getObject P bucket key opts).run w =
      (.ok { info := row.info, body := rangeBytes plaintext first.toNat (last.map UInt64.toNat) }, w)
  resolved : (resolveRange64 totalSize first last).map
      (fun range => (range.1.toNat, range.2.toNat)) = resolveRange plaintext.length opts.range
  within : ∀ range, resolveRange64 totalSize first last = .ok range →
    (sliceEnd64 totalSize range).toNat =
        range.1.toNat + min range.2.toNat (plaintext.length - range.1.toNat) ∧
      range.1.toNat ≤ (sliceEnd64 totalSize range).toNat ∧
      (sliceEnd64 totalSize range).toNat ≤ plaintext.length
  reported : ¬ RangeUnsatisfiable plaintext.length first.toNat (last.map UInt64.toNat) →
    ∀ (caller : Caller) (input : GetObjectInput), input.bucket = bucket → input.key = key →
      input.opts caller.headers = opts → caller.check w.now "GetObject" bucket key = .ok () →
      ∃ output, (S3Service.getObject P caller input).run w = (.ok output, w) ∧
        output.body = rangeBytes plaintext first.toNat (last.map UInt64.toNat) ∧
        output.contentLength = output.body.length ∧
        (reportedEnd64 first (UInt64.ofNat output.body.length)).toNat =
          lastByte plaintext.length (last.map UInt64.toNat) ∧
        output.contentRange = some ("bytes " ++ toString first.toNat ++ "-" ++
          toString (lastByte plaintext.length (last.map UInt64.toNat)) ++ "/" ++
          toString plaintext.length)

/-- What the handler makes of the bytes of a range. -/
theorem contentRangeOf_rangeBytes {plaintext : Bytes} {first : Nat} {last : Option Nat}
    (h : ¬ RangeUnsatisfiable plaintext.length first last) (hsize : plaintext.length < 2 ^ 64) :
    min (first + ((rangeBytes plaintext first last).length - 1)) (2 ^ 64 - 1) =
      lastByte plaintext.length last := by
  have hbounds := lastByte_bounds h
  rw [length_rangeBytes h]
  omega

/-- **Range reads are exact**, whatever the content and the range. -/
theorem rangeReads_exact (hkeeps : P.KeepsLength) (hreachable : (store P).Reachable w)
    {bucket key : String} {opts : GetObjectOpts} {row : ObjectRow} {plaintext : Bytes}
    {totalSize first : UInt64} {last : Option UInt64}
    (hread : ReadsContent P w bucket key opts row plaintext)
    (htotal : plaintext.length = totalSize.toNat)
    (hrange : opts.range = some (first.toNat, last.map UInt64.toNat)) :
    ExactRangeRead P w bucket key opts row plaintext totalSize first last := by
  have hbound : plaintext.length < 2 ^ 64 := by
    rw [htotal]
    exact totalSize.toNat_lt
  refine ⟨?refused, fun hsatisfiable => hread.run_range hrange hsatisfiable, ?resolved, ?within,
    ?reported⟩
  case refused =>
    rw [← resolveRange_error_iff, hread.run, hrange]
    cases resolveRange plaintext.length (some (first.toNat, last.map UInt64.toNat)) with
    | error e => simp [Except.map]
    | ok range => simp [Except.map]
  case resolved =>
    rw [resolveRange64_eq, htotal, hrange]
  case within =>
    intro range hresolved
    rw [htotal]
    exact sliceEnd64_le hresolved
  case reported =>
    intro hsatisfiable caller input hbucket hkey hopts hallowed
    subst hbucket hkey
    have hrun := hread.run_range hrange hsatisfiable
    have hsize : row.size = plaintext.length :=
      hread.size_eq hkeeps (sizesHeld_reachable hkeeps hreachable)
    have hrequested : input.requestedRange caller.headers =
        some (first.toNat, last.map UInt64.toNat) := by
      rw [← hrange, ← hopts]
      rfl
    rw [← hopts] at hrun
    refine ⟨getObjectOutput (input.requestedRange caller.headers)
      { info := row.info,
        body := rangeBytes plaintext first.toNat (last.map UInt64.toNat) },
      ?_, rfl, ?_, ?_, ?_⟩
    · rw [S3Service.getObject, run_authorize_bind, hallowed]
      simp only [run_bind, run_ofStore_ok hrun]
      rfl
    · simp only [getObjectOutput, hrequested, Option.isSome_some, if_true]
    · have hlength : (UInt64.ofNat (rangeBytes plaintext first.toNat
          (last.map UInt64.toNat)).length).toNat =
          (rangeBytes plaintext first.toNat (last.map UInt64.toNat)).length := by
        rw [UInt64.toNat_ofNat', Nat.mod_eq_of_lt]
        rw [length_rangeBytes hsatisfiable]
        have hbounds := lastByte_bounds hsatisfiable
        omega
      simp only [getObjectOutput]
      rw [toNat_reportedEnd64, hlength, contentRangeOf_rangeBytes hsatisfiable hbound]
    · have hinfo : row.info.size = plaintext.length := hsize
      simp only [getObjectOutput, hrequested, Option.map_some, contentRangeOf,
        contentRangeOf_rangeBytes hsatisfiable hbound, hinfo]

/-- The platform on which programs run drops the tag and nothing else. -/
theorem executablePlatform_keepsLength : executablePlatform.KeepsLength := by
  intro key nonce cipher plain htag hplain
  obtain rfl : cipher.take (cipher.length - tagSize) = plain := Option.some.inj hplain
  rw [List.length_take]
  omega

/-- A range read of the letter, from its first byte on. -/
theorem rangeReads_exact_letter : ∃ row,
    ExactRangeRead executablePlatform (letterWorld {}) "docs" "k" { range := some (0, none) } row
      [97] 1 0 none := by
  obtain ⟨row, hselect⟩ : ∃ row, selectObject "docs" "k" none (letterWorld {}).db = some row :=
    Option.isSome_iff_exists.mp (by decide)
  have hfound : (selectObject "docs" "k" none (letterWorld {}).db).map
      (fun r => (r.isDeleteMarker, r.encryptionAlgorithm, (letterWorld {}).files.objects r.id)) =
        some (false, none, some [97]) := by decide
  rw [hselect] at hfound
  obtain ⟨hmarker, hrest⟩ := Prod.mk.inj (Option.some.inj hfound)
  obtain ⟨halg, hblob⟩ := Prod.mk.inj hrest
  refine ⟨row, rangeReads_exact executablePlatform_keepsLength ⟨letterRun {}, rfl⟩
    ⟨hselect, hmarker, rfl, [97], hblob, ?_⟩ rfl rfl⟩
  rw [decryptRow, halg]

end Strix

import Foco.AuditSegmentReads
import Foco.Runs

/-!
Runs of appends in which any steps fail. A new segment has its row before its file has a header, so
a failure between the two leaves an open segment that no later append gets past; otherwise the next
append succeeds.
-/
namespace Foco.AuditSegments
open Foco.RustText Foco.Maps Foco.FallibleSteps Foco.FallibleSteps.Steps Foco.Runs

/-! ## File names -/

theorem segmentFileName_inj {id other : Int} (positive : 0 < id) (positive' : 0 < other)
    (same : segmentFileName id = segmentFileName other) : id = other := by
  have digits (n : Int) (positive : 0 < n) : ∃ zeros, segmentFileName n =
      "seg-".toList ++ (List.replicate zeros '0' ++ Nat.toDigits 10 n.natAbs ++
        ".focoaud".toList) := by
    have nonneg : ¬n < 0 := by omega
    refine ⟨8 - (Nat.toDigits 10 n.natAbs).length, ?_⟩
    unfold segmentFileName
    simp only [if_neg nonneg, Nat.toList_repr, List.append_nil, List.append_assoc]
  obtain ⟨zeros, left⟩ := digits id positive
  obtain ⟨zeros', right⟩ := digits other positive'
  rw [left, right] at same
  have numbers := List.append_cancel_right (List.append_cancel_left same)
  have parsed := congrArg (Nat.ofDigitChars 10 · 0) numbers
  simp only [Nat.ofDigitChars_append, Nat.ofDigitChars_replicate_zero, Nat.mul_zero,
    Nat.ofDigitChars_ten_toDigits] at parsed
  omega

theorem segmentFileName_ne_pending (id : Int) : "pending".toList ≠ segmentFileName id := by
  intro same
  unfold segmentFileName at same
  exact absurd (congrArg List.head? same) (by simp)

/-! ## Sound worlds -/

/-- The longest record. -/
def maxRecordLen : Nat := recordHeaderLen + 2 ^ 32

/-- Every row has the name of its file, and the file of an open segment has its header. -/
structure Sound (world : World) : Prop where
  named : ∀ id row, world.rows.lookup id = some row → 0 < id ∧ row.fileName = segmentFileName id
  headed : ∀ id row, world.rows.lookup id = some row → row.closed = false →
    fileHeaderLen ≤ (world.content row.fileName).length ∧
      (world.content row.fileName).length ≤ row.byteSize + maxRecordLen

section Sound

variable {world : World} {id : Int} {row : SegmentRow}

theorem content_setFile (fileName other : Text) (bytes : Bytes) :
    (world.setFile fileName bytes).content other =
      if other = fileName then bytes else world.content other := by
  unfold World.content
  rw [lookup_setFile]
  split <;> rfl

theorem content_appendFile (fileName other : Text) (bytes : Bytes) :
    (world.appendFile fileName bytes).content other =
      if other = fileName then world.content fileName ++ bytes else world.content other :=
  content_setFile fileName other _

theorem Sound.other_name (sound : Sound world) (found : world.rows.lookup id = some row)
    {other : Int} {row' : SegmentRow} (found' : world.rows.lookup other = some row')
    (same : row'.fileName = row.fileName) : other = id := by
  obtain ⟨positive, name⟩ := sound.named id row found
  obtain ⟨positive', name'⟩ := sound.named other row' found'
  exact segmentFileName_inj positive' positive (by rw [← name, ← name', same])

/-- More bytes at the end of a file, within the room that the metadata leave. -/
theorem Sound.appendFile (sound : Sound world) (found : world.rows.lookup id = some row)
    {bytes : Bytes}
    (room : (world.content row.fileName).length + bytes.length ≤ row.byteSize + maxRecordLen) :
    Sound (world.appendFile row.fileName bytes) := by
  refine ⟨sound.named, fun other row' found' open_ => ?_⟩
  obtain ⟨header, within⟩ := sound.headed other row' found' open_
  rw [content_appendFile]
  split
  · rename_i same
    obtain rfl := sound.other_name found found' same
    obtain rfl : row = row' := Option.some.inj (found.symm.trans found')
    rw [List.length_append]
    exact ⟨by omega, room⟩
  · exact ⟨header, within⟩

/-- A change of a row that keeps its name, and the room for its file while it is open. -/
theorem Sound.updateRow (sound : Sound world) {change : SegmentRow → SegmentRow}
    (name : ∀ row, (change row).fileName = row.fileName)
    (room : ∀ row, world.rows.lookup id = some row → (change row).closed = false →
      row.closed = false ∧
        (world.content row.fileName).length ≤ (change row).byteSize + maxRecordLen) :
    Sound (world.updateRow id change) := by
  have content (fileName : Text) :
      (world.updateRow id change).content fileName = world.content fileName := by
    unfold World.content
    rw [updateRow_files]
  constructor
  · intro other row found
    rw [lookup_updateRow] at found
    split at found
    · rename_i same
      obtain ⟨old, there, rfl⟩ := Option.map_eq_some_iff.mp found
      rw [name, same]
      exact sound.named id old there
    · exact sound.named other row found
  · intro other row found open_
    rw [lookup_updateRow] at found
    rw [content]
    split at found
    · obtain ⟨old, there, rfl⟩ := Option.map_eq_some_iff.mp found
      obtain ⟨open', within⟩ := room old there open_
      rw [name]
      exact ⟨(sound.headed id old there open').1, within⟩
    · exact sound.headed other row found open_

theorem Sound.close (sound : Sound world) (id : Int) :
    Sound (world.updateRow id fun row => { row with closed := true }) :=
  sound.updateRow (fun _ => rfl) fun _ _ open_ => by cases open_

end Sound

/-! ## What an append leaves -/

/-- A failure that leaves the world sound; without faults there is none. -/
def Failed (faults : Faults) (world : World) : Prop :=
  Sound world ∧ ∃ step, faults.fails step = true

/-- A segment that is open at its end. -/
structure OpenFor (opened : Int × Text × Nat) (world : World) : Prop where
  sound : Sound world
  row : ∃ row, world.rows.lookup opened.1 = some row ∧ row.closed = false ∧
    row.fileName = opened.2.1 ∧ row.byteSize = opened.2.2
  within : (world.content opened.2.1).length ≤ opened.2.2
  small : opened.2.2 < llmAuditSegmentRotateBytes + maxRecordLen

/-- A step between the insertion of a row and the end of the header of its file fails. -/
def Faults.cutHeader (faults : Faults) : Bool :=
  faults.fails .nameRow || faults.fails .prepareFile || faults.fails .createFile ||
    (faults.fails .writeHeader && decide (faults.written < fileHeaderLen))

section Triples

variable {base : World} {faults : Faults} {fresh id : Int} {row : SegmentRow}

theorem triple_step {before : World → Prop} {step : SegmentStep} {error : LlmAuditSegmentError}
    (sound : ∀ world, before world → Sound world) :
    Triple before (attempt faults step error) (fun _ => before) (Failed faults) := by
  unfold attempt
  split
  · rename_i fails
    exact triple_fail fun world holds => ⟨sound world holds, step, fails⟩
  · exact triple_pure fun _ => fun holds => holds

theorem triple_spared {before failed : World → Prop} {step : SegmentStep}
    {error : LlmAuditSegmentError} (spared : faults.fails step = false) :
    Triple before (attempt faults step error) (fun _ => before) failed := by
  unfold attempt
  rw [spared]
  exact triple_pure fun _ => fun holds => holds

/-- A write may be cut short, if the world stays sound. -/
theorem triple_write {before after : World → Prop} {step : SegmentStep} {fileName : Text}
    {bytes : Bytes}
    (partly : ∀ world, before world → faults.fails step = true →
      Sound (world.appendFile fileName (bytes.take faults.written)))
    (wholly : ∀ world, before world → after (world.appendFile fileName bytes)) :
    Triple before (writeAll faults step fileName bytes) (fun _ => after) (Failed faults) := by
  unfold writeAll
  split
  · rename_i fails
    have first : Triple before (modify fun world : World =>
        world.appendFile fileName (bytes.take faults.written) : SegmentSteps PUnit)
        (fun _ => Sound) (Failed faults) := triple_modify fun world holds => partly world holds fails
    exact triple_bind first fun _ => triple_fail fun _ sound => ⟨sound, step, fails⟩
  · exact triple_modify wholly

theorem fileHeader_length : fileHeader.length = fileHeaderLen := rfl

/-- The row of a new segment and its file with the bytes given. -/
def World.withSegment (world : World) (fresh : Int) (bytes : Bytes) : World :=
  ((world.setRow fresh ⟨"pending".toList, false, 0⟩).updateRow fresh fun row =>
    { row with fileName := segmentFileName fresh, byteSize := fileHeaderLen }).setFile
      (segmentFileName fresh) bytes

theorem lookup_withSegment (world : World) (fresh other : Int) (bytes : Bytes) :
    (world.withSegment fresh bytes).rows.lookup other =
      if other = fresh then some ⟨segmentFileName fresh, false, fileHeaderLen⟩
      else world.rows.lookup other := by
  change ((world.setRow fresh _).updateRow fresh _).rows.lookup other = _
  rw [lookup_updateRow, lookup_setRow, lookup_setRow, if_pos rfl]
  split <;> rfl

theorem content_withSegment (world : World) (fresh : Int) (other : Text) (bytes : Bytes) :
    (world.withSegment fresh bytes).content other =
      if other = segmentFileName fresh then bytes else world.content other := by
  unfold World.withSegment
  rw [content_setFile]
  split
  · rfl
  · unfold World.content
    rw [updateRow_files]
    rfl

/-- A new segment with its header is sound. -/
theorem Sound.withSegment (sound : Sound base) (positive : 0 < fresh) :
    Sound (base.withSegment fresh fileHeader) := by
  constructor
  · intro id row found
    rw [lookup_withSegment] at found
    split at found
    · rename_i same
      obtain rfl := Option.some.inj found
      rw [same]
      exact ⟨positive, rfl⟩
    · exact sound.named id row found
  · intro id row found open_
    rw [lookup_withSegment] at found
    rw [content_withSegment]
    split at found
    · obtain rfl := Option.some.inj found
      rw [if_pos rfl, fileHeader_length]
      exact ⟨Nat.le_refl _, Nat.le_add_right _ _⟩
    · rename_i apart
      obtain ⟨positive', name⟩ := sound.named id row found
      have other : row.fileName ≠ segmentFileName fresh := fun same =>
        apart (segmentFileName_inj positive' positive (by rw [← name, same]))
      rw [if_neg other]
      exact sound.headed id row found open_

/-- The names of a new segment are free. -/
theorem Sound.not_taken (sound : Sound base) (positive : 0 < fresh) :
    base.nameTaken fresh "pending".toList = false ∧
      (base.setRow fresh ⟨"pending".toList, false, 0⟩).nameTaken fresh (segmentFileName fresh) =
        false := by
  constructor
  · refine Bool.eq_false_iff.mpr fun taken => ?_
    obtain ⟨other, row, found, holds⟩ := Map.any_eq_true.mp taken
    obtain ⟨-, same⟩ := of_decide_eq_true holds
    rw [(sound.named other row found).2] at same
    exact segmentFileName_ne_pending other same.symm
  · refine Bool.eq_false_iff.mpr fun taken => ?_
    obtain ⟨other, row, found, holds⟩ := Map.any_eq_true.mp taken
    obtain ⟨apart, same⟩ := of_decide_eq_true holds
    rw [lookup_setRow, if_neg apart] at found
    obtain ⟨positive', name⟩ := sound.named other row found
    exact apart (segmentFileName_inj positive' positive (by rw [← name, same]))

/-- Unless the header is cut, a new segment is sound whatever else fails. -/
theorem triple_createSegment_sound (sound : Sound base) (positive : 0 < fresh)
    (unused : base.rows.lookup fresh = none)
    (whole : faults.fails .insertRow = false → faults.cutHeader = false) :
    Triple (· = base) (createSegment faults fresh) OpenFor (Failed faults) := by
  obtain ⟨pendingFree, nameFree⟩ := sound.not_taken positive
  by_cases inserted : faults.fails .insertRow = true
  · intro world here
    have run : createSegment faults fresh world = (.error .sqlite, world) := by
      unfold createSegment insertSegment attempt
      rw [if_pos inserted]
      rfl
    rw [run, here]
    exact ⟨sound, .insertRow, inserted⟩
  have spared := whole (Bool.eq_false_iff.mpr inserted)
  unfold Faults.cutHeader at spared
  rw [Bool.or_eq_false_iff, Bool.or_eq_false_iff, Bool.or_eq_false_iff] at spared
  obtain ⟨⟨⟨nameRow, prepareFile⟩, createFile⟩, writeHeader⟩ := spared
  have insertion : Triple (· = base) (insertSegment faults fresh)
      (fun _ world => world = base.setRow fresh ⟨"pending".toList, false, 0⟩) (Failed faults) := by
    have looked : Triple (· = base) (view fun world : World =>
          (world.rows.lookup fresh).isSome || world.nameTaken fresh "pending".toList :
            SegmentSteps Bool)
        (fun refused world => world = base ∧ refused = false) (Failed faults) :=
      triple_view fun world here => ⟨here, by rw [here, unused, pendingFree]; rfl⟩
    refine triple_bind (triple_spared (Bool.eq_false_iff.mpr inserted)) fun _ =>
      triple_bind looked fun refused => ?_
    split
    · rename_i taken
      exact fun world holds => absurd taken (by rw [holds.2]; exact Bool.false_ne_true)
    · exact triple_modify fun world holds => by rw [holds.1]
  have naming : Triple (fun world => world = base.setRow fresh ⟨"pending".toList, false, 0⟩)
      (nameSegment faults fresh)
      (fun _ world => world = (base.setRow fresh ⟨"pending".toList, false, 0⟩).updateRow fresh
        fun row => { row with fileName := segmentFileName fresh, byteSize := fileHeaderLen })
      (Failed faults) := by
    have looked : Triple (fun world => world = base.setRow fresh ⟨"pending".toList, false, 0⟩)
        (view fun world : World => world.nameTaken fresh (segmentFileName fresh) :
          SegmentSteps Bool)
        (fun refused world => world = base.setRow fresh ⟨"pending".toList, false, 0⟩ ∧
          refused = false) (Failed faults) :=
      triple_view fun world here => ⟨here, by rw [here, nameFree]⟩
    refine triple_bind (triple_spared nameRow) fun _ => triple_bind looked fun refused => ?_
    split
    · rename_i taken
      exact fun world holds => absurd taken (by rw [holds.2]; exact Bool.false_ne_true)
    · exact triple_modify fun world holds => by rw [holds.1]
  have emptied : Triple
      (fun world => world = (base.setRow fresh ⟨"pending".toList, false, 0⟩).updateRow fresh
        fun row => { row with fileName := segmentFileName fresh, byteSize := fileHeaderLen })
      (modify fun world : World => world.setFile (segmentFileName fresh) [] : SegmentSteps PUnit)
      (fun _ world => world = base.withSegment fresh []) (Failed faults) :=
    triple_modify fun world here => by rw [here]; rfl
  have filled (bytes : Bytes) : (base.withSegment fresh []).appendFile (segmentFileName fresh)
      bytes = base.withSegment fresh bytes := by
    unfold World.appendFile
    rw [content_withSegment, if_pos rfl, List.nil_append]
    unfold World.withSegment World.setFile
    rw [AList.insert_insert]
  have headed : Triple (fun world => world = base.withSegment fresh [])
      (writeAll faults .writeHeader (segmentFileName fresh) fileHeader)
      (fun _ world => world = base.withSegment fresh fileHeader) (Failed faults) := by
    refine triple_write (fun world here fails => ?_) fun world here => by rw [here, filled]
    -- A failing write has written all of the header.
    have enough : fileHeader.length ≤ faults.written := by
      rw [fails, Bool.true_and] at writeHeader
      exact Nat.not_lt.mp (of_decide_eq_false writeHeader)
    rw [here, List.take_of_length_le enough, filled]
    exact sound.withSegment positive
  have stays (step : SegmentStep) (error : LlmAuditSegmentError) :
      Triple (fun world => world = base.withSegment fresh fileHeader)
        (attempt faults step error) (fun _ world => world = base.withSegment fresh fileHeader)
        (Failed faults) :=
    triple_step fun world here => by rw [here]; exact sound.withSegment positive
  refine triple_bind insertion fun _ => triple_bind naming fun _ =>
    triple_bind (triple_spared prepareFile) fun _ => triple_bind (triple_spared createFile) fun _ =>
    triple_bind emptied fun _ => triple_bind headed fun _ => triple_bind (stays _ _) fun _ =>
    triple_bind (stays _ _) fun _ => triple_pure fun world here => ?_
  rw [here]
  refine ⟨sound.withSegment positive, ⟨_, by rw [lookup_withSegment, if_pos rfl], rfl, rfl, rfl⟩,
    ?_, show fileHeaderLen < llmAuditSegmentRotateBytes + maxRecordLen by decide⟩
  dsimp only
  rw [content_withSegment, if_pos rfl, fileHeader_length]

/-- The file of the active segment has its header, so it can be appended to. -/
theorem triple_openActiveSegment_sound (sound : Sound base)
    (newest : base.newestOpen = some (id, row)) (open_ : row.closed = false)
    (small : row.byteSize < llmAuditSegmentRotateBytes) :
    Triple (· = base) (openActiveSegment faults id row) OpenFor (Failed faults) := by
  have found := lookup_newestOpen newest
  obtain ⟨header, within⟩ := sound.headed id row found open_
  have same : (base.appendFile row.fileName []).content row.fileName =
      base.content row.fileName := by
    rw [content_appendFile, if_pos rfl, List.append_nil]
  have touched : Sound (base.appendFile row.fileName []) := sound.appendFile found within
  have opened : Triple (· = base)
      (modify fun world : World => world.appendFile row.fileName [] : SegmentSteps PUnit)
      (fun _ world => world = base.appendFile row.fileName []) (Failed faults) :=
    triple_modify fun world here => by rw [here]
  have measured : Triple (· = base.appendFile row.fileName [])
      (view fun world : World => (world.content row.fileName).length : SegmentSteps Nat)
      (fun len world => world = base.appendFile row.fileName [] ∧
        len = (base.content row.fileName).length) (Failed faults) :=
    triple_view fun world here => ⟨here, by rw [here, same]⟩
  refine triple_bind (triple_step fun world here => by rw [here]; exact sound) fun _ =>
    triple_bind opened fun _ => triple_bind measured fun len => ?_
  split
  · rename_i short
    exact fun world holds => absurd short (by rw [holds.2]; omega)
  -- The metadata catch up with the file.
  have grown : Triple
      (fun world => world = base.appendFile row.fileName [] ∧
        len = (base.content row.fileName).length)
      (growMetadata faults id row len)
      (fun _ => OpenFor (id, row.fileName, max len row.byteSize)) (Failed faults) := by
    unfold growMetadata
    split
    · refine triple_bind (triple_step fun world holds => by rw [holds.1]; exact touched)
        fun _ => triple_modify fun world holds => ?_
      obtain ⟨rfl, rfl⟩ := holds
      have content (fileName : Text) (change : SegmentRow → SegmentRow) :
          ((base.appendFile row.fileName []).updateRow id change).content fileName =
            (base.appendFile row.fileName []).content fileName := by
        unfold World.content
        rw [updateRow_files]
      have found' : (base.appendFile row.fileName []).rows.lookup id = some row := found
      refine ⟨touched.updateRow (fun _ => rfl) ?_, ?_, ?_, ?_⟩
      · rintro other there open'
        obtain rfl := Option.some.inj (found'.symm.trans there)
        rw [same]
        exact ⟨open_, by dsimp only; omega⟩
      · dsimp only
        rw [lookup_updateRow, if_pos rfl, found']
        exact ⟨_, rfl, open_, rfl, rfl⟩
      · dsimp only
        rw [content, same]
        exact Nat.le_max_left _ _
      · dsimp only
        omega
    · rename_i caught
      refine triple_pure fun world holds => ?_
      obtain ⟨rfl, rfl⟩ := holds
      have size := Decidable.not_not.mp caught
      refine ⟨touched, ⟨row, found, open_, rfl, size.symm⟩, ?_, ?_⟩
      · dsimp only
        rw [same]
        exact Nat.le_max_left _ _
      · dsimp only
        omega
  exact triple_bind grown fun _ => triple_pure fun _ => fun holds => holds

theorem open_of_newestOpen {world : World} (newest : world.newestOpen = some (id, row)) :
    row.closed = false := by
  obtain ⟨entry, entry_mem, same⟩ := List.mem_map.mp (List.argmax_mem newest)
  obtain ⟨rfl, rfl⟩ := Prod.mk.inj same
  exact (Bool.not_eq_true' _).mp (List.mem_filter.mp entry_mem).2

/-- The call gets as far as inserting a row. -/
def World.inserts (world : World) (faults : Faults) : Bool :=
  !faults.fails .selectActive && !faults.fails .insertRow &&
    match world.newestOpen with
    | none => true
    | some (_, row) =>
      decide (llmAuditSegmentRotateBytes ≤ row.byteSize) && !faults.fails .closeOld

theorem triple_openActiveSegmentForAppend_sound (sound : Sound base) (positive : 0 < fresh)
    (unused : base.rows.lookup fresh = none)
    (whole : base.inserts faults = true → faults.cutHeader = false) :
    Triple (· = base) (openActiveSegmentForAppend faults fresh) OpenFor (Failed faults) := by
  by_cases select : faults.fails .selectActive = true
  · intro world here
    have run : openActiveSegmentForAppend faults fresh world = (.error .sqlite, world) := by
      unfold openActiveSegmentForAppend attempt
      rw [if_pos select]
      rfl
    rw [run, here]
    exact ⟨sound, .selectActive, select⟩
  have select' := Bool.eq_false_iff.mpr select
  have looked : Triple (· = base) (view World.newestOpen : SegmentSteps _)
      (fun active world => world = base ∧ active = base.newestOpen) (Failed faults) :=
    triple_view fun world here => ⟨here, by rw [here]⟩
  refine triple_bind (triple_spared select') fun _ => triple_bind looked fun active => ?_
  cases active with
  | none =>
    intro world holds
    refine triple_createSegment_sound sound positive unused (fun insert => whole ?_) world holds.1
    rw [World.inserts, select', insert, ← holds.2]
    rfl
  | some entry =>
    obtain ⟨id, row⟩ := entry
    dsimp only
    split
    · rename_i small
      intro world holds
      exact triple_openActiveSegment_sound sound holds.2.symm (open_of_newestOpen holds.2.symm)
        small world holds.1
    · rename_i full
      by_cases close : faults.fails .closeOld = true
      · intro world holds
        have run : (do
            attempt faults .closeOld .sqlite
            setClosed id
            createSegment faults fresh : SegmentSteps (Int × Text × Nat)) world =
              (.error .sqlite, world) := by
          unfold attempt
          rw [if_pos close]
          rfl
        rw [run, holds.1]
        exact ⟨sound, .closeOld, close⟩
      · have close' := Bool.eq_false_iff.mpr close
        have closing : Triple (· = base) (setClosed id : SegmentSteps PUnit)
            (fun _ world => world = base.updateRow id fun row => { row with closed := true })
            (Failed faults) := triple_modify fun world here => by rw [here]
        intro world holds
        have found := lookup_newestOpen holds.2.symm
        have apart : fresh ≠ id := by
          rintro rfl
          rw [unused] at found
          cases found
        have unused' : (base.updateRow id fun row =>
            { row with closed := true }).rows.lookup fresh = none := by
          rw [lookup_updateRow, if_neg apart, unused]
        refine triple_bind (triple_spared close') (fun _ => triple_bind closing fun _ =>
          triple_createSegment_sound (sound.close id) positive unused' fun insert => whole ?_)
            world holds.1
        rw [World.inserts, select', insert, ← holds.2]
        dsimp only
        rw [close', decide_eq_true (Nat.not_lt.mp full)]
        rfl

/-- An open segment with some of a record behind its metadata. -/
structure Written (id : Int) (fileName : Text) (startOffset : Nat) (record : Bytes) (world : World) :
    Prop where
  sound : Sound world
  row : ∃ row, world.rows.lookup id = some row ∧ row.closed = false ∧ row.fileName = fileName
  within : (world.content fileName).length ≤ startOffset + record.length

theorem OpenFor.write {fileName : Text} {startOffset : Nat} {world : World} {record part : Bytes}
    (opened : OpenFor (id, fileName, startOffset) world) (fits : record.length ≤ maxRecordLen)
    (short : part.length ≤ record.length) :
    Written id fileName startOffset record (world.appendFile fileName part) := by
  obtain ⟨row, found, open_, rfl, size⟩ := opened.row
  have within := opened.within
  dsimp only at found size within
  refine ⟨opened.sound.appendFile found (by omega), ⟨row, found, open_, rfl⟩, ?_⟩
  rw [content_appendFile, if_pos rfl, List.length_append]
  omega

/-- A record that fits leaves the world sound wherever it fails, and fails only with a fault. -/
theorem triple_appendRecord_sound (sound : Sound base) (positive : 0 < fresh)
    (unused : base.rows.lookup fresh = none)
    (whole : base.inserts faults = true → faults.cutHeader = false) {record : Bytes}
    (fits : record.length ≤ maxRecordLen) :
    Triple (· = base) (appendRecord faults fresh record) (fun _ => Sound) (Failed faults) := by
  refine triple_bind (triple_openActiveSegmentForAppend_sound sound positive unused whole)
    fun opened => ?_
  obtain ⟨id, fileName, startOffset⟩ := opened
  dsimp only
  have written : Triple (OpenFor (id, fileName, startOffset))
      (writeAll faults .writeRecord fileName record)
      (fun _ world => Written id fileName startOffset record world ∧
        startOffset < llmAuditSegmentRotateBytes + maxRecordLen) (Failed faults) :=
    triple_write
      (fun _ opened _ => (opened.write fits (List.length_take_le' faults.written record)).sound)
      fun _ opened => ⟨opened.write fits (Nat.le_refl _), opened.small⟩
  refine triple_bind written fun _ => triple_bind (triple_step fun _ holds => holds.1.sound)
    fun _ => ?_
  split
  · rename_i overflow
    -- A segment that is open for a record is far from the bound of its size.
    intro world holds
    have small := holds.2
    unfold llmAuditSegmentRotateBytes at small
    unfold maxRecordLen recordHeaderLen at small fits
    omega
  have sized : Triple (fun world => Written id fileName startOffset record world ∧
        startOffset < llmAuditSegmentRotateBytes + maxRecordLen)
      (setByteSize id (startOffset + record.length)) (fun _ => Sound) (Failed faults) := by
    refine triple_modify fun world holds => holds.1.sound.updateRow (fun _ => rfl) ?_
    intro other there open'
    obtain ⟨row, found, open_, rfl⟩ := holds.1.row
    obtain rfl := Option.some.inj (found.symm.trans there)
    exact ⟨open_, holds.1.within.trans (Nat.le_add_right _ _)⟩
  have full : Triple Sound (closeFull faults id (startOffset + record.length)) (fun _ => Sound)
      (Failed faults) := by
    unfold closeFull
    split
    · exact triple_bind (triple_step fun _ => fun sound => sound) fun _ =>
        triple_modify fun _ sound => sound.close id
    · exact triple_pure fun _ => fun sound => sound
  exact triple_bind (triple_step fun _ holds => holds.1.sound) fun _ => triple_bind sized fun _ =>
    triple_bind full fun _ => triple_pure fun _ => fun sound => sound

end Triples

/-! ## Runs -/

/-- A call of `append_detail`, the steps of it that fail, and the id that a new row is given. -/
structure Append where
  faults : Faults
  fresh : Int
  kind : LlmAuditDetailKind
  text : String

/-- The ids of new rows are positive and not in use. -/
def World.Gives (world : World) (fresh : Int) : Prop :=
  0 < fresh ∧ world.rows.lookup fresh = none

instance (world : World) (fresh : Int) : Decidable (world.Gives fresh) :=
  inferInstanceAs (Decidable (_ ∧ _))

/-- Appends to a new store, one after the other. A failure keeps what was done before it. -/
def machine (codec : Codec) : Machine World Append where
  start := ⟨∅, ∅⟩
  step world append :=
    if world.Gives append.fresh then
      some (appendDetail codec append.faults append.fresh append.kind append.text world).2
    else none

/-- If a row is inserted, no failure comes between it and the end of the header of its file. -/
def SparesHeader (codec : Codec) (world : World) (append : Append) : Prop :=
  Storable codec append.text → world.inserts append.faults = true →
    append.faults.cutHeader = false

theorem sound_start (codec : Codec) : Sound (machine codec).start :=
  ⟨fun _ _ found => (by cases found), fun _ _ found => (by cases found)⟩

section Runs

variable {codec : Codec} {base : World} {faults : Faults} {fresh : Int}
  {kind : LlmAuditDetailKind} {text : String}

theorem triple_appendDetail_sound (sound : Sound base) (gives : base.Gives fresh)
    (whole : Storable codec text → base.inserts faults = true → faults.cutHeader = false)
    (storable : Storable codec text) :
    Triple (· = base) (appendDetail codec faults fresh kind text) (fun _ => Sound)
      (Failed faults) := by
  obtain ⟨short, compressed, encoded, shortCompressed⟩ := storable
  unfold appendDetail
  dsimp only
  rw [if_neg (Nat.not_le.mpr short), encoded]
  dsimp only
  rw [if_neg (Nat.not_le.mpr shortCompressed)]
  have fits : (recordBytes kind (asBytes text) compressed
      (codec.digest (asBytes text)).bytes).length ≤ maxRecordLen := by
    rw [recordBytes_length]
    unfold maxRecordLen
    omega
  refine triple_bind (triple_appendRecord_sound sound gives.1 gives.2
    (whole ⟨short, compressed, encoded, shortCompressed⟩) fits) fun appended => ?_
  obtain ⟨segmentId, offset⟩ := appended
  exact triple_pure fun _ => fun sound => sound

/-- A payload that cannot be stored changes nothing. -/
theorem appendDetail_unstorable (unstorable : ¬Storable codec text) (world : World) :
    (appendDetail codec faults fresh kind text world).2 = world := by
  unfold appendDetail
  dsimp only
  split
  · rfl
  rename_i short
  cases encoded : codec.encodeAll (asBytes text) with
  | none => rfl
  | some compressed =>
    dsimp only
    split
    · rfl
    · rename_i shortCompressed
      exact absurd ⟨Nat.not_le.mp short, compressed, encoded, Nat.not_le.mp shortCompressed⟩
        unstorable

theorem Sound.step {world world' : World} {append : Append} (sound : Sound world)
    (spares : SparesHeader codec world append)
    (steps : (machine codec).step world append = some world') : Sound world' := by
  obtain ⟨gives, same⟩ := Option.ite_none_right_eq_some.mp steps
  obtain rfl := Option.some.inj same
  by_cases storable : Storable codec append.text
  · have triple : Triple (· = world)
        (appendDetail codec append.faults append.fresh append.kind append.text) (fun _ => Sound)
        (Failed append.faults) := triple_appendDetail_sound sound gives spares storable
    rcases outcome : appendDetail codec append.faults append.fresh append.kind append.text world
      with ⟨_ | _, world'⟩
    · exact (triple.of_error rfl outcome).1
    · exact triple.of_ok rfl outcome
  · rwa [appendDetail_unstorable storable]

theorem step_of_gives {world : World} {append : Append} (gives : world.Gives append.fresh) :
    (machine codec).step world append =
      some (appendDetail codec append.faults append.fresh append.kind append.text world).2 :=
  if_pos gives

/-- In a run whose failures spare the headers of new segments, an append without failures
succeeds. -/
theorem append_succeeds_of_sparesHeader (codec : Codec) {world : World}
    (reached : (machine codec).ReachableWhile (SparesHeader codec) world)
    (kind : LlmAuditDetailKind) {text : String} (storable : Storable codec text) {fresh : Int}
    (gives : world.Gives fresh) :
    ∃ locator, (appendDetail codec noFaults fresh kind text world).1 = .ok locator := by
  have sound : Sound world :=
    reached.invariant (sound_start codec) fun _ _ _ sound spares steps => sound.step spares steps
  have triple : Triple (· = world) (appendDetail codec noFaults fresh kind text) (fun _ => Sound)
      (Failed noFaults) := triple_appendDetail_sound sound gives (fun _ _ => rfl) storable
  rcases outcome : appendDetail codec noFaults fresh kind text world with ⟨_ | locator, world'⟩
  · obtain ⟨-, step, fails⟩ := triple.of_error rfl outcome
    cases fails
  · exact ⟨locator, rfl⟩

end Runs

/-- The first append to a new store, which fails at one step. -/
def failedAt (step : SegmentStep) : Append where
  faults := ⟨fun other => decide (other = step), 0⟩
  fresh := 1
  kind := .request
  text := ""

theorem storable_empty : Storable plainCodec "" := ⟨by decide, [], rfl, by decide⟩

/-- A record that could not be written does no harm. -/
theorem append_succeeds_behind_failedRecord :
    ∃ world, (machine plainCodec).step (machine plainCodec).start (failedAt .writeRecord) =
        some world ∧
      ∃ locator, (appendDetail plainCodec noFaults 2 .response "" world).1 = .ok locator := by
  have gives : (machine plainCodec).start.Gives 1 := by decide
  have step : (machine plainCodec).step (machine plainCodec).start (failedAt .writeRecord) =
      some (appendDetail plainCodec (failedAt .writeRecord).faults 1 .request ""
        (machine plainCodec).start).2 := step_of_gives gives
  have later : (appendDetail plainCodec (failedAt .writeRecord).faults 1 .request ""
      (machine plainCodec).start).2.Gives 2 := by decide
  exact ⟨_, step, append_succeeds_of_sparesHeader plainCodec
    (.next .start (fun _ _ => rfl) step) .response storable_empty later⟩

/-- Behind a segment file that could not be created no append succeeds. -/
theorem append_fails_behind_missingFile :
    ∃ world, (machine plainCodec).Reachable world ∧ Storable plainCodec "" ∧ world.Gives 2 ∧
      ∀ locator, (appendDetail plainCodec noFaults 2 .response "" world).1 ≠ .ok locator := by
  have gives : (machine plainCodec).start.Gives 1 := by decide
  have step : (machine plainCodec).step (machine plainCodec).start (failedAt .createFile) =
      some (appendDetail plainCodec (failedAt .createFile).faults 1 .request ""
        (machine plainCodec).start).2 := step_of_gives gives
  refine ⟨_, .next .start trivial step, storable_empty, by decide, fun locator ok => ?_⟩
  have fails : (appendDetail plainCodec noFaults 2 .response ""
      (appendDetail plainCodec (failedAt .createFile).faults 1 .request ""
        (machine plainCodec).start).2).1.isOk = false := by decide
  rw [ok] at fails
  cases fails

end Foco.AuditSegments

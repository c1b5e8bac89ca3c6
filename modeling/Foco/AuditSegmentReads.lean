import Foco.AuditSegments

/-!
What a locator reads: a record as it was appended, also after later appends, unless the metadata of
the segment says that its file is longer than it is.
-/
namespace Foco.AuditSegments
open Foco.RustText Foco.Maps Foco.FallibleSteps Foco.FallibleSteps.Steps Foco.LittleEndian

/-! ## Records -/

/-- A header and what follows it, as a locator asks for them. -/
structure IsRecord (codec : Codec) (locator : LlmAuditDetailLocator) (text : String)
    (header compressed : Bytes) : Prop where
  magic : header.take 4 = recordMagic
  kind : header[4]? = some 1 ∨ header[4]? = some 2
  uncompressedLen : ofBytes ((header.drop 8).take 4) = locator.uncompressedLen
  compressedLen : ofBytes ((header.drop 12).take 4) = locator.compressedLen
  decoded : ∃ plain, codec.decodeAll compressed = some plain ∧
    plain.length = locator.uncompressedLen ∧ (codec.digest plain).bytes = header.drop 16 ∧
    hexEncode (codec.digest plain).bytes = locator.sha256Hex ∧ fromUtf8 plain = some text

section Records

variable {codec : Codec} {locator : LlmAuditDetailLocator} {text : String} {rest more : Bytes}

/-- What is read is a record. -/
theorem isRecord_of_readRecord (ok : readRecord codec rest locator = .ok text) :
    recordHeaderLen + locator.compressedLen ≤ rest.length ∧
      IsRecord codec locator text (rest.take recordHeaderLen)
        ((rest.drop recordHeaderLen).take locator.compressedLen) := by
  unfold readRecord at ok
  dsimp only at ok
  split at ok
  · contradiction
  rename_i long
  split at ok
  · contradiction
  rename_i magic
  split at ok
  · contradiction
  rename_i kind
  split at ok
  · contradiction
  rename_i lengths
  obtain ⟨uncompressedLen, compressedLen⟩ := not_or.mp lengths
  rw [not_not] at uncompressedLen compressedLen
  rw [compressedLen] at ok
  split at ok
  · contradiction
  rename_i enough
  cases decoded : codec.decodeAll ((rest.drop recordHeaderLen).take locator.compressedLen) with
  | none =>
    rw [decoded] at ok
    contradiction
  | some plain =>
    rw [decoded] at ok
    dsimp only at ok
    split at ok
    · contradiction
    rename_i plainLength
    split at ok
    · contradiction
    rename_i digest
    split at ok
    · contradiction
    rename_i hex
    cases utf8 : fromUtf8 plain with
    | none =>
      rw [utf8] at ok
      contradiction
    | some read =>
      rw [utf8] at ok
      obtain rfl : read = text := by simpa using ok
      refine ⟨?_, not_not.mp magic, ?_, uncompressedLen, compressedLen, plain, decoded, ?_,
        not_not.mp digest, not_not.mp hex, utf8⟩
      · rw [List.length_take] at long enough
        rw [List.length_drop] at enough
        omega
      · rw [not_and_or, not_not, not_not] at kind
        exact kind
      · rw [not_not.mp plainLength, uncompressedLen]

theorem readRecord_of_isRecord (long : recordHeaderLen + locator.compressedLen ≤ rest.length)
    (record : IsRecord codec locator text (rest.take recordHeaderLen)
      ((rest.drop recordHeaderLen).take locator.compressedLen)) :
    readRecord codec rest locator = .ok text := by
  obtain ⟨magic, kind, uncompressedLen, compressedLen, plain, decoded, plainLength, digest, hex,
    utf8⟩ := record
  have full : ¬(rest.take recordHeaderLen).length < recordHeaderLen := by
    rw [List.length_take]
    omega
  have enough : ¬((rest.drop recordHeaderLen).take locator.compressedLen).length <
      locator.compressedLen := by
    rw [List.length_take, List.length_drop]
    omega
  have known : ¬((rest.take recordHeaderLen)[4]? ≠ some 1 ∧
      (rest.take recordHeaderLen)[4]? ≠ some 2) := by
    rw [not_and_or, not_not, not_not]
    exact kind
  unfold readRecord
  dsimp only
  rw [if_neg full, if_neg (not_not.mpr magic), if_neg known, uncompressedLen, compressedLen,
    if_neg (by simp), if_neg enough, decoded]
  dsimp only
  rw [if_neg (not_not.mpr plainLength), if_neg (not_not.mpr digest), if_neg (not_not.mpr hex),
    utf8]

theorem readRecord_eq_ok : readRecord codec rest locator = .ok text ↔
    recordHeaderLen + locator.compressedLen ≤ rest.length ∧
      IsRecord codec locator text (rest.take recordHeaderLen)
        ((rest.drop recordHeaderLen).take locator.compressedLen) :=
  ⟨isRecord_of_readRecord, fun ⟨long, record⟩ => readRecord_of_isRecord long record⟩

/-- What follows a record does not matter. -/
theorem readRecord_append (ok : readRecord codec rest locator = .ok text) (more : Bytes) :
    readRecord codec (rest ++ more) locator = .ok text := by
  obtain ⟨long, record⟩ := readRecord_eq_ok.mp ok
  refine readRecord_eq_ok.mpr ⟨by rw [List.length_append]; omega, ?_⟩
  rw [List.take_append_of_le_length (by omega), List.drop_append_of_le_length (by omega),
    List.take_append_of_le_length (by rw [List.length_drop]; omega)]
  exact record

theorem recordMagic_length : recordMagic.length = 4 := by decide

theorem recordBytes_length (kind : LlmAuditDetailKind) (plain compressed : Bytes)
    (digest : Digest) :
    (recordBytes kind plain compressed digest.bytes).length =
      recordHeaderLen + compressed.length := by
  unfold recordBytes recordHeaderLen
  simp only [List.length_append, recordMagic_length, toBytes_length, digest.length,
    List.length_cons, List.length_nil]

/-- The header of a record in its parts. -/
def recordHeader (kind : LlmAuditDetailKind) (plain compressed digest : Bytes) : Bytes :=
  (recordMagic ++ [kind.code, 0] ++ toBytes 2 0) ++
    (toBytes 4 plain.length ++ (toBytes 4 compressed.length ++ digest))

theorem recordBytes_eq (kind : LlmAuditDetailKind) (plain compressed digest : Bytes) :
    recordBytes kind plain compressed digest =
      recordHeader kind plain compressed digest ++ compressed := by
  simp [recordBytes, recordHeader]

theorem recordHeader_length (kind : LlmAuditDetailKind) (plain compressed : Bytes)
    (digest : Digest) :
    (recordHeader kind plain compressed digest.bytes).length = recordHeaderLen := by
  have whole := recordBytes_length kind plain compressed digest
  rw [recordBytes_eq, List.length_append] at whole
  omega

/-- A record as it is appended reads back. -/
theorem readRecord_recordBytes (kind : LlmAuditDetailKind) {compressed : Bytes}
    (lossless : codec.Lossless) (encoded : codec.encodeAll (asBytes text) = some compressed)
    (short : (asBytes text).length < 2 ^ 32) (shortCompressed : compressed.length < 2 ^ 32)
    (segmentId : Int) (offset : Nat) :
    readRecord codec (recordBytes kind (asBytes text) compressed (codec.digest (asBytes text)).bytes)
      ⟨segmentId, offset, compressed.length, (asBytes text).length,
        hexEncode (codec.digest (asBytes text)).bytes⟩ = .ok text := by
  refine readRecord_eq_ok.mpr ⟨by rw [recordBytes_length], ?_⟩
  have header := recordHeader_length kind (asBytes text) compressed (codec.digest (asBytes text))
  have start : (recordMagic ++ [kind.code, 0] ++ toBytes 2 0).length = 8 := by
    simp [recordMagic_length]
  rw [recordBytes_eq, List.take_left' header, List.drop_left' header, List.take_length]
  unfold recordHeader
  refine ⟨?_, ?_, ?_, ?_, asBytes text, lossless _ _ encoded, rfl, ?_, rfl, fromUtf8_asBytes text⟩
  · rw [List.append_assoc, List.append_assoc, List.take_left' recordMagic_length]
  · have fifth : (recordMagic ++ [kind.code, 0] ++ toBytes 2 0 ++
        (toBytes 4 (asBytes text).length ++
          (toBytes 4 compressed.length ++ (codec.digest (asBytes text)).bytes)))[4]? =
        some kind.code := by
      rw [List.append_assoc, List.append_assoc, List.getElem?_append_right (by
        rw [recordMagic_length]), recordMagic_length]
      rfl
    rw [fifth]
    cases kind with
    | request => exact .inl rfl
    | response => exact .inr rfl
  · rw [List.drop_left' start, List.take_left' (toBytes_length 4 _),
      ofBytes_toBytes (by omega)]
  · have twelve : (recordMagic ++ [kind.code, 0] ++ toBytes 2 0 ++
        toBytes 4 (asBytes text).length).length = 12 := by
      rw [List.length_append, start, toBytes_length]
    rw [← List.append_assoc, List.drop_left' twelve, List.take_left' (toBytes_length 4 _),
      ofBytes_toBytes (by omega)]
  · have sixteen : (recordMagic ++ [kind.code, 0] ++ toBytes 2 0 ++
        toBytes 4 (asBytes text).length ++ toBytes 4 compressed.length).length = 16 := by
      rw [List.length_append, List.length_append, start, toBytes_length, toBytes_length]
    rw [← List.append_assoc, ← List.append_assoc, List.drop_left' sixteen]

end Records

/-! ## What stays -/

/-- The rows stay with their file names, and the files only grow. -/
def World.Kept (world world' : World) : Prop :=
  ∀ id row, world.rows.lookup id = some row →
    ∃ row', world'.rows.lookup id = some row' ∧ row'.fileName = row.fileName ∧
      ∀ bytes, world.files.lookup row.fileName = some bytes →
        ∃ more, world'.files.lookup row.fileName = some (bytes ++ more)

section Kept

variable {base world : World} {id : Int} {row : SegmentRow} {fileName : Text} {bytes : Bytes}

theorem kept_refl (world : World) : world.Kept world :=
  fun _ row found => ⟨row, found, rfl, fun bytes there => ⟨[], by rw [there, List.append_nil]⟩⟩

@[simp] theorem lookup_setRow (other : Int) : (world.setRow id row).rows.lookup other =
    if other = id then some row else world.rows.lookup other :=
  Map.lookup_insert_eq_ite _

@[simp] theorem lookup_setFile (other : Text) : (world.setFile fileName bytes).files.lookup other =
    if other = fileName then some bytes else world.files.lookup other :=
  Map.lookup_insert_eq_ite _

theorem kept_setRow (kept : base.Kept world) (absent : base.rows.lookup id = none) :
    base.Kept (world.setRow id row) := by
  intro other row' found
  obtain ⟨row'', found', name, files⟩ := kept other row' found
  refine ⟨row'', ?_, name, files⟩
  have apart : other ≠ id := by
    rintro rfl
    rw [absent] at found
    contradiction
  rw [lookup_setRow, if_neg apart, found']

theorem updateRow_files {change : SegmentRow → SegmentRow} :
    (world.updateRow id change).files = world.files := by
  unfold World.updateRow
  split <;> rfl

theorem lookup_updateRow {change : SegmentRow → SegmentRow} (other : Int) :
    (world.updateRow id change).rows.lookup other =
      if other = id then (world.rows.lookup id).map change else world.rows.lookup other := by
  unfold World.updateRow
  split
  · rename_i row found
    rw [lookup_setRow, found, Option.map_some]
  · rename_i absent
    by_cases same : other = id
    · rw [if_pos same, same, absent, Option.map_none]
    · rw [if_neg same]

/-- An update keeps a row's name, or is one of a row that was not there. -/
theorem kept_updateRow {change : SegmentRow → SegmentRow} (kept : base.Kept world)
    (named : (∀ row, (change row).fileName = row.fileName) ∨ base.rows.lookup id = none) :
    base.Kept (world.updateRow id change) := by
  intro other row found
  obtain ⟨row', found', name, files⟩ := kept other row found
  rw [updateRow_files, lookup_updateRow]
  by_cases same : other = id
  · subst other
    obtain same_name | absent := named
    · rw [if_pos rfl, found']
      exact ⟨change row', rfl, by rw [same_name, name], files⟩
    · rw [absent] at found
      contradiction
  · rw [if_neg same]
    exact ⟨row', found', name, files⟩

theorem kept_appendFile (kept : base.Kept world) (fileName : Text) (bytes : Bytes) :
    base.Kept (world.appendFile fileName bytes) := by
  intro other row found
  obtain ⟨row', found', name, files⟩ := kept other row found
  refine ⟨row', found', name, fun old there => ?_⟩
  obtain ⟨more, grown⟩ := files old there
  unfold World.appendFile World.content
  rw [lookup_setFile]
  by_cases same : row.fileName = fileName
  · subst fileName
    rw [if_pos rfl, grown, Option.getD_some, List.append_assoc]
    exact ⟨more ++ bytes, rfl⟩
  · rw [if_neg same]
    exact ⟨more, grown⟩

theorem kept_setFile (kept : base.Kept world)
    (unnamed : ∀ id row, base.rows.lookup id = some row → row.fileName ≠ fileName) :
    base.Kept (world.setFile fileName bytes) := by
  intro other row found
  obtain ⟨row', found', name, files⟩ := kept other row found
  refine ⟨row', found', name, fun old there => ?_⟩
  rw [lookup_setFile, if_neg (unnamed other row found)]
  exact files old there

/-- A locator still reads what it read. -/
theorem Kept.readDetail {codec : Codec} {locator : LlmAuditDetailLocator} {text : String}
    (kept : base.Kept world) (ok : readDetail codec base locator = .ok text) :
    readDetail codec world locator = .ok text := by
  unfold AuditSegments.readDetail at ok ⊢
  cases found : base.rows.lookup locator.segmentId with
  | none =>
    rw [found] at ok
    contradiction
  | some row =>
    rw [found] at ok
    dsimp only at ok
    obtain ⟨row', found', name, files⟩ := kept _ row found
    cases there : base.files.lookup row.fileName with
    | none =>
      rw [there] at ok
      contradiction
    | some bytes =>
      rw [there] at ok
      dsimp only at ok
      obtain ⟨more, grown⟩ := files bytes there
      rw [found']
      dsimp only
      rw [name, grown]
      dsimp only
      have inside : locator.offset ≤ bytes.length := by
        have long := (readRecord_eq_ok.mp ok).1
        rw [List.length_drop] at long
        unfold recordHeaderLen at long
        omega
      rw [List.drop_append_of_le_length inside]
      exact readRecord_append ok more

end Kept

/-! ## What the steps do -/

/-- The newest open segment is to be appended to, and its metadata is ahead of its file. -/
def World.MetadataAhead (world : World) : Prop :=
  ∃ id row, world.newestOpen = some (id, row) ∧ row.byteSize < llmAuditSegmentRotateBytes ∧
    fileHeaderLen ≤ (world.content row.fileName).length ∧
    (world.content row.fileName).length < row.byteSize

/-- An open segment file: where its end is, and where the locator will say that it is. -/
structure Opened (base : World) (opened : Int × Text × Nat) (world : World) : Prop where
  kept : base.Kept world
  row : ∃ row, world.rows.lookup opened.1 = some row ∧ row.fileName = opened.2.1
  file : ∃ bytes, world.files.lookup opened.2.1 = some bytes ∧
    (base.MetadataAhead → bytes.length < opened.2.2) ∧
    (¬base.MetadataAhead → bytes.length = opened.2.2)

section StepTriples

variable {base : World} {faults : Faults} {fresh id : Int}

theorem triple_attempt {before failed : World → Prop} {step : SegmentStep}
    {error : LlmAuditSegmentError} (holds : ∀ world, before world → failed world) :
    Triple before (attempt faults step error) (fun _ => before) failed := by
  unfold attempt
  split
  · exact triple_fail holds
  · exact triple_pure fun _ => id

theorem triple_writeAll {before after failed : World → Prop} {step : SegmentStep}
    {fileName : Text} {bytes : Bytes}
    (partly : ∀ world written, before world → failed (world.appendFile fileName (bytes.take written)))
    (wholly : ∀ world, before world → after (world.appendFile fileName bytes)) :
    Triple before (writeAll faults step fileName bytes) (fun _ => after) failed := by
  unfold writeAll
  split
  · have first : Triple before (modify fun world : World =>
        world.appendFile fileName (bytes.take faults.written) : SegmentSteps PUnit)
        (fun _ => failed) failed := triple_modify fun world holds => partly world _ holds
    exact triple_bind first fun _ => triple_fail fun _ => id
  · exact triple_modify wholly

/-- A new row of a segment. -/
structure Inserted (base : World) (fresh : Int) (world : World) : Prop where
  kept : base.Kept world
  absent : base.rows.lookup fresh = none
  row : ∃ row, world.rows.lookup fresh = some row

/-- A new row with the name of its file, which is not a file of another segment. -/
structure Named (base : World) (fresh : Int) (world : World) : Prop where
  kept : base.Kept world
  row : ∃ row, world.rows.lookup fresh = some row ∧ row.fileName = segmentFileName fresh
  unnamed : ∀ id row, base.rows.lookup id = some row → row.fileName ≠ segmentFileName fresh

theorem triple_insertSegment :
    Triple base.Kept (insertSegment faults fresh) (fun _ => Inserted base fresh) base.Kept := by
  have looked : Triple base.Kept
      (view fun world : World => (world.rows.lookup fresh).isSome ||
        world.nameTaken fresh "pending".toList : SegmentSteps Bool)
      (fun refused world => base.Kept world ∧
        (refused = false → world.rows.lookup fresh = none)) base.Kept := by
    refine triple_view fun world kept => ⟨kept, fun free => ?_⟩
    rw [Bool.or_eq_false_iff] at free
    exact Option.not_isSome_iff_eq_none.mp (by simp [free.1])
  refine triple_bind (triple_attempt fun _ => id) fun _ => triple_bind looked fun refused => ?_
  split
  · exact triple_fail fun world holds => holds.1
  · rename_i free
    refine triple_modify fun world holds => ?_
    have absent' := holds.2 (by simpa using free)
    have absent : base.rows.lookup fresh = none := by
      by_contra there
      obtain ⟨row, found⟩ := Option.ne_none_iff_exists'.mp there
      obtain ⟨row', found', _⟩ := holds.1 fresh row found
      rw [absent'] at found'
      contradiction
    exact ⟨kept_setRow holds.1 absent, absent, _, by rw [lookup_setRow, if_pos rfl]⟩

theorem triple_nameSegment :
    Triple (Inserted base fresh) (nameSegment faults fresh) (fun _ => Named base fresh)
      base.Kept := by
  have looked : Triple (Inserted base fresh)
      (view fun world : World => world.nameTaken fresh (segmentFileName fresh) : SegmentSteps Bool)
      (fun refused world => Inserted base fresh world ∧
        (refused = false → ∀ id row, base.rows.lookup id = some row →
          row.fileName ≠ segmentFileName fresh)) base.Kept := by
    refine triple_view fun world inserted => ⟨inserted, fun free id row found same => ?_⟩
    obtain ⟨row', found', name, _⟩ := inserted.kept id row found
    have apart : id ≠ fresh := by
      rintro rfl
      rw [inserted.absent] at found
      contradiction
    have taken : world.nameTaken fresh (segmentFileName fresh) = true :=
      Map.any_eq_true.mpr ⟨id, row', found', by simp [apart, name, same]⟩
    rw [taken] at free
    contradiction
  refine triple_bind (triple_attempt fun _ inserted => inserted.kept) fun _ =>
    triple_bind looked fun refused => ?_
  split
  · exact triple_fail fun world holds => holds.1.kept
  · rename_i free
    refine triple_modify fun world holds => ?_
    obtain ⟨row, found⟩ := holds.1.row
    refine ⟨kept_updateRow holds.1.kept (.inr holds.1.absent), ?_, holds.2 (by simpa using free)⟩
    rw [lookup_updateRow, if_pos rfl, found]
    exact ⟨_, rfl, rfl⟩

/-- A new segment has an empty file with a header. -/
theorem triple_createSegment (behind : ¬base.MetadataAhead) :
    Triple base.Kept (createSegment faults fresh) (Opened base) base.Kept := by
  have named (step : SegmentStep) (error : LlmAuditSegmentError) :
      Triple (Named base fresh) (attempt faults step error) (fun _ => Named base fresh)
        base.Kept := triple_attempt fun _ named => named.kept
  have written (step : SegmentStep) (error : LlmAuditSegmentError) :
      Triple (fun world => Named base fresh world ∧
          world.files.lookup (segmentFileName fresh) = some fileHeader)
        (attempt faults step error)
        (fun _ world => Named base fresh world ∧
          world.files.lookup (segmentFileName fresh) = some fileHeader) base.Kept :=
    triple_attempt fun _ holds => holds.1.kept
  have emptied : Triple (Named base fresh)
      (modify fun world : World => world.setFile (segmentFileName fresh) [] : SegmentSteps PUnit)
      (fun _ world => Named base fresh world ∧ world.content (segmentFileName fresh) = [])
      base.Kept := by
    refine triple_modify fun world named => ?_
    refine ⟨⟨kept_setFile named.kept named.unnamed, named.row, named.unnamed⟩, ?_⟩
    unfold World.content
    rw [lookup_setFile, if_pos rfl]
    rfl
  have headed : Triple
      (fun world => Named base fresh world ∧ world.content (segmentFileName fresh) = [])
      (writeAll faults .writeHeader (segmentFileName fresh) fileHeader)
      (fun _ world => Named base fresh world ∧
        world.files.lookup (segmentFileName fresh) = some fileHeader) base.Kept := by
    refine triple_writeAll (fun world _ holds => kept_appendFile holds.1.kept _ _)
      fun world holds => ⟨⟨kept_appendFile holds.1.kept _ _, holds.1.row, holds.1.unnamed⟩, ?_⟩
    unfold World.appendFile
    rw [lookup_setFile, if_pos rfl, holds.2, List.nil_append]
  refine triple_bind triple_insertSegment fun _ => triple_bind triple_nameSegment fun _ =>
    triple_bind (named _ _) fun _ => triple_bind (named _ _) fun _ => triple_bind emptied fun _ =>
    triple_bind headed fun _ => triple_bind (written _ _) fun _ => triple_bind (written _ _) fun _ =>
    triple_pure fun world holds => ?_
  obtain ⟨named, file⟩ := holds
  exact ⟨named.kept, named.row, fileHeader, file, fun ahead => absurd ahead behind, fun _ => rfl⟩

theorem lookup_newestOpen {world : World} {row : SegmentRow}
    (newest : world.newestOpen = some (id, row)) : world.rows.lookup id = some row := by
  obtain ⟨entry, entry_mem, same⟩ := List.mem_map.mp (List.argmax_mem newest)
  obtain ⟨rfl, rfl⟩ := Prod.mk.inj same
  exact Map.mem_entries_iff.mp (List.mem_filter.mp entry_mem).1

theorem kept_setByteSize {world : World} (kept : base.Kept world) (size : Nat) :
    base.Kept (world.updateRow id fun row => { row with byteSize := size }) :=
  kept_updateRow kept (.inl fun _ => rfl)

/-- The active segment, with its file as it is. -/
theorem triple_openActiveSegment {row : SegmentRow} (newest : base.newestOpen = some (id, row))
    (small : row.byteSize < llmAuditSegmentRotateBytes) :
    Triple (· = base) (openActiveSegment faults id row) (Opened base) base.Kept := by
  have found := lookup_newestOpen newest
  have initial : base.Kept (base.appendFile row.fileName []) := kept_appendFile (kept_refl _) _ _
  have file : (base.appendFile row.fileName []).files.lookup row.fileName =
      some (base.content row.fileName) := by
    unfold World.appendFile
    rw [lookup_setFile, if_pos rfl, List.append_nil]
  have same : (base.appendFile row.fileName []).content row.fileName =
      base.content row.fileName := by
    conv_lhs => unfold World.content
    rw [file, Option.getD_some]
  have opened : Triple (· = base)
      (modify fun world : World => world.appendFile row.fileName [] : SegmentSteps PUnit)
      (fun _ world => world = base.appendFile row.fileName []) base.Kept :=
    triple_modify fun world here => by rw [here]
  have measured : Triple (· = base.appendFile row.fileName [])
      (view fun world : World => (world.content row.fileName).length : SegmentSteps Nat)
      (fun len world => world = base.appendFile row.fileName [] ∧
        len = (base.content row.fileName).length) base.Kept :=
    triple_view fun world here => ⟨here, by rw [here, same]⟩
  refine triple_bind (triple_attempt fun world here => by rw [here]; exact kept_refl _) fun _ =>
    triple_bind opened fun _ => triple_bind measured fun len => ?_
  split
  · exact triple_fail fun world holds => by rw [holds.1]; exact initial
  rename_i long
  have grown : Triple
      (fun world => world = base.appendFile row.fileName [] ∧
        len = (base.content row.fileName).length)
      (growMetadata faults id row len)
      (fun _ world => base.Kept world ∧ (∃ row', world.rows.lookup id = some row' ∧
          row'.fileName = row.fileName) ∧
        world.files.lookup row.fileName = some (base.content row.fileName) ∧
          len = (base.content row.fileName).length) base.Kept := by
    unfold growMetadata
    split
    · refine triple_bind (triple_attempt fun world holds => by rw [holds.1]; exact initial)
        fun _ => triple_modify fun world holds => ?_
      obtain ⟨rfl, length⟩ := holds
      refine ⟨kept_setByteSize initial _, ?_, by rw [updateRow_files, file], length⟩
      have found' : (base.appendFile row.fileName []).rows.lookup id = some row := found
      rw [lookup_updateRow, if_pos rfl, found']
      exact ⟨_, rfl, rfl⟩
    · refine triple_pure fun world holds => ?_
      obtain ⟨rfl, length⟩ := holds
      exact ⟨initial, ⟨row, found, rfl⟩, file, length⟩
  refine triple_bind grown fun _ => triple_pure fun world holds => ?_
  obtain ⟨kept, named, content, length⟩ := holds
  refine ⟨kept, named, _, content, ?_, fun behind => ?_⟩
  · rintro ⟨id', row', newest', _, _, short⟩
    rw [newest] at newest'
    obtain ⟨rfl, rfl⟩ : id = id' ∧ row = row' := by simpa using newest'
    dsimp only
    omega
  · have lagging : ¬(base.content row.fileName).length < row.byteSize := fun short =>
      behind ⟨id, row, newest, small, by omega, short⟩
    dsimp only
    omega

theorem triple_openActiveSegmentForAppend :
    Triple (· = base) (openActiveSegmentForAppend faults fresh) (Opened base) base.Kept := by
  have refl (world : World) (here : world = base) : base.Kept world := by
    rw [here]
    exact kept_refl _
  have looked : Triple (· = base) (view World.newestOpen : SegmentSteps _)
      (fun active world => world = base ∧ active = base.newestOpen) base.Kept :=
    triple_view fun world here => ⟨here, by rw [here]⟩
  refine triple_bind (triple_attempt refl) fun _ => triple_bind looked fun active => ?_
  cases active with
  | none =>
    intro world holds
    have behind : ¬base.MetadataAhead := by
      rintro ⟨id, row, newest, _⟩
      rw [← holds.2] at newest
      contradiction
    exact triple_createSegment behind world (refl world holds.1)
  | some entry =>
    obtain ⟨id, row⟩ := entry
    dsimp only
    split
    · rename_i small
      intro world holds
      exact triple_openActiveSegment holds.2.symm small world holds.1
    · rename_i full
      intro world holds
      have behind : ¬base.MetadataAhead := by
        rintro ⟨id', row', newest, small, _⟩
        rw [← holds.2] at newest
        obtain ⟨_, rfl⟩ : id = id' ∧ row = row' := by simpa using newest
        exact full small
      have closing : Triple (· = base) (do
          attempt faults .closeOld .sqlite
          setClosed id
          createSegment faults fresh) (Opened base) base.Kept := by
        refine triple_bind (triple_attempt refl) fun _ => triple_bind ?_ fun _ =>
          triple_createSegment behind
        exact triple_modify fun world here =>
          kept_updateRow (refl world here) (.inl fun _ => rfl)
      exact closing world holds.1

/-- A record at the end of a segment file, and where its locator says that it is. -/
structure Appended (base : World) (record : Bytes) (appended : Int × Nat) (world : World) : Prop where
  kept : base.Kept world
  file : ∃ row bytes, world.rows.lookup appended.1 = some row ∧
    world.files.lookup row.fileName = some (bytes ++ record) ∧
    (base.MetadataAhead → bytes.length < appended.2) ∧
    (¬base.MetadataAhead → bytes.length = appended.2)

theorem Appended.updateRow {record : Bytes} {appended : Int × Nat} {world : World}
    {change : SegmentRow → SegmentRow} (done : Appended base record appended world)
    (named : ∀ row, (change row).fileName = row.fileName) :
    Appended base record appended (world.updateRow id change) := by
  obtain ⟨row, bytes, found, file, place⟩ := done.file
  refine ⟨kept_updateRow done.kept (.inl named), ?_⟩
  rw [updateRow_files]
  by_cases same : appended.1 = id
  · refine ⟨change row, bytes, ?_, by rw [named, file], place⟩
    rw [lookup_updateRow, if_pos same, ← same, found, Option.map_some]
  · exact ⟨row, bytes, by rw [lookup_updateRow, if_neg same, found], file, place⟩

theorem triple_appendRecord (record : Bytes) :
    Triple (· = base) (appendRecord faults fresh record) (Appended base record) base.Kept := by
  refine triple_bind triple_openActiveSegmentForAppend fun opened => ?_
  obtain ⟨id, fileName, startOffset⟩ := opened
  dsimp only
  have written : Triple (Opened base (id, fileName, startOffset))
      (writeAll faults .writeRecord fileName record)
      (fun _ => Appended base record (id, startOffset)) base.Kept := by
    refine triple_writeAll (fun world _ opened => kept_appendFile opened.kept _ _)
      fun world opened => ⟨kept_appendFile opened.kept _ _, ?_⟩
    obtain ⟨row, found, name⟩ := opened.row
    obtain ⟨bytes, file, place⟩ := opened.file
    refine ⟨row, bytes, found, ?_, place⟩
    unfold World.appendFile World.content
    rw [lookup_setFile, name, if_pos rfl, file, Option.getD_some]
  have appended (step : SegmentStep) (error : LlmAuditSegmentError) :
      Triple (Appended base record (id, startOffset)) (attempt faults step error)
        (fun _ => Appended base record (id, startOffset)) base.Kept :=
    triple_attempt fun _ done => done.kept
  refine triple_bind written fun _ => triple_bind (appended _ _) fun _ => ?_
  split
  · exact triple_fail fun world done => done.kept
  have sized : Triple (Appended base record (id, startOffset))
      (setByteSize id (startOffset + record.length))
      (fun _ => Appended base record (id, startOffset)) base.Kept :=
    triple_modify fun world done => done.updateRow fun _ => rfl
  have full : Triple (Appended base record (id, startOffset))
      (closeFull faults id (startOffset + record.length))
      (fun _ => Appended base record (id, startOffset)) base.Kept := by
    unfold closeFull
    split
    · exact triple_bind (appended _ _) fun _ =>
        triple_modify fun world done => done.updateRow fun _ => rfl
    · exact triple_pure fun _ => fun holds => holds
  exact triple_bind (appended _ _) fun _ => triple_bind sized fun _ => triple_bind full fun _ =>
    triple_pure fun _ => fun holds => holds

end StepTriples

/-! ## Appended details -/

/-- A payload that can be stored. -/
def Storable (codec : Codec) (text : String) : Prop :=
  (asBytes text).length < 2 ^ 32 ∧
    ∃ compressed, codec.encodeAll (asBytes text) = some compressed ∧ compressed.length < 2 ^ 32

/-- A locator reads back the payload, and so does every locator that did before. -/
structure KeepsItsWord (codec : Codec) (base : World) (text : String)
    (outcome : Except LlmAuditSegmentError LlmAuditDetailLocator × World) : Prop where
  reads : ∀ locator, outcome.1 = .ok locator → readDetail codec outcome.2 locator = .ok text
  kept : ∀ locator earlier, readDetail codec base locator = .ok earlier →
    readDetail codec outcome.2 locator = .ok earlier

section Details

variable {codec : Codec} {base world : World} {faults : Faults} {fresh : Int}
  {kind : LlmAuditDetailKind} {text : String} {locator : LlmAuditDetailLocator}

/-- The record of a payload is at the end of a file, and the locator is its own. -/
structure Located (codec : Codec) (base : World) (kind : LlmAuditDetailKind) (text : String)
    (locator : LlmAuditDetailLocator) (world : World) : Prop where
  kept : base.Kept world
  short : (asBytes text).length < 2 ^ 32
  record : ∃ compressed, codec.encodeAll (asBytes text) = some compressed ∧
    compressed.length < 2 ^ 32 ∧
    locator = ⟨locator.segmentId, locator.offset, compressed.length, (asBytes text).length,
      hexEncode (codec.digest (asBytes text)).bytes⟩ ∧
    Appended base
      (recordBytes kind (asBytes text) compressed (codec.digest (asBytes text)).bytes)
      (locator.segmentId, locator.offset) world

theorem triple_appendDetail :
    Triple (· = base) (appendDetail codec faults fresh kind text) (Located codec base kind text)
      base.Kept := by
  have refl (world : World) (here : world = base) : base.Kept world := by
    rw [here]
    exact kept_refl _
  unfold appendDetail
  dsimp only
  split
  · exact triple_fail refl
  rename_i short
  split
  · exact triple_fail refl
  · rename_i compressed encoded
    split
    · exact triple_fail refl
    rename_i shortCompressed
    refine triple_bind (triple_appendRecord _) fun appended => ?_
    obtain ⟨segmentId, offset⟩ := appended
    exact triple_pure fun world done =>
      ⟨done.kept, by omega, compressed, encoded, by omega, rfl, done⟩

/-- A record that is where its locator says reads back. -/
theorem Located.reads (located : Located codec base kind text locator world)
    (lossless : codec.Lossless) (behind : ¬base.MetadataAhead) :
    readDetail codec world locator = .ok text := by
  obtain ⟨compressed, encoded, shortCompressed, same, appended⟩ := located.record
  obtain ⟨row, bytes, found, file, _, place⟩ := appended.file
  have offset : bytes.length = locator.offset := place behind
  unfold readDetail
  rw [found]
  dsimp only
  rw [file]
  dsimp only
  rw [List.drop_left' offset, same]
  exact readRecord_recordBytes kind lossless encoded located.short shortCompressed _ _

/-- A record that starts before the offset of its locator does not. -/
theorem Located.misses (located : Located codec base kind text locator world)
    (ahead : base.MetadataAhead) : readDetail codec world locator ≠ .ok text := by
  obtain ⟨compressed, encoded, shortCompressed, same, appended⟩ := located.record
  obtain ⟨row, bytes, found, file, place, _⟩ := appended.file
  have offset : bytes.length < locator.offset := place ahead
  intro ok
  unfold readDetail at ok
  rw [found] at ok
  dsimp only at ok
  rw [file] at ok
  dsimp only at ok
  have long := (readRecord_eq_ok.mp ok).1
  have compressedLen : locator.compressedLen = compressed.length := by rw [same]
  rw [compressedLen, List.length_drop, List.length_append, recordBytes_length] at long
  unfold recordHeaderLen at long
  omega

theorem storable_of_located (located : Located codec base kind text locator world) :
    Storable codec text := by
  obtain ⟨compressed, encoded, shortCompressed, _⟩ := located.record
  exact ⟨located.short, compressed, encoded, shortCompressed⟩

theorem kept_of_appendDetail : base.Kept (appendDetail codec faults fresh kind text base).2 := by
  have steps : Triple (· = base) (appendDetail codec faults fresh kind text)
      (Located codec base kind text) base.Kept := triple_appendDetail
  have triple := steps base rfl
  rcases outcome : appendDetail codec faults fresh kind text base with ⟨result, world⟩
  rw [outcome] at triple
  cases result with
  | ok locator => exact triple.kept
  | error error => exact triple

theorem located_of_ok
    (outcome : appendDetail codec faults fresh kind text base = (.ok locator, world)) :
    Located codec base kind text locator world :=
  triple_appendDetail.of_ok rfl outcome

end Details

/-! ## Without faults -/

section NoFaults

variable {base : World} {id : Int} {row : SegmentRow} {record : Bytes}

theorem attempt_noFaults (step : SegmentStep) (error : LlmAuditSegmentError) (world : World) :
    attempt noFaults step error world = (.ok ⟨⟩, world) := rfl

theorem writeAll_noFaults (step : SegmentStep) (fileName : Text) (bytes : Bytes) (world : World) :
    writeAll noFaults step fileName bytes world = (.ok ⟨⟩, world.appendFile fileName bytes) := rfl

theorem setByteSize_run (id : Int) (byteSize : Nat) (world : World) :
    setByteSize id byteSize world =
      (.ok ⟨⟩, world.updateRow id fun row => { row with byteSize := byteSize }) := rfl

theorem closeFull_noFaults (id : Int) (newSize : Nat) (world : World) :
    ∃ world', closeFull noFaults id newSize world = (.ok ⟨⟩, world') := by
  unfold closeFull
  split
  · exact ⟨_, rfl⟩
  · exact ⟨world, rfl⟩

/-- Metadata that are ahead of the file are taken as the offset. -/
theorem openActiveSegmentForAppend_ahead (fresh : Int) (newest : base.newestOpen = some (id, row))
    (small : row.byteSize < llmAuditSegmentRotateBytes)
    (long : fileHeaderLen ≤ (base.content row.fileName).length)
    (ahead : (base.content row.fileName).length < row.byteSize) :
    openActiveSegmentForAppend noFaults fresh base =
      (.ok (id, row.fileName, row.byteSize), base.appendFile row.fileName []) := by
  have same : (base.appendFile row.fileName []).content row.fileName =
      base.content row.fileName := by
    conv_lhs => unfold World.content World.appendFile
    rw [lookup_setFile, if_pos rfl, List.append_nil, Option.getD_some]
  have enough : ¬(base.content row.fileName).length < fileHeaderLen := by omega
  have larger : max (base.content row.fileName).length row.byteSize = row.byteSize := by omega
  have opened : (modify fun world : World => world.appendFile row.fileName [] :
      SegmentSteps PUnit) base = (.ok ⟨⟩, base.appendFile row.fileName []) := modify_run _ _
  have measured : (view fun world : World => (world.content row.fileName).length :
      SegmentSteps Nat) (base.appendFile row.fileName []) =
      (.ok (base.content row.fileName).length, base.appendFile row.fileName []) := by
    rw [view_run, same]
  unfold openActiveSegmentForAppend
  rw [bind_ok (attempt_noFaults _ _ _), bind_ok (view_run _ _), newest]
  dsimp only
  rw [if_pos small]
  unfold openActiveSegment
  rw [bind_ok (attempt_noFaults _ _ _), bind_ok opened, bind_ok measured, if_neg enough]
  unfold growMetadata
  rw [larger, if_neg (not_not.mpr rfl), bind_ok (pure_run _ _)]
  rfl

theorem appendRecord_ahead (fresh : Int) (ahead : base.MetadataAhead)
    (short : record.length < 2 ^ 33) :
    ∃ appended world, appendRecord noFaults fresh record base = (.ok appended, world) := by
  obtain ⟨id, row, newest, small, long, less⟩ := ahead
  have fits : ¬2 ^ 64 ≤ row.byteSize + record.length := by
    unfold llmAuditSegmentRotateBytes at small
    omega
  unfold appendRecord
  rw [bind_ok (openActiveSegmentForAppend_ahead fresh newest small long less)]
  dsimp only
  rw [bind_ok (writeAll_noFaults _ _ _ _), bind_ok (attempt_noFaults _ _ _), if_neg fits,
    bind_ok (attempt_noFaults _ _ _), bind_ok (setByteSize_run _ _ _)]
  obtain ⟨world', full⟩ := closeFull_noFaults id (row.byteSize + record.length)
    (((base.appendFile row.fileName []).appendFile row.fileName record).updateRow id
      fun row' => { row' with byteSize := row.byteSize + record.length })
  rw [bind_ok full]
  exact ⟨_, _, rfl⟩

end NoFaults

/-- A codec that stores what it is given. -/
def plainCodec : Codec where
  encodeAll := some
  decodeAll := some
  digest _ := ⟨List.replicate 32 0, rfl⟩

/-- The row of the segment says that it has a hundred bytes, and the file has sixteen. -/
def aheadWorld : World where
  rows := (∅ : Map Int SegmentRow).insert 1 ⟨"seg-00000001.focoaud".toList, false, 100⟩
  files := (∅ : Map Text Bytes).insert "seg-00000001.focoaud".toList fileHeader

/-- The record is at the sixteenth byte, and the locator says the hundredth. -/
theorem appended_ahead_unreadable :
    ¬KeepsItsWord plainCodec aheadWorld ""
      (appendDetail plainCodec noFaults 2 .request "" aheadWorld) := by
  intro keeps
  have appended : (appendDetail plainCodec noFaults 2 .request "" aheadWorld).1 =
      .ok ⟨1, 100, 0, 0, List.replicate 64 '0'⟩ := by
    have located : (appendDetail plainCodec noFaults 2 .request "" aheadWorld).1.toOption =
        some ⟨1, 100, 0, 0, List.replicate 64 '0'⟩ := by decide
    revert located
    cases (appendDetail plainCodec noFaults 2 .request "" aheadWorld).1 with
    | ok locator => exact fun same => congrArg _ (Option.some.inj same)
    | error error => exact nofun
  have unread : (readDetail plainCodec
      (appendDetail plainCodec noFaults 2 .request "" aheadWorld).2
      ⟨1, 100, 0, 0, List.replicate 64 '0'⟩).isOk = false := by decide
  rw [keeps.reads _ appended] at unread
  exact absurd unread (by decide)

/-- Appending keeps its word unless the metadata of the active segment is ahead of its file. -/
theorem appendDetail_keepsItsWord_iff (codec : Codec) (lossless : codec.Lossless) (base : World)
    (kind : LlmAuditDetailKind) (text : String) :
    (∀ faults fresh,
        KeepsItsWord codec base text (appendDetail codec faults fresh kind text base)) ↔
      ¬(base.MetadataAhead ∧ Storable codec text) := by
  constructor
  · rintro keeps ⟨ahead, short, compressed, encoded, shortCompressed⟩
    have recordShort : (recordBytes kind (asBytes text) compressed
        (codec.digest (asBytes text)).bytes).length < 2 ^ 33 := by
      rw [recordBytes_length]
      unfold recordHeaderLen
      omega
    obtain ⟨⟨segmentId, offset⟩, world, done⟩ := appendRecord_ahead 0 ahead recordShort
    have outcome : ∃ locator,
        appendDetail codec noFaults 0 kind text base = (.ok locator, world) := by
      unfold appendDetail
      dsimp only
      rw [if_neg (by omega), encoded]
      dsimp only
      rw [if_neg (by omega), bind_ok done]
      exact ⟨_, rfl⟩
    obtain ⟨locator, outcome⟩ := outcome
    have reads := (keeps noFaults 0).reads locator (by rw [outcome])
    rw [outcome] at reads
    exact (located_of_ok outcome).misses ahead reads
  · intro apart faults fresh
    refine ⟨fun locator ok => ?_, fun locator earlier ok => Kept.readDetail kept_of_appendDetail ok⟩
    have outcome : appendDetail codec faults fresh kind text base =
        (.ok locator, (appendDetail codec faults fresh kind text base).2) :=
      Prod.ext ok rfl
    have located := located_of_ok outcome
    exact located.reads lossless fun ahead => apart ⟨ahead, storable_of_located located⟩

/-- A table without segments is not ahead of its files. -/
theorem appendDetail_keepsItsWord_empty :
    (∀ faults fresh, KeepsItsWord plainCodec ⟨∅, ∅⟩ "a"
        (appendDetail plainCodec faults fresh .request "a" ⟨∅, ∅⟩)) ↔
      ¬((⟨∅, ∅⟩ : World).MetadataAhead ∧ Storable plainCodec "a") :=
  appendDetail_keepsItsWord_iff plainCodec (fun _ _ same => same.symm) ⟨∅, ∅⟩ .request "a"

end Foco.AuditSegments

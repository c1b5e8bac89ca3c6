import Foco.FallibleSteps
import Foco.LittleEndian
import Foco.Maps
import Foco.RustText
import Foco.Utf8Bytes
import Mathlib.Data.List.MinMax

/-!
`store/llm_audit_segments.rs`: audit details are appended to segment files, and a locator says where
a detail is. The table of segments and the files are written one after the other, so that a failure
leaves the one behind the other.
-/
namespace Foco.AuditSegments
open Foco.RustText Foco.Maps Foco.FallibleSteps Foco.FallibleSteps.Steps Foco.LittleEndian

abbrev Bytes := List UInt8

/-- A SHA-256 digest. -/
structure Digest where
  bytes : Bytes
  length : bytes.length = 32

/-- `zstd::encode_all(.., 3)`, `zstd::decode_all` and SHA-256. -/
structure Codec where
  encodeAll : Bytes → Option Bytes
  decodeAll : Bytes → Option Bytes
  digest : Bytes → Digest

/-- Decoding inverts encoding. -/
def Codec.Lossless (codec : Codec) : Prop :=
  ∀ plain compressed, codec.encodeAll plain = some compressed →
    codec.decodeAll compressed = some plain

inductive LlmAuditDetailKind where
  | request
  | response

def LlmAuditDetailKind.code : LlmAuditDetailKind → UInt8
  | request => 1
  | response => 2

structure LlmAuditDetailLocator where
  segmentId : Int
  offset : Nat
  compressedLen : Nat
  uncompressedLen : Nat
  sha256Hex : Text
deriving DecidableEq

inductive LlmAuditSegmentError where
  | io
  | corrupt (message : Text)
  | sqlite

def llmAuditSegmentRotateBytes : Nat := 256 * 1024 * 1024

def fileMagic : Bytes := "FOCOAUD1".toList.map fun c => UInt8.ofNat c.toNat

def recordMagic : Bytes := "FDAT".toList.map fun c => UInt8.ofNat c.toNat

def fileHeaderLen : Nat := 16

def recordHeaderLen : Nat := 48

/-- A row of `llm_audit_segments`. -/
structure SegmentRow where
  fileName : Text
  closed : Bool
  byteSize : Nat

/-- The table of segments and the segment files. -/
structure World where
  rows : Map Int SegmentRow
  files : Map Text Bytes

abbrev SegmentSteps := Steps World LlmAuditSegmentError

/-! ## Reading -/

def hexDigit (digit : Nat) : Char := "0123456789abcdef".toList.getD digit '0'

def hexEncode (bytes : Bytes) : Text :=
  bytes.flatMap fun byte => [hexDigit (byte.toNat / 16), hexDigit (byte.toNat % 16)]

/-- What follows in a file is checked against the locator. -/
def readRecord (codec : Codec) (rest : Bytes) (locator : LlmAuditDetailLocator) :
    Except LlmAuditSegmentError String :=
  let header := rest.take recordHeaderLen
  if header.length < recordHeaderLen then .error .io
  else if header.take 4 ≠ recordMagic then .error (.corrupt "invalid record magic".toList)
  else if header[4]? ≠ some 1 ∧ header[4]? ≠ some 2 then
    .error (.corrupt "unknown detail kind".toList)
  else
    let uncompressedLen := ofBytes ((header.drop 8).take 4)
    let compressedLen := ofBytes ((header.drop 12).take 4)
    let digest := header.drop 16
    if uncompressedLen ≠ locator.uncompressedLen ∨ compressedLen ≠ locator.compressedLen then
      .error (.corrupt "locator length mismatch".toList)
    else
      let compressed := (rest.drop recordHeaderLen).take compressedLen
      if compressed.length < compressedLen then .error .io
      else match codec.decodeAll compressed with
        | none => .error .io
        | some plain =>
          if plain.length ≠ uncompressedLen then
            .error (.corrupt "decompressed length mismatch".toList)
          else if (codec.digest plain).bytes ≠ digest then
            .error (.corrupt "sha256 mismatch".toList)
          else if hexEncode (codec.digest plain).bytes ≠ locator.sha256Hex then
            .error (.corrupt "locator sha256 mismatch".toList)
          else match fromUtf8 plain with
            | none => .error (.corrupt "detail is not utf-8".toList)
            | some text => .ok text

def readDetail (codec : Codec) (world : World) (locator : LlmAuditDetailLocator) :
    Except LlmAuditSegmentError String :=
  match world.rows.lookup locator.segmentId with
  | none => .error .sqlite
  | some row =>
    match world.files.lookup row.fileName with
    | none => .error .io
    | some bytes => readRecord codec (bytes.drop locator.offset) locator

/-! ## Appending -/

/-- The statements and file operations that may fail. -/
inductive SegmentStep where
  | selectActive
  | openFile
  | growMetadata
  | closeOld
  | insertRow
  | nameRow
  | prepareFile
  | createFile
  | writeHeader
  | syncHeader
  | restrictFile
  | writeRecord
  | syncRecord
  | recordSize
  | closeFull
deriving DecidableEq

/-- Which steps fail, and how much a write that fails has written. -/
structure Faults where
  fails : SegmentStep → Bool
  written : Nat

def noFaults : Faults := ⟨fun _ => false, 0⟩

def attempt (faults : Faults) (step : SegmentStep) (error : LlmAuditSegmentError) :
    SegmentSteps PUnit :=
  if faults.fails step then fail error else Pure.pure ⟨⟩

def World.setRow (world : World) (id : Int) (row : SegmentRow) : World :=
  { world with rows := world.rows.insert id row }

/-- An update of a row that may not be there. -/
def World.updateRow (world : World) (id : Int) (change : SegmentRow → SegmentRow) : World :=
  match world.rows.lookup id with
  | some row => world.setRow id (change row)
  | none => world

def World.setFile (world : World) (fileName : Text) (bytes : Bytes) : World :=
  { world with files := world.files.insert fileName bytes }

def World.content (world : World) (fileName : Text) : Bytes :=
  (world.files.lookup fileName).getD []

/-- A write at the end of a file. -/
def World.appendFile (world : World) (fileName : Text) (bytes : Bytes) : World :=
  world.setFile fileName (world.content fileName ++ bytes)

def setByteSize (id : Int) (byteSize : Nat) : SegmentSteps PUnit :=
  modify fun world => world.updateRow id fun row => { row with byteSize := byteSize }

def setClosed (id : Int) : SegmentSteps PUnit :=
  modify fun world => world.updateRow id fun row => { row with closed := true }

def writeAll (faults : Faults) (step : SegmentStep) (fileName : Text) (bytes : Bytes) :
    SegmentSteps PUnit :=
  if faults.fails step then do
    modify fun world => world.appendFile fileName (bytes.take faults.written)
    fail .io
  else modify fun world => world.appendFile fileName bytes

/-- The order in which ids are compared. -/
local instance (priority := 2000) segmentIdOrder : Preorder Int := Int.instLinearOrder.toPreorder

/-- The open segment with the highest id. -/
def World.newestOpen (world : World) : Option (Int × SegmentRow) :=
  ((world.rows.entries.filter fun entry => !entry.2.closed).map
    fun entry => (entry.1, entry.2)).argmax Prod.fst

/-- Whether another row has a file name. -/
def World.nameTaken (world : World) (id : Int) (fileName : Text) : Bool :=
  world.rows.any fun other row => other ≠ id ∧ row.fileName = fileName

/-- `format!("seg-{id:08}.focoaud")`. -/
def segmentFileName (id : Int) : Text :=
  let digits := (Nat.repr id.natAbs).toList
  let width := if id < 0 then 7 else 8
  "seg-".toList ++ (if id < 0 then ['-'] else []) ++
    List.replicate (width - digits.length) '0' ++ digits ++ ".focoaud".toList

def fileHeader : Bytes := fileMagic ++ toBytes 2 1 ++ List.replicate 6 0

/-- The row of a new segment, under the id that SQLite gives it. -/
def insertSegment (faults : Faults) (fresh : Int) : SegmentSteps PUnit := do
  attempt faults .insertRow .sqlite
  let refused ← view fun world : World =>
    (world.rows.lookup fresh).isSome || world.nameTaken fresh "pending".toList
  if refused then fail .sqlite
  else modify fun world => world.setRow fresh ⟨"pending".toList, false, 0⟩

def nameSegment (faults : Faults) (fresh : Int) : SegmentSteps PUnit := do
  attempt faults .nameRow .sqlite
  let refused ← view fun world : World => world.nameTaken fresh (segmentFileName fresh)
  if refused then fail .sqlite
  else modify fun world => world.updateRow fresh fun row =>
    { row with fileName := segmentFileName fresh, byteSize := fileHeaderLen }

def createSegment (faults : Faults) (fresh : Int) : SegmentSteps (Int × Text × Nat) := do
  insertSegment faults fresh
  nameSegment faults fresh
  attempt faults .prepareFile .io
  attempt faults .createFile .io
  modify fun world => world.setFile (segmentFileName fresh) []
  writeAll faults .writeHeader (segmentFileName fresh) fileHeader
  attempt faults .syncHeader .io
  attempt faults .restrictFile .io
  return (fresh, segmentFileName fresh, fileHeaderLen)

/-- The metadata of a segment whose file is longer catch up. -/
def growMetadata (faults : Faults) (id : Int) (row : SegmentRow) (len : Nat) :
    SegmentSteps PUnit :=
  if max len row.byteSize ≠ row.byteSize then do
    attempt faults .growMetadata .sqlite
    setByteSize id (max len row.byteSize)
  else Pure.pure ⟨⟩

/-- The branch of `open_active_segment_for_append` that takes the active segment. -/
def openActiveSegment (faults : Faults) (id : Int) (row : SegmentRow) :
    SegmentSteps (Int × Text × Nat) := do
  attempt faults .openFile .io
  modify fun world => world.appendFile row.fileName []
  let len ← view fun world : World => (world.content row.fileName).length
  if len < fileHeaderLen then fail (.corrupt "segment shorter than header".toList)
  else do
    growMetadata faults id row len
    return (id, row.fileName, max len row.byteSize)

def openActiveSegmentForAppend (faults : Faults) (fresh : Int) :
    SegmentSteps (Int × Text × Nat) := do
  attempt faults .selectActive .sqlite
  let active ← view World.newestOpen
  match active with
  | none => createSegment faults fresh
  | some (id, row) =>
    if row.byteSize < llmAuditSegmentRotateBytes then openActiveSegment faults id row
    else do
      attempt faults .closeOld .sqlite
      setClosed id
      createSegment faults fresh

/-- A record before it is written. -/
def recordBytes (kind : LlmAuditDetailKind) (plain compressed digest : Bytes) : Bytes :=
  recordMagic ++ [kind.code, 0] ++ toBytes 2 0 ++ toBytes 4 plain.length ++
    toBytes 4 compressed.length ++ digest ++ compressed

def closeFull (faults : Faults) (id : Int) (newSize : Nat) : SegmentSteps PUnit :=
  if llmAuditSegmentRotateBytes ≤ newSize then do
    attempt faults .closeFull .sqlite
    setClosed id
  else Pure.pure ⟨⟩

/-- What `append_detail` does once the payload is encoded. -/
def appendRecord (faults : Faults) (fresh : Int) (record : Bytes) : SegmentSteps (Int × Nat) := do
  let (id, fileName, startOffset) ← openActiveSegmentForAppend faults fresh
  writeAll faults .writeRecord fileName record
  attempt faults .syncRecord .io
  let newSize := startOffset + record.length
  if 2 ^ 64 ≤ newSize then fail (.corrupt "segment size overflow".toList)
  else do
    attempt faults .recordSize .sqlite
    setByteSize id newSize
    closeFull faults id newSize
    return (id, startOffset)

def appendDetail (codec : Codec) (faults : Faults) (fresh : Int) (kind : LlmAuditDetailKind)
    (utf8Json : String) : SegmentSteps LlmAuditDetailLocator :=
  let plain := asBytes utf8Json
  if 2 ^ 32 ≤ plain.length then fail (.corrupt "detail payload too large".toList)
  else match codec.encodeAll plain with
    | none => fail .io
    | some compressed =>
      if 2 ^ 32 ≤ compressed.length then fail (.corrupt "compressed detail too large".toList)
      else do
        let (segmentId, offset) ←
          appendRecord faults fresh (recordBytes kind plain compressed (codec.digest plain).bytes)
        return ⟨segmentId, offset, compressed.length, plain.length,
          hexEncode (codec.digest plain).bytes⟩

end Foco.AuditSegments

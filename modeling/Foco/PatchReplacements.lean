import Foco.ApplyPatch
import Foco.Splices

/-!
`tools/apply_patch.rs`: the chunks of an Update File hunk applied to the text of the file.
Each chunk is located among the lines of the file and gives one replaced range; the ranges
are sorted and spliced from the back.
-/
namespace Foco.ApplyPatch
open Foco.RustText Foco.Splices
open Foco.Result (bind_eq_ok pure_eq_ok)

/-! ## Matching lines -/

/-- The characters that `normalize_line` writes in ASCII: dashes, quotes and spaces. -/
def normalizeChar (c : Char) : Char :=
  if c.toNat ∈ [0x2010, 0x2011, 0x2012, 0x2013, 0x2014, 0x2015, 0x2212] then '-'
  else if c.toNat ∈ [0x2018, 0x2019, 0x201A, 0x201B] then '\''
  else if c.toNat ∈ [0x201C, 0x201D, 0x201E, 0x201F] then '"'
  else if c.toNat ∈ [0x00A0, 0x2002, 0x2003, 0x2004, 0x2005, 0x2006, 0x2007, 0x2008, 0x2009,
      0x200A, 0x202F, 0x205F, 0x3000] then ' '
  else c

/-- A list without its last element if that is an empty line. -/
def withoutLastBlank (lines : List Text) : List Text :=
  if lines.getLast? = some [] then lines.dropLast else lines

/-- The lines of a text, without the empty one after a final newline. -/
def textLines (text : Text) : List Text := withoutLastBlank (text.splitOn '\n')

/-- Where a located range lies: at the very end, or not before the cursor, or at the end of
the file. The next cursor is not before the range's end unless the range is at the end. -/
structure Located (lines : List Text) (cursor : Nat) (chunk : UpdateFileChunk)
    (r : Replacement Text) (next : Nat) : Prop where
  within : r.stop ≤ lines.length
  nextWithin : next ≤ lines.length
  forward : cursor ≤ next
  place : r.start = lines.length ∨ (r.stop ≤ next ∧
    (cursor ≤ r.start ∨ (chunk.isEndOfFile = true ∧ 0 < r.oldLength ∧ r.stop = lines.length)))
  items : ∀ line ∈ r.items, line ∈ chunk.newLines

/-- The end of the located ranges moves on to a range that fits. -/
theorem Located.covered {lines : List Text} {cursor covered next : Nat}
    {chunk : UpdateFileChunk} {r : Replacement Text} (located : Located lines cursor chunk r next)
    (behind : covered ≤ cursor) (fits : chunk.isEndOfFile = true →
      covered + r.oldLength ≤ lines.length) :
    r.start = lines.length ∨ (covered ≤ r.start ∧ r.stop ≤ next) := by
  rcases located.place with atEnd | ⟨stops, after | ⟨eof, -, anchored⟩⟩
  · exact .inl atEnd
  · exact .inr ⟨Nat.le_trans behind after, stops⟩
  · have fit := fits eof
    simp only [Replacement.stop] at anchored
    exact .inr ⟨by omega, stops⟩

end Foco.ApplyPatch

import Foco.FirstOccurrence
import Foco.JsonSize
import Foco.Utf8Bytes

/-!
`CwdTracker` of `app/terminal.rs`: a shell reports its directory in OSC 7 sequences, which are looked
for in the last part of the output.
-/
namespace Foco.CwdTracking
open Foco.RustText Foco.FirstOccurrence

def osc7Prefix : Text := "\x1b]7;file://foco/".toList

def oscBel : Char := '\x07'

def oscSt : Text := ['\x1b', '\\']

/-! ## Percent decoding -/

def hexValue (value : UInt8) : Option UInt8 :=
  if 48 ≤ value ∧ value ≤ 57 then some (value - 48)
  else if 97 ≤ value ∧ value ≤ 102 then some (value - 97 + 10)
  else if 65 ≤ value ∧ value ≤ 70 then some (value - 65 + 10)
  else none

/-- The loop of `percent_decode`. -/
def percentDecodeBytes : List UInt8 → Option (List UInt8)
  | [] => some []
  | byte :: rest =>
    if byte = 37 then
      match rest with
      | high :: low :: rest => do
        let high ← hexValue high
        let low ← hexValue low
        let decoded ← percentDecodeBytes rest
        return (high * 16 + low) :: decoded
      | _ => none
    else (percentDecodeBytes rest).map (byte :: ·)

def percentDecode (input : Text) : Option Text := do
  let decoded ← percentDecodeBytes (asBytes (String.ofList input))
  let text ← fromUtf8 decoded
  return text.toList

/-! ## Sequences -/

/-- `str::find`. -/
def find (marker text : Text) : Option Nat :=
  (splitWhere (fun rest => marker <+: rest) text).map fun found => found.1.length

/-- The earlier of two places that may not be there. -/
def earlier : Option Nat → Option Nat → Option Nat
  | some bel, some st => some (min bel st)
  | some bel, none => some bel
  | none, some st => some st
  | none, none => none

/-- Where the value at the start of a text ends. -/
def valueEnd (rest : Text) : Option Nat := earlier (find [oscBel] rest) (find oscSt rest)

theorem length_of_splitOnce {searched items before after : Text} (filled : searched ≠ [])
    (found : splitOnce searched items = some (before, after)) : after.length < items.length := by
  rw [(splitOnce_eq_some_iff.mp found).1, List.length_append, List.length_append]
  have long := List.length_pos_of_ne_nil filled
  omega

/-- The loop of `extract_latest_cwd`. -/
def extractFrom (latest : Option Text) (input : Text) : Option Text :=
  match found : splitOnce osc7Prefix input with
  | none => latest
  | some (_, rest) =>
    match valueEnd rest with
    | none => latest
    | some stop => extractFrom (percentDecode (rest.take stop)) (rest.drop stop)
termination_by input.length
decreasing_by
  have shorter := length_of_splitOnce (by decide) found
  rw [List.length_drop]
  omega

def extractLatestCwd (input : Text) : Option Text := extractFrom none input

/-! ## The tracker -/

structure CwdTracker where
  buffer : Text
  lastCwd : Option Text

/-- What is kept of the buffer before it is searched. -/
def keptBuffer (buffer : Text) : Text :=
  if utf8Length buffer > 8192 then (buffer.reverse.take 4096).reverse else buffer

def CwdTracker.observe (tracker : CwdTracker) (data : Text) : CwdTracker × Option Text :=
  let buffer := keptBuffer (tracker.buffer ++ data)
  match extractLatestCwd buffer with
  | none => (⟨buffer, tracker.lastCwd⟩, none)
  | some cwd =>
    if tracker.lastCwd = some cwd then (⟨buffer, tracker.lastCwd⟩, none)
    else (⟨buffer, some cwd⟩, some cwd)

end Foco.CwdTracking

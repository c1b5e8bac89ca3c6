import Mathlib.Data.List.DropRight
import Mathlib.Data.List.Infix

/-!
The string operations of a Rust program over lists of characters: trimming,
prefix stripping, splitting into lines and joining. Each definition follows the
documented behaviour of the `str` method it is named after; the lemmas say how
trimming, prefixes and line splitting interact, which is what two line-based
readers of one text have to agree on.
-/
namespace Foco.RustText

/-- A Rust string as its sequence of `char`s. -/
abbrev Text := List Char

/-- A bounded statement about a text is decided over the text, not over all characters. -/
instance (priority := 2000) decidableForallMem {p : Char → Prop} [DecidablePred p] (text : Text) :
    Decidable (∀ c ∈ text, p c) := List.decidableBAll p text

/-- The comparison with which a text is looked up in a list is equality. -/
instance lawfulBEqText : LawfulBEq Text := inferInstance

/-! ## Whitespace and trimming -/

/-- `char::is_whitespace`: the Unicode `White_Space` property. -/
def isWhitespace (c : Char) : Bool :=
  (9 ≤ c.toNat && c.toNat ≤ 13) || c.toNat == 0x20 || c.toNat == 0x85 || c.toNat == 0xA0 ||
    c.toNat == 0x1680 || (0x2000 ≤ c.toNat && c.toNat ≤ 0x200A) || c.toNat == 0x2028 ||
    c.toNat == 0x2029 || c.toNat == 0x202F || c.toNat == 0x205F || c.toNat == 0x3000

/-- `str::trim_start`. -/
def trimStart (text : Text) : Text := text.dropWhile isWhitespace

/-- `str::trim_end`. -/
def trimEnd (text : Text) : Text := text.rdropWhile isWhitespace

/-- `str::trim`. -/
def trim (text : Text) : Text := trimEnd (trimStart text)

/-- `str::trim_end_matches` for one character. -/
def trimEndMatches (c : Char) (text : Text) : Text := text.rdropWhile (· == c)

/-- A text of white space only, the empty text included. -/
def Blank (text : Text) : Prop := ∀ c ∈ text, isWhitespace c = true

instance (text : Text) : Decidable (Blank text) :=
  List.decidableBAll (fun c => isWhitespace c = true) text

@[simp] theorem blank_nil : Blank [] := by simp [Blank]

@[simp] theorem blank_append {a b : Text} : Blank (a ++ b) ↔ Blank a ∧ Blank b := by
  simp only [Blank, List.mem_append]
  exact ⟨fun h => ⟨fun c hc => h c (.inl hc), fun c hc => h c (.inr hc)⟩,
    fun ⟨ha, hb⟩ c hc => hc.elim (ha c) (hb c)⟩

@[simp] theorem blank_cons {c : Char} {a : Text} :
    Blank (c :: a) ↔ isWhitespace c = true ∧ Blank a := by
  simp [Blank]

theorem Blank.of_suffix {a b : Text} (blank : Blank b) (suffix : a <:+ b) : Blank a :=
  fun c hc => blank c (suffix.subset hc)

theorem Blank.of_prefix {a b : Text} (blank : Blank b) (h : a <+: b) : Blank a :=
  fun c hc => blank c (h.subset hc)

/-- Trimming the end drops a blank tail and nothing else. -/
theorem trimEnd_append_blank (text : Text) {tail : Text} (blank : Blank tail) :
    trimEnd (text ++ tail) = trimEnd text := by
  induction tail using List.reverseRecOn with
  | nil => simp
  | append_singleton tail c ih =>
    obtain ⟨tailBlank, cBlank⟩ := blank_append.mp blank
    rw [← List.append_assoc, trimEnd, List.rdropWhile_concat_pos _ _ _ (cBlank c (by simp))]
    exact ih tailBlank

/-- What `trim_end` removes is blank. -/
theorem trimEnd_split (text : Text) : ∃ tail, text = trimEnd text ++ tail ∧ Blank tail :=
  ⟨text.rtakeWhile isWhitespace, List.rdropWhile_append_rtakeWhile.symm,
    fun _ hc => List.mem_rtakeWhile_imp hc⟩

theorem trimStart_append_of_ne_nil {text : Text} (tail : Text) (h : trimStart text ≠ []) :
    trimStart (text ++ tail) = trimStart text ++ tail := by
  induction text with
  | nil => simp [trimStart] at h
  | cons c text ih =>
    by_cases hc : isWhitespace c = true
    · simp only [trimStart, List.cons_append, List.dropWhile_cons, hc, if_true] at h ⊢
      exact ih h
    · simp [trimStart, hc]

theorem trimStart_eq_nil_iff {text : Text} : trimStart text = [] ↔ Blank text := by
  simp [trimStart, Blank]

theorem trimStart_append_blank (text : Text) {tail : Text} (blank : Blank tail) :
    ∃ rest, trimStart (text ++ tail) = trimStart text ++ rest ∧ Blank rest := by
  by_cases h : trimStart text = []
  · refine ⟨trimStart (text ++ tail), by simp [h], ?_⟩
    have all : Blank (text ++ tail) := blank_append.mpr ⟨trimStart_eq_nil_iff.mp h, blank⟩
    simp [trimStart_eq_nil_iff.mpr all]
  · exact ⟨tail, trimStart_append_of_ne_nil tail h, blank⟩

@[simp] theorem trim_append_blank (text : Text) {tail : Text} (blank : Blank tail) :
    trim (text ++ tail) = trim text := by
  obtain ⟨rest, eq, restBlank⟩ := trimStart_append_blank text blank
  rw [trim, eq, trimEnd_append_blank _ restBlank, trim]

theorem trim_eq_nil_iff {text : Text} : trim text = [] ↔ Blank text := by
  constructor
  · intro h
    obtain ⟨tail, split, tailBlank⟩ := trimEnd_split (trimStart text)
    rw [← trim, h, List.nil_append] at split
    rw [← trimStart_eq_nil_iff]
    by_contra ne
    have visible : isWhitespace ((trimStart text).head ne) = false :=
      List.head_dropWhile_not isWhitespace ne
    have mem : (trimStart text).head ne ∈ trimStart text := List.head_mem ne
    rw [tailBlank _ (split ▸ mem)] at visible
    exact Bool.noConfusion visible
  · intro h
    simp [trim, trimStart_eq_nil_iff.mpr h, trimEnd]

/-- A trimmed text is what is left of the text once a blank tail is cut off. -/
theorem trim_split {text : Text} (flush : trimStart text = text) :
    ∃ tail, text = trim text ++ tail ∧ Blank tail := by
  obtain ⟨tail, split, blank⟩ := trimEnd_split text
  exact ⟨tail, by rw [trim, flush]; exact split, blank⟩

/-- The last character of a trimmed text is not white space. -/
theorem not_whitespace_getLast_trim {text : Text} (ne : trim text ≠ []) :
    isWhitespace ((trim text).getLast ne) = false := by
  exact Bool.eq_false_iff.mpr (List.rdropWhile_last_not isWhitespace (trimStart text) ne)

theorem trim_trim (text : Text) : trim (trim text) = trim text := by
  have start : trimStart (trim text) = trim text := by
    by_cases ne : trim text = []
    · simp [ne, trimStart]
    · obtain ⟨tail, split, blank⟩ := trimEnd_split (trimStart text)
      have fixed : trimStart (trimStart text) = trimStart text :=
        List.dropWhile_idempotent isWhitespace text
      rw [← trim] at split
      have kept : trimStart (trim text) ≠ [] := by
        intro h
        have blankAll := trimStart_eq_nil_iff.mp h
        have := trim_eq_nil_iff.mpr (blank_append.mpr ⟨blankAll, blank⟩)
        rw [← split, trim, fixed, ← trim] at this
        exact ne this
      have both := trimStart_append_of_ne_nil tail kept
      rw [← split, fixed] at both
      exact (List.append_cancel_right (both.symm.trans split))
  rw [trim, start]
  exact List.rdropWhile_idempotent isWhitespace (trimStart text)

/-- A text that starts with a visible character still does once trimmed. -/
theorem trim_cons_of_visible {c : Char} {rest : Text} (visible : isWhitespace c = false) :
    ∃ rest', trim (c :: rest) = c :: rest' := by
  have start : trimStart (c :: rest) = c :: rest := by simp [trimStart, visible]
  obtain ⟨tail, split, blank⟩ := trim_split start
  cases eq : trim (c :: rest) with
  | nil =>
    rw [eq, List.nil_append] at split
    rw [← split] at blank
    simp [visible] at blank
  | cons d rest' =>
    rw [eq] at split
    exact ⟨rest', by rw [(List.cons.inj split).1]⟩

/-- What `trim_end_matches` removes is blank when the character it matches is. -/
theorem trimEndMatches_split {c : Char} (white : isWhitespace c = true) (text : Text) :
    ∃ tail, text = trimEndMatches c text ++ tail ∧ Blank tail := by
  refine ⟨text.rtakeWhile (· == c), List.rdropWhile_append_rtakeWhile.symm, fun d hd => ?_⟩
  have : d = c := by simpa using List.mem_rtakeWhile_imp hd
  rw [this, white]

/-- A text that starts with a visible character has nothing to trim in front. -/
theorem flush_of_starts_visible {c : Char} {rest text : Text} (visible : isWhitespace c = false)
    (h : c :: rest <+: text) : trimStart text = text ∧ trim text ≠ [] := by
  obtain ⟨tail, rfl⟩ := h
  obtain ⟨rest', trimmed⟩ : ∃ rest', trim (c :: (rest ++ tail)) = c :: rest' :=
    trim_cons_of_visible visible
  refine ⟨by simp [trimStart, visible], ?_⟩
  rw [List.cons_append, trimmed]
  exact List.cons_ne_nil _ _

theorem trim_trimEndMatches {c : Char} (white : isWhitespace c = true) (text : Text) :
    trim (trimEndMatches c text) = trim text := by
  obtain ⟨tail, split, blank⟩ := trimEndMatches_split white text
  conv_rhs => rw [split, trim_append_blank _ blank]

/-! ## Prefixes and suffixes -/

/-- `str::strip_prefix`. -/
def stripPrefix : Text → Text → Option Text
  | [], text => some text
  | _ :: _, [] => none
  | p :: marker, c :: text => if p = c then stripPrefix marker text else none

/-- `str::strip_suffix` for one character, as `unwrap_or` the text itself. -/
def stripSuffixChar (c : Char) (text : Text) : Text :=
  match text.getLast? with
  | some last => if last = c then text.dropLast else text
  | none => text

/-- `str::starts_with`. -/
def startsWith (marker text : Text) : Bool := (stripPrefix marker text).isSome

/-- `str::ends_with`. -/
def endsWith (marker text : Text) : Bool := startsWith marker.reverse text.reverse

theorem stripPrefix_eq_some_iff {marker text rest : Text} :
    stripPrefix marker text = some rest ↔ text = marker ++ rest := by
  induction marker generalizing text with
  | nil => simp [stripPrefix, eq_comm]
  | cons p marker ih =>
    cases text with
    | nil => simp [stripPrefix]
    | cons c text =>
      by_cases h : p = c
      · simp [stripPrefix, h, ih]
      · simp [stripPrefix, h, Ne.symm h]

theorem startsWith_iff {marker text : Text} : startsWith marker text = true ↔ marker <+: text := by
  simp only [startsWith, Option.isSome_iff_exists, stripPrefix_eq_some_iff]
  exact ⟨fun ⟨rest, h⟩ => ⟨rest, h.symm⟩, fun ⟨rest, h⟩ => ⟨rest, h.symm⟩⟩

/-- `strip_prefix(marker).map(trim).filter(non-empty)`: the argument of a marker line. -/
def markerArgument (marker line : Text) : Option Text :=
  ((stripPrefix marker line).map trim).filter (· ≠ [])

theorem markerArgument_eq_some_iff {marker line argument : Text} :
    markerArgument marker line = some argument ↔
      ∃ rest, line = marker ++ rest ∧ trim rest = argument ∧ argument ≠ [] := by
  simp only [markerArgument, Option.filter_eq_some_iff, Option.map_eq_some_iff,
    stripPrefix_eq_some_iff, decide_eq_true_eq]
  exact ⟨fun ⟨⟨rest, h, eq⟩, ne⟩ => ⟨rest, h, eq, ne⟩, fun ⟨rest, h, eq, ne⟩ => ⟨⟨rest, h, eq⟩, ne⟩⟩

/-- A blank tail neither makes a line a marker line nor changes its argument. -/
theorem markerArgument_append_blank (marker line : Text) {tail : Text} (blank : Blank tail) :
    markerArgument marker (line ++ tail) = markerArgument marker line := by
  refine Option.ext fun argument => ?_
  simp only [markerArgument_eq_some_iff]
  constructor
  · rintro ⟨rest, eq, trimmed, ne⟩
    rcases List.append_eq_append_iff.mp eq with ⟨extra, h, eqTail⟩ | ⟨extra, h, eqRest⟩
    · have restBlank : Blank rest := blank.of_suffix ⟨extra, eqTail.symm⟩
      exact absurd (trimmed.symm.trans (trim_eq_nil_iff.mpr restBlank)) ne
    · refine ⟨extra, h, ?_, ne⟩
      rw [← trimmed, eqRest, trim_append_blank _ blank]
  · rintro ⟨rest, rfl, trimmed, ne⟩
    exact ⟨rest ++ tail, by simp, by rw [trim_append_blank _ blank, trimmed], ne⟩

/-- What `strip_suffix` removes is blank when the character it strips is. -/
theorem stripSuffixChar_split {c : Char} (white : isWhitespace c = true) (text : Text) :
    ∃ tail, text = stripSuffixChar c text ++ tail ∧ Blank tail := by
  unfold stripSuffixChar
  cases h : text.getLast? with
  | none => exact ⟨[], by simp, by simp⟩
  | some last =>
    by_cases same : last = c
    · subst same
      refine ⟨[last], ?_, by simp [white]⟩
      simp [List.dropLast_append_getLast? last h]
    · exact ⟨[], by simp [same], by simp⟩

theorem trim_stripSuffixChar {c : Char} (white : isWhitespace c = true) (text : Text) :
    trim (stripSuffixChar c text) = trim text := by
  obtain ⟨tail, split, blank⟩ := stripSuffixChar_split white text
  conv_rhs => rw [split, trim_append_blank _ blank]

/-! ## Lines -/

/-- `str::split_inclusive` at one character: every piece but the last ends with it. -/
def splitInclusive (sep : Char) : Text → List Text
  | [] => []
  | c :: text =>
    if c = sep then [c] :: splitInclusive sep text
    else match splitInclusive sep text with
      | [] => [[c]]
      | piece :: pieces => (c :: piece) :: pieces

theorem splitInclusive_nil (sep : Char) : splitInclusive sep [] = [] := rfl

theorem splitInclusive_cons_self (sep : Char) (text : Text) :
    splitInclusive sep (sep :: text) = [sep] :: splitInclusive sep text := if_pos rfl

theorem splitInclusive_cons_of_ne {sep c : Char} (other : c ≠ sep) (text : Text) :
    splitInclusive sep (c :: text) = match splitInclusive sep text with
      | [] => [[c]]
      | piece :: pieces => (c :: piece) :: pieces := if_neg other

/-- One piece of `split_inclusive('\n')` without its `\n` or `\r\n`. -/
def stripLineEnding (piece : Text) : Text :=
  if piece.getLast? = some '\n' then stripSuffixChar '\r' piece.dropLast else piece

/-- `str::lines`. -/
def lines (text : Text) : List Text := (splitInclusive '\n' text).map stripLineEnding

/-- A line differs from its piece by a blank tail. -/
theorem stripLineEnding_split (piece : Text) :
    ∃ tail, piece = stripLineEnding piece ++ tail ∧ Blank tail := by
  unfold stripLineEnding
  split
  · rename_i newline
    obtain ⟨tail, split, blank⟩ :=
      stripSuffixChar_split (c := '\r') (by decide) piece.dropLast
    refine ⟨tail ++ ['\n'], ?_, blank_append.mpr ⟨blank, by decide⟩⟩
    rw [← List.append_assoc, ← split, List.dropLast_append_getLast? _ newline]
  · exact ⟨[], by simp, by simp⟩

theorem trim_stripLineEnding (piece : Text) : trim (stripLineEnding piece) = trim piece := by
  obtain ⟨tail, split, blank⟩ := stripLineEnding_split piece
  conv_rhs => rw [split, trim_append_blank _ blank]

theorem splitInclusive_eq_nil_iff {sep : Char} {text : Text} :
    splitInclusive sep text = [] ↔ text = [] := by
  cases text with
  | nil => simp [splitInclusive_nil]
  | cons c text =>
    by_cases same : c = sep
    · simp [same, splitInclusive_cons_self]
    · rw [splitInclusive_cons_of_ne same]
      split <;> simp

theorem flatten_splitInclusive (sep : Char) (text : Text) :
    (splitInclusive sep text).flatten = text := by
  induction text with
  | nil => rfl
  | cons c text ih =>
    by_cases same : c = sep
    · simp [same, splitInclusive_cons_self, ih]
    · rw [splitInclusive_cons_of_ne same]
      split
      · rename_i nil
        simp [splitInclusive_eq_nil_iff.mp nil]
      · rename_i piece pieces cons
        rw [cons] at ih
        simpa using ih

/-- Text appended to an unterminated last line extends that line and otherwise only
adds further lines. -/
theorem splitInclusive_append {sep : Char} {text : Text} (ne : text ≠ [])
    (unterminated : text.getLast ne ≠ sep) (tail : Text) :
    ∃ init last extra more, splitInclusive sep text = init ++ [last] ∧
      splitInclusive sep (text ++ tail) = init ++ (last ++ extra) :: more ∧
      extra ++ more.flatten = tail := by
  induction text with
  | nil => exact absurd rfl ne
  | cons c text ih =>
    by_cases textNil : text = []
    · subst textNil
      have notSep : c ≠ sep := by simpa using unterminated
      cases split : splitInclusive sep tail with
      | nil =>
        refine ⟨[], [c], [], [], splitInclusive_cons_of_ne notSep [], ?_, ?_⟩
        · simp [splitInclusive_cons_of_ne notSep, split]
        · simp [splitInclusive_eq_nil_iff.mp split]
      | cons piece pieces =>
        refine ⟨[], [c], piece, pieces, splitInclusive_cons_of_ne notSep [], ?_, ?_⟩
        · simp [splitInclusive_cons_of_ne notSep, split]
        · simpa [split] using flatten_splitInclusive sep tail
    · have unterminated' : text.getLast textNil ≠ sep := by
        simpa [List.getLast_cons textNil] using unterminated
      obtain ⟨init, last, extra, more, eq, eqAppend, rest⟩ := ih textNil unterminated'
      by_cases h : c = sep
      · exact ⟨[c] :: init, last, extra, more, by simp [h, splitInclusive_cons_self, eq],
          by simp [h, splitInclusive_cons_self, eqAppend], rest⟩
      · cases init with
        | nil =>
          exact ⟨[], c :: last, extra, more, by simp [splitInclusive_cons_of_ne h, eq],
            by simp [splitInclusive_cons_of_ne h, eqAppend], rest⟩
        | cons piece init =>
          exact ⟨(c :: piece) :: init, last, extra, more,
            by simp [splitInclusive_cons_of_ne h, eq],
            by simp [splitInclusive_cons_of_ne h, eqAppend], rest⟩

theorem head_line_starts_text {text first : Text} {rest : List Text}
    (h : lines text = first :: rest) : first <+: text := by
  obtain ⟨piece, pieces, split, rfl, -⟩ := List.map_eq_cons_iff.mp h
  obtain ⟨tail, pieceSplit, -⟩ := stripLineEnding_split piece
  refine ⟨tail ++ pieces.flatten, ?_⟩
  rw [← List.append_assoc, ← pieceSplit, ← List.flatten_cons, ← split, flatten_splitInclusive]

/-- The lines of a text that starts with a visible character against the lines of the trimmed
text: trimming may shorten the last visible line and drops blank lines behind it. -/
theorem lines_trim {text : Text} (flush : trimStart text = text) (ne : trim text ≠ []) :
    ∃ init last last' more, lines (trim text) = init ++ [last] ∧
      lines text = init ++ last' :: more ∧ trim last' = trim last ∧ ∀ line ∈ more, Blank line := by
  obtain ⟨tail, split, blank⟩ := trim_split flush
  have unterminated : (trim text).getLast ne ≠ '\n' := by
    intro newline
    have visible := not_whitespace_getLast_trim ne
    rw [newline] at visible
    exact Bool.noConfusion visible
  obtain ⟨init, last, extra, more, eq, eqAppend, rest⟩ :=
    splitInclusive_append ne unterminated tail
  rw [← split] at eqAppend
  have extraBlank : Blank extra := blank.of_prefix ⟨_, rest⟩
  refine ⟨init.map stripLineEnding, stripLineEnding last, stripLineEnding (last ++ extra),
    more.map stripLineEnding, by simp [lines, eq], by simp [lines, eqAppend], ?_, ?_⟩
  · rw [trim_stripLineEnding, trim_stripLineEnding, trim_append_blank _ extraBlank]
  · intro line mem
    obtain ⟨piece, pieceMem, rfl⟩ := List.mem_map.mp mem
    obtain ⟨lineTail, pieceSplit, -⟩ := stripLineEnding_split piece
    have moreBlank : Blank more.flatten := blank.of_suffix ⟨_, rest⟩
    have pieceBlank : Blank piece := fun c hc =>
      moreBlank c (List.mem_flatten.mpr ⟨piece, pieceMem, hc⟩)
    exact pieceBlank.of_prefix ⟨lineTail, pieceSplit.symm⟩

section TerminatedLines

variable {line mid tail : Text} {c : Char}

theorem splitInclusive_terminated (sep : Char) (init rest : Text) :
    splitInclusive sep (init ++ sep :: rest) =
      splitInclusive sep (init ++ [sep]) ++ splitInclusive sep rest := by
  induction init with
  | nil => simp [splitInclusive_cons_self, splitInclusive_nil]
  | cons first init ih =>
    by_cases here : first = sep
    · simp [here, splitInclusive_cons_self, ih]
    · have some : splitInclusive sep (init ++ [sep]) ≠ [] := by
        rw [ne_eq, splitInclusive_eq_nil_iff]
        simp
      obtain ⟨piece, pieces, shape⟩ := List.exists_cons_of_ne_nil some
      simp [splitInclusive_cons_of_ne here, ih, shape]

theorem lines_append_of_ends (ends : ∀ last ∈ tail.getLast?, last = '\n') (rest : Text) :
    lines (tail ++ rest) = lines tail ++ lines rest := by
  obtain rfl | ⟨init, last, rfl⟩ := List.eq_nil_or_concat tail
  · simp [lines, splitInclusive_nil]
  obtain rfl : last = '\n' := ends last (by simp)
  unfold lines
  rw [List.concat_eq_append, List.append_assoc, List.singleton_append, splitInclusive_terminated,
    List.map_append]

theorem splitInclusive_unbroken (unbroken : '\n' ∉ line) (nonempty : line ≠ []) :
    splitInclusive '\n' line = [line] := by
  induction line with
  | nil => contradiction
  | cons first rest ih =>
    obtain ⟨here, later⟩ := not_or.mp (List.mem_cons.not.mp unbroken)
    have visible : first ≠ '\n' := Ne.symm here
    cases rest with
    | nil => exact splitInclusive_cons_of_ne visible []
    | cons second rest =>
      have alone := ih later (by simp)
      rw [splitInclusive_cons_of_ne visible, alone]

theorem lines_unbroken (unbroken : '\n' ∉ line) (nonempty : line ≠ []) : lines line = [line] := by
  have last : line.getLast? ≠ some '\n' := fun newline =>
    unbroken (List.mem_of_getLast? newline)
  unfold lines
  rw [splitInclusive_unbroken unbroken nonempty, List.map_singleton]
  unfold stripLineEnding
  rw [if_neg last]

theorem lines_terminated (unbroken : '\n' ∉ line) (rest : Text) :
    lines (line ++ '\n' :: rest) = stripSuffixChar '\r' line :: lines rest := by
  have piece : splitInclusive '\n' (line ++ ['\n']) = [line ++ ['\n']] := by
    induction line with
    | nil => rfl
    | cons first rest ih =>
      obtain ⟨here, later⟩ := not_or.mp (List.mem_cons.not.mp unbroken)
      have visible : first ≠ '\n' := Ne.symm here
      simp [splitInclusive_cons_of_ne visible, ih later]
  unfold lines
  rw [splitInclusive_terminated, piece, List.map_append, List.map_singleton]
  simp [stripLineEnding]

theorem stripSuffixChar_append (kept : ∀ last ∈ mid.getLast?, last ≠ c) (tail : Text) :
    stripSuffixChar c (mid ++ tail) = mid ++ stripSuffixChar c tail := by
  unfold stripSuffixChar
  obtain rfl | ⟨init, last, rfl⟩ := List.eq_nil_or_concat tail
  · rw [List.append_nil]
    cases shape : mid.getLast? with
    | none => simp
    | some last => simp [kept last shape]
  · have final : (mid ++ init.concat last).getLast? = some last := by simp
    rw [final]
    by_cases same : last = c
    · simp [same]
    · simp [same]

theorem stripSuffixChar_starts (c : Char) (text : Text) : stripSuffixChar c text <+: text := by
  unfold stripSuffixChar
  split
  · split
    · exact List.dropLast_prefix _
    · exact List.prefix_rfl
  · exact List.prefix_rfl

end TerminatedLines

/-! ## Separated texts -/

/-- `str::contains`. -/
def containsText (marker text : Text) : Bool := text.tails.any (startsWith marker)

theorem containsText_iff {marker text : Text} :
    containsText marker text = true ↔ marker <:+: text := by
  unfold containsText
  rw [List.any_eq_true, List.infix_iff_prefix_suffix]
  constructor
  · rintro ⟨tail, mem, starts⟩
    exact ⟨tail, startsWith_iff.mp starts, (List.mem_tails tail text).mp mem⟩
  · rintro ⟨tail, starts, suffix⟩
    exact ⟨tail, (List.mem_tails tail text).mpr suffix, startsWith_iff.mpr starts⟩

/-- `str::to_ascii_lowercase`. -/
def toAsciiLowercase (text : Text) : Text := text.map Char.toLower

theorem not_mem_of_mem_splitOn {sep : Char} {text part : Text} (mem : part ∈ text.splitOn sep) :
    sep ∉ part := by
  induction text generalizing part with
  | nil =>
    rw [List.splitOn_nil, List.mem_singleton] at mem
    simp [mem]
  | cons c text ih =>
    rw [List.splitOn_cons_eq_if_modifyHead] at mem
    split at mem
    · rcases List.mem_cons.mp mem with rfl | mem
      · exact List.not_mem_nil
      · exact ih mem
    · rename_i other
      cases split : text.splitOn sep with
      | nil => exact absurd split (List.splitOn_ne_nil sep text)
      | cons head tail =>
        rw [split, List.modifyHead_cons] at mem
        rcases List.mem_cons.mp mem with rfl | mem
        · intro inHead
          rcases List.mem_cons.mp inHead with same | inHead
          · exact other (by simp [same])
          · exact ih (split ▸ List.mem_cons_self) inHead
        · exact ih (split ▸ List.mem_cons_of_mem _ mem)

theorem map_intercalate (f : Char → Char) (sep : Char) (parts : List Text) :
    (List.intercalate [sep] parts).map f = List.intercalate [f sep] (parts.map (·.map f)) := by
  induction parts with
  | nil => rfl
  | cons part rest ih =>
    cases rest with
    | nil => simp
    | cons next rest =>
      simp only [List.map_cons, List.intercalate_cons_cons, List.map_append] at ih ⊢
      rw [ih, List.map_nil]

theorem mem_intercalate {sep c : Char} {part : Text} {parts : List Text} (mem : part ∈ parts)
    (inPart : c ∈ part) : c ∈ List.intercalate [sep] parts := by
  induction parts with
  | nil => cases mem
  | cons head rest ih =>
    cases rest with
    | nil => simpa [List.mem_singleton.mp mem] using inPart
    | cons next rest =>
      rw [List.intercalate_cons_cons, List.mem_append, List.mem_append]
      rcases List.mem_cons.mp mem with rfl | mem
      · exact .inl (.inl inPart)
      · exact .inr (ih mem)

theorem mem_of_mem_splitOn {sep c : Char} {text part : Text} (mem : part ∈ text.splitOn sep)
    (inPart : c ∈ part) : c ∈ text := by
  have joined : List.intercalate [sep] (text.splitOn sep) = text := List.intercalate_splitOn sep
  rw [← joined]
  exact mem_intercalate mem inPart

theorem intercalate_eq_nil {sep : Char} {parts : List Text} (named : ∀ part ∈ parts, part ≠ [])
    (h : List.intercalate [sep] parts = []) : parts = [] := by
  cases parts with
  | nil => rfl
  | cons part rest =>
    have partNamed := named part List.mem_cons_self
    cases rest with
    | nil => simp [partNamed] at h
    | cons next rest => simp [List.intercalate_cons_cons] at h

/-- Joining non-empty parts that do not hold the separator loses nothing. -/
theorem intercalate_inj {sep : Char} {a b : List Text}
    (ha : ∀ part ∈ a, part ≠ [] ∧ sep ∉ part) (hb : ∀ part ∈ b, part ≠ [] ∧ sep ∉ part)
    (h : List.intercalate [sep] a = List.intercalate [sep] b) : a = b := by
  by_cases aNil : a = []
  · subst aNil
    exact (intercalate_eq_nil (fun part mem => (hb part mem).1) h.symm).symm
  · by_cases bNil : b = []
    · subst bNil
      exact intercalate_eq_nil (fun part mem => (ha part mem).1) h
    · have split := congrArg (List.splitOn sep) h
      rwa [List.splitOn_intercalate sep (fun part mem => (ha part mem).2) aNil,
        List.splitOn_intercalate sep (fun part mem => (hb part mem).2) bNil] at split

/-- Lowercase letters come from letters only. -/
theorem toLower_eq_iff {c other : Char} (low : other.toNat < 65) : c.toLower = other ↔ c = other := by
  have unchanged : other.toLower = other := by
    unfold Char.toLower
    refine dif_neg fun upper => ?_
    have above := UInt32.le_iff_toNat_le.mp upper.1
    change 65 ≤ other.toNat at above
    omega
  constructor
  · intro same
    unfold Char.toLower at same
    split at same
    · rename_i upper
      have above := UInt32.le_iff_toNat_le.mp upper.1
      have below := UInt32.le_iff_toNat_le.mp upper.2
      have value := congrArg UInt32.toNat (congrArg Char.val same)
      simp [UInt32.toNat_add] at above below value
      omega
    · exact same
  · rintro rfl
    exact unchanged

theorem toLower_eq_slash {c : Char} : c.toLower = '/' ↔ c = '/' :=
  toLower_eq_iff (by decide)

end Foco.RustText

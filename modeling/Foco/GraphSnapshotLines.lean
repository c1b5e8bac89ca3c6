import Foco.GraphSnapshots

/-!
The lines of a snapshot of `graph_explore` against the lines that are counted while it is
rendered. The counts are right for a snippet whose header lines are single lines and whose source
is not empty, and for no other; where they fall short, every line number behind is too small.
-/
namespace Foco.GraphSnapshots
open Foco.RustText Foco.TextLines Foco.Result

/-! ## The text of a snippet and its counted lines -/

def terminated (lines : List Text) : Text := (lines.map (· ++ ['\n'])).flatten

/-- The source with the feed that is put behind it. -/
def sourceText (content : Text) : Text :=
  content ++ if content.getLast? = some '\n' then [] else ['\n']

def snippetText (index : Nat) (fields : SnippetFields) : Text :=
  terminated (headerLines index fields) ++ (sourceText fields.content ++
    terminated (footerLines index))

/-- The lines by which `next_line` moves. -/
def countedLines (fields : SnippetFields) : Nat := 8 + completeLineCount fields.content

/-- The text of snippets from an index on. -/
def bodyText (index : Nat) : List SnippetFields → Text
  | [] => []
  | fields :: rest => snippetText index fields ++ bodyText (index + 1) rest

/-- The start lines of snippets. -/
def startsFrom (nextLine : Nat) : List SnippetFields → List Nat
  | [] => []
  | fields :: rest => nextLine :: startsFrom (saturatingAdd nextLine (countedLines fields)) rest

theorem foldl_appendGraphSnapshotLine (snapshot : SnapshotText) (lines : List Text)
    (small : snapshot.nextLine ≤ usizeMax) :
    lines.foldl appendGraphSnapshotLine snapshot =
      ⟨snapshot.contents ++ terminated lines, saturatingAdd snapshot.nextLine lines.length⟩ := by
  induction lines generalizing snapshot with
  | nil =>
    rw [List.foldl_nil, saturatingAdd_eq (by simpa using small)]
    simp [terminated]
  | cons line lines ih =>
    rw [List.foldl_cons, ih _ (Nat.min_le_right _ _)]
    refine SnapshotText.mk.injEq .. ▸ ⟨?_, ?_⟩
    · simp [appendGraphSnapshotLine, terminated]
    · simp only [appendGraphSnapshotLine, saturatingAdd, List.length_cons]
      omega

theorem appendSnippet_eq (snapshot : SnapshotText) (index : Nat) (fields : SnippetFields)
    (small : snapshot.nextLine ≤ usizeMax) :
    appendSnippet snapshot index fields =
      ⟨snapshot.contents ++ snippetText index fields,
        saturatingAdd snapshot.nextLine (countedLines fields)⟩ := by
  have capped (a b : Nat) : saturatingAdd a b ≤ usizeMax := Nat.min_le_right _ _
  unfold appendSnippet
  rw [foldl_appendGraphSnapshotLine snapshot _ small,
    foldl_appendGraphSnapshotLine _ _ (capped _ _)]
  refine SnapshotText.mk.injEq .. ▸ ⟨?_, ?_⟩
  · simp [appendSource, snippetText, sourceText]
  · simp only [appendSource, saturatingAdd, countedLines, headerLines, footerLines,
      List.length_cons, List.length_nil]
    omega

/-- What the loop renders: the text of each snippet behind the one before it. -/
theorem renderFrom_eq_ok {snapshot : SnapshotText} {startLines : List Nat} {index : Nat}
    {snippets : List GraphExploreSnippet} {contents : Text} {result : List Nat}
    (small : snapshot.nextLine ≤ usizeMax) :
    renderFrom snapshot startLines index snippets = .ok (contents, result) ↔
      ∃ all, snippets.mapM (fun snippet => snippetFields snippet.value) = .ok all ∧
        contents = snapshot.contents ++ bodyText index all ∧
        result = startLines ++ startsFrom snapshot.nextLine all := by
  induction snippets generalizing snapshot startLines index with
  | nil =>
    simp only [renderFrom, List.mapM_nil, pure_eq_ok, Except.ok.injEq, Prod.mk.injEq]
    constructor
    · rintro ⟨rfl, rfl⟩
      exact ⟨[], rfl, (List.append_nil _).symm, (List.append_nil _).symm⟩
    · rintro ⟨all, rfl, rfl, rfl⟩
      exact ⟨(List.append_nil _).symm, (List.append_nil _).symm⟩
  | cons snippet snippets ih =>
    -- the snapshot goes on only through its text and its next line
    have later (fields : SnippetFields) :
        renderFrom (appendSnippet snapshot index fields) (startLines ++ [snapshot.nextLine])
            (index + 1) snippets = .ok (contents, result) ↔
          ∃ all, snippets.mapM (fun snippet => snippetFields snippet.value) = .ok all ∧
            contents = snapshot.contents ++ bodyText index (fields :: all) ∧
            result = startLines ++ startsFrom snapshot.nextLine (fields :: all) := by
      rw [appendSnippet_eq snapshot index fields small, ih (Nat.min_le_right _ _)]
      simp only [bodyText, startsFrom, List.append_assoc, List.singleton_append]
    simp only [renderFrom, List.mapM_cons, bind_eq_ok, pure_eq_ok, later]
    constructor
    · rintro ⟨fields, read, all, reads, text, starts⟩
      exact ⟨fields :: all, ⟨fields, read, all, reads, rfl⟩, text, starts⟩
    · rintro ⟨_, ⟨fields, read, all, reads, rfl⟩, text, starts⟩
      exact ⟨fields, read, all, reads, text, starts⟩

/-! ## The lines of a snippet -/

theorem ended_terminated {lines : List Text} :
    ∀ last ∈ (terminated lines).getLast?, last = '\n' := by
  intro last mem
  obtain rfl | ⟨init, line, rfl⟩ := List.eq_nil_or_concat lines
  · cases mem
  · rw [List.concat_eq_append, terminated, List.map_append, List.flatten_append, List.map_singleton,
      List.flatten_singleton, ← List.append_assoc, List.getLast?_concat] at mem
    exact (Option.some.inj mem).symm

theorem ended_sourceText (content : Text) :
    ∀ last ∈ (sourceText content).getLast?, last = '\n' := by
  intro last mem
  unfold sourceText at mem
  split at mem
  · next ended =>
    rw [List.append_nil, ended] at mem
    exact (Option.some.inj mem).symm
  · rw [List.getLast?_concat] at mem
    exact (Option.some.inj mem).symm

theorem terminated_cons (line : Text) (lines : List Text) :
    terminated (line :: lines) = line ++ ['\n'] ++ terminated lines := rfl

theorem completeLines_terminated_cons (line : Text) (lines : List Text) (rest : Text) :
    completeLines (terminated (line :: lines) ++ rest) =
      completeLines (line ++ ['\n']) ++ completeLines (terminated lines ++ rest) := by
  rw [terminated_cons, List.append_assoc]
  exact completeLines_append_feed line _

/-- Header lines are no fewer lines than they are, and as many if each is a single line. -/
theorem length_completeLines_terminated (lines : List Text) :
    lines.length ≤ (completeLines (terminated lines)).length ∧
      ((completeLines (terminated lines)).length = lines.length ↔
        ∀ line ∈ lines, SingleLine line) := by
  induction lines with
  | nil => exact ⟨Nat.le_refl _, by simp [terminated, completeLines, scanLines]⟩
  | cons line lines ih =>
    have split := completeLines_terminated_cons line lines []
    rw [List.append_nil, List.append_nil] at split
    have some_ : 0 < (completeLines (line ++ ['\n'])).length :=
      List.length_pos_iff.mpr fun none_ => by simpa using completeLines_eq_nil.mp none_
    have single : (completeLines (line ++ ['\n'])).length = 1 ↔ SingleLine line :=
      ⟨singleLine_of_length, fun single => by rw [completeLines_singleLine single]; rfl⟩
    rw [split, List.length_append, List.length_cons, List.forall_mem_cons, ← single, ← ih.2]
    omega

theorem plain_intText (number : Int) : ∀ c ∈ intText number, IsPlain c := by
  cases number with
  | ofNat number => exact plain_natText number
  | negSucc number => exact List.forall_mem_cons.mpr ⟨by decide, plain_natText _⟩

theorem plain_snippetHeader (index : Nat) : ∀ c ∈ snippetHeader index, IsPlain c := by
  unfold snippetHeader
  simp only [List.forall_mem_append]
  exact ⟨⟨by decide, plain_natText _⟩, by decide⟩

/-- A line of a snippet's header is a single line if the part from outside is. -/
theorem singleLine_append {front : Text} (plain : ∀ c ∈ front, IsPlain c) (line : Text) :
    SingleLine (front ++ line) ↔ SingleLine line := by
  constructor
  · rintro ⟨body, bodyPlain, same⟩
    obtain same | same := same
    · exact singleLine_of_plain fun c mem => bodyPlain c (same ▸ List.mem_append_right _ mem)
    · obtain rfl | ⟨init, last, rfl⟩ := List.eq_nil_or_concat line
      · exact singleLine_of_plain nofun
      · rw [List.concat_eq_append, ← List.append_assoc] at same
        obtain ⟨rfl, ending⟩ := List.append_inj' same rfl
        refine ⟨init, fun c mem => bodyPlain c (List.mem_append_right _ mem), .inr ?_⟩
        rw [List.concat_eq_append, ending]
  · rintro ⟨body, bodyPlain, rfl | rfl⟩
    · exact singleLine_of_plain fun c mem =>
        (List.mem_append.mp mem).elim (plain c) (bodyPlain c)
    · exact ⟨front ++ body, fun c mem => (List.mem_append.mp mem).elim (plain c) (bodyPlain c),
        .inr (List.append_assoc ..).symm⟩

theorem singleLine_closed {line : Text} {last : Char} (plain : IsPlain last) :
    SingleLine (line ++ [last]) ↔ ∀ c ∈ line, IsPlain c := by
  constructor
  · rintro ⟨body, bodyPlain, same | same⟩
    · exact fun c mem => bodyPlain c (same ▸ List.mem_append_left _ mem)
    · exact absurd (List.cons.inj (List.append_inj_right' same rfl)).1 plain.2
  · exact fun lines => singleLine_of_plain fun c mem =>
      (List.mem_append.mp mem).elim (lines c) fun mem => List.mem_singleton.mp mem ▸ plain

/-- The names of the snippet keep to their lines, and there is a source. -/
def SnippetFields.Plain (fields : SnippetFields) : Prop :=
  SingleLine fields.path ∧ (∀ c ∈ fields.qualifiedName, IsPlain c) ∧
    (∀ c ∈ fields.kind, IsPlain c) ∧ fields.content ≠ []

theorem singleLine_headerLines (index : Nat) (fields : SnippetFields) :
    (∀ line ∈ headerLines index fields, SingleLine line) ↔
      SingleLine fields.path ∧ (∀ c ∈ fields.qualifiedName, IsPlain c) ∧
        (∀ c ∈ fields.kind, IsPlain c) := by
  have header := singleLine_of_plain (plain_snippetHeader index)
  have symbolId : SingleLine ("symbolId: ".toList ++ intText fields.symbolId) :=
    (singleLine_append (by decide) _).mpr (singleLine_of_plain (plain_intText _))
  have path : SingleLine ("path: ".toList ++ fields.path) ↔ SingleLine fields.path :=
    singleLine_append (by decide) _
  have symbol : SingleLine ("symbol: ".toList ++ fields.qualifiedName ++ " (".toList ++
      fields.kind ++ [')']) ↔
      (∀ c ∈ fields.qualifiedName, IsPlain c) ∧ (∀ c ∈ fields.kind, IsPlain c) := by
    rw [singleLine_closed (by decide)]
    simp only [List.forall_mem_append]
    have first : ∀ c ∈ "symbol: ".toList, IsPlain c := by decide
    have second : ∀ c ∈ " (".toList, IsPlain c := by decide
    exact ⟨fun ⟨⟨⟨_, name⟩, _⟩, kind⟩ => ⟨name, kind⟩,
      fun ⟨name, kind⟩ => ⟨⟨⟨first, name⟩, second⟩, kind⟩⟩
  have sourceLines : SingleLine ("sourceLines: ".toList ++ natText fields.startLine ++ ['-'] ++
      natText fields.endLine) := by
    refine singleLine_of_plain ?_
    simp only [List.forall_mem_append]
    exact ⟨⟨⟨by decide, plain_natText _⟩, by decide⟩, plain_natText _⟩
  have source : SingleLine "source:".toList := singleLine_of_plain (by decide)
  simp only [headerLines, List.forall_mem_cons, header, symbolId, path, symbol, sourceLines, source,
    true_and, List.not_mem_nil, false_implies, implies_true, and_true]

theorem singleLine_footerLines (index : Nat) : ∀ line ∈ footerLines index, SingleLine line := by
  have footer : ∀ c ∈ "=== end graph_explore snippet ".toList ++ natText (index + 1) ++
      " ===".toList, IsPlain c := by
    simp only [List.forall_mem_append]
    exact ⟨⟨by decide, plain_natText _⟩, by decide⟩
  simp only [footerLines, List.forall_mem_cons, List.not_mem_nil, false_implies, implies_true,
    and_true]
  exact ⟨singleLine_of_plain footer, singleLine_of_plain nofun⟩

/-- An empty source is one line in the text; every other one keeps its lines. -/
theorem length_completeLines_sourceText (content : Text) :
    (completeLines content).length ≤ (completeLines (sourceText content)).length ∧
      ((completeLines (sourceText content)).length = (completeLines content).length ↔
        content ≠ []) := by
  unfold sourceText
  split
  · next ended =>
    rw [List.append_nil]
    exact ⟨Nat.le_refl _, iff_of_true rfl (by rintro rfl; cases ended)⟩
  · next unended =>
    by_cases filled : content = []
    · subst filled
      exact ⟨Nat.zero_le _, iff_of_false (by decide) (not_not_intro rfl)⟩
    · have same := length_completeLines_feed filled unended
      exact ⟨same.ge, iff_of_true same filled⟩

theorem completeLines_snippetText (index : Nat) (fields : SnippetFields) :
    completeLines (snippetText index fields) =
      completeLines (terminated (headerLines index fields)) ++
        (completeLines (sourceText fields.content) ++
          completeLines (terminated (footerLines index))) := by
  unfold snippetText
  rw [completeLines_append_of_ended ended_terminated,
    completeLines_append_of_ended (ended_sourceText fields.content)]

/-- The lines of a snippet when its names keep to their lines. -/
def fewestLines (fields : SnippetFields) : Nat := 8 + (completeLines fields.content).length

theorem length_completeLines_snippetText (index : Nat) (fields : SnippetFields) :
    fewestLines fields ≤ (completeLines (snippetText index fields)).length ∧
      ((completeLines (snippetText index fields)).length = fewestLines fields ↔
        fields.Plain) := by
  obtain ⟨headerLow, header⟩ := length_completeLines_terminated (headerLines index fields)
  obtain ⟨sourceLow, source⟩ := length_completeLines_sourceText fields.content
  have footer := (length_completeLines_terminated (footerLines index)).2.mpr
    (singleLine_footerLines index)
  rw [singleLine_headerLines] at header
  have plain : fields.Plain ↔ (completeLines (terminated (headerLines index fields))).length =
      (headerLines index fields).length ∧
        (completeLines (sourceText fields.content)).length =
          (completeLines fields.content).length := by
    rw [header, source]
    exact ⟨fun ⟨path, name, kind, filled⟩ => ⟨⟨path, name, kind⟩, filled⟩,
      fun ⟨⟨path, name, kind⟩, filled⟩ => ⟨path, name, kind, filled⟩⟩
  rw [completeLines_snippetText, List.length_append, List.length_append, footer, plain]
  simp only [headerLines, footerLines, List.length_cons, List.length_nil, fewestLines] at *
  omega

/-! ## The lines of all snippets -/

theorem ended_snippetText (index : Nat) (fields : SnippetFields) :
    ∀ last ∈ (snippetText index fields).getLast?, last = '\n' := by
  intro last mem
  have footer : terminated (footerLines index) ≠ [] := by
    unfold footerLines terminated
    simp
  rw [snippetText, ← List.append_assoc, List.getLast?_append_of_ne_nil _ footer] at mem
  exact ended_terminated last mem

theorem completeLines_bodyText_cons (index : Nat) (fields : SnippetFields)
    (rest : List SnippetFields) :
    completeLines (bodyText index (fields :: rest)) =
      completeLines (snippetText index fields) ++ completeLines (bodyText (index + 1) rest) :=
  completeLines_append_of_ended (ended_snippetText index fields) _

theorem completeLines_bodyText_append (index : Nat) (front back : List SnippetFields) :
    completeLines (bodyText index (front ++ back)) =
      completeLines (bodyText index front) ++
        completeLines (bodyText (index + front.length) back) := by
  induction front generalizing index with
  | nil => rfl
  | cons fields front ih =>
    rw [List.cons_append, completeLines_bodyText_cons, completeLines_bodyText_cons, ih,
      List.append_assoc, List.length_cons, Nat.add_assoc, Nat.add_comm 1]

def fewestLinesOf (all : List SnippetFields) : Nat := (all.map fewestLines).sum

theorem length_completeLines_bodyText (index : Nat) (all : List SnippetFields) :
    fewestLinesOf all ≤ (completeLines (bodyText index all)).length ∧
      ((completeLines (bodyText index all)).length = fewestLinesOf all ↔
        ∀ fields ∈ all, fields.Plain) := by
  induction all generalizing index with
  | nil => exact ⟨Nat.le_refl _, by simp [bodyText, completeLines, scanLines, fewestLinesOf]⟩
  | cons fields rest ih =>
    obtain ⟨hereLow, here⟩ := length_completeLines_snippetText index fields
    obtain ⟨laterLow, later⟩ := ih (index + 1)
    rw [completeLines_bodyText_cons, List.length_append, List.forall_mem_cons, ← here, ← later]
    simp only [fewestLinesOf, List.map_cons, List.sum_cons] at *
    omega

/-- The start line of a snippet: the lines counted for those before it, and one. -/
theorem getElem?_startsFrom {nextLine : Nat} {all : List SnippetFields} {index start : Nat}
    (small : nextLine ≤ usizeMax) (found : (startsFrom nextLine all)[index]? = some start) :
    start = min (nextLine + fewestLinesOf (all.take index)) usizeMax := by
  induction all generalizing nextLine index with
  | nil => cases found
  | cons fields rest ih =>
    cases index with
    | zero =>
      obtain rfl := Option.some.inj found
      simp [fewestLinesOf, small]
    | succ index =>
      have capped := ih (Nat.min_le_right _ _) found
      have counted := completeLineCount_eq fields.content
      rw [capped, List.take_succ_cons]
      simp only [countedLines, fewestLinesOf, List.map_cons, List.sum_cons,
        fewestLines]
      omega

/-! ## What is read from a start line on -/

/-- What `read_file` gives from a line on. -/
def readFrom (contents : Text) (startLine : Nat) : Text :=
  ((completeLines contents).drop (startLine - 1)).flatten

/-- Without the lines before a snippet the text has that snippet and those behind it. -/
theorem readFrom_bodyText {front : List SnippetFields} (back : List SnippetFields)
    (small : fewestLinesOf front < usizeMax) :
    readFrom (bodyText 0 (front ++ back)) (min (1 + fewestLinesOf front) usizeMax) =
        bodyText front.length back ↔
      ∀ fields ∈ front, fields.Plain := by
  obtain ⟨low, exact_⟩ := length_completeLines_bodyText 0 front
  have start : min (1 + fewestLinesOf front) usizeMax - 1 = fewestLinesOf front := by omega
  rw [← exact_, readFrom, start, completeLines_bodyText_append, Nat.zero_add,
    List.drop_append_of_le_length low, List.flatten_append, flatten_completeLines]
  constructor
  · intro same
    have none_ : ((completeLines (bodyText 0 front)).drop (fewestLinesOf front)).flatten = [] :=
      List.append_left_eq_self.mp same
    have gone : (completeLines (bodyText 0 front)).drop (fewestLinesOf front) = [] := by
      rw [← completeLines_drop, none_]
      rfl
    exact Nat.le_antisymm (List.drop_eq_nil_iff.mp gone) low
  · intro counted
    rw [List.drop_of_length_le counted.le]
    rfl

/-- The first line of the text of a snippet is its header. -/
theorem head_bodyText (index : Nat) (fields : SnippetFields) (rest : List SnippetFields) :
    (completeLines (bodyText index (fields :: rest)))[0]? = some (snippetHeader index ++ ['\n']) := by
  have header := completeLines_singleLine (singleLine_of_plain (plain_snippetHeader index))
  rw [completeLines_bodyText_cons, completeLines_snippetText, headerLines, terminated_cons,
    completeLines_append_feed, header]
  rfl

end Foco.GraphSnapshots

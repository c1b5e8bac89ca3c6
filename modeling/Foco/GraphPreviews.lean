import Foco.GraphSnapshotLines

/-!
The preview of `graph_explore`: the loop gives the largest number of snippets whose response fits,
and the response sends the reader to the right line of the snapshot exactly if the snippets that
are shown have as many lines as were counted.
-/
namespace Foco.GraphSnapshots
open Foco.RustText Foco.TextLines Foco.Result

section
variable {request : Request} {id : Text} {snippets : List GraphExploreSnippet}
  {requestedCount : Nat}

/-- A response with that number of snippets fits, whatever was tried before. -/
def InlineFits (request : Request) (id : Text) (snippets : List GraphExploreSnippet)
    (requestedCount returnedCount : Nat) : Prop :=
  ∃ response snapshot,
    responseWith request id snippets requestedCount returnedCount none = .ok (response, snapshot) ∧
      fitsSoftBudget response.toJson = .ok true

/-- The snapshot that is kept from a larger number of snippets is the one that is made. -/
def Kept (id : Text) (snippets : List GraphExploreSnippet) (returnedCount : Nat)
    (snapshot : Option GraphExploreSnapshot) : Prop :=
  ∀ kept ∈ snapshot, prepareGraphExploreSnapshot id snippets = .ok kept ∧
    returnedCount < snippets.length

theorem snapshotFor_kept {returnedCount : Nat} {snapshot : Option GraphExploreSnapshot}
    (kept : Kept id snippets returnedCount snapshot) :
    snapshotFor id snippets (decide (returnedCount < snippets.length)) snapshot =
      snapshotFor id snippets (decide (returnedCount < snippets.length)) none := by
  cases snapshot with
  | none => rfl
  | some snapshot =>
    obtain ⟨prepared, less⟩ := kept snapshot rfl
    simp [snapshotFor, prepared, less, Except.map]

theorem responseWith_kept {returnedCount : Nat} {snapshot : Option GraphExploreSnapshot}
    (kept : Kept id snippets returnedCount snapshot) :
    responseWith request id snippets requestedCount returnedCount snapshot =
      responseWith request id snippets requestedCount returnedCount none := by
  unfold responseWith
  dsimp only
  rw [snapshotFor_kept kept]

/-- What a response says, and which snapshot it is about. -/
theorem responseWith_eq_ok {returnedCount : Nat} {response : Response}
    {snapshot : Option GraphExploreSnapshot} :
    responseWith request id snippets requestedCount returnedCount none =
        .ok (response, snapshot) ↔
      snapshotFor id snippets (decide (returnedCount < snippets.length)) none = .ok snapshot ∧
        ∃ continuation, continuationOf returnedCount snippets.length snapshot = .ok continuation ∧
          response = {
            request
            snippets := (snippets.take returnedCount).map GraphExploreSnippet.value
            truncated := decide (returnedCount < snippets.length)
            outputTruncated := decide (returnedCount < requestedCount)
            totalCount := snippets.length
            returnedCount
            continuation } := by
  unfold responseWith
  simp only [bind_eq_ok, pure_eq_ok, Prod.mk.injEq]
  constructor
  · rintro ⟨_, prepared, continuation, continued, rfl, rfl⟩
    exact ⟨prepared, continuation, continued, rfl⟩
  · rintro ⟨prepared, continuation, continued, rfl⟩
    exact ⟨_, prepared, continuation, continued, rfl, rfl⟩

theorem kept_of_response {returnedCount : Nat} {response : Response}
    {snapshot : Option GraphExploreSnapshot}
    (responded : responseWith request id snippets requestedCount (returnedCount + 1) none =
      .ok (response, snapshot)) : Kept id snippets returnedCount snapshot := by
  obtain ⟨prepared, -⟩ := responseWith_eq_ok.mp responded
  rintro kept rfl
  unfold snapshotFor at prepared
  split at prepared
  · next truncated =>
    have less := of_decide_eq_true truncated.1
    refine ⟨?_, by omega⟩
    cases made : prepareGraphExploreSnapshot id snippets with
    | error => rw [made] at prepared; cases prepared
    | ok made_ =>
      rw [made] at prepared
      exact congrArg _ (Option.some.inj (Except.ok.inj prepared))
  · cases prepared

theorem previewFrom_bind (returnedCount : Nat) (snapshot : Option GraphExploreSnapshot) :
    ∃ refused, previewFrom request id snippets requestedCount returnedCount snapshot =
      responseWith request id snippets requestedCount returnedCount snapshot >>= fun tried =>
        fitsSoftBudget tried.1.toJson >>= fun fits =>
          if fits then pure tried
          else match returnedCount with
            | 0 => .error refused
            | count + 1 => previewFrom request id snippets requestedCount count tried.2 := by
  cases returnedCount with
  | zero => exact ⟨_, rfl⟩
  | succ count => exact ⟨.invalidArguments [], rfl⟩

/-- One turn of the loop. -/
theorem previewFrom_step {returnedCount : Nat} {snapshot : Option GraphExploreSnapshot}
    {result : Response × Option GraphExploreSnapshot}
    (done : previewFrom request id snippets requestedCount returnedCount snapshot = .ok result) :
    ∃ tried, responseWith request id snippets requestedCount returnedCount snapshot = .ok tried ∧
      ((fitsSoftBudget tried.1.toJson = .ok true ∧ result = tried) ∨
        (fitsSoftBudget tried.1.toJson = .ok false ∧ ∃ count, returnedCount = count + 1 ∧
          previewFrom request id snippets requestedCount count tried.2 = .ok result)) := by
  obtain ⟨refused, turn⟩ := previewFrom_bind returnedCount snapshot
  rw [turn] at done
  obtain ⟨tried, responded, done⟩ := bind_eq_ok.mp done
  obtain ⟨fits, measured, done⟩ := bind_eq_ok.mp done
  refine ⟨tried, responded, ?_⟩
  cases fits with
  | true => exact .inl ⟨measured, (pure_eq_ok.mp done).symm⟩
  | false =>
    cases returnedCount with
    | zero => cases done
    | succ count => exact .inr ⟨measured, count, rfl, done⟩

/-- The loop gives the largest number of snippets that fits. -/
theorem previewFrom_eq_ok {returnedCount : Nat} {snapshot : Option GraphExploreSnapshot}
    {result : Response × Option GraphExploreSnapshot}
    (kept : Kept id snippets returnedCount snapshot)
    (done : previewFrom request id snippets requestedCount returnedCount snapshot = .ok result) :
    ∃ count ≤ returnedCount,
      responseWith request id snippets requestedCount count none = .ok result ∧
        fitsSoftBudget result.1.toJson = .ok true ∧
        ∀ larger, count < larger → larger ≤ returnedCount →
          ¬InlineFits request id snippets requestedCount larger := by
  induction returnedCount generalizing snapshot with
  | zero =>
    obtain ⟨tried, responded, ⟨fits, rfl⟩ | ⟨-, count, none_, -⟩⟩ := previewFrom_step done
    · rw [responseWith_kept kept] at responded
      exact ⟨0, Nat.le_refl _, responded, fits, fun larger less most => by omega⟩
    · cases none_
  | succ returnedCount ih =>
    obtain ⟨tried, responded, ⟨fits, rfl⟩ | ⟨tooLarge, count, same, later⟩⟩ :=
      previewFrom_step done
    · rw [responseWith_kept kept] at responded
      exact ⟨returnedCount + 1, Nat.le_refl _, responded, fits, fun larger less most => by omega⟩
    · rw [responseWith_kept kept] at responded
      obtain rfl := Nat.succ.inj same
      obtain ⟨count, most, chosen, fits, unfit⟩ := ih (kept_of_response responded) later
      refine ⟨count, Nat.le_succ_of_le most, chosen, fits, fun larger less upTo => ?_⟩
      obtain upTo | rfl := Nat.le_or_eq_of_le_succ upTo
      · exact unfit larger less upTo
      · rintro ⟨response, snapshot, responded', fits'⟩
        obtain rfl := Except.ok.inj (responded.symm.trans responded')
        exact Bool.noConfusion (Except.ok.inj (tooLarge.symm.trans fits'))

end

/-! ## What a reader of the snapshot is given -/

/-- The inline snippets are the first ones, and the snapshot has the header of the next snippet at
the line that is named, and from it on the omitted snippets. -/
structure Faithful (snippets : List GraphExploreSnippet) (response : Response)
    (snapshot : Option GraphExploreSnapshot) : Prop where
  inline : response.snippets = (snippets.take response.returnedCount).map GraphExploreSnippet.value
  total : response.totalCount = snippets.length
  truncated : response.truncated = true ↔ response.returnedCount < response.totalCount
  continued : response.truncated = true → ∃ written continuation,
    snapshot = some written ∧ response.continuation = some continuation ∧
      (completeLines written.contents)[continuation.nextStartLine - 1]? =
          some (snippetHeader response.returnedCount ++ ['\n']) ∧
        1 ≤ continuation.nextStartLine ∧
        ∃ starts, renderFrom ⟨[], 1⟩ [] response.returnedCount
            (snippets.drop response.returnedCount) =
          .ok (readFrom written.contents continuation.nextStartLine, starts)

/-- The names of the snippet keep to their lines, and it has a source. -/
def GraphExploreSnippet.Plain (snippet : GraphExploreSnippet) : Prop :=
  ∀ fields, snippetFields snippet.value = .ok fields → fields.Plain

/-- The text of the snapshot is as long as a text can be. -/
def Addressable (snippets : List GraphExploreSnippet) : Prop :=
  ∀ contents starts, renderGraphExploreSnapshot snippets = .ok (contents, starts) →
    utf8Length contents < 2 ^ 63

section
variable {request : Request} {id : Text} {snippets : List GraphExploreSnippet}
  {requestedCount : Nat}

/-- The rendered fields of the snippets, those before a position and those from it on. -/
structure Rendered (snippets : List GraphExploreSnippet) (count : Nat) (contents : Text)
    (starts : List Nat) (front back : List SnippetFields) : Prop where
  front_read : List.Forall₂ (fun snippet fields => snippetFields snippet.value = .ok fields)
    (snippets.take count) front
  back_read : List.Forall₂ (fun snippet fields => snippetFields snippet.value = .ok fields)
    (snippets.drop count) back
  contents_eq : contents = bodyText 0 (front ++ back)
  starts_eq : starts = startsFrom 1 (front ++ back)

theorem rendered_of_render {count : Nat} {contents : Text} {starts : List Nat}
    (rendered : renderGraphExploreSnapshot snippets = .ok (contents, starts)) :
    ∃ front back, Rendered snippets count contents starts front back := by
  obtain ⟨all, reads, rfl, rfl⟩ := (renderFrom_eq_ok (by decide)).mp rendered
  have read := mapM_eq_ok.mp reads
  refine ⟨all.take count, all.drop count, List.forall₂_take count read,
    List.forall₂_drop count read, ?_, ?_⟩
  · rw [List.take_append_drop]
    rfl
  · rw [List.take_append_drop]
    rfl

theorem plain_of_read {some_ : List GraphExploreSnippet} {all : List SnippetFields}
    (read : List.Forall₂ (fun snippet fields => snippetFields snippet.value = .ok fields) some_ all) :
    (∀ fields ∈ all, fields.Plain) ↔ ∀ snippet ∈ some_, snippet.Plain := by
  induction read with
  | nil => simp
  | cons read _ ih =>
    rw [List.forall_mem_cons, List.forall_mem_cons, ih]
    refine and_congr_left fun _ => ⟨fun plain fields same => ?_, fun plain => plain _ read⟩
    rw [← Except.ok.inj (read.symm.trans same)]
    exact plain

/-- The line that is named is the right one exactly if the lines before it were counted right. -/
theorem continued_iff {count start : Nat} {contents : Text} {starts : List Nat}
    (more : count < snippets.length) (addressable : utf8Length contents < 2 ^ 63)
    (rendered : renderGraphExploreSnapshot snippets = .ok (contents, starts))
    (found : starts[count]? = some start) :
    ((completeLines contents)[start - 1]? = some (snippetHeader count ++ ['\n']) ∧ 1 ≤ start ∧
      ∃ starts, renderFrom ⟨[], 1⟩ [] count (snippets.drop count) =
        .ok (readFrom contents start, starts)) ↔
      ∀ snippet ∈ snippets.take count, snippet.Plain := by
  obtain ⟨front, back, read⟩ := rendered_of_render rendered
  have taken : front.length = count := by
    rw [← read.front_read.length_eq, List.length_take, Nat.min_eq_left more.le]
  have others : back ≠ [] := by
    rintro rfl
    have none_ := read.back_read.length_eq
    rw [List.length_drop, List.length_nil] at none_
    omega
  obtain ⟨next, rest, rfl⟩ := List.exists_cons_of_ne_nil others
  have small : fewestLinesOf front < usizeMax := by
    have lines := (length_completeLines_bodyText 0 front).1
    have whole := length_completeLines_le contents
    have bytes := length_le_utf8Length contents
    have parts := congrArg List.length (completeLines_bodyText_append 0 front (next :: rest))
    rw [List.length_append, ← read.contents_eq] at parts
    have limit : (2 : Nat) ^ 63 < usizeMax := by decide
    omega
  have start_eq : start = min (1 + fewestLinesOf front) usizeMax := by
    have counted := getElem?_startsFrom (by decide) (read.starts_eq ▸ found)
    rwa [← taken, List.take_left] at counted
  have renders (text : Text) : (∃ starts, renderFrom ⟨[], 1⟩ [] count (snippets.drop count) =
      .ok (text, starts)) ↔ text = bodyText count (next :: rest) := by
    have first : (⟨[], 1⟩ : SnapshotText).nextLine ≤ usizeMax := by decide
    have reads := mapM_eq_ok.mpr read.back_read
    constructor
    · rintro ⟨starts, rendered⟩
      obtain ⟨all, reads', same, -⟩ := (renderFrom_eq_ok first).mp rendered
      obtain rfl := Except.ok.inj (reads.symm.trans reads')
      exact same
    · rintro rfl
      exact ⟨_, (renderFrom_eq_ok first).mpr ⟨_, reads, rfl, rfl⟩⟩
  have reading := readFrom_bodyText (next :: rest) small
  rw [renders, ← plain_of_read read.front_read, ← reading, ← start_eq, ← read.contents_eq, taken]
  refine ⟨fun ⟨_, _, same⟩ => same, fun same => ⟨?_, ?_, same⟩⟩
  · have header := head_bodyText count next rest
    rw [← same, readFrom, completeLines_drop, List.getElem?_drop] at header
    exact header
  · have limit : 1 ≤ usizeMax := by decide
    omega

/-- A response is faithful exactly if it shows everything or only snippets that keep to their
lines. -/
theorem faithful_response_iff {count : Nat} {response : Response}
    {snapshot : Option GraphExploreSnapshot} (addressable : Addressable snippets)
    (responded : responseWith request id snippets requestedCount count none =
      .ok (response, snapshot)) :
    Faithful snippets response snapshot ↔
      (count < snippets.length → ∀ snippet ∈ snippets.take count, snippet.Plain) := by
  obtain ⟨prepared, continuation, continued, rfl⟩ := responseWith_eq_ok.mp responded
  by_cases more : count < snippets.length
  · rw [snapshotFor, if_pos ⟨decide_eq_true more, rfl⟩] at prepared
    obtain ⟨written, made, rfl⟩ := map_eq_ok.mp prepared
    obtain ⟨⟨contents, starts⟩, rendered, made⟩ := bind_eq_ok.mp made
    obtain rfl := pure_eq_ok.mp made
    unfold continuationOf at continued
    cases found : starts[count]? with
    | none => simp only [found] at continued; cases continued
    | some start =>
      simp only [found, Except.ok.injEq] at continued
      subst continued
      have lines := continued_iff more (addressable contents starts rendered) rendered found
      refine ⟨fun faithful _ => ?_, fun plain => ?_⟩
      · obtain ⟨_, _, same, named, right⟩ := faithful.continued (decide_eq_true more)
        obtain rfl := Option.some.inj same
        obtain rfl := Option.some.inj named
        exact lines.mp right
      · exact ⟨rfl, rfl, decide_eq_true_iff, fun _ =>
          ⟨_, _, rfl, rfl, lines.mpr (plain more)⟩⟩
  · refine iff_of_true ⟨rfl, rfl, decide_eq_true_iff, fun truncated => ?_⟩
      fun less => absurd less more
    exact absurd (of_decide_eq_true truncated) more

end

/-- The largest number of snippets, up to the limit, whose response fits. -/
structure LargestFit (request : Request) (id : Text) (snippets : List GraphExploreSnippet)
    (previewLimit count : Nat) : Prop where
  most : count ≤ min previewLimit snippets.length
  fits : InlineFits request id snippets (min previewLimit snippets.length) count
  larger : ∀ larger, count < larger → larger ≤ min previewLimit snippets.length →
    ¬InlineFits request id snippets (min previewLimit snippets.length) larger

theorem largestFit_unique {request : Request} {id : Text} {snippets : List GraphExploreSnippet}
    {previewLimit a b : Nat} (first : LargestFit request id snippets previewLimit a)
    (second : LargestFit request id snippets previewLimit b) : a = b := by
  obtain less | same | less := Nat.lt_trichotomy a b
  · exact absurd second.fits (first.larger b less second.most)
  · exact same
  · exact absurd first.fits (second.larger a less first.most)

theorem largestFit_of_preview {request : Request} {id : Text} {snippets : List GraphExploreSnippet}
    {previewLimit : Nat} {result : Response × Option GraphExploreSnapshot}
    (answered : graphExplorePreviewResponse request id snippets previewLimit = .ok result) :
    ∃ count, LargestFit request id snippets previewLimit count ∧
      responseWith request id snippets (min previewLimit snippets.length) count none =
        .ok result := by
  have nothingKept : Kept id snippets (min previewLimit snippets.length) none := nofun
  obtain ⟨count, most, responded, fits, larger⟩ := previewFrom_eq_ok nothingKept answered
  exact ⟨count, ⟨most, ⟨result.1, result.2, responded, fits⟩, larger⟩, responded⟩

/-- The preview and its snapshot give every snippet once and in order, exactly if no shown snippet
has a name with a line break or an empty source, or nothing is left out. -/
theorem graphExplorePreviewResponse_faithful_iff (request : Request) (id : Text)
    (snippets : List GraphExploreSnippet) (previewLimit : Nat) (response : Response)
    (snapshot : Option GraphExploreSnapshot) (addressable : Addressable snippets)
    (answered : graphExplorePreviewResponse request id snippets previewLimit =
      .ok (response, snapshot)) :
    Faithful snippets response snapshot ↔
      ∀ count, LargestFit request id snippets previewLimit count → count < snippets.length →
        ∀ snippet ∈ snippets.take count, snippet.Plain := by
  obtain ⟨count, largest, responded⟩ := largestFit_of_preview answered
  rw [faithful_response_iff addressable responded]
  constructor
  · intro plain other fits
    rw [← largestFit_unique largest fits]
    exact plain
  · exact fun plain => plain count largest

/-! ## A file name with a line break -/

def anyRequest : Request := ⟨some "main".toList, none, 3, 1000⟩

def snippetAt (path : Text) : GraphExploreSnippet :=
  ⟨.object [("symbol", .object [("symbolId", jsonNat 1), ("name", .string "main".toList)]),
    ("path", .string path), ("startLine", jsonNat 1), ("endLine", jsonNat 1),
    ("content", .string "fn main() {}".toList)]⟩

/-- Two snippets of which one is shown. -/
def snippetsIn (path : Text) : List GraphExploreSnippet :=
  [snippetAt path, snippetAt "b.rs".toList]

theorem addressable_of_size {snippets : List GraphExploreSnippet}
    (size : (renderGraphExploreSnapshot snippets).toOption.any
      (fun rendered => decide (utf8Length rendered.1 < 2 ^ 63)) = true) : Addressable snippets := by
  intro contents starts rendered
  rw [rendered] at size
  exact of_decide_eq_true size

theorem exists_of_any {ε α : Type} {x : Except ε α} {p : α → Bool}
    (holds : x.toOption.any p = true) : ∃ a, x = .ok a ∧ p a = true := by
  cases x with
  | error e => cases holds
  | ok a => exact ⟨a, rfl, holds⟩

theorem graphExplorePreviewResponse_faithful_iff_plain_path :
    ∃ response snapshot, graphExplorePreviewResponse anyRequest "1".toList
        (snippetsIn "a.rs".toList) 1 = .ok (response, snapshot) ∧
      Faithful (snippetsIn "a.rs".toList) response snapshot := by
  have answers : (graphExplorePreviewResponse anyRequest "1".toList
      (snippetsIn "a.rs".toList) 1).isOk = true := by decide +kernel
  obtain ⟨⟨response, snapshot⟩, answered⟩ := exists_of_isOk answers
  refine ⟨response, snapshot, answered, ?_⟩
  have addressable : Addressable (snippetsIn "a.rs".toList) :=
    addressable_of_size (by decide +kernel)
  refine (graphExplorePreviewResponse_faithful_iff _ _ _ _ _ _ addressable answered).mpr ?_
  intro count largest _ snippet mem fields read
  have few : count ≤ 1 := largest.most
  obtain rfl : snippet = snippetAt "a.rs".toList :=
    List.mem_singleton.mp (List.take_subset_take_left [snippetAt _, snippetAt _] few mem)
  obtain rfl : fields = ⟨1, "a.rs".toList, "main".toList, "unknown".toList, 1, 1,
      "fn main() {}".toList⟩ := Except.ok.inj (read.symm.trans rfl)
  exact ⟨singleLine_of_plain (by decide), by decide, by decide, by decide⟩

/-- The line break in the first path makes the snapshot one line longer than was counted. -/
theorem graphExplorePreviewResponse_broken_path :
    ∃ response snapshot, graphExplorePreviewResponse anyRequest "1".toList
        (snippetsIn "a\nb.rs".toList) 1 = .ok (response, snapshot) ∧
      ¬Faithful (snippetsIn "a\nb.rs".toList) response snapshot := by
  have checked : ((graphExplorePreviewResponse anyRequest "1".toList
      (snippetsIn "a\nb.rs".toList) 1).toOption.any fun result =>
        result.1.truncated && result.2.all fun written =>
          result.1.continuation.all fun continuation =>
            decide ((completeLines written.contents)[continuation.nextStartLine - 1]? ≠
              some (snippetHeader result.1.returnedCount ++ ['\n']))) = true := by decide +kernel
  obtain ⟨⟨response, snapshot⟩, answered, holds⟩ := exists_of_any checked
  obtain ⟨shown, line⟩ := Bool.and_eq_true_iff.mp holds
  refine ⟨response, snapshot, answered, fun faithful => ?_⟩
  obtain ⟨written, continuation, rfl, named, header, -⟩ :=
    faithful.continued shown
  have elsewhere : decide ((completeLines written.contents)[continuation.nextStartLine - 1]? ≠
      some (snippetHeader response.returnedCount ++ ['\n'])) = true := by
    simpa only [Option.all_some, named] using line
  exact of_decide_eq_true elsewhere header

end Foco.GraphSnapshots

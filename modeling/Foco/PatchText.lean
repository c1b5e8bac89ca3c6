import Foco.PatchReplacements

/-!
`tools/apply_patch.rs`: the text that an Update File hunk leaves. The lines of the file
outside the replaced ranges stay as they are, except when the lines to write end with an
empty one: then that line is taken for the final newline.
-/
namespace Foco.ApplyPatch
open Foco.RustText Foco.Splices
open Foco.Result (bind_eq_ok pure_eq_ok)

/-! ## The lines of a patch -/

/-- A text without a newline. -/
def Plain (line : Text) : Prop := '\n' ∉ line

theorem Plain.of_sublist {part line : Text} (plain : Plain line) (sub : part.Sublist line) :
    Plain part := fun mem => plain (sub.subset mem)

/-- Only the end of a piece of `split_inclusive` can be the separator. -/
theorem not_mem_dropLast_splitInclusive {sep : Char} {text piece : Text}
    (mem : piece ∈ splitInclusive sep text) :
    sep ∉ piece.dropLast ∧ (piece.getLast? ≠ some sep → sep ∉ piece) := by
  induction text generalizing piece with
  | nil => cases mem
  | cons c text ih =>
    by_cases separator : c = sep
    · subst separator
      rw [splitInclusive_cons_self] at mem
      rcases List.mem_cons.mp mem with rfl | later
      · exact ⟨List.not_mem_nil, fun apart => absurd rfl apart⟩
      · exact ih later
    · have apart : ¬ sep = c := fun same => separator same.symm
      rw [splitInclusive_cons_of_ne separator] at mem
      split at mem
      · rw [List.mem_singleton.mp mem]
        exact ⟨List.not_mem_nil, fun _ => by simpa using apart⟩
      · rename_i head rest split
        rcases List.mem_cons.mp mem with rfl | later
        · obtain ⟨init, whole⟩ := ih (split ▸ List.mem_cons_self)
          cases head with
          | nil => exact ⟨List.not_mem_nil, fun _ => by simpa using apart⟩
          | cons d tail =>
            rw [List.dropLast_cons_cons, List.getLast?_cons_cons]
            refine ⟨?_, fun ends => ?_⟩
            · exact List.not_mem_cons_of_ne_of_not_mem apart init
            · exact List.not_mem_cons_of_ne_of_not_mem apart (whole ends)
        · exact ih (split ▸ List.mem_cons_of_mem head later)

theorem stripSuffixChar_sublist (c : Char) (text : Text) :
    (stripSuffixChar c text).Sublist text := by
  unfold stripSuffixChar
  split
  · split
    · exact List.dropLast_sublist text
    · exact List.Sublist.refl text
  · exact List.Sublist.refl text

theorem plain_of_mem_lines {text line : Text} (mem : line ∈ lines text) : Plain line := by
  obtain ⟨piece, pieceMem, rfl⟩ := List.mem_map.mp mem
  obtain ⟨init, whole⟩ := not_mem_dropLast_splitInclusive pieceMem
  unfold stripLineEnding
  split
  · exact Plain.of_sublist init (stripSuffixChar_sublist '\r' piece.dropLast)
  · rename_i ends
    exact whole ends

theorem unwrapHeredoc_subset {document : List Text} {line : Text}
    (mem : line ∈ unwrapHeredoc document) : line ∈ document := by
  unfold unwrapHeredoc at mem
  split at mem
  · exact mem
  · split at mem
    · dsimp only at mem
      split at mem
      · exact List.mem_cons_of_mem _ ((List.dropLast_sublist _).subset mem)
      · exact mem
    · exact mem

/-- The new lines of a chunk have no newline. -/
def PlainChunk (chunk : UpdateFileChunk) : Prop := ∀ line ∈ chunk.newLines, Plain line

theorem closeChunk_plain {chunks found : List UpdateFileChunk} {current : Option ChunkBuilder}
    {lineNumber : Nat} (h : closeChunk chunks current lineNumber = .ok found)
    (finished : ∀ chunk ∈ chunks, PlainChunk chunk)
    (unfinished : ∀ builder ∈ current, ∀ line ∈ builder.newLines, Plain line) :
    ∀ chunk ∈ found, PlainChunk chunk := by
  cases current with
  | none =>
    cases h
    exact finished
  | some builder =>
    obtain ⟨closed, built, result⟩ := bind_eq_ok.mp h
    cases pure_eq_ok.mp result
    unfold ChunkBuilder.intoChunk at built
    split at built
    · cases built
    · cases built
      intro chunk mem
      rcases List.mem_append.mp mem with old | new
      · exact finished chunk old
      · rw [List.mem_singleton.mp new]
        exact unfinished builder rfl

theorem pushLine_plain {builder : ChunkBuilder} {changeLine : Text} (plain : Plain changeLine)
    (before : ∀ line ∈ builder.newLines, Plain line) :
    ∀ line ∈ (builder.pushLine changeLine).newLines, Plain line := by
  have pushed : ∀ added : Text, added.Sublist changeLine →
      ∀ line ∈ builder.newLines ++ [added], Plain line := by
    intro added sub line mem
    rcases List.mem_append.mp mem with old | new
    · exact before line old
    · rw [List.mem_singleton.mp new]
      exact plain.of_sublist sub
  unfold ChunkBuilder.pushLine
  split
  · exact pushed _ (List.sublist_cons_self _ _)
  · exact before
  · exact pushed _ (List.sublist_cons_self _ _)
  · exact pushed _ (List.Sublist.refl _)

theorem updateFileBody_plain {index : Nat} {chunks found : List UpdateFileChunk}
    {current : Option ChunkBuilder} {eofSeen : Bool} {body : List Text}
    (h : updateFileBody index chunks current eofSeen body = .ok found)
    (plain : ∀ line ∈ body, Plain line) (finished : ∀ chunk ∈ chunks, PlainChunk chunk)
    (unfinished : ∀ builder ∈ current, ∀ line ∈ builder.newLines, Plain line) :
    ∀ chunk ∈ found, PlainChunk chunk := by
  induction body generalizing index chunks current eofSeen with
  | nil => exact closeChunk_plain h finished unfinished
  | cons changeLine rest ih =>
    obtain ⟨head, tail⟩ := List.forall_mem_cons.mp plain
    simp only [updateFileBody] at h
    split at h
    · cases h
    · split at h
      · split at h
        · cases h
        · rename_i builder
          exact ih h tail finished fun other mem => by
            cases Option.mem_some.mp mem
            exact unfinished builder rfl
      · split at h
        · cases h
        · split at h
          · obtain ⟨closed, close, goOn⟩ := bind_eq_ok.mp h
            exact ih goOn tail (closeChunk_plain close finished unfinished) fun other mem => by
              cases Option.mem_some.mp mem
              exact List.forall_mem_nil _
          · refine ih h tail finished fun other mem => ?_
            cases Option.mem_some.mp mem
            apply pushLine_plain head
            cases current with
            | none => exact List.forall_mem_nil _
            | some builder => exact unfinished builder rfl

theorem parseHunks_plain {index : Nat} {document : List Text} {hunks : List PatchHunk}
    (h : parseHunks index document = .ok hunks) (plain : ∀ line ∈ document, Plain line) :
    ∀ path movePath chunks, PatchHunk.updateFile path movePath chunks ∈ hunks →
      ∀ chunk ∈ chunks, PlainChunk chunk := by
  induction size : document.length using Nat.strong_induction_on
    generalizing index document hunks with
  | _ size ih =>
    cases document with
    | nil =>
      rw [parseHunks] at h
      cases h
      intro path movePath chunks mem
      cases mem
    | cons line rest =>
      have shorter : ∀ {index' next hunks'}, parseHunks index' next = .ok hunks' →
          next.Sublist rest → ∀ path movePath chunks,
            PatchHunk.updateFile path movePath chunks ∈ hunks' →
              ∀ chunk ∈ chunks, PlainChunk chunk := by
        intro index' next hunks' parsed sub
        have short := sub.length_le
        exact ih next.length (by simp only [List.length_cons] at size; omega) parsed
          (fun line mem => plain line (List.mem_cons_of_mem _ (sub.subset mem))) rfl
      rw [parseHunks] at h
      simp only at h
      split at h
      · obtain ⟨_, _, h⟩ := bind_eq_ok.mp h
        obtain ⟨_, _, h⟩ := bind_eq_ok.mp h
        split at h
        · cases h
        · obtain ⟨hunks', parsed, result⟩ := bind_eq_ok.mp h
          cases pure_eq_ok.mp result
          intro path movePath chunks mem
          rcases List.mem_cons.mp mem with same | later
          · cases same
          · exact shorter parsed (List.dropWhile_sublist _) path movePath chunks later
      · split at h
        · obtain ⟨_, _, h⟩ := bind_eq_ok.mp h
          split at h
          · cases h
          · obtain ⟨hunks', parsed, result⟩ := bind_eq_ok.mp h
            cases pure_eq_ok.mp result
            intro path movePath chunks mem
            rcases List.mem_cons.mp mem with same | later
            · cases same
            · exact shorter parsed (List.Sublist.refl _) path movePath chunks later
        · split at h
          · obtain ⟨_, _, h⟩ := bind_eq_ok.mp h
            split at h
            · cases h
            · rename_i destination afterMove moved
              obtain ⟨read, body, h⟩ := bind_eq_ok.mp h
              split at h
              · cases h
              · obtain ⟨hunks', parsed, result⟩ := bind_eq_ok.mp h
                cases pure_eq_ok.mp result
                have sub : afterMove.Sublist rest := by
                  rcases moveTarget_cases moved with ⟨-, rfl, -⟩ | ⟨moveLine, -, rfl, -, -⟩
                  · exact List.Sublist.refl _
                  · exact List.sublist_cons_self _ _
                intro path movePath chunks mem
                rcases List.mem_cons.mp mem with same | later
                · cases same
                  exact updateFileBody_plain body (fun line lineMem => plain line
                    (List.mem_cons_of_mem _ (sub.subset ((List.takeWhile_sublist _).subset
                      lineMem)))) (List.forall_mem_nil _) (by simp)
                · exact shorter parsed ((List.dropWhile_sublist _).trans sub) path movePath
                    chunks later
          · cases h

/-- No line that a parsed patch writes has a newline in it. -/
theorem parsePatch_plain {patch : Text} {hunks : List PatchHunk}
    (h : parsePatch patch = .ok hunks) {path : Text} {movePath : Option Text}
    {chunks : List UpdateFileChunk} (mem : PatchHunk.updateFile path movePath chunks ∈ hunks) :
    ∀ chunk ∈ chunks, PlainChunk chunk := by
  unfold parsePatch at h
  split at h
  · cases h
  · split at h
    · cases h
    · obtain ⟨_, _, parsed⟩ := bind_eq_ok.mp h
      refine parseHunks_plain parsed (fun line lineMem => ?_) path movePath chunks mem
      have whole := unwrapHeredoc_subset
        (List.mem_of_mem_tail ((List.dropLast_sublist _).subset lineMem))
      obtain ⟨source, sourceMem, rfl⟩ := List.mem_map.mp whole
      exact (plain_of_mem_lines sourceMem).of_sublist (stripSuffixChar_sublist _ _)

/-- A letter that gives way to another one. -/
theorem parsePatch_plain_letter : PlainChunk ⟨none, [['a']], [['b']], false⟩ := by
  have parsed : parsePatch ("*** Begin Patch\n*** Update File: f\n@@\n-a\n+b\n" ++
      "*** End Patch\n").toList = .ok [.updateFile ['f'] none [⟨none, [['a']], [['b']], false⟩]] := by
    decide +kernel
  exact parsePatch_plain parsed (List.mem_singleton_self _) _ (List.mem_singleton_self _)

/-! ## The written text -/

/-- The text of lines that all end with a newline. -/
def terminated (lines : List Text) : Text := lines.flatMap (· ++ ['\n'])

end Foco.ApplyPatch

import Foco.SkillMarkdown

/-!
What the front matter of a skill file is read from: keys on lines, wherever they stand. A key in
nested content counts as one of the file's own.
-/
namespace Foco.SkillMarkdown
open Foco.RustText Foco.Result

/-- `parse_skill_markdown_id`. -/
def parseSkillMarkdownId (path content : Text) : Except Text Text :=
  match lines ((stripPrefix ['\uFEFF'] content).getD content) with
  | [] => .error (skillFile path ++ " must start with YAML frontmatter delimiter '---'".toList)
  | first :: rest =>
    if trim first ≠ "---".toList then
      .error (skillFile path ++ " must start with YAML frontmatter delimiter '---'".toList)
    else match splitFrontmatter rest with
      | none =>
        .error (skillFile path ++ " is missing closing YAML frontmatter delimiter '---'".toList)
      | some (frontmatter, _) => do
        let id ← skillFrontmatterField path "name".toList frontmatter
        (validateSkillId id).mapError fun error => skillFile path ++ ": ".toList ++ error
        return id

/-! ## Keys -/

/-- The key that the scanners see on a line. -/
def lineKey (line : Text) : Option Text :=
  if isSkipped (trim line) then none else (splitOnce ':' (trim line)).map fun found => trim found.1

/-- Whether a key is on one of some lines, indented or not. -/
def HasKey (field : Text) (lines : List Text) : Prop := ∃ line ∈ lines, lineKey line = some field

section Scanners

variable {path field : Text} {front rest : List Text} {line : Text}

theorem skillFrontmatterField_cons_of_ne (other : lineKey line ≠ some field) :
    skillFrontmatterField path field (line :: rest) = skillFrontmatterField path field rest := by
  unfold lineKey at other
  rw [skillFrontmatterField]
  split
  · rfl
  rename_i kept
  rw [if_neg kept] at other
  split
  · rfl
  · rename_i key value split
    rw [split] at other
    exact if_neg fun same => other (congrArg some same)

theorem skillFrontmatterField_cons_of_eq (same : lineKey line = some field) :
    skillFrontmatterField path field (line :: rest) =
      skillFrontmatterField path field [line] := by
  unfold lineKey at same
  rw [skillFrontmatterField, skillFrontmatterField]
  split
  · rename_i skipped
    rw [if_pos skipped] at same
    contradiction
  rename_i kept
  rw [if_neg kept] at same
  split
  · rename_i split
    rw [split] at same
    contradiction
  · rename_i key value split
    rw [split] at same
    rw [if_pos (Option.some.inj same), if_pos (Option.some.inj same)]

theorem skillFrontmatterField_append_of_absent (absent : ¬HasKey field front) :
    skillFrontmatterField path field (front ++ rest) = skillFrontmatterField path field rest := by
  induction front with
  | nil => rfl
  | cons line front ih =>
    rw [List.cons_append, skillFrontmatterField_cons_of_ne fun same =>
      absent ⟨line, List.mem_cons_self, same⟩]
    exact ih fun ⟨other, mem, same⟩ => absent ⟨other, List.mem_cons_of_mem _ mem, same⟩

/-- The first line with the key decides. -/
theorem skillFrontmatterField_append_of_present (present : HasKey field front) :
    skillFrontmatterField path field (front ++ rest) = skillFrontmatterField path field front := by
  induction front with
  | nil =>
    obtain ⟨_, mem, _⟩ := present
    contradiction
  | cons line front ih =>
    by_cases same : lineKey line = some field
    · rw [List.cons_append, skillFrontmatterField_cons_of_eq same]
      exact (skillFrontmatterField_cons_of_eq same).symm
    · have later : HasKey field front := by
        obtain ⟨other, mem, found⟩ := present
        obtain rfl | mem := List.mem_cons.mp mem
        · exact absurd found same
        · exact ⟨other, mem, found⟩
      rw [List.cons_append, skillFrontmatterField_cons_of_ne same,
        skillFrontmatterField_cons_of_ne same, ih later]

/-- A description that goes on over lines stops at the next key at top level. -/
theorem descriptionParts_append (topLevel : isTopLevelFrontmatterKeyLine line = true)
    (requireIndentedBlock : Bool) (parts : List Text) :
    descriptionParts requireIndentedBlock parts (front ++ line :: rest) =
      descriptionParts requireIndentedBlock parts front := by
  induction front generalizing parts with
  | nil => rw [List.nil_append, descriptionParts, descriptionParts, if_pos topLevel]
  | cons head front ih =>
    rw [List.cons_append, descriptionParts, descriptionParts, ih, ih]

theorem skillFrontmatterDescription_cons_of_ne (other : lineKey line ≠ some "description".toList) :
    skillFrontmatterDescription path (line :: rest) = skillFrontmatterDescription path rest := by
  unfold lineKey at other
  rw [skillFrontmatterDescription]
  split
  · rfl
  rename_i kept
  rw [if_neg kept] at other
  split
  · rfl
  · rename_i key value split
    rw [split] at other
    exact if_pos fun same => other (congrArg some same)

theorem skillFrontmatterDescription_append_of_absent
    (absent : ¬HasKey "description".toList front) :
    skillFrontmatterDescription path (front ++ rest) = skillFrontmatterDescription path rest := by
  induction front with
  | nil => rfl
  | cons line front ih =>
    rw [List.cons_append, skillFrontmatterDescription_cons_of_ne fun same =>
      absent ⟨line, List.mem_cons_self, same⟩]
    exact ih fun ⟨other, mem, same⟩ => absent ⟨other, List.mem_cons_of_mem _ mem, same⟩

/-- Nothing behind a key at top level belongs to a description in front of it. -/
theorem skillFrontmatterDescription_append_of_present
    (topLevel : isTopLevelFrontmatterKeyLine line = true)
    (present : HasKey "description".toList front) :
    skillFrontmatterDescription path (front ++ line :: rest) =
      skillFrontmatterDescription path front := by
  induction front with
  | nil =>
    obtain ⟨_, mem, _⟩ := present
    contradiction
  | cons head front ih =>
    by_cases same : lineKey head = some "description".toList
    · rw [List.cons_append, skillFrontmatterDescription, skillFrontmatterDescription]
      unfold collectDescriptionContinuation
      rw [descriptionParts_append topLevel, descriptionParts_append topLevel]
      unfold lineKey at same
      split
      · rename_i skipped
        rw [if_pos skipped] at same
        contradiction
      rename_i kept
      rw [if_neg kept] at same
      split
      · rename_i split
        rw [split] at same
        contradiction
      · rename_i key value split
        rw [split] at same
        have keyed : ¬trim key ≠ "description".toList := not_not.mpr (Option.some.inj same)
        rw [if_neg keyed, if_neg keyed]
    · have later : HasKey "description".toList front := by
        obtain ⟨other, mem, found⟩ := present
        obtain rfl | mem := List.mem_cons.mp mem
        · exact absurd found same
        · exact ⟨other, mem, found⟩
      rw [List.cons_append, skillFrontmatterDescription_cons_of_ne same,
        skillFrontmatterDescription_cons_of_ne same, ih later]

end Scanners

/-! ## Files -/

section Files

variable {path content : Text} {opening : Text} {frontmatter body : List Text}

/-- The lines of a file with front matter. -/
structure Framed (content opening : Text) (frontmatter body : List Text) : Prop where
  shape : ∃ closing, lines ((stripPrefix ['\uFEFF'] content).getD content) =
    opening :: (frontmatter ++ closing :: body) ∧ trim closing = "---".toList
  opens : trim opening = "---".toList
  inside : ∀ line ∈ frontmatter, trim line ≠ "---".toList

theorem splitFrontmatter_append {closing : Text} (inside : ∀ line ∈ frontmatter,
    trim line ≠ "---".toList) (closes : trim closing = "---".toList) :
    splitFrontmatter (frontmatter ++ closing :: body) = some (frontmatter, body) := by
  induction frontmatter with
  | nil => rw [List.nil_append, splitFrontmatter, if_pos closes]
  | cons line frontmatter ih =>
    obtain ⟨here, later⟩ := List.forall_mem_cons.mp inside
    rw [List.cons_append, splitFrontmatter, if_neg here, ih later]
    rfl

theorem splitFrontmatter_eq_some {rest : List Text}
    (found : splitFrontmatter rest = some (frontmatter, body)) :
    ∃ closing, rest = frontmatter ++ closing :: body ∧ trim closing = "---".toList ∧
      ∀ line ∈ frontmatter, trim line ≠ "---".toList := by
  induction rest generalizing frontmatter with
  | nil => contradiction
  | cons line rest ih =>
    rw [splitFrontmatter] at found
    split at found
    · rename_i closes
      obtain ⟨rfl, rfl⟩ := Prod.mk.inj (Option.some.inj found)
      exact ⟨line, rfl, closes, nofun⟩
    · rename_i goesOn
      obtain ⟨⟨inner, body'⟩, later, same⟩ := Option.map_eq_some_iff.mp found
      obtain ⟨rfl, rfl⟩ := Prod.mk.inj same
      obtain ⟨closing, rfl, closes, inside⟩ := ih later
      exact ⟨closing, rfl, closes, List.forall_mem_cons.mpr ⟨goesOn, inside⟩⟩

theorem mapError_eq_ok {α ε ε' : Type} {change : ε → ε'} {result : Except ε α} {value : α} :
    result.mapError change = .ok value ↔ result = .ok value := by
  cases result with
  | ok other => exact ⟨fun same => congrArg _ (Except.ok.inj same), fun same => by rw [same]; rfl⟩
  | error error => exact ⟨nofun, nofun⟩

/-- What a file with front matter is parsed to. -/
theorem parseSkillMarkdown_eq_ok (framed : Framed content opening frontmatter body)
    {parsed : ParsedSkillFile} :
    parseSkillMarkdown path content = .ok parsed ↔
      trim (List.intercalate ['\n'] body) ≠ [] ∧
      skillFrontmatterField path "name".toList frontmatter = .ok parsed.id ∧
      validateSkillId parsed.id = .ok () ∧
      skillFrontmatterDescription path frontmatter = .ok parsed.description ∧
      parsed.name = parsed.id ∧
      parsed.markdown = (stripPrefix ['\uFEFF'] content).getD content := by
  obtain ⟨closing, shape, closes⟩ := framed.shape
  unfold parseSkillMarkdown
  dsimp only
  rw [shape]
  dsimp only
  rw [if_neg (not_not.mpr framed.opens), splitFrontmatter_append framed.inside closes]
  dsimp only
  split
  · rename_i empty
    exact ⟨nofun, fun all => absurd empty all.1⟩
  rename_i filled
  rw [bind_eq_ok]
  constructor
  · rintro ⟨id, name, ok⟩
    obtain ⟨_, valid, ok⟩ := bind_eq_ok.mp ok
    obtain ⟨description, described, ok⟩ := bind_eq_ok.mp ok
    obtain rfl := Except.ok.inj ok
    exact ⟨filled, name, mapError_eq_ok.mp valid, described, rfl, rfl⟩
  · rintro ⟨_, name, valid, described, same, markdown⟩
    refine ⟨parsed.id, name, bind_eq_ok.mpr ⟨(), mapError_eq_ok.mpr valid, ?_⟩⟩
    refine bind_eq_ok.mpr ⟨parsed.description, described, ?_⟩
    rw [← markdown]
    cases parsed
    cases same
    rfl

theorem framed_of_parsed {parsed : ParsedSkillFile}
    (ok : parseSkillMarkdown path content = .ok parsed) :
    ∃ opening frontmatter body, Framed content opening frontmatter body := by
  unfold parseSkillMarkdown at ok
  dsimp only at ok
  split at ok
  · contradiction
  rename_i opening rest shape
  split at ok
  · contradiction
  rename_i opens
  split at ok
  · contradiction
  rename_i frontmatter body found
  obtain ⟨closing, rfl, closes, inside⟩ := splitFrontmatter_eq_some found
  exact ⟨opening, frontmatter, body, ⟨closing, shape, closes⟩, not_not.mp opens, inside⟩

theorem parseSkillMarkdownId_of_parsed {parsed : ParsedSkillFile}
    (ok : parseSkillMarkdown path content = .ok parsed) :
    parseSkillMarkdownId path content = .ok parsed.id := by
  obtain ⟨opening, frontmatter, body, framed⟩ := framed_of_parsed ok
  obtain ⟨_, name, valid, _⟩ := (parseSkillMarkdown_eq_ok framed).mp ok
  obtain ⟨closing, shape, closes⟩ := framed.shape
  unfold parseSkillMarkdownId
  rw [shape]
  dsimp only
  rw [if_neg (not_not.mpr framed.opens), splitFrontmatter_append framed.inside closes]
  dsimp only
  refine bind_eq_ok.mpr ⟨parsed.id, name, ?_⟩
  exact bind_eq_ok.mpr ⟨(), mapError_eq_ok.mpr valid, rfl⟩

end Files

/-! ## Nested content -/

/-- A line of nested content. -/
structure Nested (line : Text) : Prop where
  indented : isIndented line = true
  unbroken : '\n' ∉ line
  inside : trim line ≠ "---".toList

def linesText (lines : List Text) : Text := lines.flatMap fun line => line ++ ['\n']

/-- A text ends with the line of a key at top level, which is neither of the two that are read. -/
structure EndsWithKey (front opening : Text) (before : List Text) (line : Text) : Prop where
  ends : front.getLast? = some '\n'
  shape : lines ((stripPrefix ['\uFEFF'] front).getD front) = opening :: (before ++ [line])
  topLevel : isTopLevelFrontmatterKeyLine line = true
  notName : lineKey line ≠ some "name".toList
  notDescription : lineKey line ≠ some "description".toList
  inside : ∀ other ∈ before, trim other ≠ "---".toList

/-- Nested content behind a key leaves the file accepted, with its id and its description. -/
def NestedIgnored (path front back : Text) (parsed : ParsedSkillFile) : Prop :=
  ∀ inserted, (∀ line ∈ inserted, Nested line) →
    ∃ parsed', parseSkillMarkdown path (front ++ linesText inserted ++ back) = .ok parsed' ∧
      parsed'.id = parsed.id ∧ parsed'.description = parsed.description

section Insertion

variable {path front back opening line : Text} {before : List Text} {parsed : ParsedSkillFile}

theorem lines_linesText {inserted : List Text} (unbroken : ∀ line ∈ inserted, '\n' ∉ line)
    (rest : Text) :
    lines (linesText inserted ++ rest) = inserted.map (stripSuffixChar '\r') ++ lines rest := by
  induction inserted with
  | nil => rfl
  | cons line inserted ih =>
    obtain ⟨here, later⟩ := List.forall_mem_cons.mp unbroken
    unfold linesText at ih ⊢
    rw [List.flatMap_cons, List.append_assoc, List.append_assoc, List.singleton_append,
      lines_terminated here, ih later]
    rfl

theorem EndsWithKey.lines_append (ends : EndsWithKey front opening before line) (rest : Text) :
    lines ((stripPrefix ['\uFEFF'] (front ++ rest)).getD (front ++ rest)) =
      opening :: (before ++ line :: lines rest) := by
  have joined : (stripPrefix ['\uFEFF'] (front ++ rest)).getD (front ++ rest) =
      (stripPrefix ['\uFEFF'] front).getD front ++ rest := by
    have filled : front ≠ [] := fun empty => by
      rw [empty] at ends
      exact absurd ends.ends (by simp)
    obtain ⟨first, tail, rfl⟩ := List.exists_cons_of_ne_nil filled
    by_cases mark : '\uFEFF' = first
    · subst mark
      rfl
    · simp [stripPrefix, mark]
  have final : ∀ last ∈ ((stripPrefix ['\uFEFF'] front).getD front).getLast?, last = '\n' := by
    intro last mem
    have suffix : (stripPrefix ['\uFEFF'] front).getD front <:+ front := by
      cases stripped : stripPrefix ['\uFEFF'] front with
      | none => exact List.suffix_rfl
      | some tail => exact ⟨_, (stripPrefix_eq_some_iff.mp stripped).symm⟩
    obtain ⟨mark, split⟩ := suffix
    have same := ends.ends
    rw [← split, List.getLast?_append, Option.mem_def.mp mem] at same
    exact Option.some.inj same
  rw [joined, lines_append_of_ends final, ends.shape]
  simp

theorem isTopLevelFrontmatterKeyLine_inside (topLevel : isTopLevelFrontmatterKeyLine line = true) :
    trim line ≠ "---".toList := by
  intro same
  unfold isTopLevelFrontmatterKeyLine at topLevel
  rw [same] at topLevel
  split at topLevel
  · contradiction
  · exact absurd topLevel (by decide)

theorem splitFrontmatter_inside {inside : List Text}
    (within : ∀ line ∈ inside, trim line ≠ "---".toList) (rest : List Text) :
    splitFrontmatter (inside ++ rest) =
      (splitFrontmatter rest).map fun found => (inside ++ found.1, found.2) := by
  induction inside with
  | nil => simp
  | cons line inside ih =>
    obtain ⟨here, later⟩ := List.forall_mem_cons.mp within
    rw [List.cons_append, splitFrontmatter, if_neg here, ih later, Option.map_map]
    rfl

/-- The front matter goes on behind the key, with or without nested content. -/
theorem EndsWithKey.framed (ends : EndsWithKey front opening before line)
    (ok : parseSkillMarkdown path (front ++ back) = .ok parsed) :
    ∃ after body, ∀ inserted, (∀ line ∈ inserted, Nested line) →
      Framed (front ++ (linesText inserted ++ back)) opening
        (before ++ line :: (inserted.map (stripSuffixChar '\r') ++ after)) body := by
  obtain ⟨opening', frontmatter, body, framed⟩ := framed_of_parsed ok
  obtain ⟨closing, shape, closes⟩ := framed.shape
  rw [ends.lines_append] at shape
  obtain ⟨rfl, inner⟩ := List.cons.inj shape
  have within : ∀ other ∈ before ++ [line], trim other ≠ "---".toList := by
    intro other mem
    obtain mem | mem := List.mem_append.mp mem
    · exact ends.inside other mem
    · rw [List.mem_singleton.mp mem]
      exact isTopLevelFrontmatterKeyLine_inside ends.topLevel
  have split := splitFrontmatter_inside within (lines back)
  rw [List.append_assoc, List.singleton_append, inner,
    splitFrontmatter_append framed.inside closes] at split
  obtain ⟨⟨after, body'⟩, found, same⟩ := Option.map_eq_some_iff.mp split.symm
  obtain ⟨rfl, rfl⟩ := Prod.mk.inj same
  obtain ⟨closing', rest, closes', inside⟩ := splitFrontmatter_eq_some found
  refine ⟨after, body', fun inserted nested => ⟨⟨closing', ?_, closes'⟩, framed.opens, ?_⟩⟩
  · rw [ends.lines_append, lines_linesText (fun line mem => (nested line mem).unbroken), rest]
    simp
  · intro other mem
    rw [List.mem_append, List.mem_cons, List.mem_append] at mem
    obtain mem | rfl | mem | mem := mem
    · exact ends.inside other mem
    · exact isTopLevelFrontmatterKeyLine_inside ends.topLevel
    · obtain ⟨origin, originMem, rfl⟩ := List.mem_map.mp mem
      rw [trim_stripSuffixChar (by decide)]
      exact (nested origin originMem).inside
    · exact inside other mem

/-- A nested line with a key and a value of one letter. -/
def nestedEntry (field : Text) (value : Char) : Text := ' ' :: field ++ [':', ' ', value]

theorem stripSuffixChar_nestedEntry (field : Text) {value : Char}
    (letter : value = 'a' ∨ value = 'b') :
    stripSuffixChar '\r' (nestedEntry field value) = nestedEntry field value := by
  have last : (nestedEntry field value).getLast? = some value := by
    simp [nestedEntry, List.getLast?_cons]
  unfold stripSuffixChar
  rw [last]
  obtain rfl | rfl := letter
  · exact if_neg (by decide)
  · exact if_neg (by decide)

theorem nested_name (path : Text) {value : Char} (letter : value = 'a' ∨ value = 'b') :
    Nested (nestedEntry "name".toList value) ∧
      skillFrontmatterField path "name".toList [nestedEntry "name".toList value] = .ok [value] := by
  obtain rfl | rfl := letter
  · exact ⟨⟨by decide, by decide, by decide⟩, rfl⟩
  · exact ⟨⟨by decide, by decide, by decide⟩, rfl⟩

theorem nested_description (path : Text) (after : List Text) {value : Char}
    (letter : value = 'a' ∨ value = 'b') :
    Nested (nestedEntry "description".toList value) ∧
      skillFrontmatterDescription path (nestedEntry "description".toList value :: after) =
        .ok [value] := by
  obtain rfl | rfl := letter
  · exact ⟨⟨by decide, by decide, by decide⟩, rfl⟩
  · exact ⟨⟨by decide, by decide, by decide⟩, rfl⟩

/-- A text is not both letters. -/
theorem exists_other_letter (text : Text) :
    ∃ value, (value = 'a' ∨ value = 'b') ∧ [value] ≠ text := by
  by_cases same : ['a'] = text
  · exact ⟨'b', .inr rfl, fun other => absurd (other.trans same.symm) (by decide)⟩
  · exact ⟨'a', .inl rfl, same⟩

/-- A nested name in front of the skill's own is taken for it. -/
theorem nested_name_taken :
    ∃ parsed parsed',
      parseSkillMarkdown ['f'] "---\nmetadata:\nname: a\ndescription: d\n---\nx".toList =
        .ok parsed ∧
      parseSkillMarkdown ['f']
        "---\nmetadata:\n name: b\nname: a\ndescription: d\n---\nx".toList = .ok parsed' ∧
      isTopLevelFrontmatterKeyLine "metadata:".toList = true ∧ Nested " name: b".toList ∧
      parsed.id = ['a'] ∧ parsed'.id = ['b'] := by
  refine ⟨⟨['a'], ['a'], ['d'], _⟩, ⟨['b'], ['b'], ['d'], _⟩, rfl, rfl, by decide, ?_, rfl, rfl⟩
  exact ⟨by decide, by decide, by decide⟩

/-- Nested content behind a key is ignored exactly if both fields stand in front of the key. The id
is read alike by both functions. -/
theorem nested_ignored_iff (ok : parseSkillMarkdown path (front ++ back) = .ok parsed)
    (ends : EndsWithKey front opening before line) :
    NestedIgnored path front back parsed ∧
        parseSkillMarkdownId path (front ++ back) = .ok parsed.id ↔
      HasKey "name".toList before ∧ HasKey "description".toList before := by
  obtain ⟨after, body, framed⟩ := ends.framed ok
  have plain : Framed (front ++ back) opening (before ++ line :: after) body := framed [] nofun
  obtain ⟨filled, name, valid, described, _⟩ := (parseSkillMarkdown_eq_ok plain).mp ok
  constructor
  · rintro ⟨ignored, _⟩
    by_contra missing
    by_cases named : HasKey "name".toList before
    · -- The description is behind the key, and a nested one comes first.
      have absent : ¬HasKey "description".toList before := fun present => missing ⟨named, present⟩
      obtain ⟨value, letter, other⟩ := exists_other_letter parsed.description
      have nested := (nested_description path after letter).1
      have single : ∀ entry ∈ [nestedEntry "description".toList value], Nested entry := by
        intro entry mem
        rwa [List.mem_singleton.mp mem]
      obtain ⟨parsed', ok', _, same⟩ := ignored _ single
      rw [List.append_assoc] at ok'
      obtain ⟨_, _, _, described', _⟩ := (parseSkillMarkdown_eq_ok (framed _ single)).mp ok'
      rw [skillFrontmatterDescription_append_of_absent absent,
        skillFrontmatterDescription_cons_of_ne ends.notDescription, List.map_singleton,
        stripSuffixChar_nestedEntry _ letter, List.singleton_append,
        (nested_description path after letter).2, same] at described'
      exact other (Except.ok.inj described')
    · obtain ⟨value, letter, other⟩ := exists_other_letter parsed.id
      obtain ⟨nested, read⟩ := nested_name path letter
      have single : ∀ entry ∈ [nestedEntry "name".toList value], Nested entry := by
        intro entry mem
        rwa [List.mem_singleton.mp mem]
      obtain ⟨parsed', ok', same, _⟩ := ignored _ single
      rw [List.append_assoc] at ok'
      obtain ⟨_, name', _⟩ := (parseSkillMarkdown_eq_ok (framed _ single)).mp ok'
      have keyed : HasKey "name".toList [nestedEntry "name".toList value] := by
        refine ⟨_, List.mem_singleton_self _, ?_⟩
        obtain rfl | rfl := letter <;> rfl
      rw [skillFrontmatterField_append_of_absent named,
        skillFrontmatterField_cons_of_ne ends.notName, List.map_singleton,
        stripSuffixChar_nestedEntry _ letter,
        skillFrontmatterField_append_of_present keyed, read, same] at name'
      exact other (Except.ok.inj name')
  · rintro ⟨named, withDescription⟩
    refine ⟨fun inserted nested => ?_, parseSkillMarkdownId_of_parsed ok⟩
    rw [skillFrontmatterField_append_of_present named] at name
    rw [skillFrontmatterDescription_append_of_present ends.topLevel withDescription] at described
    refine ⟨{ parsed with
      markdown := (stripPrefix ['\uFEFF'] (front ++ (linesText inserted ++ back))).getD
        (front ++ (linesText inserted ++ back)) }, ?_, rfl, rfl⟩
    rw [List.append_assoc]
    refine (parseSkillMarkdown_eq_ok (framed inserted nested)).mpr ⟨filled, ?_, valid, ?_, ?_, rfl⟩
    · rw [skillFrontmatterField_append_of_present named, name]
    · rw [skillFrontmatterDescription_append_of_present ends.topLevel withDescription, described]
    · exact ((parseSkillMarkdown_eq_ok plain).mp ok).2.2.2.2.1

end Insertion

/-- A file with both fields in front of its metadata. -/
theorem nested_ignored_behind :
    NestedIgnored ['f'] "---\nname: a\ndescription: d\nmetadata:\n".toList "---\nx".toList
        ⟨['a'], ['a'], ['d'], "---\nname: a\ndescription: d\nmetadata:\n---\nx".toList⟩ ∧
        parseSkillMarkdownId ['f']
          ("---\nname: a\ndescription: d\nmetadata:\n".toList ++ "---\nx".toList) = .ok ['a'] ↔
      HasKey "name".toList ["name: a".toList, "description: d".toList] ∧
        HasKey "description".toList ["name: a".toList, "description: d".toList] :=
  have ends : EndsWithKey "---\nname: a\ndescription: d\nmetadata:\n".toList "---".toList
      ["name: a".toList, "description: d".toList] "metadata:".toList :=
    ⟨by decide, rfl, by decide, by decide, by decide, by decide⟩
  nested_ignored_iff rfl ends

end Foco.SkillMarkdown

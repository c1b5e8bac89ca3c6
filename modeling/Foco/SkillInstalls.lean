import Foco.SkillInstall

/-!
What an install of skill files leaves at the destination: the decoded files at their sanitised
paths, or what was there before.
-/
namespace Foco.SkillInstall
open Foco.RustText Foco.UnixPath Foco.FileResolution Foco.FileTree Foco.SkillMarkdown Foco.Result

/-! ## Where the files go -/

/-- The place of a file below the destination. -/
def SkillStoreFile.location (file : SkillStoreFile) : Option (List Text) :=
  (sanitizeSkillFilePath file.path).toOption.map components

/-- The content that ends up at a path: that of the last file that goes there. -/
def contentAt (decode : Base64Decoder) (files : List SkillStoreFile) (path : List Text) :
    Option ByteArray :=
  files.reverse.findSome? fun file =>
    if file.location = some path then (file.decodedContent decode).toOption else none

/-- The path is that of a directory with files inside, or the root of them. -/
def holdsFiles (files : List SkillStoreFile) (path : List Text) : Bool :=
  decide (path = []) || files.any fun file => file.location.any fun location => path <+: location

/-- The destination as it should be: the files at their places and the directories above them. -/
def layout (decode : Base64Decoder) (files : List SkillStoreFile) (path : List Text) :
    Option (Entry ByteArray) :=
  match contentAt decode files path with
  | some bytes => some (.file bytes)
  | none => if holdsFiles files path then some .directory else none

/-- What an install promises of its outcome. -/
def KeepsItsWord (decode : Base64Decoder) (world : SkillWorld) (targetRoot : List Text)
    (skillId : Text) (files : List SkillStoreFile)
    (outcome : Except ApiError (List Text) × SkillWorld) : Prop :=
  match outcome.1 with
  | .ok destination => ∃ id, validateSkillSlug skillId = .ok id ∧
      destination = targetRoot ++ [id] ∧
      (∀ path, outcome.2.tree.entry (destination ++ path) = layout decode files path) ∧
      (∀ file ∈ files, ∃ location, file.location = some location ∧ location ≠ [] ∧
        Plain location) ∧
      ∃ bytes text parsed,
        outcome.2.tree.entry (destination ++ [skillFileName]) = some (.file bytes) ∧
        textOf bytes = some text ∧ parseSkillMarkdown skillFileName text = .ok parsed ∧
        parsed.id = id
  | .error _ => ∀ id, validateSkillSlug skillId = .ok id → ∀ path,
      outcome.2.tree.entry (targetRoot ++ [id] ++ path) =
        world.tree.entry (targetRoot ++ [id] ++ path)

/-- The place of one file is inside the place of another. -/
def clashes (files : List SkillStoreFile) : Bool :=
  files.any fun file => files.any fun other => file.location.any fun location =>
    other.location.any fun place => location <+: place ∧ location ≠ place

/-- The last file that goes to `SKILL.md` parses to the id. -/
def lastSkillFileMatches (skillId : Text) (files : List SkillStoreFile) : Bool :=
  (files.reverse.find? SkillStoreFile.isSkillFile).any fun file =>
    match parseSkillMarkdown skillFileName file.content with
    | .ok parsed => validateSkillSlug skillId = .ok parsed.id
    | .error _ => false

/-! ## Sanitised paths -/

theorem components_of_sanitized {value relative : Text}
    (ok : sanitizeSkillFilePath value = .ok relative) :
    relative = List.intercalate ['/'] (components relative) ∧ components relative ≠ [] ∧
      Plain (components relative) := by
  unfold sanitizeSkillFilePath at ok
  dsimp only at ok
  generalize foldBackslashes (trim value) = trimmed at ok
  split at ok
  · cases ok
  split at ok
  · cases ok
  split at ok
  · cases ok
  next safe =>
  split at ok
  · cases ok
  next nonempty =>
  cases ok
  have named : ∀ part ∈ components trimmed, isComponent part = true ∧ '/' ∉ part := by
    intro part mem
    obtain ⟨piece, component⟩ := List.mem_filter.mp mem
    exact ⟨component, not_mem_of_mem_splitOn piece⟩
  have split_ : pieces (List.intercalate ['/'] (components trimmed)) = components trimmed :=
    List.splitOn_intercalate '/' (fun part mem => (named part mem).2) nonempty
  have same : components (List.intercalate ['/'] (components trimmed)) = components trimmed := by
    rw [components, split_]
    exact List.filter_eq_self.mpr fun part mem => (named part mem).1
  rw [same]
  refine ⟨rfl, nonempty, fun part mem => ⟨(named part mem).1, ?_⟩⟩
  rintro rfl
  have all := (not_or.mp safe).2
  rw [Bool.not_eq_true', Bool.not_eq_false] at all
  have part := List.all_eq_true.mp all parentDir mem
  revert part
  decide

theorem location_spec {file : SkillStoreFile} {location : List Text}
    (placed : file.location = some location) :
    ∃ relative, sanitizeSkillFilePath file.path = .ok relative ∧
      components relative = location ∧ location ≠ [] ∧ Plain location := by
  unfold SkillStoreFile.location at placed
  cases ok : sanitizeSkillFilePath file.path with
  | error error =>
    rw [ok] at placed
    cases placed
  | ok relative =>
    rw [ok] at placed
    cases placed
    obtain ⟨-, nonempty, plain⟩ := components_of_sanitized ok
    exact ⟨relative, rfl, rfl, nonempty, plain⟩

theorem location_of_sanitized {file : SkillStoreFile} {relative : Text}
    (ok : sanitizeSkillFilePath file.path = .ok relative) :
    file.location = some (components relative) := by
  rw [SkillStoreFile.location, ok]
  rfl

theorem components_skillFileName : components skillFileName = [skillFileName] := by
  decide

theorem isSkillFile_iff {file : SkillStoreFile} :
    file.isSkillFile = true ↔ file.location = some [skillFileName] := by
  unfold SkillStoreFile.isSkillFile
  rw [decide_eq_true_eq]
  constructor
  · intro ok
    rw [location_of_sanitized ok, components_skillFileName]
  · intro placed
    obtain ⟨relative, ok, same, -⟩ := location_spec placed
    rw [ok, (components_of_sanitized ok).1, same]
    rfl

/-! ## The layout, file by file -/

section Layout

variable {decode : Base64Decoder} {done files : List SkillStoreFile} {file : SkillStoreFile}
  {location path : List Text} {content : ByteArray}

/-- The file has a place and its content decodes. -/
def Placed (decode : Base64Decoder) (file : SkillStoreFile) : Prop :=
  ∃ location content, file.location = some location ∧ file.decodedContent decode = .ok content

theorem contentAt_nil : contentAt decode [] path = none := rfl

theorem contentAt_concat (placed : file.location = some location)
    (decoded : file.decodedContent decode = .ok content) :
    contentAt decode (done ++ [file]) path =
      if path = location then some content else contentAt decode done path := by
  rw [contentAt, List.reverse_append, List.reverse_singleton, List.singleton_append,
    List.findSome?_cons, placed, decoded]
  by_cases same : path = location
  · subst same
    rw [if_pos rfl, if_pos rfl]
    rfl
  · rw [if_neg fun eq => same (Option.some.inj eq).symm, if_neg same]
    rfl

theorem exists_of_contentAt {bytes : ByteArray} (found : contentAt decode files path = some bytes) :
    ∃ file ∈ files, file.location = some path ∧ file.decodedContent decode = .ok bytes := by
  obtain ⟨file, mem, here⟩ := List.exists_of_findSome?_eq_some found
  obtain ⟨placed, decoded⟩ := Option.ite_none_right_eq_some.mp here
  refine ⟨file, List.mem_reverse.mp mem, placed, ?_⟩
  cases result : file.decodedContent decode with
  | error error =>
    rw [result] at decoded
    cases decoded
  | ok content =>
    rw [result] at decoded
    cases decoded
    rfl

theorem contentAt_ne_none (mem : file ∈ files) (placed : file.location = some path)
    (decoded : file.decodedContent decode = .ok content) : contentAt decode files path ≠ none := by
  intro none
  have here := List.findSome?_eq_none_iff.mp none file (List.mem_reverse.mpr mem)
  rw [if_pos placed, decoded] at here
  cases here

theorem layout_of_content {bytes : ByteArray} (found : contentAt decode files path = some bytes) :
    layout decode files path = some (.file bytes) := by
  rw [layout, found]

theorem content_of_layout {bytes : ByteArray}
    (found : layout decode files path = some (.file bytes)) :
    contentAt decode files path = some bytes := by
  unfold layout at found
  split at found
  · next here =>
    cases found
    exact here
  · split at found <;> cases found

theorem inside_of_layout (found : layout decode files path = some .directory) :
    contentAt decode files path = none ∧ (path = [] ∨ ∃ file ∈ files, ∃ location,
      file.location = some location ∧ path <+: location) := by
  unfold layout at found
  split at found
  · cases found
  · next none =>
    refine ⟨none, ?_⟩
    obtain ⟨inside, -⟩ := Option.ite_none_right_eq_some.mp found
    rw [holdsFiles, Bool.or_eq_true, decide_eq_true_eq] at inside
    refine inside.imp_right fun any => ?_
    obtain ⟨file, mem, below⟩ := List.any_eq_true.mp any
    obtain ⟨location, placed, inner⟩ := (Option.any_eq_true _ _).mp below
    exact ⟨file, mem, location, placed, of_decide_eq_true inner⟩

theorem layout_root (plain : ∀ file ∈ files, file.location ≠ some []) :
    layout decode files [] = some .directory := by
  have none : contentAt decode files [] = none := by
    rw [← Option.not_isSome_iff_eq_none]
    intro there
    obtain ⟨bytes, found⟩ := Option.isSome_iff_exists.mp there
    obtain ⟨file, mem, placed, -⟩ := exists_of_contentAt found
    exact plain file mem placed
  rw [layout, none]
  rfl

theorem holdsFiles_concat (placed : file.location = some location) :
    holdsFiles (done ++ [file]) path = (holdsFiles done path || decide (path <+: location)) := by
  rw [holdsFiles, List.any_append, List.any_cons, List.any_nil, Bool.or_false, placed,
    Option.any_some, ← Bool.or_assoc]
  rfl

theorem layout_concat (placed : file.location = some location)
    (decoded : file.decodedContent decode = .ok content) :
    layout decode (done ++ [file]) path =
      if path = location then some (.file content)
      else if path <+: location ∧ layout decode done path = none then some .directory
      else layout decode done path := by
  unfold layout
  rw [contentAt_concat placed decoded]
  by_cases same : path = location
  · rw [if_pos same, if_pos same]
  rw [if_neg same, if_neg same]
  cases contentAt decode done path with
  | some bytes => exact (if_neg (by simp)).symm
  | none =>
    dsimp only
    rw [holdsFiles_concat placed]
    by_cases inside : path <+: location
    · rw [decide_eq_true inside, Bool.or_true, if_pos rfl]
      cases holdsFiles done path with
      | true => simp
      | false => exact (if_pos ⟨inside, rfl⟩).symm
    · rw [decide_eq_false inside, Bool.or_false]
      exact (if_neg fun both => inside both.1).symm

end Layout

/-! ## The write loop -/

/-- The files are laid out below a directory, and nothing else is there. -/
def Laid (decode : Base64Decoder) (tree : Tree Text ByteArray) (root : List Text)
    (files : List SkillStoreFile) : Prop :=
  ∀ path, tree.entry (root ++ path) = layout decode files path

/-- Neither of two places is inside the other. -/
def Apart (first second : List Text) : Prop :=
  (first <+: second → first = second) ∧ (second <+: first → second = first)

section Writing

variable {decode : Base64Decoder} {tree made written : Tree Text ByteArray} {root : List Text}
  {done : List SkillStoreFile} {file : SkillStoreFile} {location : List Text} {content : ByteArray}

theorem prefix_dropLast_iff {path : List Text} (ne : location ≠ []) :
    root ++ path <+: (root ++ location).dropLast ↔ path <+: location ∧ path ≠ location := by
  obtain ⟨front, last, rfl⟩ := (List.eq_nil_or_concat' location).resolve_left ne
  rw [← List.append_assoc, List.dropLast_concat, List.prefix_append_right_inj,
    List.prefix_concat_iff]
  constructor
  · intro inside
    refine ⟨.inr inside, ?_⟩
    rintro rfl
    have short := inside.length_le
    rw [List.length_append, List.length_singleton] at short
    omega
  · rintro ⟨whole | inside, apart⟩
    · exact absurd whole apart
    · exact inside

/-- Creating the directories and writing a file lays it out too. -/
theorem Laid.concat (laid : Laid decode tree root done) (ne : location ≠ [])
    (placed : file.location = some location)
    (decoded : file.decodedContent decode = .ok content)
    (created : tree.createDirAll (root ++ location).dropLast = some made)
    (wrote : made.write (root ++ location) content = some written) :
    Laid decode written root (done ++ [file]) := by
  intro path
  rw [entry_write wrote, entry_createDirAll created, laid path, layout_concat placed decoded]
  by_cases same : path = location
  · rw [if_pos (congrArg (root ++ ·) same), if_pos same]
  rw [if_neg fun eq => same (List.append_cancel_left eq), if_neg same]
  by_cases inside : path <+: location ∧ layout decode done path = none
  · rw [if_pos inside, if_pos ⟨(prefix_dropLast_iff ne).mpr ⟨inside.1, same⟩, inside.2⟩]
  · rw [if_neg inside, if_neg fun both => inside ⟨((prefix_dropLast_iff ne).mp both.1).1, both.2⟩]

theorem write_eq_some {path : List Text} (wrote : made.write path content = some written) :
    path ≠ [] ∧ made.entry path.dropLast = some .directory ∧ made.entry path ≠ some .directory := by
  unfold Tree.write at wrote
  split at wrote
  · next free =>
    obtain ⟨ne, parent, apart⟩ := free
    refine ⟨ne, Tree.isDirectory_iff.mp parent, fun there => ?_⟩
    rw [Tree.isDirectory_iff.mpr there] at apart
    cases apart
  · cases wrote

theorem createDirAll_eq_some {path above : List Text} (created : tree.createDirAll path = some made)
    (inside : above <+: path) : tree.entry above = none ∨ tree.entry above = some .directory := by
  unfold Tree.createDirAll at created
  split at created
  · next free => exact Tree.unobstructed_iff.mp free above inside
  · cases created

/-- Files that are written one after the other are apart. -/
theorem Laid.apart (laid : Laid decode tree root done) (ne : location ≠ [])
    (created : tree.createDirAll (root ++ location).dropLast = some made)
    (wrote : made.write (root ++ location) content = some written)
    {other : SkillStoreFile} (mem : other ∈ done) {place : List Text}
    (there : other.location = some place) {bytes : ByteArray}
    (decoded : other.decodedContent decode = .ok bytes) : Apart location place := by
  refine ⟨fun inside => ?_, fun inside => ?_⟩
  · -- The new file would stand where a directory of the other one is.
    by_contra apart
    refine (write_eq_some wrote).2.2 ?_
    rw [entry_createDirAll created, if_neg fun both =>
      ((prefix_dropLast_iff ne).mp both.1).2 rfl, laid location, layout]
    have holds : holdsFiles done location = true := by
      rw [holdsFiles, Bool.or_eq_true]
      refine .inr (List.any_eq_true.mpr ⟨other, mem, ?_⟩)
      rw [there, Option.any_some]
      exact decide_eq_true inside
    cases found : contentAt decode done location with
    | none =>
      dsimp only
      rw [if_pos holds]
    | some held =>
      -- The other file cannot be inside a file.
      obtain ⟨rest, rfl⟩ := inside
      have further : rest ≠ [] := fun nil => apart (by rw [nil, List.append_nil])
      obtain ⟨kept, content⟩ := Option.ne_none_iff_exists'.mp (contentAt_ne_none mem there decoded)
      have below : (tree.entry (root ++ location ++ rest)).isSome = true := by
        rw [List.append_assoc, laid, layout_of_content content]
        rfl
      have directory := tree.directory_of_below further below
      rw [laid, layout_of_content found] at directory
      cases directory
  · -- A directory of the new file would stand where the other file is.
    by_contra apart
    have free := createDirAll_eq_some created
      ((prefix_dropLast_iff ne).mpr ⟨inside, apart⟩)
    rw [laid place] at free
    obtain ⟨found, content⟩ := Option.ne_none_iff_exists'.mp (contentAt_ne_none mem there decoded)
    rw [layout_of_content content] at free
    obtain none | directory := free
    · cases none
    · cases directory

theorem createDirAll_of_unobstructed {path : List Text} (free : tree.unobstructed path = true) :
    ∃ made, tree.createDirAll path = some made := by
  unfold Tree.createDirAll
  rw [dif_pos free]
  exact ⟨_, rfl⟩

/-- No file is in the way of one that is apart from those before it. -/
theorem Laid.unobstructed (laid : Laid decode tree root done) (ne : location ≠ [])
    (rooted : tree.entry root = some .directory)
    (apart : ∀ other ∈ done, ∀ place, other.location = some place → Apart location place) :
    tree.unobstructed (root ++ location).dropLast = true := by
  refine Tree.unobstructed_iff.mpr fun above inside => ?_
  have inner := inside.trans (List.dropLast_prefix (root ++ location))
  obtain ⟨rest, same⟩ | ⟨rest, same⟩ :=
    List.prefix_or_prefix_of_prefix inner (List.prefix_append root location)
  · subst same
    by_cases here : rest = []
    · rw [here, List.append_nil] at rooted
      exact .inr rooted
    · exact .inr (tree.directory_of_below here (by rw [rooted]; rfl))
  · subst same
    obtain ⟨inside, short⟩ := (prefix_dropLast_iff ne).mp inside
    rw [laid rest]
    cases found : layout decode done rest with
    | none => exact .inl rfl
    | some entry =>
      cases entry with
      | directory => exact .inr rfl
      | file bytes =>
        obtain ⟨other, mem, there, -⟩ := exists_of_contentAt (content_of_layout found)
        exact absurd ((apart other mem rest there).2 inside) short

/-- A file that is apart from the ones before it can be written. -/
theorem Laid.goes (laid : Laid decode tree root done) (ne : location ≠ [])
    (rooted : tree.entry root = some .directory)
    (apart : ∀ other ∈ done, ∀ place, other.location = some place → Apart location place)
    (decodes : ∀ other ∈ done, ∃ bytes, other.decodedContent decode = .ok bytes)
    (content : ByteArray) :
    ∃ made written, tree.createDirAll (root ++ location).dropLast = some made ∧
      made.write (root ++ location) content = some written := by
  have free := laid.unobstructed ne rooted apart
  obtain ⟨made, created⟩ := createDirAll_of_unobstructed free
  have parent : made.isDirectory (root ++ location).dropLast = true := by
    rw [Tree.isDirectory_iff, entry_createDirAll created]
    obtain none | directory := Tree.unobstructed_iff.mp free _ (List.prefix_refl _)
    · rw [if_pos ⟨List.prefix_refl _, none⟩]
    · rw [directory, ite_self]
  have vacant : made.isDirectory (root ++ location) = false := by
    rw [← Bool.not_eq_true, Tree.isDirectory_iff, entry_createDirAll created,
      if_neg fun both => ((prefix_dropLast_iff ne).mp both.1).2 rfl, laid location]
    intro directory
    obtain ⟨none, nil | ⟨other, mem, place, there, inside⟩⟩ := inside_of_layout directory
    · exact ne nil
    · obtain rfl := (apart other mem place there).1 inside
      obtain ⟨bytes, decoded⟩ := decodes other mem
      exact contentAt_ne_none mem there decoded none
  have wrote : (made.write (root ++ location) content).isSome = true := by
    unfold Tree.write
    rw [dif_pos ⟨by simp [ne], parent, vacant⟩]
    rfl
  obtain ⟨written, wrote⟩ := Option.isSome_iff_exists.mp wrote
  exact ⟨made, written, created, wrote⟩

theorem location_ne_nil (placed : file.location = some location) : location ≠ [] :=
  (location_spec placed).choose_spec.2.2.1

/-- The root of files that have been laid out is a directory. -/
theorem Laid.rooted (laid : Laid decode tree root done) : tree.entry root = some .directory := by
  have here := laid []
  rw [List.append_nil] at here
  rw [here]
  exact layout_root fun file mem placed => location_ne_nil placed rfl

/-- All files have their places and contents, and no place is inside another. -/
structure Tidy (decode : Base64Decoder) (files : List SkillStoreFile) : Prop where
  placed : ∀ file ∈ files, Placed decode file
  apart : ∀ file ∈ files, ∀ other ∈ files, ∀ location place, file.location = some location →
    other.location = some place → Apart location place

theorem Tidy.concat (disjoint : Tidy decode done)
    (placed : file.location = some location)
    (decoded : file.decodedContent decode = .ok content)
    (apart : ∀ other ∈ done, ∀ place, other.location = some place → Apart location place) :
    Tidy decode (done ++ [file]) where
  placed := by
    intro other mem
    obtain old | new := List.mem_append.mp mem
    · exact disjoint.placed other old
    · rw [List.mem_singleton.mp new]
      exact ⟨location, content, placed, decoded⟩
  apart := by
    intro first mem second also place spot there here
    obtain old | new := List.mem_append.mp mem
    · obtain older | newer := List.mem_append.mp also
      · exact disjoint.apart first old second older place spot there here
      · rw [List.mem_singleton.mp newer, placed] at here
        cases here
        exact (apart first old place there).symm
    · rw [List.mem_singleton.mp new, placed] at there
      cases there
      obtain older | newer := List.mem_append.mp also
      · exact apart second older spot here
      · rw [List.mem_singleton.mp newer, placed] at here
        cases here
        exact ⟨fun _ => rfl, fun _ => rfl⟩

variable {source : Text} {fault : Option SkillFault} {world : SkillWorld}
  {files : List SkillStoreFile}

/-- The write loop leaves everything outside its directory. -/
theorem writeSkillFiles_frame {path : List Text} (outside : ∀ rest, ¬path <+: root ++ rest) :
    (writeSkillFiles decode source fault world root files).2.tree.entry path =
      world.tree.entry path := by
  induction files generalizing world with
  | nil => rfl
  | cons file files ih =>
    unfold writeSkillFiles
    split
    · rfl
    · next relative ok =>
      dsimp only
      have created : (world.perform fault (.createDirAll
          (root ++ components relative).dropLast)).2.tree.entry path = world.tree.entry path :=
        World.perform_frame (decide_eq_false fun inside =>
          outside _ (inside.trans (List.dropLast_prefix _)))
      split
      · split
        · exact created
        · next content decoded =>
          have written : ((world.perform fault (.createDirAll
              (root ++ components relative).dropLast)).2.perform fault
                (.write (root ++ components relative) content)).2.tree.entry path =
              world.tree.entry path := by
            refine Eq.trans (World.perform_frame (decide_eq_false ?_)) created
            rintro rfl
            exact outside _ (List.prefix_refl _)
          split
          · rw [ih]
            exact written
          · exact written
      · exact created

/-- A write loop that succeeds lays all files out, and they are apart. -/
theorem writeSkillFiles_laid (laid : Laid decode world.tree root done)
    (disjoint : Tidy decode done)
    (ok : (writeSkillFiles decode source fault world root files).1 = .ok ()) :
    Laid decode (writeSkillFiles decode source fault world root files).2.tree root
        (done ++ files) ∧ Tidy decode (done ++ files) := by
  induction files generalizing world done with
  | nil =>
    rw [List.append_nil]
    exact ⟨laid, disjoint⟩
  | cons file files ih =>
    unfold writeSkillFiles at ok ⊢
    split at ok
    · cases ok
    next relative sanitized =>
    dsimp only at ok ⊢
    split at ok
    · next created =>
      rw [if_pos created]
      split at ok
      · cases ok
      next content decoded =>
      split at ok
      · next wrote =>
        rw [if_pos wrote]
        have placed := location_of_sanitized sanitized
        have ne := location_ne_nil placed
        have created := World.perform_eq_true created
        have wrote := World.perform_eq_true wrote
        have apart : ∀ other ∈ done, ∀ place, other.location = some place →
            Apart (components relative) place := by
          intro other mem place there
          obtain ⟨-, bytes, -, content⟩ := disjoint.placed other mem
          exact laid.apart ne created wrote mem there content
        have grown := ih (laid.concat ne placed decoded created wrote)
          (disjoint.concat placed decoded apart) ok
        rwa [List.append_assoc] at grown
      · cases ok
    · cases ok

/-- Without a fault the write loop writes files that are apart. -/
theorem writeSkillFiles_ok (laid : Laid decode world.tree root done)
    (disjoint : Tidy decode (done ++ files)) :
    (writeSkillFiles decode source none world root files).1 = .ok () := by
  induction files generalizing world done with
  | nil => rfl
  | cons file files ih =>
    have mem : file ∈ done ++ file :: files := List.mem_append_right done List.mem_cons_self
    obtain ⟨location, content, placed, decoded⟩ := disjoint.placed file mem
    obtain ⟨relative, sanitized, rfl, ne, -⟩ := location_spec placed
    obtain ⟨made, written, created, wrote⟩ := laid.goes ne laid.rooted
      (fun other before place there => disjoint.apart file mem other
        (List.mem_append_left _ before) _ _ placed there)
      (fun other before => by
        obtain ⟨-, bytes, -, other⟩ := disjoint.placed other (List.mem_append_left _ before)
        exact ⟨bytes, other⟩) content
    rw [← List.singleton_append, ← List.append_assoc] at disjoint
    have first : World.perform none world (.createDirAll (root ++ components relative).dropLast) =
        (true, { tree := made, clock := world.clock + 1 }) := World.perform_none created
    unfold writeSkillFiles
    rw [sanitized]
    dsimp only
    rw [first]
    dsimp only
    rw [if_pos rfl, decoded]
    dsimp only
    have second : World.perform none ({ tree := made, clock := world.clock + 1 } : SkillWorld)
        (.write (root ++ components relative) content) =
        (true, { tree := written, clock := world.clock + 1 + 1 }) := World.perform_none wrote
    rw [second]
    dsimp only
    rw [if_pos rfl]
    exact ih (laid.concat ne placed decoded created wrote) disjoint

end Writing

/-! ## Replacing the destination -/

section Replacing

variable {decode : Base64Decoder} {source : Text} {fault : Option SkillFault} {world : SkillWorld}
  {files : List SkillStoreFile} {targetRoot : List Text} {id temporary backup : Text}

theorem sibling_apart {first second : Text} (ne : first ≠ second) (rest : List Text) :
    ¬targetRoot ++ [first] <+: targetRoot ++ [second] ++ rest := by
  rw [List.append_assoc, List.prefix_append_right_inj, List.singleton_append, List.cons_prefix_cons]
  exact fun same => ne same.1

theorem sibling_ne {first second : Text} (ne : first ≠ second) :
    ¬targetRoot ++ [first] <+: targetRoot ++ [second] := by
  have apart : ¬targetRoot ++ [first] <+: targetRoot ++ [second] ++ [] := sibling_apart ne []
  rwa [List.append_nil] at apart

theorem child_not_above {name : Text} : ¬targetRoot ++ [name] <+: targetRoot := by
  intro inside
  have short := inside.length_le
  rw [List.length_append, List.length_singleton] at short
  omega

/-- Removing a sibling leaves the destination. -/
theorem remove_sibling {other : Text} (ne : other ≠ id) (path : List Text) :
    (world.perform fault (.removeDirAll (targetRoot ++ [other]))).2.tree.entry
        (targetRoot ++ [id] ++ path) = world.tree.entry (targetRoot ++ [id] ++ path) :=
  World.perform_frame (decide_eq_false (sibling_apart ne path))

/-- The destination holds the files, or what it held before. -/
def Replaced (decode : Base64Decoder) (world : SkillWorld) (destination : List Text)
    (files : List SkillStoreFile) (outcome : Except ApiError (List Text) × SkillWorld) : Prop :=
  match outcome.1 with
  | .ok place => place = destination ∧ Laid decode outcome.2.tree destination files
  | .error _ => ∀ path,
      outcome.2.tree.entry (destination ++ path) = world.tree.entry (destination ++ path)

/-- The last steps replace the destination or leave it as it was. -/
theorem replaceDestination_spec (laid : Laid decode world.tree (targetRoot ++ [temporary]) files)
    (idTemporary : temporary ≠ id) (idBackup : backup ≠ id) (names : backup ≠ temporary) :
    Replaced decode world (targetRoot ++ [id]) files
      (replaceDestination source fault world (targetRoot ++ [id]) (targetRoot ++ [temporary])
        (targetRoot ++ [backup])) := by
  have rooted := laid.rooted
  have parent : world.tree.entry targetRoot = some .directory :=
    world.tree.inDirectory targetRoot temporary (by rw [rooted]; rfl)
  unfold replaceDestination
  split
  · next there =>
    dsimp only
    split
    · next moved =>
      have renamed : world.tree.rename _ _ = some _ := World.perform_eq_true moved
      clear moved
      generalize world.perform fault (.rename (targetRoot ++ [id]) (targetRoot ++ [backup])) =
        first at renamed ⊢
      -- The destination is free now, and what stood there is in the backup.
      have vacant : first.2.tree.entry (targetRoot ++ [id]) = none := by
        rw [entry_rename renamed, if_neg (sibling_ne idBackup), if_pos (List.prefix_refl _)]
      have parent : first.2.tree.entry targetRoot = some .directory := by
        rw [entry_rename renamed, if_neg child_not_above, if_neg child_not_above]
        exact parent
      have kept : Laid decode first.2.tree (targetRoot ++ [temporary]) files := by
        intro path
        rw [entry_rename renamed, if_neg (sibling_apart names path),
          if_neg (sibling_apart idTemporary.symm path)]
        exact laid path
      obtain ⟨placed, possible⟩ : ∃ placed, Operation.run first.2.tree
          (.rename (targetRoot ++ [temporary]) (targetRoot ++ [id])) = some placed :=
        rename_isSome (by rw [kept.rooted]; rfl) vacant parent
        (sibling_ne idTemporary)
      split
      · next replaced =>
        have replaced : first.2.tree.rename _ _ = some _ := World.perform_eq_true replaced
        refine ⟨rfl, fun path => ?_⟩
        rw [remove_sibling idBackup, entry_renamed replaced path]
        exact kept path
      · next stuck =>
        have stuck := (Bool.not_eq_true _).mp stuck
        obtain ⟨past, rfl, now⟩ := World.perform_failed possible stuck
        have same := World.rename_failed stuck
        have clock : (first.2.perform (some past) (.rename (targetRoot ++ [temporary])
            (targetRoot ++ [id]))).2.clock = first.2.clock + 1 := World.perform_clock
        generalize first.2.perform (some past) (.rename (targetRoot ++ [temporary])
          (targetRoot ++ [id])) = second at same clock ⊢
        rw [← same] at vacant parent renamed
        have held : (second.2.tree.entry (targetRoot ++ [backup])).isSome = true := by
          have whole := entry_renamed renamed []
          rw [List.append_nil, List.append_nil] at whole
          rw [whole]
          exact there
        obtain ⟨back, restored⟩ : ∃ back, Operation.run second.2.tree
            (.rename (targetRoot ++ [backup]) (targetRoot ++ [id])) = some back :=
          rename_isSome held vacant parent (sibling_ne idBackup)
        have again : second.2.perform (some past)
            (.rename (targetRoot ++ [backup]) (targetRoot ++ [id])) =
            (true, { tree := back, clock := second.2.clock + 1 }) :=
          World.perform_later (by omega) restored
        intro path
        rw [again, remove_sibling idTemporary, entry_renamed restored, entry_renamed renamed]
    · next stuck =>
      intro path
      rw [remove_sibling idTemporary, World.rename_failed ((Bool.not_eq_true _).mp stuck)]
  · next vacant =>
    dsimp only
    split
    · next moved =>
      have moved : world.tree.rename _ _ = some _ := World.perform_eq_true moved
      exact ⟨rfl, fun path => (entry_renamed moved path).trans (laid path)⟩
    · next stuck =>
      intro path
      rw [remove_sibling idTemporary, World.rename_failed ((Bool.not_eq_true _).mp stuck)]

end Replacing

/-! ## The whole install -/

section Installing

variable {decode : Base64Decoder} {source : Text} {fault : Option SkillFault} {world : SkillWorld}
  {files : List SkillStoreFile} {targetRoot : List Text} {skillId id : Text}

theorem validateSkill_eq_ok (valid : validateSkill decode skillId files = .ok id) :
    validateSkillSlug skillId = .ok id ∧ ensureSkillFilesValid decode files = .ok () ∧
      validateSkillMarkdownMatchesSlug id files = .ok () := by
  obtain ⟨slug, slugged, valid⟩ := bind_eq_ok.mp valid
  obtain ⟨⟨⟩, ensured, valid⟩ := bind_eq_ok.mp valid
  obtain ⟨⟨⟩, matched, valid⟩ := bind_eq_ok.mp valid
  cases valid
  exact ⟨slugged, ensured, matched⟩

theorem visible_of_slug (slug : validateSkillSlug skillId = .ok id) :
    startsWith ['.'] id = false := by
  unfold validateSkillSlug at slug
  dsimp only at slug
  split at slug
  · cases slug
  split at slug
  · cases slug
  next visible =>
  split at slug
  · cases slug
    exact (Bool.not_eq_true _).mp visible
  · cases slug

theorem hidden_ne (visible : startsWith ['.'] id = false) (name : Text) : '.' :: name ≠ id := by
  rintro rfl
  have hidden : startsWith ['.'] ('.' :: name) = true := startsWith_iff.mpr ⟨name, rfl⟩
  rw [hidden] at visible
  cases visible

theorem checkSkillFile_eq_ok {file : SkillStoreFile} (checked : checkSkillFile decode file = .ok ()) :
    Placed decode file ∧ (file.isSkillFile = true → file.contentEncoding = none) := by
  obtain ⟨relative, sanitized, checked⟩ := bind_eq_ok.mp checked
  obtain ⟨content, decoded, checked⟩ := bind_eq_ok.mp checked
  refine ⟨⟨_, content, location_of_sanitized sanitized, decoded⟩, fun isSkillFile => ?_⟩
  have same := of_decide_eq_true isSkillFile
  rw [sanitized] at same
  cases same
  rw [if_pos rfl] at checked
  obtain ⟨text, isText, -⟩ := bind_eq_ok.mp checked
  unfold SkillStoreFile.textContent at isText
  split at isText
  · cases isText
  · next plain => exact Option.not_isSome_iff_eq_none.mp plain

theorem ensureSkillFilesValid_eq_ok (ensured : ensureSkillFilesValid decode files = .ok ()) :
    (∀ file ∈ files, checkSkillFile decode file = .ok ()) ∧
      files.any SkillStoreFile.isSkillFile = true := by
  unfold ensureSkillFilesValid at ensured
  split at ensured
  · cases ensured
  obtain ⟨⟨⟩, checked, ensured⟩ := bind_eq_ok.mp ensured
  refine ⟨forM_eq_ok.mp checked, ?_⟩
  split at ensured
  · next any => exact any
  · cases ensured

/-- What stands below the last `SKILL.md` is the content of the last file that goes there. -/
theorem contentAt_skillFile (placed : ∀ file ∈ files, Placed decode file) {file : SkillStoreFile}
    {content : ByteArray} (decoded : file.decodedContent decode = .ok content)
    (last : files.reverse.find? SkillStoreFile.isSkillFile = some file) :
    contentAt decode files [skillFileName] = some content := by
  have placed : ∀ file ∈ files.reverse, Placed decode file :=
    fun file mem => placed file (List.mem_reverse.mp mem)
  unfold contentAt
  generalize files.reverse = files at last placed
  induction files with
  | nil => cases last
  | cons first files ih =>
    rw [List.find?_cons] at last
    rw [List.findSome?_cons]
    split at last
    · next here =>
      cases last
      rw [if_pos (isSkillFile_iff.mp here), decoded]
      rfl
    · next elsewhere =>
      rw [if_neg fun there => by rw [isSkillFile_iff.mpr there] at elsewhere; cases elsewhere]
      exact ih last fun file mem => placed file (List.mem_cons_of_mem _ mem)

/-- What is known of an install whose files were valid. -/
def Installed (decode : Base64Decoder) (world : SkillWorld) (destination : List Text)
    (files : List SkillStoreFile) (outcome : Except ApiError (List Text) × SkillWorld) : Prop :=
  match outcome.1 with
  | .ok place => place = destination ∧ Laid decode outcome.2.tree destination files ∧
      Tidy decode files
  | .error _ => ∀ path,
      outcome.2.tree.entry (destination ++ path) = world.tree.entry (destination ++ path)

theorem laid_nil {tree made : Tree Text ByteArray} {temporary : List Text}
    (vacant : tree.entry temporary = none) (created : tree.createDirAll temporary = some made) :
    Laid decode made temporary [] := by
  intro path
  rw [entry_createDirAll created, tree.entry_eq_none vacant path]
  by_cases here : path = []
  · subst here
    rw [List.append_nil, if_pos ⟨List.prefix_refl _, rfl⟩]
    rfl
  · rw [if_neg fun inside => here ?_]
    · rw [layout, contentAt_nil, holdsFiles, decide_eq_false here]
      rfl
    · have short := inside.1.length_le
      rw [List.length_append] at short
      exact List.eq_nil_of_length_eq_zero (by omega)

theorem install_spec (temporaryId backupId : Text) (overwrite : Bool)
    (valid : validateSkill decode skillId files = .ok id) :
    Installed decode world (targetRoot ++ [id]) files
      (installSkillFilesToTargetDir decode source fault temporaryId backupId world targetRoot
        skillId files overwrite) := by
  have visible := visible_of_slug (validateSkill_eq_ok valid).1
  unfold installSkillFilesToTargetDir
  rw [valid]
  dsimp only
  generalize temporaryName : ['.'] ++ id ++ ".install-".toList ++ temporaryId = temporary
  generalize backupName : ['.'] ++ id ++ ".backup-".toList ++ backupId = backup
  have idTemporary : temporary ≠ id := temporaryName ▸ hidden_ne visible _
  have idBackup : backup ≠ id := backupName ▸ hidden_ne visible _
  have names : backup ≠ temporary := by
    rw [← temporaryName, ← backupName, List.append_assoc, List.append_assoc (['.'] ++ id)]
    intro same
    have kinds := List.append_cancel_left same
    revert kinds
    simp
  -- Neither the root nor the temporary directory is inside the destination.
  have below (path : List Text) : ¬targetRoot ++ [id] ++ path <+: targetRoot := fun inside =>
    child_not_above ((List.prefix_append _ path).trans inside)
  have beside (path rest : List Text) :
      ¬targetRoot ++ [id] ++ path <+: targetRoot ++ [temporary] ++ rest := fun inside =>
    sibling_apart idTemporary.symm rest ((List.prefix_append _ path).trans inside)
  have rooted (path : List Text) : (world.perform fault (.createDirAll targetRoot)).2.tree.entry
      (targetRoot ++ [id] ++ path) = world.tree.entry (targetRoot ++ [id] ++ path) :=
    World.perform_frame (decide_eq_false (below path))
  generalize world.perform fault (.createDirAll targetRoot) = first at rooted ⊢
  split
  · exact rooted
  split
  · exact rooted
  generalize clearing : (if (first.2.tree.entry (targetRoot ++ [temporary])).isSome = true then
    first.2.perform fault (.removeDirAll (targetRoot ++ [temporary])) else (true, first.2)) =
      cleared
  have kept (path : List Text) : cleared.2.tree.entry (targetRoot ++ [id] ++ path) =
      world.tree.entry (targetRoot ++ [id] ++ path) := by
    rw [← clearing, ← rooted path]
    split
    · exact remove_sibling idTemporary path
    · rfl
  split
  · exact kept
  next clear =>
  have vacant : cleared.2.tree.entry (targetRoot ++ [temporary]) = none := by
    subst clearing
    split at clear
    · next there =>
      rw [if_pos there]
      have removed := World.perform_eq_true (by simpa using clear)
      rw [entry_removeDirAll removed, if_pos (List.prefix_refl _)]
    · next absent =>
      rw [if_neg absent]
      exact Option.not_isSome_iff_eq_none.mp absent
  have made (path : List Text) :
      (cleared.2.perform fault (.createDirAll (targetRoot ++ [temporary]))).2.tree.entry
        (targetRoot ++ [id] ++ path) = world.tree.entry (targetRoot ++ [id] ++ path) := by
    refine Eq.trans (World.perform_frame (decide_eq_false ?_)) (kept path)
    have outside := beside path []
    rwa [List.append_nil] at outside
  split
  · exact made
  next created =>
  have directory : Operation.run cleared.2.tree (.createDirAll (targetRoot ++ [temporary])) =
      some _ := World.perform_eq_true (by simpa using created)
  have laid : Laid decode _ (targetRoot ++ [temporary]) [] := laid_nil vacant directory
  clear created directory
  generalize cleared.2.perform fault (.createDirAll (targetRoot ++ [temporary])) = empty
    at made laid ⊢
  have wrote (path : List Text) :
      (writeSkillFiles decode source fault empty.2 (targetRoot ++ [temporary]) files).2.tree.entry
        (targetRoot ++ [id] ++ path) = world.tree.entry (targetRoot ++ [id] ++ path) :=
    (writeSkillFiles_frame (beside path)).trans (made path)
  have whole (ok : (writeSkillFiles decode source fault empty.2 (targetRoot ++ [temporary])
      files).1 = .ok ()) := writeSkillFiles_laid laid ⟨by simp, by simp⟩ ok
  generalize writeSkillFiles decode source fault empty.2 (targetRoot ++ [temporary]) files =
    outcome at wrote whole ⊢
  obtain ⟨error | ⟨⟨⟩⟩, written⟩ := outcome
  · exact fun path => (remove_sibling idTemporary path).trans (wrote path)
  · obtain ⟨laid, disjoint⟩ := whole rfl
    have replaced : Replaced decode written (targetRoot ++ [id]) files
        (replaceDestination source fault written _ _ _) :=
      replaceDestination_spec laid idTemporary idBackup names
    dsimp only
    generalize replaceDestination source fault written (targetRoot ++ [id])
      (targetRoot ++ [temporary]) (targetRoot ++ [backup]) = outcome at replaced ⊢
    obtain ⟨error | place, world⟩ := outcome
    · exact fun path => (replaced path).trans (wrote path)
    · exact ⟨replaced.1, replaced.2, disjoint⟩

/-- A tree with nothing but its root. -/
structure Bare (tree : Tree Text ByteArray) : Prop where
  root : tree.entry [] = some .directory
  vacant : ∀ name, tree.entry [name] = none

theorem Bare.createDirAll {tree : Tree Text ByteArray} (bare : Bare tree) {path : List Text}
    (short : path.length ≤ 1) : ∃ made, tree.createDirAll path = some made := by
  refine createDirAll_of_unobstructed (Tree.unobstructed_iff.mpr fun above inside => ?_)
  match above with
  | [] => exact .inr bare.root
  | [name] => exact .inl (bare.vacant name)
  | first :: second :: rest =>
    have length := inside.length_le
    rw [List.length_cons, List.length_cons] at length
    omega

theorem Bare.of_createDirAll {tree made : Tree Text ByteArray} (bare : Bare tree)
    (created : tree.createDirAll [] = some made) : Bare made where
  root := by
    rw [entry_createDirAll created, bare.root]
    exact if_neg fun both => nomatch both.2
  vacant := by
    intro name
    rw [entry_createDirAll created, bare.vacant]
    exact if_neg fun both => by simp at both

/-- Without a fault, files that are apart are installed where nothing is. -/
theorem install_ok (temporaryId backupId : Text) (overwrite : Bool)
    (valid : validateSkill decode skillId files = .ok id) (disjoint : Tidy decode files)
    (bare : Bare world.tree) :
    ∃ place, (installSkillFilesToTargetDir decode source none temporaryId backupId world []
      skillId files overwrite).1 = .ok place := by
  have visible := visible_of_slug (validateSkill_eq_ok valid).1
  obtain ⟨rooted, created⟩ : ∃ rooted, Operation.run world.tree (.createDirAll []) = some rooted :=
    bare.createDirAll (Nat.zero_le 1)
  have bare := bare.of_createDirAll created
  unfold installSkillFilesToTargetDir
  rw [valid]
  dsimp only
  generalize temporaryName : ['.'] ++ id ++ ".install-".toList ++ temporaryId = temporary
  have idTemporary : temporary ≠ id := temporaryName ▸ hidden_ne visible _
  obtain ⟨made, directory⟩ :
      ∃ made, Operation.run rooted (.createDirAll [temporary]) = some made :=
    bare.createDirAll (Nat.le_refl 1)
  have laid : Laid decode made [temporary] [] := laid_nil (bare.vacant temporary) directory
  have vacant : made.entry [id] = none := by
    rw [entry_createDirAll directory, bare.vacant id]
    refine if_neg fun both => ?_
    exact idTemporary (List.cons_prefix_cons.mp both.1).1.symm
  rw [World.perform_none created]
  dsimp only
  rw [if_neg (by simp), List.nil_append, List.nil_append, bare.vacant, bare.vacant,
    if_neg (by simp)]
  rw [if_neg (by simp), if_neg (show ¬(none : Option (Entry ByteArray)).isSome = true by simp)]
  have second : World.perform none ({ tree := rooted, clock := world.clock + 1 } : SkillWorld)
      (.createDirAll [temporary]) = (true, { tree := made, clock := world.clock + 1 + 1 }) :=
    World.perform_none directory
  rw [second]
  dsimp only
  rw [if_neg (by simp)]
  generalize world.clock + 1 + 1 = clock
  have written : (writeSkillFiles decode source none { tree := made, clock } [temporary] files).1 =
      .ok () := writeSkillFiles_ok laid disjoint
  have free : (writeSkillFiles decode source none { tree := made, clock } [temporary]
      files).2.tree.entry [id] = made.entry [id] :=
    writeSkillFiles_frame fun rest inside => idTemporary (List.cons_prefix_cons.mp inside).1.symm
  have whole : Laid decode (writeSkillFiles decode source none { tree := made, clock } [temporary]
      files).2.tree [temporary] ([] ++ files) :=
    (writeSkillFiles_laid laid ⟨by simp, by simp⟩ written).1
  generalize writeSkillFiles decode source none ({ tree := made, clock } : SkillWorld) [temporary]
    files = outcome at written free whole ⊢
  obtain ⟨result, filled⟩ := outcome
  cases written
  have free : filled.tree.entry ([] ++ [id]) = none := free.trans vacant
  have there : (filled.tree.entry [temporary]).isSome = true := by
    rw [whole.rooted]
    rfl
  obtain ⟨placed, renamed⟩ : ∃ placed, Operation.run filled.tree
      (.rename [temporary] ([] ++ [id])) = some placed := by
    refine rename_isSome there free ?_ fun inside =>
      idTemporary (List.cons_prefix_cons.mp inside).1
    exact filled.tree.inDirectory [] temporary there
  rw [List.nil_append] at free renamed
  dsimp only
  unfold replaceDestination
  rw [free, if_neg (by simp), World.perform_none renamed]
  exact ⟨_, rfl⟩

/-- What stands at `SKILL.md` is the text of the last file that goes there. -/
theorem exists_lastSkillFile (valid : validateSkill decode skillId files = .ok id) :
    ∃ file, files.reverse.find? SkillStoreFile.isSkillFile = some file ∧
      contentAt decode files [skillFileName] = some (bytesOf file.content) := by
  obtain ⟨checked, any⟩ := ensureSkillFilesValid_eq_ok (validateSkill_eq_ok valid).2.1
  have reversed : (files.reverse.find? SkillStoreFile.isSkillFile).isSome = true := by
    rw [List.find?_isSome]
    obtain ⟨file, mem, here⟩ := List.any_eq_true.mp any
    exact ⟨file, List.mem_reverse.mpr mem, here⟩
  obtain ⟨file, last⟩ := Option.isSome_iff_exists.mp reversed
  have mem : file ∈ files := List.mem_reverse.mp (List.mem_of_find?_eq_some last)
  have plain := (checkSkillFile_eq_ok (checked file mem)).2 (List.find?_some last)
  refine ⟨file, last, contentAt_skillFile
    (fun file mem => (checkSkillFile_eq_ok (checked file mem)).1) ?_ last⟩
  rw [SkillStoreFile.decodedContent, plain]

/-- The files are refused, or one of them is in the way of another, or the last `SKILL.md` is the
skill's. -/
def lastOneHolds (decode : Base64Decoder) (skillId : Text) (files : List SkillStoreFile) : Bool :=
  !(validateSkill decode skillId files).isOk || clashes files || lastSkillFileMatches skillId files

theorem clashes_eq_false (disjoint : Tidy decode files) : clashes files = false := by
  rw [← Bool.not_eq_true]
  intro clash
  obtain ⟨file, mem, clash⟩ := List.any_eq_true.mp clash
  obtain ⟨other, also, clash⟩ := List.any_eq_true.mp clash
  obtain ⟨location, placed, clash⟩ := (Option.any_eq_true _ _).mp clash
  obtain ⟨place, there, clash⟩ := (Option.any_eq_true _ _).mp clash
  have clash := of_decide_eq_true clash
  exact clash.2 ((disjoint.apart file mem other also location place placed there).1 clash.1)

theorem tidy_of_clashes (placed : ∀ file ∈ files, Placed decode file)
    (apart : clashes files = false) : Tidy decode files where
  placed := placed
  apart := by
    have inside : ∀ file ∈ files, ∀ other ∈ files, ∀ location place,
        file.location = some location → other.location = some place →
          location <+: place → location = place := by
      intro file mem other also location place placed there inner
      by_contra ne
      rw [← Bool.not_eq_true] at apart
      refine apart (List.any_eq_true.mpr ⟨file, mem, List.any_eq_true.mpr ⟨other, also, ?_⟩⟩)
      rw [placed, there, Option.any_some, Option.any_some]
      exact decide_eq_true ⟨inner, ne⟩
    intro file mem other also location place placed there
    exact ⟨inside file mem other also location place placed there,
      inside other also file mem place location there placed⟩

theorem lastSkillFileMatches_iff {file : SkillStoreFile}
    (last : files.reverse.find? SkillStoreFile.isSkillFile = some file) :
    lastSkillFileMatches skillId files = true ↔
      ∃ parsed, parseSkillMarkdown skillFileName file.content = .ok parsed ∧
        validateSkillSlug skillId = .ok parsed.id := by
  rw [lastSkillFileMatches, last, Option.any_some]
  cases parseSkillMarkdown skillFileName file.content with
  | error message => simp
  | ok parsed => simp

/-- Files that are refused change nothing. -/
theorem install_refused (temporaryId backupId : Text) (overwrite : Bool)
    (refused : (validateSkill decode skillId files).isOk = false) :
    KeepsItsWord decode world targetRoot skillId files
      (installSkillFilesToTargetDir decode source fault temporaryId backupId world targetRoot
        skillId files overwrite) := by
  unfold installSkillFilesToTargetDir
  cases valid : validateSkill decode skillId files with
  | ok id =>
    rw [valid] at refused
    cases refused
  | error error => exact fun _ _ _ => rfl

/-- What an install lays out is what it has promised if the last `SKILL.md` is the skill's. -/
theorem keepsItsWord_of_installed (valid : validateSkill decode skillId files = .ok id)
    {outcome : Except ApiError (List Text) × SkillWorld}
    (installed : Installed decode world (targetRoot ++ [id]) files outcome)
    (holds : clashes files = true ∨ lastSkillFileMatches skillId files = true) :
    KeepsItsWord decode world targetRoot skillId files outcome := by
  obtain ⟨slug, ensured, -⟩ := validateSkill_eq_ok valid
  obtain ⟨result, left⟩ := outcome
  cases result with
  | error error =>
    intro other same path
    cases slug.symm.trans same
    exact installed path
  | ok place =>
    obtain ⟨rfl, laid, disjoint⟩ := installed
    have holds := holds.resolve_left (by rw [clashes_eq_false disjoint]; simp)
    obtain ⟨file, last, content⟩ := exists_lastSkillFile valid
    obtain ⟨parsed, parses, named⟩ := (lastSkillFileMatches_iff last).mp holds
    refine ⟨id, slug, rfl, laid, fun file mem => ?_, bytesOf file.content, file.content, parsed,
      ?_, textOf_bytesOf _, parses, ?_⟩
    · obtain ⟨location, _, placed, -⟩ := disjoint.placed file mem
      obtain ⟨-, -, -, nonempty, plain⟩ := location_spec placed
      exact ⟨location, placed, nonempty, plain⟩
    · exact (laid [skillFileName]).trans (layout_of_content content)
    · cases slug.symm.trans named
      rfl

/-- What stands at `SKILL.md` after an install that keeps its word is the skill's. -/
theorem lastSkillFileMatches_of_keepsItsWord (valid : validateSkill decode skillId files = .ok id)
    {outcome : Except ApiError (List Text) × SkillWorld} {place : List Text}
    (ok : outcome.1 = .ok place)
    (kept : KeepsItsWord decode world targetRoot skillId files outcome) :
    lastSkillFileMatches skillId files = true := by
  obtain ⟨result, left⟩ := outcome
  cases ok
  obtain ⟨id, slug, -, laid, -, bytes, text, parsed, there, isText, parses, named⟩ := kept
  obtain ⟨file, last, content⟩ := exists_lastSkillFile valid
  rw [laid, layout_of_content content] at there
  cases there
  rw [textOf_bytesOf] at isText
  cases isText
  exact (lastSkillFileMatches_iff last).mpr ⟨parsed, parses, named ▸ slug⟩

/-- The tree with only the root directory. -/
def bareTree : Tree Text ByteArray where
  entry := fun path => if path = [] then some .directory else none
  inDirectory := by
    intro path name there
    rw [if_neg (by simp)] at there
    cases there

theorem bare_bareTree : Bare bareTree := ⟨rfl, fun _ => rfl⟩

/-- An install keeps its word at every destination and whatever fails exactly when the last
`SKILL.md` of the files is the skill's, unless the files cannot be installed at all. -/
theorem keepsItsWord_iff (decode : Base64Decoder) (source temporaryId backupId skillId : Text)
    (files : List SkillStoreFile) :
    (∀ world targetRoot overwrite fault, KeepsItsWord decode world targetRoot skillId files
      (installSkillFilesToTargetDir decode source fault temporaryId backupId world targetRoot
        skillId files overwrite)) ↔ lastOneHolds decode skillId files = true := by
  rw [lastOneHolds, Bool.or_eq_true, Bool.or_eq_true, Bool.not_eq_true', or_assoc]
  constructor
  · intro kept
    cases valid : validateSkill decode skillId files with
    | error error => exact .inl rfl
    | ok id =>
      refine .inr ?_
      by_cases clash : clashes files = true
      · exact .inl clash
      · obtain ⟨checked, -⟩ := ensureSkillFilesValid_eq_ok (validateSkill_eq_ok valid).2.1
        have disjoint := tidy_of_clashes
          (fun file mem => (checkSkillFile_eq_ok (checked file mem)).1)
          ((Bool.not_eq_true _).mp clash)
        have bare : Bare (World.mk bareTree 0).tree := bare_bareTree
        obtain ⟨place, ok⟩ := install_ok temporaryId backupId false valid disjoint bare
        exact .inr (lastSkillFileMatches_of_keepsItsWord valid ok
          (kept { tree := bareTree } [] false none))
  · rintro holds world targetRoot overwrite fault
    cases valid : validateSkill decode skillId files with
    | error error =>
      exact install_refused temporaryId backupId overwrite (by rw [valid]; rfl)
    | ok id =>
      rw [valid] at holds
      exact keepsItsWord_of_installed valid (install_spec temporaryId backupId overwrite valid)
        (holds.resolve_left nofun)

end Installing

/-- A `SKILL.md` with the given name. -/
def namedSkillFile (name : Char) : Text :=
  "---\nname: ".toList ++ name :: "\ndescription: d\n---\nUse it.".toList

/-- Two spellings of `SKILL.md`: the first file is the skill's, the second is another's. -/
def twoSkillFiles : List SkillStoreFile :=
  [{ path := skillFileName, content := namedSkillFile 'a' },
    { path := skillFileName ++ ['/'], content := namedSkillFile 'b' }]

theorem not_keepsItsWord : ¬∀ (decode : Base64Decoder) (source temporaryId backupId skillId : Text)
    (files : List SkillStoreFile) (world : SkillWorld) (targetRoot : List Text) (overwrite : Bool)
    (fault : Option SkillFault), KeepsItsWord decode world targetRoot skillId files
      (installSkillFilesToTargetDir decode source fault temporaryId backupId world targetRoot
        skillId files overwrite) := by
  intro kept
  have valid : validateSkill Except.error ['a'] twoSkillFiles = .ok ['a'] := by decide
  have apart : clashes twoSkillFiles = false := by decide
  have other : lastSkillFileMatches ['a'] twoSkillFiles = false := by decide
  obtain ⟨checked, -⟩ := ensureSkillFilesValid_eq_ok (validateSkill_eq_ok valid).2.1
  have disjoint := tidy_of_clashes
    (fun file mem => (checkSkillFile_eq_ok (checked file mem)).1) apart
  have bare : Bare (World.mk bareTree 0).tree := bare_bareTree
  obtain ⟨place, ok⟩ := install_ok [] [] false valid disjoint bare
  have held := lastSkillFileMatches_of_keepsItsWord valid ok
    (kept Except.error [] [] [] ['a'] twoSkillFiles ⟨bareTree, 0⟩ [] false none)
  rw [other] at held
  cases held

end Foco.SkillInstall

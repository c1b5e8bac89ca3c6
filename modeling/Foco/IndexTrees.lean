import Foco.ApiErrors
import Foco.FallibleSteps
import Foco.SortedByKey
import Mathlib.Data.List.Lex
import Mathlib.Logic.Relation

/-!
The trees that a commit of the index writes: the paths of the index go into nested maps of
directories, and every directory becomes one tree object. The object store is git's.
-/
namespace Foco.IndexTrees
open FallibleSteps RustText
open FallibleSteps.Steps

/-- `gix::objs::tree::EntryKind`. -/
inductive EntryKind where
  | tree | blob | blobExecutable | link | commit
  deriving DecidableEq

/-- `gix::index::entry::Stage`. -/
inductive Stage where
  | unconflicted | base | ours | theirs
  deriving DecidableEq

abbrev Bytes := List UInt8

/-- An entry of the index; `mode` is the kind `to_tree_entry_mode` gives. A sparse index has
entries of the kind `tree`, for directories left as they are in the tree. -/
structure IndexEntry (Oid : Type) where
  path : Bytes
  stage : Stage
  mode : Option EntryKind
  id : Oid

/-- `gix::objs::tree::Entry`. -/
structure TreeEntry (Oid : Type) where
  mode : EntryKind
  filename : Bytes
  oid : Oid

structure PendingTreeFile (Oid : Type) where
  name : Bytes
  mode : EntryKind
  oid : Oid

/-- The directories are a `BTreeMap`, here by ascending names. -/
inductive PendingTree (Oid : Type) where
  | mk (files : List (PendingTreeFile Oid)) (directories : List (Bytes × PendingTree Oid))

def slash : UInt8 := 47

/-- The name as git compares it: a directory's is followed by a slash. -/
def TreeEntry.key {Oid : Type} (entry : TreeEntry Oid) : Bytes :=
  if entry.mode = .tree then entry.filename ++ [slash] else entry.filename

def inOrder {Oid : Type} (first second : TreeEntry Oid) : Prop := first.key ≤ second.key

instance {Oid : Type} : DecidableRel (inOrder : TreeEntry Oid → TreeEntry Oid → Prop) :=
  fun first second => inferInstanceAs (Decidable (first.key ≤ second.key))

/-- `write_object` and the reading of trees. Objects are never taken away, and what was written is
found under the id that writing it gave. -/
structure Repository (Oid Store : Type) where
  writeObject : List (TreeEntry Oid) → Steps Store Text Oid
  readTree : Store → Oid → Option (List (TreeEntry Oid))
  keeps : ∀ tree store id found, readTree store id = some found →
    readTree (writeObject tree store).2 id = some found
  stores : ∀ tree store id, (writeObject tree store).1 = .ok id →
    readTree (writeObject tree store).2 id = some tree

section Code

variable {Oid Store : Type}

def PendingTree.files : PendingTree Oid → List (PendingTreeFile Oid)
  | .mk files _ => files

def PendingTree.directories : PendingTree Oid → List (Bytes × PendingTree Oid)
  | .mk _ directories => directories

def PendingTree.empty : PendingTree Oid := .mk [] []

def directoryKey (directory : Bytes × PendingTree Oid) : List Nat :=
  directory.1.map UInt8.toNat

/-- `entry(directory).or_default()`. -/
def entryOrDefault (directories : List (Bytes × PendingTree Oid)) (name : Bytes) :
    PendingTree Oid :=
  match directories.find? fun directory => directory.1 = name with
  | some directory => directory.2
  | none => .empty

def emptyPath : ApiError := .badRequest "git index contains empty path".toList

/-- `PendingTree::insert`. -/
def PendingTree.insert (mode : EntryKind) (oid : Oid) :
    List Bytes → PendingTree Oid → Except ApiError (PendingTree Oid)
  | [], _ => .error emptyPath
  | [name], tree => .ok (.mk (tree.files ++ [⟨name, mode, oid⟩]) tree.directories)
  | directory :: rest, tree => do
    let below ← insert mode oid rest (entryOrDefault tree.directories directory)
    .ok (.mk tree.files (SortedByKey.insert directoryKey (directory, below) tree.directories))

def PendingTreeFile.entry (file : PendingTreeFile Oid) : TreeEntry Oid :=
  ⟨file.mode, file.name, file.oid⟩

def writeFailed (source : Text) : ApiError :=
  .internal ("failed to write git tree: ".toList ++ source)

/-- `repo.write_object(tree)` with its error turned into one of the app. -/
def Repository.writeSorted (repo : Repository Oid Store) (entries : List (TreeEntry Oid)) :
    Steps Store ApiError Oid := fun store =>
  match repo.writeObject (entries.insertionSort inOrder) store with
  | (.ok id, store') => (.ok id, store')
  | (.error source, store') => (.error (writeFailed source), store')

mutual

/-- `PendingTree::write`. -/
def PendingTree.write (repo : Repository Oid Store) : PendingTree Oid → Steps Store ApiError Oid
  | .mk files directories => do
    let entries ← writeDirectories repo directories
    repo.writeSorted (entries ++ files.map PendingTreeFile.entry)

def writeDirectories (repo : Repository Oid Store) :
    List (Bytes × PendingTree Oid) → Steps Store ApiError (List (TreeEntry Oid))
  | [] => Pure.pure []
  | (name, directory) :: rest => do
    let oid ← directory.write repo
    let entries ← writeDirectories repo rest
    Pure.pure (⟨.tree, name, oid⟩ :: entries)

end

/-- The parts of a path: a slash at an end and a doubled one leave none. -/
def parts (path : Bytes) : List Bytes :=
  (path.splitOn slash).filter fun part => !part.isEmpty

/-- The loop of `write_tree_from_index` over the entries. -/
def insertEntries : List (IndexEntry Oid) → PendingTree Oid → Except ApiError (PendingTree Oid)
  | [], root => .ok root
  | entry :: entries, root =>
    if entry.stage ≠ .unconflicted then
      .error (.badRequest "cannot commit git index with conflicted entries".toList)
    else match entry.mode with
      | none => .error (.badRequest "git index contains non-tree entry mode".toList)
      | some mode =>
        if parts entry.path = [] then .error emptyPath
        else match root.insert mode entry.id (parts entry.path) with
          | .error error => .error error
          | .ok root' => insertEntries entries root'

def writeTreeFromIndex (repo : Repository Oid Store) (index : List (IndexEntry Oid)) :
    Steps Store ApiError Oid :=
  match insertEntries index .empty with
  | .error error => fail error
  | .ok root => root.write repo

end Code

section Directories

variable {Oid : Type} {tree tree' : PendingTree Oid} {directories : List (Bytes × PendingTree Oid)}
  {path other : List Bytes} {mode kind : EntryKind} {oid id : Oid} {name : Bytes}

/-- What a pending tree has below it, with the names on the way. -/
inductive PendingTree.Holds : PendingTree Oid → List Bytes → EntryKind → Oid → Prop
  | file {tree : PendingTree Oid} {file : PendingTreeFile Oid} (mem : file ∈ tree.files) :
      Holds tree [file.name] file.mode file.oid
  | inside {tree : PendingTree Oid} {directory : Bytes × PendingTree Oid} {path : List Bytes}
      {mode : EntryKind} {oid : Oid} (mem : directory ∈ tree.directories)
      (held : Holds directory.2 path mode oid) : Holds tree (directory.1 :: path) mode oid

/-- No name stands twice in a directory, and no directory is there without anything in it. -/
inductive PendingTree.Tidy : PendingTree Oid → Prop
  | mk {tree : PendingTree Oid} (files : (tree.files.map PendingTreeFile.name).Nodup)
      (sorted : SortedByKey.Sorted directoryKey tree.directories)
      (apart : ∀ file ∈ tree.files, ∀ directory ∈ tree.directories, file.name ≠ directory.1)
      (held : ∀ directory ∈ tree.directories, ∃ path mode oid, directory.2.Holds path mode oid)
      (below : ∀ directory ∈ tree.directories, Tidy directory.2) : Tidy tree

/-- Neither of the two is the other or leads to it. -/
def Apart (first second : List Bytes) : Prop := ¬ first <+: second ∧ ¬ second <+: first

instance (first second : List Bytes) : Decidable (Apart first second) :=
  inferInstanceAs (Decidable (_ ∧ _))

theorem Apart.of_cons (apart : Apart (name :: path) (name :: other)) : Apart path other :=
  ⟨fun leads => apart.1 (List.cons_prefix_cons.mpr ⟨rfl, leads⟩),
    fun leads => apart.2 (List.cons_prefix_cons.mpr ⟨rfl, leads⟩)⟩

theorem directoryKey_eq_iff {first second : Bytes × PendingTree Oid} :
    directoryKey first = directoryKey second ↔ first.1 = second.1 := by
  constructor
  · intro eq
    exact List.map_injective_iff.mpr (fun _ _ => UInt8.toNat_inj.mp) eq
  · intro eq
    rw [directoryKey, directoryKey, eq]

@[simp] theorem empty_files : (PendingTree.empty : PendingTree Oid).files = [] := rfl

@[simp] theorem empty_directories : (PendingTree.empty : PendingTree Oid).directories = [] := rfl

theorem not_holds_empty : ¬ PendingTree.empty.Holds path mode oid := by
  intro held
  cases held with
  | file mem => simp at mem
  | inside mem => simp at mem

theorem tidy_empty : (PendingTree.empty : PendingTree Oid).Tidy :=
  .mk List.nodup_nil SortedByKey.sorted_nil (by simp) (by simp) (by simp)

theorem holds_iff : tree.Holds path mode oid ↔
    (∃ file ∈ tree.files, path = [file.name] ∧ mode = file.mode ∧ oid = file.oid) ∨
      ∃ directory ∈ tree.directories, ∃ rest, path = directory.1 :: rest ∧
        directory.2.Holds rest mode oid := by
  constructor
  · intro held
    cases held with
    | file mem => exact .inl ⟨_, mem, rfl, rfl, rfl⟩
    | inside mem held => exact .inr ⟨_, mem, _, rfl, held⟩
  · rintro (⟨file, mem, rfl, rfl, rfl⟩ | ⟨directory, mem, rest, rfl, held⟩)
    · exact .file mem
    · exact .inside mem held

/-- In a sorted list a name has one directory. -/
theorem eq_of_name (sorted : SortedByKey.Sorted directoryKey directories)
    {first second : Bytes × PendingTree Oid} (mem : first ∈ directories)
    (mem' : second ∈ directories) (same : first.1 = second.1) : first = second := by
  have keys : (directories.map directoryKey).Nodup :=
    List.pairwise_map.mpr (sorted.imp fun less => ne_of_lt less)
  exact List.inj_on_of_nodup_map keys mem mem' (directoryKey_eq_iff.mpr same)

/-- What a name leads to is what its directory holds. -/
theorem entryOrDefault_holds (sorted : SortedByKey.Sorted directoryKey directories) :
    (entryOrDefault directories name).Holds path mode oid ↔
      ∃ directory ∈ directories, directory.1 = name ∧ directory.2.Holds path mode oid := by
  unfold entryOrDefault
  split
  · next directory found =>
    have mem := List.mem_of_find?_eq_some found
    have same : directory.1 = name := by simpa using List.find?_some found
    constructor
    · exact fun held => ⟨directory, mem, same, held⟩
    · rintro ⟨another, mem', same', held⟩
      rwa [eq_of_name sorted mem mem' (same.trans same'.symm)]
  · next missing =>
    refine iff_of_false not_holds_empty ?_
    rintro ⟨directory, mem, same, -⟩
    exact absurd same (by simpa using List.find?_eq_none.mp missing directory mem)

theorem PendingTree.Tidy.sorted (tidy : tree.Tidy) :
    SortedByKey.Sorted directoryKey tree.directories := by
  obtain ⟨-, sorted, -, -, -⟩ := tidy
  exact sorted

theorem PendingTree.Tidy.entryOrDefault (tidy : tree.Tidy) (name : Bytes) :
    (entryOrDefault tree.directories name).Tidy := by
  cases tidy with | mk _ _ _ _ below => ?_
  unfold IndexTrees.entryOrDefault
  split
  · next directory found => exact below directory (List.mem_of_find?_eq_some found)
  · exact tidy_empty

theorem PendingTree.Tidy.insert_file (tidy : tree.Tidy)
    (free : ∀ held kind id, tree.Holds held kind id → Apart held [name]) :
    (PendingTree.mk (tree.files ++ [⟨name, mode, oid⟩]) tree.directories).Tidy := by
  obtain ⟨files, sorted, apart, held, below⟩ := tidy
  refine .mk ?_ sorted ?_ held below
  · rw [PendingTree.files, List.map_append]
    refine List.Nodup.append files (List.nodup_singleton _) ?_
    intro taken among new
    obtain ⟨file, mem, named⟩ := List.mem_map.mp among
    have same : taken = name := List.mem_singleton.mp new
    refine (free _ _ _ (.file mem)).1 ?_
    rw [named, same]
  · intro file mem directory mem'
    obtain mem | mem := List.mem_append.mp mem
    · exact apart file mem directory mem'
    · obtain rfl := List.mem_singleton.mp mem
      rintro rfl
      obtain ⟨path, kind, id, inside⟩ := held directory mem'
      exact (free _ _ _ (.inside mem' inside)).2 ⟨path, rfl⟩

theorem PendingTree.Tidy.insert_directory (tidy : tree.Tidy) {below' : PendingTree Oid}
    (free : ∀ file ∈ tree.files, file.name ≠ name) (tidy' : below'.Tidy)
    (inside : below'.Holds path mode oid) :
    (PendingTree.mk tree.files
      (SortedByKey.insert directoryKey (name, below') tree.directories)).Tidy := by
  obtain ⟨files, sorted, apart, held, below⟩ := tidy
  refine .mk files (sorted.insert _) ?_ ?_ ?_
  · intro file mem directory mem'
    obtain rfl | ⟨mem', -⟩ := (SortedByKey.mem_insert sorted).mp mem'
    · exact free file mem
    · exact apart file mem directory mem'
  · intro directory mem
    obtain rfl | ⟨mem, -⟩ := (SortedByKey.mem_insert sorted).mp mem
    · exact ⟨path, mode, oid, inside⟩
    · exact held directory mem
  · intro directory mem
    obtain rfl | ⟨mem, -⟩ := (SortedByKey.mem_insert sorted).mp mem
    · exact tidy'
    · exact below directory mem

theorem insert_file_holds :
    (PendingTree.mk (tree.files ++ [⟨name, mode, oid⟩]) tree.directories).Holds other kind id ↔
      tree.Holds other kind id ∨ other = [name] ∧ kind = mode ∧ id = oid := by
  rw [holds_iff, holds_iff, or_right_comm]
  refine or_congr ?_ Iff.rfl
  constructor
  · rintro ⟨file, mem, rfl, rfl, rfl⟩
    obtain mem | mem := List.mem_append.mp mem
    · exact .inl ⟨file, mem, rfl, rfl, rfl⟩
    · obtain rfl := List.mem_singleton.mp mem
      exact .inr ⟨rfl, rfl, rfl⟩
  · rintro (⟨file, mem, rfl, rfl, rfl⟩ | ⟨rfl, rfl, rfl⟩)
    · exact ⟨file, List.mem_append_left _ mem, rfl, rfl, rfl⟩
    · exact ⟨⟨name, kind, id⟩, List.mem_append_right _ (List.mem_singleton_self _), rfl, rfl, rfl⟩

/-- What is held after a directory was put in: what its tree holds under its name, and what was
held under other names. -/
theorem insert_directory_holds (sorted : SortedByKey.Sorted directoryKey tree.directories)
    {below' : PendingTree Oid}
    (grown : ∀ rest kind id, below'.Holds rest kind id ↔
      (entryOrDefault tree.directories name).Holds rest kind id ∨
        rest = path ∧ kind = mode ∧ id = oid) :
    (PendingTree.mk tree.files
        (SortedByKey.insert directoryKey (name, below') tree.directories)).Holds other kind id ↔
      tree.Holds other kind id ∨ other = name :: path ∧ kind = mode ∧ id = oid := by
  rw [holds_iff, holds_iff, or_assoc]
  refine or_congr Iff.rfl ?_
  constructor
  · rintro ⟨directory, mem, rest, rfl, inside⟩
    obtain rfl | ⟨mem, -⟩ := (SortedByKey.mem_insert sorted).mp mem
    · obtain inside | ⟨rfl, same⟩ := (grown rest kind id).mp inside
      · obtain ⟨another, mem', same, inside⟩ := (entryOrDefault_holds sorted).mp inside
        exact .inl ⟨another, mem', rest, by rw [same], inside⟩
      · exact .inr ⟨rfl, same⟩
    · exact .inl ⟨directory, mem, rest, rfl, inside⟩
  · rintro (⟨directory, mem, rest, rfl, inside⟩ | ⟨rfl, same⟩)
    · by_cases here : directory.1 = name
      · subst here
        refine ⟨_, (SortedByKey.mem_insert sorted).mpr (.inl rfl), rest, rfl, ?_⟩
        exact (grown rest kind id).mpr
          (.inl ((entryOrDefault_holds sorted).mpr ⟨directory, mem, rfl, inside⟩))
      · refine ⟨directory, (SortedByKey.mem_insert sorted).mpr (.inr ⟨mem, ?_⟩), rest, rfl, inside⟩
        exact fun same => here (directoryKey_eq_iff.mp same)
    · refine ⟨_, (SortedByKey.mem_insert sorted).mpr (.inl rfl), path, rfl, ?_⟩
      exact (grown path kind id).mpr (.inr ⟨rfl, same⟩)

/-- A path that neither leads to a held one nor goes through one is held after it was put in,
beside what was. -/
theorem insert_spec (mode : EntryKind) (oid : Oid) (tidy : tree.Tidy) (some_ : path ≠ [])
    (free : ∀ held kind id, tree.Holds held kind id → Apart held path) :
    ∃ tree', tree.insert mode oid path = .ok tree' ∧ tree'.Tidy ∧
      ∀ other kind id, tree'.Holds other kind id ↔
        tree.Holds other kind id ∨ other = path ∧ kind = mode ∧ id = oid := by
  induction path generalizing tree with
  | nil => exact absurd rfl some_
  | cons name rest ih =>
    cases rest with
    | nil =>
      refine ⟨_, rfl, tidy.insert_file free, fun other kind id => ?_⟩
      exact insert_file_holds
    | cons next rest =>
      have free' : ∀ held kind id, (entryOrDefault tree.directories name).Holds held kind id →
          Apart held (next :: rest) := by
        intro held kind id inside
        obtain ⟨directory, mem, rfl, within⟩ := (entryOrDefault_holds tidy.sorted).mp inside
        exact (free _ _ _ (.inside mem within)).of_cons
      have unfiled : ∀ file ∈ tree.files, file.name ≠ name := by
        rintro file mem rfl
        exact (free _ _ _ (.file mem)).1 ⟨next :: rest, rfl⟩
      obtain ⟨below', inserted, tidy', grown⟩ :=
        ih (tidy.entryOrDefault name) (List.cons_ne_nil _ _) free'
      have inside := (grown (next :: rest) mode oid).mpr (.inr ⟨rfl, rfl, rfl⟩)
      refine ⟨_, ?_, tidy.insert_directory unfiled tidy' inside,
        fun _ _ _ => insert_directory_holds tidy.sorted grown⟩
      rw [PendingTree.insert, inserted]
      · rfl
      · exact List.cons_ne_nil _ _

end Directories

section Entries

variable {Oid : Type} {index entries : List (IndexEntry Oid)} {root : PendingTree Oid}

/-- What the loop accepts of an entry beside its stage. -/
def IndexEntry.Writable (entry : IndexEntry Oid) : Prop :=
  entry.mode ≠ none ∧ parts entry.path ≠ []

instance (entry : IndexEntry Oid) : Decidable entry.Writable := inferInstanceAs (Decidable (_ ∧ _))

theorem insertEntries_refused (root : PendingTree Oid)
    (bad : ∃ entry ∈ entries, ¬ entry.Writable) :
    ∃ error, insertEntries entries root = .error error := by
  induction entries generalizing root with
  | nil => simp at bad
  | cons entry entries ih =>
    unfold insertEntries
    split
    · exact ⟨_, rfl⟩
    split
    · exact ⟨_, rfl⟩
    next mode isMode =>
      split
      · exact ⟨_, rfl⟩
      next some_ =>
        split
        · exact ⟨_, rfl⟩
        · apply ih
          obtain ⟨found, mem, bad⟩ := bad
          obtain rfl | mem := List.mem_cons.mp mem
          · exact absurd ⟨by simp [isMode], some_⟩ bad
          · exact ⟨found, mem, bad⟩

/-- The entries are held one by one, whatever was held before them. -/
theorem insertEntries_spec (tidy : root.Tidy)
    (unconflicted : ∀ entry ∈ entries, entry.stage = .unconflicted)
    (writable : ∀ entry ∈ entries, entry.Writable)
    (apart : entries.Pairwise fun first second => Apart (parts first.path) (parts second.path))
    (free : ∀ held kind id, root.Holds held kind id →
      ∀ entry ∈ entries, Apart held (parts entry.path)) :
    ∃ root', insertEntries entries root = .ok root' ∧ root'.Tidy ∧
      ∀ path kind id, root'.Holds path kind id ↔ root.Holds path kind id ∨
        ∃ entry ∈ entries, path = parts entry.path ∧ entry.mode = some kind ∧ id = entry.id := by
  induction entries generalizing root with
  | nil => exact ⟨root, rfl, tidy, by simp⟩
  | cons entry entries ih =>
    obtain ⟨apart_here, apart⟩ := List.pairwise_cons.mp apart
    obtain ⟨isMode, some_⟩ := writable entry List.mem_cons_self
    obtain ⟨mode, isMode⟩ := Option.ne_none_iff_exists'.mp isMode
    obtain ⟨root', inserted, tidy', grown⟩ := insert_spec mode entry.id tidy some_
      fun held kind id holds => free held kind id holds entry List.mem_cons_self
    obtain ⟨last, rest, tidy_last, grown_last⟩ := ih tidy'
      (fun other mem => unconflicted other (List.mem_cons_of_mem _ mem))
      (fun other mem => writable other (List.mem_cons_of_mem _ mem)) apart (by
        intro held kind id holds other mem
        obtain holds | ⟨rfl, -, -⟩ := (grown held kind id).mp holds
        · exact free held kind id holds other (List.mem_cons_of_mem _ mem)
        · exact apart_here other mem)
    refine ⟨last, ?_, tidy_last, fun path kind id => ?_⟩
    · rw [insertEntries, if_neg (not_not.mpr (unconflicted entry List.mem_cons_self)), isMode]
      simp only [if_neg some_, inserted]
      exact rest
    · rw [grown_last, grown, or_assoc, List.exists_mem_cons_iff]
      refine or_congr Iff.rfl (or_congr (and_congr Iff.rfl (and_congr ?_ Iff.rfl)) Iff.rfl)
      rw [isMode, Option.some.injEq, eq_comm]

end Entries

section Writing

variable {Oid Store : Type} {repo : Repository Oid Store} {store store' : Store}
  {tree : PendingTree Oid} {read read' : Oid → Option (List (TreeEntry Oid))} {root : Oid}

/-- The names of a tree ascend in git's order, and none stands there twice. -/
def InGitOrder (entries : List (TreeEntry Oid)) : Prop :=
  entries.Pairwise inOrder ∧ (entries.map TreeEntry.filename).Nodup

/-- The store changed by writing trees in git's order only. -/
def Repository.Wrote (repo : Repository Oid Store) : Store → Store → Prop :=
  Relation.ReflTransGen fun store store' =>
    ∃ entries, InGitOrder entries ∧ store' = (repo.writeObject entries store).2

theorem Repository.Wrote.keeps (wrote : repo.Wrote store store') {id : Oid}
    {found : List (TreeEntry Oid)} (readable : repo.readTree store id = some found) :
    repo.readTree store' id = some found := by
  induction wrote with
  | refl => exact readable
  | tail _ step ih =>
    obtain ⟨entries, -, rfl⟩ := step
    exact repo.keeps entries _ id found ih

/-- An entry for a directory that was written under an id. -/
def directoryEntry (written : (Bytes × PendingTree Oid) × Oid) : TreeEntry Oid :=
  ⟨.tree, written.1.1, written.2⟩

/-- The store has the tree of a pending tree under an id. -/
inductive Stored (read : Oid → Option (List (TreeEntry Oid))) : PendingTree Oid → Oid → Prop
  | mk {files : List (PendingTreeFile Oid)} {written : List ((Bytes × PendingTree Oid) × Oid)}
      {root : Oid} (below : ∀ directory ∈ written, Stored read directory.1.2 directory.2)
      (found : read root = some ((written.map directoryEntry ++
        files.map PendingTreeFile.entry).insertionSort inOrder)) :
      Stored read (.mk files (written.map Prod.fst)) root

theorem Stored.mono (stored : Stored read tree root)
    (kept : ∀ id found, read id = some found → read' id = some found) :
    Stored read' tree root := by
  induction stored with
  | mk below found ih => exact .mk ih (kept _ _ found)

/-- What a tree holds when it is read recursively: the entries of its trees that are no trees. -/
inductive Reads (read : Oid → Option (List (TreeEntry Oid))) :
    Oid → List Bytes → EntryKind → Oid → Prop
  | here {root : Oid} {entries : List (TreeEntry Oid)} {entry : TreeEntry Oid}
      (found : read root = some entries) (mem : entry ∈ entries) (leaf : entry.mode ≠ .tree) :
      Reads read root [entry.filename] entry.mode entry.oid
  | inside {root : Oid} {entries : List (TreeEntry Oid)} {entry : TreeEntry Oid}
      {path : List Bytes} {kind : EntryKind} {id : Oid} (found : read root = some entries)
      (mem : entry ∈ entries) (tree : entry.mode = .tree)
      (below : Reads read entry.oid path kind id) :
      Reads read root (entry.filename :: path) kind id

/-- An entry of a path, a kind and an id as reading shows it: itself, or, where it stands for a
tree, what that tree holds. -/
def Shows (read : Oid → Option (List (TreeEntry Oid))) (held : List Bytes) (mode : EntryKind)
    (oid : Oid) (path : List Bytes) (kind : EntryKind) (id : Oid) : Prop :=
  if mode = .tree then ∃ below, path = held ++ below ∧ Reads read oid below kind id
  else path = held ∧ kind = mode ∧ id = oid

theorem Shows.of_leaf {held : List Bytes} {mode : EntryKind} {oid : Oid} (leaf : mode ≠ .tree) :
    Shows read held mode oid held mode oid := by
  rw [Shows, if_neg leaf]
  exact ⟨rfl, rfl, rfl⟩

theorem Shows.of_tree {held below : List Bytes} {mode kind : EntryKind} {oid id : Oid}
    (tree : mode = .tree) (reads : Reads read oid below kind id) :
    Shows read held mode oid (held ++ below) kind id := by
  rw [Shows, if_pos tree]
  exact ⟨below, rfl, reads⟩

theorem Shows.cons {held path : List Bytes} {mode kind : EntryKind} {oid id : Oid} {name : Bytes} :
    Shows read (name :: held) mode oid path kind id ↔
      ∃ rest, path = name :: rest ∧ Shows read held mode oid rest kind id := by
  unfold Shows
  split
  · constructor
    · rintro ⟨below, rfl, reads⟩
      exact ⟨held ++ below, rfl, below, rfl, reads⟩
    · rintro ⟨_, rfl, below, rfl, reads⟩
      exact ⟨below, rfl, reads⟩
  · constructor
    · rintro ⟨rfl, same⟩
      exact ⟨held, rfl, rfl, same⟩
    · rintro ⟨_, rfl, rfl, same⟩
      exact ⟨rfl, same⟩

/-- A stored tree reads back as what the pending tree held. -/
theorem Stored.reads_iff (stored : Stored read tree root) {path : List Bytes} {kind : EntryKind}
    {id : Oid} : Reads read root path kind id ↔
      ∃ held mode oid, tree.Holds held mode oid ∧ Shows read held mode oid path kind id := by
  induction stored generalizing path with
  | @mk files written root below found ih =>
    constructor
    · intro reads
      cases reads with
      | @here _ _ entry found' mem leaf =>
        obtain rfl := Option.some.inj (found.symm.trans found')
        obtain mem | mem := List.mem_append.mp ((List.mem_insertionSort _).mp mem)
        · obtain ⟨directory, -, rfl⟩ := List.mem_map.mp mem
          exact absurd rfl leaf
        · obtain ⟨file, among, rfl⟩ := List.mem_map.mp mem
          exact ⟨_, _, _, .file among, Shows.of_leaf leaf⟩
      | @inside _ _ entry rest _ _ found' mem isTree reads =>
        obtain rfl := Option.some.inj (found.symm.trans found')
        obtain mem | mem := List.mem_append.mp ((List.mem_insertionSort _).mp mem)
        · obtain ⟨directory, among, rfl⟩ := List.mem_map.mp mem
          obtain ⟨held, mode, oid, holds, shows_⟩ := (ih directory among).mp reads
          exact ⟨_, _, _, .inside (List.mem_map_of_mem among) holds,
            Shows.cons.mpr ⟨_, rfl, shows_⟩⟩
        · obtain ⟨file, among, rfl⟩ := List.mem_map.mp mem
          exact ⟨_, _, _, .file among, Shows.of_tree isTree reads⟩
    · rintro ⟨held, mode, oid, holds, shows_⟩
      cases holds with
      | @file _ file mem =>
        have listed : file.entry ∈ (written.map directoryEntry ++
            files.map PendingTreeFile.entry).insertionSort inOrder :=
          (List.mem_insertionSort _).mpr (List.mem_append_right _ (List.mem_map_of_mem mem))
        unfold Shows at shows_
        split at shows_
        · next isTree =>
          obtain ⟨rest, rfl, reads⟩ := shows_
          exact .inside found listed isTree reads
        · next leaf =>
          obtain ⟨rfl, rfl, rfl⟩ := shows_
          exact .here found listed leaf
      | @inside _ _ rest _ _ mem holds =>
        obtain ⟨directory, among, rfl⟩ := List.mem_map.mp mem
        obtain ⟨rest, rfl, within⟩ := Shows.cons.mp shows_
        have listed : directoryEntry directory ∈ (written.map directoryEntry ++
            files.map PendingTreeFile.entry).insertionSort inOrder :=
          (List.mem_insertionSort _).mpr (List.mem_append_left _ (List.mem_map_of_mem among))
        exact .inside found listed rfl ((ih directory among).mpr ⟨_, _, _, holds, within⟩)

theorem inOrder_total (first second : TreeEntry Oid) :
    inOrder first second ∨ inOrder second first := List.le_total _ _

theorem inOrder_trans {first second third : TreeEntry Oid} (less : inOrder first second)
    (less' : inOrder second third) : inOrder first third := List.le_trans less less'

instance : Std.Total (inOrder : TreeEntry Oid → TreeEntry Oid → Prop) := ⟨inOrder_total⟩

instance : IsTrans (TreeEntry Oid) inOrder := ⟨fun _ _ _ => inOrder_trans⟩

/-- The tree of a tidy directory. -/
theorem inGitOrder_of_tidy {files : List (PendingTreeFile Oid)}
    {written : List ((Bytes × PendingTree Oid) × Oid)}
    (tidy : (PendingTree.mk files (written.map Prod.fst)).Tidy) :
    InGitOrder ((written.map directoryEntry ++
      files.map PendingTreeFile.entry).insertionSort inOrder) := by
  obtain ⟨unique, sorted, apart, -, -⟩ := tidy
  refine ⟨List.pairwise_insertionSort _ _, ?_⟩
  refine (((List.perm_insertionSort inOrder _).map TreeEntry.filename).nodup_iff).mpr ?_
  have names : (written.map directoryEntry).map TreeEntry.filename =
      (written.map Prod.fst).map Prod.fst := by simp only [List.map_map]; rfl
  have fileNames : (files.map PendingTreeFile.entry).map TreeEntry.filename =
      files.map PendingTreeFile.name := by simp only [List.map_map]; rfl
  rw [List.map_append, names, fileNames]
  refine List.Nodup.append ?_ unique ?_
  · exact List.pairwise_map.mpr
      (sorted.imp fun less same => ne_of_lt less (directoryKey_eq_iff.mpr same))
  · intro name among among'
    obtain ⟨directory, mem, rfl⟩ := List.mem_map.mp among
    obtain ⟨file, mem', same⟩ := List.mem_map.mp among'
    exact apart file mem' directory mem same

/-- Writing an object fails on some tree. -/
def Repository.CanFail (repo : Repository Oid Store) : Prop :=
  ∃ entries store source, (repo.writeObject entries store).1 = .error source

/-- One tree is written. -/
theorem writeSorted_triple {entries : List (TreeEntry Oid)}
    (ordered : InGitOrder (entries.insertionSort inOrder)) (store : Store) :
    Triple (· = store) (repo.writeSorted entries)
      (fun id store' => repo.Wrote store store' ∧
        repo.readTree store' id = some (entries.insertionSort inOrder))
      (fun store' => repo.Wrote store store' ∧ repo.CanFail) := by
  intro start same
  obtain rfl : start = store := same
  have grown : repo.Wrote start (repo.writeObject (entries.insertionSort inOrder) start).2 :=
    .single ⟨_, ordered, rfl⟩
  unfold Repository.writeSorted
  rcases outcome : repo.writeObject (entries.insertionSort inOrder) start with ⟨result, store'⟩
  rw [outcome] at grown
  cases result with
  | ok id =>
    have stored := repo.stores (entries.insertionSort inOrder) start id (by rw [outcome])
    rw [outcome] at stored
    exact ⟨grown, stored⟩
  | error source => exact ⟨grown, _, start, source, by rw [outcome]⟩

variable (repo) in
mutual

/-- Writing a tidy tree stores it, unless the store refuses an object. -/
theorem write_triple : ∀ (tree : PendingTree Oid) (store : Store), tree.Tidy →
    Triple (· = store) (tree.write repo)
      (fun root store' => repo.Wrote store store' ∧ Stored (repo.readTree store') tree root)
      (fun store' => repo.Wrote store store' ∧ repo.CanFail)
  | .mk files directories, store, tidy => by
    have below : ∀ directory ∈ directories, directory.2.Tidy := by
      cases tidy with | mk _ _ _ _ below => exact below
    unfold PendingTree.write
    refine triple_bind (writeDirectories_triple directories store below) fun entries => ?_
    refine triple_each fun store' ⟨wrote, written, made, listed, stored⟩ => ?_
    subst made listed
    refine (writeSorted_triple (inGitOrder_of_tidy tidy) store').weaken ?_ ?_
    · intro id after ⟨wrote', found⟩
      exact ⟨wrote.trans wrote',
        .mk (fun directory mem => (stored directory mem).mono fun _ _ => wrote'.keeps) found⟩
    · intro after ⟨wrote', fails⟩
      exact ⟨wrote.trans wrote', fails⟩

/-- The same of the directories in one, written one after the other. -/
theorem writeDirectories_triple : ∀ (directories : List (Bytes × PendingTree Oid)) (store : Store),
    (∀ directory ∈ directories, directory.2.Tidy) →
    Triple (· = store) (writeDirectories repo directories)
      (fun entries store' => repo.Wrote store store' ∧
        ∃ written : List ((Bytes × PendingTree Oid) × Oid), directories = written.map Prod.fst ∧
          entries = written.map directoryEntry ∧
          ∀ directory ∈ written, Stored (repo.readTree store') directory.1.2 directory.2)
      (fun store' => repo.Wrote store store' ∧ repo.CanFail)
  | [], store, _ => by
    unfold writeDirectories
    refine triple_pure ?_
    rintro _ rfl
    exact ⟨.refl, [], rfl, rfl, by simp⟩
  | (name, directory) :: rest, store, tidy => by
    unfold writeDirectories
    refine triple_bind (write_triple directory store (tidy _ List.mem_cons_self)) fun oid => ?_
    refine triple_each fun store' ⟨wrote, stored⟩ => ?_
    have rest_tidy : ∀ other ∈ rest, other.2.Tidy :=
      fun other mem => tidy other (List.mem_cons_of_mem _ mem)
    refine triple_bind (((writeDirectories_triple rest store' rest_tidy).weaken
      (fun _ _ holds => holds) fun after ⟨wrote', fails⟩ => ⟨wrote.trans wrote', fails⟩)) ?_
    intro entries
    refine triple_pure ?_
    rintro after ⟨wrote', written, rfl, rfl, each⟩
    refine ⟨wrote.trans wrote', ((name, directory), oid) :: written, rfl, rfl, ?_⟩
    exact List.forall_mem_cons.mpr ⟨stored.mono fun _ _ => wrote'.keeps, each⟩

end

end Writing

section Paths

/-- A path from its parts. -/
def joined (names : List Bytes) : Bytes := [slash].intercalate names

theorem parts_of_plain {path : Bytes} (plain : [] ∉ path.splitOn slash) :
    parts path = path.splitOn slash := by
  refine List.filter_eq_self.mpr fun part mem => ?_
  have some_ : part ≠ [] := fun none_ => plain (none_ ▸ mem)
  simpa using some_

/-- A path without a slash at an end or a doubled one is put together from its parts. -/
theorem joined_parts {path : Bytes} (plain : [] ∉ path.splitOn slash) :
    joined (parts path) = path := by
  rw [parts_of_plain plain]
  exact List.intercalate_splitOn slash

end Paths

section Commit

variable {Oid Store : Type}

/-- Reading a root recursively shows the entries of the index, each under its parts, and nothing
else. -/
def FlattensTo (read : Oid → Option (List (TreeEntry Oid))) (root : Oid)
    (index : List (IndexEntry Oid)) : Prop :=
  ∀ path kind id, Reads read root path kind id ↔
    ∃ entry ∈ index, ∃ mode, entry.mode = some mode ∧
      Shows read (parts entry.path) mode entry.id path kind id

/-- What reading shows is what the index says: the same paths, kinds and ids. -/
def FlattensExactly (read : Oid → Option (List (TreeEntry Oid))) (root : Oid)
    (index : List (IndexEntry Oid)) : Prop :=
  ∀ path kind id, (∃ names, Reads read root names kind id ∧ joined names = path) ↔
    ∃ entry ∈ index, entry.path = path ∧ entry.mode = some kind ∧ entry.id = id

variable (repo : Repository Oid Store) (index : List (IndexEntry Oid))

/-- The trees written for an index of paths none of which leads to another read back as that index,
and only trees in git's order are written. An index with an entry that is no tree entry or has an
empty path is refused before anything is written. -/
theorem writeTreeFromIndex_flattens
    (unconflicted : ∀ entry ∈ index, entry.stage = .unconflicted)
    (apart : index.Pairwise fun first second => Apart (parts first.path) (parts second.path))
    (store : Store) :
    ((∀ entry ∈ index, entry.Writable) →
      match writeTreeFromIndex repo index store with
      | (.ok root, store') =>
        repo.Wrote store store' ∧ FlattensTo (repo.readTree store') root index
      | (.error _, store') => repo.Wrote store store' ∧ repo.CanFail) ∧
    ((∃ entry ∈ index, ¬ entry.Writable) →
      ∃ error, writeTreeFromIndex repo index store = (.error error, store)) ∧
    ∀ entry ∈ index, [] ∉ entry.path.splitOn slash → joined (parts entry.path) = entry.path := by
  refine ⟨fun writable => ?_, fun bad => ?_, fun entry _ plain => joined_parts plain⟩
  · obtain ⟨tree, inserted, tidy, holds⟩ := insertEntries_spec tidy_empty unconflicted writable
      apart fun held kind id inside => absurd inside not_holds_empty
    have written := write_triple repo tree store tidy store rfl
    unfold writeTreeFromIndex
    rw [inserted]
    dsimp only
    rcases outcome : tree.write repo store with ⟨error | root, store'⟩
    · rw [outcome] at written
      exact written
    · rw [outcome] at written
      refine ⟨written.1, fun path kind id => ?_⟩
      rw [written.2.reads_iff]
      constructor
      · rintro ⟨held, mode, oid, inside, shows_⟩
        obtain inside | ⟨entry, mem, rfl, isMode, rfl⟩ := (holds held mode oid).mp inside
        · exact absurd inside not_holds_empty
        · exact ⟨entry, mem, mode, isMode, shows_⟩
      · rintro ⟨entry, mem, mode, isMode, shows_⟩
        exact ⟨_, mode, _, (holds _ _ _).mpr (.inr ⟨entry, mem, rfl, isMode, rfl⟩), shows_⟩
  · obtain ⟨error, refused⟩ := insertEntries_refused .empty bad
    refine ⟨error, ?_⟩
    unfold writeTreeFromIndex
    rw [refused]
    rfl

end Commit

/-- A store that gives its objects numbers one after the other. -/
def numbered : Repository Nat (List (List (TreeEntry Nat))) where
  writeObject tree := fun store => (.ok store.length, store ++ [tree])
  readTree store id := store[id]?
  keeps tree store id found readable := by
    obtain ⟨inside, -⟩ := List.getElem?_eq_some_iff.mp readable
    exact (List.getElem?_append_left inside).trans readable
  stores tree store id written := by
    obtain rfl : store.length = id := Except.ok.inj written
    exact List.getElem?_concat_length

/-- The files `a` and `d/b`. -/
def twoFiles : List (IndexEntry Nat) :=
  [⟨[97], .unconflicted, some .blob, 5⟩, ⟨[100, 47, 98], .unconflicted, some .link, 6⟩]

theorem writeTreeFromIndex_flattens_two :
    ∃ root store', writeTreeFromIndex numbered twoFiles [] = (.ok root, store') ∧
      FlattensTo (numbered.readTree store') root twoFiles := by
  have result := (writeTreeFromIndex_flattens numbered twoFiles (by decide) (by decide) []).1
    (by decide)
  exact ⟨_, _, rfl, result.2⟩

/-- The directory `d` of a sparse index, whose tree is the first object. -/
def sparseDirectory : List (IndexEntry Nat) := [⟨[100, 47], .unconflicted, some .tree, 0⟩]

/-- The file `a//b`. -/
def doubledSlash : List (IndexEntry Nat) := [⟨[97, 47, 47, 98], .unconflicted, some .blob, 3⟩]

def PathsApart (index : List (IndexEntry Nat)) : Prop :=
  index.Pairwise fun first second => first.path ≠ second.path ∧
    ¬ first.path ++ [slash] <+: second.path ∧ ¬ second.path ++ [slash] <+: first.path

/-- A sparse directory reads back as what is in it, and a doubled slash is lost. -/
theorem writeTreeFromIndex_sparse :
    (PathsApart sparseDirectory ∧ ∃ root store',
      writeTreeFromIndex numbered sparseDirectory [[⟨.blob, [102], 7⟩]] = (.ok root, store') ∧
        ¬ FlattensExactly (numbered.readTree store') root sparseDirectory) ∧
    PathsApart doubledSlash ∧ ∃ root store',
      writeTreeFromIndex numbered doubledSlash [] = (.ok root, store') ∧
        ¬ FlattensExactly (numbered.readTree store') root doubledSlash := by
  refine ⟨⟨List.pairwise_singleton _ _, 1, [[⟨.blob, [102], 7⟩], [⟨.tree, [100], 0⟩]], rfl, ?_⟩,
    List.pairwise_singleton _ _, 1, [[⟨.blob, [98], 3⟩], [⟨.tree, [97], 0⟩]], rfl, ?_⟩
  · intro exactly
    have file : Reads (numbered.readTree [[⟨.blob, [102], 7⟩], [⟨.tree, [100], 0⟩]]) 0 [[102]]
        .blob 7 :=
      .here rfl (List.mem_singleton_self (⟨.blob, [102], 7⟩ : TreeEntry Nat)) (by decide)
    obtain ⟨entry, mem, -, isBlob, -⟩ := (exactly [100, 47, 102] .blob 7).mp
      ⟨[[100], [102]], .inside rfl (List.mem_singleton_self (⟨.tree, [100], 0⟩ : TreeEntry Nat))
        rfl file, rfl⟩
    obtain rfl := List.mem_singleton.mp mem
    cases isBlob
  · intro exactly
    have file : Reads (numbered.readTree [[⟨.blob, [98], 3⟩], [⟨.tree, [97], 0⟩]]) 0 [[98]]
        .blob 3 :=
      .here rfl (List.mem_singleton_self (⟨.blob, [98], 3⟩ : TreeEntry Nat)) (by decide)
    obtain ⟨entry, mem, same, -⟩ := (exactly [97, 47, 98] .blob 3).mp
      ⟨[[97], [98]], .inside rfl (List.mem_singleton_self (⟨.tree, [97], 0⟩ : TreeEntry Nat))
        rfl file, rfl⟩
    obtain rfl := List.mem_singleton.mp mem
    exact absurd same (by decide)

end Foco.IndexTrees

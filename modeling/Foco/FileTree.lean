import Mathlib.Data.List.Infix
import Mathlib.Data.List.Basic

/-!
File trees without links: what stands at each path, every entry but the root inside a directory.
The operations fail as the ones of an operating system do, and an operation that is cut short
leaves part of its work. Each of them has a frame: the paths below which it changes nothing.
-/
namespace Foco.FileTree

universe u v

inductive Entry (Bytes : Type v) where
  | directory
  | file (bytes : Bytes)
deriving DecidableEq

/-- A path is the list of names from the root. -/
structure Tree (Name : Type u) (Bytes : Type v) where
  entry : List Name → Option (Entry Bytes)
  inDirectory : ∀ path name, (entry (path ++ [name])).isSome = true →
    entry path = some .directory

variable {Name : Type u} {Bytes : Type v}

/-- Whatever stands below a path stands in a directory. -/
theorem Tree.directory_of_below (tree : Tree Name Bytes) {path rest : List Name}
    (ne : rest ≠ []) (below : (tree.entry (path ++ rest)).isSome = true) :
    tree.entry path = some .directory := by
  induction rest using List.reverseRecOn with
  | nil => exact absurd rfl ne
  | append_singleton rest name ih =>
    rw [← List.append_assoc] at below
    have parent := tree.inDirectory (path ++ rest) name below
    cases rest with
    | nil => rwa [List.append_nil] at parent
    | cons first rest => exact ih (List.cons_ne_nil _ _) (by rw [parent]; rfl)

/-- Nothing stands below a path where nothing stands. -/
theorem Tree.entry_eq_none (tree : Tree Name Bytes) {path : List Name}
    (absent : tree.entry path = none) (rest : List Name) : tree.entry (path ++ rest) = none := by
  by_cases ne : rest = []
  · rw [ne, List.append_nil]
    exact absent
  · rw [← Option.not_isSome_iff_eq_none]
    intro below
    cases absent.symm.trans (tree.directory_of_below ne below)

def Entry.isFile : Entry Bytes → Bool
  | .directory => false
  | .file _ => true

namespace Tree

def isDirectory (tree : Tree Name Bytes) (path : List Name) : Bool :=
  (tree.entry path).any fun entry => !entry.isFile

theorem isDirectory_iff {tree : Tree Name Bytes} {path : List Name} :
    tree.isDirectory path = true ↔ tree.entry path = some .directory := by
  unfold isDirectory
  cases tree.entry path with
  | none => simp
  | some entry => cases entry <;> simp [Entry.isFile]

variable [DecidableEq Name]

/-- No file is in the way of a directory at the path. -/
def unobstructed (tree : Tree Name Bytes) (path : List Name) : Bool :=
  path.inits.all fun above => !(tree.entry above).any Entry.isFile

theorem unobstructed_iff {tree : Tree Name Bytes} {path : List Name} :
    tree.unobstructed path = true ↔
      ∀ above, above <+: path → tree.entry above = none ∨ tree.entry above = some .directory := by
  rw [unobstructed, List.all_eq_true]
  refine forall_congr' fun above => ?_
  rw [List.mem_inits]
  refine imp_congr_right fun _ => ?_
  cases tree.entry above with
  | none => simp
  | some entry => cases entry <;> simp [Entry.isFile]

/-- `create_dir_all`. -/
def createDirAll (tree : Tree Name Bytes) (path : List Name) : Option (Tree Name Bytes) :=
  if free : tree.unobstructed path = true then
    some {
      entry := fun other =>
        if other <+: path ∧ tree.entry other = none then some .directory else tree.entry other
      inDirectory := by
        intro above name there
        split at there
        · next made =>
          have shorter := (List.prefix_append above [name]).trans made.1
          split
          · rfl
          · next kept =>
            exact ((unobstructed_iff.mp free above shorter).resolve_left fun none =>
              kept ⟨shorter, none⟩)
        · have parent := tree.inDirectory above name there
          rw [parent]
          split <;> rfl }
  else none

/-- `write`: the parent is a directory and no directory is there. -/
def write (tree : Tree Name Bytes) (path : List Name) (bytes : Bytes) :
    Option (Tree Name Bytes) :=
  if free : path ≠ [] ∧ tree.isDirectory path.dropLast = true ∧
      tree.isDirectory path = false then
    some {
      entry := fun other => if other = path then some (.file bytes) else tree.entry other
      inDirectory := by
        intro above name there
        split at there
        · next same =>
          subst same
          rw [List.dropLast_concat, isDirectory_iff] at free
          rw [if_neg (by simp)]
          exact free.2.1
        · have parent := tree.inDirectory above name there
          split
          · next same =>
            rw [same, ← isDirectory_iff, free.2.2] at parent
            cases parent
          · exact parent }
  else none

/-- What is left when everything at and below a path is removed. -/
def without (tree : Tree Name Bytes) (path : List Name) : Tree Name Bytes where
  entry := fun other => if path <+: other then none else tree.entry other
  inDirectory := by
    intro above name there
    split at there
    · cases there
    · next kept =>
      rw [if_neg fun inside => kept (inside.trans (List.prefix_append above [name]))]
      exact tree.inDirectory above name there

/-- `remove_dir_all`. -/
def removeDirAll (tree : Tree Name Bytes) (path : List Name) : Option (Tree Name Bytes) :=
  if tree.isDirectory path then some (tree.without path) else none

/-- `rename` to a path where nothing stands. -/
def rename (tree : Tree Name Bytes) (source target : List Name) : Option (Tree Name Bytes) :=
  if free : (tree.entry source).isSome = true ∧ (tree.entry target).isNone = true ∧ target ≠ [] ∧
      tree.isDirectory target.dropLast = true ∧ ¬source <+: target then
    some {
      entry := fun other =>
        if target <+: other then tree.entry (source ++ other.drop target.length)
        else if source <+: other then none
        else tree.entry other
      inDirectory := by
        intro above name there
        obtain ⟨-, -, -, parent, apart⟩ := free
        by_cases inside : target <+: above
        · rw [if_pos (inside.trans (List.prefix_append above [name])),
            List.drop_append_of_le_length inside.length_le, ← List.append_assoc] at there
          rw [if_pos inside]
          exact tree.inDirectory _ name there
        · rw [if_neg inside]
          by_cases whole : target = above ++ [name]
          · subst whole
            rw [List.dropLast_concat, isDirectory_iff] at parent
            rw [if_neg fun moved => apart (moved.trans (List.prefix_append above [name]))]
            exact parent
          · have outside : ¬target <+: above ++ [name] := fun inner =>
              (List.prefix_concat_iff.mp inner).elim whole inside
            rw [if_neg outside] at there
            split at there
            · cases there
            · next kept =>
              rw [if_neg fun moved => kept (moved.trans (List.prefix_append above [name]))]
              exact tree.inDirectory above name there }
  else none

end Tree

variable [DecidableEq Name]

/-! ## Operations that may be cut short -/

inductive Operation (Name : Type u) (Bytes : Type v) where
  | createDirAll (path : List Name)
  | write (path : List Name) (bytes : Bytes)
  | removeDirAll (path : List Name)
  | rename (source target : List Name)

/-- How much of its work a failing operation has done: how many of the directories it has made,
what it has written, which paths it has removed. -/
structure Remains (Name : Type u) (Bytes : Type v) where
  made : Nat := 0
  written : Option Bytes := none
  removed : List (List Name) := []

namespace Operation

/-- The whole operation, if it succeeds. -/
def run (tree : Tree Name Bytes) : Operation Name Bytes → Option (Tree Name Bytes)
  | createDirAll path => tree.createDirAll path
  | write path bytes => tree.write path bytes
  | removeDirAll path => tree.removeDirAll path
  | rename source target => tree.rename source target

/-- What a failing operation leaves. -/
def breakOff (tree : Tree Name Bytes) (remains : Remains Name Bytes) :
    Operation Name Bytes → Tree Name Bytes
  | createDirAll path => (tree.createDirAll (path.take remains.made)).getD tree
  | write path _ => (remains.written.bind fun bytes => tree.write path bytes).getD tree
  | removeDirAll path => remains.removed.foldl (fun tree rest => tree.without (path ++ rest)) tree
  | rename _ _ => tree

/-- The operation may change what stands at a path. -/
def touches (path : List Name) : Operation Name Bytes → Bool
  | createDirAll made => path <+: made
  | write written _ => path = written
  | removeDirAll removed => removed <+: path
  | rename source target => source <+: path ∨ target <+: path

end Operation

/-- A tree and how many operations have been tried. -/
structure World (Name : Type u) (Bytes : Type v) where
  tree : Tree Name Bytes
  clock : Nat := 0

/-- One operation fails by itself, the others only where they must. -/
structure Fault (Name : Type u) (Bytes : Type v) where
  time : Nat
  remains : Remains Name Bytes

/-- Tries an operation; whether it has succeeded, and what it leaves. -/
def World.perform (fault : Option (Fault Name Bytes)) (world : World Name Bytes)
    (operation : Operation Name Bytes) : Bool × World Name Bytes :=
  match fault.filter fun fault => fault.time = world.clock with
  | some fault => (false,
      { tree := operation.breakOff world.tree fault.remains, clock := world.clock + 1 })
  | none => match operation.run world.tree with
    | some tree => (true, { tree, clock := world.clock + 1 })
    | none => (false, { world with clock := world.clock + 1 })

section Frames

variable {tree tree' : Tree Name Bytes} {path : List Name}

theorem entry_createDirAll {made : List Name} (done : tree.createDirAll made = some tree')
    (path : List Name) : tree'.entry path =
      if path <+: made ∧ tree.entry path = none then some .directory else tree.entry path := by
  unfold Tree.createDirAll at done
  split at done
  · cases done
    rfl
  · cases done

theorem entry_write {written : List Name} {bytes : Bytes}
    (done : tree.write written bytes = some tree') (path : List Name) :
    tree'.entry path = if path = written then some (.file bytes) else tree.entry path := by
  unfold Tree.write at done
  split at done
  · cases done
    rfl
  · cases done

theorem entry_rename {source target : List Name} (done : tree.rename source target = some tree')
    (path : List Name) : tree'.entry path =
      if target <+: path then tree.entry (source ++ path.drop target.length)
      else if source <+: path then none
      else tree.entry path := by
  unfold Tree.rename at done
  split at done
  · cases done
    rfl
  · cases done

theorem entry_removeDirAll {removed : List Name} (done : tree.removeDirAll removed = some tree')
    (path : List Name) :
    tree'.entry path = if removed <+: path then none else tree.entry path := by
  obtain ⟨-, ⟨⟩⟩ := Option.ite_none_right_eq_some.mp done
  rfl

/-- A successful operation leaves what it does not touch. -/
theorem Operation.run_frame {operation : Operation Name Bytes}
    (done : operation.run tree = some tree') (apart : operation.touches path = false) :
    tree'.entry path = tree.entry path := by
  cases operation with
  | createDirAll made =>
    rw [entry_createDirAll done, if_neg fun inside => of_decide_eq_false apart inside.1]
  | write written bytes =>
    have done : tree.write written bytes = some tree' := done
    rw [entry_write done, if_neg (of_decide_eq_false apart)]
  | removeDirAll removed => rw [entry_removeDirAll done, if_neg (of_decide_eq_false apart)]
  | rename source target =>
    have outside := not_or.mp (of_decide_eq_false apart)
    rw [entry_rename done, if_neg outside.2, if_neg outside.1]

/-- So does one that is cut short. -/
theorem Operation.breakOff_frame {operation : Operation Name Bytes} {remains : Remains Name Bytes}
    (apart : operation.touches path = false) :
    (operation.breakOff tree remains).entry path = tree.entry path := by
  cases operation with
  | createDirAll made =>
    rw [Operation.breakOff]
    cases part : tree.createDirAll (made.take remains.made) with
    | none => rfl
    | some tree' =>
      rw [Option.getD_some, entry_createDirAll part, if_neg]
      exact fun inside => of_decide_eq_false apart (inside.1.trans (List.take_prefix _ _))
  | write written bytes =>
    rw [Operation.breakOff]
    cases part : remains.written.bind fun bytes => tree.write written bytes with
    | none => rfl
    | some tree' =>
      obtain ⟨bytes, -, done⟩ := Option.bind_eq_some_iff.mp part
      rw [Option.getD_some, entry_write done, if_neg (of_decide_eq_false apart)]
  | removeDirAll removed =>
    have outside := of_decide_eq_false apart
    rw [Operation.breakOff]
    generalize remains.removed = parts
    induction parts generalizing tree with
    | nil => rfl
    | cons rest parts ih =>
      rw [List.foldl_cons, ih, Tree.without]
      dsimp only
      rw [if_neg fun inside => outside ((List.prefix_append removed rest).trans inside)]
  | rename source target => rfl

variable {fault : Option (Fault Name Bytes)} {world world' : World Name Bytes}
  {operation : Operation Name Bytes}

/-- Whatever comes of an operation, it leaves what it does not touch. -/
theorem World.perform_frame (apart : operation.touches path = false) :
    (world.perform fault operation).2.tree.entry path = world.tree.entry path := by
  unfold World.perform
  split
  · exact operation.breakOff_frame apart
  · split
    · next done => exact operation.run_frame done apart
    · rfl

theorem World.perform_eq_true (done : (world.perform fault operation).1 = true) :
    operation.run world.tree = some (world.perform fault operation).2.tree := by
  unfold World.perform at done ⊢
  split at done
  · cases done
  · split at done
    · next tree ran => rw [ran]
    · cases done

/-- Without a fault an operation does what it can. -/
theorem World.perform_none {tree : Tree Name Bytes} (ran : operation.run world.tree = some tree) :
    world.perform none operation = (true, { tree, clock := world.clock + 1 }) := by
  rw [World.perform, Option.filter_none]
  dsimp only
  rw [ran]

theorem World.perform_clock :
    (world.perform fault operation).2.clock = world.clock + 1 := by
  unfold World.perform
  split
  · rfl
  · split <;> rfl

/-- What could succeed and has failed has met the fault. -/
theorem World.perform_failed (ran : operation.run world.tree = some tree)
    (failed : (world.perform fault operation).1 = false) :
    ∃ here, fault = some here ∧ here.time = world.clock := by
  unfold World.perform at failed
  split at failed
  · next here met =>
    obtain ⟨same, now⟩ := Option.filter_eq_some_iff.mp met
    exact ⟨here, same, of_decide_eq_true now⟩
  · rw [ran] at failed
    cases failed

/-- After its fault everything that can succeed does. -/
theorem World.perform_later {past : Fault Name Bytes} (later : past.time < world.clock)
    (ran : operation.run world.tree = some tree) :
    world.perform (some past) operation = (true, { tree, clock := world.clock + 1 }) := by
  unfold World.perform
  rw [Option.filter_some_neg (by simpa using Nat.ne_of_lt later)]
  dsimp only
  rw [ran]

/-- A rename that fails changes nothing. -/
theorem World.rename_failed {source target : List Name}
    (failed : (world.perform fault (.rename source target)).1 = false) :
    (world.perform fault (.rename source target)).2.tree = world.tree := by
  unfold World.perform at failed ⊢
  split at failed
  · rfl
  · split at failed
    · cases failed
    · rfl

/-- A rename takes everything along. -/
theorem entry_renamed {source target : List Name} (done : tree.rename source target = some tree')
    (rest : List Name) : tree'.entry (target ++ rest) = tree.entry (source ++ rest) := by
  rw [entry_rename done, if_pos (List.prefix_append target rest), List.drop_left]

theorem rename_isSome {source : List Name} {above : List Name} {name : Name}
    (there : (tree.entry source).isSome = true) (vacant : tree.entry (above ++ [name]) = none)
    (parent : tree.entry above = some .directory) (apart : ¬source <+: above ++ [name]) :
    ∃ tree', tree.rename source (above ++ [name]) = some tree' := by
  unfold Tree.rename
  rw [dif_pos]
  · exact ⟨_, rfl⟩
  · refine ⟨there, by rw [vacant]; rfl, by simp, ?_, apart⟩
    rw [List.dropLast_concat, Tree.isDirectory_iff]
    exact parent

end Frames

end Foco.FileTree

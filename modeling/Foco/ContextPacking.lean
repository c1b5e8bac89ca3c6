import Foco.GreedySelection
import Foco.RustText
import Mathlib.Algebra.Group.Nat.Defs

/-!
Which messages of a context fit into its budget: those that must be kept, and of the others the
newest that still fit.
-/
namespace Foco.ContextPacking
open RustText GreedySelection

structure ContextPackItem where
  id : Text
  estimatedTokens : UInt64
  mustKeep : Bool

structure PackedContext where
  selectedIndices : List Nat
  droppedIds : List Text
  usedMessageTokens : UInt64

inductive ContextPackError where
  | requiredMessagesExceedBudget (requiredTokens availableTokens : UInt64)

/-- `sum::<u64>()`, which wraps. -/
def sumTokens (messages : List ContextPackItem) : UInt64 :=
  messages.foldl (fun sum message => sum + message.estimatedTokens) 0

/-- The pass over the messages that must be kept. -/
def markRequired (selected : List Bool) (entry : ContextPackItem × Nat) : List Bool :=
  if entry.1.mustKeep then selected.set entry.2 true else selected

/-- One message of the pass from the newest. -/
def selectNewest (entry : ContextPackItem × Nat) (state : List Bool × UInt64) :
    List Bool × UInt64 :=
  if state.1.getD entry.2 false then state
  else if entry.1.estimatedTokens ≤ state.2 then
    (state.1.set entry.2 true, state.2 - entry.1.estimatedTokens)
  else state

/-- One message of the last pass. -/
def collect (selected : List Bool) (packed : PackedContext) (entry : ContextPackItem × Nat) :
    PackedContext :=
  if selected.getD entry.2 false then
    { packed with
      selectedIndices := packed.selectedIndices ++ [entry.2]
      usedMessageTokens := packed.usedMessageTokens + entry.1.estimatedTokens }
  else { packed with droppedIds := packed.droppedIds ++ [entry.1.id] }

/-- `pack_context`. -/
def packContext (messages : List ContextPackItem) (availableTokens : UInt64) :
    Except ContextPackError PackedContext :=
  let requiredTokens := sumTokens (messages.filter (·.mustKeep))
  if availableTokens < requiredTokens then
    .error (.requiredMessagesExceedBudget requiredTokens availableTokens)
  else
    let selected := messages.zipIdx.foldl markRequired (List.replicate messages.length false)
    let state := messages.zipIdx.reverse.foldl (fun state entry => selectNewest entry state)
      (selected, availableTokens - requiredTokens)
    .ok (messages.zipIdx.foldl (collect state.1) ⟨[], [], 0⟩)

/-! ## What is packed -/

def tokens (message : ContextPackItem) : Nat := message.estimatedTokens.toNat

/-- The tokens of the messages that must be kept. -/
def requiredTokens (messages : List ContextPackItem) : Nat :=
  weightWhere tokens (fun _ message => message.mustKeep) messages

/-- The tokens of the messages that must be kept and of the selected ones newer than another. -/
def tokensAhead (messages : List ContextPackItem) (selected : List Nat) (index : Nat) : Nat :=
  weightWhere tokens (fun place message =>
    message.mustKeep || (decide (index < place) && decide (place ∈ selected))) messages

/-- The newest messages that fit beside those that must be kept. -/
structure PacksNewest (messages : List ContextPackItem) (available : UInt64)
    (packed : PackedContext) : Prop where
  ordered : packed.selectedIndices.Pairwise (· < ·)
  inside : ∀ index ∈ packed.selectedIndices, index < messages.length
  required : ∀ index message, messages[index]? = some message → message.mustKeep = true →
    index ∈ packed.selectedIndices
  used : packed.usedMessageTokens.toNat =
    weightWhere tokens (fun index _ => decide (index ∈ packed.selectedIndices)) messages
  within : packed.usedMessageTokens ≤ available
  dropped : packed.droppedIds = (messages.zipIdx.filter fun entry =>
    decide (entry.2 ∉ packed.selectedIndices)).map fun entry => entry.1.id
  newest : ∀ index message, messages[index]? = some message → message.mustKeep = false →
    (index ∈ packed.selectedIndices ↔
      tokensAhead messages packed.selectedIndices index + tokens message ≤ available.toNat)
  full : ∀ index message, messages[index]? = some message → index ∉ packed.selectedIndices →
    available.toNat < packed.usedMessageTokens.toNat + tokens message

/-! ## The passes -/

section Passes

variable (before : List Bool) {messages : List ContextPackItem} {n : Nat}

theorem set_append_cons {mark other : Bool} {after : List Bool} (here : before.length = n) :
    (before ++ mark :: after).set n other = before ++ other :: after := by
  subst here
  simp

theorem getD_append_cons {mark : Bool} {after : List Bool} (here : before.length = n) :
    (before ++ mark :: after).getD n false = mark := by
  subst here
  simp

theorem markRequired_all (here : before.length = n) :
    (messages.zipIdx n).foldl markRequired
        (before ++ List.replicate messages.length false) =
      before ++ messages.map (·.mustKeep) := by
  induction messages generalizing before n with
  | nil => rfl
  | cons message messages ih =>
    have first : markRequired (before ++ List.replicate (message :: messages).length false)
        (message, n) = (before ++ [message.mustKeep]) ++ List.replicate messages.length false := by
      rw [List.length_cons, List.replicate_succ, markRequired, set_append_cons before here]
      cases message.mustKeep <;> simp
    rw [List.zipIdx_cons, List.foldl_cons, first,
      ih (before ++ [message.mustKeep]) (by simp [here]), List.append_assoc]
    rfl

/-- One message of the pass from the newest, where the messages behind it were selected before. -/
theorem selectNewest_step (here : before.length = n) (message : ContextPackItem) {room : Nat}
    (small : room < 2 ^ 64) :
    selectNewest (message, n) (before ++ message.mustKeep ::
        (select tokens (·.mustKeep) messages room).1,
      UInt64.ofNat (select tokens (·.mustKeep) messages room).2) =
    (before ++ (select tokens (·.mustKeep) (message :: messages) room).1,
      UInt64.ofNat (select tokens (·.mustKeep) (message :: messages) room).2) := by
  have left := @select_left _ tokens (·.mustKeep) messages room
  generalize behind : select tokens (·.mustKeep) messages room = later at left ⊢
  have bound : later.2 < 2 ^ 64 := by omega
  have value : (UInt64.ofNat later.2).toNat = later.2 := UInt64.toNat_ofNat_of_lt' bound
  have fits : message.estimatedTokens ≤ UInt64.ofNat later.2 ↔ tokens message ≤ later.2 := by
    rw [UInt64.le_iff_toNat_le, value]
    rfl
  rw [selectNewest, getD_append_cons before here, select, behind]
  cases kept : message.mustKeep with
  | true => rfl
  | false =>
    simp only [Bool.false_eq_true, if_false]
    by_cases room : tokens message ≤ later.2
    · rw [if_pos (fits.mpr room), if_pos room, set_append_cons before here]
      congr 1
      rw [← UInt64.toNat_inj, UInt64.toNat_sub_of_le _ _ (fits.mpr room), value,
        UInt64.toNat_ofNat_of_lt' (Nat.lt_of_le_of_lt (Nat.sub_le _ _) bound)]
      rfl
    · rw [if_neg (mt fits.mp room), if_neg room]

/-- The pass from the newest message selects as `select` does. -/
theorem selectNewest_all (here : before.length = n) {room : Nat} (small : room < 2 ^ 64) :
    (messages.zipIdx n).foldr selectNewest
        (before ++ messages.map (·.mustKeep), UInt64.ofNat room) =
      (before ++ (select tokens (·.mustKeep) messages room).1,
        UInt64.ofNat (select tokens (·.mustKeep) messages room).2) := by
  induction messages generalizing before n with
  | nil => rfl
  | cons message messages ih =>
    have split : before ++ (message :: messages).map (·.mustKeep) =
        (before ++ [message.mustKeep]) ++ messages.map (·.mustKeep) := by simp
    rw [List.zipIdx_cons, List.foldr_cons, split,
      ih (before ++ [message.mustKeep]) (by simp [here]), List.append_assoc]
    exact selectNewest_step before here message small

theorem sumTokens_from (sum : UInt64) :
    messages.foldl (fun sum message => sum + message.estimatedTokens) sum =
      sum + sumTokens messages := by
  induction messages generalizing sum with
  | nil => exact (UInt64.add_zero sum).symm
  | cons message messages ih =>
    rw [sumTokens, List.foldl_cons, List.foldl_cons, ih, ih, UInt64.zero_add, UInt64.add_assoc]

@[simp] theorem sumTokens_cons (message : ContextPackItem) :
    sumTokens (message :: messages) = message.estimatedTokens + sumTokens messages := by
  rw [sumTokens, List.foldl_cons, sumTokens_from, UInt64.zero_add]

/-- Where the sum is below `2 ^ 64`, nothing wraps. -/
theorem sumTokens_toNat (small : (messages.map tokens).sum < 2 ^ 64) :
    (sumTokens messages).toNat = (messages.map tokens).sum := by
  induction messages with
  | nil => rfl
  | cons message messages ih =>
    rw [List.map_cons, List.sum_cons] at small ⊢
    rw [sumTokens_cons, UInt64.toNat_add, ih (by omega)]
    exact Nat.mod_eq_of_lt small

/-- The last pass lists what is marked, and what is not. -/
theorem collect_all (selected : List Bool) (entries : List (ContextPackItem × Nat))
    (packed : PackedContext) :
    entries.foldl (collect selected) packed =
      { selectedIndices := packed.selectedIndices ++
          (entries.filter fun entry => selected.getD entry.2 false).map Prod.snd
        droppedIds := packed.droppedIds ++
          (entries.filter fun entry => !selected.getD entry.2 false).map fun entry => entry.1.id
        usedMessageTokens := packed.usedMessageTokens +
          sumTokens ((entries.filter fun entry => selected.getD entry.2 false).map Prod.fst) } := by
  induction entries generalizing packed with
  | nil => simp [sumTokens]
  | cons entry entries ih =>
    rw [List.foldl_cons, ih, collect]
    cases marked : selected.getD entry.2 false with
    | true => simp [-List.getD_eq_getElem?_getD, List.filter_cons, marked, UInt64.add_assoc]
    | false => simp [-List.getD_eq_getElem?_getD, List.filter_cons, marked]

/-- Which messages are packed. -/
theorem packContext_eq (messages : List ContextPackItem) (available : UInt64)
    (room : sumTokens (messages.filter (·.mustKeep)) ≤ available) :
    packContext messages available = .ok (messages.zipIdx.foldl
      (collect (select tokens (·.mustKeep) messages
        (available - sumTokens (messages.filter (·.mustKeep))).toNat).1) ⟨[], [], 0⟩) := by
  have first : messages.zipIdx.foldl markRequired (List.replicate messages.length false) =
      messages.map (·.mustKeep) := markRequired_all [] rfl
  have second := @selectNewest_all [] messages 0 rfl _
    (available - sumTokens (messages.filter (·.mustKeep))).toNat_lt
  rw [UInt64.ofNat_toNat, List.nil_append, List.nil_append] at second
  rw [packContext, if_neg (UInt64.not_lt.mpr room), first]
  dsimp only
  rw [List.foldl_reverse, second]

end Passes

/-! ## The selection -/

section Selection

variable {messages : List ContextPackItem} {marks : List Bool}

/-- What the last pass makes of some marks. -/
def collected (messages : List ContextPackItem) (marks : List Bool) : PackedContext :=
  messages.zipIdx.foldl (collect marks) ⟨[], [], 0⟩

theorem collected_eq : collected messages marks =
    { selectedIndices := (messages.zipIdx.filter fun entry => marks.getD entry.2 false).map Prod.snd
      droppedIds := (messages.zipIdx.filter fun entry =>
        !marks.getD entry.2 false).map fun entry => entry.1.id
      usedMessageTokens := sumTokens
        ((messages.zipIdx.filter fun entry => marks.getD entry.2 false).map Prod.fst) } := by
  rw [collected, collect_all]
  simp only [List.nil_append, UInt64.zero_add]

theorem mem_collected (length : marks.length = messages.length) (index : Nat) :
    index ∈ (collected messages marks).selectedIndices ↔ marks.getD index false = true := by
  rw [collected_eq, List.mem_map]
  constructor
  · rintro ⟨entry, mem, rfl⟩
    exact (List.mem_filter.mp mem).2
  · intro marked
    have inside : index < messages.length := by
      rw [← length]
      refine Nat.lt_of_not_le fun outside => ?_
      rw [List.getD_eq_getElem?_getD, List.getElem?_eq_none outside] at marked
      cases marked
    refine ⟨(messages[index], index), List.mem_filter.mpr ⟨?_, marked⟩, rfl⟩
    exact List.mk_mem_zipIdx_iff_getElem?.mpr (List.getElem?_eq_getElem inside)

theorem decide_mem_collected (length : marks.length = messages.length) (index : Nat) :
    decide (index ∈ (collected messages marks).selectedIndices) = marks.getD index false := by
  rw [Bool.eq_iff_iff, decide_eq_true_iff, mem_collected length]

theorem collected_ordered : (collected messages marks).selectedIndices.Pairwise (· < ·) := by
  rw [collected_eq]
  refine List.Pairwise.sublist (List.filter_sublist.map Prod.snd) ?_
  rw [List.zipIdx_map_snd]
  exact List.pairwise_lt_range'

/-- The tokens that are counted, where they stay below `2 ^ 64`. -/
theorem collected_used (small : (messages.map tokens).sum < 2 ^ 64) :
    (collected messages marks).usedMessageTokens.toNat =
      weightWhere tokens (fun index _ => marks.getD index false) messages := by
  have counted : ((((messages.zipIdx.filter fun entry => marks.getD entry.2 false).map
      Prod.fst).map tokens)).sum =
        weightWhere tokens (fun index _ => marks.getD index false) messages := by
    have places := @weightWhere_zipIdx _ tokens (fun index _ => marks.getD index false) messages 0
    simp only [Nat.zero_add] at places
    rw [List.map_map]
    exact places
  have some_ := weightWhere_le tokens (fun index _ => marks.getD index false) messages
  rw [collected_eq]
  dsimp only
  rw [sumTokens_toNat (by omega), counted]

theorem requiredTokens_eq : requiredTokens messages =
    ((messages.filter (·.mustKeep)).map tokens).sum :=
  weightWhere_filter _

theorem requiredTokens_le : requiredTokens messages ≤ (messages.map tokens).sum :=
  weightWhere_le tokens _ messages

theorem requiredTokens_toNat (small : (messages.map tokens).sum < 2 ^ 64) :
    (sumTokens (messages.filter (·.mustKeep))).toNat = requiredTokens messages := by
  have le : requiredTokens messages ≤ (messages.map tokens).sum := requiredTokens_le
  rw [sumTokens_toNat (by rw [← requiredTokens_eq]; omega), requiredTokens_eq]

/-- The marks of the newest messages that fit into some room. -/
def newestMarks (messages : List ContextPackItem) (room : Nat) : List Bool :=
  (select tokens (·.mustKeep) messages room).1

theorem newestMarks_length {room : Nat} : (newestMarks messages room).length = messages.length :=
  select_length

theorem collected_required {room index : Nat} {message : ContextPackItem}
    (there : messages[index]? = some message) (kept : message.mustKeep = true) :
    index ∈ (collected messages (newestMarks messages room)).selectedIndices :=
  (mem_collected select_length index).mpr (select_required there kept)

/-- What is used are the tokens of the required messages and of those that were selected. -/
theorem weight_newestMarks (messages : List ContextPackItem) (room : Nat) :
    weightWhere tokens (fun index _ => (newestMarks messages room).getD index false) messages =
      requiredTokens messages + weightWhere tokens (fun index message => !message.mustKeep &&
        (newestMarks messages room).getD index false) messages := by
  rw [requiredTokens, ← weightWhere_or]
  refine weightWhere_congr fun index message there => ?_
  cases kept : message.mustKeep with
  | true => exact select_required there kept
  | false => rfl

theorem tokensAhead_newest (messages : List ContextPackItem) (room index : Nat) :
    tokensAhead messages (collected messages (newestMarks messages room)).selectedIndices index =
      requiredTokens messages + weightWhere tokens (fun place message => decide (index < place) &&
        (!message.mustKeep && (newestMarks messages room).getD place false)) messages := by
  rw [tokensAhead, weightWhere_or, requiredTokens]
  congr 1
  refine weightWhere_congr fun place message _ => ?_
  rw [decide_mem_collected newestMarks_length, Bool.and_left_comm]

theorem packsNewest {available : UInt64} (small : (messages.map tokens).sum < 2 ^ 64) {room : Nat}
    (left : requiredTokens messages + room = available.toNat) :
    PacksNewest messages available (collected messages (newestMarks messages room)) := by
  have used := @collected_used messages (newestMarks messages room) small
  have counted := weight_newestMarks messages room
  have remains := @select_left _ tokens (·.mustKeep) messages room
  have within : (collected messages (newestMarks messages room)).usedMessageTokens.toNat ≤
      available.toNat := by
    rw [used, counted]
    unfold newestMarks
    omega
  have newest : ∀ index message, messages[index]? = some message → message.mustKeep = false →
      (index ∈ (collected messages (newestMarks messages room)).selectedIndices ↔
        tokensAhead messages (collected messages (newestMarks messages room)).selectedIndices
          index + tokens message ≤ available.toNat) := by
    intro index message there free
    have taken := @select_iff _ tokens (·.mustKeep) messages room index message there free
    rw [mem_collected newestMarks_length, tokensAhead_newest]
    unfold newestMarks
    rw [taken]
    omega
  refine ⟨collected_ordered, ?_, fun index message => collected_required, ?_, within, ?_, newest,
    ?_⟩
  · intro index mem
    rw [collected_eq, List.mem_map] at mem
    obtain ⟨entry, mem, rfl⟩ := mem
    have there := List.mem_zipIdx_iff_getElem?.mp (List.mem_filter.mp mem).1
    exact (List.getElem?_eq_some_iff.mp there).1
  · simp only [decide_mem_collected newestMarks_length]
    exact used
  · simp only [decide_not, decide_mem_collected newestMarks_length]
    rw [collected_eq]
  · intro index message there dropped
    have free : message.mustKeep = false := by
      rw [Bool.eq_false_iff]
      exact fun kept => dropped (collected_required there kept)
    have over_ := Nat.lt_of_not_le (mt (newest index message there free).mpr dropped)
    have ahead : tokensAhead messages
        (collected messages (newestMarks messages room)).selectedIndices index ≤
          (collected messages (newestMarks messages room)).usedMessageTokens.toNat := by
      rw [used]
      refine weightWhere_mono tokens messages fun place other held chosen => ?_
      obtain kept | later := Bool.or_eq_true_iff.mp chosen
      · exact select_required held kept
      · rw [decide_mem_collected newestMarks_length] at later
        exact (Bool.and_eq_true_iff.mp later).2
    omega

/-- `pack_context` fails exactly where the messages that must be kept exceed the budget, and packs
the newest others that fit. -/
theorem packContext_packs (messages : List ContextPackItem) (available : UInt64)
    (small : (messages.map tokens).sum < 2 ^ 64) :
    ((∃ error, packContext messages available = .error error) ↔
      available.toNat < requiredTokens messages) ∧
    ∀ packed, packContext messages available = .ok packed →
      PacksNewest messages available packed := by
  have required := requiredTokens_toNat small
  by_cases exceeds : available < sumTokens (messages.filter (·.mustKeep))
  · have failed : packContext messages available = .error (.requiredMessagesExceedBudget
        (sumTokens (messages.filter (·.mustKeep))) available) := if_pos exceeds
    rw [failed]
    refine ⟨⟨fun _ => ?_, fun _ => ⟨_, rfl⟩⟩, fun packed same => nomatch same⟩
    rw [← required]
    exact UInt64.lt_iff_toNat_lt.mp exceeds
  · have room := UInt64.not_lt.mp exceeds
    have below := UInt64.le_iff_toNat_le.mp room
    rw [packContext_eq messages available room]
    refine ⟨⟨fun failed => ?_, fun over_ => by omega⟩, ?_⟩
    · obtain ⟨_, failed⟩ := failed
      cases failed
    · intro packed same
      obtain rfl := Except.ok.inj same
      refine packsNewest small ?_
      rw [UInt64.toNat_sub_of_le _ _ room]
      omega

theorem packContext_packs_three :
    PacksNewest [⟨['a'], 3, true⟩, ⟨['b'], 2, false⟩, ⟨['c'], 1, false⟩] 5
      ⟨[0, 2], [['b']], 4⟩ :=
  (packContext_packs [⟨['a'], 3, true⟩, ⟨['b'], 2, false⟩, ⟨['c'], 1, false⟩] 5 (by decide)).2 _
    rfl

end Selection

end Foco.ContextPacking

import Foco.MemoryStore

/-!
`update_fact` on a fact that is there: which accepted updates are carried out. The columns are merged
one by one, but the table ties the chat to the scope.
-/
namespace Foco.FactUpdates
open Foco.RustText Foco.Maps Foco.Result Foco.MemoryStore Relation

/-- Some fact reaches another over `updates` edges. -/
def Reaches (database : MemoryDatabase) : Text → Text → Prop :=
  TransGen (EdgeClosure.Step database.updateEdges)

/-- The rows obey the constraints of their tables. -/
structure Wellformed (database : MemoryDatabase) : Prop where
  facts : ∀ id fact, database.facts.lookup id = some fact → database.factAllowed fact = true
  edges : ∀ id edge, database.edges.lookup id = some edge →
    (database.facts.lookup edge.sourceFactId).isSome = true ∧
      (database.facts.lookup edge.targetFactId).isSome = true

/-- The fields that are given, a chat exactly for the chat scope, and the other fields as before. -/
structure MergedInto (update : UpdateMemoryFact) (before stored : MemoryFact) : Prop where
  scope : stored.scope = update.scope.getD before.scope
  chat : stored.chatId.isSome = true ↔ stored.scope = .chat
  chatGiven : ∀ chatId, update.chatId = some chatId → stored.chatId = some chatId
  chatKept : update.chatId = none → stored.scope = .chat → stored.chatId = before.chatId
  status : stored.status = update.status.getD before.status
  kind : stored.kind = update.kind.getD before.kind
  fact : stored.fact = update.fact.getD before.fact
  confidence : stored.confidence = update.confidence.or before.confidence
  pinned : stored.pinned = update.pinned.getD before.pinned
  enabled : stored.enabled = before.enabled
  isLatest : stored.isLatest = update.isLatest.getD before.isLatest
  expiresAt : stored.expiresAt = update.expiresAt.or before.expiresAt
  metadataJson : stored.metadataJson = update.metadataJson.getD before.metadataJson
  createdAt : stored.createdAt = before.createdAt

/-- The other facts are as before, but for the ones that an activated fact replaces. -/
def OthersKept (update : UpdateMemoryFact) (now : Text) (database database' : MemoryDatabase) :
    Prop :=
  ∀ other, other ≠ update.id →
    database'.facts.lookup other = database.facts.lookup other ∨
      update.status = some .active ∧ Reaches database update.id other ∧
        database'.facts.lookup other = (database.facts.lookup other).map (·.supersede now)

variable {validJson : Text → Bool} {database database' : MemoryDatabase}
  {update : UpdateMemoryFact} {fact : MemoryFact} {now : Text}

/-- The update is carried out, and an error leaves the database as it was. -/
structure CarriedOut (validJson : Text → Bool) (database : MemoryDatabase)
    (update : UpdateMemoryFact) (fact : MemoryFact) (now : Text) : Prop where
  done : ∃ database' stored, database.updateFact validJson update now = .ok (true, database') ∧
    database'.facts.lookup update.id = some stored ∧ MergedInto update fact stored ∧
      OthersKept update now database database' ∧ database'.edges = database.edges
  unchanged : ∀ failed error database',
    attempt failed database (fun database => database.updateFact validJson update now) =
      (.error error, database') →
    database' = database

/-- What the tables ask of the merged fact, and that an activated fact does not replace itself. -/
structure Storable (database : MemoryDatabase) (update : UpdateMemoryFact) (fact : MemoryFact) :
    Prop where
  chat : update.scope.getD fact.scope = .chat ↔ (update.chatId.or fact.chatId).isSome = true
  chatThere : ∀ chatId, update.chatId = some chatId → chatId ∈ database.chats
  text : ∀ text, update.fact = some text → text.head? ≠ some '\x00'
  acyclic : ¬(update.status = some .active ∧ Reaches database update.id update.id)

/-! ## Constraints -/

theorem sqlLength_pos {text : Text} (nonempty : text ≠ []) :
    0 < sqlLength text ↔ text.head? ≠ some '\x00' := by
  obtain ⟨first, rest, rfl⟩ := List.exists_cons_of_ne_nil nonempty
  unfold sqlLength
  by_cases null : first = '\x00'
  · simp [null]
  · simp [null]

theorem scopeAllowed_iff {scope : MemoryScope} {chatId : Option Text}
    (accepted : database.validateScope scope = .ok ()) :
    scopeAllowed database.kind scope chatId = true ↔ (scope = .chat ↔ chatId.isSome = true) := by
  unfold MemoryDatabase.validateScope at accepted
  unfold scopeAllowed
  cases kind : database.kind <;> cases scope <;> cases chatId <;> simp [kind] at accepted ⊢

theorem validateScope_of_allowed {scope : MemoryScope} {chatId : Option Text}
    (allowed : scopeAllowed database.kind scope chatId = true) :
    database.validateScope scope = .ok () := by
  unfold scopeAllowed at allowed
  unfold MemoryDatabase.validateScope
  cases kind : database.kind <;> cases scope <;> simp [kind] at allowed ⊢

theorem factAllowed_iff : database.factAllowed fact = true ↔
    scopeAllowed database.kind fact.scope fact.chatId = true ∧
      (∀ chatId, fact.chatId = some chatId → chatId ∈ database.chats) ∧
      0 < sqlLength fact.fact ∧
      ∀ confidence, fact.confidence = some confidence → MemoryStore.unitInterval confidence = true := by
  unfold MemoryDatabase.factAllowed
  simp only [Bool.and_eq_true, Option.all_eq_true, decide_eq_true_eq, and_assoc]

/-! ## Validation -/

theorem requireNonEmpty_eq_ok {field value : Text} :
    requireNonEmpty field value = .ok () ↔ trim value ≠ [] := by
  unfold requireNonEmpty
  split <;> simp_all

theorem validateGiven_eq_ok {α : Type} {check : α → Checked} {given : Option α} :
    validateGiven check given = .ok () ↔ ∀ value, given = some value → check value = .ok () := by
  cases given <;> simp [validateGiven]

/-- What an accepted update gives. -/
structure Accepted (database : MemoryDatabase) (update : UpdateMemoryFact) : Prop where
  scope : ∀ scope, update.scope = some scope → database.validateScope scope = .ok ()
  text : ∀ text, update.fact = some text → trim text ≠ []
  confidence : ∀ confidence, update.confidence = some confidence → MemoryStore.unitInterval confidence = true

theorem accepted_of_validateUpdate (ok : database.validateUpdate validJson update = .ok ()) :
    Accepted database update := by
  unfold MemoryDatabase.validateUpdate at ok
  obtain ⟨_, fields, ok⟩ := bind_eq_ok.mp ok
  obtain ⟨_, scope, _⟩ := bind_eq_ok.mp ok
  unfold validateFactUpdate at fields
  obtain ⟨_, _, fields⟩ := bind_eq_ok.mp fields
  split at fields
  · contradiction
  obtain ⟨_, _, fields⟩ := bind_eq_ok.mp fields
  obtain ⟨_, text, fields⟩ := bind_eq_ok.mp fields
  obtain ⟨_, confidence, _⟩ := bind_eq_ok.mp fields
  refine ⟨validateGiven_eq_ok.mp scope, fun value given => ?_, fun value given => ?_⟩
  · exact requireNonEmpty_eq_ok.mp (validateGiven_eq_ok.mp text value given)
  · have checked := validateGiven_eq_ok.mp confidence value given
    unfold validateConfidence at checked
    by_contra outside
    rw [if_neg outside] at checked
    contradiction

/-- The merged fact is allowed exactly if chat and scope agree, the chat is there and the text has a
length. -/
theorem factAllowed_merge (accepted : Accepted database update)
    (allowed : database.factAllowed fact = true) :
    database.factAllowed (update.merge fact now) = true ↔
      (update.scope.getD fact.scope = .chat ↔ (update.chatId.or fact.chatId).isSome = true) ∧
        (∀ chatId, update.chatId = some chatId → chatId ∈ database.chats) ∧
        ∀ text, update.fact = some text → text.head? ≠ some '\x00' := by
  obtain ⟨together, chatThere, length, confident⟩ := factAllowed_iff.mp allowed
  have scope : database.validateScope (update.scope.getD fact.scope) = .ok () := by
    cases given : update.scope with
    | none => exact validateScope_of_allowed together
    | some scope => exact accepted.scope scope given
  rw [factAllowed_iff]
  unfold UpdateMemoryFact.merge
  dsimp only
  rw [scopeAllowed_iff scope]
  refine and_congr_right fun _ => and_congr ?_ ?_
  · cases given : update.chatId with
    | none => simpa using chatThere
    | some chatId => simp
  · have confidence : ∀ confidence, update.confidence.or fact.confidence = some confidence →
        MemoryStore.unitInterval confidence = true := by
      cases given : update.confidence with
      | none => simpa using confident
      | some value => simpa using accepted.confidence value given
    cases given : update.fact with
    | none => exact iff_of_true ⟨length, confidence⟩ nofun
    | some text =>
      have visible : text ≠ [] := by
        rintro rfl
        exact accepted.text [] given rfl
      simp only [Option.getD_some, sqlLength_pos visible, Option.some.injEq, forall_eq']
      exact ⟨And.left, fun head => ⟨head, confidence⟩⟩

/-! ## The transaction -/

theorem isSome_of_reaches {source target : Text} (wellformed : Wellformed database)
    (reaches : Reaches database source target) : (database.facts.lookup target).isSome = true := by
  obtain ⟨middle, _, step⟩ := TransGen.tail'_iff.mp reaches
  obtain ⟨⟨id, edge⟩, entry, ends⟩ := List.mem_map.mp step
  obtain rfl : edge.targetFactId = target := congrArg Prod.snd ends
  have member := (List.mem_filter.mp entry).1
  exact (wellformed.edges id edge (Map.mem_entries_iff.mp member)).2

/-- The facts that an update replaces. -/
def replaced (database : MemoryDatabase) (update : UpdateMemoryFact) : List Text :=
  if update.status = some .active then database.updateRelationTargetChain update.id else []

theorem mem_replaced {other : Text} : other ∈ replaced database update ↔
    update.status = some .active ∧ Reaches database update.id other := by
  unfold replaced
  split
  · rename_i activated
    simp only [activated, true_and]
    exact EdgeClosure.mem_closure
  · rename_i otherwise_
    simp [otherwise_]

theorem superseded_nil : Superseded now [] database database :=
  ⟨rfl, rfl, rfl, rfl, rfl, by simp, by simp⟩

/-- An allowed row is written, and what the fact replaces is superseded. -/
theorem updateRow_allowed (wellformed : Wellformed database)
    (row : database.facts.lookup update.id = some fact)
    (allowed : database.factAllowed (update.merge fact now) = true) :
    ∃ database', database.updateRow update now = .ok (true, database') ∧
      Superseded now (replaced database update)
        (database.writeFact update.id (update.merge fact now)) database' := by
  unfold MemoryDatabase.updateRow replaced
  rw [row]
  dsimp only
  rw [if_pos allowed]
  by_cases activated : update.status = some .active
  · rw [if_pos activated, if_pos activated]
    have there : ∀ id ∈ database.updateRelationTargetChain update.id,
        ((database.writeFact update.id (update.merge fact now)).facts.lookup id).isSome = true := by
      intro id member
      rw [lookup_writeFact]
      split
      · rfl
      · exact isSome_of_reaches wellformed (EdgeClosure.mem_closure.mp member)
    obtain ⟨database', done, superseded⟩ := supersedeAll now there
    refine ⟨database', ?_, superseded⟩
    have status : ¬(update.merge fact now).status ≠ .active := by
      unfold UpdateMemoryFact.merge
      rw [activated]
      simp
    unfold MemoryDatabase.applyUpdateRelationEffects
    rw [lookup_writeFact, if_pos rfl]
    dsimp only
    rw [if_neg status]
    change ((database.updateRelationTargetChain update.id).foldlM _ _ >>= _) = _
    rw [done]
    rfl
  · rw [if_neg activated, if_neg activated]
    exact ⟨_, rfl, superseded_nil⟩

theorem updateFact_of_valid (valid : database.validateUpdate validJson update = .ok ()) :
    database.updateFact validJson update now = database.updateRow update now := by
  unfold MemoryDatabase.updateFact
  rw [valid]
  rfl

theorem attempt_error {α : Type} {failed : Bool} {error : MemoryDatabaseError}
    {operation : MemoryDatabase → Except MemoryDatabaseError (α × MemoryDatabase)}
    (outcome : attempt failed database operation = (.error error, database')) :
    database' = database := by
  unfold attempt at outcome
  split at outcome
  · exact (congrArg Prod.snd outcome).symm
  · split at outcome
    · have same := congrArg Prod.fst outcome
      contradiction
    · exact (congrArg Prod.snd outcome).symm

/-- An accepted update of a stored fact is carried out exactly if it is storable. -/
theorem updateFact_carriedOut_iff (wellformed : Wellformed database)
    (row : database.facts.lookup update.id = some fact)
    (valid : database.validateUpdate validJson update = .ok ()) :
    CarriedOut validJson database update fact now ↔ Storable database update fact := by
  have accepted := accepted_of_validateUpdate valid
  have merged : database.factAllowed (update.merge fact now) = true ↔ _ :=
    factAllowed_merge accepted (wellformed.facts _ _ row)
  have run : database.updateFact validJson update now = database.updateRow update now :=
    updateFact_of_valid valid
  constructor
  · rintro ⟨⟨database', stored, done, stored_row, into, _⟩, _⟩
    have allowed : database.factAllowed (update.merge fact now) = true := by
      by_contra refused
      rw [run] at done
      unfold MemoryDatabase.updateRow at done
      rw [row] at done
      dsimp only at done
      rw [if_neg refused] at done
      contradiction
    obtain ⟨together, chatThere, text⟩ := merged.mp allowed
    refine ⟨together, chatThere, text, fun cycle => ?_⟩
    obtain ⟨database'', done', superseded⟩ := updateRow_allowed wellformed row allowed
    rw [run, done'] at done
    obtain rfl : database'' = database' := by simpa using done
    rw [superseded.facts, if_pos (mem_replaced.mpr cycle), lookup_writeFact, if_pos rfl]
      at stored_row
    obtain rfl : (update.merge fact now).supersede now = stored := by simpa using stored_row
    have status := into.status
    rw [cycle.1] at status
    have superseded_status : ((update.merge fact now).supersede now).status = .superseded := by
      unfold MemoryFact.supersede UpdateMemoryFact.merge
      rw [cycle.1]
      rfl
    rw [superseded_status] at status
    contradiction
  · rintro ⟨together, chatThere, text, acyclic⟩
    have allowed := merged.mpr ⟨together, chatThere, text⟩
    obtain ⟨database', done, superseded⟩ := updateRow_allowed wellformed row allowed
    refine ⟨⟨database', update.merge fact now, run.trans done, ?_, ?_, ?_, superseded.edges⟩, ?_⟩
    · rw [superseded.facts, if_neg fun member => acyclic (mem_replaced.mp member),
        lookup_writeFact, if_pos rfl]
    · refine ⟨rfl, together.symm, fun chatId given => ?_, fun none _ => ?_, rfl, rfl, rfl, rfl, rfl,
        rfl, rfl, rfl, rfl, rfl⟩
      · unfold UpdateMemoryFact.merge
        rw [given]
        rfl
      · unfold UpdateMemoryFact.merge
        rw [none]
        rfl
    · intro other apart
      rw [superseded.facts, lookup_writeFact, if_neg apart]
      by_cases member : other ∈ replaced database update
      · obtain ⟨activated, reaches⟩ := mem_replaced.mp member
        exact .inr ⟨activated, reaches, if_pos member⟩
      · exact .inl (if_neg member)
    · exact fun failed error database' => attempt_error

/-! ## A chat fact -/

/-- A fact of a chat. -/
def chatFact : MemoryFact where
  scope := .chat
  chatId := some "chat".toList
  status := .pending
  kind := .userNote
  fact := "likes tea".toList
  confidence := none
  pinned := false
  enabled := true
  isLatest := true
  expiresAt := none
  metadataJson := "{}".toList
  createdAt := []
  updatedAt := []

def oneFact : MemoryDatabase where
  kind := .workspaceDatabase
  chats := ["chat".toList]
  sources := ∅
  facts := AList.insert "fact".toList chatFact ∅
  factSources := []
  edges := ∅
  ftsData := AList.insert "fact".toList (searchRow chatFact) ∅

theorem oneFact_row : oneFact.facts.lookup "fact".toList = some chatFact := rfl

theorem oneFact_wellformed : Wellformed oneFact := by
  constructor
  · intro id fact row
    by_cases same : id = "fact".toList
    · subst id
      obtain rfl : chatFact = fact := Option.some.inj (oneFact_row.symm.trans row)
      decide
    · have absent : oneFact.facts.lookup id = none := by
        unfold oneFact
        rw [Map.lookup_insert_eq_ite, if_neg same]
        rfl
      rw [absent] at row
      contradiction
  · intro id edge row
    contradiction

/-- The fact of a chat is activated. -/
theorem updateFact_carriedOut_iff_activated :
    let update : UpdateMemoryFact := { UpdateMemoryFact.of "fact".toList with status := some .active }
    CarriedOut (fun _ => true) oneFact update chatFact [] ↔ Storable oneFact update chatFact := by
  intro update
  exact updateFact_carriedOut_iff oneFact_wellformed oneFact_row (by decide)

/-- The fact of a chat is not moved to its workspace, although the update is accepted. -/
theorem updateFact_misses :
    let update : UpdateMemoryFact :=
      { UpdateMemoryFact.of "fact".toList with scope := some .workspace }
    Wellformed oneFact ∧ oneFact.facts.lookup update.id = some chatFact ∧
      oneFact.validateUpdate (fun _ => true) update = .ok () ∧
      ¬CarriedOut (fun _ => true) oneFact update chatFact [] := by
  intro update
  refine ⟨oneFact_wellformed, oneFact_row, by decide, ?_⟩
  rintro ⟨⟨database', stored, done, _⟩, _⟩
  have failed : oneFact.updateFact (fun _ => true) update [] = .error .sqlite := rfl
  rw [failed] at done
  contradiction

end Foco.FactUpdates

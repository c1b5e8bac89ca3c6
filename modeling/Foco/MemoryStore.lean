import Foco.EdgeClosure
import Foco.Maps
import Foco.Result
import Foco.RustText
import Mathlib.Data.Rat.Defs

/-!
`store/memory.rs`: the tables of a memory database, their constraints, and the operations on facts.
An operation is one transaction: it leaves the database as it was unless it succeeds.
-/
namespace Foco.MemoryStore
open Foco.RustText Foco.Maps Foco.Result

/-! ## Rows -/

inductive MemoryDatabaseKind where
  | globalDatabase
  | workspaceDatabase

inductive MemoryScope where
  | globalScope
  | workspace
  | chat
deriving DecidableEq

namespace MemoryScope

def asStr : MemoryScope → Text
  | globalScope => "global".toList
  | workspace => "workspace".toList
  | chat => "chat".toList

end MemoryScope

inductive MemoryStatus where
  | pending
  | active
  | superseded
  | expired
  | rejected
deriving DecidableEq

inductive MemoryKind where
  | preference
  | projectFact
  | projectDecision
  | procedure
  | constraint
  | episode
  | userNote
deriving DecidableEq

namespace MemoryKind

def asStr : MemoryKind → Text
  | preference => "preference".toList
  | projectFact => "project_fact".toList
  | projectDecision => "project_decision".toList
  | procedure => "procedure".toList
  | constraint => "constraint".toList
  | episode => "episode".toList
  | userNote => "user_note".toList

end MemoryKind

inductive MemoryRelationKind where
  | updates
  | extends_
  | derives
deriving DecidableEq

inductive MemorySourceType where
  | chatMessage
  | assistantMessage
  | toolCall
  | toolResult
  | contextSnapshot
  | manualNote
  | importedDocument

/-- A row of `memory_sources`. -/
structure MemorySource where
  scope : MemoryScope
  chatId : Option Text
  sourceType : MemorySourceType
  sourceId : Option Text
  title : Text
  content : Text
  metadataJson : Text
  createdAt : Text
  updatedAt : Text

/-- A row of `memory_facts`. -/
structure MemoryFact where
  scope : MemoryScope
  chatId : Option Text
  status : MemoryStatus
  kind : MemoryKind
  fact : Text
  confidence : Option ℚ
  pinned : Bool
  enabled : Bool
  isLatest : Bool
  expiresAt : Option Text
  metadataJson : Text
  createdAt : Text
  updatedAt : Text

/-- A row of `memory_edges`. -/
structure MemoryEdge where
  sourceFactId : Text
  targetFactId : Text
  relation : MemoryRelationKind
  metadataJson : Text
  createdAt : Text

/-- A row of `memory_fts_data`. -/
structure SearchRow where
  scope : MemoryScope
  chatId : Option Text
  status : MemoryStatus
  kind : MemoryKind
  title : Text
  body : Text
  updatedAt : Text

structure MemoryDatabase where
  kind : MemoryDatabaseKind
  /-- The chats of the workspace database. -/
  chats : List Text
  sources : Map Text MemorySource
  facts : Map Text MemoryFact
  factSources : List (Text × Text)
  edges : Map Text MemoryEdge
  ftsData : Map Text SearchRow

inductive MemoryDatabaseError where
  | invalidMemoryInput (message : Text)
  /-- `confidence must be between 0 and 1, got {confidence}`. -/
  | confidenceOutOfRange (confidence : ℚ)
  | invalidMemoryJson (field : Text)
  | sqlite
deriving DecidableEq

/-! ## Constraints -/

/-- `length(..)` of a text: the characters before the first NUL. -/
def sqlLength (text : Text) : Nat := (text.takeWhile (· ≠ '\x00')).length

def unitInterval (confidence : ℚ) : Bool := 0 ≤ confidence ∧ confidence ≤ 1

/-- The check on scope and chat of a table, which depends on the schema. -/
def scopeAllowed (kind : MemoryDatabaseKind) (scope : MemoryScope) (chatId : Option Text) : Bool :=
  match kind with
  | .globalDatabase => scope = .globalScope ∧ chatId = none
  | .workspaceDatabase => scope = .chat ∧ chatId.isSome ∨ scope = .workspace ∧ chatId = none

/-- The checks and the reference to a chat that SQLite makes on a row of `memory_facts`. -/
def MemoryDatabase.factAllowed (database : MemoryDatabase) (fact : MemoryFact) : Bool :=
  scopeAllowed database.kind fact.scope fact.chatId && fact.chatId.all (· ∈ database.chats) &&
    0 < sqlLength fact.fact && fact.confidence.all unitInterval

/-! ## Validation -/

abbrev Checked := Except MemoryDatabaseError Unit

def requireNonEmpty (field value : Text) : Checked :=
  if trim value = [] then
    .error (.invalidMemoryInput (field ++ " must not be empty".toList))
  else .ok ()

def validateScopeChatId (scope : MemoryScope) (chatId : Option Text) : Checked :=
  match scope, chatId with
  | .chat, some chatId => requireNonEmpty "chat_id".toList chatId
  | .chat, none => .error (.invalidMemoryInput "chat memory requires chat_id".toList)
  | _, some _ =>
    .error (.invalidMemoryInput (scope.asStr ++ " memory must not include chat_id".toList))
  | _, none => .ok ()

namespace MemoryDatabase

def validateScope (database : MemoryDatabase) (scope : MemoryScope) : Checked :=
  match database.kind, scope with
  | .globalDatabase, .globalScope => .ok ()
  | .workspaceDatabase, .workspace => .ok ()
  | .workspaceDatabase, .chat => .ok ()
  | .globalDatabase, _ =>
    .error (.invalidMemoryInput ("global memory database only accepts global scope, got '".toList ++
      scope.asStr ++ "'".toList))
  | .workspaceDatabase, .globalScope =>
    .error (.invalidMemoryInput "workspace memory database does not accept global scope".toList)

end MemoryDatabase

def memoryScopeAllowsKind (scope : MemoryScope) (kind : MemoryKind) : Bool :=
  ¬(scope = .globalScope ∧ (kind = .projectFact ∨ kind = .projectDecision))

def ensureMemoryKindScopeAllowed (scope : MemoryScope) (kind : MemoryKind) : Checked :=
  if memoryScopeAllowsKind scope kind then .ok ()
  else .error (.invalidMemoryInput (kind.asStr ++
    " memory kind is not allowed in global scope; use workspace scope".toList))

def validateConfidence (confidence : ℚ) : Checked :=
  if unitInterval confidence then .ok () else .error (.confidenceOutOfRange confidence)

/-- A check of a field that may be left out. -/
def validateGiven {α : Type} (check : α → Checked) : Option α → Checked
  | some value => check value
  | none => .ok ()

section Json

-- whether `serde_json` reads a text
variable (validJson : Text → Bool)

def validateJson (field value : Text) : Checked :=
  if validJson value then .ok () else .error (.invalidMemoryJson field)

structure UpdateMemoryFact where
  id : Text
  scope : Option MemoryScope
  chatId : Option Text
  status : Option MemoryStatus
  kind : Option MemoryKind
  fact : Option Text
  confidence : Option ℚ
  pinned : Option Bool
  isLatest : Option Bool
  expiresAt : Option Text
  metadataJson : Option Text
deriving DecidableEq

/-- `UpdateMemoryFact::default()` with an id. -/
def UpdateMemoryFact.of (id : Text) : UpdateMemoryFact :=
  ⟨id, none, none, none, none, none, none, none, none, none, none⟩

def validateFactUpdate (update : UpdateMemoryFact) : Checked := do
  requireNonEmpty "id".toList update.id
  if update = .of update.id then
    .error (.invalidMemoryInput "fact update must change at least one field".toList)
  else do
    validateGiven (fun scope => validateScopeChatId scope update.chatId) update.scope
    validateGiven (requireNonEmpty "fact".toList) update.fact
    validateGiven validateConfidence update.confidence
    validateGiven (validateJson validJson "metadata_json".toList) update.metadataJson

end Json

/-! ## Facts and their search rows -/

def searchRow (fact : MemoryFact) : SearchRow :=
  { scope := fact.scope, chatId := fact.chatId, status := fact.status, kind := fact.kind,
    title := fact.kind.asStr, body := fact.fact, updatedAt := fact.updatedAt }

namespace MemoryDatabase

/-- A fact is written with its search row. -/
def writeFact (database : MemoryDatabase) (id : Text) (fact : MemoryFact) : MemoryDatabase :=
  { database with
    facts := database.facts.insert id fact
    ftsData := database.ftsData.insert id (searchRow fact) }

/-- The pairs of facts of the `updates` edges. -/
def updateEdges (database : MemoryDatabase) : List (Text × Text) :=
  (database.edges.entries.filter fun entry => entry.2.relation = .updates).map
    fun entry => (entry.2.sourceFactId, entry.2.targetFactId)

/-- `update_relation_target_chain`. The order of the facts has no effect on what is done to them. -/
def updateRelationTargetChain (database : MemoryDatabase) (sourceFactId : Text) : List Text :=
  EdgeClosure.closure database.updateEdges sourceFactId

end MemoryDatabase

def MemoryStatus.supersede : MemoryStatus → MemoryStatus
  | .active | .pending => .superseded
  | status => status

def MemoryFact.supersede (fact : MemoryFact) (now : Text) : MemoryFact :=
  { fact with isLatest := false, status := fact.status.supersede, updatedAt := now }

namespace MemoryDatabase

def supersedeTarget (now : Text) (database : MemoryDatabase) (targetId : Text) :
    Except MemoryDatabaseError MemoryDatabase :=
  match database.facts.lookup targetId with
  | none => .error .sqlite
  | some fact => .ok (database.writeFact targetId (fact.supersede now))

def applyUpdateRelationEffects (database : MemoryDatabase) (sourceFactId now : Text) :
    Except MemoryDatabaseError MemoryDatabase :=
  match database.facts.lookup sourceFactId with
  | none => .error .sqlite
  | some fact =>
    if fact.status ≠ .active then .ok database
    else (database.updateRelationTargetChain sourceFactId).foldlM (supersedeTarget now) database

end MemoryDatabase

/-! ## Updates of a fact -/

/-- The columns after `COALESCE`. -/
def UpdateMemoryFact.merge (update : UpdateMemoryFact) (fact : MemoryFact) (now : Text) :
    MemoryFact where
  scope := update.scope.getD fact.scope
  chatId := update.chatId.or fact.chatId
  status := update.status.getD fact.status
  kind := update.kind.getD fact.kind
  fact := update.fact.getD fact.fact
  confidence := update.confidence.or fact.confidence
  pinned := update.pinned.getD fact.pinned
  enabled := fact.enabled
  isLatest := update.isLatest.getD fact.isLatest
  expiresAt := update.expiresAt.or fact.expiresAt
  metadataJson := update.metadataJson.getD fact.metadataJson
  createdAt := fact.createdAt
  updatedAt := now

namespace MemoryDatabase

/-- The resulting scope and kind, if one of them is given and the fact is there. -/
def ensureUpdatedKindScope (database : MemoryDatabase) (update : UpdateMemoryFact) : Checked :=
  if update.scope.isSome ∨ update.kind.isSome then
    match database.facts.lookup update.id with
    | some current => ensureMemoryKindScopeAllowed (update.scope.getD current.scope)
        (update.kind.getD current.kind)
    | none => .ok ()
  else .ok ()

/-- What `update_fact` checks before its transaction. -/
def validateUpdate (validJson : Text → Bool) (database : MemoryDatabase)
    (update : UpdateMemoryFact) : Checked := do
  validateFactUpdate validJson update
  validateGiven database.validateScope update.scope
  database.ensureUpdatedKindScope update

/-- The transaction of `update_fact`. -/
def updateRow (database : MemoryDatabase) (update : UpdateMemoryFact) (now : Text) :
    Except MemoryDatabaseError (Bool × MemoryDatabase) :=
  match database.facts.lookup update.id with
  | none => .ok (false, database)
  | some fact =>
    if database.factAllowed (update.merge fact now) then do
      let database := database.writeFact update.id (update.merge fact now)
      if update.status = some .active then
        let database ← database.applyUpdateRelationEffects update.id now
        .ok (true, database)
      else .ok (true, database)
    else .error .sqlite

def updateFact (validJson : Text → Bool) (database : MemoryDatabase) (update : UpdateMemoryFact)
    (now : Text) : Except MemoryDatabaseError (Bool × MemoryDatabase) := do
  database.validateUpdate validJson update
  database.updateRow update now

end MemoryDatabase

/-- An operation in its transaction. If a statement of it fails, or the operation itself, the
transaction is rolled back. -/
def attempt {α : Type} (failed : Bool) (database : MemoryDatabase)
    (operation : MemoryDatabase → Except MemoryDatabaseError (α × MemoryDatabase)) :
    Except MemoryDatabaseError α × MemoryDatabase :=
  if failed then (.error .sqlite, database)
  else match operation database with
    | .ok (result, database') => (.ok result, database')
    | .error error => (.error error, database)

/-! ## Supersession -/

/-- What the supersession of some facts does to a database. -/
structure Superseded (now : Text) (ids : List Text) (database database' : MemoryDatabase) :
    Prop where
  kind : database'.kind = database.kind
  chats : database'.chats = database.chats
  sources : database'.sources = database.sources
  factSources : database'.factSources = database.factSources
  edges : database'.edges = database.edges
  facts : ∀ id, database'.facts.lookup id =
    if id ∈ ids then (database.facts.lookup id).map (·.supersede now) else database.facts.lookup id
  ftsData : ∀ id, database'.ftsData.lookup id =
    if id ∈ ids then (database.facts.lookup id).map fun fact => searchRow (fact.supersede now)
    else database.ftsData.lookup id

section Supersession

variable {database : MemoryDatabase} {fact : MemoryFact} {now id : Text} {ids : List Text}

theorem supersede_supersede : (fact.supersede now).supersede now = fact.supersede now := by
  unfold MemoryFact.supersede
  cases fact.status <;> rfl

@[simp] theorem lookup_writeFact (other : Text) : (database.writeFact id fact).facts.lookup other =
    if other = id then some fact else database.facts.lookup other :=
  Map.lookup_insert_eq_ite _

@[simp] theorem lookup_writeFact_ftsData (other : Text) :
    (database.writeFact id fact).ftsData.lookup other =
      if other = id then some (searchRow fact) else database.ftsData.lookup other :=
  Map.lookup_insert_eq_ite _

/-- Facts that are there are superseded, each once or more often. -/
theorem supersedeAll (now : Text) (there : ∀ id ∈ ids, (database.facts.lookup id).isSome = true) :
    ∃ database', ids.foldlM (MemoryDatabase.supersedeTarget now) database = .ok database' ∧
      Superseded now ids database database' := by
  induction ids generalizing database with
  | nil => exact ⟨database, rfl, rfl, rfl, rfl, rfl, rfl, by simp, by simp⟩
  | cons id ids ih =>
    obtain ⟨fact, row⟩ := Option.isSome_iff_exists.mp (there id (by simp))
    have first : database.supersedeTarget now id =
        .ok (database.writeFact id (fact.supersede now)) := by
      unfold MemoryDatabase.supersedeTarget
      rw [row]
    have later : ∀ other ∈ ids,
        ((database.writeFact id (fact.supersede now)).facts.lookup other).isSome = true := by
      intro other member
      rw [lookup_writeFact]
      split
      · rfl
      · exact there other (by simp [member])
    obtain ⟨database', rest, done⟩ := ih later
    refine ⟨database', ?_, done.kind, done.chats, done.sources, done.factSources, done.edges,
      fun other => ?_, fun other => ?_⟩
    · rw [List.foldlM_cons, first]
      exact rest
    · rw [done.facts other, lookup_writeFact]
      by_cases same : other = id
      · subst other
        simp [row, supersede_supersede]
      · simp [same]
    · rw [done.ftsData other, lookup_writeFact, lookup_writeFact_ftsData]
      by_cases same : other = id
      · subst other
        simp [row, supersede_supersede]
      · simp [same]

end Supersession

end Foco.MemoryStore

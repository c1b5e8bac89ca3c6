import Foco.FirstOccurrence
import Foco.Maps
import Foco.Result
import Foco.RustText
import Mathlib.Data.List.Infix

/-!
Names of MCP tools in `mcp/lib.rs`: a server's id and its own name for a tool are joined to one name,
and a call is routed by taking the name apart at the first separator.
-/
namespace Foco.McpToolNames
open Foco.RustText Foco.Result Foco.Maps Foco.FirstOccurrence

inductive McpError where
  | invalidConfig (message : Text)
  | invalidToolName (name : Text)
  | serverNotFound (serverId : Text)
  | serverNotRunning (serverId : Text)
deriving DecidableEq

def mcpToolPrefix : Text := "mcp__".toList

def mcpToolSeparator : Text := "__".toList

theorem mcpToolSeparator_eq : mcpToolSeparator = ['_', '_'] := rfl

/-! ## Validation -/

def validateId (field value : Text) : Except McpError Unit :=
  let trimmed := trim value
  if trimmed = [] then .error (.invalidConfig (field ++ " must not be empty".toList))
  else if trimmed ≠ value ∨ value.any isWhitespace then
    .error (.invalidConfig (field ++ " '".toList ++ value ++ "' must not contain whitespace".toList))
  else if containsText mcpToolSeparator value then
    .error (.invalidConfig (field ++ " '".toList ++ value ++ "' must not contain '__'".toList))
  else .ok ()

def validateToolNamePart (field value : Text) : Except McpError Unit := do
  validateId field value
  if startsWith mcpToolPrefix value then .error (.invalidToolName value) else .ok ()

/-! ## Names -/

def encodeMcpToolName (serverId toolName : Text) : Except McpError Text := do
  validateToolNamePart "server id".toList serverId
  validateToolNamePart "tool name".toList toolName
  return mcpToolPrefix ++ serverId ++ mcpToolSeparator ++ toolName

def decodeMcpToolName (toolName : Text) : Except McpError (Text × Text) := do
  let rest ← (stripPrefix mcpToolPrefix toolName).elim (.error (.invalidToolName toolName)) .ok
  let (serverId, originalName) ←
    (splitOnce mcpToolSeparator rest).elim (.error (.invalidToolName toolName)) .ok
  validateToolNamePart "server id".toList serverId
  validateToolNamePart "tool name".toList originalName
  return (serverId, originalName)

/-! ## Servers -/

structure McpToolDefinition where
  name : Text
  serverId : Text
  originalName : Text

structure McpServerRuntime where
  running : Bool
  tools : List McpToolDefinition

/-- The server and the tool that `execute_tool` calls. -/
def calledTool (servers : Map Text McpServerRuntime) (toolName : Text) :
    Except McpError (Text × Text) := do
  let (serverId, originalName) ← decodeMcpToolName toolName
  match servers.lookup serverId with
  | none => .error (.serverNotFound serverId)
  | some server =>
    if server.running then .ok (serverId, originalName) else .error (.serverNotRunning serverId)

/-! ## Valid parts -/

/-- A part of a name as the validation lets it through. -/
structure Part (value : Text) : Prop where
  filled : value ≠ []
  unspaced : ∀ c ∈ value, isWhitespace c = false
  single : ¬mcpToolSeparator <:+: value

theorem trim_of_unspaced {value : Text} (unspaced : ∀ c ∈ value, isWhitespace c = false) :
    trim value = value := by
  have start : trimStart value = value := by
    cases value with
    | nil => rfl
    | cons c rest =>
      exact List.dropWhile_cons_of_neg (by rw [unspaced c List.mem_cons_self]; decide)
  unfold trim
  rw [start]
  unfold trimEnd
  rw [List.rdropWhile_eq_self_iff]
  intro filled
  rw [unspaced _ (List.getLast_mem filled)]
  decide

theorem validateId_eq_ok {field value : Text} : validateId field value = .ok () ↔ Part value := by
  unfold validateId
  dsimp only
  split
  · rename_i empty
    refine ⟨nofun, fun part => ?_⟩
    exact absurd ((trim_of_unspaced part.unspaced).symm.trans empty) part.filled
  rename_i filled
  split
  · rename_i spaced
    refine ⟨nofun, fun part => ?_⟩
    obtain untrimmed | white := spaced
    · exact absurd (trim_of_unspaced part.unspaced) untrimmed
    · obtain ⟨c, mem, white⟩ := List.any_eq_true.mp white
      rw [part.unspaced c mem] at white
      contradiction
  rename_i clean
  obtain ⟨trimmed, unspaced⟩ := not_or.mp clean
  split
  · rename_i doubled
    exact ⟨nofun, fun part => absurd (containsText_iff.mp doubled) part.single⟩
  · rename_i single
    refine ⟨fun _ => ⟨?_, ?_, fun doubled => single (containsText_iff.mpr doubled)⟩, fun _ => rfl⟩
    · exact fun empty => filled ((not_not.mp trimmed).trans empty)
    · exact fun c mem => Bool.eq_false_iff.mpr fun white =>
        unspaced (List.any_eq_true.mpr ⟨c, mem, white⟩)

/-- A part without a separator does not start with the prefix either. -/
theorem Part.not_starts {value : Text} (part : Part value) : ¬startsWith mcpToolPrefix value := by
  intro starts
  have ends : mcpToolSeparator <:+ mcpToolPrefix := ⟨"mcp".toList, rfl⟩
  exact part.single (ends.isInfix.trans (startsWith_iff.mp starts).isInfix)

theorem validateToolNamePart_eq_ok {field value : Text} :
    validateToolNamePart field value = .ok () ↔ Part value := by
  unfold validateToolNamePart
  rw [bind_eq_ok]
  constructor
  · rintro ⟨_, valid, _⟩
    exact Iff.mp validateId_eq_ok valid
  · intro part
    exact ⟨(), Iff.mpr validateId_eq_ok part, if_neg part.not_starts⟩

theorem encodeMcpToolName_eq_ok {serverId toolName name : Text} :
    encodeMcpToolName serverId toolName = .ok name ↔ Part serverId ∧ Part toolName ∧
      name = mcpToolPrefix ++ serverId ++ mcpToolSeparator ++ toolName := by
  unfold encodeMcpToolName
  rw [bind_eq_ok]
  constructor
  · rintro ⟨_, server, ok⟩
    obtain ⟨_, tool, ok⟩ := bind_eq_ok.mp ok
    exact ⟨validateToolNamePart_eq_ok.mp server, validateToolNamePart_eq_ok.mp tool,
      (Except.ok.inj ok).symm⟩
  · rintro ⟨server, tool, rfl⟩
    exact ⟨(), validateToolNamePart_eq_ok.mpr server,
      bind_eq_ok.mpr ⟨(), validateToolNamePart_eq_ok.mpr tool, rfl⟩⟩

theorem decodeMcpToolName_eq_ok {rest serverId toolName : Text} :
    decodeMcpToolName (mcpToolPrefix ++ rest) = .ok (serverId, toolName) ↔
      splitOnce mcpToolSeparator rest = some (serverId, toolName) ∧ Part serverId ∧
        Part toolName := by
  unfold decodeMcpToolName
  rw [stripPrefix_eq_some_iff.mpr rfl, bind_eq_ok]
  constructor
  · rintro ⟨rest', same, ok⟩
    obtain rfl : rest = rest' := Except.ok.inj same
    obtain ⟨⟨serverId', toolName'⟩, split, ok⟩ := bind_eq_ok.mp ok
    obtain ⟨_, server, ok⟩ := bind_eq_ok.mp ok
    obtain ⟨_, tool, ok⟩ := bind_eq_ok.mp ok
    obtain ⟨rfl, rfl⟩ := Prod.mk.inj (Except.ok.inj ok)
    exact ⟨elim_eq_ok.mp split, validateToolNamePart_eq_ok.mp server,
      validateToolNamePart_eq_ok.mp tool⟩
  · rintro ⟨split, server, tool⟩
    refine ⟨rest, rfl, bind_eq_ok.mpr ⟨_, elim_eq_ok.mpr split, ?_⟩⟩
    exact bind_eq_ok.mpr ⟨(), validateToolNamePart_eq_ok.mpr server,
      bind_eq_ok.mpr ⟨(), validateToolNamePart_eq_ok.mpr tool, rfl⟩⟩

/-! ## The first separator -/

/-- Before the separator there is no other one, also none that shares a character with it. -/
theorem splitOnce_separated {before : Text} (single : ¬mcpToolSeparator <:+: before)
    (ends : before.getLast? ≠ some '_') (after : Text) :
    splitOnce mcpToolSeparator (before ++ '_' :: '_' :: after) = some (before, after) := by
  refine splitOnce_eq_some_iff.mpr ⟨rfl, ?_⟩
  intro front back same filled
  refine decide_eq_false fun starts => ?_
  obtain ⟨c, rest, rfl⟩ := List.exists_cons_of_ne_nil filled
  have doubled : ['_', '_'] <+: c :: (rest ++ ('_' :: '_' :: after)) := starts
  obtain ⟨first, starts⟩ := List.cons_prefix_cons.mp doubled
  cases rest with
  | nil => exact ends (by rw [same, ← first, List.getLast?_concat])
  | cons d rest =>
    obtain ⟨second, _⟩ := List.cons_prefix_cons.mp starts
    refine single ⟨front, rest, ?_⟩
    rw [same, ← first, ← second]
    simp [mcpToolSeparator_eq]

/-- A part that ends with an underscore loses it. -/
theorem splitOnce_shifted {before : Text} (single : ¬mcpToolSeparator <:+: before ++ ['_'])
    (after : Text) :
    splitOnce mcpToolSeparator (before ++ ['_'] ++ '_' :: '_' :: after) =
      some (before, '_' :: after) := by
  have ends : before.getLast? ≠ some '_' := by
    intro last
    obtain ⟨front, rfl⟩ := List.getLast?_eq_some_iff.mp last
    exact single ⟨front, [], by simp [mcpToolSeparator_eq]⟩
  have split := splitOnce_separated
    (fun doubled => single (doubled.trans (List.prefix_append before ['_']).isInfix)) ends
    ('_' :: after)
  rwa [List.append_assoc]

/-- A separator at the end of a text and an underscore behind it. -/
theorem doubled_append_underscore {value : Text} (doubled : mcpToolSeparator <:+: value ++ ['_']) :
    mcpToolSeparator <:+: value ∨ value.getLast? = some '_' := by
  obtain ⟨front, back, same⟩ := doubled
  cases back using List.reverseRecOn with
  | nil =>
    have split : front ++ ['_'] ++ ['_'] = value ++ ['_'] := by
      rw [← same]
      simp [mcpToolSeparator_eq]
    rw [← List.append_cancel_right split]
    exact .inr List.getLast?_concat
  | append_singleton back last =>
    rw [← List.append_assoc] at same
    exact .inl ⟨front, back, (List.append_inj' same rfl).1⟩

/-- An underscore may stand behind a part that does not end with one. -/
theorem Part.append_underscore {value : Text} (part : Part value)
    (ends : value.getLast? ≠ some '_') : Part (value ++ ['_']) where
  filled := List.append_ne_nil_of_right_ne_nil _ (List.cons_ne_nil _ _)
  unspaced c mem := by
    obtain mem | mem := List.mem_append.mp mem
    · exact part.unspaced c mem
    · rw [List.mem_singleton.mp mem]
      decide
  single doubled := (doubled_append_underscore doubled).elim part.single ends

theorem Part.tail {c : Char} {rest : Text} (part : Part (c :: rest)) (filled : rest ≠ []) :
    Part rest where
  filled := filled
  unspaced d mem := part.unspaced d (List.mem_cons_of_mem _ mem)
  single doubled := part.single (doubled.trans (List.suffix_cons c rest).isInfix)

/-! ## Round trip -/

/-- A name leads back to the server and the tool that it was made for, and to no others. -/
structure Faithful (serverId toolName name : Text) : Prop where
  decodes : decodeMcpToolName name = .ok (serverId, toolName)
  called : ∀ (servers : Map Text McpServerRuntime) server, servers.lookup serverId = some server →
    server.running = true → calledTool servers name = .ok (serverId, toolName)
  alone : ∀ serverId' toolName', encodeMcpToolName serverId' toolName' = .ok name →
    serverId' = serverId ∧ toolName' = toolName

/-- Two tools of two servers under one name. -/
theorem encoded_collision :
    encodeMcpToolName ['a', '_'] ['b'] = .ok "mcp__a___b".toList ∧
      encodeMcpToolName ['a'] ['_', 'b'] = .ok "mcp__a___b".toList ∧
      decodeMcpToolName "mcp__a___b".toList = .ok (['a'], ['_', 'b']) := by
  decide

/-- A name is faithful unless an underscore of the server's id or of the tool's name touches the
separator. -/
theorem encoded_faithful_iff {serverId toolName name : Text}
    (encoded : encodeMcpToolName serverId toolName = .ok name) :
    Faithful serverId toolName name ↔
      serverId.getLast? ≠ some '_' ∧ ¬∃ rest, rest ≠ [] ∧ toolName = '_' :: rest := by
  obtain ⟨server, tool, rfl⟩ := encodeMcpToolName_eq_ok.mp encoded
  have name_eq (serverId toolName : Text) :
      mcpToolPrefix ++ serverId ++ mcpToolSeparator ++ toolName =
        mcpToolPrefix ++ (serverId ++ '_' :: '_' :: toolName) := by
    simp [mcpToolSeparator_eq]
  rw [name_eq] at encoded ⊢
  constructor
  · intro faithful
    have split := (decodeMcpToolName_eq_ok.mp faithful.decodes).1
    have ends : serverId.getLast? ≠ some '_' := by
      intro last
      obtain ⟨front, rfl⟩ := List.getLast?_eq_some_iff.mp last
      rw [splitOnce_shifted server.single] at split
      have same := (Prod.mk.inj (Option.some.inj split)).1
      exact absurd (congrArg List.length same) (by simp)
    refine ⟨ends, ?_⟩
    rintro ⟨rest, filled, rfl⟩
    -- The underscore may as well be the last character of the server's id.
    have other : encodeMcpToolName (serverId ++ ['_']) rest =
        .ok (mcpToolPrefix ++ (serverId ++ '_' :: '_' :: '_' :: rest)) := by
      refine encodeMcpToolName_eq_ok.mpr ⟨server.append_underscore ends, tool.tail filled, ?_⟩
      rw [name_eq, List.append_assoc]
      rfl
    have same := (faithful.alone _ _ other).1
    exact absurd (congrArg List.length same) (by simp)
  · rintro ⟨ends, starts⟩
    have split := splitOnce_separated server.single ends toolName
    have decodes : decodeMcpToolName (mcpToolPrefix ++ (serverId ++ '_' :: '_' :: toolName)) =
        .ok (serverId, toolName) := decodeMcpToolName_eq_ok.mpr ⟨split, server, tool⟩
    refine ⟨decodes, fun servers runtime found running => ?_, fun serverId' toolName' other => ?_⟩
    · unfold calledTool
      rw [decodes]
      change (match servers.lookup serverId with
        | none => Except.error (McpError.serverNotFound serverId)
        | some server =>
          if server.running then .ok (serverId, toolName)
          else .error (.serverNotRunning serverId)) = _
      rw [found]
      exact if_pos running
    · obtain ⟨server', tool', same⟩ := encodeMcpToolName_eq_ok.mp other
      rw [name_eq] at same
      have rest_eq := List.append_cancel_left same
      by_cases ends' : serverId'.getLast? = some '_'
      · obtain ⟨front, rfl⟩ := List.getLast?_eq_some_iff.mp ends'
        rw [rest_eq, splitOnce_shifted server'.single] at split
        have shifted := (Prod.mk.inj (Option.some.inj split)).2
        exact absurd ⟨toolName', tool'.filled, shifted.symm⟩ starts
      · rw [rest_eq, splitOnce_separated server'.single ends'] at split
        exact Prod.mk.inj (Option.some.inj split)

theorem encoded_faithful_example :
    Faithful ['a'] ['b'] "mcp__a__b".toList ↔
      ['a'].getLast? ≠ some '_' ∧ ¬∃ rest, rest ≠ [] ∧ ['b'] = '_' :: rest :=
  encoded_faithful_iff (by decide)

end Foco.McpToolNames

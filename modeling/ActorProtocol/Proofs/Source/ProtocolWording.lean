import ActorProtocol.Proofs.Source.Wording

/-!
# The words of protocols

Every line of a protocol is worded by the outline of what it describes. Only the labels
of directions look back, at the message before, and a message without a label is worded
as any other.
-/

namespace ActorProtocol

set_option autoImplicit false

theorem Semantics.isWord_name (semantics : Semantics) : IsWord semantics.name := by
  cases semantics <;> simp [name, IsWord, IsPlain, separators, marks]

theorem Trigger.isWord_name (trigger : Trigger) : IsWord trigger.name := by
  cases trigger <;> simp [name, IsWord, IsPlain, separators, marks]

theorem Side.isWord_name (side : Side) : IsWord side.name := by
  cases side <;> simp [name, IsWord, IsPlain, separators, marks]

theorem Direction.isWord_label (direction : Direction) : IsWord direction.label := by
  cases direction <;> simp [label, IsWord, IsPlain, separators, marks]

/-- What is written of results, by whether a reply is waited for. -/
def resultsWording (hasReply : Bool) (results : List MemberOutline) : List String :=
  if hasReply || !results.isEmpty then "returns" :: "(" :: (paramsWording results ++ [")", ";"])
  else [";"]

def MessageOutline.wording (message : MessageOutline) : List String :=
  message.semantics.name :: message.name :: "(" ::
    (paramsWording message.inParams ++
      ")" :: resultsWording message.semantics.hasReply message.outParams)

theorem Message.words_line {message : Message} (named : message.outline.WellNamed) :
    words (indented message.source) = message.outline.wording := by
  have name : Writes message.name [message.name] := named.name.isWord.writes
  have inParams : Writes (Member.sourceList message.inParams)
      (paramsWording (message.inParams.map Member.outline)) :=
    Member.writes_sourceList named.inParams
  have outParams : Writes (Member.sourceList message.outParams)
      (paramsWording (message.outParams.map Member.outline)) :=
    Member.writes_sourceList named.outParams
  have semantics := message.semantics.isWord_name.writes
  have returns : (message.hasReply || !message.outParams.isEmpty) =
      (message.outline.semantics.hasReply || !message.outline.outParams.isEmpty) := by
    simp [outline, hasReply]
  unfold source MessageOutline.wording resultsWording
  rw [returns]
  split
  · simp [words, indented, wordsAfter, marks, putWord, separators, semantics.follow, name.follow,
      inParams.follow, outParams.follow, outline]
  · simp [words, indented, wordsAfter, marks, putWord, separators, semantics.follow, name.follow,
      inParams.follow, outline]

def labelWording (previous : Option Direction) (direction : Direction) : List String :=
  if previous = some direction then [] else [direction.label]

/-- Messages after one of the given direction, if any came before. -/
def messagesWording (previous : Option Direction) : List MessageOutline → List String
  | [] => []
  | message :: rest =>
      labelWording previous message.direction ++
        (message.wording ++ messagesWording (some message.direction) rest)

theorem flatMap_words_messageLines {messages : List Message} (previous : Option Direction)
    (named : ∀ message ∈ messages.map Message.outline, message.WellNamed) :
    (Protocol.messageLines previous messages).flatMap words =
      messagesWording previous (messages.map Message.outline) := by
  induction messages generalizing previous with
  | nil => rfl
  | cons message rest ih =>
      have label : words message.direction.label = [message.direction.label] :=
        message.direction.isWord_label.writes.alone
      have line := Message.words_line (named message.outline List.mem_cons_self)
      have others := ih (some message.direction) fun one member =>
        named one (List.mem_cons_of_mem _ member)
      have direction : message.outline.direction = message.direction := rfl
      rw [Protocol.messageLines, List.map_cons, messagesWording, labelWording, direction]
      by_cases unlabelled : previous = some message.direction
      · simp [unlabelled, line, others]
      · simp [unlabelled, line, others, label]

namespace ActionOutline

def source (action : ActionOutline) : String :=
  action.trigger.name ++ " " ++ action.message ++ " goto " ++
    " or ".intercalate action.destinations ++ ";"

def wording (action : ActionOutline) : List String :=
  action.trigger.name :: action.message :: "goto" ::
    (separated "or" (action.destinations.map fun destination => [destination]) ++ [";"])

theorem words_line {action : ActionOutline} (named : action.WellNamed) :
    words (indented action.source) = action.wording := by
  have message := named.message.isWord.writes
  have destinations : Writes (" or ".intercalate (action.destinations.map id))
      (separated "or" (action.destinations.map fun destination => [destination])) := by
    apply writes_intercalate
    · simp [separators, marks]
    · simp [wordsAfter, marks, putWord]
    · intro destination listed
      exact (named.destinations destination listed).isWord.writes
  have trigger := action.trigger.isWord_name.writes
  rw [List.map_id] at destinations
  simp [source, words, indented, wordsAfter, marks, putWord, separators, trigger.follow,
    message.follow, destinations.follow, wording, -String.toList_intercalate]

end ActionOutline

/-- A transition is written out as its outline says, if it has one. -/
theorem Transition.source?_eq (transition : Transition) :
    transition.source? = transition.outline?.map ActionOutline.source := by
  simp [source?, outline?, Function.comp_def, ActionOutline.source]

theorem Statement.filterMap_source? (statement : Statement) :
    statement.transitions.filterMap Transition.source? =
      statement.outline.actions.map ActionOutline.source := by
  unfold outline
  rw [List.map_filterMap]
  apply List.filterMap_congr
  intro transition _
  exact transition.source?_eq

def StatementOutline.wording (statement : StatementOutline) : List String :=
  (if statement.start then ["start", "state"] else ["state"]) ++
    (statement.source ++ ":") :: statement.actions.flatMap ActionOutline.wording

theorem Protocol.flatMap_words_statementLines {statement : Statement}
    (named : statement.outline.WellNamed) :
    (statementLines statement).flatMap words = statement.outline.wording := by
  have source : Writes (statement.state.name ++ ":") [statement.state.name ++ ":"] := by
    apply IsWord.writes
    apply named.source.isWord.append
    simp [IsPlain, separators, marks]
  have header : words ((if statement.state.start then "start state " else "state ") ++
      statement.state.name ++ ":") =
        (if statement.outline.start then ["start", "state"] else ["state"]) ++
          [statement.state.name ++ ":"] := by
    have last : wordsAfter [] (statement.state.name.toList ++ [':']) =
        [statement.state.name ++ ":"] := by
      simpa using source.alone
    have start : statement.outline.start = statement.state.start := rfl
    rw [start]
    cases statement.state.start <;> simp [words, wordsAfter, marks, putWord, last]
  have lines : statement.outline.actions.flatMap (fun action => words (indented action.source)) =
      statement.outline.actions.flatMap ActionOutline.wording := by
    apply List.flatMap_congr
    intro action listed
    exact ActionOutline.words_line (named.actions action listed)
  unfold statementLines StatementOutline.wording
  rw [List.flatMap_cons, header, statement.filterMap_source?, List.flatMap_map, List.flatMap_map,
    lines, List.append_assoc]
  rfl

def SpawnsOutline.wording (spawns : SpawnsOutline) : List String :=
  [spawns.side.name, "spawns", spawns.protocol, "as", spawns.spawnedAs.name, ";"]

def BridgesOutline.wording (bridges : BridgesOutline) : List String :=
  ["bridges", bridges.parent, ",", bridges.child, ";"]

def managerWording (manager : String) : List String :=
  ["manager", manager, ";"]

def managesWording (managed : String) : List String :=
  ["manages", managed, ";"]

theorem Spawns.words_line {spawns : Spawns} (named : IsName spawns.protocol) :
    words (indented (spawns.side.name ++ " spawns " ++ spawns.protocol ++ " as " ++
      spawns.spawnedAs.name ++ ";")) = spawns.outline.wording := by
  have side := spawns.side.isWord_name.writes
  have protocol := named.isWord.writes
  have spawnedAs := spawns.spawnedAs.isWord_name.writes
  simp [words, indented, wordsAfter, marks, putWord, separators, side.follow, protocol.follow,
    spawnedAs.follow, outline, SpawnsOutline.wording]

theorem Bridges.words_line {bridges : Bridges}
    (named : IsName bridges.parent.name ∧ IsName bridges.child.name) :
    words (indented ("bridges " ++ bridges.parent.name ++ ", " ++ bridges.child.name ++ ";")) =
      bridges.outline.wording := by
  have parent := named.1.isWord.writes
  have child := named.2.isWord.writes
  simp [words, indented, wordsAfter, marks, putWord, separators, parent.follow, child.follow,
    outline, BridgesOutline.wording]

theorem words_manager {manager : String} (named : IsName manager) :
    words (indented ("manager " ++ manager ++ ";")) = managerWording manager := by
  simp [words, indented, wordsAfter, marks, putWord, separators, named.isWord.writes.follow,
    managerWording]

theorem words_manages {managed : String} (named : IsName managed) :
    words (indented ("manages " ++ managed ++ ";")) = managesWording managed := by
  simp [words, indented, wordsAfter, marks, putWord, separators, named.isWord.writes.follow,
    managesWording]

namespace ProtocolOutline

def semanticsWording : Semantics → List String
  | .async => ["protocol"]
  | semantics => [semantics.name, "protocol"]

def relationsWording (protocol : ProtocolOutline) : List String :=
  protocol.spawns.flatMap SpawnsOutline.wording ++
    (protocol.bridges.flatMap BridgesOutline.wording ++
      (protocol.managers.flatMap managerWording ++ protocol.manages.flatMap managesWording))

/-- The words of a protocol but for its namespaces. -/
def wording (protocol : ProtocolOutline) : List String :=
  semanticsWording protocol.semantics ++ protocol.name :: openBrace ::
    (protocol.relationsWording ++ (messagesWording none protocol.messages ++
      (protocol.statements.flatMap StatementOutline.wording ++ [closeBrace, ";"])))

end ProtocolOutline

namespace Protocol

variable {protocol : Protocol}

theorem flatMap_words_relationLines (named : protocol.outline.WellNamed) :
    protocol.relationLines.flatMap words = protocol.outline.relationsWording := by
  have spawns := flatMap_eq_wording named.spawns fun spawns fits => Spawns.words_line fits
  have bridges := flatMap_eq_wording named.bridges fun bridges fits => Bridges.words_line fits
  have managers := flatMap_eq_wording named.managers fun manager fits => words_manager fits
  have manages := flatMap_eq_wording named.manages fun managed fits => words_manages fits
  simp only [relationLines, ProtocolOutline.relationsWording, outline, List.flatMap_append,
    List.flatMap_map, spawns, bridges, managers, manages, List.append_assoc]

theorem flatMap_words_sourceLines (named : protocol.outline.WellNamed) :
    protocol.sourceLines.flatMap words =
      opening protocol.outline.namespaces ++ protocol.outline.wording ++
        closing protocol.outline.namespaces := by
  have name : Writes protocol.name [protocol.name] := named.name.isWord.writes
  have header : words ((match protocol.semantics with
      | .async => "protocol "
      | semantics => semantics.name ++ " protocol ") ++ protocol.name) =
        ProtocolOutline.semanticsWording protocol.semantics ++ [protocol.name] := by
    cases protocol.semantics <;>
      simp [words, wordsAfter, marks, putWord, name.alone, Semantics.name,
        ProtocolOutline.semanticsWording]
  have begins : words openBrace = [openBrace] := by
    simp [words, wordsAfter, marks, putWord, openBrace]
  have statements : protocol.statements.flatMap (fun statement =>
      (statementLines statement).flatMap words) =
        (protocol.statements.map Statement.outline).flatMap StatementOutline.wording :=
    flatMap_eq_wording named.statements fun statement fits => flatMap_words_statementLines fits
  have messages := flatMap_words_messageLines none named.messages
  have relations := flatMap_words_relationLines named
  unfold sourceLines
  rw [flatMap_words_withinNamespaces named.namespaces]
  simp only [List.flatMap_append, List.flatMap_cons, List.flatMap_nil, List.flatMap_assoc,
    flatMap_words_sections, begins, words_blockEnd, relations, messages, statements,
    List.append_assoc]
  apply congrArg (opening (protocol.namespaces.map Ident.name) ++ ·)
  apply (congrArg (· ++ _) header).trans
  simp only [ProtocolOutline.wording, List.append_assoc, List.cons_append, List.nil_append]
  rfl

end Protocol

end ActorProtocol

import ActorProtocol.Proofs.Source.Legibility

/-!
# Protocols that can be read back

The sections of a protocol follow one another in a fixed order, and the first word of an
item tells its section, so a section ends at the first word of a later one. A label is
written for the first message and wherever the direction changes, so a message without
one has the direction of the message before.
-/

namespace ActorProtocol

set_option autoImplicit false

/-- The words that may come after the messages of a protocol. -/
def afterMessages : List String := ["state", "start", closeBrace]

def afterManages : List String := "parent:" :: "child:" :: "both:" :: afterMessages

def afterManagers : List String := "manages" :: afterManages

def afterBridges : List String := "manager" :: afterManagers

def afterSpawns : List String := "bridges" :: afterBridges

theorem Direction.label_ne_name (direction : Direction) (semantics : Semantics) :
    direction.label ≠ semantics.name := by
  cases direction <;> cases semantics <;> decide

theorem Direction.label_mem (direction : Direction) :
    direction.label ∈ afterManages ∧ direction.label ∉ afterMessages := by
  cases direction <;> decide

theorem Semantics.name_not_mem (semantics : Semantics) : semantics.name ∉ afterMessages := by
  cases semantics <;> decide

theorem Trigger.name_not_mem (trigger : Trigger) : trigger.name ∉ afterMessages := by
  cases trigger <;> decide

/-- After the same direction a label is written for one direction or for none. -/
theorem labelWording_read {previous : Option Direction} {direction other : Direction}
    {semantics semantics' : Semantics} {rest later : List String}
    (same : labelWording previous direction ++ semantics.name :: rest =
      labelWording previous other ++ semantics'.name :: later) : direction = other := by
  unfold labelWording at same
  by_cases unlabelled : previous = some direction
  · by_cases unlabelled' : previous = some other
    · exact Option.some.inj (unlabelled.symm.trans unlabelled')
    · rw [if_pos unlabelled, if_neg unlabelled'] at same
      exact absurd (List.cons.inj same).1.symm (other.label_ne_name semantics)
  · by_cases unlabelled' : previous = some other
    · rw [if_neg unlabelled, if_pos unlabelled'] at same
      exact absurd (List.cons.inj same).1 (direction.label_ne_name semantics')
    · rw [if_neg unlabelled, if_neg unlabelled'] at same
      exact Direction.label_injective (List.cons.inj same).1

theorem opens_messagesWording (previous : Option Direction) (message : MessageOutline)
    (rest : List MessageOutline) :
    Opens (fun word => word ∉ afterMessages) (messagesWording previous (message :: rest)) := by
  unfold messagesWording labelWording
  by_cases unlabelled : previous = some message.direction
  · rw [if_pos unlabelled]
    exact opens_cons.mpr message.semantics.name_not_mem
  · rw [if_neg unlabelled]
    exact opens_cons.mpr message.direction.label_mem.2

/-- Every message is read with the direction of the one before it in mind. -/
theorem messagesWording_readable (previous : Option Direction) :
    Readable (messagesWording previous) (fun messages => ∀ message ∈ messages, message.WellNamed)
      (fun word => word ∈ afterMessages) where
  read := by
    intro left right rest later named named' ends ends' same
    -- Both lists go on after the same direction, since their messages so far are the same.
    induction left generalizing previous right with
    | nil =>
        cases right with
        | nil => exact ⟨rfl, same⟩
        | cons message right =>
            exact absurd same.symm ((opens_messagesWording previous message right).append_ne ends)
    | cons message left ih =>
        cases right with
        | nil => exact absurd same ((opens_messagesWording previous message left).append_ne ends')
        | cons other right =>
            simp only [messagesWording, List.append_assoc] at same
            have direction : message.direction = other.direction := labelWording_read same
            rw [direction, List.append_cancel_left_eq] at same
            have first := (MessageOutline.readable other.direction).read
              ⟨named message List.mem_cons_self, direction⟩
              ⟨named' other List.mem_cons_self, rfl⟩ Begins.any Begins.any same
            have others := ih (some other.direction)
              (fun one member => named one (List.mem_cons_of_mem _ member))
              (fun one member => named' one (List.mem_cons_of_mem _ member)) first.2
            rw [first.1, others.1]
            exact ⟨rfl, others.2⟩

theorem StatementOutline.readable :
    Readable wording WellNamed (fun word => word ∈ afterMessages) where
  read := by
    have actions_readable : Readable (List.flatMap ActionOutline.wording)
        (fun actions => ∀ action ∈ actions, action.WellNamed)
        (fun word => word ∈ afterMessages) := by
      apply ActionOutline.readable.list
      · intro action _
        exact opens_cons.mpr ⟨trivial, action.trigger.name_not_mem⟩
      · intro word _
        trivial
    intro left right rest later named named' ends ends' same
    obtain ⟨source, start, actions⟩ := left
    obtain ⟨source', start', actions'⟩ := right
    simp only [wording] at same
    have start_same : start = start' := by
      cases start <;> cases start' <;> simp at same ⊢
    rw [start_same, List.append_assoc, List.append_assoc, List.append_cancel_left_eq,
      List.cons_append, List.cons_append, List.cons.injEq, String.append_left_inj] at same
    have list : actions = actions' ∧ rest = later :=
      actions_readable.read named.actions named'.actions ends ends' same.2
    rw [start_same, same.1, list.1]
    exact ⟨rfl, list.2⟩

theorem statements_section :
    Section (List.flatMap StatementOutline.wording)
      (fun statements => ∀ statement ∈ statements, statement.WellNamed)
      (fun word => word ∈ afterMessages) (fun word => word = closeBrace) := by
  apply StatementOutline.readable.section
  · intro word listed
    exact listed
  · intro statement _
    unfold StatementOutline.wording
    cases statement.start
    · exact opens_cons.mpr ⟨by decide, by decide⟩
    · exact opens_cons.mpr ⟨by decide, by decide⟩
  · intro word same
    rw [same]
    decide

theorem messages_section :
    Section (messagesWording none) (fun messages => ∀ message ∈ messages, message.WellNamed)
      (fun word => word ∈ afterManages) (fun word => word ∈ afterMessages) where
  toReadable := messagesWording_readable none
  begins := by
    intro messages rest _ ends
    cases messages with
    | nil => exact ends.mono fun word listed => by simp [afterManages, listed]
    | cons message messages => exact begins_cons.mpr message.direction.label_mem.1

theorem SpawnsOutline.readable :
    Readable wording (fun spawns => IsName spawns.protocol) (fun _ => True) where
  read := by
    intro left right rest later _ _ _ _ same
    obtain ⟨side, protocol, spawnedAs⟩ := left
    obtain ⟨side', protocol', spawnedAs'⟩ := right
    simp only [wording, List.cons_append, List.nil_append, List.cons.injEq, true_and] at same
    have side_same := Side.name_injective same.1
    have spawnedAs_same := Side.name_injective same.2.2.1
    simp_all

theorem BridgesOutline.readable :
    Readable wording (fun bridges => IsName bridges.parent ∧ IsName bridges.child)
      (fun _ => True) where
  read := by
    intro left right rest later _ _ _ _ same
    obtain ⟨parent, child⟩ := left
    obtain ⟨parent', child'⟩ := right
    simpa [wording, and_assoc] using same

theorem managerWording_readable : Readable managerWording IsName (fun _ => True) where
  read := by
    intro left right rest later _ _ _ _ same
    simpa [managerWording] using same

theorem managesWording_readable : Readable managesWording IsName (fun _ => True) where
  read := by
    intro left right rest later _ _ _ _ same
    simpa [managesWording] using same

/-- Items that all begin with one keyword. -/
theorem keyword_section {Item : Type} {write : Item → List String} {fit : Item → Prop}
    {keyword : String} {after : List String} (readable : Readable write fit (fun _ => True))
    (opened : ∀ item, ∃ later, write item = keyword :: later) (apart : keyword ∉ after) :
    Section (List.flatMap write) (fun items => ∀ item ∈ items, fit item)
      (fun word => word ∈ keyword :: after) (fun word => word ∈ after) := by
  apply readable.section
  · intro word _
    trivial
  · intro item _
    obtain ⟨later, written⟩ := opened item
    rw [written, opens_cons]
    exact ⟨List.mem_cons_self, apart⟩
  · intro word listed
    exact List.mem_cons_of_mem keyword listed

theorem spawns_section :
    Section (List.flatMap SpawnsOutline.wording)
      (fun list => ∀ spawns ∈ list, IsName spawns.protocol)
      (fun _ => True) (fun word => word ∈ afterSpawns) := by
  apply SpawnsOutline.readable.section
  · intro word _
    trivial
  · intro spawns _
    apply opens_cons.mpr
    cases spawns.side <;> decide
  · intro word _
    trivial

namespace ProtocolOutline

theorem semanticsWording_readable :
    Readable semanticsWording (fun _ => True) (fun _ => True) where
  read := by
    intro left right rest later _ _ _ _ same
    cases left <;> cases right <;> simp [semanticsWording, Semantics.name] at same ⊢ <;> exact same

theorem relations_section :
    Section (fun lists : List SpawnsOutline × List BridgesOutline × List String × List String =>
        lists.1.flatMap SpawnsOutline.wording ++ (lists.2.1.flatMap BridgesOutline.wording ++
          (lists.2.2.1.flatMap managerWording ++ lists.2.2.2.flatMap managesWording)))
      (fun lists => (∀ spawns ∈ lists.1, IsName spawns.protocol) ∧
        (∀ bridges ∈ lists.2.1, IsName bridges.parent ∧ IsName bridges.child) ∧
        (∀ manager ∈ lists.2.2.1, IsName manager) ∧ ∀ managed ∈ lists.2.2.2, IsName managed)
      (fun _ => True) (fun word => word ∈ afterManages) := by
  have bridges : Section _ _ _ (fun word => word ∈ afterBridges) :=
    keyword_section BridgesOutline.readable (fun _ => ⟨_, rfl⟩) (by decide)
  have managers : Section _ _ _ (fun word => word ∈ afterManagers) :=
    keyword_section managerWording_readable (fun _ => ⟨_, rfl⟩) (by decide)
  have manages : Section _ _ _ (fun word => word ∈ afterManages) :=
    keyword_section managesWording_readable (fun _ => ⟨_, rfl⟩) (by decide)
  exact spawns_section.append (bridges.append (managers.append manages))

/-- A protocol is read back, section by section, once its namespaces are known. -/
theorem readable (scopes : List String) :
    Readable wording (fun protocol => protocol.WellNamed ∧ protocol.namespaces = scopes)
      (fun _ => True) where
  read := by
    intro left right rest later fits fits' _ _ same
    obtain ⟨name, namespaces, semantics, spawns, bridges, managers, manages, messages,
      statements⟩ := left
    obtain ⟨name', namespaces', semantics', spawns', bridges', managers', manages', messages',
      statements'⟩ := right
    obtain ⟨named, rfl⟩ := fits
    obtain ⟨named', alike⟩ := fits'
    simp only [wording, List.append_assoc, List.cons_append, List.nil_append] at same
    have head := semanticsWording_readable.read trivial trivial Begins.any Begins.any same
    simp only [List.cons.injEq, true_and] at head
    have body := relations_section.append (messages_section.append statements_section)
    have lists : ((spawns, bridges, managers, manages), messages, statements) =
        ((spawns', bridges', managers', manages'), messages', statements') ∧
          closeBrace :: ";" :: rest = closeBrace :: ";" :: later := by
      apply body.read
      · exact ⟨⟨named.spawns, named.bridges, named.managers, named.manages⟩, named.messages,
          named.statements⟩
      · exact ⟨⟨named'.spawns, named'.bridges, named'.managers, named'.manages⟩, named'.messages,
          named'.statements⟩
      · exact begins_cons.mpr rfl
      · exact begins_cons.mpr rfl
      · simpa [relationsWording] using head.2.2
    simp_all

end ProtocolOutline

end ActorProtocol

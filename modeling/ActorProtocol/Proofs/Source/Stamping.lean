import ActorProtocol.Source.Builder
import ActorProtocol.Source.Unit

/-!
# Stamped nodes

A node that a builder makes is stamped with a line of the builder's file. The sentinel
states, null transitions and null statements are not made by builders and carry the unknown
location. What is built for a file is made of these two kinds of nodes only, so a location
that is found in it is of the file unless it comes from a node that is written nowhere.
-/

namespace ActorProtocol

set_option autoImplicit false

/-- The location of a line of the file. -/
def Location.StampedFor (file : String) (loc : Location) : Prop :=
  ∃ line, loc = .ofLine file line

theorem Location.StampedFor.file_eq {file : String} {loc : Location}
    (stamped : loc.StampedFor file) (named : file ≠ "") : loc.file = file := by
  obtain ⟨line, rfl⟩ := stamped
  exact ofLine_file_of_ne_empty named line

/-! ## What is built for a file -/

section Built

variable (file : String)

inductive State.BuiltFor : State → Prop
  | any : BuiltFor .any
  | dead : BuiltFor .dead
  | stamped {state : State} (loc : state.loc.StampedFor file) : BuiltFor state

inductive Transition.BuiltFor : Transition → Prop
  | null : BuiltFor .null
  | stamped {transition : Transition} (loc : transition.loc.StampedFor file)
      (destinations : ∀ state ∈ transition.destinations, state.BuiltFor file) :
      BuiltFor transition

inductive Statement.BuiltFor : Statement → Prop
  | ofNull {state : State} (source : state.BuiltFor file) : BuiltFor (.ofNull state)
  | stamped {statement : Statement} (loc : statement.loc.StampedFor file)
      (source : statement.state.BuiltFor file)
      (transitions : ∀ transition ∈ statement.transitions, transition.BuiltFor file) :
      BuiltFor statement

structure TypeRef.BuiltFor (type : TypeRef) : Prop where
  state : ∀ state ∈ type.state, state.BuiltFor file
  loc : type.loc.StampedFor file

structure UsingType.BuiltFor (brought : UsingType) : Prop where
  type : brought.type.BuiltFor file
  loc : brought.loc.StampedFor file

structure Member.BuiltFor (member : Member) : Prop where
  type : member.type.BuiltFor file
  loc : member.loc.StampedFor file

def TypeBody.BuiltFor : TypeBody → Prop
  | .struct fields => ∀ field ∈ fields, field.BuiltFor file
  | .union components => ∀ component ∈ components, component.BuiltFor file

structure TypeDecl.BuiltFor (decl : TypeDecl) : Prop where
  namespaces : ∀ scope ∈ decl.namespaces, scope.loc.StampedFor file
  body : decl.body.BuiltFor file
  loc : decl.loc.StampedFor file

structure Bridges.BuiltFor (bridges : Bridges) : Prop where
  parent : bridges.parent.loc.StampedFor file
  child : bridges.child.loc.StampedFor file
  loc : bridges.loc.StampedFor file

structure Message.BuiltFor (message : Message) : Prop where
  params : ∀ param ∈ message.params, param.BuiltFor file
  loc : message.loc.StampedFor file

structure Protocol.BuiltFor (protocol : Protocol) : Prop where
  namespaces : ∀ scope ∈ protocol.namespaces, scope.loc.StampedFor file
  spawns : ∀ spawns ∈ protocol.spawns, spawns.loc.StampedFor file
  bridges : ∀ bridges ∈ protocol.bridges, bridges.BuiltFor file
  managers : ∀ manager ∈ protocol.managers, manager.loc.StampedFor file
  manages : ∀ managed ∈ protocol.manages, managed.loc.StampedFor file
  messages : ∀ message ∈ protocol.messages, message.BuiltFor file
  statements : ∀ statement ∈ protocol.statements, statement.BuiltFor file
  loc : protocol.loc.StampedFor file

structure SourceUnit.BuiltFor (unit : SourceUnit) : Prop where
  headers : ∀ header ∈ unit.headers, header.loc.StampedFor file
  includes : ∀ included ∈ unit.includes, included.loc.StampedFor file
  usings : ∀ brought ∈ unit.usings, brought.BuiltFor file
  types : ∀ type ∈ unit.types, type.BuiltFor file
  protocol : ∀ protocol ∈ unit.protocol, protocol.BuiltFor file
  loc : unit.loc.StampedFor file

end Built

/-! ## Building for a file -/

namespace Build

variable {file : String} {Item Other : Type}

/-- Run by a builder of the file, the action leaves one of the file and gives a good result. -/
def BuildsFor (file : String) (action : Build Item) (good : Item → Prop) : Prop :=
  ∀ builder : Builder, builder.file = file →
    (action.run builder).2.file = file ∧ good (action.run builder).1

section Compound

variable {action : Build Item} {good : Item → Prop} {next : Item → Build Other}
  {better : Other → Prop}

theorem BuildsFor.bind (builds : BuildsFor file action good)
    (further : ∀ item, good item → BuildsFor file (next item) better) :
    BuildsFor file (action >>= next) better := by
  intro builder same
  obtain ⟨kept, fits⟩ := builds builder same
  exact further _ fits _ kept

theorem BuildsFor.pure {item : Item} (fits : good item) :
    BuildsFor file (Pure.pure item) good :=
  fun _ same => ⟨same, fits⟩

end Compound

/-- A node with an id of its own and the location that the builder is at. -/
theorem builds_stamped {good : Item → Prop} (make : NodeId → Location → Item)
    (fits : ∀ id loc, loc.StampedFor file → good (make id loc)) :
    BuildsFor file (do return make (← freshId) (← location)) good := by
  intro builder same
  refine ⟨same, fits _ _ ⟨builder.line, ?_⟩⟩
  rw [← same]

theorem builds_atLine (line : Nat) : BuildsFor file (atLine line) fun _ => True :=
  fun _ same => ⟨same, trivial⟩

theorem builds_sourceUnit :
    BuildsFor file sourceUnit fun unit => unit.file = file ∧ unit.BuiltFor file := by
  intro builder same
  refine ⟨same, same, nofun, nofun, nofun, nofun, nofun, 0, ?_⟩
  rw [← same]
  rfl

theorem builds_headerInclude (header : String) :
    BuildsFor file (headerInclude header) fun header => header.loc.StampedFor file :=
  builds_stamped (HeaderInclude.mk · header ·) fun _ _ stamped => stamped

theorem builds_protocolInclude (protocol : String) :
    BuildsFor file (protocolInclude protocol) fun included => included.loc.StampedFor file :=
  builds_stamped (ProtocolInclude.mk · protocol (ProtocolInclude.defaultFile protocol) ·)
    fun _ _ stamped => stamped

theorem builds_ident (name : String) :
    BuildsFor file (ident name) fun name => name.loc.StampedFor file :=
  builds_stamped (Ident.mk · name ·) fun _ _ stamped => stamped

theorem builds_state (name : String) (start : Bool) :
    BuildsFor file (state name start) (State.BuiltFor file) :=
  builds_stamped (State.mk · name start ·) fun _ _ stamped => .stamped stamped

theorem builds_stateRef (name : String) :
    BuildsFor file (stateRef name) (State.BuiltFor file) := by
  unfold stateRef
  split
  · exact .pure .any
  · split
    · exact .pure .dead
    · exact builds_state name false

theorem builds_stateRefs (names : List String) :
    BuildsFor file (stateRefs names) fun states => ∀ state ∈ states, state.BuiltFor file := by
  induction names with
  | nil => exact .pure nofun
  | cons name rest ih =>
      apply (builds_stateRef name).bind
      intro first built
      apply ih.bind
      intro later builtLater
      exact .pure (List.forall_mem_cons.mpr ⟨built, builtLater⟩)

theorem builds_typeRef (spelling : String) :
    BuildsFor file (typeRef spelling) (TypeRef.BuiltFor file) :=
  builds_stamped (TypeRef.mk · (.parse spelling) none false false none none ·)
    fun _ _ stamped => ⟨nofun, stamped⟩

theorem builds_actorType (protocol state : String) :
    BuildsFor file (actorType protocol state) (TypeRef.BuiltFor file) := by
  apply (builds_stateRef state).bind
  intro state built
  apply (builds_typeRef protocol).bind
  rintro type ⟨_, stamped⟩
  exact .pure ⟨fun _ asked => Option.some.inj asked ▸ built, stamped⟩

theorem builds_usingOf {type : TypeRef} (built : type.BuiltFor file) :
    BuildsFor file (usingOf type) (UsingType.BuiltFor file) :=
  builds_stamped (UsingType.mk · type ·) fun _ _ stamped => ⟨built, stamped⟩

theorem builds_usingType (spelling : String) :
    BuildsFor file (usingType spelling) (UsingType.BuiltFor file) :=
  (builds_typeRef spelling).bind fun _ built => builds_usingOf built

theorem builds_member {type : TypeRef} (built : type.BuiltFor file) (name : String) :
    BuildsFor file (member type name) (Member.BuiltFor file) :=
  builds_stamped (Member.mk · name type ·) fun _ _ stamped => ⟨built, stamped⟩

theorem builds_typeDecl (name : String) {body : TypeBody} (built : body.BuiltFor file) :
    BuildsFor file (typeDecl name body) (TypeDecl.BuiltFor file) :=
  builds_stamped (TypeDecl.mk · name [] body ·)
    fun _ _ stamped => ⟨nofun, built, stamped⟩

theorem builds_protocol (name : String) :
    BuildsFor file (protocol name) (Protocol.BuiltFor file) :=
  builds_stamped (Protocol.mk · name [] .async [] [] [] [] [] [] ·)
    fun _ _ stamped => ⟨nofun, nofun, nofun, nofun, nofun, nofun, nofun, stamped⟩

theorem builds_spawns (side : Side) (protocol : String) (spawnedAs : Side) :
    BuildsFor file (spawns side protocol spawnedAs) fun spawns => spawns.loc.StampedFor file :=
  builds_stamped (Spawns.mk · side protocol spawnedAs ·) fun _ _ stamped => stamped

theorem builds_bridges (parent child : String) :
    BuildsFor file (bridges parent child) (Bridges.BuiltFor file) := by
  apply (builds_ident parent).bind
  intro parent parentStamped
  apply (builds_ident child).bind
  intro child childStamped
  exact builds_stamped (Bridges.mk · parent child ·)
    fun _ _ stamped => ⟨parentStamped, childStamped, stamped⟩

theorem builds_message (name : String) (semantics : Semantics) (direction : Direction) :
    BuildsFor file (message name semantics direction) (Message.BuiltFor file) :=
  builds_stamped (Message.mk · name semantics direction [] [] ·)
    fun _ _ stamped => ⟨nofun, stamped⟩

theorem builds_transitionTo (trigger : Option Trigger) (message : Option String)
    {destinations : List State} (built : ∀ state ∈ destinations, state.BuiltFor file) :
    BuildsFor file (transitionTo trigger message destinations) (Transition.BuiltFor file) :=
  builds_stamped (Transition.mk · trigger message destinations ·)
    fun _ _ stamped => .stamped stamped built

theorem builds_transition (trigger : Trigger) (message : String) (destinations : List String) :
    BuildsFor file (transition trigger message destinations) (Transition.BuiltFor file) :=
  (builds_stateRefs destinations).bind fun _ built => builds_transitionTo _ _ built

theorem builds_statement {state : State} {transitions : List Transition}
    (source : state.BuiltFor file)
    (built : ∀ transition ∈ transitions, transition.BuiltFor file) :
    BuildsFor file (statement state transitions) (Statement.BuiltFor file) :=
  builds_stamped (Statement.mk · state transitions ·)
    fun _ _ stamped => .stamped stamped source built

end Build

end ActorProtocol

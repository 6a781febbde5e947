import ActorProtocol.Naming.Resolved
import Mathlib.Data.List.Nodup

/-!
# Relabeling of nodes

The ids of nodes may be exchanged for others, as long as different ids stay different and
the shared id stays what it is. `relabel` puts the new ids into a unit, and into the
tables that are kept by node. Names, locations and declarations are not touched. The new
ids need not be in the order of the old ones.
-/

namespace ActorProtocol

set_option autoImplicit false

/-- New ids for nodes. Nodes that are written down nowhere keep the shared id. -/
structure Relabeling where
  node : NodeId → NodeId
  injective : Function.Injective node
  synthetic : node .synthetic = .synthetic

namespace OrderedMap

variable {Key Value Other : Type} [DecidableEq Key]

theorem putEntry_map {label : Key → Key} (injective : Function.Injective label)
    (convert : Value → Other) (key : Key) (value : Value) (entries : List (Key × Value)) :
    putEntry (label key) (convert value) (entries.map (Prod.map label convert)) =
      (putEntry key value entries).map (Prod.map label convert) := by
  induction entries with
  | nil => rfl
  | cons entry rest ih =>
      simp only [List.map_cons, putEntry, Prod.map_fst, injective.eq_iff, ih]
      split <;> rfl

theorem valueAt?_map {label : Key → Key} (injective : Function.Injective label)
    (convert : Value → Other) (key : Key) (entries : List (Key × Value)) :
    valueAt? (label key) (entries.map (Prod.map label convert)) =
      (valueAt? key entries).map convert := by
  induction entries with
  | nil => rfl
  | cons entry rest ih =>
      simp only [List.map_cons, valueAt?, Prod.map_fst, Prod.map_snd, injective.eq_iff, ih]
      split <;> rfl

/-- The map under new keys, with its values converted. -/
def relabel (map : OrderedMap Key Value) {label : Key → Key}
    (injective : Function.Injective label) (convert : Value → Other) : OrderedMap Key Other where
  entries := map.entries.map (Prod.map label convert)
  distinct := by
    have keys : (map.entries.map (Prod.map label convert)).map Prod.fst =
        (map.entries.map Prod.fst).map label := by
      simp
    rw [keys]
    exact map.distinct.map injective

variable (map : OrderedMap Key Value) {label : Key → Key} (injective : Function.Injective label)
  (convert : Value → Other)

theorem find?_relabel (key : Key) :
    (map.relabel injective convert).find? (label key) = (map.find? key).map convert :=
  valueAt?_map injective convert key map.entries

theorem insert_relabel (key : Key) (value : Value) :
    (map.relabel injective convert).insert (label key) (convert value) =
      (map.insert key value).relabel injective convert := by
  simp only [relabel, insert, OrderedMap.mk.injEq]
  exact putEntry_map injective convert key value map.entries

end OrderedMap

section Syntax

variable (labels : Relabeling)

def Ident.relabel (name : Ident) : Ident :=
  { name with id := labels.node name.id }

def HeaderInclude.relabel (header : HeaderInclude) : HeaderInclude :=
  { header with id := labels.node header.id }

def ProtocolInclude.relabel (included : ProtocolInclude) : ProtocolInclude :=
  { included with id := labels.node included.id }

def State.relabel (state : State) : State :=
  { state with id := labels.node state.id }

def Transition.relabel (transition : Transition) : Transition :=
  { transition with
    id := labels.node transition.id
    destinations := transition.destinations.map (State.relabel labels) }

def Statement.relabel (statement : Statement) : Statement :=
  { statement with
    id := labels.node statement.id
    state := statement.state.relabel labels
    transitions := statement.transitions.map (Transition.relabel labels) }

def TypeRef.relabel (type : TypeRef) : TypeRef :=
  { type with
    id := labels.node type.id
    state := type.state.map (State.relabel labels) }

def UsingType.relabel (brought : UsingType) : UsingType :=
  { brought with
    id := labels.node brought.id
    type := brought.type.relabel labels }

def Member.relabel (member : Member) : Member :=
  { member with
    id := labels.node member.id
    type := member.type.relabel labels }

def TypeBody.relabel : TypeBody → TypeBody
  | .struct fields => .struct (fields.map (Member.relabel labels))
  | .union components => .union (components.map (TypeRef.relabel labels))

def TypeDecl.relabel (decl : TypeDecl) : TypeDecl :=
  { decl with
    id := labels.node decl.id
    namespaces := decl.namespaces.map (Ident.relabel labels)
    body := decl.body.relabel labels }

def Spawns.relabel (spawns : Spawns) : Spawns :=
  { spawns with id := labels.node spawns.id }

def Bridges.relabel (bridges : Bridges) : Bridges :=
  { bridges with
    id := labels.node bridges.id
    parent := bridges.parent.relabel labels
    child := bridges.child.relabel labels }

def Message.relabel (message : Message) : Message :=
  { message with
    id := labels.node message.id
    inParams := message.inParams.map (Member.relabel labels)
    outParams := message.outParams.map (Member.relabel labels) }

def Protocol.relabel (protocol : Protocol) : Protocol :=
  { protocol with
    id := labels.node protocol.id
    namespaces := protocol.namespaces.map (Ident.relabel labels)
    spawns := protocol.spawns.map (Spawns.relabel labels)
    bridges := protocol.bridges.map (Bridges.relabel labels)
    managers := protocol.managers.map (Ident.relabel labels)
    manages := protocol.manages.map (Ident.relabel labels)
    messages := protocol.messages.map (Message.relabel labels)
    statements := protocol.statements.map (Statement.relabel labels) }

/-- The unit with new ids on all of its nodes. -/
def SourceUnit.relabel (unit : SourceUnit) : SourceUnit :=
  { unit with
    id := labels.node unit.id
    headers := unit.headers.map (HeaderInclude.relabel labels)
    includes := unit.includes.map (ProtocolInclude.relabel labels)
    usings := unit.usings.map (UsingType.relabel labels)
    types := unit.types.map (TypeDecl.relabel labels)
    protocol := unit.protocol.map (Protocol.relabel labels) }

/-- Faults tell of nodes by their ids. -/
def Fault.relabel : Fault → Fault
  | .missingProtocol file => .missingProtocol file
  | .missingDecl node => .missingDecl (labels.node node)
  | .notAMessage node => .notAMessage (labels.node node)
  | .noRole direction => .noRole direction

end Syntax

namespace Relabeling

variable (labels : Relabeling)

/-- A result under new ids. -/
def outcome {Value Other : Type} (convert : Value → Other) : Except Fault Value → Except Fault Other
  | .ok value => .ok (convert value)
  | .error fault => .error (fault.relabel labels)

theorem outcome_bind {Value Next Other Last : Type} {convert : Value → Other} {last : Next → Last}
    {run : Except Fault Value} {goOn : Value → Except Fault Next}
    {goOnAnew : Other → Except Fault Last}
    (onward : ∀ value, goOnAnew (convert value) = labels.outcome last (goOn value)) :
    (labels.outcome convert run >>= goOnAnew) = labels.outcome last (run >>= goOn) := by
  cases run with
  | ok value => exact onward value
  | error fault => rfl

@[simp] theorem isSynthetic_node (id : NodeId) :
    (labels.node id).isSynthetic = id.isSynthetic := by
  rw [Bool.eq_iff_iff]
  simp only [NodeId.isSynthetic, beq_iff_eq]
  rw [← labels.synthetic, labels.injective.eq_iff, labels.synthetic]

@[simp] theorem relabel_any : State.any.relabel labels = .any := by
  simp [State.relabel, State.any, labels.synthetic]

@[simp] theorem relabel_dead : State.dead.relabel labels = .dead := by
  simp [State.relabel, State.dead, labels.synthetic]

@[simp] theorem relabel_null : Transition.null.relabel labels = .null := by
  simp [Transition.relabel, Transition.null, labels.synthetic]

@[simp] theorem action_relabel (transition : Transition) :
    (transition.relabel labels).action = transition.action := rfl

@[simp] theorem isNull_relabel (transition : Transition) :
    (transition.relabel labels).isNull = transition.isNull := by
  rw [Bool.eq_iff_iff, Transition.isNull_iff, Transition.isNull_iff]
  simp [Transition.relabel]

@[simp] theorem ofProtocol_relabel (protocol : Protocol) :
    Home.ofProtocol (protocol.relabel labels) = .ofProtocol protocol := by
  simp [Home.ofProtocol, Protocol.relabel, Ident.relabel]

end Relabeling

end ActorProtocol

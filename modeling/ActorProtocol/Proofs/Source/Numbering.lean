import ActorProtocol.Source.Unit

/-!
# Numbered units

Most nodes of a unit are written down and have an id of their own. The sentinel
states, null transitions and null statements are not: all of them share the
synthetic id. A unit is numbered when its written nodes have distinct ids and
none of them has the synthetic one.
-/

namespace ActorProtocol

set_option autoImplicit false

namespace State

/-- A sentinel under the shared id. -/
def isSynthesized (state : State) : Bool :=
  state.id.isSynthetic && state.isSentinel

def writtenIds (state : State) : List NodeId :=
  if state.isSynthesized then [] else [state.id]

theorem writtenIds_of_nonzero {state : State} (nonzero : state.id ≠ .synthetic) :
    state.writtenIds = [state.id] := by
  simp [writtenIds, isSynthesized, NodeId.isSynthetic, nonzero]

end State

namespace Transition

def isSynthesized (transition : Transition) : Bool :=
  transition.id.isSynthetic && transition.isNull

def writtenIds (transition : Transition) : List NodeId :=
  (if transition.isSynthesized then [] else [transition.id]) ++
    transition.destinations.flatMap State.writtenIds

theorem writtenIds_of_nonzero {transition : Transition}
    (nonzero : transition.id ≠ .synthetic) :
    transition.writtenIds = transition.id :: transition.destinations.flatMap State.writtenIds := by
  simp [writtenIds, isSynthesized, NodeId.isSynthetic, nonzero]

end Transition

namespace Statement

def isSynthesized (statement : Statement) : Bool :=
  statement.id.isSynthetic && statement.isNull

def writtenIds (statement : Statement) : List NodeId :=
  (if statement.isSynthesized then [] else [statement.id]) ++ statement.state.writtenIds ++
    statement.transitions.flatMap Transition.writtenIds

theorem writtenIds_of_nonzero {statement : Statement}
    (nonzero : statement.id ≠ .synthetic) :
    statement.writtenIds = statement.id :: (statement.state.writtenIds ++
      statement.transitions.flatMap Transition.writtenIds) := by
  simp [writtenIds, isSynthesized, NodeId.isSynthetic, nonzero]

end Statement

def TypeRef.writtenIds (type : TypeRef) : List NodeId :=
  type.id :: type.state.toList.flatMap State.writtenIds

def UsingType.writtenIds (brought : UsingType) : List NodeId :=
  brought.id :: brought.type.writtenIds

def Member.writtenIds (member : Member) : List NodeId :=
  member.id :: member.type.writtenIds

def TypeBody.writtenIds : TypeBody → List NodeId
  | .struct fields => fields.flatMap Member.writtenIds
  | .union components => components.flatMap TypeRef.writtenIds

def TypeDecl.writtenIds (decl : TypeDecl) : List NodeId :=
  decl.id :: decl.namespaces.map Ident.id ++ decl.body.writtenIds

def Bridges.writtenIds (bridges : Bridges) : List NodeId :=
  [bridges.id, bridges.parent.id, bridges.child.id]

def Message.writtenIds (message : Message) : List NodeId :=
  message.id :: message.params.flatMap Member.writtenIds

def Protocol.writtenIds (protocol : Protocol) : List NodeId :=
  protocol.id :: protocol.namespaces.map Ident.id ++
    protocol.spawns.map Spawns.id ++
    protocol.bridges.flatMap Bridges.writtenIds ++
    protocol.managers.map Ident.id ++
    protocol.manages.map Ident.id ++
    protocol.messages.flatMap Message.writtenIds ++
    protocol.statements.flatMap Statement.writtenIds

namespace SourceUnit

/-- The ids of all nodes of a unit that are written down. -/
def writtenIds (unit : SourceUnit) : List NodeId :=
  unit.id :: unit.headers.map HeaderInclude.id ++
    unit.includes.map ProtocolInclude.id ++
    unit.usings.flatMap UsingType.writtenIds ++
    unit.types.flatMap TypeDecl.writtenIds ++
    unit.protocol.toList.flatMap Protocol.writtenIds

structure Numbered (unit : SourceUnit) : Prop where
  distinct : unit.writtenIds.Nodup
  nonzero : ∀ id ∈ unit.writtenIds, id ≠ .synthetic

end SourceUnit

/-! ## A numbered unit

A channel in a namespace, whose first message takes a value of the given type. Its
dead state has the shared id and no node of its own. -/

def channelLine (line : Nat) : Location := ⟨"PChannel.ipdl", line⟩

def channelType (id line : Nat) (name : String) : TypeRef :=
  ⟨⟨id⟩, ⟨[], name⟩, none, false, false, none, none, channelLine line⟩

def channelProtocol (argument : String) : Protocol where
  id := ⟨10⟩
  name := "PChannel"
  namespaces := [⟨⟨11⟩, "net", channelLine 6⟩]
  semantics := .sync
  spawns := []
  bridges := []
  managers := [⟨⟨12⟩, "PHost", channelLine 7⟩]
  manages := []
  messages := [
    ⟨⟨13⟩, "Open", .sync, .inbound,
      [⟨⟨14⟩, "value", channelType 15 8 argument, channelLine 8⟩],
      [⟨⟨16⟩, "host", channelType 17 8 "PHost", channelLine 8⟩], channelLine 8⟩,
    ⟨⟨18⟩, "Close", .async, .outbound, [], [], channelLine 9⟩]
  statements := [
    ⟨⟨19⟩, ⟨⟨20⟩, "Idle", true, channelLine 10⟩,
      [⟨⟨21⟩, some .answer, some "Open", [⟨⟨22⟩, "Busy", false, channelLine 11⟩],
        channelLine 11⟩], channelLine 10⟩,
    ⟨⟨23⟩, ⟨⟨24⟩, "Busy", false, channelLine 12⟩,
      [⟨⟨25⟩, some .send, some "Close", [.dead], channelLine 13⟩], channelLine 12⟩]
  loc := channelLine 6

def channelUnit (argument : String) : SourceUnit where
  id := ⟨1⟩
  file := "PChannel.ipdl"
  headers := []
  includes := [⟨⟨2⟩, "PHost", "PHost.ipdl", channelLine 1⟩]
  usings := [⟨⟨3⟩, channelType 4 2 "Blob", channelLine 2⟩]
  types := [
    ⟨⟨5⟩, "Header", [], .struct [], channelLine 3⟩,
    ⟨⟨6⟩, "Header", [⟨⟨7⟩, "net", channelLine 4⟩],
      .struct [⟨⟨8⟩, "raw", channelType 9 5 "Blob", channelLine 5⟩], channelLine 4⟩]
  protocol := some (channelProtocol argument)
  loc := channelLine 1

theorem channelUnit_numbered (argument : String) : (channelUnit argument).Numbered := by
  have ids : (channelUnit argument).writtenIds = (List.range' 1 25).map NodeId.mk := rfl
  refine ⟨?_, ?_⟩ <;> rw [ids] <;> decide

/-! ## Counting occurrences of an id -/

section Counting

variable {Item : Type} {id : NodeId}

theorem count_flatMap_append (items : List Item) (first second : Item → List NodeId) :
    (items.flatMap fun item => first item ++ second item).count id =
      (items.flatMap first).count id + (items.flatMap second).count id := by
  induction items with
  | nil => rfl
  | cons item items ih =>
      simp only [List.flatMap_cons, List.count_append, ih]
      omega

theorem count_flatMap_congr {items : List Item} {first second : Item → List NodeId}
    (same : ∀ item ∈ items, (first item).count id = (second item).count id) :
    (items.flatMap first).count id = (items.flatMap second).count id := by
  induction items with
  | nil => rfl
  | cons item items ih =>
      simp only [List.flatMap_cons, List.count_append]
      rw [same item (by simp), ih fun other member => same other (by simp [member])]

theorem count_flatMap_le (items : List Item) {first second : Item → List NodeId}
    (le : ∀ item ∈ items, (first item).count id ≤ (second item).count id) :
    (items.flatMap first).count id ≤ (items.flatMap second).count id := by
  induction items with
  | nil => exact Nat.le_refl _
  | cons item items ih =>
      simp only [List.flatMap_cons, List.count_append]
      exact Nat.add_le_add (le item (by simp))
        (ih fun other member => le other (by simp [member]))

/-- Leaving out a node under the shared id changes no other count. -/
theorem count_unless_shared (nonzero : id ≠ .synthetic) {own : NodeId} {shared : Bool}
    (hidden : shared = true → own = .synthetic) :
    (if shared then [] else [own]).count id = [own].count id := by
  cases shared with
  | false => rfl
  | true =>
      have other : own ≠ id := fun same => nonzero (same ▸ hidden rfl)
      simp [other]

theorem State.count_writtenIds (nonzero : id ≠ .synthetic) (state : State) :
    state.writtenIds.count id = [state.id].count id := by
  apply count_unless_shared nonzero
  intro synthesized
  simp only [State.isSynthesized, NodeId.isSynthetic, Bool.and_eq_true, beq_iff_eq] at synthesized
  exact synthesized.1

theorem State.count_flatMap_writtenIds (nonzero : id ≠ .synthetic) (states : List State) :
    (states.flatMap State.writtenIds).count id = (states.map State.id).count id := by
  rw [List.map_eq_flatMap]
  exact count_flatMap_congr fun state _ => State.count_writtenIds nonzero state

end Counting

end ActorProtocol

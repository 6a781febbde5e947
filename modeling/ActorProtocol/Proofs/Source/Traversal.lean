import ActorProtocol.Source.Traversal
import ActorProtocol.Proofs.Source.Numbering

/-!
# What a walk visits

A unit is a tree of nodes. A walk goes through it from the front, every node before the nodes
inside it, whatever the methods of the visitor do. So what a visitor notes is said by the
nodes of the tree alone: a visitor that notes some kinds only leaves the others out, and one
that does not walk on at some kinds leaves out what stands inside such nodes and nothing else.
-/

namespace ActorProtocol

set_option autoImplicit false

/-! ## The tree of nodes -/

def TypeDecl.node (decl : TypeDecl) : Node :=
  match decl.body with
  | .struct _ => .struct decl
  | .union _ => .union decl

def TypeBody.parts : TypeBody → List Node
  | .struct fields => fields.map .field
  | .union components => components.map .typeRef

namespace Node

/-- The nodes right inside a node that are visited, in reading order. -/
def parts : Node → List Node
  | unit node =>
      node.headers.map headerInclude ++ node.includes.map protocolInclude ++
        node.types.map TypeDecl.node ++ node.usings.map usingType ++
        node.protocol.toList.map protocol
  | struct node | union node => node.body.parts
  | field node | param node => [typeRef node.type]
  | protocol node =>
      node.namespaces.map scopeName ++ node.spawns.map spawns ++ node.bridges.map bridges ++
        node.managers.map manager ++ node.manages.map managed ++ node.messages.map message ++
        node.statements.map statement
  | message node => node.params.map param
  | statement node => state node.state :: node.transitions.map transition
  | transition node => node.destinations.map state
  | _ => []

/-- How deep the nodes inside may be nested. -/
def rank : Node → Nat
  | unit _ => 4
  | protocol _ => 3
  | struct _ | union _ | message _ | statement _ => 2
  | field _ | param _ | transition _ => 1
  | _ => 0

theorem rank_node (decl : TypeDecl) : decl.node.rank = 2 := by
  unfold TypeDecl.node
  split <;> rfl

theorem rank_lt_of_bodyPart {body : TypeBody} {part : Node} (inside : part ∈ body.parts) :
    part.rank < 2 := by
  cases body with
  | struct fields =>
      obtain ⟨_, _, rfl⟩ := List.mem_map.mp inside
      exact Nat.one_lt_two
  | union components =>
      obtain ⟨_, _, rfl⟩ := List.mem_map.mp inside
      exact Nat.two_pos

theorem rank_lt_of_part {node part : Node} (inside : part ∈ node.parts) :
    part.rank < node.rank := by
  cases node with
  | unit node =>
      simp only [parts, List.mem_append, List.mem_map] at inside
      rcases inside with (((⟨_, _, rfl⟩ | ⟨_, _, rfl⟩) | ⟨decl, _, rfl⟩) | ⟨_, _, rfl⟩) |
        ⟨_, _, rfl⟩
      · simp [rank]
      · simp [rank]
      · rw [rank_node]
        simp [rank]
      · simp [rank]
      · simp [rank]
  | protocol node =>
      simp only [parts, List.mem_append, List.mem_map] at inside
      rcases inside with (((((⟨_, _, rfl⟩ | ⟨_, _, rfl⟩) | ⟨_, _, rfl⟩) | ⟨_, _, rfl⟩) |
        ⟨_, _, rfl⟩) | ⟨_, _, rfl⟩) | ⟨_, _, rfl⟩ <;> simp [rank]
  | struct node | union node => exact rank_lt_of_bodyPart inside
  | field node | param node =>
      rw [List.mem_singleton.mp inside]
      exact Nat.one_pos
  | message node =>
      obtain ⟨_, _, rfl⟩ := List.mem_map.mp inside
      exact Nat.one_lt_two
  | statement node =>
      rcases List.mem_cons.mp inside with rfl | later
      · exact Nat.two_pos
      · obtain ⟨_, _, rfl⟩ := List.mem_map.mp later
        exact Nat.one_lt_two
  | transition node =>
      obtain ⟨_, _, rfl⟩ := List.mem_map.mp inside
      exact Nat.one_pos
  | _ => cases inside

/-- A node as it stands in a tree, with the nodes around it, the innermost first. -/
structure Place where
  around : List Node
  node : Node

/-- A node and all nodes inside it, every node before those inside it. -/
def places (around : List Node) (node : Node) : List Place :=
  ⟨around, node⟩ :: node.parts.attach.flatMap fun part => places (node :: around) part.val
termination_by node.rank
decreasing_by exact rank_lt_of_part part.property

theorem places_eq (around : List Node) (node : Node) :
    node.places around =
      ⟨around, node⟩ :: node.parts.flatMap fun part => part.places (node :: around) := by
  rw [places]
  simp

end Node

namespace Visitor

variable {Seen : Type} (visitor : Visitor Seen)

/-- The method for a node. -/
def method : Node → (Seen → Seen) → Seen → Seen
  | .unit unit => visitor.unit unit
  | .headerInclude header => fun _ => visitor.headerInclude header
  | .protocolInclude included => fun _ => visitor.protocolInclude included
  | .usingType brought => fun _ => visitor.usingType brought
  | .struct decl => visitor.struct decl
  | .field member => visitor.field member
  | .union decl => visitor.union decl
  | .protocol protocol => visitor.protocol protocol
  | .scopeName name => fun _ => visitor.scopeName name
  | .spawns spawns => fun _ => visitor.spawns spawns
  | .bridges bridges => fun _ => visitor.bridges bridges
  | .manager manager => fun _ => visitor.manager manager
  | .managed managed => fun _ => visitor.managed managed
  | .message message => visitor.message message
  | .param member => visitor.param member
  | .typeRef type => fun _ => visitor.typeRef type
  | .statement statement => visitor.statement statement
  | .transition transition => visitor.transition transition
  | .state state => fun _ => visitor.state state

/-- Visits a node as a node of the tree. -/
def visit (node : Node) : Seen → Seen :=
  visitor.method node fun seen =>
    node.parts.attach.foldl (fun seen part => visit part.val seen) seen
termination_by node.rank
decreasing_by exact Node.rank_lt_of_part part.property

theorem visit_eq (node : Node) :
    visitor.visit node = visitor.method node (each visitor.visit node.parts) := by
  rw [visit]
  congr
  funext seen
  simp [each]

/-! ## A walk through the tree -/

theorem each_append {Item : Type} (visit : Item → Seen → Seen) (first later : List Item)
    (seen : Seen) : each visit (first ++ later) seen = each visit later (each visit first seen) :=
  List.foldl_append

theorem each_visit_map {Item : Type} {wrap : Item → Node} {visitItem : Item → Seen → Seen}
    (same : ∀ item, visitor.visit (wrap item) = visitItem item) (items : List Item) :
    each visitor.visit (items.map wrap) = each visitItem items := by
  funext seen
  simp only [each, List.foldl_map, same]

theorem visit_typeRef (type : TypeRef) : visitor.visit (.typeRef type) = visitor.typeRef type := by
  rw [visit_eq]
  rfl

theorem visit_state (state : State) : visitor.visit (.state state) = visitor.state state := by
  rw [visit_eq]
  rfl

/-- Of a member, the type alone is visited. -/
theorem visit_member {node : Node} {type : TypeRef} (typed : node.parts = [.typeRef type]) :
    visitor.visit node = visitor.method node (visitor.typeRef type) := by
  rw [visit_eq, typed, ← visit_typeRef]
  rfl

theorem visit_field (member : Member) :
    visitor.visit (.field member) = visitor.visitField member :=
  visitor.visit_member rfl

theorem visit_param (member : Member) :
    visitor.visit (.param member) = visitor.visitParam member :=
  visitor.visit_member rfl

theorem visit_typeDecl (decl : TypeDecl) :
    visitor.visit decl.node = visitor.visitTypeDecl decl := by
  rw [visit_eq]
  unfold TypeDecl.node visitTypeDecl
  cases body : decl.body with
  | struct fields =>
      dsimp only [method, Node.parts]
      rw [body, TypeBody.parts, visitor.each_visit_map visitor.visit_field]
  | union components =>
      dsimp only [method, Node.parts]
      rw [body, TypeBody.parts, visitor.each_visit_map visitor.visit_typeRef]

theorem visit_message (message : Message) :
    visitor.visit (.message message) = visitor.visitMessage message := by
  rw [visit_eq, visitMessage]
  dsimp only [method, Node.parts]
  rw [visitor.each_visit_map visitor.visit_param]
  congr
  funext seen
  exact each_append _ _ _ _

theorem visit_transition (transition : Transition) :
    visitor.visit (.transition transition) = visitor.visitTransition transition := by
  rw [visit_eq, visitTransition]
  dsimp only [method, Node.parts]
  rw [visitor.each_visit_map visitor.visit_state]

theorem visit_statement (statement : Statement) :
    visitor.visit (.statement statement) = visitor.visitStatement statement := by
  rw [visit_eq, visitStatement, ← visit_state, ← visitor.each_visit_map visitor.visit_transition]
  rfl

theorem visit_protocol (protocol : Protocol) :
    visitor.visit (.protocol protocol) = visitor.visitProtocol protocol := by
  rw [visit_eq, visitProtocol]
  dsimp only [method, Node.parts]
  congr
  funext seen
  unfold walkProtocol
  rw [each_append, each_append, each_append, each_append, each_append, each_append,
    visitor.each_visit_map fun name => visitor.visit_eq (.scopeName name),
    visitor.each_visit_map fun spawns => visitor.visit_eq (.spawns spawns),
    visitor.each_visit_map fun bridges => visitor.visit_eq (.bridges bridges),
    visitor.each_visit_map fun manager => visitor.visit_eq (.manager manager),
    visitor.each_visit_map fun managed => visitor.visit_eq (.managed managed),
    visitor.each_visit_map visitor.visit_message, visitor.each_visit_map visitor.visit_statement]
  rfl

/-- Whatever a visitor does, it walks through the tree of nodes. -/
theorem visit_unit (unit : SourceUnit) : visitor.visit (.unit unit) = visitor.visitUnit unit := by
  rw [visit_eq, visitUnit]
  dsimp only [method, Node.parts]
  congr
  funext seen
  unfold walkUnit
  rw [each_append, each_append, each_append, each_append,
    visitor.each_visit_map fun header => visitor.visit_eq (.headerInclude header),
    visitor.each_visit_map fun included => visitor.visit_eq (.protocolInclude included),
    visitor.each_visit_map visitor.visit_typeDecl,
    visitor.each_visit_map fun brought => visitor.visit_eq (.usingType brought),
    visitor.each_visit_map visitor.visit_protocol]
  rfl

end Visitor

/-! ## What is noted -/

/-- What holds of a node if it holds of the nodes right inside it holds of every node. -/
theorem Node.induction_on_parts {motive : Node → Prop}
    (step : ∀ node, (∀ part ∈ node.parts, motive part) → motive node) (node : Node) :
    motive node :=
  step node fun part _ => induction_on_parts step part
termination_by node.rank
decreasing_by exact rank_lt_of_part ‹_›

theorem Node.around_of_place {place : Place} {around : List Node} {node : Node}
    (member : place ∈ node.places around) : around <:+ place.around := by
  induction node using induction_on_parts generalizing around with
  | step node ih =>
      rw [places_eq] at member
      rcases List.mem_cons.mp member with rfl | inside
      · exact List.suffix_refl around
      · obtain ⟨part, listed, deeper⟩ := List.mem_flatMap.mp inside
        exact (List.suffix_cons node around).trans (ih part listed deeper)

/-- A visitor notes nodes of its choice, and walks on at nodes of its choice. -/
structure Visitor.Notes (visitor : Visitor (List Node)) (notes enters : Node → Bool) : Prop where
  method : ∀ (node : Node) (walk : List Node → List Node) (seen : List Node),
    (node.parts = [] → walk = id) →
      visitor.method node walk seen =
        (if enters node then walk else id) (if notes node then seen ++ [node] else seen)

namespace Visitor.Notes

variable {visitor : Visitor (List Node)} {notes enters : Node → Bool}

/-- The nodes of places that are noted and stand in nodes that are walked through. -/
def noted (notes enters : Node → Bool) (places : List Node.Place) : List Node :=
  ((places.filter fun place => place.around.all enters).map Node.Place.node).filter notes

theorem filter_of_open (always : ∀ node, enters node = true) (places : List Node.Place) :
    (places.filter fun place => place.around.all enters) = places := by
  apply List.filter_eq_self.mpr
  intro place _
  exact List.all_eq_true.mpr fun node _ => always node

theorem noted_append (first later : List Node.Place) :
    noted notes enters (first ++ later) = noted notes enters first ++ noted notes enters later := by
  simp only [noted, List.filter_append, List.map_append]

/-- Nothing is noted inside a node that is not walked through. -/
theorem noted_of_closed {node : Node} (closed : enters node = false) (around : List Node)
    (parts : List Node) :
    noted notes enters (parts.flatMap fun part => part.places (node :: around)) = [] := by
  have hidden : (parts.flatMap fun part => part.places (node :: around)).filter
      (fun place => place.around.all enters) = [] := by
    apply List.filter_eq_nil_iff.mpr
    intro place member through
    obtain ⟨part, _, inside⟩ := List.mem_flatMap.mp member
    have outer := (Node.around_of_place inside).subset List.mem_cons_self
    have entered := List.all_eq_true.mp through node outer
    rw [closed] at entered
    cases entered
  rw [noted, hidden]
  rfl

theorem noted_flatMap (parts : List Node) (places : Node → List Node.Place) :
    noted notes enters (parts.flatMap places) =
      parts.flatMap fun part => noted notes enters (places part) := by
  induction parts with
  | nil => rfl
  | cons part parts ih => rw [List.flatMap_cons, List.flatMap_cons, noted_append, ih]

theorem noted_places (node : Node) {around : List Node} (reached : around.all enters = true) :
    noted notes enters (node.places around) =
      (if notes node then [node] else []) ++
        if enters node then
          node.parts.flatMap fun part => noted notes enters (part.places (node :: around))
        else [] := by
  have own : noted notes enters [⟨around, node⟩] = if notes node then [node] else [] := by
    have kept : [(⟨around, node⟩ : Node.Place)].filter (fun place => place.around.all enters) =
        [⟨around, node⟩] := List.filter_cons_of_pos reached
    rw [noted, kept]
    exact List.filter_cons
  rw [Node.places_eq, ← List.singleton_append, noted_append, own]
  congr 1
  cases entered : enters node with
  | false => exact noted_of_closed entered around node.parts
  | true => exact noted_flatMap _ _

theorem each_visit {parts : List Node} {found : Node → List Node}
    (visits : ∀ part ∈ parts, ∀ seen, visitor.visit part seen = seen ++ found part)
    (seen : List Node) : each visitor.visit parts seen = seen ++ parts.flatMap found := by
  induction parts generalizing seen with
  | nil => exact (List.append_nil seen).symm
  | cons part parts ih =>
      change each visitor.visit parts (visitor.visit part seen) = _
      rw [visits part List.mem_cons_self,
        ih fun other member => visits other (List.mem_cons_of_mem _ member), List.flatMap_cons,
        List.append_assoc]

theorem visit (chosen : visitor.Notes notes enters) (node : Node) {around : List Node}
    (reached : around.all enters = true) (seen : List Node) :
    visitor.visit node seen = seen ++ noted notes enters (node.places around) := by
  induction node using Node.induction_on_parts generalizing around seen with
  | step node ih =>
      have idle : node.parts = [] → each visitor.visit node.parts = id := by
        intro empty
        rw [empty]
        rfl
      have here : (if notes node then seen ++ [node] else seen) =
          seen ++ if notes node then [node] else [] := by
        split <;> simp
      rw [visit_eq, chosen.method node _ seen idle, here, noted_places node reached,
        ← List.append_assoc]
      cases entered : enters node with
      | false => exact (List.append_nil _).symm
      | true =>
          have within : (node :: around).all enters = true := by
            rw [List.all_cons, entered, reached]
            rfl
          exact each_visit (fun part member seen => ih part member within seen) _

end Visitor.Notes

theorem Visitor.recording_notes (stops : List NodeKind) :
    (recording stops).Notes (fun _ => true) fun node => decide (node.kind ∉ stops) := by
  constructor
  intro node walk seen idle
  have noted : (recording stops).method node walk seen = note stops node walk seen := by
    cases node with
    | unit | struct | field | union | protocol | message | param | statement | transition => rfl
    | _ =>
        rw [idle rfl]
        exact (ite_self _).symm
  rw [noted, note]
  by_cases stopped : node.kind ∈ stops
  · simp [stopped]
  · simp [stopped]

theorem Visitor.ofLeaves_notes :
    ofLeaves.Notes (fun node => node.kind == .typeRef || node.kind == .state)
      fun _ => true := by
  constructor
  intro node walk seen idle
  cases node with
  | unit | struct | field | union | protocol | message | param | statement | transition => rfl
  | _ =>
      rw [idle rfl]
      rfl

namespace SourceUnit

/-- The places of all nodes of a unit that are visited. -/
def places (unit : SourceUnit) : List Node.Place :=
  (Node.unit unit).places []

theorem trace_eq (unit : SourceUnit) (stops : List NodeKind) :
    unit.trace stops =
      (unit.places.filter fun place =>
        place.around.all fun outer => decide (outer.kind ∉ stops)).map Node.Place.node := by
  unfold trace
  rw [← Visitor.visit_unit, (Visitor.recording_notes stops).visit _ List.all_nil []]
  exact List.filter_eq_self.mpr fun _ _ => rfl

theorem trace_all (unit : SourceUnit) : unit.trace [] = unit.places.map Node.Place.node := by
  rw [trace_eq]
  congr 1
  exact Visitor.Notes.filter_of_open (fun _ => rfl) _

theorem leaves_eq (unit : SourceUnit) :
    unit.leaves =
      (unit.trace []).filter fun node => node.kind == .typeRef || node.kind == .state := by
  unfold leaves
  rw [← Visitor.visit_unit, Visitor.ofLeaves_notes.visit _ List.all_nil [], trace_all,
    Visitor.Notes.noted, Visitor.Notes.filter_of_open fun _ => rfl]
  rfl

end SourceUnit

/-! ## Every node is visited -/

namespace Node

/-- The id of a node, unless it is written down nowhere. -/
def ownIds : Node → List NodeId
  | statement node => if node.isSynthesized then [] else [node.id]
  | transition node => if node.isSynthesized then [] else [node.id]
  | state node => node.writtenIds
  | node => [node.id]

/-- The ids of what stands in a node but is not visited: a type brought in, the namespaces of a
structure or a union, the ends of a bridge, the state that a type asks for. -/
def unvisitedIds : Node → List NodeId
  | usingType node => node.type.writtenIds
  | struct node | union node => node.namespaces.map Ident.id
  | bridges node => [node.parent.id, node.child.id]
  | typeRef node => node.state.toList.flatMap State.writtenIds
  | _ => []

/-- The ids of a node and of all that stands in it. -/
def idsWithin (around : List Node) (node : Node) : List NodeId :=
  (node.places around).flatMap fun place => place.node.ownIds ++ place.node.unvisitedIds

theorem idsWithin_eq (around : List Node) (node : Node) :
    node.idsWithin around =
      node.ownIds ++ node.unvisitedIds ++ node.parts.flatMap (idsWithin (node :: around)) := by
  rw [idsWithin, places_eq, List.flatMap_cons, List.flatMap_assoc]
  rfl

variable (around : List Node)

theorem idsWithin_state (node : State) : (state node).idsWithin around = node.writtenIds := by
  rw [idsWithin_eq]
  simp [ownIds, unvisitedIds, parts]

theorem idsWithin_typeRef (node : TypeRef) :
    (typeRef node).idsWithin around = node.writtenIds := by
  rw [idsWithin_eq]
  simp [ownIds, unvisitedIds, parts, TypeRef.writtenIds, id]

theorem idsWithin_member {node : Node} {member : Member}
    (typed : node.parts = [typeRef member.type])
    (own : node.ownIds ++ node.unvisitedIds = [member.id]) :
    node.idsWithin around = member.writtenIds := by
  rw [idsWithin_eq, typed, own, List.flatMap_singleton, idsWithin_typeRef]
  rfl

theorem idsWithin_field (node : Member) : (field node).idsWithin around = node.writtenIds :=
  idsWithin_member around rfl rfl

theorem idsWithin_param (node : Member) : (param node).idsWithin around = node.writtenIds :=
  idsWithin_member around rfl rfl

theorem idsWithin_typeDecl (decl : TypeDecl) :
    decl.node.idsWithin around = decl.writtenIds := by
  rw [idsWithin_eq]
  unfold TypeDecl.node TypeDecl.writtenIds TypeBody.writtenIds
  cases body : decl.body with
  | struct fields =>
      simp [ownIds, unvisitedIds, parts, body, TypeBody.parts, List.flatMap_map,
        idsWithin_field, id]
  | union components =>
      simp [ownIds, unvisitedIds, parts, body, TypeBody.parts, List.flatMap_map,
        idsWithin_typeRef, id]

theorem idsWithin_message (node : Message) : (message node).idsWithin around = node.writtenIds := by
  rw [idsWithin_eq]
  simp [ownIds, unvisitedIds, parts, List.flatMap_map, idsWithin_param, Message.writtenIds, id]

theorem idsWithin_transition (node : Transition) :
    (transition node).idsWithin around = node.writtenIds := by
  rw [idsWithin_eq]
  simp [ownIds, unvisitedIds, parts, List.flatMap_map, idsWithin_state, Transition.writtenIds]

theorem idsWithin_statement (node : Statement) :
    (statement node).idsWithin around = node.writtenIds := by
  rw [idsWithin_eq]
  simp [ownIds, unvisitedIds, parts, List.flatMap_map, idsWithin_state, idsWithin_transition,
    Statement.writtenIds]

theorem idsWithin_of_leaf {node : Node} (leaf : node.parts = []) :
    node.idsWithin around = node.ownIds ++ node.unvisitedIds := by
  rw [idsWithin_eq, leaf]
  exact List.append_nil _

theorem idsWithin_bridges (node : Bridges) : (bridges node).idsWithin around = node.writtenIds :=
  idsWithin_of_leaf around rfl

theorem idsWithin_usingType (node : UsingType) :
    (usingType node).idsWithin around = node.writtenIds :=
  idsWithin_of_leaf around rfl

theorem flatMap_idsWithin {Item : Type} {wrap : Item → Node} {ids : Item → List NodeId}
    (same : ∀ item, (wrap item).idsWithin around = ids item) (items : List Item) :
    (items.map wrap).flatMap (idsWithin around) = items.flatMap ids := by
  rw [List.flatMap_map]
  simp only [same]

/-- Nodes that nothing stands in have their own ids only. -/
theorem flatMap_idsWithin_of_bare {Item : Type} (wrap : Item → Node) (id : Item → NodeId)
    (leaf : ∀ item, (wrap item).parts = [])
    (own : ∀ item, (wrap item).ownIds ++ (wrap item).unvisitedIds = [id item])
    (items : List Item) : (items.map wrap).flatMap (idsWithin around) = items.map id := by
  rw [flatMap_idsWithin around fun item => (idsWithin_of_leaf around (leaf item)).trans (own item)]
  exact List.map_eq_flatMap.symm

theorem idsWithin_protocol (node : Protocol) :
    (protocol node).idsWithin around = node.writtenIds := by
  rw [idsWithin_eq]
  dsimp only [parts]
  simp only [List.flatMap_append]
  rw [flatMap_idsWithin_of_bare _ scopeName Ident.id (fun _ => rfl) fun _ => rfl,
    flatMap_idsWithin_of_bare _ spawns Spawns.id (fun _ => rfl) fun _ => rfl,
    flatMap_idsWithin _ (idsWithin_bridges _),
    flatMap_idsWithin_of_bare _ manager Ident.id (fun _ => rfl) fun _ => rfl,
    flatMap_idsWithin_of_bare _ managed Ident.id (fun _ => rfl) fun _ => rfl,
    flatMap_idsWithin _ (idsWithin_message _), flatMap_idsWithin _ (idsWithin_statement _)]
  rfl

/-- The types brought in are visited after the types declared. -/
theorem idsWithin_unit (node : SourceUnit) :
    ((unit node).idsWithin around).Perm node.writtenIds := by
  rw [idsWithin_eq]
  dsimp only [parts]
  simp only [List.flatMap_append]
  rw [flatMap_idsWithin_of_bare _ headerInclude HeaderInclude.id (fun _ => rfl) fun _ => rfl,
    flatMap_idsWithin_of_bare _ protocolInclude ProtocolInclude.id (fun _ => rfl) fun _ => rfl,
    flatMap_idsWithin _ (idsWithin_typeDecl _), flatMap_idsWithin _ (idsWithin_usingType _),
    flatMap_idsWithin _ (idsWithin_protocol _)]
  have swapped : (node.types.flatMap TypeDecl.writtenIds ++
      node.usings.flatMap UsingType.writtenIds).Perm (node.usings.flatMap UsingType.writtenIds ++
        node.types.flatMap TypeDecl.writtenIds) := List.perm_append_comm
  have whole := (swapped.append_left (node.headers.map HeaderInclude.id ++
    node.includes.map ProtocolInclude.id)).append_right
      (node.protocol.toList.flatMap Protocol.writtenIds)
  rw [← List.append_assoc, ← List.append_assoc] at whole
  exact whole.cons node.id

end Node

namespace SourceUnit

theorem perm_writtenIds (unit : SourceUnit) :
    ((unit.trace []).flatMap fun node => node.ownIds ++ node.unvisitedIds).Perm
      unit.writtenIds := by
  rw [trace_all, List.flatMap_map]
  exact Node.idsWithin_unit [] unit

/-- A walk that notes every node finds the whole unit, every node before those inside it, and
once, but for what is not visited. One that notes types and states finds those of them, in
the same order. One that does not go on at some nodes misses what stands inside them. -/
theorem trace_walks_unit (unit : SourceUnit) :
    unit.trace [] = unit.places.map Node.Place.node ∧
      ((unit.trace []).flatMap fun node => node.ownIds ++ node.unvisitedIds).Perm
        unit.writtenIds ∧
      unit.leaves =
        (unit.trace []).filter (fun node => node.kind == .typeRef || node.kind == .state) ∧
      ∀ stops, unit.trace stops =
        (unit.places.filter fun place =>
          place.around.all fun outer => decide (outer.kind ∉ stops)).map Node.Place.node :=
  ⟨unit.trace_all, unit.perm_writtenIds, unit.leaves_eq, unit.trace_eq⟩

/-- The protocol is noted and nothing in it. -/
example : ((channelUnit "Blob").trace [.protocol]).map Node.kind =
    [.unit, .protocolInclude, .struct, .struct, .field, .typeRef, .usingType, .protocol] := by
  decide

end SourceUnit

end ActorProtocol

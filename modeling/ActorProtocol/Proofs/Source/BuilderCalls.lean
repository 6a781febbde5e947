import Mathlib.Data.List.Nodup
import ActorProtocol.Source.Builder
import ActorProtocol.Proofs.Source.Numbering

/-!
# Calls of a builder

Every call of a builder takes the next ids, one for each node that it makes and that is no
sentinel. The node that it returns comes last. What stands in it is what the call made and
what it was given, so the ids in it are those that were taken and those that came with the
nodes given.
-/

namespace ActorProtocol

set_option autoImplicit false

namespace Build

/-! ## Calls -/

/-- What a builder makes. -/
inductive Piece where
  | sourceUnit (unit : SourceUnit)
  | headerInclude (header : HeaderInclude)
  | protocolInclude (included : ProtocolInclude)
  | usingType (brought : UsingType)
  | typeDecl (decl : TypeDecl)
  | member (member : Member)
  | protocol (protocol : Protocol)
  | spawns (spawns : Spawns)
  | bridges (bridges : Bridges)
  | ident (name : Ident)
  | message (message : Message)
  | typeRef (type : TypeRef)
  | statement (statement : Statement)
  | transition (transition : Transition)
  | state (state : State)
  deriving DecidableEq

namespace Piece

def id : Piece → NodeId
  | sourceUnit node => node.id
  | headerInclude node => node.id
  | protocolInclude node => node.id
  | usingType node => node.id
  | typeDecl node => node.id
  | member node => node.id
  | protocol node => node.id
  | spawns node => node.id
  | bridges node => node.id
  | ident node => node.id
  | message node => node.id
  | typeRef node => node.id
  | statement node => node.id
  | transition node => node.id
  | state node => node.id

/-- The id of a piece, which a sentinel under the shared id does not have. -/
def ownIds : Piece → List NodeId
  | state node => node.writtenIds
  | piece => [piece.id]

/-- The ids of all nodes in a piece that are written down. -/
def writtenIds : Piece → List NodeId
  | sourceUnit node => node.writtenIds
  | usingType node => node.writtenIds
  | typeDecl node => node.writtenIds
  | member node => node.writtenIds
  | protocol node => node.writtenIds
  | bridges node => node.writtenIds
  | message node => node.writtenIds
  | typeRef node => node.writtenIds
  | statement node => node.writtenIds
  | transition node => node.writtenIds
  | state node => node.writtenIds
  | piece => [piece.id]

theorem ownIds_cases (piece : Piece) :
    piece.ownIds = [piece.id] ∨ piece.ownIds = [] ∧ piece.id = .synthetic := by
  cases piece with
  | state node =>
      by_cases shared : node.id = .synthetic
      · cases hidden : node.isSynthesized with
        | true => exact Or.inr ⟨by simp [ownIds, State.writtenIds, hidden], shared⟩
        | false => exact Or.inl (by simp [ownIds, State.writtenIds, hidden, id])
      · exact Or.inl (State.writtenIds_of_nonzero shared)
  | _ => exact Or.inl rfl

end Piece

/-- What a call returns, and what it makes for that on the way. -/
structure Made where
  nested : List Piece
  returned : Option Piece
  deriving DecidableEq

namespace Made

def pieces (made : Made) : List Piece :=
  made.nested ++ made.returned.toList

def ids (made : Made) : List NodeId :=
  made.pieces.flatMap Piece.ownIds

end Made

/-- A call of a builder, with the nodes that it is given. -/
inductive Call where
  | atLine (line : Nat)
  | sourceUnit
  | headerInclude (file : String)
  | protocolInclude (protocol : String)
  | usingType (spelling : String)
  | usingOf (type : TypeRef)
  | ident (name : String)
  | typeDecl (name : String) (body : TypeBody)
  | member (type : TypeRef) (name : String)
  | protocol (name : String)
  | spawns (side : Side) (protocol : String) (spawnedAs : Side)
  | bridges (parent child : String)
  | message (name : String) (semantics : Semantics) (direction : Direction)
  | typeRef (spelling : String)
  | actorType (protocol state : String)
  | state (name : String) (start : Bool)
  | stateRef (name : String)
  | transitionTo (trigger : Option Trigger) (message : Option String) (destinations : List State)
  | transition (trigger : Trigger) (message : String) (destinations : List String)
  | statement (state : State) (transitions : List Transition)

/-- Makes the nodes of a call and lists them. -/
def listing {Item : Type} (wrap : Item → Piece) (nested : Item → List Piece)
    (action : Build Item) : Build Made := do
  let item ← action
  return ⟨nested item, some (wrap item)⟩

/-- How many ids the names of states take. The sentinels take none. -/
def stateIds (names : List String) : Nat :=
  names.countP fun name => !State.isSentinelName name

theorem stateIds_cons (name : String) (rest : List String) :
    stateIds (name :: rest) = stateIds [name] + stateIds rest := by
  rw [← List.singleton_append]
  exact List.countP_append

namespace Call

def run : Call → Build Made
  | .atLine line => do
      Build.atLine line
      return ⟨[], none⟩
  | .sourceUnit => listing .sourceUnit (fun _ => []) Build.sourceUnit
  | .headerInclude file => listing .headerInclude (fun _ => []) (Build.headerInclude file)
  | .protocolInclude name =>
      listing .protocolInclude (fun _ => []) (Build.protocolInclude name)
  | .usingType spelling =>
      listing .usingType (fun brought => [.typeRef brought.type]) (Build.usingType spelling)
  | .usingOf type => listing .usingType (fun _ => []) (Build.usingOf type)
  | .ident name => listing .ident (fun _ => []) (Build.ident name)
  | .typeDecl name body => listing .typeDecl (fun _ => []) (Build.typeDecl name body)
  | .member type name => listing .member (fun _ => []) (Build.member type name)
  | .protocol name => listing .protocol (fun _ => []) (Build.protocol name)
  | .spawns side name spawnedAs =>
      listing .spawns (fun _ => []) (Build.spawns side name spawnedAs)
  | .bridges parent child =>
      listing .bridges (fun built => [.ident built.parent, .ident built.child])
        (Build.bridges parent child)
  | .message name semantics direction =>
      listing .message (fun _ => []) (Build.message name semantics direction)
  | .typeRef spelling => listing .typeRef (fun _ => []) (Build.typeRef spelling)
  | .actorType name asked =>
      listing .typeRef (fun type => type.state.toList.map .state) (Build.actorType name asked)
  | .state name start => listing .state (fun _ => []) (Build.state name start)
  | .stateRef name => listing .state (fun _ => []) (Build.stateRef name)
  | .transitionTo trigger name destinations =>
      listing .transition (fun _ => []) (Build.transitionTo trigger name destinations)
  | .transition trigger name destinations =>
      listing .transition (fun built => built.destinations.map .state)
        (Build.transition trigger name destinations)
  | .statement source transitions =>
      listing .statement (fun _ => []) (Build.statement source transitions)

/-- How many ids a call takes. -/
def allocations : Call → Nat
  | .atLine _ => 0
  | .usingType _ => 2
  | .bridges _ _ => 3
  | .actorType _ asked => stateIds [asked] + 1
  | .stateRef name => stateIds [name]
  | .transition _ _ destinations => stateIds destinations + 1
  | _ => 1

/-- The ids in the nodes that a call is given. -/
def givenIds : Call → List NodeId
  | .usingOf type => type.writtenIds
  | .typeDecl _ body => body.writtenIds
  | .member type _ => type.writtenIds
  | .transitionTo _ _ destinations => destinations.flatMap State.writtenIds
  | .statement source transitions =>
      source.writtenIds ++ transitions.flatMap Transition.writtenIds
  | _ => []

end Call

def runAll : List Call → Build (List Made)
  | [] => return []
  | call :: calls => return (← call.run) :: (← runAll calls)

def allocations : List Call → Nat
  | [] => 0
  | call :: calls => call.allocations + allocations calls

/-! ## Taking ids -/

def idsFrom (first count : Nat) : List NodeId :=
  (List.range' first count).map NodeId.mk

@[simp] theorem length_idsFrom (first count : Nat) : (idsFrom first count).length = count := by
  simp [idsFrom]

theorem idsFrom_add (first count more : Nat) :
    idsFrom first (count + more) = idsFrom first count ++ idsFrom (first + count) more := by
  rw [idsFrom, ← List.range'_append_1, List.map_append]
  rfl

theorem mem_idsFrom_iff {first count : Nat} {id : NodeId} :
    id ∈ idsFrom first count ↔ first ≤ id.value ∧ id.value < first + count := by
  simp only [idsFrom, List.mem_map, List.mem_range'_1]
  constructor
  · rintro ⟨value, bounds, rfl⟩
    exact bounds
  · intro bounds
    exact ⟨id.value, bounds, rfl⟩

theorem nodup_idsFrom (first count : Nat) : (idsFrom first count).Nodup := by
  apply List.Nodup.map _ List.nodup_range'
  intro left right same
  exact congrArg NodeId.value same

theorem ascending_idsFrom (first count : Nat) :
    (idsFrom first count).Pairwise fun left right => left.value < right.value :=
  List.pairwise_map.mpr List.pairwise_lt_range'

section Taking

variable {Item Other : Type}

/-- Run by a builder that has as many ids left, the action takes the next ones, in their order,
and gives a result that goes with them. -/
def Takes (action : Build Item) (count : Nat) (good : List NodeId → Item → Prop) : Prop :=
  ∀ builder : Builder, 0 < builder.nextId.toNat → builder.nextId.toNat + count < UInt32.size →
    (action.run builder).2.nextId.toNat = builder.nextId.toNat + count ∧
      good (idsFrom builder.nextId.toNat count) (action.run builder).1

theorem Takes.pure {item : Item} {good : List NodeId → Item → Prop} (fits : good [] item) :
    Takes (Pure.pure item) 0 good :=
  fun _ _ _ => ⟨rfl, fits⟩

theorem Takes.bind {action : Build Item} {next : Item → Build Other} {count more : Nat}
    {good : List NodeId → Item → Prop} {better : List NodeId → Other → Prop}
    (takes : Takes action count good)
    (further : ∀ ids item, good ids item →
      Takes (next item) more fun later other => better (ids ++ later) other) :
    Takes (action >>= next) (count + more) better := by
  intro builder started room
  obtain ⟨counted, fits⟩ := takes builder started (by omega)
  obtain ⟨countedOn, fitsOn⟩ :=
    further _ _ fits (action.run builder).2 (by omega) (by omega)
  rw [counted] at countedOn fitsOn
  rw [idsFrom_add]
  exact ⟨countedOn.trans (Nat.add_assoc _ _ _), fitsOn⟩

theorem Takes.map {action : Build Item} {count : Nat} {good : List NodeId → Item → Prop}
    {better : List NodeId → Other → Prop} (takes : Takes action count good)
    (change : Item → Other) (fits : ∀ ids item, good ids item → better ids (change item)) :
    Takes (do return change (← action)) count better := by
  intro builder started room
  obtain ⟨counted, good⟩ := takes builder started room
  exact ⟨counted, fits _ _ good⟩

theorem takes_freshId : Takes freshId 1 fun ids id => ids = [id] ∧ id ≠ .synthetic := by
  intro builder started room
  refine ⟨?_, rfl, ?_⟩
  · change (builder.nextId + 1).toNat = _
    rw [UInt32.toNat_add]
    exact Nat.mod_eq_of_lt room
  · intro same
    have shared : builder.nextId.toNat = 0 := congrArg NodeId.value same
    omega

/-- The room is needed: after the last id comes the shared one. -/
example : (freshId.run ⟨"PChannel.ipdl", 1, 4294967295⟩).2.nextId = 0 := by decide

/-- A node with an id of its own and the location that the builder is at. -/
theorem takes_stamped {good : List NodeId → Item → Prop} (make : NodeId → Location → Item)
    (fits : ∀ id loc, id ≠ .synthetic → good [id] (make id loc)) :
    Takes (do return make (← freshId) (← location)) 1 good := by
  intro builder started room
  obtain ⟨counted, _, nonzero⟩ := takes_freshId builder started room
  exact ⟨counted, fits _ _ nonzero⟩

end Taking

/-! ## What is taken for a node -/

theorem takes_sourceUnit :
    Takes sourceUnit 1 fun ids unit => ids = [unit.id] ∧ unit.writtenIds = [unit.id] := by
  intro builder started room
  exact ⟨(takes_freshId builder started room).1, rfl, rfl⟩

theorem takes_ident (name : String) : Takes (ident name) 1 fun ids name => ids = [name.id] :=
  takes_stamped (Ident.mk · name ·) fun _ _ _ => rfl

theorem takes_state (name : String) (start : Bool) :
    Takes (state name start) 1 fun ids state => state.writtenIds = ids :=
  takes_stamped (State.mk · name start ·) fun _ _ nonzero => State.writtenIds_of_nonzero nonzero

/-- The sentinels take no id. -/
theorem takes_stateRef (name : String) :
    Takes (stateRef name) (stateIds [name]) fun ids state => state.writtenIds = ids := by
  by_cases any : name = State.anyName
  · have sentinel : stateRef name = return .any := if_pos any
    rw [sentinel, any]
    exact .pure rfl
  · by_cases dead : name = State.deadName
    · have sentinel : stateRef name = return .dead := (if_neg any).trans (if_pos dead)
      rw [sentinel, dead]
      exact .pure rfl
    · have ordinary : stateRef name = state name false := (if_neg any).trans (if_neg dead)
      have single : stateIds [name] = 1 := by
        simp [stateIds, State.isSentinelName, any, dead]
      rw [ordinary, single]
      exact takes_state name false

theorem takes_stateRefs (names : List String) :
    Takes (stateRefs names) (stateIds names)
      fun ids states => states.flatMap State.writtenIds = ids := by
  induction names with
  | nil => exact .pure rfl
  | cons name rest ih =>
      rw [stateIds_cons]
      apply (takes_stateRef name).bind
      intro ids first own
      apply ih.map
      intro later states ownLater
      rw [List.flatMap_cons, own, ownLater]

theorem takes_typeRef (spelling : String) :
    Takes (typeRef spelling) 1 fun ids type => ids = [type.id] ∧ type.state = none :=
  takes_stamped (TypeRef.mk · (.parse spelling) none false false none none ·)
    fun _ _ _ => ⟨rfl, rfl⟩

theorem takes_actorType (protocol state : String) :
    Takes (actorType protocol state) (stateIds [state] + 1) fun ids type =>
      ∃ state, type.state = some state ∧ ids = state.writtenIds ++ [type.id] := by
  apply (takes_stateRef state).bind
  intro ids state own
  apply (takes_typeRef protocol).map
  rintro later type ⟨ownLater, _⟩
  exact ⟨state, rfl, by rw [own, ownLater]⟩

theorem takes_usingType (spelling : String) :
    Takes (usingType spelling) (1 + 1) fun ids brought =>
      ids = [brought.type.id, brought.id] ∧ brought.type.state = none := by
  apply (takes_typeRef spelling).bind
  rintro ids type ⟨own, plain⟩
  exact takes_stamped (UsingType.mk · type ·) fun _ _ _ => ⟨by rw [own]; rfl, plain⟩

theorem takes_bridges (parent child : String) :
    Takes (bridges parent child) (1 + (1 + 1)) fun ids bridges =>
      ids = [bridges.parent.id, bridges.child.id, bridges.id] := by
  apply (takes_ident parent).bind
  intro ids parent own
  apply (takes_ident child).bind
  intro later child ownLater
  exact takes_stamped (Bridges.mk · parent child ·) fun _ _ _ => by rw [own, ownLater]; rfl

theorem takes_transition (trigger : Trigger) (message : String) (destinations : List String) :
    Takes (transition trigger message destinations) (stateIds destinations + 1)
      fun ids transition => transition.id ≠ .synthetic ∧
        ids = transition.destinations.flatMap State.writtenIds ++ [transition.id] := by
  apply (takes_stateRefs destinations).bind
  intro ids states own
  exact takes_stamped (Transition.mk · (some trigger) (some message) states ·)
    fun _ _ nonzero => ⟨nonzero, by rw [own]⟩

/-! ## What a call takes -/

/-- The call made its nodes under the ids that it took, and returned them together with what
it was given. -/
structure Made.Fits (made : Made) (given ids : List NodeId) : Prop where
  own : made.ids = ids
  whole : (made.returned.toList.flatMap Piece.writtenIds).Perm (ids ++ given)
  last : ∀ outer ∈ made.returned, made.nested = [] ∨ outer.ownIds = [outer.id]

/-- A call that makes one node, of what it is given. -/
theorem Made.Fits.alone {piece : Piece} {given ids : List NodeId} (own : piece.ownIds = ids)
    (whole : piece.writtenIds = ids ++ given) : Made.Fits ⟨[], some piece⟩ given ids where
  own := by simp [Made.ids, Made.pieces, own]
  whole := by simp [whole]
  last _ _ := Or.inl rfl

/-- A call that makes nodes for the one that it returns. -/
theorem Made.Fits.around {nested : List Piece} {outer : Piece} (inner : List NodeId)
    (inside : nested.flatMap Piece.ownIds = inner) (own : outer.ownIds = [outer.id])
    (whole : outer.writtenIds = outer.id :: inner) :
    Made.Fits ⟨nested, some outer⟩ [] (inner ++ [outer.id]) where
  own := by simp [Made.ids, Made.pieces, inside, own]
  whole := by
    simp only [Option.toList_some, List.flatMap_singleton, whole, List.append_nil]
    exact (List.perm_append_singleton outer.id inner).symm
  last := by
    intro _ returned
    cases returned
    exact Or.inr own

theorem takes_alone {Item : Type} {given : List NodeId} (wrap : Item → Piece)
    (make : NodeId → Location → Item)
    (fits : ∀ id loc, id ≠ .synthetic → (wrap (make id loc)).ownIds = [id] ∧
      (wrap (make id loc)).writtenIds = id :: given) :
    Takes (listing wrap (fun _ => []) (do return make (← freshId) (← location))) 1
      fun ids made => made.Fits given ids := by
  have single : Takes (do return make (← freshId) (← location)) 1 fun ids item =>
      (wrap item).ownIds = ids ∧ (wrap item).writtenIds = ids ++ given :=
    takes_stamped make fits
  apply single.map
  rintro ids item ⟨own, whole⟩
  exact .alone own whole

theorem Call.takes_run (call : Call) :
    Takes call.run call.allocations fun ids made => made.Fits call.givenIds ids := by
  cases call with
  | atLine line =>
      intro builder started room
      refine ⟨rfl, rfl, .refl _, ?_⟩
      intro outer returned
      cases returned
  | sourceUnit =>
      apply takes_sourceUnit.map
      rintro ids unit ⟨rfl, whole⟩
      exact .alone rfl whole
  | headerInclude file =>
      exact takes_alone .headerInclude (HeaderInclude.mk · file ·) fun _ _ _ => ⟨rfl, rfl⟩
  | protocolInclude name =>
      exact takes_alone .protocolInclude
        (ProtocolInclude.mk · name (ProtocolInclude.defaultFile name) ·) fun _ _ _ => ⟨rfl, rfl⟩
  | usingType spelling =>
      apply (takes_usingType spelling).map
      rintro ids brought ⟨rfl, plain⟩
      apply Made.Fits.around [brought.type.id] rfl rfl
      simp [Piece.writtenIds, UsingType.writtenIds, TypeRef.writtenIds, plain, Piece.id]
  | usingOf type =>
      exact takes_alone .usingType (UsingType.mk · type ·) fun _ _ _ => ⟨rfl, rfl⟩
  | ident name => exact takes_alone .ident (Ident.mk · name ·) fun _ _ _ => ⟨rfl, rfl⟩
  | typeDecl name body =>
      exact takes_alone .typeDecl (TypeDecl.mk · name [] body ·) fun _ _ _ => ⟨rfl, rfl⟩
  | member type name =>
      exact takes_alone .member (Member.mk · name type ·) fun _ _ _ => ⟨rfl, rfl⟩
  | protocol name =>
      exact takes_alone .protocol (Protocol.mk · name [] .async [] [] [] [] [] [] ·)
        fun _ _ _ => ⟨rfl, rfl⟩
  | spawns side name spawnedAs =>
      exact takes_alone .spawns (Spawns.mk · side name spawnedAs ·) fun _ _ _ => ⟨rfl, rfl⟩
  | bridges parent child =>
      apply (takes_bridges parent child).map
      rintro ids bridges rfl
      exact .around [bridges.parent.id, bridges.child.id] rfl rfl rfl
  | message name semantics direction =>
      exact takes_alone .message (Message.mk · name semantics direction [] [] ·)
        fun _ _ _ => ⟨rfl, rfl⟩
  | typeRef spelling =>
      exact takes_alone .typeRef (TypeRef.mk · (.parse spelling) none false false none none ·)
        fun _ _ _ => ⟨rfl, rfl⟩
  | actorType name asked =>
      apply (takes_actorType name asked).map
      rintro ids type ⟨state, same, rfl⟩
      apply Made.Fits.around state.writtenIds _ rfl
      · simp [Piece.writtenIds, TypeRef.writtenIds, same, Piece.id]
      · simp [same, Piece.ownIds]
  | state name start =>
      apply (takes_state name start).map
      intro ids state own
      exact .alone own (own.trans (List.append_nil ids).symm)
  | stateRef name =>
      apply (takes_stateRef name).map
      intro ids state own
      exact .alone own (own.trans (List.append_nil ids).symm)
  | transitionTo trigger name destinations =>
      exact takes_alone .transition (Transition.mk · trigger name destinations ·)
        fun _ _ nonzero => ⟨rfl, Transition.writtenIds_of_nonzero nonzero⟩
  | transition trigger name destinations =>
      apply (takes_transition trigger name destinations).map
      rintro ids transition ⟨nonzero, rfl⟩
      have inside : (transition.destinations.map Piece.state).flatMap Piece.ownIds =
          transition.destinations.flatMap State.writtenIds := List.flatMap_map ..
      exact .around _ inside rfl (Transition.writtenIds_of_nonzero nonzero)
  | statement source transitions =>
      exact takes_alone .statement (Statement.mk · source transitions ·)
        fun _ _ nonzero => ⟨rfl, Statement.writtenIds_of_nonzero nonzero⟩

end Build

end ActorProtocol

import ActorProtocol.Proofs.Machine.Rejection
import ActorProtocol.Proofs.Naming.OwnDeclarations

/-!
# States of actors

A type keeps the state of an actor exactly if it stands for a protocol and nothing is
wrong with it: the state that it asks for, or any state when it asks for none. What can
be wrong with an annotation is that the type is no protocol, or that the protocol of the
unit has no such state; states of other protocols are not looked at here.
-/

namespace ActorProtocol

set_option autoImplicit false

/-- Whether an error is about the state that is asked of a type. -/
def NamingError.isStateError : NamingError → Bool
  | unknownState _ _ | notAnActorType _ _ => true
  | unknownType _ | unknownMessage _ | unknownProtocol _ | duplicateDecl _ | duplicateParam _ _ =>
      false

theorem NamingError.isFailure_of_isStateError (error : NamingError)
    (about : error.isStateError = true) : error.isFailure = true := by
  cases error <;> first | rfl | cases about

namespace Resolution

variable {resolution : Resolution} {names : Names} {home : Home} {node : NodeId} {state : State}

/-! ## Who is given a state -/

theorem actorState_of_setActorState {other : NodeId} {given : State}
    (kept : (resolution.setActorState other given).actorStates.find? node = some state) :
    other = node ∨ resolution.actorStates.find? node = some state := by
  have stored : (resolution.actorStates.insert other given).find? node = some state := kept
  rw [OrderedMap.find?_insert] at stored
  by_cases same : other = node
  · exact Or.inl same
  · rw [if_neg same] at stored
    exact Or.inr stored

theorem actorState_of_useType {type : TypeRef}
    (kept : (resolution.useType names home type).actorStates.find? node = some state) :
    type.id = node ∨ resolution.actorStates.find? node = some state := by
  have outcome := resolution.useType_cases names home type
  generalize resolution.useType names home type = after at outcome kept
  cases outcome with
  | unknown | plain | notActor | unknownState => exact Or.inr kept
  | anyState | foreignState => exact actorState_of_setActorState kept
  | ownState =>
      rcases actorState_of_setActorState kept with own | earlier
      · exact Or.inl own
      · right
        split at earlier <;> exact earlier

theorem actorState_of_useMember {kind : DeclId → DeclKind} {member : Member}
    (kept : (resolution.useMember names home kind member).actorStates.find? node = some state) :
    member.type.id = node ∨ resolution.actorStates.find? node = some state := by
  apply actorState_of_useType
  unfold useMember at kept
  dsimp only at kept
  split at kept <;> exact kept

theorem actorStates_useTransition (transition : Transition) :
    (resolution.useTransition names transition).actorStates = resolution.actorStates := by
  unfold useTransition
  split
  · rfl
  · dsimp only
    split
    all_goals
      obtain ⟨links, same⟩ := useDestinations_eq _ names transition.destinations
      rw [same]
      rfl

/-- A use gives a state to the type that it names alone. -/
theorem actorState_of_use {use : Use}
    (kept : (resolution.use names home use).actorStates.find? node = some state) :
    (∃ type, use.node? = some (.type type) ∧ type.id = node) ∨
      resolution.actorStates.find? node = some state := by
  have named : ∀ type : TypeRef, use.node? = some (.type type) →
      type.id = node ∨ resolution.actorStates.find? node = some state →
      (∃ type, use.node? = some (.type type) ∧ type.id = node) ∨
        resolution.actorStates.find? node = some state := by
    intro type names known
    rcases known with own | earlier
    · exact Or.inl ⟨type, names, own⟩
    · exact Or.inr earlier
  cases use with
  | openStruct struct => exact Or.inr kept
  | openMessage message =>
      right
      rw [← (resolution.openMessage_table message).2.2]
      exact kept
  | field member => exact named member.type rfl (actorState_of_useMember kept)
  | component type => exact named type rfl (actorState_of_useType kept)
  | param member => exact named member.type rfl (actorState_of_useMember kept)
  | protocolName name =>
      right
      change (resolution.useProtocolName names name).actorStates.find? node = some state at kept
      unfold useProtocolName at kept
      split at kept <;> exact kept
  | transition used =>
      right
      rw [← actorStates_useTransition used]
      exact kept

theorem actorState_of_useAll {uses : List Use}
    (kept : (resolution.useAll names home uses).actorStates.find? node = some state) :
    (∃ use ∈ uses, ∃ type, use.node? = some (.type type) ∧ type.id = node) ∨
      resolution.actorStates.find? node = some state := by
  induction uses generalizing resolution with
  | nil => exact Or.inr kept
  | cons use uses ih =>
      rcases ih kept with ⟨later, member, found⟩ | now
      · exact Or.inl ⟨later, List.mem_cons_of_mem _ member, found⟩
      · rcases actorState_of_use now with found | earlier
        · exact Or.inl ⟨use, List.mem_cons_self, found⟩
        · exact Or.inr earlier

end Resolution

/-! ## The protocol of the unit and its states -/

/-- The state that a binder makes known. -/
def Binder.stateName? : Binder → Option String
  | .sentinel state | .sourceState state => some state.name
  | .builtinType _ | .usingType _ | .typeDecl _ | .ownProtocol _ | .included _ | .message _ => none

namespace Bindings

variable {home : Home} {bindings : Bindings} {binder : Binder} {binders : List Binder}

theorem contains_states_bind {name : String} :
    (bindings.bind home binder).names.states.contains name = true ↔
      bindings.names.states.contains name = true ∨ binder.stateName? = some name := by
  have outcome := bind_cases home bindings binder
  generalize bindings.bind home binder = after at outcome ⊢
  cases outcome with
  | @sentinel state =>
      change (bindings.names.states.insert state.name _).contains name = true ↔ _
      rw [OrderedMap.contains_insert, Binder.stateName?, Option.some_inj, or_comm]
  | @sourceState state =>
      change (bindings.names.states.insert state.name _).contains name = true ↔ _
      rw [OrderedMap.contains_insert, Binder.stateName?, Option.some_inj, or_comm]
  | @sourceStateAgain state existing taken =>
      change bindings.names.states.contains name = true ↔ _
      rw [Binder.stateName?, Option.some_inj]
      constructor
      · exact Or.inl
      · rintro (known | same)
        · exact known
        · exact same ▸ OrderedMap.contains_of_find? taken
  | _ => exact (or_iff_left nofun).symm

theorem contains_states_iff {name : String} :
    (ofBinders home binders).names.states.contains name = true ↔
      ∃ binder ∈ binders, binder.stateName? = some name :=
  known_ofBinders_iff (fun bindings => bindings.names.states.contains name = true) nofun
    (fun _ _ => contains_states_bind) binders

/-- The protocol of the unit stays what it is when none is bound later. -/
theorem own_ofBinders (home : Home) (first : List Binder) (protocol : Protocol)
    {later : List Binder} (others : ∀ binder ∈ later, ∀ own, binder ≠ .ownProtocol own) :
    (ofBinders home (first ++ .ownProtocol protocol :: later)).names.own =
      some (ofBinders home first).table.nextId := by
  induction later using List.reverseRecOn with
  | nil =>
      rw [ofBinders_concat]
      rfl
  | append_singleton later binder ih =>
      rw [← List.cons_append, ← List.append_assoc, ofBinders_concat,
        own_bind_of_other (others binder (List.mem_append_right _ List.mem_cons_self))]
      exact ih fun earlier member => others earlier (List.mem_append_left _ member)

end Bindings

/-- Only types ask for states. -/
theorem UseNode.not_stateError_of_failure {node : UseNode} (other : node.type? = none)
    (error : NamingError) (failure : node.Failure error) : error.isStateError = false := by
  cases failure <;> first | rfl | cases other

namespace Resolved

variable (resolved : Resolved)

/-- A type that stands for a protocol and has nothing wrong with it. -/
structure NamesActor (type : TypeRef) : Prop where
  clean : resolved.isPoisoned type.id = false
  protocol : ∃ decl, resolved.decls.declOf? type.id = some decl ∧ decl.kind.isProtocol = true

/-- What is wrong with the state that a type asks for. -/
def stateError? (protocol : Protocol) (type : TypeRef) : Option (Located NamingError) :=
  type.state.bind fun state => (resolved.decls.declOf? type.id).bind fun decl =>
    if decl.kind.isProtocol then
      if resolved.decls.declOf? protocol.id = some decl ∧ ¬ protocol.HasState state.name then
        some ⟨.unknownState type.name.text state.name, type.loc⟩
      else none
    else some ⟨.notAnActorType type.name.text state.name, type.loc⟩

end Resolved

/-- The actors are given their states, and what is wrong with a state is reported. -/
structure SourceUnit.Stated (unit : SourceUnit) (protocol : Protocol)
    (reported : Reported Resolved NamingError) : Prop where
  recorded : ∀ node state, reported.value.actorState? node = some state ↔
    ∃ type ∈ unit.typeRefs, type.id = node ∧ reported.value.NamesActor type ∧
      state = type.state.getD .any
  errors : (reported.errors.filter fun error => error.error.isStateError) =
    unit.typeRefs.filterMap (reported.value.stateError? protocol)

namespace SourceUnit

variable {unit : SourceUnit} {protocol : Protocol} {extra : List String}

theorem contains_states_bindings_iff {name : String} :
    (unit.bindings protocol extra).names.states.contains name = true ↔ protocol.HasState name := by
  unfold bindings
  rw [Bindings.contains_states_iff]
  constructor
  · rintro ⟨binder, bound, named⟩
    cases binder with
    | sentinel state =>
        cases named
        have which : state = .any ∨ state = .dead := by simpa [binders] using bound
        rcases which with rfl | rfl
        · exact Or.inl rfl
        · exact Or.inr (Or.inl rfl)
    | sourceState state =>
        cases named
        have written : ∃ statement ∈ protocol.statements, statement.state = state := by
          simpa [binders] using bound
        obtain ⟨statement, member, rfl⟩ := written
        exact Or.inr (Or.inr ⟨statement, member, rfl⟩)
    | _ => cases named
  · rintro (rfl | rfl | ⟨statement, member, rfl⟩)
    · exact ⟨.sentinel .any, by simp [binders], rfl⟩
    · exact ⟨.sentinel .dead, by simp [binders], rfl⟩
    · refine ⟨.sourceState statement.state, ?_, rfl⟩
      exact List.mem_append_right _ (List.mem_map.mpr ⟨statement, member, rfl⟩)

/-- The protocol of the unit is what was bound after the plain types. -/
theorem own_bindings_eq (unit : SourceUnit) (protocol : Protocol) (extra : List String) :
    (unit.bindings protocol extra).names.own =
      some (Bindings.ofBinders (.ofProtocol protocol) (unit.plainBinders extra)).table.nextId := by
  rw [bindings_eq]
  exact Bindings.own_ofBinders _ _ protocol fun _ member => ne_ownProtocol_of_later member

/-- A type that is known is a protocol in the end if it was bound as one. -/
theorem isProtocol_bindings {name : QualifiedName} {id : DeclId} {decl : Decl}
    (found : (unit.bindings protocol extra).names.type? (.ofProtocol protocol) name = some id)
    (known : (unit.resolution protocol extra).table.decl? id = some decl) :
    (unit.bindings protocol extra).isProtocol id = decl.kind.isProtocol := by
  have same := (unit.continues_resolution protocol extra).isProtocol_eq
    (unit.explained_bindings protocol extra) found
  rw [← same, Resolution.isProtocol, known]
  rfl

namespace Numbered

theorem linkOf?_protocol (numbered : unit.Numbered) (described : unit.protocol = some protocol)
    (extra : List String) :
    (unit.resolution protocol extra).table.linkOf? protocol.id =
      (unit.bindings protocol extra).names.own := by
  have bound : .ownProtocol protocol ∈ unit.binders protocol extra :=
    ownProtocol_mem_binders.mpr rfl
  have declaring : (Binder.ownProtocol protocol).declaringNode? = some protocol.id := rfl
  obtain ⟨unbound, unused⟩ := numbered.binder_node_alone described
    (unit.binders_eq protocol extra) List.mem_cons_self
    (numbered.nonzero _ (written_of_declaringNode? described bound declaring))
  have made := Bindings.declaration_of_binder (.ofProtocol protocol) (unit.plainBinders extra)
    declaring unbound
  rw [← bindings_eq] at made
  exact (linkOf?_resolutionAfter unused).trans
    (made.1.trans (unit.own_bindings_eq protocol extra).symm)

theorem own_iff (numbered : unit.Numbered) (described : unit.protocol = some protocol)
    {id : DeclId} {decl : Decl}
    (known : (unit.resolution protocol extra).table.decl? id = some decl) :
    (unit.bindings protocol extra).names.own = some id ↔
      (unit.resolved protocol extra).decls.declOf? protocol.id = some decl := by
  have link := numbered.linkOf?_protocol described extra
  have sound := (unit.continues_resolution protocol extra).sound
  constructor
  · intro own
    obtain ⟨target, declared, there⟩ := declOf?_resolved (link.trans own)
    rw [declared, ← there]
    exact known
  · intro declared
    rw [← link, ← sound.positioned id decl known]
    exact (sound.linkOf?_of_declOf? declared).1

theorem stateErrors_of_type (numbered : unit.Numbered) (described : unit.protocol = some protocol)
    {type : TypeRef} (used : .type type ∈ unit.useNodes protocol) :
    (((unit.bindings protocol extra).nodeErrors (.ofProtocol protocol) (.type type)).filter
        fun error => error.error.isStateError) =
      ((unit.resolved protocol extra).stateError? protocol type).toList := by
  have link := numbered.link_type described extra used
  dsimp only [Bindings.nodeErrors, Bindings.useError?, Bindings.typeError?, Resolved.stateError?,
    UseNode.loc]
  cases found : (unit.bindings protocol extra).names.type? (.ofProtocol protocol) type.name with
  | none =>
      rw [declOf?_resolved_of_unlinked (link.trans found)]
      cases type.state <;> rfl
  | some id =>
      obtain ⟨decl, declared, known⟩ := declOf?_resolved (link.trans found)
      rw [declared]
      cases type.state with
      | none => rfl
      | some state =>
          have absent : (unit.bindings protocol extra).names.states.find? state.name = none ↔
              ¬ protocol.HasState state.name := by
            rw [OrderedMap.find?_eq_none_iff, ← contains_states_bindings_iff, Bool.not_eq_true]
          simp only [Option.bind_some, Bindings.stateError?, isProtocol_bindings found known,
            numbered.own_iff described known, absent]
          split
          · split <;> rfl
          · rfl

theorem stateErrors_resolved (numbered : unit.Numbered)
    (described : unit.protocol = some protocol) :
    ((unit.resolution protocol extra).errors.filter fun error => error.error.isStateError) =
      unit.typeRefs.filterMap ((unit.resolved protocol extra).stateError? protocol) := by
  rw [← filterMap_type?_useNodes described]
  apply failures_of_kind NamingError.isFailure_of_isStateError
  intro node used
  cases node with
  | type type => exact numbered.stateErrors_of_type described used
  | protocolName | transition =>
      exact Bindings.nodeErrors_of_other_kind (UseNode.not_stateError_of_failure rfl)

/-- A type has a state exactly if it names an actor, and that is the state it asks for. -/
theorem actorState?_of_type (numbered : unit.Numbered) (described : unit.protocol = some protocol)
    {type : TypeRef} (used : .type type ∈ unit.useNodes protocol) {state : State} :
    (unit.resolved protocol extra).actorState? type.id = some state ↔
      (unit.resolved protocol extra).NamesActor type ∧ state = type.state.getD .any := by
  have link := numbered.link_type described extra used
  have poison : (unit.resolved protocol extra).isPoisoned type.id =
      ((unit.bindings protocol extra).typeError? (.ofProtocol protocol) type).isSome :=
    numbered.isPoisoned_useNode described extra used
  rw [numbered.state_type described extra used]
  unfold Bindings.typeState?
  cases found : (unit.bindings protocol extra).names.type? (.ofProtocol protocol) type.name with
  | none =>
      constructor
      · exact nofun
      · rintro ⟨⟨_, decl, declared, _⟩, _⟩
        rw [declOf?_resolved_of_unlinked (link.trans found)] at declared
        cases declared
  | some id =>
      obtain ⟨decl, declared, known⟩ := declOf?_resolved (link.trans found)
      dsimp only
      rw [isProtocol_bindings found known]
      constructor
      · intro given
        split at given
        · rename_i right
          refine ⟨⟨?_, decl, declared, right.1⟩, (Option.some.inj given).symm⟩
          rw [poison, right.2]
          rfl
        · cases given
      · rintro ⟨⟨clean, target, again, isProtocol⟩, rfl⟩
        cases declared.symm.trans again
        rw [poison, Option.isSome_eq_false_iff, Option.isNone_iff_eq_none] at clean
        exact if_pos ⟨isProtocol, clean⟩

theorem actorState?_resolved_iff (numbered : unit.Numbered)
    (described : unit.protocol = some protocol) (node : NodeId) (state : State) :
    (unit.resolved protocol extra).actorState? node = some state ↔
      ∃ type ∈ unit.typeRefs, type.id = node ∧ (unit.resolved protocol extra).NamesActor type ∧
        state = type.state.getD .any := by
  constructor
  · intro kept
    rcases Resolution.actorState_of_useAll kept with ⟨use, inside, type, names, rfl⟩ | none
    · have used := mem_useNodes_iff.mpr ⟨use, inside, names⟩
      have known := (numbered.actorState?_of_type described used).mp kept
      exact ⟨type, (type_mem_useNodes_iff described).mp used, rfl, known⟩
    · cases none
  · rintro ⟨type, member, rfl, known⟩
    have used := (type_mem_useNodes_iff described).mpr member
    exact (numbered.actorState?_of_type described used).mpr known

end Numbered

theorem resolve_states_actors (numbered : unit.Numbered)
    (described : unit.protocol = some protocol) (extra : List String) :
    ∃ reported, unit.resolve extra = .ok reported ∧ unit.Stated protocol reported := by
  refine ⟨_, resolve_eq_ok described extra, ?_, ?_⟩
  · exact numbered.actorState?_resolved_iff described
  · exact numbered.stateErrors_resolved described

/-- A type that asks for a state, which is the next node. -/
def askingType (id : Nat) (name : QualifiedName) (state : String) : TypeRef :=
  { channelType id 14 name.base with
    name
    state := some ⟨⟨id + 1⟩, state, false, channelLine 14⟩ }

/-- A channel with a union of actors, two of which are wrong. -/
def askingChannel : SourceUnit :=
  { channelUnit "PHost" with
    types := [
      ⟨⟨5⟩, "Peer", [], .union [
        askingType 26 ⟨[], "PChannel"⟩ "Idle", askingType 28 ⟨["net"], "PChannel"⟩ "Gone",
        askingType 30 ⟨[], "Blob"⟩ "Idle", askingType 32 ⟨[], "PHost"⟩ "Ready"],
        channelLine 14⟩] }

/-- The channel may be asked for its own states by either name, and the host for any. -/
theorem asking_channel_stated :
    askingChannel.Numbered ∧ askingChannel.protocol = some (channelProtocol "PHost") ∧
      ∃ reported, askingChannel.resolve [] = .ok reported ∧
        askingChannel.Stated (channelProtocol "PHost") reported ∧
        reported.errors = [⟨.unknownState "net::PChannel" "Gone", channelLine 14⟩,
          ⟨.notAnActorType "Blob" "Idle", channelLine 14⟩] ∧
        (reported.value.actorStates.entries.map fun entry => (entry.1, entry.2.name)) =
          [(⟨26⟩, "Idle"), (⟨32⟩, "Ready"), (⟨15⟩, "[any]"), (⟨17⟩, "[any]")] := by
  have described : askingChannel.protocol = some (channelProtocol "PHost") := rfl
  have numbered : askingChannel.Numbered := by
    constructor
    · decide +kernel
    · decide +kernel
  obtain ⟨reported, resolves, stated⟩ := resolve_states_actors numbered described []
  have same := eq_resolved_of_resolve described resolves
  refine ⟨numbered, described, reported, resolves, stated, ?_, ?_⟩
  · rw [same]
    decide +kernel
  · rw [same]
    decide +kernel

end SourceUnit

end ActorProtocol

import ActorProtocol.Proofs.Naming.Continuation
import ActorProtocol.Proofs.Naming.Placement

/-!
# Outcomes of uses

What becomes of a use depends on the bindings alone, and not on the uses before
it. `useError?` says what is wrong with a use, and the record and the errors that
a use leaves follow from it. A member has the outcome of its type: it is poisoned
when the type is not known and has a declaration of its own otherwise.
-/

namespace ActorProtocol

set_option autoImplicit false

namespace Bindings

variable (bindings : Bindings) (home : Home)

def isProtocol (id : DeclId) : Bool :=
  (bindings.table.decl? id).any fun decl => decl.kind.isProtocol

/-- What is wrong with the state that is asked of a declaration. -/
def stateError? (type : TypeRef) (decl : DeclId) (state : State) : Option NamingError :=
  if bindings.isProtocol decl then
    if bindings.names.own = some decl ∧ bindings.names.states.find? state.name = none then
      some (.unknownState type.name.text state.name)
    else none
  else some (.notAnActorType type.name.text state.name)

def typeError? (type : TypeRef) : Option NamingError :=
  match bindings.names.type? home type.name with
  | none => some (.unknownType type.name.text)
  | some decl => type.state.bind (bindings.stateError? type decl)

/-- The state of the actor that a type names, unless something is wrong with the type. -/
def typeState? (type : TypeRef) : Option State :=
  match bindings.names.type? home type.name with
  | none => none
  | some decl =>
      if bindings.isProtocol decl ∧ bindings.typeError? home type = none then
        some (type.state.getD .any)
      else none

def typeRecord (type : TypeRef) : NodeRecord :=
  ⟨bindings.names.type? home type.name, (bindings.typeError? home type).isSome,
    bindings.typeState? home type⟩

def nameError? (name : Ident) : Option NamingError :=
  if bindings.names.protocols.contains name.name then none
  else some (.unknownProtocol name.name)

def transitionError? (transition : Transition) : Option NamingError :=
  transition.action.bind fun (_, message) =>
    if bindings.names.messages.contains message then none else some (.unknownMessage message)

/-- What a transition is linked to, if it uses a name. -/
def transitionLink? (transition : Transition) : Option DeclId :=
  transition.action.bind fun (_, message) => bindings.names.messages.find? message

def useRecord : UseNode → NodeRecord
  | .type used => bindings.typeRecord home used
  | .protocolName used =>
      ⟨bindings.names.protocols.find? used.name, (bindings.nameError? used).isSome, none⟩
  | .transition used =>
      ⟨bindings.transitionLink? used, (bindings.transitionError? used).isSome, none⟩

def useError? : UseNode → Option NamingError
  | .type used => bindings.typeError? home used
  | .protocolName used => bindings.nameError? used
  | .transition used => bindings.transitionError? used

def nodeErrors (node : UseNode) : List (Located NamingError) :=
  (bindings.useError? home node).toList.map fun error => ⟨error, node.loc⟩

/-- The errors of a use: those of its node, or the repeated parameters of a message. -/
def errorsOf : Use → List (Located NamingError)
  | .openMessage message =>
      (Resolution.repeatedParams [] message.params).map fun param =>
        ⟨.duplicateParam message.name param.name, param.loc⟩
  | use => use.node?.toList.flatMap (bindings.nodeErrors home)

/-- A node is poisoned exactly if its use is an error. -/
theorem poisoned_useRecord (node : UseNode) :
    (bindings.useRecord home node).poisoned = (bindings.useError? home node).isSome := by
  cases node <;> rfl

end Bindings

namespace Resolution

variable {bindings : Bindings} {binders : List Binder} {home : Home} {resolution : Resolution}

/-- Types that are bound keep their kinds. -/
theorem Continues.isProtocol_eq (continues : resolution.Continues bindings)
    (explained : bindings.Explained binders) {name : QualifiedName} {decl : DeclId}
    (found : bindings.names.type? home name = some decl) :
    resolution.isProtocol decl = bindings.isProtocol decl := by
  obtain ⟨candidate, _, bound⟩ := Names.type?_eq_some found
  obtain ⟨target, known, _⟩ := explained.types candidate decl bound
  unfold Resolution.isProtocol Bindings.isProtocol
  rw [known, continues.grows decl target known]

theorem Continues.recordOf_useType (continues : resolution.Continues bindings)
    (explained : bindings.Explained binders) {type : TypeRef} (alone : type.nodes.Nodup)
    (fresh : resolution.recordOf type.id = .blank) :
    (resolution.useType bindings.names home type).recordOf type.id =
      bindings.typeRecord home type := by
  have same : ∀ {decl}, bindings.names.type? home type.name = some decl →
      resolution.isProtocol decl = bindings.isProtocol decl :=
    fun found => continues.isProtocol_eq explained found
  have outcome := resolution.useType_cases bindings.names home type
  generalize resolution.useType bindings.names home type = after at outcome
  cases outcome with
  | unknown missing =>
      simp [recordOf_poison, fresh, NodeRecord.blank, Bindings.typeRecord, Bindings.typeError?,
        Bindings.typeState?, missing]
  | plain found bare kind =>
      rw [same found] at kind
      simp [recordOf_link, fresh, NodeRecord.blank, Bindings.typeRecord, Bindings.typeError?,
        Bindings.typeState?, found, bare, kind]
  | anyState found bare kind =>
      rw [same found] at kind
      simp [recordOf_setActorState, recordOf_link, fresh, NodeRecord.blank, Bindings.typeRecord,
        Bindings.typeError?, Bindings.typeState?, found, bare, kind]
  | notActor found asked kind =>
      rw [same found] at kind
      simp [recordOf_poison, recordOf_link, fresh, NodeRecord.blank, Bindings.typeRecord,
        Bindings.typeError?, Bindings.typeState?, Bindings.stateError?, found, asked, kind]
  | foreignState found asked kind foreign =>
      rw [same found] at kind
      simp [recordOf_setActorState, recordOf_link, fresh, NodeRecord.blank, Bindings.typeRecord,
        Bindings.typeError?, Bindings.typeState?, Bindings.stateError?, found, asked, kind, foreign]
  | unknownState found asked kind own absent =>
      rw [same found] at kind
      simp [recordOf_poison, recordOf_link, fresh, NodeRecord.blank, Bindings.typeRecord,
        Bindings.typeError?, Bindings.typeState?, Bindings.stateError?, found, asked, kind, own,
        absent]
  | @ownState decl declared state found asked kind own known =>
      rw [same found] at kind
      -- the annotation is another node, so its link leaves that of the type alone
      have apart : state.id.isSynthetic = false → ¬ state.id = type.id := by
        intro shown equal
        simp [TypeRef.nodes, State.linkedIds, asked, shown, ← equal] at alone
      rw [recordOf_setActorState, if_pos rfl]
      have linked : (if state.id.isSynthetic then resolution.link type.id decl
          else (resolution.link type.id decl).link state.id declared).recordOf type.id =
          { NodeRecord.blank with link := some decl } := by
        cases shown : state.id.isSynthetic with
        | true => simp [recordOf_link, fresh]
        | false => simp [recordOf_link, fresh, apart shown]
      rw [linked]
      simp [NodeRecord.blank, Bindings.typeRecord, Bindings.typeError?, Bindings.typeState?,
        Bindings.stateError?, found, asked, kind, own, known]

theorem Continues.errors_useType (continues : resolution.Continues bindings)
    (explained : bindings.Explained binders) (type : TypeRef) :
    (resolution.useType bindings.names home type).errors =
      resolution.errors ++
        (bindings.typeError? home type).toList.map fun error => ⟨error, type.loc⟩ := by
  have same : ∀ {decl}, bindings.names.type? home type.name = some decl →
      resolution.isProtocol decl = bindings.isProtocol decl :=
    fun found => continues.isProtocol_eq explained found
  have outcome := resolution.useType_cases bindings.names home type
  generalize resolution.useType bindings.names home type = after at outcome
  cases outcome with
  | unknown missing => simp [Bindings.typeError?, missing]
  | plain found bare => simp [Bindings.typeError?, found, bare]
  | anyState found bare => simp [Bindings.typeError?, found, bare]
  | notActor found asked kind =>
      rw [same found] at kind
      simp [Bindings.typeError?, Bindings.stateError?, found, asked, kind]
  | foreignState found asked kind foreign =>
      rw [same found] at kind
      simp [Bindings.typeError?, Bindings.stateError?, found, asked, kind, foreign]
  | unknownState found asked kind own absent =>
      rw [same found] at kind
      simp [Bindings.typeError?, Bindings.stateError?, found, asked, kind, own, absent]
  | ownState found asked kind own known =>
      rw [same found] at kind
      simp only [errors_setActorState]
      split <;> simp [Bindings.typeError?, Bindings.stateError?, found, asked, kind, own, known]

/-- A member without a known type is poisoned and gets no declaration. -/
theorem recordOf_useMember_of_unknown {member : Member} (kind : DeclId → DeclKind)
    (alone : member.nodes.Nodup) (fresh : resolution.recordOf member.id = .blank)
    (missing : bindings.names.type? home member.type.name = none) :
    (resolution.useMember bindings.names home kind member).recordOf member.id =
      ⟨none, true, none⟩ := by
  have outside : member.id ∉ member.type.nodes := (List.nodup_cons.mp alone).1
  rw [useMember_of_unknown _ _ kind missing, recordOf_poison, if_pos rfl,
    recordOf_useType_of_outside _ _ _ outside, fresh]
  rfl

/-- A member with a known type gets a declaration that keeps that type. -/
theorem recordOf_useMember_of_known {member : Member} (kind : DeclId → DeclKind)
    (alone : member.nodes.Nodup) (fresh : resolution.recordOf member.id = .blank) {type : DeclId}
    (found : bindings.names.type? home member.type.name = some type) :
    (resolution.useMember bindings.names home kind member).recordOf member.id =
        ⟨some resolution.table.nextId, false, none⟩ ∧
      (resolution.useMember bindings.names home kind member).table.decl?
        resolution.table.nextId = some (resolution.memberDecl home (kind type) member) := by
  have outside : member.id ∉ member.type.nodes := (List.nodup_cons.mp alone).1
  have next : resolution.table.nextId =
      (resolution.useType bindings.names home member.type).table.nextId :=
    congrArg (fun decls : List Decl => DeclId.mk decls.length)
      (resolution.samePlace_useType bindings.names home member.type).decls.symm
  rw [useMember_of_known _ _ found]
  refine ⟨?_, DeclTable.decl?_record_self _ next member.id⟩
  rw [recordOf_record, if_pos rfl, recordOf_useType_of_outside _ _ _ outside, fresh]
  rfl

/-- The nodes of the type are not those of the member, so they keep what they had. -/
theorem recordOf_useMember_type {member : Member} (kind : DeclId → DeclKind)
    (alone : member.nodes.Nodup) {node : NodeId} (own : node ∈ member.type.nodes) :
    (resolution.useMember bindings.names home kind member).recordOf node =
      (resolution.useType bindings.names home member.type).recordOf node := by
  have differs : ¬ member.id = node := by
    intro same
    exact (List.nodup_cons.mp alone).1 (same ▸ own)
  unfold useMember
  dsimp only
  split
  · rw [recordOf_record, if_neg differs]
  · rw [recordOf_poison, if_neg differs]

theorem errors_useMember (kind : DeclId → DeclKind) (member : Member) :
    (resolution.useMember bindings.names home kind member).errors =
      (resolution.useType bindings.names home member.type).errors := by
  unfold useMember
  dsimp only
  split <;> rfl

theorem recordOf_useProtocolName {name : Ident} (fresh : resolution.recordOf name.id = .blank) :
    (resolution.useProtocolName bindings.names name).recordOf name.id =
      ⟨bindings.names.protocols.find? name.name, (bindings.nameError? name).isSome, none⟩ := by
  unfold useProtocolName Bindings.nameError?
  cases found : bindings.names.protocols.find? name.name with
  | none =>
      rw [recordOf_poison, if_pos rfl, recordOf_report, fresh,
        (OrderedMap.find?_eq_none_iff _ _).mp found]
      rfl
  | some decl =>
      rw [recordOf_link, if_pos rfl, fresh, OrderedMap.contains_of_find? found]
      rfl

theorem errors_useProtocolName (name : Ident) :
    (resolution.useProtocolName bindings.names name).errors =
      resolution.errors ++
        (bindings.nameError? name).toList.map fun error => ⟨error, name.loc⟩ := by
  unfold useProtocolName Bindings.nameError?
  cases found : bindings.names.protocols.find? name.name with
  | none =>
      rw [(OrderedMap.find?_eq_none_iff _ _).mp found]
      rfl
  | some decl =>
      rw [OrderedMap.contains_of_find? found]
      exact (List.append_nil _).symm

theorem errors_useDestinations (states : List State) (names : Names) :
    (states.foldl (fun named state => named.useDestination names state) resolution).errors =
      resolution.errors := by
  obtain ⟨links, same⟩ := resolution.useDestinations_eq names states
  rw [same]

theorem errors_useTransition (transition : Transition) :
    (resolution.useTransition bindings.names transition).errors =
      resolution.errors ++
        (bindings.transitionError? transition).toList.map fun error =>
          ⟨error, transition.loc⟩ := by
  unfold useTransition Bindings.transitionError?
  cases transition.action with
  | none => exact (List.append_nil _).symm
  | some action =>
      obtain ⟨trigger, message⟩ := action
      rw [errors_useDestinations]
      dsimp only [Option.bind_some]
      cases found : bindings.names.messages.find? message with
      | none =>
          rw [(OrderedMap.find?_eq_none_iff _ _).mp found]
          rfl
      | some decl =>
          rw [OrderedMap.contains_of_find? found]
          exact (List.append_nil _).symm

theorem recordOf_useTransition {transition : Transition} {trigger : Trigger} {message : String}
    (action : transition.action = some (trigger, message)) (alone : transition.nodes.Nodup)
    (fresh : resolution.recordOf transition.id = .blank) :
    (resolution.useTransition bindings.names transition).recordOf transition.id =
      ⟨bindings.names.messages.find? message, (bindings.transitionError? transition).isSome,
        none⟩ := by
  have outside : transition.id ∉ State.linkedIds transition.destinations :=
    (List.nodup_cons.mp alone).1
  unfold useTransition Bindings.transitionError?
  rw [action, Option.bind_some]
  dsimp only
  rw [recordOf_useDestinations_of_outside _ _ outside]
  cases found : bindings.names.messages.find? message with
  | none =>
      rw [recordOf_poison, if_pos rfl, recordOf_report, fresh,
        (OrderedMap.find?_eq_none_iff _ _).mp found]
      rfl
  | some decl =>
      rw [recordOf_link, if_pos rfl, fresh, OrderedMap.contains_of_find? found]
      rfl

/-- A use leaves the record of its outcome on the node that uses the name. -/
theorem Continues.recordOf_use (continues : resolution.Continues bindings)
    (explained : bindings.Explained binders) {use : Use} {node : UseNode}
    (names : use.node? = some node) (alone : use.nodes.Nodup)
    (fresh : ∀ own ∈ use.nodes, resolution.recordOf own = .blank) :
    (resolution.use bindings.names home use).recordOf node.id = bindings.useRecord home node := by
  have typed : ∀ (kind : DeclId → DeclKind) (member : Member), member.nodes.Nodup →
      (∀ own ∈ member.nodes, resolution.recordOf own = .blank) →
      (resolution.useMember bindings.names home kind member).recordOf member.type.id =
        bindings.typeRecord home member.type := by
    intro kind member alone fresh
    have own : member.type.id ∈ member.type.nodes := List.mem_cons_self
    rw [recordOf_useMember_type kind alone own]
    exact continues.recordOf_useType explained (List.nodup_cons.mp alone).2
      (fresh _ (List.mem_cons_of_mem _ own))
  cases use with
  | openStruct struct => cases names
  | openMessage message => cases names
  | field member =>
      cases names
      exact typed .field member alone fresh
  | component type =>
      cases names
      exact continues.recordOf_useType explained alone (fresh _ List.mem_cons_self)
  | param member =>
      cases names
      exact typed .param member alone fresh
  | protocolName name =>
      cases names
      exact recordOf_useProtocolName (fresh _ List.mem_cons_self)
  | transition used =>
      cases action : used.action with
      | none => simp [Use.node?, action] at names
      | some named =>
          obtain ⟨trigger, message⟩ := named
          simp only [Use.node?, action, Option.isSome_some, if_true, Option.some.injEq] at names
          subst names
          simp only [Use.nodes, action, Option.isSome_some, if_true] at alone fresh
          refine (recordOf_useTransition action alone (fresh _ List.mem_cons_self)).trans ?_
          simp [Bindings.useRecord, Bindings.transitionLink?, action]

theorem errors_openMessage (message : Message) :
    (resolution.openMessage message).errors =
      resolution.errors ++ (repeatedParams [] message.params).map fun param =>
        ⟨.duplicateParam message.name param.name, param.loc⟩ := by
  unfold openMessage
  generalize repeatedParams [] message.params = repeated
  change (repeated.foldl _ resolution).errors = _
  induction repeated generalizing resolution with
  | nil => exact (List.append_nil _).symm
  | cons param repeated ih =>
      rw [List.foldl_cons, ih]
      simp [report]

theorem Continues.errors_use (continues : resolution.Continues bindings)
    (explained : bindings.Explained binders) (use : Use) :
    (resolution.use bindings.names home use).errors =
      resolution.errors ++ bindings.errorsOf home use := by
  have single : ∀ (node : UseNode),
      [node].flatMap (bindings.nodeErrors home) = bindings.nodeErrors home node := by
    intro node
    simp
  cases use with
  | openStruct struct => exact (List.append_nil _).symm
  | openMessage message => exact resolution.errors_openMessage message
  | field member =>
      refine (errors_useMember .field member).trans ?_
      rw [continues.errors_useType explained]
      exact congrArg _ (single (.type member.type)).symm
  | component type =>
      refine (continues.errors_useType explained type).trans ?_
      exact congrArg _ (single (.type type)).symm
  | param member =>
      refine (errors_useMember .param member).trans ?_
      rw [continues.errors_useType explained]
      exact congrArg _ (single (.type member.type)).symm
  | protocolName name =>
      refine (errors_useProtocolName name).trans ?_
      exact congrArg _ (single (.protocolName name)).symm
  | transition used =>
      refine (errors_useTransition used).trans (congrArg _ ?_)
      cases action : used.action with
      | none =>
          simp [Bindings.transitionError?, Bindings.errorsOf, Use.node?, action]
      | some named =>
          simp [Bindings.errorsOf, Use.node?, action, Bindings.nodeErrors, Bindings.useError?,
            UseNode.loc]

theorem Continues.errors_useAll (continues : resolution.Continues bindings)
    (explained : bindings.Explained binders) (uses : List Use) :
    (resolution.useAll bindings.names home uses).errors =
      resolution.errors ++ uses.flatMap (bindings.errorsOf home) := by
  induction uses generalizing resolution with
  | nil => exact (List.append_nil _).symm
  | cons use uses ih =>
      change ((resolution.use bindings.names home use).useAll bindings.names home uses).errors = _
      rw [ih (continues.use explained use), continues.errors_use explained, List.flatMap_cons,
        List.append_assoc]

end Resolution

end ActorProtocol

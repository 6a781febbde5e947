import ActorProtocol.Proofs.Naming.NodeRecord
import ActorProtocol.Proofs.Naming.UseNode

/-!
# Where members are declared

A structure or a message opens the scope of the members that follow it, up to the
next one. Of all uses only a member adds a declaration, if its type is known, and
places it in the scope that is open; the other uses leave both alone.
-/

namespace ActorProtocol

set_option autoImplicit false

/-- The node that members belong to from this use on, and the scope that they have. -/
def Use.opening? : Use → Option (NodeId × (DeclId → DeclScope))
  | openStruct struct => some (struct, .struct)
  | openMessage message => some (message.id, .message)
  | field _ | component _ | param _ | protocolName _ | transition _ => none

namespace Resolution

/-- The same declarations are there and the same scope is open. -/
structure SamePlace (resolution after : Resolution) : Prop where
  decls : after.table.decls = resolution.table.decls
  scope : after.scope = resolution.scope

section Members

variable (resolution : Resolution) (names : Names) (home : Home)

/-- The declaration of a member that comes next. -/
def memberDecl (kind : DeclKind) (member : Member) : Decl :=
  home.decl resolution.table.nextId member.name (resolution.memberFullName member.name) kind
    resolution.scope member.loc

/-- The declarations that a use adds. -/
def declared (use : Use) : List Decl :=
  (use.member?.bind fun (member, kind) =>
    (names.type? home member.type.name).map fun type =>
      resolution.memberDecl home (kind type) member).toList

theorem samePlace_useType (type : TypeRef) :
    resolution.SamePlace (resolution.useType names home type) := by
  have outcome := resolution.useType_cases names home type
  generalize resolution.useType names home type = after at outcome ⊢
  cases outcome with
  | ownState => split <;> exact ⟨rfl, rfl⟩
  | _ => exact ⟨rfl, rfl⟩

theorem samePlace_useProtocolName (name : Ident) :
    resolution.SamePlace (resolution.useProtocolName names name) := by
  unfold useProtocolName
  split <;> exact ⟨rfl, rfl⟩

theorem samePlace_useDestinations (states : List State) :
    resolution.SamePlace
      (states.foldl (fun named state => named.useDestination names state) resolution) := by
  obtain ⟨links, same⟩ := resolution.useDestinations_eq names states
  rw [same]
  exact ⟨rfl, rfl⟩

theorem samePlace_useTransition (transition : Transition) :
    resolution.SamePlace (resolution.useTransition names transition) := by
  unfold useTransition
  split
  · exact ⟨rfl, rfl⟩
  · have places := fun named : Resolution =>
      named.samePlace_useDestinations names transition.destinations
    dsimp only
    split <;> exact ⟨(places _).decls, (places _).scope⟩

variable {resolution}

theorem SamePlace.memberDecl_eq {after : Resolution} (same : resolution.SamePlace after)
    (kind : DeclKind) (member : Member) :
    after.memberDecl home kind member = resolution.memberDecl home kind member := by
  rcases resolution with ⟨⟨decls, links⟩, scope, states, poisoned, errors⟩
  rcases after with ⟨⟨decls, links⟩, scope, states, poisoned, errors⟩
  obtain ⟨rfl, rfl⟩ := same
  rfl

theorem useMember_of_known {member : Member} {kind : DeclId → DeclKind} {type : DeclId}
    (found : names.type? home member.type.name = some type) :
    resolution.useMember names home kind member =
      (resolution.useType names home member.type).record
        (resolution.memberDecl home (kind type) member) member.id := by
  rw [← (resolution.samePlace_useType names home member.type).memberDecl_eq]
  unfold useMember
  rw [found]
  rfl

theorem useMember_of_unknown {member : Member} (kind : DeclId → DeclKind)
    (missing : names.type? home member.type.name = none) :
    resolution.useMember names home kind member =
      (resolution.useType names home member.type).poison member.id := by
  unfold useMember
  rw [missing]

variable (resolution)

theorem decls_useMember (kind : DeclId → DeclKind) (member : Member) :
    (resolution.useMember names home kind member).table.decls =
      resolution.table.decls ++
        ((names.type? home member.type.name).map fun type =>
          resolution.memberDecl home (kind type) member).toList := by
  have typed := (resolution.samePlace_useType names home member.type).decls
  cases found : names.type? home member.type.name with
  | none =>
      rw [useMember_of_unknown names home kind found]
      exact typed.trans (List.append_nil _).symm
  | some type =>
      rw [useMember_of_known names home found]
      exact congrArg (· ++ [resolution.memberDecl home (kind type) member]) typed

theorem scope_useMember (kind : DeclId → DeclKind) (member : Member) :
    (resolution.useMember names home kind member).scope = resolution.scope := by
  have typed := (resolution.samePlace_useType names home member.type).scope
  unfold useMember
  dsimp only
  split <;> exact typed

theorem decls_use (use : Use) :
    (resolution.use names home use).table.decls =
      resolution.table.decls ++ resolution.declared names home use := by
  cases use with
  | openStruct struct => exact (List.append_nil _).symm
  | openMessage message =>
      exact (congrArg DeclTable.decls (resolution.openMessage_table message).1).trans
        (List.append_nil _).symm
  | field member => exact resolution.decls_useMember names home .field member
  | component type =>
      exact (resolution.samePlace_useType names home type).decls.trans (List.append_nil _).symm
  | param member => exact resolution.decls_useMember names home .param member
  | protocolName name =>
      exact (resolution.samePlace_useProtocolName names name).decls.trans (List.append_nil _).symm
  | transition used =>
      exact (resolution.samePlace_useTransition names used).decls.trans (List.append_nil _).symm

theorem scope_use_of_opening {use : Use} {owner : NodeId} {scope : DeclId → DeclScope}
    (opens : use.opening? = some (owner, scope)) :
    (resolution.use names home use).scope = (resolution.openScope owner scope).scope := by
  cases use with
  | openStruct struct =>
      cases opens
      rfl
  | openMessage message =>
      cases opens
      unfold openScope
      rw [← (resolution.openMessage_table message).1]
      rfl
  | _ => cases opens

theorem scope_use_of_closed {use : Use} (closed : use.opening? = none) :
    (resolution.use names home use).scope = resolution.scope := by
  cases use with
  | openStruct | openMessage => cases closed
  | field member => exact resolution.scope_useMember names home .field member
  | component type => exact (resolution.samePlace_useType names home type).scope
  | param member => exact resolution.scope_useMember names home .param member
  | protocolName name => exact (resolution.samePlace_useProtocolName names name).scope
  | transition used => exact (resolution.samePlace_useTransition names used).scope

theorem scope_useAll_of_closed {uses : List Use} (closed : ∀ use ∈ uses, use.opening? = none) :
    (resolution.useAll names home uses).scope = resolution.scope := by
  induction uses generalizing resolution with
  | nil => rfl
  | cons use uses ih =>
      rw [List.forall_mem_cons] at closed
      exact (ih (resolution.use names home use) closed.2).trans
        (resolution.scope_use_of_closed names home closed.1)

end Members

end Resolution

end ActorProtocol

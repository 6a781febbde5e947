import ActorProtocol.Proofs.Naming.Settled
import Mathlib.Data.List.Basic

/-!
# Failed uses

A use fails when its name is not known, or when the state it asks for makes no
sense. The errors of resolution are split: those that are left when repeated
declarations and parameters are set aside are the errors of the nodes that use
names, in reading order.
-/

namespace ActorProtocol

set_option autoImplicit false

/-- Whether an error is about the use of a name, and not about a repeated declaration. -/
def NamingError.isFailure : NamingError → Bool
  | unknownType _ | unknownMessage _ | unknownProtocol _ | unknownState _ _
  | notAnActorType _ _ => true
  | duplicateDecl _ | duplicateParam _ _ => false

/-- The errors that the use of a name at a node may give. -/
inductive UseNode.Failure : UseNode → NamingError → Prop
  | unknownType (used : TypeRef) : Failure (.type used) (.unknownType used.name.text)
  | unknownState {used : TypeRef} {state : State} (asked : used.state = some state) :
      Failure (.type used) (.unknownState used.name.text state.name)
  | notAnActorType {used : TypeRef} {state : State} (asked : used.state = some state) :
      Failure (.type used) (.notAnActorType used.name.text state.name)
  | unknownProtocol (used : Ident) : Failure (.protocolName used) (.unknownProtocol used.name)
  | unknownMessage {used : Transition} {trigger : Trigger} {message : String}
      (action : used.action = some (trigger, message)) :
      Failure (.transition used) (.unknownMessage message)

theorem UseNode.Failure.isFailure {node : UseNode} {error : NamingError}
    (failure : node.Failure error) : error.isFailure = true := by
  cases failure <;> rfl

/-- The place of a declaration that may be a repeated one. -/
def Binder.loc? : Binder → Option Location
  | .typeDecl type => some type.loc
  | .included file => some file.loc
  | .message bound => some bound.loc
  | .builtinType _ | .sentinel _ | .usingType _ | .ownProtocol _ | .sourceState _ => none

namespace Bindings

variable {bindings : Bindings} {home : Home}

theorem failure_of_typeError? {type : TypeRef} {error : NamingError}
    (wrong : bindings.typeError? home type = some error) : (UseNode.type type).Failure error := by
  unfold typeError? at wrong
  cases found : bindings.names.type? home type.name with
  | none =>
      rw [found] at wrong
      cases wrong
      exact .unknownType type
  | some decl =>
      rw [found, Option.bind_eq_some_iff] at wrong
      obtain ⟨state, asked, wrong⟩ := wrong
      unfold stateError? at wrong
      split at wrong
      · split at wrong
        · cases wrong
          exact .unknownState asked
        · cases wrong
      · cases wrong
        exact .notAnActorType asked

theorem failure_of_useError? {node : UseNode} {error : NamingError}
    (wrong : bindings.useError? home node = some error) : node.Failure error := by
  cases node with
  | type used => exact failure_of_typeError? wrong
  | protocolName used =>
      simp only [useError?, nameError?] at wrong
      split at wrong
      · cases wrong
      · cases wrong
        exact .unknownProtocol used
  | transition used =>
      simp only [useError?, transitionError?, Option.bind_eq_some_iff] at wrong
      obtain ⟨⟨trigger, message⟩, action, wrong⟩ := wrong
      split at wrong
      · cases wrong
      · cases wrong
        exact .unknownMessage action

/-- Binding a name reports nothing but that it was declared before, at its own place. -/
theorem errors_bind (home : Home) (bindings : Bindings) (binder : Binder) :
    (bindings.bind home binder).errors = bindings.errors ∨
      ∃ name loc, binder.loc? = some loc ∧ (bindings.bind home binder).errors =
        bindings.errors ++ [⟨.duplicateDecl name, loc⟩] := by
  have outcome := bind_cases home bindings binder
  generalize bindings.bind home binder = after at outcome ⊢
  cases outcome with
  | typeDeclAgain | includedAgain | messageAgain => exact .inr ⟨_, _, rfl, rfl⟩
  | _ => exact .inl rfl

/-- Whatever binding reports is the repetition of a declaration, at its place. -/
theorem exists_binder_of_error {home : Home} {binders : List Binder}
    {error : Located NamingError} (reported : error ∈ (ofBinders home binders).errors) :
    ∃ binder ∈ binders, ∃ name loc, binder.loc? = some loc ∧
      error = ⟨.duplicateDecl name, loc⟩ := by
  induction binders using List.reverseRecOn with
  | nil => cases reported
  | append_singleton binders binder ih =>
      have earlier : error ∈ (ofBinders home binders).errors →
          ∃ other ∈ binders ++ [binder], ∃ name loc, other.loc? = some loc ∧
            error = ⟨.duplicateDecl name, loc⟩ := by
        intro known
        obtain ⟨other, bound, repeated⟩ := ih known
        exact ⟨other, List.mem_append_left _ bound, repeated⟩
      rw [ofBinders_concat] at reported
      rcases errors_bind home (ofBinders home binders) binder with same | ⟨name, loc, place, grown⟩
      · exact earlier (same ▸ reported)
      · rw [grown, List.mem_append, List.mem_singleton] at reported
        rcases reported with known | last
        · exact earlier known
        · exact ⟨binder, List.mem_append_right _ List.mem_cons_self, name, loc, place, last⟩

theorem no_failures_ofBinders (home : Home) (binders : List Binder) :
    ∀ error ∈ (ofBinders home binders).errors, error.error.isFailure = false := by
  intro error reported
  obtain ⟨_, _, _, _, _, rfl⟩ := exists_binder_of_error reported
  rfl

theorem mem_nodeErrors_iff {node : UseNode} {error : Located NamingError} :
    error ∈ bindings.nodeErrors home node ↔
      bindings.useError? home node = some error.error ∧ error.loc = node.loc := by
  obtain ⟨cause, loc⟩ := error
  simp only [nodeErrors, List.mem_map, Option.mem_toList, Located.mk.injEq]
  constructor
  · rintro ⟨wrong, found, rfl, same⟩
    exact ⟨found, same.symm⟩
  · rintro ⟨found, same⟩
    exact ⟨cause, found, rfl, same.symm⟩

/-- The errors at a node are of no kind but those that its use can fail with. -/
theorem nodeErrors_of_other_kind {node : UseNode} {kind : NamingError → Bool}
    (never : ∀ error, node.Failure error → kind error = false) :
    ((bindings.nodeErrors home node).filter fun error => kind error.error) = [] := by
  rw [List.filter_eq_nil_iff]
  intro error reported
  rw [never error.error (failure_of_useError? (mem_nodeErrors_iff.mp reported).1)]
  exact Bool.false_ne_true

/-- Repeated parameters are no failures; everything else that a use reports is one. -/
theorem failures_of_use (use : Use) :
    ((bindings.errorsOf home use).filter fun error => error.error.isFailure) =
      use.node?.toList.flatMap (bindings.nodeErrors home) := by
  have all : ∀ nodes : List UseNode,
      ((nodes.flatMap (bindings.nodeErrors home)).filter fun error => error.error.isFailure) =
        nodes.flatMap (bindings.nodeErrors home) := by
    intro nodes
    rw [List.filter_eq_self]
    intro error member
    obtain ⟨node, _, reported⟩ := List.mem_flatMap.mp member
    exact (failure_of_useError? (mem_nodeErrors_iff.mp reported).1).isFailure
  cases use with
  | openMessage message =>
      rw [List.filter_eq_nil_iff.mpr]
      · rfl
      · intro error member
        obtain ⟨param, _, rfl⟩ := List.mem_map.mp member
        simp [NamingError.isFailure]
  | _ => exact all _

end Bindings

namespace SourceUnit

theorem failures_resolution (unit : SourceUnit) (protocol : Protocol) (extra : List String) :
    ((unit.resolution protocol extra).errors.filter fun error => error.error.isFailure) =
      (unit.useNodes protocol).flatMap
        ((unit.bindings protocol extra).nodeErrors (.ofProtocol protocol)) := by
  have bound : (unit.bindings protocol extra).errors.filter
      (fun error => error.error.isFailure) = [] := by
    rw [List.filter_eq_nil_iff]
    intro error member
    simp [Bindings.no_failures_ofBinders _ _ error member]
  rw [errors_resolution, List.filter_append, bound, List.nil_append, List.filter_flatMap,
    ← filterMap_node?_uses, List.filterMap_eq_flatMap_toList, List.flatMap_assoc]
  exact List.flatMap_congr fun use _ => Bindings.failures_of_use use

variable {unit : SourceUnit} {protocol : Protocol} {extra : List String}

/-- The failures of one kind are what a part of the nodes that use names gives. -/
theorem failures_of_kind {kind : NamingError → Bool}
    (fails : ∀ error, kind error = true → error.isFailure = true) {Part : Type}
    {part? : UseNode → Option Part} {gives : Part → Option (Located NamingError)}
    (given : ∀ node ∈ unit.useNodes protocol,
      (((unit.bindings protocol extra).nodeErrors (.ofProtocol protocol) node).filter
        fun error => kind error.error) = ((part? node).bind gives).toList) :
    ((unit.resolution protocol extra).errors.filter fun error => kind error.error) =
      ((unit.useNodes protocol).filterMap part?).filterMap gives := by
  have kept : ((unit.resolution protocol extra).errors.filter fun error => kind error.error) =
      ((unit.resolution protocol extra).errors.filter fun error => error.error.isFailure).filter
        fun error => kind error.error := by
    rw [List.filter_filter]
    apply List.filter_congr
    intro error _
    cases found : kind error.error with
    | false => rfl
    | true => rw [fails error.error found, Bool.true_and]
  rw [kept, failures_resolution, List.filter_flatMap, List.filterMap_filterMap,
    List.filterMap_eq_flatMap_toList]
  exact List.flatMap_congr given

theorem reported_of_useError? {node : UseNode} (used : node ∈ unit.useNodes protocol)
    {error : NamingError}
    (wrong : (unit.bindings protocol extra).useError? (.ofProtocol protocol) node = some error) :
    ⟨error, node.loc⟩ ∈ (unit.resolution protocol extra).errors := by
  have kept : ⟨error, node.loc⟩ ∈ (unit.resolution protocol extra).errors.filter
      fun error => error.error.isFailure := by
    rw [failures_resolution]
    exact List.mem_flatMap.mpr ⟨node, used, Bindings.mem_nodeErrors_iff.mpr ⟨wrong, rfl⟩⟩
  exact (List.mem_filter.mp kept).1

/-- A failure that is reported is that of a node that uses a name. -/
theorem exists_useNode_of_failure {error : Located NamingError}
    (reported : error ∈ (unit.resolution protocol extra).errors)
    (failure : error.error.isFailure = true) :
    ∃ node ∈ unit.useNodes protocol,
      (unit.bindings protocol extra).useError? (.ofProtocol protocol) node = some error.error := by
  have kept : error ∈ (unit.resolution protocol extra).errors.filter
      fun error => error.error.isFailure := List.mem_filter.mpr ⟨reported, failure⟩
  rw [failures_resolution] at kept
  obtain ⟨node, used, found⟩ := List.mem_flatMap.mp kept
  exact ⟨node, used, (Bindings.mem_nodeErrors_iff.mp found).1⟩

end SourceUnit

end ActorProtocol

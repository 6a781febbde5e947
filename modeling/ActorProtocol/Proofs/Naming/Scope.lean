import ActorProtocol.Proofs.Naming.Settled
import Mathlib.Data.List.Perm.Basic
import Mathlib.Data.Multiset.AddSub

/-!
# Scopes

A scope is what a use sees of the bindings: which names are known, which of the types are
protocols, and which of those the unit describes itself. The ids of declarations are left
out, and so is the order of the errors. A binder does to the scope of the bindings what it
does to the bindings, and the errors of a use can be told from the scope alone.

Binders of one kind that bind different names can change places. So a scope does not
depend on the order of the types, the messages or the source states of a unit, if their
names are distinct.
-/

namespace ActorProtocol

set_option autoImplicit false

/-- What a type is known as. -/
structure Meaning where
  protocol : Bool
  /-- Whether it is the protocol of the unit. -/
  own : Bool

namespace Meaning

def plain : Meaning := ⟨false, false⟩

def included : Meaning := ⟨true, false⟩

def ownProtocol : Meaning := ⟨true, true⟩

end Meaning

structure Scope where
  types : String → Option Meaning
  protocols : String → Bool
  messages : String → Bool
  states : String → Bool
  errors : Multiset (Located NamingError)

namespace Scope

def empty : Scope :=
  ⟨fun _ => none, fun _ => false, fun _ => false, fun _ => false, 0⟩

variable (scope : Scope)

def report (error : NamingError) (loc : Location) : Scope :=
  { scope with errors := scope.errors + {⟨error, loc⟩} }

def nameType (name : String) (meaning : Meaning) : Scope :=
  { scope with types := Function.update scope.types name (some meaning) }

def nameTypeIfNew (name : String) (meaning : Meaning) : Scope :=
  if (scope.types name).isSome then scope else scope.nameType name meaning

def nameProtocol (name : String) : Scope :=
  { scope with protocols := Function.update scope.protocols name true }

def nameMessage (name : String) : Scope :=
  { scope with messages := Function.update scope.messages name true }

def nameState (name : String) : Scope :=
  { scope with states := Function.update scope.states name true }

/-- No type is the protocol of the unit any more. -/
def disown : Scope :=
  { scope with types := fun name => (scope.types name).map fun meaning =>
      { meaning with own := false } }

variable (home : Home)

def bind : Binder → Scope
  | .builtinType name => scope.nameTypeIfNew name .plain
  | .sentinel state => scope.nameState state.name
  | .usingType brought =>
      if (scope.types brought.type.name.text).isSome then scope
      else (scope.nameType brought.type.name.text .plain).nameTypeIfNew brought.type.baseName .plain
  | .typeDecl type =>
      if (scope.types type.qualifiedName.text).isSome then
        scope.report (.duplicateDecl type.qualifiedName.text) type.loc
      else scope.nameType type.qualifiedName.text .plain
  | .ownProtocol protocol =>
      ((scope.disown.nameType protocol.qualifiedName.text .ownProtocol).nameType protocol.name
        .ownProtocol).nameProtocol protocol.name
  | .included listed =>
      if scope.protocols listed.protocol then
        scope.report (.duplicateDecl listed.protocol) listed.loc
      else (scope.nameType listed.protocol .included).nameProtocol listed.protocol
  | .message declared =>
      if scope.messages declared.name then
        scope.report (.duplicateDecl (home.qualify declared.name)) declared.loc
      else scope.nameMessage declared.name
  | .sourceState state => scope.nameState state.name

def bindAll (binders : List Binder) : Scope :=
  binders.foldl (fun scope binder => scope.bind home binder) scope

theorem bindAll_append (first later : List Binder) :
    scope.bindAll home (first ++ later) = (scope.bindAll home first).bindAll home later :=
  List.foldl_append

/-! ## Errors of uses -/

/-- What a spelled type is known as, the innermost first. -/
def meaning? (name : QualifiedName) : Option Meaning :=
  (home.candidates name.text).findSome? scope.types

def typeError? (type : TypeRef) : Option NamingError :=
  match scope.meaning? home type.name with
  | none => some (.unknownType type.name.text)
  | some meaning =>
      type.state.bind fun state =>
        if meaning.protocol then
          if meaning.own && !scope.states state.name then
            some (.unknownState type.name.text state.name)
          else none
        else some (.notAnActorType type.name.text state.name)

end Scope

namespace Bindings

variable (bindings : Bindings) (home : Home)

def meaning (id : DeclId) : Meaning :=
  ⟨bindings.isProtocol id, decide (bindings.names.own = some id)⟩

def scope : Scope where
  types := fun name => (bindings.names.types.find? name).map bindings.meaning
  protocols := bindings.names.protocols.contains
  messages := bindings.names.messages.contains
  states := bindings.names.states.contains
  errors := bindings.errors

theorem isSome_types_scope (name : String) :
    (bindings.scope.types name).isSome = bindings.names.types.contains name :=
  Option.isSome_map

theorem meaning?_scope (name : QualifiedName) :
    bindings.scope.meaning? home name = (bindings.names.type? home name).map bindings.meaning := by
  unfold Scope.meaning? Names.type?
  induction home.candidates name.text with
  | nil => rfl
  | cons candidate rest ih =>
      have known : bindings.scope.types candidate =
          (bindings.names.types.find? candidate).map bindings.meaning := rfl
      rw [List.findSome?_cons, List.findSome?_cons, ih, known]
      cases bindings.names.types.find? candidate <;> rfl

theorem typeError?_scope (type : TypeRef) :
    bindings.scope.typeError? home type = bindings.typeError? home type := by
  unfold Scope.typeError? typeError?
  rw [meaning?_scope]
  cases bindings.names.type? home type.name with
  | none => rfl
  | some id =>
      cases type.state with
      | none => rfl
      | some state =>
          have absent : bindings.names.states.find? state.name = none ↔
              bindings.scope.states state.name = false :=
            OrderedMap.find?_eq_none_iff _ _
          simp [stateError?, meaning, absent]

/-- The errors of a use can be told from the scope. -/
theorem errorsOf_congr {other : Bindings} (same : other.scope = bindings.scope) :
    other.errorsOf home = bindings.errorsOf home := by
  have types : ∀ type, other.typeError? home type = bindings.typeError? home type := by
    intro type
    rw [← typeError?_scope, ← typeError?_scope, same]
  have protocols : other.names.protocols.contains = bindings.names.protocols.contains :=
    congrArg Scope.protocols same
  have messages : other.names.messages.contains = bindings.names.messages.contains :=
    congrArg Scope.messages same
  have nodes : other.nodeErrors home = bindings.nodeErrors home := by
    funext node
    unfold nodeErrors
    cases node with
    | type used => simp only [useError?, types]
    | protocolName used => simp only [useError?, nameError?, protocols]
    | transition used => simp only [useError?, transitionError?, messages]
  funext use
  cases use <;> simp only [errorsOf, nodes]

/-! ## Binding in a scope -/

theorem scope_nameType (name : String) (id : DeclId) :
    (bindings.nameType name id).scope = bindings.scope.nameType name (bindings.meaning id) := by
  have types : (bindings.nameType name id).scope.types =
      Function.update bindings.scope.types name (some (bindings.meaning id)) := by
    funext other
    change ((bindings.names.types.insert name id).find? other).map bindings.meaning = _
    rw [OrderedMap.find?_insert, Function.update_apply]
    by_cases named : name = other
    · rw [if_pos named, if_pos named.symm]
      rfl
    · rw [if_neg named, if_neg (Ne.symm named)]
      rfl
  unfold Scope.nameType
  rw [← types]
  rfl

theorem contains_insert_eq (map : OrderedMap String DeclId) (name : String) (id : DeclId) :
    (map.insert name id).contains = Function.update map.contains name true := by
  funext other
  rw [Bool.eq_iff_iff, OrderedMap.contains_insert, Function.update_apply]
  by_cases named : name = other
  · simp [named]
  · simp [named, Ne.symm named]

theorem scope_nameProtocol (name : String) (id : DeclId) :
    (bindings.nameProtocol name id).scope = bindings.scope.nameProtocol name := by
  have protocols : (bindings.nameProtocol name id).scope.protocols =
      Function.update bindings.scope.protocols name true := contains_insert_eq _ name id
  unfold Scope.nameProtocol
  rw [← protocols]
  rfl

theorem scope_nameMessage (name : String) (id : DeclId) :
    (bindings.nameMessage name id).scope = bindings.scope.nameMessage name := by
  have messages : (bindings.nameMessage name id).scope.messages =
      Function.update bindings.scope.messages name true := contains_insert_eq _ name id
  unfold Scope.nameMessage
  rw [← messages]
  rfl

theorem scope_nameState (name : String) (id : DeclId) :
    (bindings.nameState name id).scope = bindings.scope.nameState name := by
  have states : (bindings.nameState name id).scope.states =
      Function.update bindings.scope.states name true := contains_insert_eq _ name id
  unfold Scope.nameState
  rw [← states]
  rfl

theorem scope_nameTypeIfNew (name : String) (id : DeclId) :
    (bindings.nameTypeIfNew name id).scope =
      bindings.scope.nameTypeIfNew name (bindings.meaning id) := by
  unfold Scope.nameTypeIfNew
  rw [isSome_types_scope]
  unfold nameTypeIfNew OrderedMap.insertIfNew
  split
  · rfl
  · exact bindings.scope_nameType name id

theorem scope_report (error : NamingError) (loc : Location) :
    (bindings.report error loc).scope = bindings.scope.report error loc := by
  have errors : (bindings.report error loc).scope.errors =
      bindings.scope.errors + {⟨error, loc⟩} := (Multiset.coe_add _ _).symm
  unfold Scope.report
  rw [← errors]
  rfl

/-- Every id that is named has a declaration, so the next id is named nowhere. -/
structure Grounded (bindings : Bindings) : Prop where
  types : ∀ name, bindings.names.types.find? name ≠ some bindings.table.nextId
  own : bindings.names.own ≠ some bindings.table.nextId

/-- The protocol of the unit is declared when there is one. -/
theorem own_declared {binders : List Binder} {id : DeclId}
    (own : (ofBinders home binders).names.own = some id) :
    ∃ decl, (ofBinders home binders).table.decl? id = some decl := by
  induction binders using List.reverseRecOn with
  | nil => cases own
  | append_singleton binders binder ih =>
      by_cases described : ∃ protocol, binder = .ownProtocol protocol
      · rcases described with ⟨protocol, rfl⟩
        rw [ofBinders_concat] at own ⊢
        cases own
        exact ⟨_, (DeclTable.decl?_record ..).trans (if_pos rfl)⟩
      · have other : ∀ protocol, binder ≠ .ownProtocol protocol := fun protocol same =>
          described ⟨protocol, same⟩
        rw [ofBinders_concat, own_bind_of_other other] at own
        rcases ih own with ⟨decl, known⟩
        exact ⟨decl, extends_ofBinders home binders [binder] id decl known⟩

theorem grounded_ofBinders (binders : List Binder) : (ofBinders home binders).Grounded where
  types := by
    intro name named
    rcases (explained_ofBinders home binders).types name _ named with ⟨decl, known, _⟩
    rw [DeclTable.decl?_nextId] at known
    cases known
  own := by
    intro own
    rcases own_declared home own with ⟨decl, known⟩
    rw [DeclTable.decl?_nextId] at known
    cases known

section Declaring

variable {bindings} (grounded : bindings.Grounded) (decl : Decl) (node : NodeId)

theorem isProtocol_record_of_ne {id : DeclId} (earlier : id ≠ bindings.table.nextId) :
    (bindings.record decl node).isProtocol id = bindings.isProtocol id := by
  have known : (bindings.record decl node).table.decl? id = bindings.table.decl? id :=
    (DeclTable.decl?_record ..).trans (if_neg earlier)
  unfold isProtocol
  rw [known]

theorem isProtocol_record_next :
    (bindings.record decl node).isProtocol bindings.table.nextId = decl.kind.isProtocol := by
  have known : (bindings.record decl node).table.decl? bindings.table.nextId = some decl :=
    (DeclTable.decl?_record ..).trans (if_pos rfl)
  unfold isProtocol
  rw [known]
  rfl

include grounded

/-- A new declaration has no name yet. -/
theorem Grounded.scope_record : (bindings.record decl node).scope = bindings.scope := by
  have types : (bindings.record decl node).scope.types = bindings.scope.types := by
    funext name
    change (bindings.names.types.find? name).map (bindings.record decl node).meaning = _
    cases found : bindings.names.types.find? name with
    | none => simp [scope, found]
    | some id =>
        have earlier : id ≠ bindings.table.nextId := by
          intro last
          exact grounded.types name (last ▸ found)
        have same : (bindings.record decl node).meaning id = bindings.meaning id :=
          congrArg (Meaning.mk · _) (isProtocol_record_of_ne decl node earlier)
        simp [scope, found, same]
  change { bindings.scope with types := (bindings.record decl node).scope.types } = _
  rw [types]

theorem Grounded.meaning_record :
    (bindings.record decl node).meaning bindings.table.nextId = ⟨decl.kind.isProtocol, false⟩ := by
  change Meaning.mk ((bindings.record decl node).isProtocol bindings.table.nextId)
    (decide (bindings.names.own = some bindings.table.nextId)) = _
  rw [isProtocol_record_next, decide_eq_false grounded.own]

/-- A new protocol of the unit has no name yet, and the earlier one is no longer that of
the unit. -/
theorem Grounded.scope_nameOwn :
    ((bindings.record decl node).nameOwn bindings.table.nextId).scope =
      bindings.scope.disown := by
  have types : ((bindings.record decl node).nameOwn bindings.table.nextId).scope.types =
      bindings.scope.disown.types := by
    funext name
    change (bindings.names.types.find? name).map
      ((bindings.record decl node).nameOwn bindings.table.nextId).meaning = _
    cases found : bindings.names.types.find? name with
    | none => simp [Scope.disown, scope, found]
    | some id =>
        have earlier : id ≠ bindings.table.nextId := by
          intro last
          exact grounded.types name (last ▸ found)
        have kind := isProtocol_record_of_ne decl node earlier
        have other : ¬ some bindings.table.nextId = some id := by
          intro last
          exact earlier (Option.some.inj last).symm
        have same : ((bindings.record decl node).nameOwn bindings.table.nextId).meaning id =
            ⟨bindings.isProtocol id, false⟩ := by
          change Meaning.mk ((bindings.record decl node).isProtocol id)
            (decide (some bindings.table.nextId = some id)) = _
          rw [kind, decide_eq_false other]
        have before : bindings.scope.types name = some (bindings.meaning id) :=
          congrArg (Option.map bindings.meaning) found
        change _ = (bindings.scope.types name).map _
        rw [before, Option.map_some, Option.map_some, same]
        rfl
  change { bindings.scope with
    types := ((bindings.record decl node).nameOwn bindings.table.nextId).scope.types } = _
  rw [types]
  rfl

/-- A type gets its name when it is declared. -/
theorem Grounded.scope_declareType (name : String) :
    ((bindings.record decl node).nameType name bindings.table.nextId).scope =
      bindings.scope.nameType name ⟨decl.kind.isProtocol, false⟩ := by
  rw [scope_nameType, grounded.scope_record, grounded.meaning_record]

theorem Grounded.scope_declareOwn (protocol : decl.kind.isProtocol = true) (full base : String) :
    (((((bindings.record decl node).nameOwn bindings.table.nextId).nameType full
        bindings.table.nextId).nameType base bindings.table.nextId).nameProtocol base
          bindings.table.nextId).scope =
      ((bindings.scope.disown.nameType full .ownProtocol).nameType base .ownProtocol).nameProtocol
        base := by
  have own : ((bindings.record decl node).nameOwn bindings.table.nextId).meaning
      bindings.table.nextId = .ownProtocol := by
    change Meaning.mk ((bindings.record decl node).isProtocol bindings.table.nextId)
      (decide (some bindings.table.nextId = some bindings.table.nextId)) = _
    rw [isProtocol_record_next, protocol, decide_eq_true rfl]
    rfl
  rw [scope_nameProtocol, scope_nameType, scope_nameType, grounded.scope_nameOwn]
  change ((bindings.scope.disown.nameType full
    (((bindings.record decl node).nameOwn bindings.table.nextId).meaning _)).nameType base
    (((bindings.record decl node).nameOwn bindings.table.nextId).meaning _)).nameProtocol base = _
  rw [own]

end Declaring

/-- A binder does to the scope what it does to the bindings. The names are given before the
declaration is recorded, which comes to the same bindings. -/
theorem Grounded.scope_bind (grounded : bindings.Grounded) (binder : Binder) :
    (bindings.bind home binder).scope = bindings.scope.bind home binder := by
  have recorded := grounded.scope_record (bindings.next home binder)
  have declared := grounded.scope_declareType (bindings.next home binder)
  have outcome := bind_cases home bindings binder
  generalize bindings.bind home binder = after at outcome ⊢
  cases outcome with
  | @builtinType name absent =>
      change _ = bindings.scope.nameTypeIfNew name .plain
      unfold Scope.nameTypeIfNew
      rw [isSome_types_scope, absent]
      exact declared .synthetic name
  | @builtinTypeAgain name taken =>
      change _ = bindings.scope.nameTypeIfNew name .plain
      unfold Scope.nameTypeIfNew
      rw [isSome_types_scope, taken]
      rfl
  | @sentinel state =>
      have named := scope_nameState (bindings.record (bindings.next home (.sentinel state))
        .synthetic) state.name bindings.table.nextId
      rw [recorded] at named
      exact named
  | @usingType brought absent =>
      have base := scope_nameTypeIfNew ((bindings.record (bindings.next home (.usingType brought))
        brought.type.id).nameType brought.type.name.text bindings.table.nextId)
          brought.type.baseName bindings.table.nextId
      have meaning := grounded.meaning_record (bindings.next home (.usingType brought))
        brought.type.id
      change _ = if (bindings.scope.types brought.type.name.text).isSome then _ else _
      rw [isSome_types_scope, absent]
      rw [declared] at base
      apply Eq.trans base
      exact congrArg (Scope.nameTypeIfNew _ brought.type.baseName) meaning
  | @usingTypeAgain brought existing taken =>
      change _ = if (bindings.scope.types brought.type.name.text).isSome then _ else _
      rw [isSome_types_scope, OrderedMap.contains_of_find? taken]
      rfl
  | @typeDecl type absent =>
      have plain : type.body.kind.isProtocol = false := by cases type.body <;> rfl
      have named := declared type.id type.qualifiedName.text
      change _ = if (bindings.scope.types type.qualifiedName.text).isSome then _ else _
      rw [isSome_types_scope, absent]
      apply Eq.trans named
      exact congrArg (fun protocol => bindings.scope.nameType _ ⟨protocol, false⟩) plain
  | @typeDeclAgain type taken =>
      change _ = if (bindings.scope.types type.qualifiedName.text).isSome then _ else _
      rw [isSome_types_scope, taken]
      have reported := scope_report (bindings.record (bindings.next home (.typeDecl type)) type.id)
        (.duplicateDecl type.qualifiedName.text) type.loc
      rw [recorded] at reported
      exact reported
  | @ownProtocol protocol =>
      exact grounded.scope_declareOwn (bindings.next home (.ownProtocol protocol)) protocol.id rfl
        protocol.qualifiedName.text protocol.name
  | @included listed absent =>
      have named := scope_nameProtocol ((bindings.record (bindings.next home (.included listed))
        listed.id).nameType listed.protocol bindings.table.nextId) listed.protocol
          bindings.table.nextId
      rw [declared] at named
      change _ = if bindings.names.protocols.contains listed.protocol then _ else _
      rw [absent]
      exact named
  | @includedAgain listed taken =>
      have reported := scope_report (bindings.record (bindings.next home (.included listed))
        listed.id) (.duplicateDecl listed.protocol) listed.loc
      rw [recorded] at reported
      change _ = if bindings.names.protocols.contains listed.protocol then _ else _
      rw [taken]
      exact reported
  | @message message absent =>
      have named := scope_nameMessage (bindings.record (bindings.next home (.message message))
        message.id) message.name bindings.table.nextId
      rw [recorded] at named
      change _ = if bindings.names.messages.contains message.name then _ else _
      rw [absent]
      exact named
  | @messageAgain message taken =>
      have reported := scope_report (bindings.record (bindings.next home (.message message))
        message.id) (.duplicateDecl (home.qualify message.name)) message.loc
      rw [recorded] at reported
      change _ = if bindings.names.messages.contains message.name then _ else _
      rw [taken]
      exact reported
  | @sourceState state absent =>
      have named := scope_nameState (bindings.record (bindings.next home (.sourceState state))
        state.id) state.name bindings.table.nextId
      rw [recorded] at named
      exact named
  | @sourceStateAgain state existing taken =>
      have known : bindings.scope.states state.name = true := OrderedMap.contains_of_find? taken
      change bindings.scope = bindings.scope.nameState state.name
      unfold Scope.nameState
      rw [← known, Function.update_eq_self]

theorem scope_ofBinders (binders : List Binder) :
    (ofBinders home binders).scope = Scope.empty.bindAll home binders := by
  induction binders using List.reverseRecOn with
  | nil => rfl
  | append_singleton binders binder ih =>
      rw [ofBinders_concat, (grounded_ofBinders home binders).scope_bind, ih,
        Scope.bindAll_append]
      rfl

end Bindings

end ActorProtocol

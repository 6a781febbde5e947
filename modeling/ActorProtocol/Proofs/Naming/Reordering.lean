import ActorProtocol.Proofs.Naming.Protocols
import ActorProtocol.Proofs.Naming.Scope
import Mathlib.Data.List.Nodup

/-!
# Names in another order

The types, messages and statements of a unit may be written in another order. Where their
names are distinct, two binders of a kind can change places, so the scope stays the same.
The uses are the same up to their order, and so are the errors of names.
-/

namespace ActorProtocol

set_option autoImplicit false

/-- The messages and statements are written in another order. -/
structure Protocol.Reordered (protocol other : Protocol) : Prop where
  messages : protocol.messages.Perm other.messages
  statements : protocol.statements.Perm other.statements
  rest : other = { protocol with messages := other.messages, statements := other.statements }

/-- The types, messages and statements are written in another order. -/
structure SourceUnit.Reordered (unit other : SourceUnit) : Prop where
  types : unit.types.Perm other.types
  protocols : Option.Rel Protocol.Reordered unit.protocol other.protocol
  rest : other = { unit with types := other.types, protocol := other.protocol }

/-- No two messages and no two statements have one name. -/
structure Protocol.NamedApart (protocol : Protocol) : Prop where
  messages : (protocol.messages.map Message.name).Nodup
  sources : (protocol.statements.map fun statement => statement.state.name).Nodup

/-- No two types, messages or statements have one name. Types have their full names. -/
structure SourceUnit.NamedApart (unit : SourceUnit) : Prop where
  types : (unit.types.map fun type => type.qualifiedName.text).Nodup
  protocols : ∀ protocol, unit.protocol = some protocol → protocol.NamedApart

namespace Scope

variable (scope : Scope) (home : Home)

theorem errors_comm (first second : Located NamingError) :
    scope.errors + {first} + {second} = scope.errors + {second} + {first} := by
  rw [Multiset.add_assoc, Multiset.add_comm {first}, Multiset.add_assoc]

theorem bind_typeDecl_comm {first second : TypeDecl}
    (apart : first.qualifiedName.text ≠ second.qualifiedName.text) :
    (scope.bind home (.typeDecl first)).bind home (.typeDecl second) =
      (scope.bind home (.typeDecl second)).bind home (.typeDecl first) := by
  cases known : (scope.types first.qualifiedName.text).isSome <;>
    cases known' : (scope.types second.qualifiedName.text).isSome <;>
    simp [bind, report, nameType, Function.update_of_ne, apart, apart.symm, known, known',
      Function.update_comm apart, errors_comm]

theorem bind_message_comm {first second : Message} (apart : first.name ≠ second.name) :
    (scope.bind home (.message first)).bind home (.message second) =
      (scope.bind home (.message second)).bind home (.message first) := by
  cases known : scope.messages first.name <;> cases known' : scope.messages second.name <;>
    simp [bind, report, nameMessage, Function.update_of_ne, apart, apart.symm, known, known',
      Function.update_comm apart, errors_comm]

theorem bind_sourceState_comm {first second : State} (apart : first.name ≠ second.name) :
    (scope.bind home (.sourceState first)).bind home (.sourceState second) =
      (scope.bind home (.sourceState second)).bind home (.sourceState first) := by
  simp [bind, nameState, Function.update_comm apart]

/-- Binders that change places in twos may be bound in any order. -/
theorem bindAll_perm {Item : Type} {binder : Item → Binder} {name : Item → String}
    (comm : ∀ (scope : Scope) (first second : Item), name first ≠ name second →
      (scope.bind home (binder first)).bind home (binder second) =
        (scope.bind home (binder second)).bind home (binder first))
    {items others : List Item} (distinct : (items.map name).Nodup) (same : items.Perm others) :
    scope.bindAll home (items.map binder) = scope.bindAll home (others.map binder) := by
  unfold bindAll
  rw [List.foldl_map, List.foldl_map]
  apply same.foldl_eq'
  intro first one second two scope
  by_cases alone : first = second
  · rw [alone]
  · apply comm
    intro named
    exact alone (List.inj_on_of_nodup_map distinct one two named)

end Scope

namespace Protocol.Reordered

variable {protocol other : Protocol} (reordered : protocol.Reordered other)

include reordered

theorem home : Home.ofProtocol other = .ofProtocol protocol :=
  (congrArg Home.ofProtocol reordered.rest :)

theorem protocolNames : other.protocolNames = protocol.protocolNames :=
  (congrArg Protocol.protocolNames reordered.rest :)

theorem bind_ownProtocol (scope : Scope) (home : Home) :
    scope.bind home (.ownProtocol other) = scope.bind home (.ownProtocol protocol) :=
  (congrArg (fun own => scope.bind home (.ownProtocol own)) reordered.rest :)

theorem uses : protocol.uses.Perm other.uses := by
  unfold Protocol.uses
  rw [reordered.protocolNames]
  apply List.Perm.append
  · apply List.Perm.append_left
    exact reordered.messages.flatMap_right _
  · exact reordered.statements.flatMap_right _

end Protocol.Reordered

namespace SourceUnit

variable {unit other : SourceUnit} {protocol protocol' : Protocol}

theorem Reordered.protocol_cases (reordered : unit.Reordered other) :
    (unit.protocol = none ∧ other.protocol = none) ∨
      ∃ protocol protocol', unit.protocol = some protocol ∧ other.protocol = some protocol' ∧
        protocol.Reordered protocol' := by
  have related := reordered.protocols
  generalize unit.protocol = first, other.protocol = second at related
  cases related with
  | none => exact Or.inl ⟨rfl, rfl⟩
  | some inside => exact Or.inr ⟨_, _, rfl, rfl, inside⟩

section Inside

variable (reordered : unit.Reordered other) (inside : protocol.Reordered protocol')
  (apart : unit.NamedApart) (named : protocol.NamedApart) (extra : List String)

include reordered inside

theorem uses_reordered : (unit.uses protocol).Perm (other.uses protocol') :=
  (reordered.types.flatMap_right _).append inside.uses

include apart named

theorem scope_reordered :
    (other.bindings protocol' extra).scope = (unit.bindings protocol extra).scope := by
  have usings : other.usings = unit.usings := (congrArg SourceUnit.usings reordered.rest :)
  have includes : other.includes = unit.includes :=
    (congrArg SourceUnit.includes reordered.rest :)
  have types := fun scope : Scope => scope.bindAll_perm (.ofProtocol protocol)
    (fun scope _ _ => scope.bind_typeDecl_comm (.ofProtocol protocol)) apart.types reordered.types
  have own := fun scope : Scope => inside.bind_ownProtocol scope (.ofProtocol protocol)
  have messages := fun scope : Scope => scope.bindAll_perm (.ofProtocol protocol)
    (fun scope _ _ => scope.bind_message_comm (.ofProtocol protocol)) named.messages
      inside.messages
  have states := fun scope : Scope => scope.bindAll_perm (.ofProtocol protocol)
    (fun scope _ _ => scope.bind_sourceState_comm (.ofProtocol protocol)) named.sources
      inside.statements
  have single : ∀ (scope : Scope) (binder : Binder),
      scope.bindAll (.ofProtocol protocol) [binder] = scope.bind (.ofProtocol protocol) binder :=
    fun _ _ => rfl
  unfold bindings binders
  rw [Bindings.scope_ofBinders, Bindings.scope_ofBinders, inside.home, usings, includes]
  simp only [Scope.bindAll_append, single, types, own, messages, states]

/-- The errors of names are the same up to their order. -/
theorem namingErrors_reordered :
    (unit.resolution protocol extra).errors.Perm (other.resolution protocol' extra).errors := by
  have scope := scope_reordered reordered inside apart named extra
  have bound : (unit.bindings protocol extra).errors.Perm (other.bindings protocol' extra).errors :=
    Multiset.coe_eq_coe.mp (congrArg Scope.errors scope).symm
  rw [errors_resolution, errors_resolution, inside.home, Bindings.errorsOf_congr _ _ scope]
  exact bound.append ((uses_reordered reordered inside).flatMap_right _)

end Inside

end SourceUnit

end ActorProtocol

import ActorProtocol.Proofs.Naming.Binding
import ActorProtocol.Proofs.Naming.NodeRecord

/-!
# Uses continue the bindings

The uses of a unit start from its bindings. They only add declarations of members
and links to declarations that are there, so the table stays sound, what the
names stand for stays known, everything but a member was bound, and a member is
linked from its own node alone.
-/

namespace ActorProtocol

set_option autoImplicit false

/-- The declarations that uses make; all others are made by binders. -/
def DeclKind.isMember : DeclKind → Bool
  | field _ | param _ => true
  | builtinType | importedType | struct | union | protocol _ | includedProtocol _ | message _ _
  | state _ => false

theorem DeclKind.isMember_of_isType {kind : DeclKind} (isType : kind.isType = true) :
    kind.isMember = false := by
  cases kind <;> first | rfl | cases isType

theorem DeclKind.isType_of_isProtocol {kind : DeclKind} (isProtocol : kind.isProtocol = true) :
    kind.isType = true := by
  cases kind <;> first | rfl | cases isProtocol

namespace Names

/-- A spelling stands for what one of its candidates is bound to. -/
theorem type?_eq_some {names : Names} {home : Home} {name : QualifiedName} {id : DeclId}
    (found : names.type? home name = some id) :
    ∃ candidate ∈ home.candidates name.text, names.types.find? candidate = some id :=
  List.exists_of_findSome?_eq_some found

end Names

theorem Home.isMember_declared (home : Home) (id : DeclId) (binder : Binder) :
    (home.declared id binder).kind.isMember = false := by
  cases binder with
  | typeDecl type => exact DeclKind.isMember_of_isType type.body.isType_kind
  | _ => rfl

namespace Bindings

theorem no_members_ofBinders (home : Home) (binders : List Binder) :
    ∀ decl ∈ (ofBinders home binders).table.decls, decl.kind.isMember = false := by
  intro decl member
  obtain ⟨binder, _, id, rfl⟩ := exists_binder_of_mem member
  exact home.isMember_declared id binder

end Bindings

namespace Resolution

/-- What every use keeps of the table, which starts as that of the bindings. -/
structure Continues (bindings : Bindings) (resolution : Resolution) : Prop where
  grows : bindings.table.Extends resolution.table
  bound : ∀ id decl, resolution.table.decl? id = some decl → decl.kind.isMember = false →
    bindings.table.decl? id = some decl
  sound : resolution.table.Sound
  owned : ∀ left right id decl, resolution.table.linkOf? left = some id →
    resolution.table.linkOf? right = some id → resolution.table.decl? id = some decl →
    decl.kind.isMember = true → left = right

namespace Continues

variable {bindings : Bindings} {resolution after : Resolution}

theorem of_table (continues : resolution.Continues bindings)
    (same : after.table = resolution.table) : after.Continues bindings := by
  refine ⟨?_, ?_, ?_, ?_⟩ <;> rw [same]
  · exact continues.grows
  · exact continues.bound
  · exact continues.sound
  · exact continues.owned

/-- The declaration of a member belongs to one node. -/
theorem eq_of_declOf? (continues : resolution.Continues bindings) {left right : NodeId}
    {decl : Decl} (leftDecl : resolution.table.declOf? left = some decl)
    (rightDecl : resolution.table.declOf? right = some decl)
    (isMember : decl.kind.isMember = true) : left = right := by
  obtain ⟨leftLink, known⟩ := continues.sound.linkOf?_of_declOf? leftDecl
  obtain ⟨rightLink, _⟩ := continues.sound.linkOf?_of_declOf? rightDecl
  exact continues.owned left right decl.id decl leftLink rightLink known isMember

theorem link (continues : resolution.Continues bindings) (node : NodeId) {id : DeclId}
    {decl : Decl} (known : resolution.table.decl? id = some decl)
    (kind : decl.kind.isMember = false) : (resolution.link node id).Continues bindings where
  grows := continues.grows
  bound := continues.bound
  sound := continues.sound.link node known
  owned := by
    intro left right target other leftLink rightLink found isMember
    have ne : target ≠ id := by
      intro same
      have unique : some other = some decl := by
        rw [← known, ← same]
        exact found.symm
      cases unique
      rw [kind] at isMember
      cases isMember
    have earlier : ∀ asked, (resolution.link node id).table.linkOf? asked = some target →
        resolution.table.linkOf? asked = some target := by
      intro asked linked
      rw [show (resolution.link node id).table = resolution.table.link node id from rfl,
        DeclTable.linkOf?_link] at linked
      by_cases same : node = asked
      · rw [if_pos same] at linked
        exact absurd (Option.some.inj linked).symm ne
      · rw [if_neg same] at linked
        exact linked
    exact continues.owned left right target other (earlier left leftLink)
      (earlier right rightLink) found isMember

theorem record (continues : resolution.Continues bindings) {decl : Decl}
    (fresh : decl.id = resolution.table.nextId) (kind : decl.kind.isMember = true)
    (node : NodeId) : (resolution.record decl node).Continues bindings where
  grows := continues.grows.trans (DeclTable.extends_record _ decl node)
  bound := by
    intro id other known outside
    rw [show (resolution.record decl node).table = resolution.table.record decl node from rfl,
      DeclTable.decl?_record] at known
    by_cases last : id = resolution.table.nextId
    · rw [if_pos last] at known
      cases known
      rw [kind] at outside
      cases outside
    · rw [if_neg last] at known
      exact continues.bound id other known outside
  sound := continues.sound.record fresh node
  owned := by
    intro left right id other leftLink rightLink found isMember
    simp only [Resolution.record, DeclTable.linkOf?_record] at leftLink rightLink
    rw [show (resolution.record decl node).table = resolution.table.record decl node from rfl,
      DeclTable.decl?_record] at found
    have stale : ∀ asked, resolution.table.linkOf? asked ≠ some decl.id := by
      intro asked
      rw [fresh]
      exact continues.sound.linkOf?_ne_nextId asked
    by_cases isLeft : node = left
    · by_cases isRight : node = right
      · exact isLeft.symm.trans isRight
      · rw [if_pos isLeft] at leftLink
        rw [if_neg isRight] at rightLink
        cases leftLink
        exact absurd rightLink (stale right)
    · rw [if_neg isLeft] at leftLink
      by_cases isRight : node = right
      · rw [if_pos isRight] at rightLink
        cases rightLink
        exact absurd leftLink (stale left)
      · rw [if_neg isRight] at rightLink
        have earlier : id ≠ resolution.table.nextId := by
          intro same
          rw [same] at leftLink
          exact continues.sound.linkOf?_ne_nextId left leftLink
        rw [if_neg earlier] at found
        exact continues.owned left right id other leftLink rightLink found isMember

variable {binders : List Binder} {home : Home}

theorem useType (continues : resolution.Continues bindings) (explained : bindings.Explained binders)
    (type : TypeRef) : (resolution.useType bindings.names home type).Continues bindings := by
  have linked : ∀ {decl}, bindings.names.type? home type.name = some decl →
      (resolution.link type.id decl).Continues bindings := by
    intro decl found
    obtain ⟨candidate, _, bound⟩ := Names.type?_eq_some found
    obtain ⟨target, known, isType, _⟩ := explained.types candidate decl bound
    exact continues.link type.id (continues.grows _ _ known) (DeclKind.isMember_of_isType isType)
  have outcome := resolution.useType_cases bindings.names home type
  generalize resolution.useType bindings.names home type = after at outcome
  cases outcome with
  | unknown => exact continues.of_table rfl
  | plain found => exact linked found
  | anyState found => exact (linked found).of_table rfl
  | notActor found => exact (linked found).of_table rfl
  | foreignState found => exact (linked found).of_table rfl
  | unknownState found => exact (linked found).of_table rfl
  | @ownState _ _ state found asked _ _ declared =>
      obtain ⟨target, known, start, kind⟩ := explained.states state.name _ declared
      split
      · exact (linked found).of_table rfl
      · refine ((linked found).link state.id (continues.grows _ _ known) ?_).of_table rfl
        rw [kind]
        rfl

theorem useMember (continues : resolution.Continues bindings)
    (explained : bindings.Explained binders) {kind : DeclId → DeclKind}
    (members : ∀ type, (kind type).isMember = true) (member : Member) :
    (resolution.useMember bindings.names home kind member).Continues bindings := by
  have typed : (resolution.useType bindings.names home member.type).Continues bindings :=
    continues.useType explained member.type
  unfold Resolution.useMember
  dsimp only
  split
  · exact typed.record rfl (members _) member.id
  · exact typed.of_table rfl

theorem useProtocolName (continues : resolution.Continues bindings)
    (explained : bindings.Explained binders) (name : Ident) :
    (resolution.useProtocolName bindings.names name).Continues bindings := by
  unfold Resolution.useProtocolName
  split
  · rename_i decl found
    obtain ⟨target, known, isProtocol, _⟩ := explained.protocols name.name decl found
    exact continues.link name.id (continues.grows _ _ known)
      (DeclKind.isMember_of_isType (DeclKind.isType_of_isProtocol isProtocol))
  · exact continues.of_table rfl

theorem useDestination (continues : resolution.Continues bindings)
    (explained : bindings.Explained binders) (state : State) :
    (resolution.useDestination bindings.names state).Continues bindings := by
  unfold Resolution.useDestination
  split
  · exact continues
  · split
    · rename_i decl found
      obtain ⟨target, known, start, kind⟩ := explained.states state.name decl found
      refine continues.link state.id (continues.grows _ _ known) ?_
      rw [kind]
      rfl
    · exact continues

theorem useTransition (continues : resolution.Continues bindings)
    (explained : bindings.Explained binders) (transition : Transition) :
    (resolution.useTransition bindings.names transition).Continues bindings := by
  have destinations : ∀ (states : List State) (named : Resolution), named.Continues bindings →
      (states.foldl (fun named state => named.useDestination bindings.names state)
        named).Continues bindings := by
    intro states
    induction states with
    | nil =>
        intro named continues
        exact continues
    | cons state states ih =>
        intro named continues
        exact ih _ (continues.useDestination explained state)
  unfold Resolution.useTransition
  split
  · exact continues
  · rename_i message action
    apply destinations
    split
    · rename_i decl found
      obtain ⟨target, known, bound, _, kind⟩ := explained.messages message decl found
      refine continues.link transition.id (continues.grows _ _ known) ?_
      rw [kind]
      rfl
    · exact continues.of_table rfl

theorem use (continues : resolution.Continues bindings) (explained : bindings.Explained binders)
    (use : Use) : (resolution.use bindings.names home use).Continues bindings := by
  cases use with
  | openStruct struct => exact continues.of_table rfl
  | openMessage message => exact continues.of_table (resolution.openMessage_table message).1
  | field member => exact continues.useMember explained (fun _ => rfl) member
  | component type => exact continues.useType explained type
  | param member => exact continues.useMember explained (fun _ => rfl) member
  | protocolName name => exact continues.useProtocolName explained name
  | transition transition => exact continues.useTransition explained transition

theorem useAll (continues : resolution.Continues bindings)
    (explained : bindings.Explained binders) (uses : List Use) :
    (resolution.useAll bindings.names home uses).Continues bindings := by
  induction uses generalizing resolution with
  | nil => exact continues
  | cons use uses ih => exact ih (continues.use explained use)

/-- The names stay explained by the table that is there, so uses only extend it. -/
theorem extends_useAll (continues : resolution.Continues bindings)
    (explained : bindings.Explained binders) (uses : List Use) :
    resolution.table.Extends (resolution.useAll bindings.names home uses).table := by
  let current : Bindings := { bindings with table := resolution.table }
  have known : current.Explained binders := explained.extend continues.sound continues.grows
  have start : resolution.Continues current :=
    ⟨DeclTable.Extends.refl _, fun _ _ known _ => known, continues.sound, continues.owned⟩
  exact (start.useAll known uses).grows

end Continues

theorem continues_ofBindings (home : Home) (binders : List Binder) :
    (ofBindings (.ofBinders home binders)).Continues (.ofBinders home binders) where
  grows := DeclTable.Extends.refl _
  bound := fun _ _ known _ => known
  sound := (Bindings.explained_ofBinders home binders).sound
  owned := by
    intro left right id decl _ _ known isMember
    have bound := (DeclTable.mem_decls_iff _ decl).mpr ⟨id, known⟩
    rw [Bindings.no_members_ofBinders home binders decl bound] at isMember
    cases isMember

end Resolution

end ActorProtocol

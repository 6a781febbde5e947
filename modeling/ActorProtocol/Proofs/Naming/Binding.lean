import ActorProtocol.Proofs.Declaration.Soundness
import ActorProtocol.Proofs.Naming.Declared

/-!
# What bindings say

After any list of binders, a name that is bound stands for a declaration of the
right kind, and every type or message that was declared can be found by its name.
The binders need not come from a unit, and their order is free: each binder keeps
both accounts, so every list of them does.
-/

namespace ActorProtocol

set_option autoImplicit false

/-- The names under which a type is declared. One that is brought in has its base
name besides its full name, and the protocol of the unit its bare name. -/
inductive Decl.KnownAs (binders : List Binder) (decl : Decl) : String → Prop
  | fullName : decl.KnownAs binders decl.fullName
  | baseName {brought : UsingType} (member : .usingType brought ∈ binders)
      (kind : decl.kind = .importedType) (full : decl.fullName = brought.type.name.text) :
      decl.KnownAs binders brought.type.baseName
  | bareName {protocol : Protocol} (member : .ownProtocol protocol ∈ binders)
      (kind : decl.kind = .protocol protocol.semantics)
      (full : decl.fullName = protocol.qualifiedName.text) :
      decl.KnownAs binders protocol.name

theorem Decl.KnownAs.mono {binders more : List Binder} {decl : Decl} {name : String}
    (known : decl.KnownAs binders name) (subset : binders ⊆ more) : decl.KnownAs more name := by
  cases known with
  | fullName => exact .fullName
  | baseName member kind full => exact .baseName (subset member) kind full
  | bareName member kind full => exact .bareName (subset member) kind full

def Binder.message? : Binder → Option Message
  | .message bound => some bound
  | _ => none

/-- The message that a name means, which is the first that is bound to it. -/
def firstMessage? (binders : List Binder) (name : String) : Option Message :=
  (binders.filterMap Binder.message?).find? fun message => message.name == name

theorem firstMessage?_concat (binders : List Binder) (binder : Binder) (name : String) :
    firstMessage? (binders ++ [binder]) name =
      (firstMessage? binders name).or (firstMessage? [binder] name) := by
  simp [firstMessage?, List.filterMap_append]

theorem firstMessage?_of_other {binder : Binder} (other : binder.message? = none) (name : String) :
    firstMessage? [binder] name = none := by
  simp [firstMessage?, other]

namespace Bindings

/-- The declarations that the names lead to. -/
structure Explained (binders : List Binder) (bindings : Bindings) : Prop where
  sound : bindings.table.Sound
  types : bindings.table.Explains bindings.names.types fun name decl =>
    decl.kind.isType = true ∧ decl.KnownAs binders name
  protocols : bindings.table.Explains bindings.names.protocols fun name decl =>
    decl.kind.isProtocol = true ∧ decl.name = name
  messages : bindings.table.Explains bindings.names.messages fun name decl =>
    ∃ message, firstMessage? binders name = some message ∧
      decl.kind = .message message.semantics message.direction
  states : bindings.table.Explains bindings.names.states fun _ decl =>
    ∃ start, decl.kind = .state start

namespace Explained

variable {binders : List Binder} {bindings : Bindings} {decl : Decl} {id : DeclId}

theorem concat (explained : bindings.Explained binders) (binder : Binder) :
    bindings.Explained (binders ++ [binder]) where
  sound := explained.sound
  types := explained.types.weaken fun _ _ fit =>
    ⟨fit.1, fit.2.mono (List.subset_append_left _ _)⟩
  protocols := explained.protocols
  messages := by
    refine explained.messages.weaken ?_
    rintro name decl ⟨message, first, kind⟩
    refine ⟨message, ?_, kind⟩
    rw [firstMessage?_concat, first]
    rfl
  states := explained.states

theorem extend {table : DeclTable} (explained : bindings.Explained binders) (sound : table.Sound)
    (grows : bindings.table.Extends table) :
    ({ bindings with table } : Bindings).Explained binders where
  sound := sound
  types := explained.types.extend grows
  protocols := explained.protocols.extend grows
  messages := explained.messages.extend grows
  states := explained.states.extend grows

theorem add (explained : bindings.Explained binders) (fresh : decl.id = bindings.table.nextId) :
    (bindings.add decl).Explained binders :=
  explained.extend (explained.sound.add fresh) (DeclTable.extends_add _ decl)

theorem record (explained : bindings.Explained binders) (fresh : decl.id = bindings.table.nextId)
    (node : NodeId) : (bindings.record decl node).Explained binders :=
  explained.extend (explained.sound.record fresh node) (DeclTable.extends_record _ decl node)

theorem link (explained : bindings.Explained binders) (node : NodeId)
    (known : bindings.table.decl? id = some decl) : (bindings.link node id).Explained binders :=
  explained.extend (explained.sound.link node known) (DeclTable.extends_link _ node id)

theorem report (explained : bindings.Explained binders) (error : NamingError) (loc : Location) :
    (bindings.report error loc).Explained binders where
  sound := explained.sound
  types := explained.types
  protocols := explained.protocols
  messages := explained.messages
  states := explained.states

theorem nameType (explained : bindings.Explained binders)
    (known : bindings.table.decl? id = some decl) (kind : decl.kind.isType = true) {name : String}
    (named : decl.KnownAs binders name) : (bindings.nameType name id).Explained binders :=
  { explained with types := explained.types.insert known ⟨kind, named⟩ }

theorem nameTypeIfNew (explained : bindings.Explained binders)
    (known : bindings.table.decl? id = some decl) (kind : decl.kind.isType = true) {name : String}
    (named : decl.KnownAs binders name) : (bindings.nameTypeIfNew name id).Explained binders :=
  { explained with types := explained.types.insertIfNew known ⟨kind, named⟩ }

theorem nameProtocol (explained : bindings.Explained binders)
    (known : bindings.table.decl? id = some decl) (kind : decl.kind.isProtocol = true) :
    (bindings.nameProtocol decl.name id).Explained binders :=
  { explained with protocols := explained.protocols.insert known ⟨kind, rfl⟩ }

theorem nameMessage (explained : bindings.Explained binders)
    (known : bindings.table.decl? id = some decl) {message : Message} {name : String}
    (first : firstMessage? binders name = some message)
    (kind : decl.kind = .message message.semantics message.direction) :
    (bindings.nameMessage name id).Explained binders :=
  { explained with messages := explained.messages.insert known ⟨message, first, kind⟩ }

theorem nameState (explained : bindings.Explained binders)
    (known : bindings.table.decl? id = some decl) {start : Bool} (kind : decl.kind = .state start)
    (name : String) : (bindings.nameState name id).Explained binders :=
  { explained with states := explained.states.insert known ⟨start, kind⟩ }

theorem nameOwn (explained : bindings.Explained binders) (id : DeclId) :
    (bindings.nameOwn id).Explained binders :=
  ⟨explained.sound, explained.types, explained.protocols, explained.messages, explained.states⟩

theorem decl?_next_add (home : Home) (bindings : Bindings) (binder : Binder) :
    (bindings.add (bindings.next home binder)).table.decl? bindings.table.nextId =
      some (bindings.next home binder) := by
  rw [← bindings.id_next home binder]
  exact DeclTable.decl?_add_self bindings.table (bindings.id_next home binder)

theorem decl?_next_record (home : Home) (bindings : Bindings) (binder : Binder) (node : NodeId) :
    (bindings.record (bindings.next home binder) node).table.decl? bindings.table.nextId =
      some (bindings.next home binder) := by
  rw [← bindings.id_next home binder]
  exact DeclTable.decl?_record_self bindings.table (bindings.id_next home binder) node

/-- A binder names its declaration before that is in the table. The proof records it
first, which comes to the same bindings. A message is the first of its name exactly when
the name is not taken. -/
theorem bind (explained : bindings.Explained binders) {home : Home} (binder : Binder)
    (kept : ∀ name, bindings.names.messages.contains name = false →
      firstMessage? binders name = none) :
    (bindings.bind home binder).Explained (binders ++ [binder]) := by
  have prior := explained.concat binder
  have added : (bindings.add (bindings.next home binder)).Explained (binders ++ [binder]) :=
    prior.add (bindings.id_next home binder)
  have recorded : ∀ node, (bindings.record (bindings.next home binder) node).Explained
      (binders ++ [binder]) := prior.record (bindings.id_next home binder)
  have known := decl?_next_record home bindings binder
  have last : binder ∈ binders ++ [binder] := List.mem_append_right _ List.mem_cons_self
  have outcome := bind_cases home bindings binder
  generalize bindings.bind home binder = after at outcome ⊢
  cases outcome with
  | @builtinType name =>
      exact added.nameType (decl?_next_add home bindings (.builtinType name)) rfl .fullName
  | builtinTypeAgain => exact prior
  | @sentinel state =>
      exact added.nameState (decl?_next_add home bindings (.sentinel state)) rfl state.name
  | @usingType brought =>
      have full := (recorded brought.type.id).nameType (known _) rfl .fullName
      exact full.nameTypeIfNew (known _) rfl (.baseName last rfl rfl)
  | usingTypeAgain taken =>
      obtain ⟨decl, declared, _⟩ := prior.types _ _ taken
      exact prior.link _ declared
  | @typeDecl type =>
      exact (recorded type.id).nameType (known _) type.body.isType_kind .fullName
  | typeDeclAgain | includedAgain | messageAgain => exact (recorded _).report _ _
  | @ownProtocol protocol =>
      have full := (recorded protocol.id).nameType (known _) rfl .fullName
      have bare := full.nameType (known _) rfl (.bareName last rfl rfl)
      exact (bare.nameProtocol (known _) rfl).nameOwn _
  | @included included =>
      have named := (recorded included.id).nameType (known _) rfl .fullName
      exact named.nameProtocol (known _) rfl
  | @message message absent =>
      have first : firstMessage? (binders ++ [.message message]) message.name = some message := by
        rw [firstMessage?_concat, kept message.name absent]
        simp [firstMessage?, Binder.message?]
      exact (recorded message.id).nameMessage (known _) first rfl
  | @sourceState state => exact (recorded state.id).nameState (known _) rfl state.name
  | sourceStateAgain taken =>
      obtain ⟨decl, declared, _⟩ := prior.states _ _ taken
      exact prior.link _ declared

end Explained

/-- The declarations that can be found by their names. -/
structure Kept (binders : List Binder) (bindings : Bindings) : Prop where
  types : ∀ id decl, bindings.table.decl? id = some decl → decl.kind.isType = true →
    bindings.names.types.contains decl.fullName = true
  protocols : ∀ name, bindings.names.protocols.contains name = true →
    bindings.names.types.contains name = true
  messages : ∀ name, (firstMessage? binders name).isSome = true →
    bindings.names.messages.contains name = true

namespace Kept

variable {binders : List Binder} {bindings : Bindings} {decl : Decl}

theorem concat (kept : bindings.Kept binders) {binder : Binder} (other : binder.message? = none) :
    bindings.Kept (binders ++ [binder]) where
  types := kept.types
  protocols := kept.protocols
  messages := by
    intro name present
    rw [firstMessage?_concat, firstMessage?_of_other other, Option.or_none] at present
    exact kept.messages name present

theorem add (kept : bindings.Kept binders)
    (typed : decl.kind.isType = true → bindings.names.types.contains decl.fullName = true) :
    (bindings.add decl).Kept binders where
  types := by
    intro id other known isType
    rw [show (bindings.add decl).table = bindings.table.add decl from rfl, DeclTable.decl?_add]
      at known
    by_cases last : id = bindings.table.nextId
    · rw [if_pos last] at known
      cases known
      exact typed isType
    · rw [if_neg last] at known
      exact kept.types id other known isType
  protocols := kept.protocols
  messages := kept.messages

theorem link (kept : bindings.Kept binders) (node : NodeId) (id : DeclId) :
    (bindings.link node id).Kept binders :=
  ⟨kept.types, kept.protocols, kept.messages⟩

theorem record (kept : bindings.Kept binders)
    (typed : decl.kind.isType = true → bindings.names.types.contains decl.fullName = true)
    (node : NodeId) : (bindings.record decl node).Kept binders :=
  (kept.link node decl.id).add typed

theorem report (kept : bindings.Kept binders) (error : NamingError) (loc : Location) :
    (bindings.report error loc).Kept binders :=
  ⟨kept.types, kept.protocols, kept.messages⟩

theorem nameType (kept : bindings.Kept binders) (name : String) (id : DeclId) :
    (bindings.nameType name id).Kept binders where
  types := fun other decl known isType =>
    (OrderedMap.contains_insert _ _ _ _).mpr (Or.inr (kept.types other decl known isType))
  protocols := fun other present =>
    (OrderedMap.contains_insert _ _ _ _).mpr (Or.inr (kept.protocols other present))
  messages := kept.messages

theorem nameTypeIfNew (kept : bindings.Kept binders) (name : String) (id : DeclId) :
    (bindings.nameTypeIfNew name id).Kept binders where
  types := fun other decl known isType =>
    (OrderedMap.contains_insertIfNew _ _ _ _).mpr (Or.inr (kept.types other decl known isType))
  protocols := fun other present =>
    (OrderedMap.contains_insertIfNew _ _ _ _).mpr (Or.inr (kept.protocols other present))
  messages := kept.messages

theorem nameProtocol (kept : bindings.Kept binders) {name : String}
    (typed : bindings.names.types.contains name = true) (id : DeclId) :
    (bindings.nameProtocol name id).Kept binders where
  types := kept.types
  protocols := by
    intro other present
    rcases (OrderedMap.contains_insert _ _ _ _).mp present with same | earlier
    · exact same ▸ typed
    · exact kept.protocols other earlier
  messages := kept.messages

theorem nameState (kept : bindings.Kept binders) (name : String) (id : DeclId) :
    (bindings.nameState name id).Kept binders :=
  ⟨kept.types, kept.protocols, kept.messages⟩

theorem nameOwn (kept : bindings.Kept binders) (id : DeclId) : (bindings.nameOwn id).Kept binders :=
  ⟨kept.types, kept.protocols, kept.messages⟩

theorem nameMessage (kept : bindings.Kept binders) (name : String) (id : DeclId) :
    (bindings.nameMessage name id).Kept binders where
  types := kept.types
  protocols := kept.protocols
  messages := fun other present =>
    (OrderedMap.contains_insert _ _ _ _).mpr (Or.inr (kept.messages other present))

/-- A message keeps the account once its name is taken, by itself or an earlier one. -/
theorem concat_message (kept : bindings.Kept binders) {message : Message}
    (taken : bindings.names.messages.contains message.name = true) :
    bindings.Kept (binders ++ [.message message]) where
  types := kept.types
  protocols := kept.protocols
  messages := by
    intro name present
    rw [firstMessage?_concat, Option.isSome_or, Bool.or_eq_true] at present
    rcases present with earlier | last
    · exact kept.messages name earlier
    · have same : message.name = name := by
        by_cases named : message.name = name
        · exact named
        · simp [firstMessage?, Binder.message?, named] at last
      exact same ▸ taken

theorem names_taken (name : String) (id : DeclId) (bindings : Bindings) :
    (bindings.nameType name id).names.types.contains name = true :=
  (OrderedMap.contains_insert _ _ _ _).mpr (Or.inl rfl)

variable {home : Home}

theorem bind (kept : bindings.Kept binders) (binder : Binder) :
    (bindings.bind home binder).Kept (binders ++ [binder]) := by
  have outcome := bind_cases home bindings binder
  generalize bindings.bind home binder = after at outcome ⊢
  cases outcome with
  | @builtinType name =>
      exact ((kept.nameType name _).add fun _ => names_taken name _ bindings).concat rfl
  | builtinTypeAgain => exact kept.concat rfl
  | @sentinel state =>
      exact ((kept.nameState state.name _).add fun typed => by cases typed).concat rfl
  | usingType =>
      exact (((kept.nameType _ _).nameTypeIfNew _ _).record (fun _ =>
        (OrderedMap.contains_insertIfNew _ _ _ _).mpr (Or.inr (names_taken _ _ bindings)))
          _).concat rfl
  | usingTypeAgain | sourceStateAgain => exact (kept.link _ _).concat rfl
  | typeDecl => exact ((kept.nameType _ _).record (fun _ => names_taken _ _ bindings) _).concat rfl
  | typeDeclAgain taken =>
      exact ((kept.report _ _).record (fun _ => by exact taken) _).concat rfl
  | @ownProtocol protocol =>
      have bare := (kept.nameType protocol.qualifiedName.text bindings.table.nextId).nameType
        protocol.name bindings.table.nextId
      have taken := (bare.nameProtocol (names_taken _ _ _) bindings.table.nextId).nameOwn
        bindings.table.nextId
      exact (taken.record (fun _ => (OrderedMap.contains_insert _ _ _ _).mpr
        (Or.inr (names_taken _ _ bindings))) protocol.id).concat rfl
  | @included included =>
      have named := (kept.nameType included.protocol bindings.table.nextId).nameProtocol
        (names_taken _ _ _) bindings.table.nextId
      exact (named.record (fun _ => by exact names_taken _ _ bindings) _).concat rfl
  | includedAgain taken =>
      exact ((kept.report _ _).record (fun _ => kept.protocols _ taken) _).concat rfl
  | @message message =>
      have named := kept.nameMessage message.name bindings.table.nextId
      exact (named.concat_message ((OrderedMap.contains_insert _ _ _ _).mpr (Or.inl rfl))).record
        (fun typed => by cases typed) _
  | messageAgain taken =>
      exact ((kept.concat_message taken).report _ _).record (fun typed => by cases typed) _
  | @sourceState state =>
      exact ((kept.nameState state.name _).record (fun typed => by cases typed) _).concat rfl

end Kept

theorem kept_ofBinders (home : Home) (binders : List Binder) :
    (ofBinders home binders).Kept binders := by
  induction binders using List.reverseRecOn with
  | nil =>
      refine ⟨?_, ?_, ?_⟩
      · intro id decl known
        cases known
      · intro name present
        cases present
      · intro name present
        cases present
  | append_singleton binders binder ih =>
      rw [ofBinders_concat]
      exact ih.bind binder

theorem explained_ofBinders (home : Home) (binders : List Binder) :
    (ofBinders home binders).Explained binders := by
  induction binders using List.reverseRecOn with
  | nil =>
      exact ⟨DeclTable.sound_empty, DeclTable.explains_empty _ _, DeclTable.explains_empty _ _,
        DeclTable.explains_empty _ _, DeclTable.explains_empty _ _⟩
  | append_singleton binders binder ih =>
      rw [ofBinders_concat]
      apply ih.bind binder
      intro name absent
      cases found : firstMessage? binders name with
      | none => rfl
      | some earlier =>
          have taken := (kept_ofBinders home binders).messages name (by simp [found])
          rw [absent] at taken
          cases taken

/-- Binders that come later leave the declarations that there are as they are. -/
theorem extends_ofBinders (home : Home) (first later : List Binder) :
    (ofBinders home first).table.Extends (ofBinders home (first ++ later)).table := by
  obtain ⟨added, grown⟩ := decls_ofBinders_append home first later
  intro id decl known
  unfold DeclTable.decl?
  rw [grown, List.getElem?_append_left (List.getElem?_eq_some_iff.mp known).1]
  exact known

end Bindings

end ActorProtocol

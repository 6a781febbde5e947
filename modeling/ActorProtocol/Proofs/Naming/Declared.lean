import ActorProtocol.Naming.Bindings
import Mathlib.Data.List.Induction

/-!
# What binders do

A binder has one declaration that it may add to the table, under the next id. Builtin
types, types brought in and source states add it only when their name is new; the
other binders always do, also when they report that the name is taken. `BindCase` lists
everything that binding may come to, and what is proved of bindings goes by its cases.
-/

namespace ActorProtocol

set_option autoImplicit false

/-- What a declaration of a structure or a union declares. -/
def TypeBody.kind : TypeBody → DeclKind
  | struct _ => .struct
  | union _ => .union

theorem TypeBody.isType_kind (body : TypeBody) : body.kind.isType = true := by
  cases body <;> rfl

/-- The declaration that a binder makes under an id. -/
def Home.declared (home : Home) (id : DeclId) : Binder → Decl
  | .builtinType name => home.decl id name name .builtinType .builtin .unknown
  | .sentinel state => home.decl id state.name state.name (.state state.start) .builtin .unknown
  | .usingType brought =>
      home.decl id brought.type.baseName brought.type.name.text .importedType .unit brought.loc
  | .typeDecl type =>
      home.decl id type.name type.qualifiedName.text type.body.kind .unit type.loc
  | .ownProtocol protocol =>
      home.decl id protocol.name protocol.qualifiedName.text (.protocol protocol.semantics) .unit
        protocol.loc
  | .included included =>
      home.decl id included.protocol included.protocol (.includedProtocol included.file) .unit
        included.loc
  | .message message =>
      home.decl id message.name (home.qualify message.name)
        (.message message.semantics message.direction) .protocol message.loc
  | .sourceState state =>
      home.decl id state.name (home.qualify state.name) (.state state.start) .protocol state.loc

theorem Home.id_declared (home : Home) (id : DeclId) (binder : Binder) :
    (home.declared id binder).id = id := by
  cases binder <;> rfl

theorem Home.shortName_declared (home : Home) (id : DeclId) (binder : Binder) :
    (home.declared id binder).shortName =
      QualifiedName.shortName (home.declared id binder).fullName home.context := by
  cases binder <;> rfl

/-- Whether a binder adds its declaration in any case. -/
def Binder.declares : Binder → Bool
  | .sentinel _ | .typeDecl _ | .ownProtocol _ | .included _ | .message _ => true
  | .builtinType _ | .usingType _ | .sourceState _ => false

namespace Bindings

theorem ofBinders_concat (home : Home) (binders : List Binder) (binder : Binder) :
    ofBinders home (binders ++ [binder]) = (ofBinders home binders).bind home binder := by
  unfold ofBinders
  rw [List.foldl_append]
  rfl

/-- The declaration that a binder would add next. -/
def next (home : Home) (bindings : Bindings) (binder : Binder) : Decl :=
  home.declared bindings.table.nextId binder

theorem id_next (home : Home) (bindings : Bindings) (binder : Binder) :
    (bindings.next home binder).id = bindings.table.nextId :=
  home.id_declared bindings.table.nextId binder

/-- What binding may come to, when names are new and when they are taken. -/
inductive BindCase (home : Home) (bindings : Bindings) : Binder → Bindings → Prop
  | builtinType {name : String} (absent : bindings.names.types.contains name = false) :
      BindCase home bindings (.builtinType name)
        ((bindings.nameType name bindings.table.nextId).add
          (bindings.next home (.builtinType name)))
  | builtinTypeAgain {name : String} (taken : bindings.names.types.contains name = true) :
      BindCase home bindings (.builtinType name) bindings
  | sentinel {state : State} :
      BindCase home bindings (.sentinel state)
        ((bindings.nameState state.name bindings.table.nextId).add
          (bindings.next home (.sentinel state)))
  | usingType {brought : UsingType}
      (absent : bindings.names.types.contains brought.type.name.text = false) :
      BindCase home bindings (.usingType brought)
        (((bindings.nameType brought.type.name.text bindings.table.nextId).nameTypeIfNew
          brought.type.baseName bindings.table.nextId).record
            (bindings.next home (.usingType brought)) brought.type.id)
  | usingTypeAgain {brought : UsingType} {existing : DeclId}
      (taken : bindings.names.types.find? brought.type.name.text = some existing) :
      BindCase home bindings (.usingType brought) (bindings.link brought.type.id existing)
  | typeDecl {type : TypeDecl}
      (absent : bindings.names.types.contains type.qualifiedName.text = false) :
      BindCase home bindings (.typeDecl type)
        ((bindings.nameType type.qualifiedName.text bindings.table.nextId).record
          (bindings.next home (.typeDecl type)) type.id)
  | typeDeclAgain {type : TypeDecl}
      (taken : bindings.names.types.contains type.qualifiedName.text = true) :
      BindCase home bindings (.typeDecl type)
        ((bindings.report (.duplicateDecl type.qualifiedName.text) type.loc).record
          (bindings.next home (.typeDecl type)) type.id)
  | ownProtocol {protocol : Protocol} :
      BindCase home bindings (.ownProtocol protocol)
        (((((bindings.nameType protocol.qualifiedName.text bindings.table.nextId).nameType
          protocol.name bindings.table.nextId).nameProtocol protocol.name
            bindings.table.nextId).nameOwn bindings.table.nextId).record
              (bindings.next home (.ownProtocol protocol)) protocol.id)
  | included {included : ProtocolInclude}
      (absent : bindings.names.protocols.contains included.protocol = false) :
      BindCase home bindings (.included included)
        (((bindings.nameType included.protocol bindings.table.nextId).nameProtocol
          included.protocol bindings.table.nextId).record
            (bindings.next home (.included included)) included.id)
  | includedAgain {included : ProtocolInclude}
      (taken : bindings.names.protocols.contains included.protocol = true) :
      BindCase home bindings (.included included)
        ((bindings.report (.duplicateDecl included.protocol) included.loc).record
          (bindings.next home (.included included)) included.id)
  | message {message : Message}
      (absent : bindings.names.messages.contains message.name = false) :
      BindCase home bindings (.message message)
        ((bindings.nameMessage message.name bindings.table.nextId).record
          (bindings.next home (.message message)) message.id)
  | messageAgain {message : Message}
      (taken : bindings.names.messages.contains message.name = true) :
      BindCase home bindings (.message message)
        ((bindings.report (.duplicateDecl (home.qualify message.name)) message.loc).record
          (bindings.next home (.message message)) message.id)
  | sourceState {state : State} (absent : bindings.names.states.contains state.name = false) :
      BindCase home bindings (.sourceState state)
        ((bindings.nameState state.name bindings.table.nextId).record
          (bindings.next home (.sourceState state)) state.id)
  | sourceStateAgain {state : State} {existing : DeclId}
      (taken : bindings.names.states.find? state.name = some existing) :
      BindCase home bindings (.sourceState state) (bindings.link state.id existing)

theorem bind_cases (home : Home) (bindings : Bindings) (binder : Binder) :
    BindCase home bindings binder (bindings.bind home binder) := by
  cases binder with
  | builtinType name =>
      change BindCase home bindings _ (bindings.bindBuiltinType home name)
      unfold bindBuiltinType
      split
      · rename_i taken
        exact .builtinTypeAgain taken
      · rename_i absent
        exact .builtinType (by simpa using absent)
  | sentinel state => exact .sentinel
  | usingType brought =>
      change BindCase home bindings _ (bindings.bindUsingType home brought)
      unfold bindUsingType
      dsimp only
      split
      · rename_i existing taken
        exact .usingTypeAgain taken
      · rename_i absent
        exact .usingType ((OrderedMap.find?_eq_none_iff _ _).mp absent)
  | typeDecl type =>
      change BindCase home bindings _ (bindings.bindTypeDecl home type)
      unfold bindTypeDecl
      dsimp only
      split
      · rename_i taken
        exact .typeDeclAgain taken
      · rename_i absent
        exact .typeDecl (by simpa using absent)
  | ownProtocol protocol => exact .ownProtocol
  | included included =>
      change BindCase home bindings _ (bindings.bindIncluded home included)
      unfold bindIncluded
      dsimp only
      split
      · rename_i taken
        exact .includedAgain taken
      · rename_i absent
        exact .included (by simpa using absent)
  | message message =>
      change BindCase home bindings _ (bindings.bindMessage home message)
      unfold bindMessage
      dsimp only
      split
      · rename_i taken
        exact .messageAgain taken
      · rename_i absent
        exact .message (by simpa using absent)
  | sourceState state =>
      change BindCase home bindings _ (bindings.bindSourceState home state)
      unfold bindSourceState
      split
      · rename_i existing taken
        exact .sourceStateAgain taken
      · rename_i absent
        exact .sourceState ((OrderedMap.find?_eq_none_iff _ _).mp absent)

variable {home : Home} {bindings : Bindings} {binder : Binder}

theorem decls_bind_of_declares (declares : binder.declares = true) :
    (bindings.bind home binder).table.decls =
      bindings.table.decls ++ [bindings.next home binder] := by
  have outcome := bind_cases home bindings binder
  generalize bindings.bind home binder = after at outcome ⊢
  cases outcome with
  | builtinType | builtinTypeAgain | usingType | usingTypeAgain | sourceState
  | sourceStateAgain => cases declares
  | _ => rfl

theorem decls_bind (home : Home) (bindings : Bindings) (binder : Binder) :
    (bindings.bind home binder).table.decls = bindings.table.decls ∨
      (bindings.bind home binder).table.decls =
        bindings.table.decls ++ [bindings.next home binder] := by
  have outcome := bind_cases home bindings binder
  generalize bindings.bind home binder = after at outcome ⊢
  cases outcome with
  | builtinTypeAgain | usingTypeAgain | sourceStateAgain => exact .inl rfl
  | _ => exact .inr rfl

theorem own_bind_of_other (other : ∀ own, binder ≠ .ownProtocol own) :
    (bindings.bind home binder).names.own = bindings.names.own := by
  have outcome := bind_cases home bindings binder
  generalize bindings.bind home binder = after at outcome ⊢
  cases outcome with
  | @ownProtocol protocol => exact absurd rfl (other protocol)
  | _ => rfl

/-- Binders that come later add their declarations behind those that there are. -/
theorem decls_ofBinders_append (home : Home) (first later : List Binder) :
    ∃ added, (ofBinders home (first ++ later)).table.decls =
      (ofBinders home first).table.decls ++ added := by
  induction later using List.reverseRecOn with
  | nil => exact ⟨[], by rw [List.append_nil, List.append_nil]⟩
  | append_singleton later binder ih =>
      obtain ⟨added, earlier⟩ := ih
      rw [← List.append_assoc, ofBinders_concat]
      rcases decls_bind home (ofBinders home (first ++ later)) binder with same | grown
      · exact ⟨added, same.trans earlier⟩
      · exact ⟨_, by rw [grown, earlier, List.append_assoc]⟩

/-- What one binder makes known, and no binder undoes, is known if some binder makes it so. -/
theorem known_ofBinders_iff {home : Home} (known : Bindings → Prop) {gives : Binder → Prop}
    (start : ¬ known empty)
    (step : ∀ bindings binder, known (bindings.bind home binder) ↔ known bindings ∨ gives binder)
    (binders : List Binder) :
    known (ofBinders home binders) ↔ ∃ binder ∈ binders, gives binder := by
  induction binders using List.reverseRecOn with
  | nil =>
      constructor
      · intro given
        exact absurd given start
      · rintro ⟨binder, bound, _⟩
        cases bound
  | append_singleton binders binder ih =>
      rw [ofBinders_concat, step, ih]
      simp only [List.mem_append, List.mem_singleton, or_and_right, exists_or, exists_eq_left]

theorem exists_binder_of_mem {binders : List Binder} {decl : Decl}
    (member : decl ∈ (ofBinders home binders).table.decls) :
    ∃ binder ∈ binders, ∃ id, decl = home.declared id binder := by
  induction binders using List.reverseRecOn with
  | nil => cases member
  | append_singleton binders binder ih =>
      have earlier : decl ∈ (ofBinders home binders).table.decls →
          ∃ other ∈ binders ++ [binder], ∃ id, decl = home.declared id other := by
        intro known
        rcases ih known with ⟨other, bound, id, same⟩
        exact ⟨other, List.mem_append_left _ bound, id, same⟩
      rw [ofBinders_concat] at member
      rcases decls_bind home (ofBinders home binders) binder with same | grown
      · exact earlier (same ▸ member)
      · rw [grown, List.mem_append, List.mem_singleton] at member
        rcases member with known | last
        · exact earlier known
        · exact ⟨binder, List.mem_append_right _ List.mem_cons_self, _, last⟩

theorem declared_mem (home : Home) {binders : List Binder} (bound : binder ∈ binders)
    (declares : binder.declares = true) :
    ∃ id, home.declared id binder ∈ (ofBinders home binders).table.decls := by
  induction binders using List.reverseRecOn with
  | nil => cases bound
  | append_singleton binders other ih =>
      rw [ofBinders_concat]
      rcases List.mem_append.mp bound with earlier | last
      · rcases ih earlier with ⟨id, member⟩
        refine ⟨id, ?_⟩
        rcases decls_bind home (ofBinders home binders) other with same | grown
        · rw [same]
          exact member
        · rw [grown]
          exact List.mem_append_left _ member
      · obtain rfl := List.mem_singleton.mp last
        rw [decls_bind_of_declares declares]
        exact ⟨_, List.mem_append_right _ List.mem_cons_self⟩

end Bindings

end ActorProtocol

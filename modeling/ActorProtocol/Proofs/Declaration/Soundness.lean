import ActorProtocol.Declaration.Table

/-!
# Sound tables

A table is sound when every declaration stands at the position of its id and
every link leads to a declaration. Tables only grow, so what a map of names says
of its declarations stays true while declarations and links are added.

Declarations also refer to each other by position: a member to its type, and to the
declaration that it belongs to. A sound table is well formed when none of these
references dangles and every type that is referred to is a type.
-/

namespace ActorProtocol

set_option autoImplicit false

/-- The type of a field or a parameter. -/
def DeclKind.memberType? : DeclKind → Option DeclId
  | field type | param type => some type
  | builtinType | importedType | struct | union | protocol _ | includedProtocol _ | message _ _
  | state _ => none

namespace DeclTable

structure Sound (table : DeclTable) : Prop where
  positioned : ∀ id decl, table.decl? id = some decl → decl.id = id
  linked : ∀ node id, table.linkOf? node = some id → ∃ decl, table.decl? id = some decl

/-- What a declaration refers to is there. -/
structure Supports (table : DeclTable) (decl : Decl) : Prop where
  typed : ∀ type, decl.kind.memberType? = some type →
    ∃ target, table.decl? type = some target ∧ target.kind.isType = true
  owned : ∀ owner, decl.scope.owner? = some owner → ∃ target, table.decl? owner = some target

structure WellFormed (table : DeclTable) : Prop extends table.Sound where
  supported : ∀ decl ∈ table.decls, table.Supports decl

/-- The larger table knows every declaration of the smaller one. -/
def Extends (table larger : DeclTable) : Prop :=
  ∀ id decl, table.decl? id = some decl → larger.decl? id = some decl

/-- Every name in the map stands for a declaration that fits it. -/
def Explains (table : DeclTable) (map : OrderedMap String DeclId)
    (fits : String → Decl → Prop) : Prop :=
  ∀ name id, map.find? name = some id → ∃ decl, table.decl? id = some decl ∧ fits name decl

variable {table larger : DeclTable}

theorem Extends.refl (table : DeclTable) : table.Extends table :=
  fun _ _ known => known

theorem Extends.trans {largest : DeclTable} (first : table.Extends larger)
    (second : larger.Extends largest) : table.Extends largest :=
  fun id decl known => second id decl (first id decl known)

theorem extends_add (table : DeclTable) (decl : Decl) : table.Extends (table.add decl) := by
  intro id other known
  rw [decl?_add]
  have taken : id ≠ table.nextId := by
    intro fresh
    rw [fresh, decl?_nextId] at known
    cases known
  rw [if_neg taken]
  exact known

theorem extends_link (table : DeclTable) (node : NodeId) (id : DeclId) :
    table.Extends (table.link node id) :=
  fun _ _ known => known

theorem extends_record (table : DeclTable) (decl : Decl) (node : NodeId) :
    table.Extends (table.record decl node) :=
  (extends_link table node decl.id).trans (extends_add (table.link node decl.id) decl)

theorem decl?_record_self (table : DeclTable) {decl : Decl} (fresh : decl.id = table.nextId)
    (node : NodeId) : (table.record decl node).decl? decl.id = some decl := by
  rw [decl?_record, if_pos fresh]

theorem decl?_add_self (table : DeclTable) {decl : Decl} (fresh : decl.id = table.nextId) :
    (table.add decl).decl? decl.id = some decl := by
  rw [decl?_add, if_pos fresh]

theorem sound_empty : empty.Sound where
  positioned := by
    intro id decl known
    cases known
  linked := by
    intro node id linked
    cases linked

theorem Sound.link (sound : table.Sound) (node : NodeId) {id : DeclId} {decl : Decl}
    (known : table.decl? id = some decl) : (table.link node id).Sound where
  positioned := sound.positioned
  linked := by
    intro other target linked
    rw [linkOf?_link] at linked
    by_cases same : node = other
    · rw [if_pos same] at linked
      cases linked
      exact ⟨decl, known⟩
    · rw [if_neg same] at linked
      exact sound.linked other target linked

theorem Sound.add (sound : table.Sound) {decl : Decl} (fresh : decl.id = table.nextId) :
    (table.add decl).Sound where
  positioned := by
    intro id other known
    rw [decl?_add] at known
    by_cases last : id = table.nextId
    · rw [if_pos last] at known
      cases known
      exact fresh.trans last.symm
    · rw [if_neg last] at known
      exact sound.positioned id other known
  linked := by
    intro node id linked
    obtain ⟨target, known⟩ := sound.linked node id linked
    exact ⟨target, extends_add table decl id target known⟩

theorem Sound.record (sound : table.Sound) {decl : Decl} (fresh : decl.id = table.nextId)
    (node : NodeId) : (table.record decl node).Sound where
  positioned := (sound.add fresh).positioned
  linked := by
    intro other id linked
    rw [linkOf?_record] at linked
    by_cases same : node = other
    · rw [if_pos same] at linked
      cases linked
      exact ⟨decl, decl?_record_self table fresh node⟩
    · rw [if_neg same] at linked
      obtain ⟨target, known⟩ := sound.linked other id linked
      exact ⟨target, extends_record table decl node id target known⟩

/-- The ids of the declarations are all ids below the next one, in the order in which they
were handed out. -/
theorem Sound.ids_eq_range (sound : table.Sound) :
    table.decls.map Decl.id = (List.range table.nextId.position).map DeclId.mk := by
  apply List.ext_getElem
  · simp [nextId, size]
  · intro position inside _
    rw [List.length_map] at inside
    have known : table.decl? ⟨position⟩ = some table.decls[position] :=
      List.getElem?_eq_getElem inside
    rw [List.getElem_map, List.getElem_map, List.getElem_range]
    exact sound.positioned ⟨position⟩ _ known

/-- The next id is no target of a link, so a new declaration starts without links. -/
theorem Sound.linkOf?_ne_nextId (sound : table.Sound) (node : NodeId) :
    table.linkOf? node ≠ some table.nextId := by
  intro linked
  obtain ⟨decl, known⟩ := sound.linked node table.nextId linked
  rw [decl?_nextId] at known
  cases known

theorem Sound.declOf?_of_linkOf? (sound : table.Sound) {node : NodeId} {id : DeclId}
    (linked : table.linkOf? node = some id) :
    ∃ decl, table.declOf? node = some decl ∧ table.decl? id = some decl := by
  obtain ⟨decl, known⟩ := sound.linked node id linked
  exact ⟨decl, by simp [declOf?, linked, known], known⟩

theorem Sound.linkOf?_of_declOf? (sound : table.Sound) {node : NodeId} {decl : Decl}
    (declared : table.declOf? node = some decl) :
    table.linkOf? node = some decl.id ∧ table.decl? decl.id = some decl := by
  obtain ⟨id, linked, known⟩ := Option.bind_eq_some_iff.mp declared
  rw [sound.positioned id decl known]
  exact ⟨linked, known⟩

theorem Sound.declOf?_eq_some_iff (sound : table.Sound) {node : NodeId} {decl : Decl} :
    table.declOf? node = some decl ↔
      table.linkOf? node = some decl.id ∧ table.decl? decl.id = some decl := by
  constructor
  · exact sound.linkOf?_of_declOf?
  · rintro ⟨linked, known⟩
    exact Option.bind_eq_some_iff.mpr ⟨decl.id, linked, known⟩

variable {map : OrderedMap String DeclId} {fits other : String → Decl → Prop}

theorem explains_empty (table : DeclTable) (fits : String → Decl → Prop) :
    table.Explains .empty fits := by
  intro name id found
  cases found

theorem Explains.extend (explained : table.Explains map fits) (grows : table.Extends larger) :
    larger.Explains map fits := by
  intro name id found
  obtain ⟨decl, known, fit⟩ := explained name id found
  exact ⟨decl, grows id decl known, fit⟩

theorem Explains.weaken (explained : table.Explains map fits)
    (implied : ∀ name decl, fits name decl → other name decl) : table.Explains map other := by
  intro name id found
  obtain ⟨decl, known, fit⟩ := explained name id found
  exact ⟨decl, known, implied name decl fit⟩

theorem Explains.insert (explained : table.Explains map fits) {name : String} {id : DeclId}
    {decl : Decl} (known : table.decl? id = some decl) (fit : fits name decl) :
    table.Explains (map.insert name id) fits := by
  intro asked target found
  rw [OrderedMap.find?_insert] at found
  by_cases same : name = asked
  · rw [if_pos same] at found
    cases found
    subst same
    exact ⟨decl, known, fit⟩
  · rw [if_neg same] at found
    exact explained asked target found

theorem Explains.insertIfNew (explained : table.Explains map fits) {name : String} {id : DeclId}
    {decl : Decl} (known : table.decl? id = some decl) (fit : fits name decl) :
    table.Explains (map.insertIfNew name id) fits := by
  unfold OrderedMap.insertIfNew
  split
  · exact explained
  · exact explained.insert known fit

variable {decl : Decl}

theorem Supports.mono (supports : table.Supports decl) (grows : table.Extends larger) :
    larger.Supports decl where
  typed := by
    intro type member
    obtain ⟨target, known, isType⟩ := supports.typed type member
    exact ⟨target, grows type target known, isType⟩
  owned := by
    intro owner belongs
    obtain ⟨target, known⟩ := supports.owned owner belongs
    exact ⟨target, grows owner target known⟩

/-- A table that grows by supported declarations stays supported. -/
theorem supported_of_append {added : List Decl}
    (decls : larger.decls = table.decls ++ added) (grows : table.Extends larger)
    (earlier : ∀ decl ∈ table.decls, table.Supports decl)
    (later : ∀ decl ∈ added, table.Supports decl) :
    ∀ decl ∈ larger.decls, larger.Supports decl := by
  intro decl member
  rw [decls, List.mem_append] at member
  rcases member with known | last
  · exact (earlier decl known).mono grows
  · exact (later decl last).mono grows

end DeclTable

end ActorProtocol

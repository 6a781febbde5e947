import ActorProtocol.Data.OrderedMap
import ActorProtocol.Declaration.Basic
import ActorProtocol.Fault

/-!
# Tables of declarations

A table holds declarations by position and links nodes to them. A node is linked
to one declaration at a time: a later link replaces an earlier one.
-/

namespace ActorProtocol

set_option autoImplicit false

structure DeclTable where
  decls : List Decl
  links : OrderedMap NodeId DeclId

namespace DeclTable

def empty : DeclTable := ⟨[], .empty⟩

/-- Adds a declaration that no node makes. -/
def add (table : DeclTable) (decl : Decl) : DeclTable :=
  { table with decls := table.decls ++ [decl] }

def link (table : DeclTable) (node : NodeId) (decl : DeclId) : DeclTable :=
  { table with links := table.links.insert node decl }

/-- Adds a declaration and links the node that makes it. -/
def record (table : DeclTable) (decl : Decl) (node : NodeId) : DeclTable :=
  (table.link node decl.id).add decl

def size (table : DeclTable) : Nat :=
  table.decls.length

/-- The id of the next declaration. Ids are handed out from 0 on, one for each declaration,
and a declaration is added before the next id is asked for. So no counter is kept: the ids
taken so far are as many as the declarations of the table, and theirs (`Sound.ids_eq_range`).
An id is a word of 32 bits, which the size stands for in tables of fewer than 2^32
declarations. -/
def nextId (table : DeclTable) : DeclId :=
  ⟨table.size⟩

def decl? (table : DeclTable) (id : DeclId) : Option Decl :=
  table.decls[id.position]?

def linkOf? (table : DeclTable) (node : NodeId) : Option DeclId :=
  table.links.find? node

def declOf? (table : DeclTable) (node : NodeId) : Option Decl :=
  (table.linkOf? node).bind table.decl?

/-- The declaration of a node that must have one. -/
def declOf (table : DeclTable) (node : NodeId) : Except Fault Decl :=
  match table.declOf? node with
  | some decl => .ok decl
  | none => .error (.missingDecl node)

/-- The first declaration of a full name. -/
def find? (table : DeclTable) (fullName : String) : Option Decl :=
  table.decls.find? fun decl => decl.fullName == fullName

/-- The links by ascending node id. -/
def sortedLinks (table : DeclTable) : List (NodeId × DeclId) :=
  table.links.entries.mergeSort fun left right => left.1.value ≤ right.1.value

/-- A line for every declaration and every link. -/
def text (table : DeclTable) : String :=
  "Decls:\n" ++
    String.join (table.decls.map fun decl => decl.text ++ "\n") ++
    "\nNode -> Decl:\n" ++
    String.join (table.sortedLinks.map fun (node, decl) =>
      "Node [" ++ node.text ++ "] -> Decl [" ++ decl.text ++ "]\n")

@[simp] theorem size_empty : empty.size = 0 := rfl

@[simp] theorem size_add (table : DeclTable) (decl : Decl) :
    (table.add decl).size = table.size + 1 := by
  simp [size, add]

@[simp] theorem size_link (table : DeclTable) (node : NodeId) (decl : DeclId) :
    (table.link node decl).size = table.size := rfl

@[simp] theorem linkOf?_add (table : DeclTable) (decl : Decl) (node : NodeId) :
    (table.add decl).linkOf? node = table.linkOf? node := rfl

@[simp] theorem size_record (table : DeclTable) (decl : Decl) (node : NodeId) :
    (table.record decl node).size = table.size + 1 := by
  simp [record]

@[simp] theorem linkOf?_empty (node : NodeId) : empty.linkOf? node = none := rfl

@[simp] theorem decl?_empty (id : DeclId) : empty.decl? id = none := rfl

@[simp] theorem decl?_link (table : DeclTable) (node : NodeId) (decl id : DeclId) :
    (table.link node decl).decl? id = table.decl? id := rfl

@[simp] theorem nextId_link (table : DeclTable) (node : NodeId) (decl : DeclId) :
    (table.link node decl).nextId = table.nextId := rfl

theorem nextId_empty : empty.nextId = ⟨0⟩ := rfl

theorem nextId_add (table : DeclTable) (decl : Decl) :
    (table.add decl).nextId = ⟨table.nextId.position + 1⟩ := by
  simp [nextId]

theorem nextId_record (table : DeclTable) (decl : Decl) (node : NodeId) :
    (table.record decl node).nextId = ⟨table.nextId.position + 1⟩ :=
  nextId_add (table.link node decl.id) decl

/-- The next id is free until a declaration is added, which then has it. -/
theorem decl?_add (table : DeclTable) (decl : Decl) (id : DeclId) :
    (table.add decl).decl? id = if id = table.nextId then some decl else table.decl? id := by
  unfold decl? add
  by_cases fresh : id = table.nextId
  · subst fresh
    simp [nextId, size]
  · have position : id.position ≠ table.decls.length := by
      intro same
      apply fresh
      cases id
      simp only [nextId, size, DeclId.mk.injEq]
      exact same
    rw [if_neg fresh, List.getElem?_append]
    by_cases earlier : id.position < table.decls.length
    · rw [if_pos earlier]
    · have later : 0 < id.position - table.decls.length := by omega
      rw [if_neg earlier, List.getElem?_eq_none (by omega : table.decls.length ≤ id.position)]
      exact List.getElem?_eq_none (by simp only [List.length_singleton]; omega)

theorem decl?_record (table : DeclTable) (decl : Decl) (node : NodeId) (id : DeclId) :
    (table.record decl node).decl? id = if id = table.nextId then some decl else table.decl? id :=
  decl?_add (table.link node decl.id) decl id

theorem mem_decls_iff (table : DeclTable) (decl : Decl) :
    decl ∈ table.decls ↔ ∃ id, table.decl? id = some decl := by
  rw [List.mem_iff_getElem?]
  constructor
  · rintro ⟨position, found⟩
    exact ⟨⟨position⟩, found⟩
  · rintro ⟨id, found⟩
    exact ⟨id.position, found⟩

theorem decl?_nextId (table : DeclTable) : table.decl? table.nextId = none := by
  simp [decl?, nextId, size]

theorem linkOf?_link (table : DeclTable) (node other : NodeId) (decl : DeclId) :
    (table.link node decl).linkOf? other =
      if node = other then some decl else table.linkOf? other :=
  OrderedMap.find?_insert table.links node other decl

theorem linkOf?_record (table : DeclTable) (decl : Decl) (node other : NodeId) :
    (table.record decl node).linkOf? other =
      if node = other then some decl.id else table.linkOf? other :=
  linkOf?_link table node other decl.id

end DeclTable

end ActorProtocol

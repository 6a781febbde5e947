import ActorProtocol.Proofs.Naming.StateLinks

/-!
# The shared id

The nodes that are written down nowhere share one id. No use of a name writes into the
record of that id, as destinations and states of actors are passed over when they have it.
A sentinel that is given as a source is not: binding links its node whatever the id is. So
the shared id has a declaration as soon as some source has the id, and it is that of the
last such source, also for the other sentinels. All of this holds of units whose written
nodes have other ids, even if these are not distinct.
-/

namespace ActorProtocol

set_option autoImplicit false

/-- What the shared id has: nothing but the link of a source, where the last one wins. -/
structure Resolved.SparesShared (resolved : Resolved) (protocol : Protocol) : Prop where
  healthy : resolved.isPoisoned .synthetic = false
  stateless : resolved.actorState? .synthetic = none
  unlinked_iff : resolved.decls.linkOf? .synthetic = none ↔
    ∀ statement ∈ protocol.statements, statement.state.id ≠ .synthetic
  linked : ∀ before statement after, protocol.statements = before ++ statement :: after →
    statement.state.id = .synthetic → (∀ later ∈ after, later.state.id ≠ .synthetic) →
      ∃ decl sentinel, resolved.decls.declOf? .synthetic = some decl ∧
        (sentinel = .any ∨ sentinel = .dead) ∧ sentinel.name = statement.state.name ∧
        decl = (Home.ofProtocol protocol).declared decl.id (.sentinel sentinel)

namespace SourceUnit

variable {unit : SourceUnit} {protocol : Protocol} {extra : List String}

/-- What a binder may link is written, apart from the sources. -/
theorem written_of_binder_node (described : unit.protocol = some protocol) {node : NodeId}
    (bound : node ∈ (unit.binders protocol extra).flatMap Binder.nodes) :
    node ∈ unit.writtenIds ∨ ∃ statement ∈ protocol.statements, statement.state.id = node := by
  rw [binders_nodes] at bound
  simp only [List.mem_append, List.mem_map, List.mem_singleton] at bound
  rcases bound with
    ((((⟨brought, member, rfl⟩ | ⟨type, member, rfl⟩) | rfl) | ⟨included, member, rfl⟩) |
      ⟨message, member, rfl⟩) | source
  · have own : brought.type.id ∈ brought.writtenIds :=
      List.mem_cons_of_mem _ List.mem_cons_self
    exact Or.inl (by simp [writtenIds, List.mem_flatMap_of_mem member own])
  · have own : type.id ∈ type.writtenIds := List.mem_append_left _ List.mem_cons_self
    exact Or.inl (by simp [writtenIds, List.mem_flatMap_of_mem member own])
  · exact Or.inl (by simp [writtenIds, Protocol.writtenIds, described])
  · exact Or.inl (by simp [writtenIds, List.mem_map_of_mem member])
  · have own : message.id ∈ message.writtenIds := List.mem_cons_self
    exact Or.inl (by
      simp [writtenIds, Protocol.writtenIds, described, List.mem_flatMap_of_mem member own])
  · exact Or.inr source

section Shared

variable (nonzero : ∀ id ∈ unit.writtenIds, id ≠ .synthetic)

include nonzero

/-- No use writes into the shared record, so it stays as the bindings left it. -/
theorem recordOf_shared (described : unit.protocol = some protocol) (extra : List String) :
    (unit.resolution protocol extra).recordOf .synthetic =
      ⟨(unit.bindings protocol extra).table.linkOf? .synthetic, false, none⟩ := by
  have unused : NodeId.synthetic ∉ (unit.uses protocol).flatMap Use.nodes := by
    intro used
    exact nonzero _ (use_node_written _ described used) rfl
  rw [resolution_eq, Resolution.recordOf_useAll_of_outside _ _ _ unused,
    Resolution.recordOf_ofBindings]

/-- A source under the shared id is a sentinel. -/
theorem isSentinel_of_shared (described : unit.protocol = some protocol) {statement : Statement}
    (member : statement ∈ protocol.statements) (shared : statement.state.id = .synthetic) :
    statement.state.isSentinel = true := by
  by_contra other
  have own : statement.state.id ∈ statement.writtenIds := by
    simp [Statement.writtenIds, State.writtenIds, State.isSynthesized, other]
  have inside := List.mem_flatMap_of_mem member own
  exact nonzero statement.state.id
    (by simp [writtenIds, Protocol.writtenIds, described, inside]) shared

theorem linkOf?_shared_of_unbound (described : unit.protocol = some protocol)
    (unshared : ∀ statement ∈ protocol.statements, statement.state.id ≠ .synthetic) :
    (unit.bindings protocol extra).table.linkOf? .synthetic = none := by
  apply Bindings.linkOf?_ofBinders_of_outside
  intro bound
  rcases written_of_binder_node described bound with written | ⟨statement, member, shared⟩
  · exact nonzero _ written rfl
  · exact unshared statement member shared

/-- The last source under the shared id is what the id is linked to. -/
theorem declOf?_shared (described : unit.protocol = some protocol) (extra : List String)
    {before after : List Statement} {statement : Statement}
    (split : protocol.statements = before ++ statement :: after)
    (shared : statement.state.id = .synthetic)
    (last : ∀ later ∈ after, later.state.id ≠ .synthetic) :
    ∃ decl sentinel, (unit.resolved protocol extra).decls.declOf? .synthetic = some decl ∧
      (sentinel = .any ∨ sentinel = .dead) ∧ sentinel.name = statement.state.name ∧
      decl = (Home.ofProtocol protocol).declared decl.id (.sentinel sentinel) := by
  have member : statement ∈ protocol.statements := by simp [split]
  have sentinelName : State.isSentinelName statement.state.name = true :=
    State.isSentinelName_of_isSentinel (isSentinel_of_shared nonzero described member shared)
  have hasState : protocol.HasState statement.state.name :=
    Or.inr (Or.inr ⟨statement, member, rfl⟩)
  obtain ⟨decl, binder, declares, made, found, known⟩ := exists_stateDecl hasState unit extra
  have link := linkOf?_bindings_source unit extra split (shared ▸ last)
  rw [shared, found] at link
  have record := recordOf_shared nonzero described extra
  rw [link] at record
  have declared : (unit.resolved protocol extra).decls.declOf? .synthetic = some decl :=
    (unit.continues_resolution protocol extra).sound.declOf?_eq_some_iff.mpr
      ⟨congrArg NodeRecord.link record, known⟩
  cases declares with
  | sentinel which named => exact ⟨decl, _, declared, which, named, made⟩
  | source ordinary => cases ordinary.symm.trans sentinelName

theorem sparesShared (described : unit.protocol = some protocol) (extra : List String) :
    (unit.resolved protocol extra).SparesShared protocol := by
  have record := recordOf_shared nonzero described extra
  rw [Resolution.recordOf, NodeRecord.mk.injEq] at record
  obtain ⟨link, healthy, stateless⟩ := record
  have linked : ∀ before statement after, protocol.statements = before ++ statement :: after →
      statement.state.id = .synthetic → (∀ later ∈ after, later.state.id ≠ .synthetic) → _ :=
    fun _ _ _ => declOf?_shared nonzero described extra
  refine ⟨healthy, stateless, ⟨?_, ?_⟩, linked⟩
  · intro unlinked
    by_contra some
    simp only [not_forall, not_not] at some
    obtain ⟨statement, member, shared⟩ := some
    obtain ⟨before, final, after, split, same, last⟩ :=
      exists_last_of_mem (fun statement : Statement => statement.state.id = .synthetic) member
        shared
    obtain ⟨decl, _, declared, _⟩ := linked before final after split same last
    rw [DeclTable.declOf?, unlinked] at declared
    cases declared
  · intro unshared
    exact link.trans (linkOf?_shared_of_unbound nonzero described unshared)

/-- After resolution the shared id is not poisoned and has no state. It has a declaration only
if a source has the id, and then that of the sentinel which is the last such source. -/
theorem resolve_spares_shared (described : unit.protocol = some protocol) (extra : List String) :
    ∃ reported, unit.resolve extra = .ok reported ∧ reported.value.SparesShared protocol :=
  ⟨_, resolve_eq_ok described extra, sparesShared nonzero described extra⟩

end Shared

def leverLine (line : Nat) : Location := ⟨"PLever.ipdl", line⟩

/-- A lever that goes up from anywhere. Both sentinels have statements. -/
def leverProtocol : Protocol where
  id := ⟨2⟩
  name := "PLever"
  namespaces := []
  semantics := .async
  spawns := []
  bridges := []
  managers := []
  manages := []
  messages := [⟨⟨3⟩, "Pull", .async, .outbound, [], [], leverLine 2⟩]
  statements := [
    ⟨⟨6⟩, ⟨⟨4⟩, "Up", true, leverLine 3⟩,
      [⟨⟨5⟩, some .send, some "Pull", [.dead], leverLine 4⟩], leverLine 3⟩,
    ⟨⟨9⟩, .any,
      [⟨⟨8⟩, some .send, some "Pull", [⟨⟨7⟩, "Up", false, leverLine 6⟩], leverLine 6⟩],
      leverLine 5⟩,
    ⟨⟨10⟩, .dead, [], leverLine 7⟩]
  loc := leverLine 1

def leverUnit : SourceUnit :=
  { SourceUnit.ofFile ⟨1⟩ "PLever.ipdl" with protocol := some leverProtocol }

theorem leverUnit_nonzero : ∀ id ∈ leverUnit.writtenIds, id ≠ .synthetic := by
  decide

/-- The shared id of the lever has the declaration of its last source. -/
theorem lever_shared_declared :
    (∀ id ∈ leverUnit.writtenIds, id ≠ .synthetic) ∧
      leverUnit.protocol = some leverProtocol ∧
      ∃ reported, leverUnit.resolve [] = .ok reported ∧
        reported.value.SparesShared leverProtocol := by
  have described : leverUnit.protocol = some leverProtocol := rfl
  exact ⟨leverUnit_nonzero, described, resolve_spares_shared leverUnit_nonzero described []⟩

/-- The wildcard has the shared id, and the shared id has the declaration of the dead state. -/
theorem lever_shared_linked :
    (∀ id ∈ leverUnit.writtenIds, id ≠ .synthetic) ∧
      ∃ reported, leverUnit.resolve [] = .ok reported ∧
        (reported.value.decls.declOf? .synthetic).map Decl.fullName = some State.deadName ∧
        ∃ statement ∈ leverProtocol.statements, statement.state = .any ∧
          statement.state.id = .synthetic := by
  have described : leverUnit.protocol = some leverProtocol := rfl
  refine ⟨leverUnit_nonzero, _, resolve_eq_ok described [], ?_, ?_⟩
  · decide +kernel
  · decide +kernel

end SourceUnit

end ActorProtocol

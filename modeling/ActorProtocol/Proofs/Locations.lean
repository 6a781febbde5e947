import ActorProtocol.Proofs.Naming.Protocols
import ActorProtocol.Proofs.Policies
import ActorProtocol.Proofs.Source.Stamping

/-!
# Locations of diagnostics

Every diagnostic of a unit that is built for its file points into the file, with one
exception. A null statement has no location of its own, and where its source is taken by an
earlier statement it is reported like any other, at the unknown location, although its
source is written down. Every such statement is reported there if the machine is checked.
-/

namespace ActorProtocol

set_option autoImplicit false

variable {file : String}

/-! ## Nodes of a unit -/

theorem Transition.BuiltFor.loc_of_real {transition : Transition}
    (built : transition.BuiltFor file) (real : transition.isNull = false) :
    transition.loc.StampedFor file := by
  cases built with
  | null => cases real
  | stamped loc => exact loc

theorem Statement.BuiltFor.transition {statement : Statement} (built : statement.BuiltFor file)
    {transition : Transition} (inside : transition ∈ statement.transitions) :
    transition.BuiltFor file := by
  cases built with
  | ofNull =>
      rw [List.mem_singleton.mp inside]
      exact .null
  | stamped _ _ transitions => exact transitions transition inside

theorem Statement.BuiltFor.loc_of_transition {statement : Statement}
    (built : statement.BuiltFor file) {transition : Transition}
    (inside : transition ∈ statement.transitions) (acts : transition.action.isSome = true) :
    transition.loc.StampedFor file := by
  apply (built.transition inside).loc_of_real
  rw [Bool.eq_false_iff]
  intro null
  rw [Transition.action_of_isNull null] at acts
  cases acts

theorem TypeDecl.BuiltFor.typeRefs {type : TypeDecl} (built : type.BuiltFor file) :
    ∀ used ∈ type.typeRefs, used.loc.StampedFor file := by
  have body := built.body
  unfold TypeDecl.typeRefs
  cases parts : type.body with
  | struct fields =>
      rw [parts] at body
      intro used inside
      obtain ⟨field, member, rfl⟩ := List.mem_map.mp inside
      exact (body field member).type.loc
  | union components =>
      rw [parts] at body
      exact fun used inside => (body used inside).loc

theorem Protocol.BuiltFor.typeRefs {protocol : Protocol} (built : protocol.BuiltFor file) :
    ∀ used ∈ protocol.typeRefs, used.loc.StampedFor file := by
  intro used inside
  obtain ⟨message, member, listed⟩ := List.mem_flatMap.mp inside
  obtain ⟨param, own, rfl⟩ := List.mem_map.mp listed
  exact ((built.messages message member).params param own).type.loc

theorem Protocol.BuiltFor.useNode {protocol : Protocol} (built : protocol.BuiltFor file) :
    ∀ node ∈ protocol.useNodes, node.loc.StampedFor file := by
  intro node used
  simp only [Protocol.useNodes, List.mem_append, List.mem_map, List.mem_flatMap, List.mem_cons,
    List.not_mem_nil, or_false, List.mem_filter] at used
  rcases used with
    ((((⟨spawns, inside, rfl⟩ | ⟨bridges, inside, rfl | rfl⟩) | ⟨manager, inside, rfl⟩) |
      ⟨managed, inside, rfl⟩) | ⟨type, inside, rfl⟩) |
      ⟨transition, ⟨⟨statement, member, inside⟩, acts⟩, rfl⟩
  · exact built.spawns spawns inside
  · exact (built.bridges bridges inside).parent
  · exact (built.bridges bridges inside).child
  · exact built.managers manager inside
  · exact built.manages managed inside
  · exact built.typeRefs type inside
  · exact (built.statements statement member).loc_of_transition inside acts

/-! ## Errors of names -/

theorem Resolution.repeatedParams_subset (seen : List String) (params : List Member) :
    repeatedParams seen params ⊆ params := by
  induction params generalizing seen with
  | nil => exact List.Subset.refl _
  | cons param rest ih =>
      unfold repeatedParams
      split
      · exact List.cons_subset_cons param (ih seen)
      · exact List.subset_cons_of_subset param (ih _)

theorem SourceUnit.openMessage_mem_uses {unit : SourceUnit} {protocol : Protocol}
    {message : Message} (used : .openMessage message ∈ unit.uses protocol) :
    message ∈ protocol.messages := by
  rcases List.mem_append.mp used with ofTypes | ofProtocol
  · obtain ⟨type, _, listed⟩ := List.mem_flatMap.mp ofTypes
    unfold TypeDecl.uses at listed
    split at listed <;> simp at listed
  · simpa [Protocol.uses] using ofProtocol

namespace SourceUnit.BuiltFor

variable {unit : SourceUnit} {protocol : Protocol}

theorem useNode (built : unit.BuiltFor file) (described : unit.protocol = some protocol) :
    ∀ node ∈ unit.useNodes protocol, node.loc.StampedFor file := by
  intro node used
  rcases List.mem_append.mp used with type | other
  · obtain ⟨ref, inside, rfl⟩ := List.mem_map.mp type
    obtain ⟨decl, member, listed⟩ := List.mem_flatMap.mp inside
    exact (built.types decl member).typeRefs ref listed
  · exact (built.protocol protocol described).useNode node other

theorem loc_of_binder (built : unit.BuiltFor file) (described : unit.protocol = some protocol)
    {extra : List String} {binder : Binder} (bound : binder ∈ unit.binders protocol extra)
    {loc : Location} (place : binder.loc? = some loc) : loc.StampedFor file := by
  cases binder with
  | typeDecl type =>
      cases place
      exact (built.types type (typeDecl_mem_binders.mp bound)).loc
  | included included =>
      cases place
      exact built.includes included (included_mem_binders.mp bound)
  | message message =>
      cases place
      have messages := (built.protocol protocol described).messages
      exact (messages message (message_mem_binders.mp bound)).loc
  | _ => cases place

theorem loc_of_use (built : unit.BuiltFor file) (described : unit.protocol = some protocol)
    {bindings : Bindings} {home : Home} {use : Use} (used : use ∈ unit.uses protocol)
    {error : Located NamingError} (reported : error ∈ bindings.errorsOf home use) :
    error.loc.StampedFor file := by
  have ofNode : error ∈ use.node?.toList.flatMap (bindings.nodeErrors home) →
      error.loc.StampedFor file := by
    intro failed
    obtain ⟨node, names, inside⟩ := List.mem_flatMap.mp failed
    rw [(Bindings.mem_nodeErrors_iff.mp inside).2]
    have listed : node ∈ unit.useNodes protocol :=
      mem_useNodes_iff.mpr ⟨use, used, Option.mem_toList.mp names⟩
    exact built.useNode described node listed
  cases use with
  | openMessage message =>
      obtain ⟨param, again, rfl⟩ := List.mem_map.mp reported
      have messages := (built.protocol protocol described).messages
      exact ((messages message (openMessage_mem_uses used)).params param
        (Resolution.repeatedParams_subset _ _ again)).loc
  | _ => exact ofNode reported

/-- Whatever resolution reports is at a node of the unit. -/
theorem loc_of_naming (built : unit.BuiltFor file) (described : unit.protocol = some protocol)
    (extra : List String) :
    ∀ error ∈ (unit.resolution protocol extra).errors, error.loc.StampedFor file := by
  intro error reported
  rw [errors_resolution, List.mem_append] at reported
  rcases reported with bound | used
  · obtain ⟨binder, member, _, _, place, rfl⟩ := Bindings.exists_binder_of_error bound
    exact built.loc_of_binder described member place
  · obtain ⟨use, member, failed⟩ := List.mem_flatMap.mp used
    exact built.loc_of_use described member failed

end SourceUnit.BuiltFor

/-! ## Errors of machines -/

/-- How a null statement for the state is reported. -/
def State.nullRepeat (state : State) : Located MachineError :=
  ⟨.duplicateSourceState state.name, .unknown⟩

/-- The state has a null statement, and an earlier one has taken its name. -/
def Protocol.RepeatsNull (protocol : Protocol) (state : State) : Prop :=
  ∃ before after, protocol.statements = before ++ .ofNull state :: after ∧
    ∃ earlier ∈ before, earlier.leavesDead = false ∧ earlier.state.name = state.name

theorem Statement.rejection?_ofNull_iff {before : List Statement} {state : State}
    {reason : Rejection} :
    (ofNull state).rejection? before = some reason ↔ reason = .duplicateSource ∧
      ∃ earlier ∈ before, earlier.leavesDead = false ∧ earlier.state.name = state.name := by
  have padding : (ofNull state).realTransitions = [] := rfl
  have alive : (ofNull state).leavesDead = false := by simp [leavesDead, padding]
  have repeated : (before.any fun other =>
      !other.leavesDead && other.state.name == (ofNull state).state.name) = true ↔
        ∃ earlier ∈ before, earlier.leavesDead = false ∧ earlier.state.name = state.name := by
    simp [ofNull]
  unfold rejection?
  rw [alive, if_neg Bool.false_ne_true, ← repeated]
  split
  · rename_i taken
    simp [taken, eq_comm]
  · rename_i new
    simp [new]

/-- A null statement is rejected exactly if its source is taken before it. -/
theorem Protocol.ofNull_mem_rejected_iff {protocol : Protocol} {reason : Rejection}
    {state : State} :
    ⟨reason, .ofNull state⟩ ∈ protocol.rejected ↔
      reason = .duplicateSource ∧ protocol.RepeatsNull state := by
  rw [mem_rejected_iff]
  simp only [Statement.rejection?_ofNull_iff, RepeatsNull]
  constructor
  · rintro ⟨before, after, split, same, taken⟩
    exact ⟨same, before, after, split, taken⟩
  · rintro ⟨same, before, after, split, taken⟩
    exact ⟨before, after, split, same, taken⟩

namespace Protocol.BuiltFor

variable {protocol : Protocol}

theorem loc_of_rejected (built : protocol.BuiltFor file) {rejected : RejectedStatement}
    (member : rejected ∈ protocol.rejected) :
    rejected.error.loc.StampedFor file ∨
      ∃ state, protocol.RepeatsNull state ∧ rejected.error = state.nullRepeat := by
  obtain ⟨reason, statement⟩ := rejected
  obtain ⟨before, after, split, _⟩ := mem_rejected_iff.mp member
  have inside : statement ∈ protocol.statements := by simp [split]
  cases built.statements statement inside with
  | stamped loc =>
      left
      cases reason with
      | duplicateSource => exact loc
      | deadSource => exact loc
  | @ofNull state =>
      obtain ⟨rfl, repeats⟩ := ofNull_mem_rejected_iff.mp member
      exact Or.inr ⟨state, repeats, rfl⟩

theorem loc_of_step (built : protocol.BuiltFor file) {source : State} {transition : Transition}
    (step : (source, transition) ∈ protocol.allSteps) : transition.loc.StampedFor file := by
  obtain ⟨statement, member, _, listed⟩ := mem_allSteps_iff.mp step
  obtain ⟨inside, real⟩ := List.mem_filter.mp listed
  exact ((built.statements statement member).transition inside).loc_of_real (by simpa using real)

theorem loc_of_dangling (built : protocol.BuiltFor file) :
    ∀ error ∈ protocol.danglingErrors, error.loc.StampedFor file := by
  intro error member
  obtain ⟨_, step, found⟩ := List.mem_flatMap.mp member
  obtain ⟨_, _, rfl⟩ := List.mem_map.mp found
  exact built.loc_of_step step

theorem loc_of_start (built : protocol.BuiltFor file) :
    ∀ error ∈ protocol.startErrors, error.loc.StampedFor file := by
  intro error member
  unfold startErrors at member
  split at member
  · rw [List.mem_singleton.mp member]
    exact built.loc
  · cases member

theorem loc_of_reply (built : protocol.BuiltFor file) :
    ∀ error ∈ protocol.replyErrors, error.loc.StampedFor file := by
  intro error member
  obtain ⟨message, listed, found⟩ := List.mem_filterMap.mp member
  rw [(about_replyError? found).2]
  exact (built.messages message (List.mem_of_mem_filter listed)).loc

theorem loc_of_mismatch (built : protocol.BuiltFor file) (resolved : Resolved) :
    ∀ error ∈ protocol.allSteps.filterMap fun step => resolved.mismatch? step.2,
      error.loc.StampedFor file := by
  intro error member
  obtain ⟨_, step, found⟩ := List.mem_filterMap.mp member
  rw [(Resolved.about_mismatch? found).2]
  exact built.loc_of_step step

/-- Whatever the check of the machine reports is at a node of the unit, except where a null
statement repeats a source. -/
theorem loc_of_machine (built : protocol.BuiltFor file) {resolved : Resolved}
    (described : resolved.unit.protocol = some protocol)
    {checked : Reported Checked MachineError} (ok : resolved.check = .ok checked) :
    ∀ error ∈ checked.errors, error.loc.StampedFor file ∨
      ∃ state, protocol.RepeatsNull state ∧ error = state.nullRepeat := by
  obtain ⟨own, again, _, errors⟩ := Resolved.errors_of_check ok
  cases described.symm.trans again
  intro error reported
  simp only [errors, structureErrors, List.mem_append] at reported
  rcases reported with (((rejected | dangling) | start) | mismatch) | reply
  · obtain ⟨statement, member, rfl⟩ := List.mem_map.mp rejected
    exact built.loc_of_rejected member
  · exact Or.inl (built.loc_of_dangling error dangling)
  · exact Or.inl (built.loc_of_start error start)
  · exact Or.inl (built.loc_of_mismatch resolved error mismatch)
  · exact Or.inl (built.loc_of_reply error reply)

end Protocol.BuiltFor

/-- A null statement that repeats a source is reported. -/
theorem Resolved.nullRepeat_mem {resolved : Resolved} {protocol : Protocol}
    (described : resolved.unit.protocol = some protocol)
    {checked : Reported Checked MachineError} (ok : resolved.check = .ok checked) {state : State}
    (repeats : protocol.RepeatsNull state) : state.nullRepeat ∈ checked.errors := by
  obtain ⟨own, again, _, errors⟩ := errors_of_check ok
  cases described.symm.trans again
  have rejected := Protocol.ofNull_mem_rejected_iff.mpr ⟨rfl, repeats⟩
  simp only [errors, Protocol.structureErrors, List.mem_append]
  exact Or.inl (Or.inl (Or.inl (Or.inl (List.mem_map_of_mem rejected))))

/-! ## Diagnostics of a unit -/

/-- The diagnostics point into the file, apart from those of null statements that repeat a
source. These are reported at the unknown location if the machine is checked. -/
structure LocatedIn (file : String) (protocol : Protocol) (policy : Policy)
    (errors : List Diagnostic) : Prop where
  placed : ∀ diagnostic ∈ errors, (∃ loc, diagnostic.loc? = some loc ∧ loc.file = file) ∨
    ∃ state, protocol.RepeatsNull state ∧ diagnostic = .machine state.nullRepeat
  unplaced : (policy = .strict → ∀ error, .naming error ∉ errors) →
    ∀ state, protocol.RepeatsNull state → .machine state.nullRepeat ∈ errors

namespace SourceUnit

variable {unit : SourceUnit} {protocol : Protocol} {options : CheckOptions}

theorem BuiltFor.file_of_naming (built : unit.BuiltFor file) (named : file ≠ "")
    (described : unit.protocol = some protocol) (extra : List String) :
    ∀ diagnostic ∈ (unit.resolution protocol extra).errors.map Diagnostic.naming,
      ∃ loc, diagnostic.loc? = some loc ∧ loc.file = file := by
  intro diagnostic reported
  obtain ⟨error, inside, rfl⟩ := List.mem_map.mp reported
  exact ⟨error.loc, rfl, (built.loc_of_naming described extra error inside).file_eq named⟩

theorem BuiltFor.locatedIn (built : unit.BuiltFor file) (named : file ≠ "")
    (described : unit.protocol = some protocol) {errors : List Diagnostic}
    (reports : unit.Reports protocol options errors) :
    LocatedIn file protocol options.policy errors := by
  have naming := built.file_of_naming named described options.extraTypes
  cases reports with
  | stopped strict wrong =>
      refine ⟨fun diagnostic reported => Or.inl (naming diagnostic reported), ?_⟩
      intro silent
      obtain ⟨error, inside⟩ := List.exists_mem_of_ne_nil _ wrong
      exact absurd (List.mem_map_of_mem inside) (silent strict error)
  | complete _ ok =>
      constructor
      · intro diagnostic reported
        rcases List.mem_append.mp reported with name | machine
        · exact Or.inl (naming diagnostic name)
        · obtain ⟨error, inside, rfl⟩ := List.mem_map.mp machine
          have place := (built.protocol protocol described).loc_of_machine described ok error inside
          rcases place with stamped | ⟨state, repeats, rfl⟩
          · exact Or.inl ⟨error.loc, rfl, stamped.file_eq named⟩
          · exact Or.inr ⟨state, repeats, rfl⟩
      · intro _ state repeats
        exact List.mem_append_right _
          (List.mem_map_of_mem (Resolved.nullRepeat_mem described ok repeats))

/-- Every diagnostic of a unit that is built for its file points into the file, unless it
reports a null statement that repeats a source. -/
theorem check_locates (named : unit.file ≠ "") (built : unit.BuiltFor unit.file)
    (options : CheckOptions) {outcome : UnitCheck} (ends : unit.check options = .ok outcome) :
    ∃ protocol, unit.protocol = some protocol ∧
      LocatedIn unit.file protocol options.policy outcome.errors := by
  obtain ⟨protocol, described, reports⟩ := reports_of_check ends
  exact ⟨protocol, described, built.locatedIn named described reports⟩

/-- A protocol with two statements for one state, of which the second is a null one. -/
def twinBuild : Build SourceUnit := do
  let unit ← Build.sourceUnit
  let protocol ← Build.protocol "PTwin"
  Build.atLine 2
  let ping ← Build.message "Ping" .async .outbound
  Build.atLine 3
  let here ← Build.state "Here" true
  Build.atLine 4
  let step ← Build.transition .send "Ping" ["Here"]
  Build.atLine 3
  let statement ← Build.statement here [step]
  Build.atLine 5
  let again ← Build.state "Here" false
  return { unit with
    protocol := some { protocol with
      messages := [ping]
      statements := [statement, .ofNull again] } }

def twinUnit : SourceUnit := (twinBuild.run (.ofFile "PTwin.ipdl")).1

theorem builds_twin : Build.BuildsFor file twinBuild (SourceUnit.BuiltFor file) := by
  apply Build.builds_sourceUnit.bind
  rintro unit ⟨_, unitBuilt⟩
  apply (Build.builds_protocol "PTwin").bind
  intro protocol protocolBuilt
  apply (Build.builds_atLine 2).bind
  intro _ _
  apply (Build.builds_message "Ping" .async .outbound).bind
  intro ping pingBuilt
  apply (Build.builds_atLine 3).bind
  intro _ _
  apply (Build.builds_state "Here" true).bind
  intro here hereBuilt
  apply (Build.builds_atLine 4).bind
  intro _ _
  apply (Build.builds_transition .send "Ping" ["Here"]).bind
  intro step stepBuilt
  apply (Build.builds_atLine 3).bind
  intro _ _
  apply (Build.builds_statement hereBuilt (List.forall_mem_singleton.mpr stepBuilt)).bind
  intro statement statementBuilt
  apply (Build.builds_atLine 5).bind
  intro _ _
  apply (Build.builds_state "Here" false).bind
  intro again againBuilt
  apply Build.BuildsFor.pure
  refine { unitBuilt with protocol := ?_ }
  intro _ same
  cases same
  exact { protocolBuilt with
    messages := List.forall_mem_singleton.mpr pingBuilt
    statements := List.forall_mem_cons.mpr
      ⟨statementBuilt, List.forall_mem_singleton.mpr (.ofNull againBuilt)⟩ }

theorem twinUnit_built : twinUnit.BuiltFor twinUnit.file :=
  (builds_twin (.ofFile "PTwin.ipdl") rfl).2

/-- The only diagnostic of the unit has the unknown location. -/
theorem twinUnit_checked : ∃ outcome, twinUnit.check .standard = .ok outcome ∧
    outcome.errors.map Diagnostic.loc? = [some .unknown] := by
  have computed : ((twinUnit.check .standard).toOption.map fun outcome =>
      outcome.errors.map Diagnostic.loc?) = some [some .unknown] := by decide +kernel
  cases ends : twinUnit.check .standard with
  | error fault =>
      rw [ends] at computed
      cases computed
  | ok outcome =>
      rw [ends] at computed
      exact ⟨outcome, rfl, Option.some.inj computed⟩

/-- The diagnostics of the twin are in its file, but for the repeated source. -/
theorem twin_located :
    twinUnit.file ≠ "" ∧ twinUnit.BuiltFor twinUnit.file ∧
      ∃ outcome, twinUnit.check .standard = .ok outcome ∧
        ∃ protocol, twinUnit.protocol = some protocol ∧
          LocatedIn twinUnit.file protocol .strict outcome.errors := by
  have named : twinUnit.file ≠ "" := by decide
  obtain ⟨outcome, ends, _⟩ := twinUnit_checked
  exact ⟨named, twinUnit_built, outcome, ends, check_locates named twinUnit_built .standard ends⟩

/-- The repeated source of the twin is at line 5, but its diagnostic has no place in the file. -/
theorem twin_unplaced :
    twinUnit.file ≠ "" ∧ twinUnit.BuiltFor twinUnit.file ∧
      ∃ outcome, twinUnit.check .standard = .ok outcome ∧
        ∃ diagnostic ∈ outcome.errors, diagnostic.loc? = some .unknown ∧
          Location.unknown.file ≠ twinUnit.file := by
  obtain ⟨outcome, ends, places⟩ := twinUnit_checked
  have listed : some Location.unknown ∈ outcome.errors.map Diagnostic.loc? := by
    rw [places]
    exact List.mem_cons_self
  obtain ⟨diagnostic, inside, place⟩ := List.mem_map.mp listed
  exact ⟨by decide, twinUnit_built, outcome, ends, diagnostic, inside, place, by decide⟩

end SourceUnit

end ActorProtocol

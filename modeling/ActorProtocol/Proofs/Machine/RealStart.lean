import ActorProtocol.Proofs.Policies

/-!
# Where an accepted machine starts

A machine that is accepted has a source that is flagged as a start, but the check does not
ask which. The shared wildcard is flagged, so a machine may start at its wildcard alone,
which is no state to be in, or at a dead state that is flagged by hand. A machine has a
start among its ordinary states exactly if the check still passes when its sentinel sources
are written without the flag.
-/

namespace ActorProtocol

set_option autoImplicit false

/-- Some source that is neither the wildcard nor the dead state is flagged as a start. -/
def StateMachine.HasRealStart (machine : StateMachine) : Prop :=
  ∃ statement ∈ machine.statements,
    statement.state.start = true ∧ State.isSentinelName statement.state.name = false

namespace Statement

/-- The statement with its source as a plain state, if that has the name of a sentinel. -/
def unflagged (statement : Statement) : Statement :=
  if State.isSentinelName statement.state.name then
    { statement with state := { statement.state with start := false } }
  else statement

@[simp] theorem name_unflagged (statement : Statement) :
    statement.unflagged.state.name = statement.state.name := by
  unfold unflagged
  split <;> rfl

@[simp] theorem transitions_unflagged (statement : Statement) :
    statement.unflagged.transitions = statement.transitions := by
  unfold unflagged
  split <;> rfl

theorem start_unflagged_iff (statement : Statement) :
    statement.unflagged.state.start = true ↔
      statement.state.start = true ∧ State.isSentinelName statement.state.name = false := by
  unfold unflagged
  split
  · rename_i sentinel
    simp [sentinel]
  · rename_i ordinary
    simp [ordinary]

end Statement

namespace Protocol

variable {protocol : Protocol}

/-- The protocol with its sentinel sources written without a flag. -/
def unflagged (protocol : Protocol) : Protocol :=
  { protocol with statements := protocol.statements.map Statement.unflagged }

theorem rejected_unflagged_eq_nil (clean : protocol.rejected = []) :
    protocol.unflagged.rejected = [] := by
  obtain ⟨distinct, deadEnds⟩ := rejected_eq_nil_iff.mp clean
  rw [rejected_eq_nil_iff]
  constructor
  · simpa [unflagged, Function.comp_def] using distinct
  · simpa [unflagged] using deadEnds

/-- Where nothing is rejected, the machine has the starts that are written. -/
theorem hasRealStart_iff (clean : protocol.rejected = []) :
    protocol.machine.HasRealStart ↔ ∃ statement ∈ protocol.statements,
      statement.state.start = true ∧ State.isSentinelName statement.state.name = false := by
  constructor
  · rintro ⟨kept, inside, flagged, ordinary⟩
    rcases padded_or_dead_of_mem_machine clean inside with ⟨statement, member, rfl⟩ | ⟨rfl, _⟩
    · rw [Statement.state_padded] at flagged ordinary
      exact ⟨statement, member, flagged, ordinary⟩
    · cases flagged
  · rintro ⟨statement, member, start⟩
    refine ⟨_, padded_mem_machine clean member, ?_⟩
    rw [Statement.state_padded]
    exact start

theorem hasRealStart_iff_unflagged (clean : protocol.rejected = [])
    (filled : protocol.statements ≠ []) :
    protocol.machine.HasRealStart ↔ protocol.unflagged.startErrors = [] := by
  have written : protocol.unflagged.statements ≠ [] := by
    simpa [unflagged] using filled
  rw [hasRealStart_iff clean, startErrors_eq_nil_iff (rejected_unflagged_eq_nil clean)]
  simp only [written, ne_eq, not_false_eq_true, forall_const]
  simp only [unflagged, List.mem_map, exists_exists_and_eq_and, Statement.start_unflagged_iff]

/-- What is known of the starts of a machine that is accepted. -/
structure Started (protocol : Protocol) : Prop where
  kept : protocol.rejected = []
  flagged : ∃ statement ∈ protocol.machine.statements, statement.state.start = true
  real_iff : protocol.machine.HasRealStart ↔ ∃ statement ∈ protocol.statements,
    statement.state.start = true ∧ State.isSentinelName statement.state.name = false
  unreal : ¬ protocol.machine.HasRealStart → ∃ statement ∈ protocol.statements,
    statement.state.start = true ∧ (statement.state.name = State.anyName ∨
      statement.state.name = State.deadName ∧ statement.destinations = [])
  unflagged_iff : protocol.machine.HasRealStart ↔ protocol.unflagged.startErrors = []

theorem started_of_silent (clean : protocol.rejected = []) (silent : protocol.startErrors = [])
    (filled : protocol.statements ≠ []) : protocol.Started := by
  obtain ⟨statement, member, start⟩ := (startErrors_eq_nil_iff clean).mp silent filled
  refine ⟨clean, ⟨_, padded_mem_machine clean member, ?_⟩, hasRealStart_iff clean, ?_,
    hasRealStart_iff_unflagged clean filled⟩
  · rw [Statement.state_padded]
    exact start
  · intro unreal
    rw [hasRealStart_iff clean] at unreal
    refine ⟨statement, member, start, ?_⟩
    have sentinel : State.isSentinelName statement.state.name = true := by
      by_contra ordinary
      exact unreal ⟨statement, member, start, by simpa using ordinary⟩
    rw [State.isSentinelName, Bool.or_eq_true, beq_iff_eq, beq_iff_eq] at sentinel
    rcases sentinel with wild | dead
    · exact Or.inl wild
    · right
      refine ⟨dead, ?_⟩
      unfold Statement.destinations
      rw [List.flatMap_eq_nil_iff]
      intro transition inside
      exact Transition.destinations_of_isNull
        ((rejected_eq_nil_iff.mp clean).2 statement member dead transition inside)

end Protocol

namespace SourceUnit

variable {unit : SourceUnit} {protocol : Protocol} {options : CheckOptions}

/-- A unit without errors has passed both stages. -/
theorem Reports.passed {errors : List Diagnostic} (reports : unit.Reports protocol options errors)
    (silent : errors = []) : ∃ checked : Reported Checked MachineError,
      (unit.resolved protocol options.extraTypes).check = .ok checked ∧ checked.errors = [] := by
  cases reports with
  | stopped _ wrong => exact absurd (List.map_eq_nil_iff.mp silent) wrong
  | complete _ ok => exact ⟨_, ok, List.map_eq_nil_iff.mp (List.append_eq_nil_iff.mp silent).2⟩

/-- An accepted machine has a start. If none of its ordinary states is one, then the wildcard
is, or a dead state, and the check would tell if these were not flagged. -/
theorem check_starts (described : unit.protocol = some protocol)
    (filled : protocol.statements ≠ []) {outcome : UnitCheck}
    (ends : unit.check options = .ok outcome) (silent : outcome.errors = []) :
    protocol.Started := by
  obtain ⟨own, again, reports⟩ := reports_of_check ends
  cases described.symm.trans again
  obtain ⟨checked, ok, none⟩ := reports.passed silent
  obtain ⟨own, same, _, errors⟩ := Resolved.errors_of_check ok
  cases described.symm.trans same
  rw [none] at errors
  simp only [Protocol.structureErrors, List.nil_eq, List.append_eq_nil_iff,
    List.map_eq_nil_iff] at errors
  obtain ⟨⟨⟨⟨clean, _⟩, starts⟩, _⟩, _⟩ := errors
  exact Protocol.started_of_silent clean starts filled

/-- Whether a check passes can be computed. -/
theorem exists_silent_of_computed (unit : SourceUnit) (options : CheckOptions)
    (passes : ((unit.check options).toOption.any fun outcome => outcome.errors.isEmpty) = true) :
    ∃ outcome, unit.check options = .ok outcome ∧ outcome.errors = [] := by
  cases ends : unit.check options with
  | error fault =>
      rw [ends] at passes
      cases passes
  | ok outcome =>
      rw [ends] at passes
      exact ⟨outcome, rfl, List.isEmpty_iff.mp passes⟩

/-- The channel starts at an ordinary state. -/
theorem channel_started :
    (channelUnit "Header").protocol = some (channelProtocol "Header") ∧
      (channelProtocol "Header").statements ≠ [] ∧
      (∃ outcome, (channelUnit "Header").check .standard = .ok outcome ∧ outcome.errors = []) ∧
      (channelProtocol "Header").Started ∧ (channelProtocol "Header").machine.HasRealStart := by
  have described : (channelUnit "Header").protocol = some (channelProtocol "Header") := rfl
  have filled : (channelProtocol "Header").statements ≠ [] := List.cons_ne_nil _ _
  obtain ⟨outcome, ends, silent⟩ :=
    exists_silent_of_computed (channelUnit "Header") .standard (by decide +kernel)
  have started := check_starts described filled ends silent
  have real : (channelProtocol "Header").machine.HasRealStart :=
    started.real_iff.mpr ⟨_, List.mem_cons_self, by decide, by decide⟩
  exact ⟨described, filled, ⟨outcome, ends, silent⟩, started, real⟩

def bellLine (line : Nat) : Location := ⟨"PBell.ipdl", line⟩

/-- A bell that rings from anywhere, but has no state to start in. -/
def bellProtocol : Protocol where
  id := ⟨2⟩
  name := "PBell"
  namespaces := []
  semantics := .async
  spawns := []
  bridges := []
  managers := []
  manages := []
  messages := [⟨⟨3⟩, "Ring", .async, .outbound, [], [], bellLine 2⟩]
  statements := [
    ⟨⟨5⟩, ⟨⟨4⟩, "Idle", false, bellLine 3⟩, [], bellLine 3⟩,
    ⟨⟨8⟩, .any,
      [⟨⟨7⟩, some .send, some "Ring", [⟨⟨6⟩, "Idle", false, bellLine 5⟩], bellLine 5⟩],
      bellLine 4⟩]
  loc := bellLine 1

def bellUnit : SourceUnit :=
  { SourceUnit.ofFile ⟨1⟩ "PBell.ipdl" with protocol := some bellProtocol }

/-- The bell is accepted, as the shared wildcard is flagged, but no ordinary state of its
machine is a start. -/
theorem bell_unstarted :
    bellProtocol.statements ≠ [] ∧
      (∃ outcome, bellUnit.check .standard = .ok outcome ∧ outcome.errors = []) ∧
      bellUnit.protocol = some bellProtocol ∧ ¬ bellProtocol.machine.HasRealStart := by
  have clean : bellProtocol.rejected = [] := by decide
  refine ⟨List.cons_ne_nil _ _,
    exists_silent_of_computed bellUnit .standard (by decide +kernel), rfl, ?_⟩
  rw [Protocol.hasRealStart_iff clean]
  decide
end SourceUnit

end ActorProtocol

import ActorProtocol.Proofs.Faultless
import ActorProtocol.Proofs.Naming.Protocols
import ActorProtocol.Proofs.Program.Findings

/-!
# Closed programs

An accepted program names no protocol that it does not describe. The check of the program
passes over relations to protocols that it does not know; that none are left is owed to
resolution, which ties every name of a protocol to the unit itself or to an include, and
to the includes, which all lead to units of the right protocols.
-/

namespace ActorProtocol

set_option autoImplicit false

namespace SourceUnit

variable {unit : SourceUnit} {protocol : Protocol} {extra : List String}

/-- A state is kept only for a type that names a protocol, and is the one that is asked. -/
theorem Numbered.asked_of_actorState? (numbered : unit.Numbered)
    (described : unit.protocol = some protocol) {type : TypeRef} (member : type ∈ unit.typeRefs)
    (isActor : type.isActor = true) {state : State}
    (kept : (unit.checked protocol extra).actorState? type.id = some state) :
    type.state = some state := by
  rw [numbered.actorState?_checked described extra member] at kept
  unfold Bindings.typeState? at kept
  split at kept
  · cases kept
  · split at kept
    · rcases Option.isSome_iff_exists.mp isActor with ⟨asked, given⟩
      rw [given, Option.getD_some] at kept
      rw [given, kept]
    · cases kept

/-- Where all names are right, an actor keeps the state that is asked of it. -/
theorem Numbered.actorState?_of_asked (numbered : unit.Numbered)
    (described : unit.protocol = some protocol)
    (silent : (unit.resolution protocol extra).errors = []) {type : TypeRef}
    (member : type ∈ unit.typeRefs) {state : State} (asked : type.state = some state)
    {decl : Decl} (declared : (unit.checked protocol extra).decls.declOf? type.id = some decl)
    (isProtocol : decl.kind.isProtocol = true) :
    (unit.checked protocol extra).actorState? type.id = some state := by
  change (unit.resolution protocol extra).table.declOf? type.id = some decl at declared
  have used := (type_mem_useNodes_iff described).mpr member
  rcases Option.bind_eq_some_iff.mp declared with ⟨id, linked, known⟩
  have found := (numbered.link_type described extra used).symm.trans linked
  have bound := (unit.continues_resolution protocol extra).bound id decl known
    (DeclKind.isMember_of_isType (DeclKind.isType_of_isProtocol isProtocol))
  have actor : (unit.bindings protocol extra).isProtocol id = true := by
    rw [Bindings.isProtocol, bound]
    exact isProtocol
  have right : (unit.bindings protocol extra).typeError? (.ofProtocol protocol) type = none := by
    cases wrong : (unit.bindings protocol extra).typeError? (.ofProtocol protocol) type with
    | none => rfl
    | some error =>
        have reported := reported_of_useError? used wrong
        rw [silent] at reported
        cases reported
  rw [numbered.actorState?_checked described extra member, Bindings.typeState?, found]
  dsimp only
  rw [if_pos ⟨actor, right⟩, asked, Option.getD_some]

/-- Where all names are right, a protocol that is named is that of the unit or included. -/
theorem own_or_included_of_named (silent : (unit.resolution protocol extra).errors = [])
    {name : Ident} (member : name ∈ protocol.protocolNames) :
    protocol.name = name.name ∨ ∃ included ∈ unit.includes, included.protocol = name.name := by
  have used : .protocolName name ∈ unit.useNodes protocol := by
    have written : .protocolName name ∈ unit.uses protocol := by
      simp [uses, Protocol.uses, member]
    exact mem_useNodes_iff.mpr ⟨_, written, rfl⟩
  have known : (unit.bindings protocol extra).names.protocols.contains name.name = true := by
    by_contra unknown
    have wrong : (unit.bindings protocol extra).useError? (.ofProtocol protocol)
        (.protocolName name) = some (.unknownProtocol name.name) := by
      rw [Bindings.useError?, Bindings.nameError?, if_neg unknown]
    have reported := reported_of_useError? used wrong
    rw [silent] at reported
    cases reported
  exact contains_protocols_bindings_iff.mp known

end SourceUnit

/-- The units that are collected are clean, and where nothing is reported the check of the
program has found nothing either. -/
theorem clean_of_checkUnits {options : CheckOptions} {units : List SourceUnit}
    (numbered : ∀ unit ∈ units, unit.Numbered) {result : ProgramCheck}
    (ok : checkUnits units options = .ok result) :
    (∀ entry ∈ result.units.entries, entry.2.Clean) ∧
      (result.errors = [] → checkProgram result.units = .ok []) := by
  obtain ⟨outcomes, each, collected, passed⟩ := outcomes_of_checkUnits ok
  rw [collected] at passed ⊢
  exact ⟨clean_of_checkEach numbered each, fun silent => (passed silent).2⟩

namespace Program

/-- A program in which every protocol that is named is described, and all relations and
states of actors fit the unit that describes it. -/
structure Closed (program : Program) : Prop where
  includes : ∀ unit ∈ program.units, ∀ included ∈ unit.checked.unit.includes,
    ∃ target, program.unitOfFile? included.file = some target ∧
      target.protocol.name = included.protocol
  names : ∀ unit ∈ program.units, ∀ name ∈ unit.protocol.protocolNames,
    ∃ other ∈ program.units, other.protocol.name = name.name
  links : ∀ unit ∈ program.units, ∀ node decl,
    unit.checked.decls.declOf? node = some decl → ∀ file, decl.kind = .includedProtocol file →
      ∃ other ∈ program.units, other.protocol.name = decl.fullName
  managers : ∀ unit ∈ program.units, ∀ manager ∈ unit.protocol.managers,
    ∃ other, program.unitOfProtocol? manager.name = some other ∧
      ∃ managed ∈ other.protocol.manages, managed.name = unit.protocol.name
  manages : ∀ unit ∈ program.units, ∀ managed ∈ unit.protocol.manages,
    ∃ other, program.unitOfProtocol? managed.name = some other ∧
      ∃ manager ∈ other.protocol.managers, manager.name = unit.protocol.name
  actorStates : ∀ unit ∈ program.units,
    ∀ type ∈ unit.checked.unit.typeRefs ++ unit.checked.unit.usings.map UsingType.type,
      ∀ state, type.state = some state →
        ∀ decl, unit.checked.decls.declOf? type.id = some decl →
          ∀ file, decl.kind = .includedProtocol file →
            ∃ target, program.unitOfProtocol? decl.fullName = some target ∧
              (State.isSentinelName state.name = true ∨
                state.name ∈ target.checked.machine.names)

variable {program : Program}

theorem stateKnown_of_clean {checked : Checked} (clean : checked.Clean)
    (silent : ∀ type ∈ checked.unit.typeRefs, type.isActor = true →
      program.actorStateError? checked type = .ok none) {type : TypeRef}
    (member : type ∈ checked.unit.typeRefs ++ checked.unit.usings.map UsingType.type) :
    program.StateKnown checked type := by
  rcases clean with ⟨unit, protocol, extra, described, numbered, named, rfl⟩
  rcases List.mem_append.mp member with used | brought
  · intro state asked
    have isActor : type.isActor = true := by
      rw [TypeRef.isActor, asked, Option.isSome_some]
    apply stateKnown_of_actorStateError? _ (silent type used isActor) state asked
    intro state asked decl declared file kind
    exact numbered.actorState?_of_asked described named used asked declared (by rw [kind]; rfl)
  · rcases List.mem_map.mp brought with ⟨brought, inside, rfl⟩
    intro state _ decl declared file kind
    have plain := numbered.brought_plain described extra inside declared
    rw [kind] at plain
    cases plain

theorem actorStateError?_of_made {checked : Checked} (made : checked.Made) {type : TypeRef}
    (member : type ∈ checked.unit.typeRefs) (isActor : type.isActor = true)
    (known : program.StateKnown checked type) :
    program.actorStateError? checked type = .ok none := by
  rcases made with ⟨protocol, extra, described, numbered, same⟩
  apply actorStateError?_eq_none _ _ known
  · intro state kept
    rw [same] at kept
    exact numbered.asked_of_actorState? described member isActor kept
  · intro state kept
    rw [same] at kept ⊢
    exact numbered.declOf?_of_actorState? described extra member kept

theorem consistent_of_clean (clean : ∀ unit ∈ program.units, unit.checked.Clean)
    (silent : program.errors = .ok []) : program.Consistent := by
  have found : ∀ unit ∈ program.units, program.unitErrors unit = .ok [] :=
    errorsOf_eq_nil_iff.mp silent
  constructor
  · intro unit member included inside
    exact includeError?_eq_none_iff.mp ((unitErrors_eq_nil_iff.mp (found unit member)).1 _ inside)
  · intro unit member manager inside
    exact managerError?_eq_none_iff.mp
      ((unitErrors_eq_nil_iff.mp (found unit member)).2.1 _ inside)
  · intro unit member managed inside
    exact managesError?_eq_none_iff.mp
      ((unitErrors_eq_nil_iff.mp (found unit member)).2.2.1 _ inside)
  · intro unit member type inside
    exact stateKnown_of_clean (clean unit member)
      (unitErrors_eq_nil_iff.mp (found unit member)).2.2.2 inside

theorem errors_of_consistent (made : ∀ unit ∈ program.units, unit.checked.Made)
    (consistent : program.Consistent) : program.errors = .ok [] := by
  apply errorsOf_eq_nil_iff.mpr
  intro unit member
  apply unitErrors_eq_nil_iff.mpr
  refine ⟨?_, ?_, ?_, ?_⟩
  · intro included inside
    exact includeError?_eq_none_iff.mpr (consistent.includes unit member included inside)
  · intro manager inside
    exact managerError?_eq_none_iff.mpr (consistent.managers unit member manager inside)
  · intro managed inside
    exact managesError?_eq_none_iff.mpr (consistent.manages unit member managed inside)
  · intro type used isActor
    exact actorStateError?_of_made (made unit member) used isActor
      (consistent.actorStates unit member type (List.mem_append_left _ used))

/-- What an include names is described by the unit that it leads to. -/
theorem Consistent.described_of_included (consistent : program.Consistent) {unit : ProgramUnit}
    (member : unit ∈ program.units) {included : ProtocolInclude}
    (inside : included ∈ unit.checked.unit.includes) :
    ∃ other ∈ program.units, other.protocol.name = included.protocol := by
  rcases consistent.includes unit member included inside with ⟨target, found, named⟩
  exact ⟨target, List.mem_of_find?_eq_some found, named⟩

theorem Consistent.described_of_named (consistent : program.Consistent) {unit : ProgramUnit}
    (member : unit ∈ program.units) (clean : unit.checked.Clean)
    (own : unit.checked.unit.protocol = some unit.protocol) {name : Ident}
    (named : name ∈ unit.protocol.protocolNames) :
    ∃ other ∈ program.units, other.protocol.name = name.name := by
  rcases clean with ⟨source, protocol, extra, described, _, silent, same⟩
  have sourceUnit : unit.checked.unit = source := congrArg Checked.unit same
  have same : protocol = unit.protocol := by
    rw [sourceUnit, described] at own
    exact Option.some.inj own
  rw [← same] at named
  rcases SourceUnit.own_or_included_of_named silent named with self | ⟨included, inside, spelled⟩
  · exact ⟨unit, member, by rw [← same, self]⟩
  · rw [← sourceUnit] at inside
    rcases consistent.described_of_included member inside with ⟨other, found, describes⟩
    exact ⟨other, found, describes.trans spelled⟩

theorem Consistent.described_of_linked (consistent : program.Consistent) {unit : ProgramUnit}
    (member : unit ∈ program.units) (clean : unit.checked.Clean) {node : NodeId} {decl : Decl}
    (declared : unit.checked.decls.declOf? node = some decl) {file : String}
    (kind : decl.kind = .includedProtocol file) :
    ∃ other ∈ program.units, other.protocol.name = decl.fullName := by
  rcases clean with ⟨source, protocol, extra, _, _, _, same⟩
  have sourceUnit : unit.checked.unit = source := congrArg Checked.unit same
  rw [same] at declared
  rcases Option.bind_eq_some_iff.mp declared with ⟨id, _, known⟩
  rcases SourceUnit.exists_include_of_decl? known kind with ⟨included, inside, _, _, full⟩
  rw [← sourceUnit] at inside
  rw [full]
  exact consistent.described_of_included member inside

/-- Where a protocol is described, a relation to it is not passed over. -/
theorem exists_target_of_described {name : String} {holds : ProgramUnit → Prop}
    (described : ∃ other ∈ program.units, other.protocol.name = name)
    (related : ∀ other, program.unitOfProtocol? name = some other → holds other) :
    ∃ other, program.unitOfProtocol? name = some other ∧ holds other := by
  rcases described with ⟨unit, member, rfl⟩
  rcases exists_unitOfProtocol? member with ⟨last, found⟩
  exact ⟨last, found, related last found⟩

theorem closed_of_consistent (consistent : program.Consistent)
    (clean : ∀ unit ∈ program.units, unit.checked.Clean)
    (own : ∀ unit ∈ program.units, unit.checked.unit.protocol = some unit.protocol) :
    program.Closed where
  includes := consistent.includes
  names unit member name named :=
    consistent.described_of_named member (clean unit member) (own unit member) named
  links unit member node decl declared file kind :=
    consistent.described_of_linked member (clean unit member) declared kind
  managers unit member manager inside := by
    apply exists_target_of_described _ (consistent.managers unit member manager inside)
    apply consistent.described_of_named member (clean unit member) (own unit member)
    simp [Protocol.protocolNames, inside]
  manages unit member managed inside := by
    apply exists_target_of_described _ (consistent.manages unit member managed inside)
    apply consistent.described_of_named member (clean unit member) (own unit member)
    simp [Protocol.protocolNames, inside]
  actorStates unit member type inside state asked decl declared file kind := by
    apply exists_target_of_described _
      (consistent.actorStates unit member type inside state asked decl declared file kind)
    exact consistent.described_of_linked member (clean unit member) declared kind

theorem Closed.consistent (closed : program.Closed) : program.Consistent := by
  refine ⟨closed.includes, ?_, ?_, ?_⟩
  · intro unit member manager inside other found
    rcases closed.managers unit member manager inside with ⟨_, known, fits⟩
    exact Option.some.inj (known.symm.trans found) ▸ fits
  · intro unit member managed inside other found
    rcases closed.manages unit member managed inside with ⟨_, known, fits⟩
    exact Option.some.inj (known.symm.trans found) ▸ fits
  · intro unit member type inside state asked decl declared file kind target found
    rcases closed.actorStates unit member type inside state asked decl declared file kind with
      ⟨_, known, fits⟩
    exact Option.some.inj (known.symm.trans found) ▸ fits

/-- A map of checked units makes a program, whose units are its entries in their order, each
with its protocol. -/
theorem exists_program {map : OrderedMap String Checked}
    (made : ∀ entry ∈ map.entries, entry.2.Made) :
    ∃ program, ofMap map = .ok program ∧ checkProgram map = program.errors ∧
      (program.units.map fun unit => (unit.file, unit.checked)) = map.entries ∧
      ∀ unit ∈ program.units, unit.checked.unit.protocol = some unit.protocol := by
  rcases checkProgram_ok made with ⟨_, ok⟩
  have described := described_of_checkProgram ok
  have whole := ofMap_of_described described
  refine ⟨ofEntries map.entries, whole, checkProgram_eq_errors whole,
    entries_of_units described, ?_⟩
  intro unit member
  rcases List.mem_filterMap.mp member with ⟨_, _, known⟩
  exact (ProgramUnit.described?_eq_some_iff.mp known).2

theorem mem_entries_of_mem_units {map : OrderedMap String Checked}
    (listed : (program.units.map fun unit => (unit.file, unit.checked)) = map.entries)
    {unit : ProgramUnit} (member : unit ∈ program.units) :
    (unit.file, unit.checked) ∈ map.entries := by
  rw [← listed]
  exact List.mem_map_of_mem member

end Program

/-- What is accepted is closed, and a program of checked units that fit each other is
accepted. In both the units of the program are the entries of the map. -/
theorem checkUnits_closed (options : CheckOptions) {units : List SourceUnit}
    (numbered : ∀ unit ∈ units, unit.Numbered) :
    (∀ result, checkUnits units options = .ok result →
      (∀ entry ∈ result.units.entries, entry.2.Made) ∧
      (result.errors = [] →
        ∃ program, Program.ofMap result.units = .ok program ∧
          (program.units.map fun unit => (unit.file, unit.checked)) = result.units.entries ∧
          program.Closed)) ∧
    ∀ map : OrderedMap String Checked, (∀ entry ∈ map.entries, entry.2.Made) →
      ∃ program, Program.ofMap map = .ok program ∧
        (program.units.map fun unit => (unit.file, unit.checked)) = map.entries ∧
        (program.Consistent → checkProgram map = .ok []) := by
  constructor
  · intro result ok
    rcases clean_of_checkUnits numbered ok with ⟨clean, found⟩
    have made : ∀ entry ∈ result.units.entries, entry.2.Made :=
      fun entry member => (clean entry member).made
    refine ⟨made, ?_⟩
    intro silent
    rcases Program.exists_program made with ⟨program, whole, errors, listed, own⟩
    have units : ∀ unit ∈ program.units, unit.checked.Clean :=
      fun unit member => clean _ (Program.mem_entries_of_mem_units listed member)
    have consistent := Program.consistent_of_clean units (errors.symm.trans (found silent))
    exact ⟨program, whole, listed, Program.closed_of_consistent consistent units own⟩
  · intro map made
    rcases Program.exists_program made with ⟨program, whole, errors, listed, _⟩
    have units : ∀ unit ∈ program.units, unit.checked.Made :=
      fun unit member => made _ (Program.mem_entries_of_mem_units listed member)
    refine ⟨program, whole, listed, ?_⟩
    intro consistent
    rw [errors]
    exact Program.errors_of_consistent units consistent

def hostLine (line : Nat) : Location := ⟨"PHost.ipdl", line⟩

/-- The host manages the channel, and hands out one that is busy. -/
def hostProtocol : Protocol where
  id := ⟨3⟩
  name := "PHost"
  namespaces := []
  semantics := .sync
  spawns := []
  bridges := []
  managers := []
  manages := [⟨⟨4⟩, "PChannel", hostLine 3⟩]
  messages := [
    ⟨⟨5⟩, "Attach", .async, .outbound,
      [⟨⟨6⟩, "channel", ⟨⟨7⟩, ⟨[], "PChannel"⟩, some ⟨⟨8⟩, "Busy", false, hostLine 4⟩, false, false,
        none, none, hostLine 4⟩, hostLine 4⟩], [], hostLine 4⟩]
  statements := [
    ⟨⟨9⟩, ⟨⟨10⟩, "Up", true, hostLine 5⟩,
      [⟨⟨11⟩, some .send, some "Attach", [⟨⟨12⟩, "Up", false, hostLine 6⟩], hostLine 6⟩],
      hostLine 5⟩]
  loc := hostLine 2

def hostUnit : SourceUnit :=
  { SourceUnit.ofFile ⟨1⟩ "PHost.ipdl" with
    includes := [⟨⟨2⟩, "PChannel", "PChannel.ipdl", hostLine 1⟩]
    protocol := some hostProtocol }

/-- A host and its channel are accepted, so they are closed and fit each other. -/
theorem host_and_channel_closed :
    (∀ unit ∈ [hostUnit, channelUnit "Header"], unit.Numbered) ∧
      ∃ result program, checkUnits [hostUnit, channelUnit "Header"] .standard = .ok result ∧
        result.errors = [] ∧ Program.ofMap result.units = .ok program ∧
        (program.units.map fun unit => (unit.file, unit.checked)) = result.units.entries ∧
        program.Closed ∧ program.Consistent ∧ checkProgram result.units = .ok [] := by
  have numbered : ∀ unit ∈ [hostUnit, channelUnit "Header"], unit.Numbered := by
    intro unit member
    rcases List.mem_cons.mp member with rfl | last
    · constructor <;> decide
    · exact List.mem_singleton.mp last ▸ channelUnit_numbered "Header"
  have messages : (checkUnits [hostUnit, channelUnit "Header"] .standard).toOption.map
      (fun result => result.errors.map Diagnostic.message) = some [] := by decide +kernel
  cases ok : checkUnits [hostUnit, channelUnit "Header"] .standard with
  | error fault =>
      rw [ok] at messages
      cases messages
  | ok result =>
      rw [ok] at messages
      have silent : result.errors = [] := List.map_eq_nil_iff.mp (Option.some.inj messages)
      rcases checkUnits_closed .standard numbered with ⟨accepted, fitting⟩
      rcases accepted result ok with ⟨made, whole⟩
      rcases whole silent with ⟨program, known, listed, closed⟩
      rcases fitting result.units made with ⟨same, found, _, passes⟩
      rw [known] at found
      cases found
      exact ⟨numbered, result, program, rfl, silent, known, listed, closed, closed.consistent,
        passes closed.consistent⟩

end ActorProtocol

import ActorProtocol.Proofs.Naming.ActorStates
import ActorProtocol.Proofs.Naming.ShortName
import ActorProtocol.Proofs.Program.Closure
import ActorProtocol.Proofs.Program.Findings

/-!
# States asked of a protocol

The states that may be asked of the actors of a protocol are those of its machine. The unit
of the protocol answers for its own types by the names that resolution has bound, and the
check of a program answers for the types of other units by the machine; rejected statements,
repeated ones and statements of the sentinels count for both.
-/

namespace ActorProtocol

set_option autoImplicit false

namespace SourceUnit

variable {unit : SourceUnit} {protocol : Protocol} {extra : List String}

/-! ## The name of the protocol -/

/-- The type stands for the protocol of the unit. -/
def NamesOwn (unit : SourceUnit) (protocol : Protocol) (extra : List String) (type : TypeRef) :
    Prop :=
  (unit.bindings protocol extra).names.type? (.ofProtocol protocol) type.name =
    (unit.bindings protocol extra).names.own

theorem own_bindings (unit : SourceUnit) (protocol : Protocol) (extra : List String) :
    ∃ id, (unit.bindings protocol extra).names.own = some id ∧
      (unit.bindings protocol extra).table.decl? id =
        some ((Home.ofProtocol protocol).declared id (.ownProtocol protocol)) := by
  refine ⟨_, unit.own_bindings_eq protocol extra, ?_⟩
  rw [bindings_eq]
  exact Bindings.decl?_of_declares _ _ _ rfl

/-- No include is spelled like the full name of the protocol, unless that is its bare name. -/
def ClearOf (unit : SourceUnit) (protocol : Protocol) : Prop :=
  ∀ included ∈ unit.includes, included.protocol = protocol.qualifiedName.text →
    included.protocol = protocol.name

/-- Of what is bound after the protocol only an include might take its full name. -/
theorem find?_types_of_late (clear : unit.ClearOf protocol) (first : List Binder)
    {later : List Binder} (late : ∀ binder ∈ later, binder ∈ unit.laterBinders protocol) :
    (Bindings.ofBinders (.ofProtocol protocol)
        (first ++ .ownProtocol protocol :: later)).names.types.find? protocol.qualifiedName.text =
      some (Bindings.ofBinders (.ofProtocol protocol) first).table.nextId := by
  induction later using List.reverseRecOn with
  | nil =>
      rw [Bindings.ofBinders_concat]
      refine (OrderedMap.find?_insert _ _ _ _).trans ?_
      split
      · rfl
      · exact (OrderedMap.find?_insert _ _ _ _).trans (if_pos rfl)
  | append_singleton later binder ih =>
      have known := ih fun earlier member => late earlier (List.mem_append_left _ member)
      have bound := late binder (List.mem_append_right _ List.mem_cons_self)
      rw [← List.cons_append, ← List.append_assoc, Bindings.ofBinders_concat]
      have own : (Bindings.ofBinders (.ofProtocol protocol)
          (first ++ .ownProtocol protocol :: later)).names.protocols.contains protocol.name =
            true :=
        Bindings.contains_protocols_iff.mpr
          ⟨.ownProtocol protocol, List.mem_append_right _ List.mem_cons_self, rfl⟩
      generalize Bindings.ofBinders (.ofProtocol protocol)
        (first ++ .ownProtocol protocol :: later) = before at known own ⊢
      have outcome := before.bind_cases (.ofProtocol protocol) binder
      generalize before.bind (.ofProtocol protocol) binder = after at outcome ⊢
      cases outcome with
      | @included included absent =>
          refine (OrderedMap.find?_insert _ _ _ _).trans ?_
          split
          · rename_i same
            have inside : included ∈ unit.includes := by simpa [laterBinders] using bound
            rw [clear included inside same, own] at absent
            cases absent
          · exact known
      | builtinType | usingType | typeDecl | ownProtocol =>
          exact absurd bound (by simp [laterBinders])
      | _ => exact known

theorem namesOwn_of_bare (clear : unit.ClearOf protocol) (extra : List String) {type : TypeRef}
    (bare : type.name.text = protocol.name) : unit.NamesOwn protocol extra type := by
  have full := find?_types_of_late clear (unit.plainBinders extra) fun _ member => member
  unfold NamesOwn
  rw [unit.own_bindings_eq protocol extra, bindings_eq]
  apply Names.type?_of_innermost (Nat.le_refl _)
  · rw [bare, ← full]
    unfold Home.candidate
    rw [List.take_length]
    rfl
  · intro inner deeper bound
    omega

/-! ## The unit's own answer -/

/-- The state that is wrong is asked of the unit's own protocol, so it is none of its states. -/
theorem not_hasState_of_reported {text name : String} {loc : Location}
    (reported : ⟨.unknownState text name, loc⟩ ∈ (unit.resolution protocol extra).errors) :
    ¬ protocol.HasState name := by
  obtain ⟨node, _, wrong⟩ := exists_useNode_of_failure reported rfl
  rw [← contains_states_bindings_iff, Bool.not_eq_true, ← OrderedMap.find?_eq_none_iff]
  cases node with
  | type type =>
      simp only [Bindings.useError?, Bindings.typeError?] at wrong
      split at wrong
      · cases wrong
      · obtain ⟨state, _, wrong⟩ := Option.bind_eq_some_iff.mp wrong
        unfold Bindings.stateError? at wrong
        split at wrong
        · split at wrong
          · rename_i missing
            cases wrong
            exact missing.2
          · cases wrong
        · cases wrong
  | protocolName used =>
      simp only [Bindings.useError?, Bindings.nameError?] at wrong
      split at wrong <;> cases wrong
  | transition used =>
      simp only [Bindings.useError?, Bindings.transitionError?, Option.bind_eq_some_iff] at wrong
      obtain ⟨_, _, wrong⟩ := wrong
      split at wrong <;> cases wrong

theorem reported_of_not_hasState (described : unit.protocol = some protocol) {type : TypeRef}
    (member : type ∈ unit.typeRefs) (own : unit.NamesOwn protocol extra type) {state : State}
    (asked : type.state = some state) (missing : ¬ protocol.HasState state.name) :
    ⟨.unknownState type.name.text state.name, type.loc⟩ ∈
      (unit.resolution protocol extra).errors := by
  obtain ⟨id, named, declared⟩ := unit.own_bindings protocol extra
  have absent : (unit.bindings protocol extra).names.states.find? state.name = none := by
    rw [OrderedMap.find?_eq_none_iff, ← Bool.not_eq_true, contains_states_bindings_iff]
    exact missing
  have isProtocol : (unit.bindings protocol extra).isProtocol id = true := by
    rw [Bindings.isProtocol, declared]
    rfl
  have used := (type_mem_useNodes_iff described).mpr member
  have wrong : (unit.bindings protocol extra).useError? (.ofProtocol protocol) (.type type) =
      some (.unknownState type.name.text state.name) := by
    unfold NamesOwn at own
    simp only [Bindings.useError?, Bindings.typeError?, own, named, asked, Option.bind_some]
    rw [Bindings.stateError?, if_pos isProtocol, if_pos ⟨named, absent⟩]
  exact reported_of_useError? used wrong

/-! ## The answer to other units -/

/-- Nothing is wrong with asking an included protocol for a state, as far as the unit goes. -/
theorem Numbered.asked?_of_written (numbered : unit.Numbered)
    (described : unit.protocol = some protocol) (extra : List String) {type : TypeRef}
    (member : type ∈ unit.typeRefs) {state : State} (asked : type.state = some state) {decl : Decl}
    (declared : (unit.checked protocol extra).decls.declOf? type.id = some decl) {file : String}
    (kind : decl.kind = .includedProtocol file) :
    (unit.checked protocol extra).asked? type = some (decl.fullName, state.name) := by
  have used := (type_mem_useNodes_iff described).mpr member
  have link := numbered.link_type described extra used
  obtain ⟨id, linked, known⟩ := Option.bind_eq_some_iff.mp declared
  have found := link.symm.trans linked
  have isProtocol : (unit.bindings protocol extra).isProtocol id = true := by
    rw [isProtocol_bindings found known, kind]
    rfl
  have foreign : (unit.bindings protocol extra).names.own ≠ some id := by
    intro own
    obtain ⟨ownId, named, made⟩ := unit.own_bindings protocol extra
    cases named.symm.trans own
    have final := (unit.continues_resolution protocol extra).grows _ _ made
    cases known.symm.trans final
    cases kind
  have right : (unit.bindings protocol extra).typeError? (.ofProtocol protocol) type = none := by
    unfold Bindings.typeError?
    rw [found]
    dsimp only
    rw [asked, Option.bind_some, Bindings.stateError?, if_pos isProtocol, if_neg]
    exact fun wrong => foreign wrong.1
  have kept : (unit.checked protocol extra).actorState? type.id = some state := by
    rw [numbered.actorState?_checked described extra member]
    unfold Bindings.typeState?
    rw [found]
    dsimp only
    rw [if_pos ⟨isProtocol, right⟩, asked, Option.getD_some]
  exact Checked.asked?_eq_some_iff.mpr ⟨state, decl, file, kept, rfl, declared, kind, rfl⟩

end SourceUnit

theorem Program.unknownActorState_mem_findings_iff {program : Program} {protocol name : String}
    {loc : Location} :
    ⟨.unknownActorState protocol name, loc⟩ ∈ program.findings ↔
      ∃ unit ∈ program.units, ∃ type ∈ unit.actors,
        unit.checked.asked? type = some (protocol, name) ∧ type.loc = loc ∧
        ∃ target, program.unitOfProtocol? protocol = some target ∧
          target.checked.machine.containsState name = false := by
  constructor
  · intro found
    obtain ⟨unit, inside, found⟩ := List.mem_flatMap.mp found
    simp only [unitFindings, List.mem_append, List.mem_filterMap] at found
    rcases found with ((⟨included, _, wrong⟩ | ⟨manager, _, wrong⟩) | ⟨managed, _, wrong⟩) |
      ⟨type, member, wrong⟩
    · unfold includeError? at wrong
      split at wrong
      · cases wrong
      · split at wrong <;> cases wrong
    · unfold managerError? at wrong
      split at wrong
      · cases wrong
      · split at wrong <;> cases wrong
    · unfold managesError? at wrong
      split at wrong
      · cases wrong
      · split at wrong <;> cases wrong
    · obtain ⟨_, _, target, asked, described, missing, same⟩ := askedError?_eq_some_iff.mp wrong
      cases same
      exact ⟨unit, inside, type, member, asked, rfl, target, described, missing⟩
  · rintro ⟨unit, inside, type, member, asked, rfl, target, described, missing⟩
    refine List.mem_flatMap.mpr ⟨unit, inside, List.mem_append_right _ ?_⟩
    exact List.mem_filterMap.mpr ⟨type, member, askedError?_eq_some_iff.mpr
      ⟨protocol, name, target, asked, described, missing, rfl⟩⟩

/-- A type of the unit asks for a state of the unit's own protocol. -/
structure SourceUnit.AsksOwn (unit : SourceUnit) (protocol : Protocol) (extra : List String)
    (type : TypeRef) (name : String) : Prop where
  member : type ∈ unit.typeRefs
  own : unit.NamesOwn protocol extra type
  asked : ∃ state, type.state = some state ∧ state.name = name

/-- A type of some unit asks for a state of the protocol, which the unit includes and which
is the one that the program looks up by its name. -/
structure Program.AsksOf (program : Program) (protocol : Protocol) (type : TypeRef)
    (name : String) : Prop where
  asked : ∃ unit ∈ program.units, type ∈ unit.actors ∧
    unit.checked.asked? type = some (protocol.name, name)
  indexed : ∃ target, program.unitOfProtocol? protocol.name = some target ∧
    target.checked.machine = protocol.machine

/-- The state that is written on a type of an included protocol is the one that is asked. -/
def Checked.AsksAsWritten (checked : Checked) : Prop :=
  ∀ type ∈ checked.unit.typeRefs, ∀ state, type.state = some state →
    ∀ decl, checked.decls.declOf? type.id = some decl →
      ∀ file, decl.kind = .includedProtocol file →
        checked.asked? type = some (decl.fullName, state.name)

theorem Program.AsksOf.reported_iff {program : Program} {protocol : Protocol} {type : TypeRef}
    {name : String} (asks : program.AsksOf protocol type name) :
    ⟨.unknownActorState protocol.name name, type.loc⟩ ∈ program.findings ↔
      protocol.machine.containsState name = false := by
  obtain ⟨target, known, machine⟩ := asks.indexed
  rw [unknownActorState_mem_findings_iff]
  constructor
  · rintro ⟨_, _, _, _, _, _, other, again, missing⟩
    cases known.symm.trans again
    rw [← machine]
    exact missing
  · intro missing
    obtain ⟨unit, inside, member, asked⟩ := asks.asked
    refine ⟨unit, inside, type, member, asked, rfl, target, known, ?_⟩
    rw [machine]
    exact missing

namespace SourceUnit

variable {unit : SourceUnit} {protocol : Protocol}

theorem AsksOwn.reported_iff (described : unit.protocol = some protocol) {extra : List String}
    {type : TypeRef} {name : String} (asks : unit.AsksOwn protocol extra type name) :
    ⟨.unknownState type.name.text name, type.loc⟩ ∈ (unit.resolution protocol extra).errors ↔
      protocol.machine.containsState name = false := by
  obtain ⟨state, asked, rfl⟩ := asks.asked
  rw [← Bool.not_eq_true, Protocol.containsState_machine_iff]
  exact ⟨not_hasState_of_reported, reported_of_not_hasState described asks.member asks.own asked⟩

/-- What a unit may ask of its own protocol other units may ask of it, and that is the states
of its machine. The bare name of the protocol stands for it, and the states that are written
are those that are asked. -/
theorem asked_states_agree (described : unit.protocol = some protocol) (extra : List String) :
    ∃ reported, unit.resolve extra = .ok reported ∧
      (∀ own name, unit.AsksOwn protocol extra own name →
        (⟨.unknownState own.name.text name, own.loc⟩ ∉ reported.errors ↔
          protocol.machine.containsState name = true)) ∧
      (∀ map program errors, Program.ofMap map = .ok program → checkProgram map = .ok errors →
        ∀ foreign name, program.AsksOf protocol foreign name →
          (⟨.unknownActorState protocol.name name, foreign.loc⟩ ∉ errors ↔
            protocol.machine.containsState name = true) ∧
          ∀ own, unit.AsksOwn protocol extra own name →
            (⟨.unknownState own.name.text name, own.loc⟩ ∉ reported.errors ↔
              ⟨.unknownActorState protocol.name name, foreign.loc⟩ ∉ errors)) ∧
      (unit.ClearOf protocol →
        ∀ type : TypeRef, type.name.text = protocol.name → unit.NamesOwn protocol extra type) ∧
      ∀ checked : Checked, checked.Made → checked.AsksAsWritten := by
  have own : ∀ type name, unit.AsksOwn protocol extra type name →
      (⟨.unknownState type.name.text name, type.loc⟩ ∉ (unit.resolution protocol extra).errors ↔
        protocol.machine.containsState name = true) := by
    intro type name asks
    rw [asks.reported_iff described, Bool.not_eq_false]
  have foreign : ∀ map program errors, Program.ofMap map = .ok program →
      checkProgram map = .ok errors → ∀ type name, program.AsksOf protocol type name →
        (⟨.unknownActorState protocol.name name, type.loc⟩ ∉ errors ↔
          protocol.machine.containsState name = true) := by
    intro map program errors whole ok type name asks
    rw [checkProgram_eq_errors whole] at ok
    rw [Program.eq_findings_of_errors ok, asks.reported_iff, Bool.not_eq_false]
  refine ⟨_, resolve_eq_ok described extra, own, ?_, ?_, ?_⟩
  · intro map program errors whole ok type name asks
    have known := foreign map program errors whole ok type name asks
    exact ⟨known, fun other asksOwn => (own other name asksOwn).trans known.symm⟩
  · exact fun clear type bare => namesOwn_of_bare clear extra bare
  · intro checked made type member state asked decl declared file kind
    obtain ⟨protocol, extra, described, numbered, same⟩ := made
    rw [same] at declared ⊢
    exact numbered.asked?_of_written described extra member asked declared kind

/-- A type of the host that asks for a channel in a state that no channel has. -/
def strangeType : TypeRef :=
  ⟨⟨7⟩, ⟨[], "PChannel"⟩, some ⟨⟨8⟩, "Gone", false, hostLine 4⟩, false, false, none, none,
    hostLine 4⟩

def strangeProtocol : Protocol :=
  { hostProtocol with
    messages := [⟨⟨5⟩, "Attach", .async, .outbound, [⟨⟨6⟩, "channel", strangeType, hostLine 4⟩], [],
      hostLine 4⟩] }

def strangeHost : SourceUnit :=
  { hostUnit with protocol := some strangeProtocol }

/-- The channel whose types ask for its own states, and the host that asks for a strange one. -/
def strangeMap : OrderedMap String Checked where
  entries := [("PChannel.ipdl", askingChannel.checked (channelProtocol "PHost") []),
    ("PHost.ipdl", strangeHost.checked strangeProtocol [])]
  distinct := by decide

def strangeProgram : Program where
  units := [
    ⟨"PChannel.ipdl", channelProtocol "PHost", askingChannel.checked (channelProtocol "PHost") []⟩,
    ⟨"PHost.ipdl", strangeProtocol, strangeHost.checked strangeProtocol []⟩]

theorem strangeProgram_finds_channel : strangeProgram.unitOfProtocol? "PChannel" =
    some ⟨"PChannel.ipdl", channelProtocol "PHost",
      askingChannel.checked (channelProtocol "PHost") []⟩ := by
  rw [Program.unitOfProtocol?, strangeProgram, List.reverse_cons, List.reverse_singleton]
  rfl

/-- The state is reported where the channel asks for it and where the host does. -/
theorem gone_reported_alike :
    askingChannel.protocol = some (channelProtocol "PHost") ∧
      (channelProtocol "PHost").machine.containsState "Gone" = false ∧
      ∃ reported program errors, askingChannel.resolve [] = .ok reported ∧
        Program.ofMap strangeMap = .ok program ∧ checkProgram strangeMap = .ok errors ∧
        askingChannel.AsksOwn (channelProtocol "PHost") []
          (askingType 28 ⟨["net"], "PChannel"⟩ "Gone") "Gone" ∧
        program.AsksOf (channelProtocol "PHost") strangeType "Gone" ∧
        ⟨.unknownState "net::PChannel" "Gone", channelLine 14⟩ ∈ reported.errors ∧
        ⟨.unknownActorState "PChannel" "Gone", hostLine 4⟩ ∈ errors := by
  have described : askingChannel.protocol = some (channelProtocol "PHost") := rfl
  have missing : (channelProtocol "PHost").machine.containsState "Gone" = false := by decide
  have numbered : strangeHost.Numbered ∧ askingChannel.Numbered := by
    refine ⟨⟨?_, ?_⟩, ⟨?_, ?_⟩⟩ <;> decide +kernel
  have made : ∀ entry ∈ strangeMap.entries, entry.2.Made := by
    intro entry member
    simp only [strangeMap, List.mem_cons, List.not_mem_nil, or_false] at member
    rcases member with rfl | rfl
    · exact ⟨_, [], described, numbered.2, rfl⟩
    · exact ⟨_, [], rfl, numbered.1, rfl⟩
  obtain ⟨errors, ok⟩ := checkProgram_ok made
  obtain ⟨reported, resolves, own, foreign, _, written⟩ := asked_states_agree described []
  have whole : Program.ofMap strangeMap = .ok strangeProgram := rfl
  have asksOwn : askingChannel.AsksOwn (channelProtocol "PHost") []
      (askingType 28 ⟨["net"], "PChannel"⟩ "Gone") "Gone" := by
    refine ⟨by decide +kernel, ?_, _, rfl, rfl⟩
    unfold NamesOwn
    decide +kernel
  have asked : (strangeHost.checked strangeProtocol []).asked? strangeType =
      some ("PChannel", "Gone") := by decide +kernel
  have asksOf : strangeProgram.AsksOf (channelProtocol "PHost") strangeType "Gone" :=
    ⟨⟨_, List.mem_cons_of_mem _ List.mem_cons_self, List.mem_cons_self, asked⟩,
      _, strangeProgram_finds_channel, rfl⟩
  have unaccepted : ¬ (channelProtocol "PHost").machine.containsState "Gone" = true :=
    Bool.eq_false_iff.mp missing
  have ownReported := (not_congr (own _ _ asksOwn)).mpr unaccepted
  have foreignReported :=
    (not_congr (foreign strangeMap strangeProgram errors whole ok _ _ asksOf).1).mpr unaccepted
  exact ⟨described, missing, reported, _, errors, resolves, whole, ok, asksOwn, asksOf,
    not_not.mp ownReported, not_not.mp foreignReported⟩

end SourceUnit

end ActorProtocol

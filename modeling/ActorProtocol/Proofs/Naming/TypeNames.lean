import ActorProtocol.Proofs.Naming.Protocols
import Mathlib.Data.List.Nodup

/-!
# Repeated type names

Of two types with one full name the later is reported, unless it is a protocol that
overlays the earlier. A protocol overlays every type that is no protocol, and an
included protocol also that of the unit when its name is spelled like the full name of
the latter, which is known as a protocol by its bare name. So a unit without errors has
distinct type names exactly if its protocols keep apart from the other types and from
each other.

Binders are taken in any order in which the protocol of the unit comes before the
protocols that are included.
-/

namespace ActorProtocol

set_option autoImplicit false

namespace DeclTable

def types (table : DeclTable) : List Decl :=
  table.decls.filter fun decl => decl.kind.isType

def typeNames (table : DeclTable) : List String :=
  table.types.map Decl.fullName

theorem mem_types_iff {table : DeclTable} {decl : Decl} :
    decl ∈ table.types ↔ decl ∈ table.decls ∧ decl.kind.isType = true :=
  List.mem_filter

/-- The full names of the types that are no protocols. -/
def plainTypeNames (table : DeclTable) : List String :=
  (table.types.filter fun decl => !decl.kind.isProtocol).map Decl.fullName

end DeclTable

/-- A protocol may take the name of an earlier type without being reported. -/
inductive Decl.Overlays (later earlier : Decl) : Prop
  | plain (protocol : later.kind.isProtocol = true) (other : earlier.kind.isProtocol = false)
  | respelled {file : String} (included : later.kind = .includedProtocol file)
      (spelled : earlier.name ≠ earlier.fullName)

/-- Of two types with one full name the later is reported, or overlays the earlier. -/
def Decl.Judged (errors : List (Located NamingError)) (earlier later : Decl) : Prop :=
  earlier.kind.isType = true → later.kind.isType = true → earlier.fullName = later.fullName →
    ⟨.duplicateDecl later.fullName, later.loc⟩ ∈ errors ∨ later.Overlays earlier

theorem Decl.Judged.mono {errors more : List (Located NamingError)} {earlier later : Decl}
    (judged : earlier.Judged errors later) (subset : errors ⊆ more) :
    earlier.Judged more later := by
  intro isType laterType same
  rcases judged isType laterType same with reported | overlays
  · exact Or.inl (subset reported)
  · exact Or.inr overlays

namespace Binder

/-- No protocol comes before the protocol of the unit. -/
def OwnFirst (binders : List Binder) : Prop :=
  binders.Pairwise fun earlier later =>
    ∀ protocol, later = .ownProtocol protocol → earlier.protocolName? = none

end Binder

namespace Bindings

variable {home : Home} {bindings : Bindings} {binder : Binder} {binders : List Binder}

theorem errors_subset_bind (home : Home) (bindings : Bindings) (binder : Binder) :
    bindings.errors ⊆ (bindings.bind home binder).errors := by
  rcases errors_bind home bindings binder with same | ⟨name, loc, _, grown⟩
  · rw [same]
    exact List.Subset.refl _
  · rw [grown]
    exact List.subset_append_left _ _

/-- Where a declaration is added, it is judged against every earlier one. -/
theorem judged_next (kept : bindings.Kept binders)
    (known : ∀ decl ∈ bindings.table.decls, decl.kind.isProtocol = true →
      bindings.names.protocols.contains decl.name = true)
    (first : ∀ protocol, binder = .ownProtocol protocol →
      ∀ decl ∈ bindings.table.decls, decl.kind.isProtocol = false)
    (grown : (bindings.bind home binder).table.decls =
      bindings.table.decls ++ [bindings.next home binder])
    {earlier : Decl} (member : earlier ∈ bindings.table.decls) :
    earlier.Judged (bindings.bind home binder).errors (bindings.next home binder) := by
  intro isType laterType same
  have taken : bindings.names.types.contains (bindings.next home binder).fullName = true := by
    rcases (DeclTable.mem_decls_iff _ _).mp member with ⟨id, found⟩
    rw [← same]
    exact kept.types id earlier found isType
  have outcome := bind_cases home bindings binder
  generalize bindings.bind home binder = after at outcome grown ⊢
  cases outcome with
  | sentinel | message | messageAgain | sourceState | sourceStateAgain => cases laterType
  | builtinType absent | usingType absent | typeDecl absent =>
      exact nomatch absent.symm.trans taken
  | builtinTypeAgain | usingTypeAgain =>
      exact absurd (List.self_eq_append_right.mp grown) (List.cons_ne_nil _ _)
  | typeDeclAgain | includedAgain =>
      left
      exact List.mem_append_right _ List.mem_cons_self
  | @ownProtocol protocol =>
      right
      exact .plain rfl (first protocol rfl earlier member)
  | included absent =>
      right
      cases protocol : earlier.kind.isProtocol with
      | false => exact .plain rfl protocol
      | true =>
          apply Decl.Overlays.respelled rfl
          -- a protocol that is spelled like its full name would be known by that name
          intro spelled
          have named := known earlier member protocol
          rw [spelled, same] at named
          exact nomatch absent.symm.trans named

theorem judged_ofBinders (home : Home) (first : Binder.OwnFirst binders) :
    (ofBinders home binders).table.decls.Pairwise
      (Decl.Judged (ofBinders home binders).errors) := by
  induction binders using List.reverseRecOn with
  | nil => exact List.Pairwise.nil
  | append_singleton binders binder ih =>
      rw [Binder.OwnFirst, List.pairwise_append] at first
      rcases first with ⟨earlierFirst, _, lastFirst⟩
      rw [ofBinders_concat]
      have old : (ofBinders home binders).table.decls.Pairwise
          (Decl.Judged ((ofBinders home binders).bind home binder).errors) := by
        apply (ih earlierFirst).imp
        intro earlier later judged
        exact judged.mono (errors_subset_bind home _ binder)
      rcases decls_bind home (ofBinders home binders) binder with same | grown
      · rw [same]
        exact old
      · have plain : ∀ protocol, binder = .ownProtocol protocol →
            ∀ decl ∈ (ofBinders home binders).table.decls, decl.kind.isProtocol = false := by
          intro protocol own decl member
          rcases exists_binder_of_mem member with ⟨other, bound, id, rfl⟩
          have none := lastFirst other bound binder List.mem_cons_self protocol own
          rw [home.protocolName?_declared id other] at none
          simpa using none
        rw [grown, List.pairwise_append]
        refine ⟨old, List.pairwise_singleton _ _, ?_⟩
        intro earlier member later last
        obtain rfl := List.mem_singleton.mp last
        exact judged_next (kept_ofBinders home binders) (fun _ => known_of_isProtocol) plain
          grown member

end Bindings

theorem Resolution.Continues.types_eq {bindings : Bindings} {resolution : Resolution}
    (continues : resolution.Continues bindings) :
    resolution.table.types = bindings.table.types := by
  have longer : bindings.table.decls <+: resolution.table.decls := by
    rw [List.prefix_iff_getElem?]
    intro position below
    exact continues.grows ⟨position⟩ _ (List.getElem?_eq_getElem below)
  rcases longer with ⟨members, grown⟩
  unfold DeclTable.types
  rw [← grown, List.filter_append]
  -- what follows the bound declarations are members, which are no types
  have none : members.filter (fun decl => decl.kind.isType) = [] := by
    rw [List.filter_eq_nil_iff]
    intro decl member isType
    rcases List.mem_iff_getElem?.mp member with ⟨offset, found⟩
    have known : resolution.table.decl? ⟨bindings.table.decls.length + offset⟩ = some decl := by
      unfold DeclTable.decl?
      rw [← grown, List.getElem?_append_right (Nat.le_add_right _ _), Nat.add_sub_cancel_left]
      exact found
    have bound := continues.bound _ decl known (DeclKind.isMember_of_isType isType)
    have missing : bindings.table.decl? ⟨bindings.table.decls.length + offset⟩ = none :=
      List.getElem?_eq_none (Nat.le_add_right _ _)
    rw [missing] at bound
    cases bound
  rw [none, List.append_nil]

namespace SourceUnit

variable {unit : SourceUnit} {protocol : Protocol} {extra : List String}

/-- The full names of the protocols keep apart from those of other types and each other. -/
structure ProtocolsApart (unit : SourceUnit) (protocol : Protocol) (table : DeclTable) :
    Prop where
  own : protocol.qualifiedName.text ∉ table.plainTypeNames
  included : ∀ included ∈ unit.includes, included.protocol ∉ table.plainTypeNames
  spelled : ∀ included ∈ unit.includes, included.protocol ≠ protocol.qualifiedName.text

theorem ownFirst_binders (unit : SourceUnit) (protocol : Protocol) (extra : List String) :
    Binder.OwnFirst (unit.binders protocol extra) := by
  unfold Binder.OwnFirst
  rw [binders_eq, List.pairwise_append]
  refine ⟨?_, ?_, ?_⟩
  · apply List.pairwise_of_forall_mem_list
    intro earlier bound _ _ _ _
    exact protocolName?_of_plain bound
  · rw [List.pairwise_cons]
    constructor
    · intro binder bound other own
      exact absurd own (ne_ownProtocol_of_later bound other)
    · apply List.pairwise_of_forall_mem_list
      intro _ _ binder bound other own
      exact absurd own (ne_ownProtocol_of_later bound other)
  · intro earlier bound _ _ _ _
    exact protocolName?_of_plain bound

theorem decl?_of_mem_types {table : DeclTable} {decl : Decl} (member : decl ∈ table.types) :
    ∃ id, table.decl? id = some decl :=
  (DeclTable.mem_decls_iff table decl).mp (DeclTable.mem_types_iff.mp member).1

theorem declared_mem_types {binder : Binder} (bound : binder ∈ unit.binders protocol extra)
    (declares : binder.declares = true)
    (isType : ∀ id, ((Home.ofProtocol protocol).declared id binder).kind.isType = true) :
    ∃ id, (Home.ofProtocol protocol).declared id binder ∈
      (unit.resolution protocol extra).table.types := by
  rcases Bindings.declared_mem (Home.ofProtocol protocol) bound declares with ⟨id, member⟩
  rw [(unit.continues_resolution protocol extra).types_eq, bindings]
  exact ⟨id, DeclTable.mem_types_iff.mpr ⟨member, isType id⟩⟩

theorem types_judged (unit : SourceUnit) (protocol : Protocol) (extra : List String) :
    (unit.resolution protocol extra).table.types.Pairwise fun earlier later =>
      earlier.fullName = later.fullName →
        ⟨.duplicateDecl later.fullName, later.loc⟩ ∈ (unit.resolution protocol extra).errors ∨
          later.Overlays earlier := by
  have judged : (unit.bindings protocol extra).table.types.Pairwise
      (Decl.Judged (unit.bindings protocol extra).errors) := by
    rw [bindings]
    exact (Bindings.judged_ofBinders _ (unit.ownFirst_binders protocol extra)).filter _
  rw [(unit.continues_resolution protocol extra).types_eq, errors_resolution]
  apply judged.imp_of_mem
  intro earlier later earlierMember laterMember judged
  exact judged.mono (List.subset_append_left _ _) (DeclTable.mem_types_iff.mp earlierMember).2
    (DeclTable.mem_types_iff.mp laterMember).2

/-- Types that stand apart from a protocol have other names than it. -/
theorem plain_ne_protocol {table : DeclTable} (distinct : table.typeNames.Nodup)
    {decl : Decl} (member : decl ∈ table.types) (protocol : decl.kind.isProtocol = true) :
    decl.fullName ∉ table.plainTypeNames := by
  intro plain
  rcases List.mem_map.mp plain with ⟨other, found, same⟩
  rcases List.mem_filter.mp found with ⟨inside, kind⟩
  have equal : other = decl := List.inj_on_of_nodup_map distinct inside member same
  rw [equal, protocol] at kind
  cases kind

theorem apart_of_distinct (distinct : (unit.resolution protocol extra).table.typeNames.Nodup) :
    unit.ProtocolsApart protocol (unit.resolution protocol extra).table := by
  have bound : .ownProtocol protocol ∈ unit.binders protocol extra :=
    ownProtocol_mem_binders.mpr rfl
  rcases declared_mem_types bound rfl (fun _ => rfl) with ⟨ownId, own⟩
  have declared : ∀ included ∈ unit.includes, ∃ id,
      (Home.ofProtocol protocol).declared id (.included included) ∈
        (unit.resolution protocol extra).table.types := fun included member =>
    declared_mem_types (included_mem_binders.mpr member) rfl (fun _ => rfl)
  refine ⟨plain_ne_protocol distinct own rfl, ?_, ?_⟩
  · intro included member
    rcases declared included member with ⟨id, known⟩
    exact plain_ne_protocol distinct known rfl
  · intro included member same
    rcases declared included member with ⟨id, known⟩
    have equal := List.inj_on_of_nodup_map distinct known own same
    have kinds := congrArg Decl.kind equal
    cases kinds

theorem distinct_of_apart (silent : (unit.resolution protocol extra).errors = [])
    (apart : unit.ProtocolsApart protocol (unit.resolution protocol extra).table) :
    (unit.resolution protocol extra).table.typeNames.Nodup := by
  have name_of_protocol : ∀ decl ∈ (unit.resolution protocol extra).table.types,
      decl.kind.isProtocol = true →
        decl.fullName ∉ (unit.resolution protocol extra).table.plainTypeNames := by
    intro decl member isProtocol
    cases kind : decl.kind with
    | protocol semantics =>
        rcases decl?_of_mem_types member with ⟨id, known⟩
        rw [fullName_of_protocol known kind]
        exact apart.own
    | includedProtocol file =>
        rcases decl?_of_mem_types member with ⟨id, known⟩
        rcases exists_include_of_decl? known kind with ⟨included, inside, _, _, named⟩
        rw [named]
        exact apart.included included inside
    | _ =>
        rw [kind] at isProtocol
        cases isProtocol
  unfold DeclTable.typeNames List.Nodup
  rw [List.pairwise_map]
  apply (unit.types_judged protocol extra).imp_of_mem
  intro earlier later earlierMember laterMember judged same
  rcases judged same with reported | overlays
  · rw [silent] at reported
    cases reported
  · cases overlays with
    | plain protocol other =>
        apply name_of_protocol later laterMember protocol
        exact List.mem_map.mpr
          ⟨earlier, List.mem_filter.mpr ⟨earlierMember, by simp [other]⟩, same⟩
    | respelled included spelled =>
        rcases decl?_of_mem_types laterMember with ⟨laterId, laterKnown⟩
        rcases decl?_of_mem_types earlierMember with ⟨earlierId, earlierKnown⟩
        rcases exists_include_of_decl? laterKnown included with ⟨inside, member, _, _, named⟩
        cases kind : earlier.kind with
        | protocol semantics =>
            apply apart.spelled inside member
            rw [← named, ← same]
            exact fullName_of_protocol earlierKnown kind
        | includedProtocol file =>
            rcases exists_include_of_decl? earlierKnown kind with ⟨_, _, _, name, full⟩
            exact spelled (name.trans full.symm)
        | _ =>
            apply apart.included inside member
            rw [← named, ← same]
            exact List.mem_map.mpr
              ⟨earlier, List.mem_filter.mpr ⟨earlierMember, by simp [kind, DeclKind.isProtocol]⟩,
                rfl⟩

theorem resolve_type_names (described : unit.protocol = some protocol) (extra : List String) :
    ∃ reported, unit.resolve extra = .ok reported ∧
      (reported.value.decls.types.Pairwise fun earlier later =>
        earlier.fullName = later.fullName →
          ⟨.duplicateDecl later.fullName, later.loc⟩ ∈ reported.errors ∨
            later.Overlays earlier) ∧
      (reported.errors = [] →
        (reported.value.decls.typeNames.Nodup ↔
          unit.ProtocolsApart protocol reported.value.decls)) := by
  refine ⟨_, resolve_eq_ok described extra, unit.types_judged protocol extra, ?_⟩
  intro silent
  exact ⟨apart_of_distinct, distinct_of_apart silent⟩

/-- The host of the channel is apart from its types, so these have distinct names. -/
theorem channel_names_distinct :
    (channelUnit "Header").protocol = some (channelProtocol "Header") ∧
      ∃ reported, (channelUnit "Header").resolve [] = .ok reported ∧ reported.errors = [] ∧
        reported.value.decls.typeNames.Nodup := by
  have described : (channelUnit "Header").protocol = some (channelProtocol "Header") := rfl
  refine ⟨described, ?_⟩
  rcases resolve_type_names described [] with ⟨reported, resolves, _, distinct_iff⟩
  have named := eq_resolved_of_resolve described resolves
  have silent : reported.errors = [] := by
    rw [named]
    decide +kernel
  refine ⟨reported, resolves, silent, (distinct_iff silent).mpr ?_⟩
  rw [named]
  constructor <;> decide +kernel

/-- A structure in the global scope, with a protocol of the same name. -/
def sessionUnit : SourceUnit :=
  let line := Location.mk "PSession.ipdl"
  { SourceUnit.ofFile ⟨1⟩ "PSession.ipdl" with
    types := [⟨⟨2⟩, "PSession", [], .struct [], line 1⟩]
    protocol := some ⟨⟨3⟩, "PSession", [], .async, [], [], [], [], [], [], line 2⟩ }

/-- The protocol overlays the structure, and nothing is reported. -/
theorem session_name_repeated :
    ∃ reported, sessionUnit.resolve [] = .ok reported ∧ reported.errors = [] ∧
      ∃ first ∈ reported.value.decls.types, ∃ second ∈ reported.value.decls.types,
        first.id ≠ second.id ∧ first.kind = .struct ∧ second.kind = .protocol .async ∧
          first.fullName = second.fullName := by
  refine ⟨_, resolve_eq_ok rfl [], by decide +kernel, ?_⟩
  decide +kernel

end SourceUnit

end ActorProtocol

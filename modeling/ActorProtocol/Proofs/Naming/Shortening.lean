import ActorProtocol.Proofs.Naming.RoundTrip
import ActorProtocol.Proofs.Naming.StateLinks

/-!
# What shortening strips

A short name is what is left of a full name behind the longest part of the context that its
qualifiers begin with. Nothing else is lost, so the full name can be put together again, and
the base name is always left. Where names hold no colon, what a protocol declares begins
with the whole context: messages and states are shortened to their bare names, and a
parameter to its name behind that of its message.
-/

namespace ActorProtocol

set_option autoImplicit false

namespace QualifiedName

theorem sharedLength_le (qualifiers context : List String) :
    sharedLength qualifiers context ≤ qualifiers.length := by
  induction qualifiers generalizing context with
  | nil => cases context <;> exact Nat.le_refl _
  | cons qualifier rest ih =>
      cases context with
      | nil => exact Nat.zero_le _
      | cons outer context =>
          unfold sharedLength
          split
          · exact Nat.succ_le_succ (ih context)
          · exact Nat.zero_le _

/-- No longer part of the context is shared. -/
theorem le_sharedLength {qualifiers context : List String} {depth : Nat}
    (bound : depth ≤ qualifiers.length) (agree : qualifiers.take depth = context.take depth) :
    depth ≤ sharedLength qualifiers context := by
  induction qualifiers generalizing context depth with
  | nil =>
      rw [List.length_nil, Nat.le_zero] at bound
      rw [bound]
      exact Nat.zero_le _
  | cons qualifier rest ih =>
      cases depth with
      | zero => exact Nat.zero_le _
      | succ depth =>
          cases context with
          | nil => cases agree
          | cons outer context =>
              rw [List.take_succ_cons, List.take_succ_cons] at agree
              obtain ⟨same, later⟩ := List.cons.inj agree
              unfold sharedLength
              rw [if_pos same]
              exact Nat.succ_le_succ (ih (Nat.le_of_succ_le_succ bound) later)

theorem sharedLength_append (context inner : List String) :
    sharedLength (context ++ inner) context = context.length := by
  induction context with
  | nil => cases inner <;> rfl
  | cons outer context ih =>
      rw [List.cons_append, sharedLength, if_pos rfl, ih, List.length_cons]

theorem take_segments {name : QualifiedName} {depth : Nat}
    (bound : depth ≤ name.qualifiers.length) :
    name.segments.take depth = name.qualifiers.take depth :=
  List.take_append_of_le_length bound

/-- What a short name is: the full name without the longest part of the context that it
begins with before its base. -/
structure Stripped (fullName : String) (context : List String) (depth : Nat) : Prop where
  whole : join (context.take depth) (shortName fullName context) = fullName
  bounded : depth ≤ (parse fullName).qualifiers.length
  agrees : (parse fullName).segments.take depth = context.take depth
  greatest : ∀ other ≤ (parse fullName).qualifiers.length,
    (parse fullName).segments.take other = context.take other → other ≤ depth
  based : shortName fullName context =
    join ((parse fullName).qualifiers.drop depth) (parse fullName).base

theorem stripped_shortName (fullName : String) (context : List String) :
    Stripped fullName context (sharedLength (parse fullName).qualifiers context) where
  whole := join_shortName fullName context
  bounded := sharedLength_le _ _
  agrees := (take_segments (sharedLength_le _ _)).trans (take_sharedLength _ _).symm
  greatest := by
    intro other bound agree
    rw [take_segments bound] at agree
    exact le_sharedLength bound agree
  based := rfl

/-! ## Names without colons -/

def ColonFree (segment : String) : Prop :=
  ':' ∉ segment.toList

theorem ColonFree.whole {segment : String} (plain : ColonFree segment) :
    ¬ [':', ':'] <:+: segment.toList := by
  intro inside
  exact plain (inside.subset List.mem_cons_self)

theorem ColonFree.closed {segment : String} (plain : ColonFree segment) :
    ¬ [':'] <:+ segment.toList := by
  intro last
  exact plain (last.subset List.mem_cons_self)

theorem parse_join_of_colonFree {qualifiers : List String} {base : String}
    (plain : ∀ segment ∈ qualifiers, ColonFree segment) (plainBase : ColonFree base) :
    parse (join qualifiers base) = ⟨qualifiers, base⟩ := by
  apply parse_join
  · intro segment member
    rcases List.mem_append.mp member with qualifier | last
    · exact (plain segment qualifier).whole
    · rw [List.mem_singleton.mp last]
      exact plainBase.whole
  · exact fun qualifier member => (plain qualifier member).closed

/-- A name that begins with the whole context loses it. -/
theorem shortName_join {context : List String} (inner : List String) {base : String}
    (plain : ∀ segment ∈ context ++ inner, ColonFree segment) (plainBase : ColonFree base) :
    shortName (join (context ++ inner) base) context = join inner base := by
  unfold shortName
  rw [parse_join_of_colonFree plain plainBase]
  dsimp only
  rw [sharedLength_append, List.drop_left]

theorem shortName_unqualified {name : String} (plain : ColonFree name) (context : List String) :
    shortName name context = name := by
  unfold shortName
  rw [parse_unqualified plain.whole]
  rfl

end QualifiedName

/-- No name that is part of the full name of a message, a parameter or a state holds a colon. -/
structure Protocol.ColonFree (protocol : Protocol) : Prop where
  context : ∀ outer ∈ (Home.ofProtocol protocol).context, QualifiedName.ColonFree outer
  messages : ∀ message ∈ protocol.messages, QualifiedName.ColonFree message.name
  params : ∀ message ∈ protocol.messages, ∀ param ∈ message.params,
    QualifiedName.ColonFree param.name
  states : ∀ statement ∈ protocol.statements, QualifiedName.ColonFree statement.state.name

theorem Home.shortName_qualify {home : Home} {name : String}
    (plain : ∀ outer ∈ home.context, QualifiedName.ColonFree outer)
    (plainName : QualifiedName.ColonFree name) :
    QualifiedName.shortName (home.qualify name) home.context = name := by
  have short := QualifiedName.shortName_join [] (by simpa using plain) plainName
  rw [List.append_nil] at short
  exact short

/-- A member that is named behind a declaration of the protocol keeps that name. -/
theorem Home.shortName_member {home : Home} {owner name : String}
    (plain : ∀ outer ∈ home.context, QualifiedName.ColonFree outer)
    (plainOwner : QualifiedName.ColonFree owner) (plainName : QualifiedName.ColonFree name) :
    QualifiedName.shortName (home.qualify owner ++ "::" ++ name) home.context =
      owner ++ "::" ++ name := by
  have full : home.qualify owner ++ "::" ++ name =
      QualifiedName.join (home.context ++ [owner]) name :=
    (QualifiedName.text_qualify ⟨home.context, owner⟩ name).symm
  rw [full]
  apply QualifiedName.shortName_join [owner] _ plainName
  intro outer member
  rcases List.mem_append.mp member with inside | last
  · exact plain outer inside
  · rw [List.mem_singleton.mp last]
    exact plainOwner

/-- Whatever declares a state, its short name is the name of the state. -/
theorem Protocol.StateBinder.shortName_declared {protocol : Protocol} {name : String}
    {binder : Binder} (declares : protocol.StateBinder name binder)
    (plain : ∀ outer ∈ (Home.ofProtocol protocol).context, QualifiedName.ColonFree outer)
    (plainName : QualifiedName.ColonFree name) (id : DeclId) :
    ((Home.ofProtocol protocol).declared id binder).shortName = name := by
  rw [Home.shortName_declared]
  cases declares with
  | @sentinel state which named =>
      rw [← named] at plainName ⊢
      exact QualifiedName.shortName_unqualified plainName _
  | @source first ordinary found =>
      have named : first.state.name = name := by simpa using List.find?_some found
      rw [← named] at plainName ⊢
      exact Home.shortName_qualify plain plainName

namespace SourceUnit

variable {unit : SourceUnit} {protocol : Protocol} {extra : List String}

/-- The short names of what a protocol declares. -/
structure ShortlyNamed (protocol : Protocol) (table : DeclTable) : Prop where
  messages : ∀ message ∈ protocol.messages, ∃ decl,
    table.declOf? message.id = some decl ∧ decl.shortName = message.name
  states : ∀ statement ∈ protocol.statements, statement.state.isSynthesized = false → ∃ decl,
    table.declOf? statement.state.id = some decl ∧ decl.shortName = statement.state.name
  params : ∀ message ∈ protocol.messages, ∀ param ∈ message.params, ∀ type,
    table.declOf? param.type.id = some type → ∃ decl,
      table.declOf? param.id = some decl ∧
        decl.shortName = message.name ++ "::" ++ param.name

theorem Numbered.exists_state_decl (numbered : unit.Numbered)
    (described : unit.protocol = some protocol) (extra : List String) {statement : Statement}
    (member : statement ∈ protocol.statements) (own : statement.state.isSynthesized = false) :
    ∃ decl binder, protocol.StateBinder statement.state.name binder ∧
      decl = (Home.ofProtocol protocol).declared decl.id binder ∧
      (unit.resolved protocol extra).decls.declOf? statement.state.id = some decl := by
  have hasState : protocol.HasState statement.state.name := Or.inr (Or.inr ⟨statement, member, rfl⟩)
  obtain ⟨decl, binder, declares, made, found, there⟩ := exists_stateDecl hasState unit extra
  refine ⟨decl, binder, declares, made, ?_⟩
  apply (unit.continues_resolution protocol extra).sound.declOf?_eq_some_iff.mpr
  exact ⟨(numbered.linkOf?_source described extra member own).trans found, there⟩

theorem Numbered.shortlyNamed (numbered : unit.Numbered)
    (described : unit.protocol = some protocol) (plain : protocol.ColonFree)
    (extra : List String) : ShortlyNamed protocol (unit.resolved protocol extra).decls := by
  have own := numbered.ownDecls described extra
  constructor
  · intro message member
    obtain ⟨id, declared⟩ := own.messages message member
    refine ⟨_, declared, ?_⟩
    rw [Home.shortName_declared]
    exact Home.shortName_qualify plain.context (plain.messages message member)
  · intro statement member written
    obtain ⟨decl, binder, declares, made, declared⟩ :=
      numbered.exists_state_decl described extra member written
    refine ⟨decl, declared, ?_⟩
    rw [made]
    exact declares.shortName_declared plain.context (plain.states statement member) decl.id
  · intro message member param inside type typed
    obtain ⟨place, id, owner, declared⟩ := own.params message member param inside type typed
    obtain ⟨_, again⟩ := own.messages message member
    cases owner.symm.trans again
    refine ⟨_, declared, ?_⟩
    dsimp only [Home.decl]
    exact Home.shortName_member plain.context (plain.messages message member)
      (plain.params message member param inside)

/-- Shortening strips a longest shared prefix and nothing more, whatever the names are. In a
numbered unit without colons in its names, it leaves of what the protocol declares only the
part inside the protocol. -/
theorem short_names_strip_context :
    (∀ (fullName : String) (context : List String),
      ∃ depth, QualifiedName.Stripped fullName context depth) ∧
    ∀ {unit : SourceUnit} {protocol : Protocol}, unit.Numbered →
      unit.protocol = some protocol → protocol.ColonFree → ∀ extra : List String,
        ∃ reported, unit.resolve extra = .ok reported ∧
          ShortlyNamed protocol reported.value.decls := by
  refine ⟨fun fullName context => ⟨_, QualifiedName.stripped_shortName fullName context⟩, ?_⟩
  intro unit protocol numbered described plain extra
  exact ⟨_, resolve_eq_ok described extra, numbered.shortlyNamed described plain extra⟩

/-- The parameter of a channel in a namespace, behind the name of its message. -/
theorem channel_value_shortened :
    (channelUnit "Blob").Numbered ∧
      (channelUnit "Blob").protocol = some (channelProtocol "Blob") ∧
      (channelProtocol "Blob").ColonFree ∧
      ∃ reported, (channelUnit "Blob").resolve [] = .ok reported ∧
        ShortlyNamed (channelProtocol "Blob") reported.value.decls ∧
        (reported.value.decls.declOf? ⟨14⟩).map (fun decl => (decl.fullName, decl.shortName)) =
          some ("net::PChannel::Open::value", "Open::value") := by
  have numbered := channelUnit_numbered "Blob"
  have described : (channelUnit "Blob").protocol = some (channelProtocol "Blob") := rfl
  have plain : (channelProtocol "Blob").ColonFree := by
    constructor <;> unfold QualifiedName.ColonFree <;> decide +kernel
  obtain ⟨reported, resolves, named⟩ :=
    short_names_strip_context.2 numbered described plain []
  refine ⟨numbered, described, plain, reported, resolves, named, ?_⟩
  rw [eq_resolved_of_resolve described resolves]
  decide +kernel

end SourceUnit

end ActorProtocol

import ActorProtocol.Proofs.Source.Numbering
import ActorProtocol.Proofs.Source.ProtocolLegibility

/-!
# Texts that can be read back

Units with one text have one outline, as long as their names are names: no two outlines
are written alike. What a text does not tell is what an outline leaves out, such as ids,
locations, transitions without a trigger or a message, and how a spelling was cut into
segments.
-/

namespace ActorProtocol

set_option autoImplicit false

theorem opening_readable :
    Readable opening (fun scopes => ∀ scope ∈ scopes, True) (fun word => word ≠ "namespace") := by
  have scope_readable : Readable (fun scope => ["namespace", scope, openBrace]) (fun _ => True)
      (fun _ => True) := by
    constructor
    intro left right rest later _ _ _ _ same
    simpa using same
  apply scope_readable.list
  · intro scope _
    simp
  · intro word _
    trivial

/-- The sections of a unit. -/
inductive PartKind where
  | header
  | included
  | type
  | brought
  | protocol
  deriving DecidableEq

/-- The kind of part that begins with the words. -/
def PartKind.ofWords (list : List String) : PartKind :=
  match list.head? with
  | some "include" => if list[1]? = some "protocol" then included else header
  | some "struct" | some "union" => type
  | some "using" => brought
  | _ => protocol

namespace PartOutline

def kind : PartOutline → PartKind
  | header _ => .header
  | included _ => .included
  | type _ => .type
  | brought _ => .brought
  | protocol _ => .protocol

theorem ofWords_coreWording (part : PartOutline) (rest : List String) :
    PartKind.ofWords (part.coreWording ++ rest) = part.kind := by
  cases part with
  | header file =>
      have quoted : "\"" ++ file ++ "\";" ≠ "protocol" := by
        intro same
        have letters := congrArg String.toList same
        simp at letters
      simp [PartKind.ofWords, coreWording, kind, quoted]
  | included name => simp [PartKind.ofWords, coreWording, kind]
  | type decl =>
      cases written : decl.body <;>
        simp [PartKind.ofWords, coreWording, kind, written, BodyOutline.wording]
  | brought spelled => simp [PartKind.ofWords, coreWording, kind]
  | protocol described =>
      cases written : described.semantics <;>
        simp [PartKind.ofWords, coreWording, kind, written, ProtocolOutline.wording,
          ProtocolOutline.semanticsWording, Semantics.name]

theorem opens_coreWording (part : PartOutline) :
    Opens (fun word => word ≠ "namespace") part.coreWording := by
  cases part with
  | header file => simp [coreWording]
  | included name => simp [coreWording]
  | type decl => cases written : decl.body <;> simp [coreWording, BodyOutline.wording, written]
  | brought spelled => simp [coreWording]
  | protocol described =>
      cases written : described.semantics <;>
        simp [coreWording, written, ProtocolOutline.wording, ProtocolOutline.semanticsWording,
          Semantics.name]

/-- The words of a part tell what it is, once its namespaces are known. -/
theorem coreWording_readable (scopes : List String) :
    Readable coreWording (fun part => part.WellNamed ∧ part.namespaces = scopes)
      (fun _ => True) where
  read := by
    intro left right rest later fits fits' _ _ same
    have kinds : left.kind = right.kind := by
      rw [← ofWords_coreWording left rest, same, ofWords_coreWording]
    cases left with
    | header file =>
        cases right with
        | header file' =>
            simp only [coreWording, List.cons_append, List.nil_append, List.cons.injEq,
              String.append_left_inj, String.append_right_inj, true_and] at same
            exact ⟨congrArg header same.1, same.2⟩
        | _ => simp [kind] at kinds
    | included name =>
        cases right with
        | included name' =>
            simp only [coreWording, List.cons_append, List.nil_append, List.cons.injEq,
              true_and] at same
            exact ⟨congrArg included same.1, same.2⟩
        | _ => simp [kind] at kinds
    | type decl =>
        cases right with
        | type decl' =>
            obtain ⟨name, namespaces, body⟩ := decl
            obtain ⟨name', namespaces', body'⟩ := decl'
            obtain ⟨named, rfl⟩ := fits
            obtain ⟨named', alike⟩ := fits'
            have scopes : namespaces' = namespaces := alike
            have parts : name = name' ∧ body = body' ∧ rest = later :=
              BodyOutline.read named.body named'.body same
            rw [scopes, parts.1, parts.2.1]
            exact ⟨rfl, parts.2.2⟩
        | _ => simp [kind] at kinds
    | brought spelled =>
        cases right with
        | brought spelled' =>
            have parts := TypeOutline.readable.closed isMark_semicolon
            have read := parts.read fits.1 fits'.1 Begins.any Begins.any (List.cons.inj same).2
            exact ⟨congrArg brought read.1, read.2⟩
        | _ => simp [kind] at kinds
    | protocol described =>
        cases right with
        | protocol described' =>
            have read := (ProtocolOutline.readable scopes).read fits fits' Begins.any Begins.any
              same
            exact ⟨congrArg protocol read.1, read.2⟩
        | _ => simp [kind] at kinds

theorem wording_readable : Readable wording WellNamed (fun _ => True) where
  read := by
    intro left right rest later named named' _ _ same
    unfold wording at same
    simp only [List.append_assoc] at same
    have scopes := opening_readable.read (fun _ _ => trivial) (fun _ _ => trivial)
      left.opens_coreWording.begins_append right.opens_coreWording.begins_append same
    have core := (coreWording_readable right.namespaces).read ⟨named, scopes.1⟩ ⟨named', rfl⟩
      Begins.any Begins.any scopes.2
    obtain ⟨rfl, after⟩ := core
    exact ⟨rfl, List.append_cancel_left after⟩

/-- No part is written as nothing. -/
theorem opens_wording (part : PartOutline) : Opens (fun _ => True) part.wording := by
  unfold wording
  cases written : part.namespaces with
  | nil =>
      obtain ⟨word, later, core, _⟩ := part.opens_coreWording
      simp [opening, core]
  | cons scope scopes => simp [opening]

end PartOutline

namespace UnitOutline

def ofKind (unit : UnitOutline) : PartKind → List PartOutline
  | .header => unit.headers.map .header
  | .included => unit.includes.map .included
  | .type => unit.types.map .type
  | .brought => unit.usings.map .brought
  | .protocol => unit.protocol.toList.map .protocol

theorem filter_parts (unit : UnitOutline) (kind : PartKind) :
    unit.parts.filter (fun part => part.kind = kind) = unit.ofKind kind := by
  cases kind <;> simp [parts, ofKind, List.filter_map, PartOutline.kind, Function.comp_def]

theorem parts_injective : Function.Injective parts := by
  intro left right same
  have alike : ∀ kind, left.ofKind kind = right.ofKind kind := by
    intro kind
    rw [← filter_parts, same, filter_parts]
  have headers := List.map_injective_iff.mpr (fun _ _ => PartOutline.header.inj) (alike .header)
  have includes := List.map_injective_iff.mpr (fun _ _ => PartOutline.included.inj)
    (alike .included)
  have types := List.map_injective_iff.mpr (fun _ _ => PartOutline.type.inj) (alike .type)
  have usings := List.map_injective_iff.mpr (fun _ _ => PartOutline.brought.inj) (alike .brought)
  have protocols := List.map_injective_iff.mpr (fun _ _ => PartOutline.protocol.inj)
    (alike .protocol)
  have protocol : left.protocol = right.protocol := by
    have heads := congrArg List.head? protocols
    simpa using heads
  cases left
  cases right
  simp_all

/-- Units are told apart by the words of their parts. -/
theorem eq_of_words {left right : UnitOutline} (named : left.WellNamed) (named' : right.WellNamed)
    (same : left.parts.flatMap PartOutline.wording = right.parts.flatMap PartOutline.wording) :
    left = right := by
  have parts_readable : Readable (List.flatMap PartOutline.wording)
      (fun parts => ∀ part ∈ parts, part.WellNamed) (fun _ => False) := by
    apply PartOutline.wording_readable.list
    · intro part _
      exact part.opens_wording.mono fun word _ => ⟨trivial, not_false⟩
    · intro word _
      trivial
  apply parts_injective
  exact (parts_readable.read named.parts named'.parts (begins_nil _) (begins_nil _)
    (congrArg (· ++ []) same)).1

end UnitOutline

namespace SourceUnit

/-- Units that are written alike have one outline. -/
theorem outline_eq_of_text_eq {unit other : SourceUnit} (named : unit.outline.WellNamed)
    (named' : other.outline.WellNamed) (same : unit.text = other.text) :
    unit.outline = other.outline := by
  apply UnitOutline.eq_of_words named named'
  rw [← words_text named, same, words_text named']

/-- A channel that brings in a type whose name is cut in one way or another, and that takes
a value of a type named `nullable`. -/
def cutUnit (brought : QualifiedName) : SourceUnit :=
  { channelUnit "nullable" with
    headers := [⟨⟨26⟩, "net/Channel.h", channelLine 1⟩]
    usings := [⟨⟨3⟩, { channelType 4 2 "Blob" with name := brought }, channelLine 2⟩] }

theorem wellNamed_of_name {name type : String} (named : IsName name) (spelled : IsName type) :
    (MemberOutline.mk name ⟨type, none, false, false⟩).WellNamed :=
  ⟨named, ⟨⟨⟨[], type⟩, rfl, List.forall_mem_nil _, spelled⟩, by simp⟩⟩

theorem cutUnit_wellNamed {brought : QualifiedName} (spelled : brought.text = "net::Blob") :
    (cutUnit brought).outline.WellNamed where
  headers := by simp [cutUnit, outline]
  includes := by simp [cutUnit, channelUnit, outline, IsName, layoutLetters]
  types := by
    have raw := wellNamed_of_name (by decide : IsName "raw") (by decide : IsName "Blob")
    have empty : (TypeDeclOutline.mk "Header" [] (.struct [])).WellNamed :=
      ⟨by decide, by decide, List.forall_mem_nil _⟩
    have inner : (TypeDeclOutline.mk "Header" ["net"] (.struct _)).WellNamed :=
      ⟨by decide, by decide, List.forall_mem_singleton.mpr raw⟩
    exact List.forall_mem_cons.mpr ⟨empty, List.forall_mem_singleton.mpr inner⟩
  usings := by
    have blob : (TypeOutline.mk brought.text none false false).WellNamed :=
      ⟨⟨⟨["net"], "Blob"⟩, spelled.symm, by decide, by decide⟩, by simp⟩
    exact List.forall_mem_singleton.mpr blob
  protocol := by
    intro protocol described
    obtain rfl := Option.some.inj described
    have value := wellNamed_of_name (by decide : IsName "value") (by decide : IsName "nullable")
    have host := wellNamed_of_name (by decide : IsName "host") (by decide : IsName "PHost")
    have opened : (MessageOutline.mk "Open" .sync .inbound _ _).WellNamed :=
      ⟨by decide, List.forall_mem_singleton.mpr value, List.forall_mem_singleton.mpr host⟩
    have closed : (MessageOutline.mk "Close" .async .outbound [] []).WellNamed :=
      ⟨by decide, List.forall_mem_nil _, List.forall_mem_nil _⟩
    have answer : (ActionOutline.mk .answer "Open" ["Busy"]).WellNamed := ⟨by decide, by decide⟩
    have send : (ActionOutline.mk .send "Close" ["[dead]"]).WellNamed := ⟨by decide, by decide⟩
    have idle : (StatementOutline.mk "Idle" true _).WellNamed :=
      ⟨by decide, List.forall_mem_singleton.mpr answer⟩
    have busy : (StatementOutline.mk "Busy" false _).WellNamed :=
      ⟨by decide, List.forall_mem_singleton.mpr send⟩
    exact {
      name := by decide
      namespaces := by decide
      spawns := List.forall_mem_nil _
      bridges := List.forall_mem_nil _
      managers := by decide
      manages := List.forall_mem_nil _
      messages := List.forall_mem_cons.mpr ⟨opened, List.forall_mem_singleton.mpr closed⟩
      statements := List.forall_mem_cons.mpr ⟨idle, List.forall_mem_singleton.mpr busy⟩ }

theorem cut_alike :
    (cutUnit ⟨["net"], "Blob"⟩).outline.WellNamed ∧ (cutUnit ⟨[], "net::Blob"⟩).outline.WellNamed ∧
      cutUnit ⟨["net"], "Blob"⟩ ≠ cutUnit ⟨[], "net::Blob"⟩ ∧
      (cutUnit ⟨["net"], "Blob"⟩).text = (cutUnit ⟨[], "net::Blob"⟩).text ∧
      (cutUnit ⟨["net"], "Blob"⟩).outline = (cutUnit ⟨[], "net::Blob"⟩).outline := by
  have named : (cutUnit ⟨["net"], "Blob"⟩).outline.WellNamed := cutUnit_wellNamed rfl
  have named' : (cutUnit ⟨[], "net::Blob"⟩).outline.WellNamed := cutUnit_wellNamed rfl
  have same : (cutUnit ⟨["net"], "Blob"⟩).text = (cutUnit ⟨[], "net::Blob"⟩).text := by
    decide +kernel
  exact ⟨named, named', by decide +kernel, same, outline_eq_of_text_eq named named' same⟩

end SourceUnit

end ActorProtocol

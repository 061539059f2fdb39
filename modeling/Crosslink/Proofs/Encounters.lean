import Crosslink.Proofs.Meetings

/-!
# What becomes of a reference met

The rules for a pass (`Crosslink.Proofs.Yields`) say what may be made of whole
nodes, `Blocks.Met` names the references that the pass comes to, wherever they
stand. The two go together: whatever follows the rules comes to some references,
and each of them is treated by the rules for its name or its path
(`Blocks.Yields.met`). So what a pass makes of all references of one kind is shown
from what it makes of one (`Blocks.Yields.metBy`).
-/

namespace Crosslink

/-- The reference along `path` that shows this. -/
def Appearance.along : Appearance → (path : WrittenPath) →
    (title : Option String) → ReferenceKind
  | .link content, path, title => .linkPath content path title
  | .image alt, path, title => .imagePath alt path title

theorem Appearance.named_inj {shown shown' : Appearance} {id id' : String}
    (h : shown.named id = shown'.named id') : shown = shown' ∧ id = id' := by
  cases shown <;> cases shown' <;> cases h <;> exact ⟨rfl, rfl⟩

theorem Appearance.along_inj {shown shown' : Appearance} {path path' : WrittenPath}
    {title title' : Option String} (h : shown.along path title = shown'.along path' title') :
    shown = shown' ∧ path = path' ∧ title = title' := by
  cases shown <;> cases shown' <;> cases h <;> exact ⟨rfl, rfl, rfl⟩

theorem Appearance.named_ne_along {shown shown' : Appearance} {id : String}
    {path : WrittenPath} {title : Option String} :
    shown.named id ≠ shown'.along path title := by
  cases shown <;> cases shown' <;> nofun

namespace Scope

variable {s : Scope}

/-- A reference met, with its text resolved, is treated by the rules. -/
structure Treats (s : Scope) (turn : Turn) : Prop where
  byId : ∀ (shown : Appearance) (id : String), turn.kind = shown.named id →
    ∃ outcome problems, s.AnswersReference id outcome
      ∧ s.SettlesId shown id turn.source outcome turn.out problems
  byPath : ∀ (shown : Appearance) (path : WrittenPath) (title : Option String),
    turn.kind = shown.along path title →
      ∃ problems, s.SettlesPath shown path title turn.source turn.out problems

namespace Treats

variable {shown : Appearance} {id source : String} {path : WrittenPath}
  {title : Option String} {out : Span} {problems : List Problem}

theorem of_id {outcome : IdOutcome} (hanswer : s.AnswersReference id outcome)
    (h : s.SettlesId shown id source outcome out problems) :
    s.Treats ⟨shown.named id, source, out⟩ where
  byId shown' id' hkind := by
    obtain ⟨rfl, rfl⟩ := Appearance.named_inj hkind
    exact ⟨outcome, problems, hanswer, h⟩
  byPath _ _ _ hkind := absurd hkind Appearance.named_ne_along

theorem of_path (h : s.SettlesPath shown path title source out problems) :
    s.Treats ⟨shown.along path title, source, out⟩ where
  byId _ _ hkind := absurd hkind.symm Appearance.named_ne_along
  byPath shown' path' title' hkind := by
    obtain ⟨rfl, rfl, rfl⟩ := Appearance.along_inj hkind
    exact ⟨problems, h⟩

theorem of_citation {label : String} : s.Treats ⟨.citation label, source, out⟩ where
  byId shown _ hkind := by cases shown <;> cases hkind
  byPath shown _ _ hkind := by cases shown <;> cases hkind

theorem of_footnote {label : FootnoteLabel} :
    s.Treats ⟨.footnote label, source, out⟩ where
  byId shown _ hkind := by cases shown <;> cases hkind
  byPath shown _ _ hkind := by cases shown <;> cases hkind

end Treats

/-- All references among the meetings are treated by the rules. -/
def TreatsAll (s : Scope) (meetings : List Meeting) : Prop :=
  ∀ turn, .reference turn ∈ meetings → s.Treats turn

namespace TreatsAll

variable {first rest : List Meeting}

theorem nil : s.TreatsAll [] := fun _ h => absurd h List.not_mem_nil

theorem append (h : s.TreatsAll first) (hrest : s.TreatsAll rest) :
    s.TreatsAll (first ++ rest) := fun turn hturn =>
  (List.mem_append.mp hturn).elim (h turn) (hrest turn)

theorem definition {noted : Noted} (h : s.TreatsAll rest) :
    s.TreatsAll (.definition noted :: rest) := fun turn hturn =>
  (List.mem_cons.mp hturn).elim nofun (h turn)

theorem reference {turn : Turn} (h : s.Treats turn) :
    s.TreatsAll [.reference turn] := fun other hother => by
  cases List.mem_singleton.mp hother
  exact h

end TreatsAll

end Scope

/-! ## Meetings of a derivation -/

section

variable {s : Scope}

mutual

theorem Span.Yields.met {before after : Span} {problems : List Problem} :
    Span.Yields s before after problems →
      ∃ meetings, Span.Met before after meetings ∧ s.TreatsAll meetings
  | .text | .literal | .verbatim | .image | .citationLink | .footnoteLink
  | .invalid => ⟨[], .same rfl, .nil⟩
  | .emphasized h => by
    obtain ⟨meetings, hmet, htreats⟩ := h.met
    exact ⟨meetings, .emphasized hmet, htreats⟩
  | .strong h => by
    obtain ⟨meetings, hmet, htreats⟩ := h.met
    exact ⟨meetings, .strong hmet, htreats⟩
  | .link h => by
    obtain ⟨meetings, hmet, htreats⟩ := h.met
    exact ⟨meetings, .link hmet, htreats⟩
  | .reference h => by
    obtain ⟨kind', inner, hmet, htreats, hturn⟩ := h.met
    exact ⟨_, .reference hmet, htreats.append (.reference hturn)⟩

/-- The reference comes last, after those in its text. -/
theorem ReferenceKind.Yields.met {kind : ReferenceKind} {source : String}
    {out : Span} {problems : List Problem} :
    ReferenceKind.Yields s kind source out problems →
      ∃ kind' meetings, ReferenceKind.Met kind kind' meetings
        ∧ s.TreatsAll meetings ∧ s.Treats ⟨kind', source, out⟩
  | .citation _ | .citationFailed _ => ⟨_, [], .same nofun, .nil, .of_citation⟩
  | .footnote _ | .footnoteFailed _ => ⟨_, [], .same nofun, .nil, .of_footnote⟩
  | .imageId hanswer h => ⟨_, [], .same nofun, .nil, .of_id hanswer h⟩
  | .imagePath h => ⟨_, [], .same nofun, .nil, .of_path h⟩
  | .linkId hcontent hanswer h => by
    obtain ⟨meetings, hmet, htreats⟩ := hcontent.met
    exact ⟨_, meetings, .linkId hmet, htreats, .of_id hanswer h⟩
  | .linkPath h => ⟨_, [], .same nofun, .nil, .of_path h⟩

theorem Spans.Yields.met {before after : List Span} {problems : List Problem} :
    Spans.Yields s before after problems →
      ∃ meetings, Spans.Met before after meetings ∧ s.TreatsAll meetings
  | .nil => ⟨[], .nil, .nil⟩
  | .cons h hrest => by
    obtain ⟨first, hmet, htreats⟩ := h.met
    obtain ⟨rest, hmetRest, htreatsRest⟩ := hrest.met
    exact ⟨first ++ rest, .cons hmet hmetRest, htreats.append htreatsRest⟩

end

mutual

theorem Block.Yields.met {before : Block} {after : Option Block}
    {problems : List Problem} :
    Block.Yields s before after problems →
      ∃ meetings, Block.Met before after meetings ∧ s.TreatsAll meetings
  | .codeBlock | .rule | .verbatim | .decoratedHeader => ⟨[], .same rfl rfl, .nil⟩
  | .paragraph h => by
    obtain ⟨meetings, hmet, htreats⟩ := h.met
    exact ⟨meetings, .paragraph hmet, htreats⟩
  | .header htext h => by
    obtain ⟨meetings, hmet, htreats⟩ := htext.met
    exact ⟨meetings, .header hmet h.staysIn, htreats⟩
  | .title htext h => by
    obtain ⟨meetings, hmet, htreats⟩ := htext.met
    exact ⟨meetings, .title hmet h.staysIn, htreats⟩
  | .sectionOf htext hcontent h => by
    obtain ⟨first, hmet, htreats⟩ := htext.met
    obtain ⟨rest, hmetRest, htreatsRest⟩ := hcontent.met
    exact ⟨first ++ rest, .sectionOf hmet hmetRest h.staysIn,
      htreats.append htreatsRest⟩
  | .quoted h => by
    obtain ⟨meetings, hmet, htreats⟩ := h.met
    exact ⟨meetings, .quoted hmet, htreats⟩
  | .anchor h => ⟨[], .anchor h.staysIn, .nil⟩
  | .linkDefinition h =>
    ⟨[], .linkDefinition h.leavesInvalid.1 h.leavesInvalid.2, .nil⟩
  | .linkAlias h => ⟨[], .linkAlias h.leavesInvalid, .nil⟩
  | .citation hcontent h => by
    obtain ⟨meetings, hmet, htreats⟩ := hcontent.met
    obtain ⟨id', hstays⟩ := h.staysIn
    exact ⟨meetings, .citation hmet hstays, htreats⟩
  | .footnoteDefinition hcontent _ => by
    obtain ⟨meetings, hmet, htreats⟩ := hcontent.met
    exact ⟨_, .footnoteDefinition hmet, htreats.definition⟩
  | .footnote h => by
    obtain ⟨meetings, hmet, htreats⟩ := h.met
    exact ⟨meetings, .footnote hmet, htreats⟩
  | .reference h => by
    obtain ⟨kind', inner, hmet, htreats, hturn⟩ := h.met
    exact ⟨_, .reference hmet, htreats.append (.reference hturn)⟩
  | .invalid h => by
    obtain ⟨meetings, hmet, htreats⟩ := h.met
    exact ⟨meetings, .invalid hmet, htreats⟩

theorem Block.YieldsInside.met {before after : Block} {problems : List Problem} :
    Block.YieldsInside s before after problems →
      ∃ meetings, Block.MetInside before after meetings ∧ s.TreatsAll meetings
  | .citation h => by
    obtain ⟨meetings, hmet, htreats⟩ := h.met
    exact ⟨meetings, .citation hmet, htreats⟩
  | .footnoteDefinition h => by
    obtain ⟨meetings, hmet, htreats⟩ := h.met
    exact ⟨meetings, .footnoteDefinition hmet, htreats⟩
  | .header h => by
    obtain ⟨meetings, hmet, htreats⟩ := h.met
    exact ⟨meetings, .header hmet, htreats⟩
  | .title h => by
    obtain ⟨meetings, hmet, htreats⟩ := h.met
    exact ⟨meetings, .title hmet, htreats⟩
  | .sectionOf htext h => by
    obtain ⟨first, hmet, htreats⟩ := htext.met
    obtain ⟨rest, hmetRest, htreatsRest⟩ := h.met
    exact ⟨first ++ rest, .sectionOf hmet hmetRest, htreats.append htreatsRest⟩
  | .sealed h => ⟨[], .sealed h, .nil⟩

/-- A pass that follows the rules comes to references that it treats by the rules. -/
theorem Blocks.Yields.met {before after : List Block} {problems : List Problem} :
    Blocks.Yields s before after problems →
      ∃ meetings, Blocks.Met before after meetings ∧ s.TreatsAll meetings
  | .nil => ⟨[], .nil, .nil⟩
  | .cons h hrest => by
    obtain ⟨first, hmet, htreats⟩ := h.met
    obtain ⟨rest, hmetRest, htreatsRest⟩ := hrest.met
    exact ⟨first ++ rest, .cons hmet hmetRest, htreats.append htreatsRest⟩

end

/-- `after` is `before` with the references that a pass comes to replaced, each of
them as `P` says. -/
def Blocks.MetBy (P : Turn → Prop) (before after : List Block) : Prop :=
  ∃ meetings, Blocks.Met before after meetings
    ∧ ∀ turn, .reference turn ∈ meetings → P turn

theorem Blocks.Yields.metBy {before after : List Block} {problems : List Problem}
    {P : Turn → Prop} (h : Blocks.Yields s before after problems)
    (hturn : ∀ turn, s.Treats turn → P turn) : Blocks.MetBy P before after := by
  obtain ⟨meetings, hmet, htreats⟩ := h.met
  exact ⟨meetings, hmet, fun turn hmem => hturn turn (htreats turn hmem)⟩

end

end Crosslink

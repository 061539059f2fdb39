import Mathlib.Data.List.Forall2
import Crosslink.Proofs.Anchors
import Crosslink.Proofs.Encounters
import Crosslink.Proofs.PathText
import Crosslink.Proofs.Verdict

/-!
# An anchor by its id and by its path

A link can lead to an anchor of its own document in two ways: by the id, which the
local phase looks up among the declarations of the document as it is written, or by
the path `#id`, which the global phase looks up among the usable anchors of the
document as the local phase leaves it. For an anchor declared once the two agree
(`DocumentRoot.resolve_agrees`). For the local phase keeps such an anchor usable
(`Document.usable_settled`), and what is looked up later is the same target
(`Scope.targetAt_own`), also where a static document has the path of the document.

From another document the path of the anchor leads to the same place
(`DocumentRoot.reached_fragment`). The target differs only in what depends on the
document that the link stands in.
-/

namespace Crosslink

/-! ## A fragment as a path -/

theorem WrittenPath.parse_fragment {id : String} (h : id ≠ "") :
    parse ("#" ++ id) = .ok (.relative ⟨0, [], some id⟩) := by
  have hslash : ∀ text, ("#" ++ id).toList ≠ '/' :: text := by
    intro text heq
    rw [String.toList_append] at heq
    cases heq
  have hnormal : RelativePath.Normal ⟨0, [], some id⟩ :=
    ⟨nofun, fun heq => h (Option.some.inj heq)⟩
  have htext : "/".intercalate (List.replicate 0 ".." ++ [])
      ++ fragmentText (some id) = "#" ++ id := by
    rw [List.replicate_zero, List.nil_append, String.intercalate_nil, String.empty_append]
    rfl
  rw [parse_of_not_slash hslash, ← htext, RelativePath.parse_parts hnormal]

/-! ## The anchor by its id -/

namespace Scope

variable {s : Scope} {id : String}

/-- An anchor declared once answers to its id, if no definition does. -/
theorem outcomeOf_anchor (hdef : s.index.linkDefinitions.entry? id = none)
    (hanchor : s.index.anchors.entry? id = some (.unique ())) :
    s.outcomeOf id = .found (.target (s.ownAnchor id)) := by
  rw [outcomeOf, hdef]
  simp only [searchAnchors, hanchor]

theorem AnswersReference.eq_ownAnchor {outcome : IdOutcome}
    (h : s.AnswersReference id outcome) (hid : id ≠ "")
    (hdef : s.index.linkDefinitions.entry? id = none)
    (hanchor : s.index.anchors.entry? id = some (.unique ())) :
    outcome = .found (.target (s.ownAnchor id)) := by
  have hnone : s.aliasTarget? id = none := by rw [aliasTarget?, hdef]
  rw [AnswersReference, if_neg hid] at h
  rw [h.of_aliasTarget?_eq_none hnone, outcomeOf_anchor hdef hanchor]

theorem SettlesId.eq_toSpan {shown : Appearance} {source : String} {target : Target}
    {out : Span} {problems : List Problem}
    (h : s.SettlesId shown id source (.found (.target target)) out problems) :
    out = shown.toSpan target none := by
  cases h
  rfl

theorem SettlesPath.eq_toSpan {shown : Appearance} {path : WrittenPath}
    {title : Option String} {source : String} {target : Target} {out : Span}
    {problems : List Problem}
    (h : s.SettlesPath shown path title source out problems)
    (hpath : s.resolvePath path = .resolved target) :
    out = shown.toSpan target title := by
  cases h with
  | resolved htarget =>
    obtain rfl := PathOutcome.resolved.inj (hpath.symm.trans htarget)
    rfl
  | deferred hdeferred => cases hpath.symm.trans hdeferred
  | failed hfailed => cases hpath.symm.trans hfailed

/-- Without the tree a path that stays inside is left as it is. -/
theorem SettlesPath.eq_byPath {shown : Appearance} {path : WrittenPath}
    {title : Option String} {source : String} {inside : AbsolutePath} {out : Span}
    {problems : List Problem}
    (h : s.SettlesPath shown path title source out problems)
    (hlocate : s.locate path = .inside inside) (htree : s.tree = none) :
    out = shown.byPath path title source := by
  have hdeferred : s.resolvePath path = .deferred := by
    rw [resolvePath, hlocate]
    simp only [htree]
  cases h with
  | resolved htarget => cases hdeferred.symm.trans htarget
  | deferred => rfl
  | failed hfailed => cases hdeferred.symm.trans hfailed

/-- The target of the path to an own anchor is the own anchor: no mapping applies to
the document itself. -/
theorem targetAt_own (hplain : s.document.fragment = none) (id : String) :
    s.targetAt (s.document.withFragment (some id)) = s.ownAnchor id := by
  have hown : (s.document.withFragment (some id)).withoutFragment = s.document :=
    AbsolutePath.withoutFragment_eq_self hplain
  rw [targetAt, externalUrl, if_pos hown]
  rfl

end Scope

/-! ## The anchor by its path -/

theorem TargetFormats.isSubsetOf_self (formats : TargetFormats) :
    formats.isSubsetOf formats = true := by
  cases formats with
  | all => rfl
  | only names =>
    exact List.all_eq_true.mpr fun name hname => List.contains_iff_mem.mpr hname

namespace DocumentRoot

variable {r : DocumentRoot} {d e : Document} {id : String}

theorem document?_of_mem (hpaths : (r.documents.map Document.path).Nodup)
    (hd : d ∈ r.documents) {path : AbsolutePath}
    (hpath : path.withoutFragment = d.path) : r.document? path = some d := by
  rw [document?, hpath]
  generalize r.documents = documents at hpaths hd
  induction documents with
  | nil => cases hd
  | cons first documents ih =>
    obtain ⟨hfirst, hpaths⟩ := List.nodup_cons.mp hpaths
    rcases List.mem_cons.mp hd with rfl | hd
    · exact List.find?_cons_of_pos (decide_eq_true rfl)
    · have hother : first.path ≠ d.path := fun heq =>
        hfirst (List.mem_map.mpr ⟨d, hd, heq.symm⟩)
      rw [List.find?_cons_of_neg (by simpa using hother)]
      exact ih hpaths hd

/-- A path to an anchor that `d` offers leads there from every document whose formats
`d` supports. -/
theorem reached_fragment (hpaths : (r.documents.map Document.path).Nodup)
    (hd : d ∈ r.documents) (hplain : d.path.fragment = none)
    (hoffered : id ∈ d.offeredAnchors)
    (hformats : e.config.targetFormats.isSubsetOf d.config.targetFormats = true)
    (written : WrittenPath) :
    r.reached e written (d.path.withFragment (some id))
      = .ok (e.firstScope.targetAt (d.path.withFragment (some id))) := by
  have hpath : (d.path.withFragment (some id)).withoutFragment = d.path :=
    AbsolutePath.withoutFragment_eq_self hplain
  have hanchor : (d.path.withFragment (some id)).fragment.all d.offeredAnchors.contains
      = true := List.contains_iff_mem.mpr hoffered
  rw [reached, document?_of_mem hpaths hd hpath]
  by_cases hstatic : (d.path.withFragment (some id)).withoutFragment ∈ r.staticDocuments
  · rw [if_pos hstatic]
  · rw [if_neg hstatic]
    simp only [if_pos hanchor, if_pos hformats]

theorem resolvePath_fragment (hpaths : (r.documents.map Document.path).Nodup)
    (hd : d ∈ r.documents) (hplain : d.path.fragment = none)
    (hoffered : id ∈ d.offeredAnchors)
    (hformats : e.config.targetFormats.isSubsetOf d.config.targetFormats = true)
    {written : WrittenPath}
    (hlocate : (e.secondScope r.settledIndex).locate written
      = .inside (d.path.withFragment (some id))) :
    (e.secondScope r.settledIndex).resolvePath written
      = .resolved (e.firstScope.targetAt (d.path.withFragment (some id))) := by
  rw [Scope.resolvePath_of_inside hlocate rfl, checkPath_settledIndex hpaths,
    reached_fragment hpaths hd hplain hoffered hformats]

end DocumentRoot

/-! ## Both ways -/

namespace Turn

/-- If the reference met is by this id, it becomes a link to the target. -/
def LeadsById (id : String) (target : Target) (turn : Turn) : Prop :=
  ∀ shown : Appearance, turn.kind = shown.named id →
    turn.out = shown.toSpan target none

/-- If the reference met is along a path that means `path`, it stays as it is. -/
def StaysByPath (s : Scope) (path : AbsolutePath) (turn : Turn) : Prop :=
  ∀ (shown : Appearance) (written : WrittenPath) (title : Option String),
    turn.kind = shown.along written title → s.locate written = .inside path →
      turn.out = shown.byPath written title turn.source

/-- If the reference met is along a path that means `path`, it becomes a link to a
place that satisfies `P`. -/
def LeadsByPath (s : Scope) (path : AbsolutePath) (P : InternalTarget → Prop)
    (turn : Turn) : Prop :=
  ∀ (shown : Appearance) (written : WrittenPath) (title : Option String),
    turn.kind = shown.along written title → s.locate written = .inside path →
      ∃ place, P place ∧ turn.out = shown.toSpan (.internal place) title

end Turn

/-- The local phase gives one place to all references by the id of an anchor that the
document declares once. -/
theorem Document.leads_byId {d : Document} {id : String} (hid : id ≠ "")
    (hanchor : d.anchorsOf id = [()]) (hdef : d.definitionsOf id = []) :
    Blocks.MetBy
      (Turn.LeadsById id
        (.internal ⟨d.path.withFragment (some id), none, ⟨0, [], some id⟩⟩))
      d.outlined.content d.settled.content := by
  obtain ⟨_, hyields, -⟩ := d.yields_settled
  refine hyields.metBy fun turn htreats shown hkind => ?_
  obtain ⟨outcome, _, hanswer, hsettles⟩ := htreats.byId shown id hkind
  obtain rfl := hanswer.eq_ownAnchor hid (Namespace.entry?_eq_none.mpr hdef)
    (Namespace.entry?_eq_unique.mpr hanchor)
  rw [hsettles.eq_toSpan, Scope.ownAnchor_eq]
  rfl

/-- The local phase leaves the paths that stay inside the tree to the global phase. -/
theorem Document.stays_byPath (d : Document) (path : AbsolutePath) :
    Blocks.MetBy (Turn.StaysByPath d.firstScope path) d.outlined.content
      d.settled.content := by
  obtain ⟨_, hyields, -⟩ := d.yields_settled
  refine hyields.metBy fun turn htreats shown written title hkind hlocate => ?_
  obtain ⟨_, hsettles⟩ := htreats.byPath shown written title hkind
  exact hsettles.eq_byPath hlocate rfl

namespace DocumentRoot

variable {d : Document} {id : String}

/-- The links to the anchor `id` of `d` lead to `place`, those of both phases. -/
structure LeadsTo (r : DocumentRoot) (workers : Nat) (d : Document) (id : String)
    (place : InternalTarget) : Prop where
  absolute : place.absolute = d.path.withFragment (some id)
  /-- What the local phase gives to the references by the id. -/
  byId : Blocks.MetBy (Turn.LeadsById id (.internal place)) d.outlined.content
    d.settled.content
  /-- The path `#id` means the anchor. -/
  fragment : ∃ written, WrittenPath.parse ("#" ++ id) = .ok written
    ∧ (d.secondScope r.settledIndex).locate written
      = .inside (d.path.withFragment (some id))
  /-- The local phase leaves the paths that mean the anchor to the global phase. -/
  deferred : ∀ e ∈ r.documents,
    Blocks.MetBy (Turn.StaysByPath e.firstScope (d.path.withFragment (some id)))
      e.outlined.content e.settled.content
  /-- What the global phase gives to the paths that mean the anchor: in the document
  the same place, in one whose formats it supports a place at the same path. -/
  byPath : List.Forall₂ (fun e final : Document =>
      Blocks.MetBy (fun turn =>
          (e = d →
            turn.LeadsByPath (e.secondScope r.settledIndex)
              (d.path.withFragment (some id)) (· = place))
          ∧ (e.config.targetFormats.isSubsetOf d.config.targetFormats = true →
            turn.LeadsByPath (e.secondScope r.settledIndex)
              (d.path.withFragment (some id)) (·.absolute = place.absolute)))
        e.settled.content final.content)
    r.documents (r.resolve workers).root.documents

/-- References by the id and by the path of an anchor agree if the document declares
the anchor once and nothing else under that id. -/
theorem resolve_agrees (r : DocumentRoot) (workers : Nat)
    (hpaths : (r.documents.map Document.path).Nodup)
    (hplain : ∀ d ∈ r.documents, d.path.fragment = none)
    (hvalid : ∀ d ∈ r.documents, Blocks.problems d.content = [])
    (hd : d ∈ r.documents) (hid : id ≠ "") (hanchor : d.anchorsOf id = [()])
    (hdef : d.definitionsOf id = []) : ∃ place, r.LeadsTo workers d id place := by
  have hoffered : id ∈ d.offeredAnchors :=
    Document.usable_settled (hvalid d hd) (Namespace.entry?_eq_unique.mpr hanchor)
  have hown : d.firstScope.targetAt (d.path.withFragment (some id))
      = d.firstScope.ownAnchor id := Scope.targetAt_own (hplain d hd) id
  refine ⟨_, rfl, Document.leads_byId hid hanchor hdef,
    ⟨_, WrittenPath.parse_fragment hid, rfl⟩, fun e _ => e.stays_byPath _, ?_⟩
  rw [documents_resolve, List.forall₂_map_right_iff, List.forall₂_same]
  intro e _
  obtain ⟨_, hyields, -⟩ := e.yields_finished r.settledIndex
  refine hyields.metBy fun turn htreats => ⟨?_, ?_⟩
  · rintro rfl shown written title hkind hlocate
    obtain ⟨_, hsettles⟩ := htreats.byPath shown written title hkind
    refine ⟨_, rfl, hsettles.eq_toSpan ?_⟩
    rw [resolvePath_fragment hpaths hd (hplain e hd) hoffered
      (TargetFormats.isSubsetOf_self _) hlocate, hown, Scope.ownAnchor_eq]
    rfl
  · intro hformats shown written title hkind hlocate
    obtain ⟨_, hsettles⟩ := htreats.byPath shown written title hkind
    refine ⟨_, ?_, hsettles.eq_toSpan
      (resolvePath_fragment hpaths hd (hplain d hd) hoffered hformats hlocate)⟩
    rfl

/-- A document that links to its own anchor by the id and by the path, and one that
links there from a tree. -/
def breakwater : DocumentRoot :=
  { cover := none
    staticDocuments := []
    tree := ⟨.root, .initial, none,
      [.document ⟨⟨["tides.md"], none⟩, .initial,
        [.quoted [.anchor "ebb"],
          .paragraph
            [.reference (.linkId [.text "ebb"] "ebb") "[ebb]",
              .reference (.linkPath [.text "ebb"] (.relative ⟨0, [], some "ebb"⟩) none)
                "[ebb](#ebb)"]]⟩,
        .tree ⟨["port"], none⟩ .initial none
          [.document ⟨⟨["port", "a.md"], none⟩, .initial,
            [.paragraph
              [.reference (.linkPath [.text "tide"]
                (.relative ⟨1, ["tides.md"], some "ebb"⟩) none)
                "[tide](../tides.md#ebb)"]]⟩]]⟩ }

/-- All three links lead to the anchor. -/
theorem resolve_agrees_breakwater :
    ((breakwater.resolve 2).root.documents.map fun d => Blocks.internalTargets d.content)
        = [[⟨⟨["tides.md"], some "ebb"⟩, none, ⟨0, [], some "ebb"⟩⟩,
            ⟨⟨["tides.md"], some "ebb"⟩, none, ⟨0, [], some "ebb"⟩⟩],
          [⟨⟨["tides.md"], some "ebb"⟩, none, ⟨1, ["tides.md"], some "ebb"⟩⟩]]
      ∧ ∃ d ∈ breakwater.documents, ∃ place, breakwater.LeadsTo 2 d "ebb" place := by
  have hall : ∀ P : Document → Prop, P breakwater.documents[0] →
      P breakwater.documents[1] → ∀ d ∈ breakwater.documents, P d :=
    fun P htides hport => List.forall_mem_cons.mpr
      ⟨htides, List.forall_mem_singleton.mpr hport⟩
  have hfirst : breakwater.documents[0] ∈ breakwater.documents := List.getElem_mem _
  refine ⟨?_, breakwater.documents[0], hfirst, resolve_agrees breakwater 2 (by decide)
    (hall _ rfl rfl) (hall _ rfl rfl) hfirst (by decide) rfl rfl⟩
  rw [documents_resolve]
  rfl

end DocumentRoot

end Crosslink

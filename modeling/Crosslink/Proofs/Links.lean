import Crosslink.Proofs.Anchors
import Crosslink.Proofs.Pending

/-!
# No link leads nowhere

A pass makes links only to places that its scope grants: an anchor of the
document that is declared once, or a path that the tree accepts
(`Scope.Grants`, `Blocks.Yields.internalTargets`, an instance of
`Blocks.Yields.accounts` for whatever is read off links and labels). What either pass over a
document grants is still there when resolution is done
(`Crosslink.Proofs.Anchors`), so every internal link of the resolved tree
leads to a static document or to an anchor of a document of that tree
(`DocumentRoot.resolve_leads_somewhere`).
-/

namespace Crosslink

/-! ## What a pass may link to -/

namespace Scope

/-- The targets that a pass may give to a link. -/
inductive Grants (s : Scope) : Target → Prop
  | external {url : String} : Grants s (.external url)
  | anchor {id : String} (h : s.index.anchors.entry? id = some (.unique ())) :
      Grants s (s.ownAnchor id)
  | path {tree : TreeIndex} {written : WrittenPath} {path : AbsolutePath}
      {target : Target} (htree : s.tree = some tree)
      (h : s.checkPath tree written path = .resolved target) : Grants s target

variable {s : Scope}

theorem grants_resolvePath {written : WrittenPath} {target : Target}
    (h : s.resolvePath written = .resolved target) : s.Grants target := by
  unfold resolvePath at h
  split at h
  · cases h
    exact .external
  · split at h
    · cases h
    · rename_i tree htree
      exact .path htree h

theorem Finds.grants {id : String} {target : Target}
    (h : s.Finds id (.found (.target target))) : s.Grants target := by
  cases h with
  | anchor _ hunique => exact .anchor hunique

theorem AnswersReference.grants {id : String} {target : Target}
    (h : s.AnswersReference id (.found (.target target))) : s.Grants target := by
  unfold AnswersReference at h
  split at h
  · rcases h with ⟨defined, -, heq⟩ | heq
    · unfold DefinedTarget.destination at heq
      split at heq <;> cases heq
    · cases heq
  · rcases h.finds with ⟨last, hfinds⟩ | ⟨failure, heq, -⟩
    · exact hfinds.grants
    · cases heq

end Scope

/-! ## What a pass makes -/

/-- What `f` reads off a finished link, image or label. It looks neither at
blocks nor at the text inside a node, and what it reads off a node that a
pass in the scope makes is `made`. -/
structure Scope.Makes {α : Type} (s : Scope) (f : Node → Option α)
    (made : α → Prop) : Prop where
  block (block : Block) : f (.block block) = none
  emphasized (content : List Span) : f (.span (.emphasized content)) = none
  strong (content : List Span) : f (.span (.strong content)) = none
  reference (kind : ReferenceKind) (source : String) :
    f (.span (.reference kind source)) = none
  invalid (fallback : Span) (problem : Problem) :
    f (.span (.invalid fallback problem)) = none
  link (content content' : List Span) (target : Target) (title : Option String) :
    f (.span (.link content target title)) = f (.span (.link content' target title))
  granted (shown : Appearance) {target : Target} (title : Option String)
    (h : s.Grants target) : ∀ a, f (.span (shown.toSpan target title)) = some a → made a
  cited {label : String} {out : Span} (h : s.citation label = .ok out) :
    ∀ a, f (.span out) = some a → made a
  noted {label : FootnoteLabel} {footnote : NumberedFootnote}
    (h : s.Means label (.ok footnote)) :
    ∀ a, f (.span (.footnoteLink footnote.id footnote.label)) = some a → made a

/-- Every item of the second list is in the first or made. -/
def Accounts {α : Type} (made : α → Prop) (before after : List α) : Prop :=
  ∀ a ∈ after, a ∈ before ∨ made a

namespace Accounts

variable {α : Type} {made : α → Prop} {before before' after after' : List α}

@[simp] theorem refl (items : List α) : Accounts made items items :=
  fun _ h => Or.inl h

theorem append (h : Accounts made before after) (h' : Accounts made before' after') :
    Accounts made (before ++ before') (after ++ after') := by
  intro a ha
  rcases List.mem_append.mp ha with ha | ha
  · exact (h a ha).imp_left (List.mem_append_left _)
  · exact (h' a ha).imp_left (List.mem_append_right _)

theorem append_made (h : Accounts made before after) {new : Option α}
    (hnew : ∀ a, new = some a → made a) :
    Accounts made before (after ++ new.toList) := by
  intro a ha
  rcases List.mem_append.mp ha with ha | ha
  · exact h a ha
  · exact Or.inr (hnew a (Option.mem_toList.mp ha))

end Accounts

section

variable {α : Type} {s : Scope} {f : Node → Option α} {made : α → Prop}
  {problems : List Problem}

namespace Scope.Makes

/-- What is read off the text of a link or an image. -/
abbrev shownItems (f : Node → Option α) (shown : Appearance) : List α :=
  Spans.collect f .everywhere shown.text

theorem collect_byId (hf : s.Makes f made) (shown : Appearance)
    (id source : String) :
    (shown.byId id source).collect f .everywhere = shownItems f shown := by
  cases shown <;> simp [shownItems, Appearance.byId, Appearance.text, hf.reference]

theorem collect_byPath (hf : s.Makes f made) (shown : Appearance)
    (path : WrittenPath) (title : Option String) (source : String) :
    (shown.byPath path title source).collect f .everywhere
      = shownItems f shown := by
  cases shown <;> simp [shownItems, Appearance.byPath, Appearance.text, hf.reference]

theorem accounts_toSpan (hf : s.Makes f made) (shown : Appearance)
    {target : Target} (title : Option String) (h : s.Grants target) :
    Accounts made (shownItems f shown)
      ((shown.toSpan target title).collect f .everywhere) := by
  have hmade := (Accounts.refl (shownItems f shown)).append_made
    (hf.granted shown title h)
  cases shown <;>
    simpa [shownItems, Appearance.toSpan, Appearance.text] using hmade

theorem collect_blockOfSpan (hf : s.Makes f made) (span : Span) :
    (blockOfSpan span).collect f .everywhere = span.collect f .everywhere := by
  cases span with
  | invalid fallback problem =>
      cases fallback <;> simp [blockOfSpan, hf.block, hf.invalid, hf.reference]
  | _ => simp [blockOfSpan, hf.block, hf.reference]

end Scope.Makes

namespace Scope

theorem SettlesPath.accounts (hf : s.Makes f made) {shown : Appearance}
    {path : WrittenPath} {title : Option String} {source : String} {out : Span}
    (h : s.SettlesPath shown path title source out problems) :
    Accounts made (Makes.shownItems f shown) (out.collect f .everywhere) := by
  cases h with
  | resolved hpath => exact hf.accounts_toSpan shown title (grants_resolvePath hpath)
  | deferred _ =>
      rw [hf.collect_byPath]
      exact .refl _
  | failed _ => simp [hf.collect_byPath, hf.invalid]

theorem SettlesId.accounts (hf : s.Makes f made) {shown : Appearance}
    {id source : String} {outcome : IdOutcome} {out : Span}
    (h : s.SettlesId shown id source outcome out problems)
    (hanswer : s.AnswersReference id outcome) :
    Accounts made (Makes.shownItems f shown) (out.collect f .everywhere) := by
  cases h with
  | external => exact hf.accounts_toSpan shown _ .external
  | target => exact hf.accounts_toSpan shown none hanswer.grants
  | path h => exact h.accounts hf
  | deferred =>
      rw [hf.collect_byId]
      exact .refl _
  | missing => simp [hf.collect_byId, hf.invalid]
  | failed => simp [hf.collect_byId, hf.invalid]

theorem ChecksAnchor.collect_eq (hf : s.Makes f made) {id : Option String}
    {block out : Block} (h : s.ChecksAnchor id block out problems) :
    out.collect f .everywhere = block.collect f .everywhere := by
  cases h <;> simp [hf.block]

theorem FinishesCitation.collect_eq (hf : s.Makes f made) {label : String}
    {id : Option String} {content : List Block} {out : Block}
    (h : s.FinishesCitation label id content out problems) :
    out.collect f .everywhere = Blocks.collect f .everywhere content := by
  cases h <;> simp [hf.block]

theorem FinishesFootnote.collect_eq (hf : s.Makes f made) {place : Nat}
    {label : FootnoteLabel} {content : List Block} {out : Block}
    (h : s.FinishesFootnote place label content out problems) :
    out.collect f .everywhere = Blocks.collect f .everywhere content := by
  cases h <;> simp [hf.block]

end Scope

mutual

theorem Span.Yields.accounts (hf : s.Makes f made) {before after : Span}
    {problems : List Problem} :
    Span.Yields s before after problems →
      Accounts made (before.collect f .everywhere) (after.collect f .everywhere)
  | .text | .literal | .verbatim | .image | .citationLink | .footnoteLink
  | .invalid => .refl _
  | .emphasized h => by simpa [hf.emphasized] using h.accounts hf
  | .strong h => by simpa [hf.strong] using h.accounts hf
  | .reference h => by simpa [hf.reference] using h.accounts hf
  | @Span.Yields.link _ content content' target title _ h => by
      simpa [hf.link content' content] using (h.accounts hf).append (.refl _)

theorem ReferenceKind.Yields.accounts (hf : s.Makes f made)
    {kind : ReferenceKind} {source : String} {out : Span}
    {problems : List Problem} :
    ReferenceKind.Yields s kind source out problems →
      Accounts made (kind.collect f .everywhere) (out.collect f .everywhere)
  | .citation h => by
      have hmade := (Accounts.refl ([] : List α)).append_made (hf.cited h)
      unfold Scope.citation at h
      split at h
      · cases h
      · split at h <;> cases h
        simpa using hmade
  | .citationFailed _ => by simp [hf.invalid, hf.reference, Accounts]
  | .footnote h => by
      simpa using (Accounts.refl ([] : List α)).append_made (hf.noted h)
  | .footnoteFailed _ => by simp [hf.invalid, hf.reference, Accounts]
  | .imageId hanswer h => h.accounts hf hanswer
  | .imagePath h => h.accounts hf
  | .linkId hcontent hanswer h => fun a ha => by
      rcases h.accounts hf hanswer a ha with htext | hmade
      · exact hcontent.accounts hf a htext
      · exact Or.inr hmade
  | .linkPath h => h.accounts hf

theorem Spans.Yields.accounts (hf : s.Makes f made) {before after : List Span}
    {problems : List Problem} :
    Spans.Yields s before after problems →
      Accounts made (Spans.collect f .everywhere before)
        (Spans.collect f .everywhere after)
  | .nil => .refl _
  | .cons h hrest => by
      simp only [Spans.collect_cons]
      exact (h.accounts hf).append (hrest.accounts hf)

end

mutual

theorem Block.Yields.accounts (hf : s.Makes f made) {before : Block}
    {after : Option Block} {problems : List Problem} :
    Block.Yields s before after problems →
      Accounts made (before.collect f .everywhere)
        (Blocks.collect f .everywhere after.toList)
  | .paragraph h => by simpa [hf.block] using h.accounts hf
  | .codeBlock | .rule | .verbatim | .decoratedHeader => by simp [hf.block]
  | .header htext h => by simpa [h.collect_eq hf, hf.block] using htext.accounts hf
  | .title htext h => by simpa [h.collect_eq hf, hf.block] using htext.accounts hf
  | .sectionOf htext hcontent h => by
      simpa [h.collect_eq hf, hf.block] using
        (htext.accounts hf).append (hcontent.accounts hf)
  | .quoted h => by simpa [hf.block] using h.accounts hf
  | .anchor h => by simp [h.collect_eq hf]
  | .linkDefinition h => by cases h <;> simp [hf.block, Accounts]
  | .linkAlias h => by cases h <;> simp [hf.block, Accounts]
  | .citation hcontent h => by
      simpa [h.collect_eq hf, hf.block] using hcontent.accounts hf
  | .footnoteDefinition hcontent h => by
      simpa [h.collect_eq hf, hf.block] using hcontent.accounts hf
  | .footnote h => by simpa [hf.block] using h.accounts hf
  | .reference h => by
      simpa [hf.collect_blockOfSpan, hf.block] using h.accounts hf
  | .invalid h => by simpa [hf.block] using h.accounts hf

theorem Block.YieldsInside.accounts (hf : s.Makes f made) {before after : Block}
    {problems : List Problem} :
    Block.YieldsInside s before after problems →
      Accounts made (before.collect f .everywhere) (after.collect f .everywhere)
  | .citation h => by simpa [hf.block] using h.accounts hf
  | .footnoteDefinition h => by simpa [hf.block] using h.accounts hf
  | .header h => by simpa [hf.block] using h.accounts hf
  | .sectionOf htext h => by
      simpa [hf.block] using (htext.accounts hf).append (h.accounts hf)
  | .title h => by simpa [hf.block] using h.accounts hf
  | .sealed _ => .refl _

/-- What is read off the nodes after a pass was there before or is made by
the pass. -/
theorem Blocks.Yields.accounts (hf : s.Makes f made) {before after : List Block}
    {problems : List Problem} :
    Blocks.Yields s before after problems →
      Accounts made (Blocks.collect f .everywhere before)
        (Blocks.collect f .everywhere after)
  | .nil => .refl _
  | .cons h hrest => by
      simp only [Blocks.collect_cons, Blocks.collect_append]
      exact (h.accounts hf).append (hrest.accounts hf)

end

end

/-! ## Where the links of a pass come from -/

theorem Target.internal?_eq_some {target : Target} {place : InternalTarget}
    (h : target.internal? = some place) : target = .internal place := by
  cases target with
  | external url => cases h
  | internal place' => rw [Option.some.inj h]

theorem Scope.makes_internalTargets (s : Scope) :
    s.Makes Node.internalTarget? fun place => s.Grants (.internal place) where
  block _ := rfl
  emphasized _ := rfl
  strong _ := rfl
  reference _ _ := rfl
  invalid _ _ := rfl
  link _ _ _ _ := rfl
  granted shown _ _ h place hplace := by
    cases shown <;> exact Target.internal?_eq_some hplace ▸ h
  cited h place hplace := by
    unfold citation at h
    split at h
    · cases h
    · split at h <;> cases h
      cases hplace
  noted _ place hplace := by cases hplace

/-- The internal links a pass leaves were there before or are granted. -/
theorem Blocks.Yields.internalTargets {s : Scope} {before after : List Block}
    {problems : List Problem} (h : Blocks.Yields s before after problems) :
    ∀ place ∈ Blocks.internalTargets after,
      place ∈ Blocks.internalTargets before ∨ s.Grants (.internal place) :=
  h.accounts s.makes_internalTargets

/-! ## The resolved tree -/

def TargetFormats.Enables : TargetFormats → String → Prop
  | .all, _ => True
  | .only names, format => format ∈ names

theorem TargetFormats.enables_of_isSubsetOf {f g : TargetFormats}
    (h : f.isSubsetOf g = true) {format : String} (hf : f.Enables format) :
    g.Enables format := by
  cases g with
  | all => exact trivial
  | only theirs =>
      cases f with
      | all => cases h
      | only mine =>
          exact List.contains_iff_mem.mp (List.all_eq_true.mp h format hf)

/-- The tree has what an internal link of `d` leads to: a static document,
or a document that has the wanted anchor and is enabled for every format of
`d`. -/
def DocumentRoot.Offers (r : DocumentRoot) (d : Document) (path : AbsolutePath) :
    Prop :=
  path.withoutFragment ∈ r.staticDocuments
    ∨ ∃ e ∈ r.documents, e.path = path.withoutFragment
        ∧ (∀ id, path.fragment = some id → id ∈ Blocks.usableAnchors e.content)
        ∧ ∀ format, d.config.targetFormats.Enables format →
            e.config.targetFormats.Enables format

namespace DocumentRoot

variable {r : DocumentRoot} {d : Document}

/-- A usable anchor of the document itself. -/
theorem offers_ownAnchor {workers : Nat} {id : String} (hd : d ∈ r.documents)
    (hplain : d.path.fragment = none)
    (hid : id ∈ Blocks.usableAnchors (d.finished r.settledIndex).content) :
    (r.resolve workers).root.Offers (d.finished r.settledIndex)
      (d.path.withFragment (some id)) := by
  refine Or.inr ⟨d.finished r.settledIndex, ?_, ?_, ?_, fun _ h => h⟩
  · rw [documents_resolve]
    exact List.mem_map_of_mem hd
  · exact (AbsolutePath.withoutFragment_eq_self hplain).symm
  · intro id' hid'
    obtain rfl := Option.some.inj hid'
    exact hid

/-- A path that the index between the phases accepts. -/
theorem offers_checkPath {workers : Nat} {s : Scope} {written : WrittenPath}
    {path : AbsolutePath} {place : InternalTarget}
    (hpaths : (r.documents.map Document.path).Nodup)
    (hvalid : ∀ d ∈ r.documents, Blocks.problems d.content = [])
    (hformats : s.config.targetFormats = d.config.targetFormats)
    (h : s.checkPath r.settledIndex written path = .resolved (.internal place)) :
    (r.resolve workers).root.Offers d place.absolute := by
  unfold Scope.checkPath at h
  split at h
  · rename_i hstatic
    cases h
    refine Or.inl ?_
    rw [staticDocuments_resolve]
    exact List.contains_iff_mem.mp hstatic
  · split at h
    · cases h
    · rename_i summary hsummary
      split at h
      · cases h
      · rename_i hclear
        cases h
        rw [document?_settledIndex r hpaths] at hsummary
        obtain ⟨e, hfound, rfl⟩ := Option.map_eq_some_iff.mp hsummary
        obtain ⟨he, hpath⟩ := mem_of_document?_eq_some hfound
        unfold Scope.obstacle at hclear
        split at hclear
        · rename_i hanchor
          split at hclear
          · rename_i hsubset
            rw [hformats] at hsubset
            refine Or.inr ⟨e.finished r.settledIndex, ?_, hpath, ?_, ?_⟩
            · rw [documents_resolve]
              exact List.mem_map_of_mem he
            · intro id hid
              have hid' : path.fragment = some id := hid
              rw [hid'] at hanchor
              exact Document.usable_finished r.settledIndex (hvalid e he)
                (List.contains_iff_mem.mp hanchor)
            · exact fun _ => TargetFormats.enables_of_isSubsetOf hsubset
          · cases hclear
        · cases hclear

/-- No internal link leads nowhere: whatever a link or an image of the
resolved tree points at inside the tree is there. -/
theorem resolve_leads_somewhere (r : DocumentRoot) (workers : Nat)
    (hpaths : (r.documents.map Document.path).Nodup)
    (hplain : ∀ d ∈ r.documents, d.path.fragment = none)
    (hvalid : ∀ d ∈ r.documents, Blocks.problems d.content = [])
    (hunlinked : ∀ d ∈ r.documents, Blocks.internalTargets d.content = []) :
    ∀ d ∈ (r.resolve workers).root.documents,
      ∀ place ∈ Blocks.internalTargets d.content,
        (r.resolve workers).root.Offers d place.absolute := by
  intro final hfinal place hplace
  rw [documents_resolve] at hfinal
  obtain ⟨d, hd, rfl⟩ := List.mem_map.mp hfinal
  obtain ⟨_, hfirst, -⟩ := d.yields_settled
  obtain ⟨_, hsecond, -⟩ := d.yields_finished r.settledIndex
  have hnone : Blocks.internalTargets d.outlined.content = [] :=
    (Blocks.internalTargets_buildOutline _ _).trans (hunlinked d hd)
  rcases hsecond.internalTargets place hplace with hsettled | hgranted
  · rcases hfirst.internalTargets place hsettled with hwritten | hgranted
    · rw [hnone] at hwritten
      cases hwritten
    · generalize htarget : Target.internal place = target at hgranted
      cases hgranted with
      | external => cases htarget
      | anchor hunique =>
          cases htarget
          exact offers_ownAnchor hd (hplain d hd)
            (Document.usable_of_firstScope r.settledIndex (hvalid d hd) hunique)
      | path htree _ => cases htree
  · generalize htarget : Target.internal place = target at hgranted
    cases hgranted with
    | external => cases htarget
    | anchor hunique =>
        cases htarget
        exact offers_ownAnchor hd (hplain d hd)
          (Document.usable_of_secondScope r.settledIndex (hvalid d hd) hunique)
    | path htree hchecked =>
        obtain rfl := Option.some.inj htree
        rw [← htarget] at hchecked
        exact offers_checkPath hpaths hvalid rfl hchecked

/-- A cover that links to its own anchor, to one of another document and to
a picture. -/
def harbour : DocumentRoot :=
  { cover := some
      { path := ⟨["cover.md"], none⟩
        config := { Config.initial with targetFormats := .only ["html"] }
        content :=
          [.anchor "quay",
            .paragraph
              [.reference (.linkId [.text "quay"] "quay") "[quay]",
                .reference (.linkPath [.text "tide"]
                  (.absolute ⟨["tides.md"], some "ebb"⟩) none)
                  "[tide](/tides.md#ebb)",
                .reference (.imagePath "boat" (.absolute ⟨["boat.png"], none⟩) none)
                  "![boat](/boat.png)"]] }
    staticDocuments := [⟨["boat.png"], none⟩]
    tree := ⟨.root, .initial, none,
      [.document ⟨⟨["tides.md"], none⟩, .initial, [.quoted [.anchor "ebb"]]⟩]⟩ }

theorem resolve_leads_somewhere_harbour :
    ((harbour.resolve 2).root.documents.map fun d =>
        (Blocks.internalTargets d.content).map InternalTarget.absolute)
        = [[⟨["cover.md"], some "quay"⟩, ⟨["tides.md"], some "ebb"⟩,
            ⟨["boat.png"], none⟩], []]
      ∧ ∀ d ∈ (harbour.resolve 2).root.documents,
          ∀ place ∈ Blocks.internalTargets d.content,
            (harbour.resolve 2).root.Offers d place.absolute := by
  have hall : ∀ P : Document → Prop, P harbour.documents[0] →
      P harbour.documents[1] → ∀ d ∈ harbour.documents, P d :=
    fun P hcover htides => List.forall_mem_cons.mpr
      ⟨hcover, List.forall_mem_singleton.mpr htides⟩
  refine ⟨?_, resolve_leads_somewhere harbour 2 (by decide)
    (hall _ rfl rfl) (hall _ rfl rfl) (hall _ rfl rfl)⟩
  rw [documents_resolve]
  rfl

end DocumentRoot

end Crosslink

import Crosslink.Proofs.Counting
import Crosslink.Proofs.Links
import Crosslink.Proofs.Numbering
import Mathlib.Data.List.Forall2

/-!
# Footnotes and citations

A link to a footnote takes its number from the index, and the footnote takes
its own from a count of the definitions met so far. The two agree: what the
count gives to the definitions of a document is the numbering of those that
are not repeated (`Scope.footnotes_notes`). So each note that a pass may link
to is the only one with its id (`Scope.Refers.filter_notes`), the second pass
changes none of them and links to nothing new, and every footnote link and
citation link of a resolved document has one footnote or citation to lead to
(`DocumentRoot.resolve_answers`).
-/

namespace Crosslink

/-! ## Links to notes -/

/-- Both are footnotes or both are citations, and their ids are the same. -/
def Note.sameId : Note → Note → Bool
  | .footnote a, .footnote b => a.id == b.id
  | .citation id, .citation id' => id == id'
  | _, _ => false

/-- What a footnote link or a citation link leads to. -/
@[simp] def Node.noteLink? : Node → Option Note
  | .span (.footnoteLink id label) => some (.footnote ⟨id, label⟩)
  | .span (.citationLink _ reference) => some (.citation ("__cit-" ++ reference))
  | _ => none

abbrev Blocks.noteLinks (blocks : List Block) : List Note :=
  Blocks.collect Node.noteLink? .everywhere blocks

/-! ## A second pass changes no note -/

section

variable {s : Scope} {problems : List Problem}

theorem Scope.ChecksAnchor.notes_eq {id : Option String} {block out : Block}
    (h : s.ChecksAnchor id block out problems) : out.notes = block.notes := by
  cases h <;> simp

mutual

theorem Block.Yields.notes_eq {before : Block} {after : Option Block}
    {problems : List Problem} :
    Block.Yields s before after problems → before.Steady s →
      Blocks.notes after.toList = before.notes
  | .paragraph _, _ | .codeBlock, _ | .rule, _ | .verbatim, _
  | .decoratedHeader, _ | .reference _, _ => by simp
  | .header _ h, _ => by simp [h.notes_eq]
  | .title _ h, _ => by simp [h.notes_eq]
  | .sectionOf _ hcontent h, hsteady => by
      simpa [h.notes_eq] using hcontent.notes_eq hsteady.2
  | .quoted h, hsteady => by simpa using h.notes_eq hsteady
  | .anchor h, _ => by simp [h.notes_eq]
  | .linkDefinition h, _ => by cases h <;> simp
  | .linkAlias h, _ => by cases h <;> simp
  | .citation hcontent h, hsteady => by
      obtain ⟨hname, hunique, rfl, hinner⟩ := hsteady
      cases h with
      | nameless hempty => exact absurd hempty hname
      | repeated _ hdup => rw [hunique] at hdup; cases hdup
      | kept _ _ => simpa using hcontent.notes_eq hinner
  | .footnoteDefinition _ _, hsteady => hsteady.elim
  | .footnote h, hsteady => by simpa using h.notes_eq hsteady
  | .invalid h, hsteady => by simpa using h.notes_eq hsteady

theorem Block.YieldsInside.notes_eq {before after : Block}
    {problems : List Problem} :
    Block.YieldsInside s before after problems → before.SteadyInside s →
      after.notes = before.notes
  | .citation h, hsteady => by simpa using h.notes_eq hsteady
  | .footnoteDefinition h, hsteady => by simpa using h.notes_eq hsteady
  | .header _, _ => by simp
  | .sectionOf _ h, hsteady => by simpa using h.notes_eq hsteady
  | .title _, _ => by simp
  | .sealed _, _ => rfl

theorem Blocks.Yields.notes_eq {before after : List Block}
    {problems : List Problem} :
    Blocks.Yields s before after problems → Blocks.Steady s before →
      Blocks.notes after = Blocks.notes before
  | .nil, _ => rfl
  | .cons h hrest, hsteady => by
      have hblock := h.notes_eq hsteady.1
      have hblocks := hrest.notes_eq hsteady.2
      simp only [Blocks.collect_append, Blocks.collect_cons, hblock, hblocks]

end

end

/-! ## What is left to refer to -/

/-- A declaration as steady blocks may hold it: no footnote is to be numbered
any more and no citation is repeated. -/
def Declaration.Settled (s : Scope) : Declaration → Prop
  | citation label => label ≠ "" ∧ s.index.citations.isDuplicate label = false
  | footnote _ => False
  | _ => True

section

variable {s : Scope}

theorem Declaration.settled_anchors (id : Option String) :
    ∀ declaration ∈ anchors id, declaration.Settled s := by
  cases id <;> simp [anchors, Settled]

mutual

theorem Block.Steady.settled : ∀ {block : Block}, block.Steady s →
    ∀ declaration ∈ block.declarations, declaration.Settled s
  | .header header, _ => Declaration.settled_anchors header.id
  | .title title, _ => Declaration.settled_anchors title.id
  | .sectionOf header content, hsteady => List.forall_mem_append.mpr
      ⟨Declaration.settled_anchors header.id, Blocks.Steady.settled hsteady.2⟩
  | .citation label id content, hsteady => List.forall_mem_cons.mpr
      ⟨⟨hsteady.1, hsteady.2.1⟩, Blocks.Steady.settled hsteady.2.2.2⟩
  | .footnote id label content, hsteady =>
      Blocks.Steady.settled hsteady
  | .quoted content, hsteady => Blocks.Steady.settled hsteady
  | .footnoteDefinition label content, hsteady => hsteady.elim
  | .invalid fallback problem, hsteady =>
      Block.SteadyInside.settled hsteady
  | .linkDefinition definition, _ => by
      rw [Block.declarations, Declaration.ofDefinition]
      split <;> simp [Declaration.Settled]
  | .anchor _, _ | .linkAlias _, _ | .paragraph _, _ | .codeBlock _ _, _ | .rule, _
  | .verbatim _ _, _ | .decoratedHeader _, _ | .reference _ _, _ => by
      simp [Block.declarations, Declaration.Settled]

theorem Block.SteadyInside.settled : ∀ {block : Block}, block.SteadyInside s →
    ∀ declaration ∈ block.nestedDeclarations, declaration.Settled s
  | .citation _ _ content, hsteady => Blocks.Steady.settled hsteady
  | .footnote _ _ content, hsteady => Blocks.Steady.settled hsteady
  | .footnoteDefinition _ content, hsteady =>
      Blocks.Steady.settled hsteady
  | .quoted content, hsteady => Blocks.Steady.settled hsteady
  | .sectionOf _ content, hsteady => Blocks.Steady.settled hsteady
  | .header _, _ | .title _, _ | .anchor _, _ | .linkDefinition _, _
  | .linkAlias _, _ | .invalid _ _, _ | .paragraph _, _ | .codeBlock _ _, _
  | .rule, _ | .verbatim _ _, _ | .decoratedHeader _, _ | .reference _ _, _ => by
      simp [Block.nestedDeclarations]

theorem Blocks.Steady.settled : ∀ {blocks : List Block}, Blocks.Steady s blocks →
    ∀ declaration ∈ Blocks.declarations blocks, declaration.Settled s
  | [], _ => by simp [Blocks.declarations]
  | block :: blocks, hsteady => List.forall_mem_append.mpr
      ⟨Block.Steady.settled hsteady.1, Blocks.Steady.settled hsteady.2⟩

end

end

/-- The notes that a pass in the scope may link to. -/
inductive Scope.Refers (s : Scope) : Note → Prop
  | footnote {label : FootnoteLabel} {footnote : NumberedFootnote}
      (h : s.Means label (.ok footnote)) : Refers s (.footnote footnote)
  | citation {label : String} (hname : label ≠ "")
      (h : s.index.citations.entry? label = some (.unique ())) :
      Refers s (.citation ("__cit-" ++ label))

theorem Scope.makes_noteLinks (s : Scope) : s.Makes Node.noteLink? s.Refers where
  block _ := rfl
  emphasized _ := rfl
  strong _ := rfl
  reference _ _ := rfl
  invalid _ _ := rfl
  link _ _ _ _ := rfl
  granted shown _ _ _ note hnote := by cases shown <;> cases hnote
  cited h note hnote := by
    unfold citation at h
    split at h
    · cases h
    · rename_i hname
      split at h
      · rename_i hunique
        cases h
        cases hnote
        exact .citation hname hunique
      · cases h
      · cases h
  noted h note hnote := by
    cases hnote
    exact .footnote h

/-! ## One note for each link -/

/-- The footnote that a note is. -/
def Note.footnote? : Note → Option NumberedFootnote
  | .footnote numbered => some numbered
  | .citation _ => none

theorem Note.filter_footnote (footnote : NumberedFootnote) (notes : List Note) :
    notes.filter (Note.footnote footnote).sameId
      = ((notes.filterMap footnote?).filter fun other =>
          footnote.id == other.id).map Note.footnote := by
  induction notes with
  | nil => rfl
  | cons note notes ih =>
      cases note with
      | citation id =>
          rw [List.filterMap_cons_none rfl, ← ih]
          exact List.filter_cons_of_neg Bool.false_ne_true
      | footnote other =>
          have hother : footnote? (.footnote other) = some other := rfl
          rw [List.filterMap_cons_some hother, List.filter_cons, List.filter_cons, ih]
          by_cases hid : footnote.id = other.id <;> simp [sameId, hid]

namespace Scope

variable {s : Scope} {declarations : List Declaration}

/-- Place by place, declarations become the footnotes whose definitions are
not repeated. -/
theorem footnotes_notes : ∀ (declarations : List Declaration) {place : Nat},
    (s.index.footnotes.entries.drop place).map FootnoteEntry.label
        = declarations.filterMap Declaration.footnote? →
      (s.notes place declarations).filterMap Note.footnote?
        = (s.index.footnotes.entries.drop place).filterMap s.usable?
  | [], place, hlabels => by
      rw [List.map_eq_nil_iff.mp hlabels]
      rfl
  | .footnote label :: declarations, place, hlabels => by
      obtain ⟨e, rest, hentries, rfl, hrest⟩ := List.map_eq_cons_iff.mp hlabels
      obtain ⟨hat, htail⟩ := getElem?_of_drop_eq_cons hentries
      have hnumbered : s.numbered? place e.label = s.usable? e := by
        rw [numbered?, usable?, FootnoteNumbering.definition, hat]
        rfl
      subst htail
      rw [notes, List.filterMap_append, footnotes_notes declarations hrest, hentries, hnumbered]
      rw [List.filterMap_cons]
      cases s.usable? e <;> rfl
  | .citation label :: declarations, place, hlabels => by
      have hrest := footnotes_notes declarations hlabels
      rw [notes, List.filterMap_append, hrest]
      cases citationId label none <;> rfl
  | .anchor _ :: declarations, place, hlabels
  | .anonymous _ :: declarations, place, hlabels
  | .definition _ _ :: declarations, place, hlabels => by
      exact footnotes_notes declarations hlabels

/-- The footnotes that the declarations of a document become. -/
theorem footnotes_notes_eq (hindex : s.index = .ofDeclarations declarations) :
    (s.notes 0 declarations).filterMap Note.footnote? = s.usableFootnotes :=
  footnotes_notes declarations (labels_entries hindex)

theorem filter_footnote_notes (hindex : s.index = .ofDeclarations declarations)
    {footnote : NumberedFootnote} (h : footnote ∈ s.usableFootnotes) :
    (s.notes 0 declarations).filter (Note.footnote footnote).sameId
      = [.footnote footnote] := by
  have hids := pairwise_usableFootnotes hindex
  rw [Note.filter_footnote, footnotes_notes_eq hindex]
  obtain ⟨before, after, heq⟩ := List.append_of_mem h
  rw [heq] at hids ⊢
  obtain ⟨-, hafter, hbefore⟩ := List.pairwise_append.mp hids
  have hfirst : before.filter (fun other => footnote.id == other.id) = [] :=
    List.filter_eq_nil_iff.mpr fun other hother heq =>
      hbefore other hother footnote List.mem_cons_self (beq_iff_eq.mp heq).symm
  have hlast : after.filter (fun other => footnote.id == other.id) = [] :=
    List.filter_eq_nil_iff.mpr fun other hother heq =>
      (List.pairwise_cons.mp hafter).1 other hother (beq_iff_eq.mp heq)
  simp [hfirst, hlast]

theorem filter_citation_notes {label : String} (hname : label ≠ "") :
    ∀ (declarations : List Declaration) (place : Nat),
      (s.notes place declarations).filter (Note.citation ("__cit-" ++ label)).sameId
        = List.replicate
            ((declarations.filterMap Declaration.citation?).count label)
            (.citation ("__cit-" ++ label))
  | [], _ => rfl
  | .citation other :: declarations, place => by
      have hfirst : Declaration.citation? (.citation other) = some other := rfl
      rw [notes, List.filter_append, filter_citation_notes hname declarations place,
        List.filterMap_cons_some hfirst, List.count_cons]
      by_cases hother : other = label
      · subst hother
        simp [citationId, hname, Note.sameId, List.replicate_succ]
      · have hid : "__cit-" ++ label ≠ "__cit-" ++ other :=
          fun heq => hother ((String.append_right_inj "__cit-").mp heq).symm
        unfold citationId
        split <;> simp [Note.sameId, hother, hid]
  | .footnote label :: declarations, place => by
      rw [notes, List.filter_append, filter_citation_notes hname declarations _]
      cases s.numbered? place label <;> rfl
  | .anchor _ :: declarations, place | .anonymous _ :: declarations, place
  | .definition _ _ :: declarations, place =>
      filter_citation_notes hname declarations place

/-- A note that may be linked to is the only one with its id. -/
theorem Refers.filter_notes (hindex : s.index = .ofDeclarations declarations)
    {note : Note} (h : s.Refers note) :
    (s.notes 0 declarations).filter note.sameId = [note] := by
  cases h with
  | footnote hmeans =>
      exact filter_footnote_notes hindex (hmeans.mem_usableFootnotes hindex)
  | citation hname hunique =>
      have hone := congrArg List.length (Namespace.entry?_eq_unique.mp hunique)
      rw [hindex] at hone
      have hcount := (Namespace.length_values_ofNames _ _).symm.trans hone
      rw [filter_citation_notes hname, hcount]
      rfl

end Scope

/-! ## Documents -/

/-- Each link to a footnote or a citation has exactly one note to lead to,
which is what the link says: a footnote with the same id shows the same
label. -/
def Blocks.Answered (blocks : List Block) : Prop :=
  ∀ link ∈ Blocks.noteLinks blocks,
    (Blocks.notes blocks).filter link.sameId = [link]

/-- The document holds no invalid node, no footnote that is numbered already,
no citation that has an id, and no link to either. -/
structure Document.Unresolved (d : Document) : Prop where
  problems : Blocks.problems d.content = []
  notes : Blocks.notes d.content = []
  noteLinks : Blocks.noteLinks d.content = []

namespace Document

variable {d : Document}

theorem Unresolved.outlined (h : d.Unresolved) : d.outlined.Unresolved where
  problems := (Blocks.problems_buildOutline _ _).trans h.problems
  notes := (Blocks.collect_buildOutline (Node.forall_isHeading (fun _ => rfl)
    (fun _ => rfl) (fun _ => rfl) fun _ _ => rfl) _ _ _).trans h.notes
  noteLinks := (Blocks.collect_buildOutline (Node.forall_isHeading (fun _ => rfl)
    (fun _ => rfl) (fun _ => rfl) fun _ _ => rfl) _ _ _).trans h.noteLinks

/-- Both passes leave the notes that the declarations of the document stand
for. -/
theorem notes_finished (h : d.Unresolved) (tree : TreeIndex) :
    (Blocks.notes (d.finished tree).content).Perm
      (d.firstScope.notes 0 (Blocks.declarations d.outlined.content)) := by
  have hsettled := (Scope.counted_resolveBlocks (s := d.firstScope) d.outlined.content 0
    h.outlined.problems h.outlined.notes {} rfl).2
  obtain ⟨_, hsecond, -⟩ := d.yields_finished tree
  rw [hsecond.notes_eq (d.steady_settled tree h.problems)]
  exact hsettled

/-- The second pass links to no note that the first one could not link to. -/
theorem refers_of_secondScope (h : d.Unresolved) {tree : TreeIndex} {note : Note}
    (hrefers : (d.secondScope tree).Refers note) : d.firstScope.Refers note := by
  obtain ⟨_, hfirst, -⟩ := d.yields_settled
  have hsteady : Blocks.Steady d.firstScope d.settled.content :=
    hfirst.steady ⟨List.Sublist.refl _, List.Sublist.refl _⟩ h.outlined.problems
  cases hrefers with
  | footnote hmeans =>
      have hnone : (Blocks.declarations d.settled.content).filterMap
          Declaration.footnote? = [] := by
        refine List.filterMap_eq_nil_iff.mpr fun declaration hmem => ?_
        cases declaration with
        | footnote label => exact (hsteady.settled _ hmem).elim
        | _ => rfl
      have husable : (d.secondScope tree).usableFootnotes = [] := by
        show (numberFootnotes 0 0 (_ : List FootnoteLabel)).filterMap _ = []
        rw [hnone]
        rfl
      have hmem := hmeans.mem_usableFootnotes rfl
      rw [husable] at hmem
      cases hmem
  | @citation label hname hunique =>
      have hmem := DocumentIndex.mem_citations.mp
        (Namespace.mem_of_entry?_eq_unique hunique)
      obtain ⟨-, honce⟩ := hsteady.settled _ hmem
      exact .citation hname (Namespace.entry?_eq_unique_of_mem
        (DocumentIndex.mem_citations.mpr (d.declarations_settled.subset hmem)) honce)

/-- Links to footnotes and citations never dangle. -/
theorem answered_finished (h : d.Unresolved) (tree : TreeIndex) :
    Blocks.Answered (d.finished tree).content := by
  intro link hlink
  obtain ⟨_, hfirst, -⟩ := d.yields_settled
  obtain ⟨_, hsecond, -⟩ := d.yields_finished tree
  have hrefers : d.firstScope.Refers link := by
    rcases hsecond.accounts (d.secondScope tree).makes_noteLinks link hlink
      with hsettled | hrefers
    · rcases hfirst.accounts d.firstScope.makes_noteLinks link hsettled
        with hwritten | hrefers
      · have hnone : link ∉ Blocks.noteLinks d.outlined.content := by
          rw [h.outlined.noteLinks]
          exact List.not_mem_nil
        exact absurd hwritten hnone
      · exact hrefers
    · exact refers_of_secondScope h hrefers
  have hone := (notes_finished h tree).filter link.sameId
  rw [hrefers.filter_notes rfl] at hone
  exact List.perm_singleton.mp hone

end Document

namespace DocumentRoot

/-- Links to footnotes and citations never dangle: in each resolved document
that held nothing resolved before, every such link has one footnote or
citation to lead to. -/
theorem resolve_answers (r : DocumentRoot) (workers : Nat) :
    List.Forall₂
      (fun d final => d.Unresolved → Blocks.Answered final.content)
      r.documents (r.resolve workers).root.documents := by
  rw [documents_resolve]
  refine List.forall₂_map_right_iff.mpr (List.forall₂_same.mpr fun d _ h => ?_)
  exact d.answered_finished h r.settledIndex

/-- A document with a footnote and a citation in a nameless footnote, a number
declared twice, a labelled footnote, and a reference to each. -/
def logbook : DocumentRoot :=
  { cover := some
      { path := ⟨["log.md"], none⟩
        config := .initial
        content :=
          [.footnoteDefinition (.labelled "")
              [.footnoteDefinition .autonumber [.citation "ebb" none []]],
            .footnoteDefinition (.numeric 3) [],
            .footnoteDefinition (.numeric 3) [],
            .footnoteDefinition (.labelled "tide") [],
            .paragraph
              [.reference (.footnote .autonumber) "[#]",
                .reference (.footnote (.numeric 3)) "[3]",
                .reference (.footnote (.labelled "tide")) "[#tide]",
                .reference (.citation "ebb") "[ebb]"]] }
    staticDocuments := []
    tree := ⟨.root, .initial, none, []⟩ }

theorem resolve_answers_logbook :
    ((logbook.resolve 2).root.documents.map fun d => Blocks.noteLinks d.content)
        = [[.footnote ⟨"__fnauto-1", "1"⟩, .footnote ⟨"__fnl-tide", "2"⟩,
            .citation "__cit-ebb"]]
      ∧ ∀ d ∈ (logbook.resolve 2).root.documents, Blocks.Answered d.content := by
  have hall := resolve_answers logbook 2
  rw [documents_resolve] at hall ⊢
  refine ⟨rfl, List.forall_mem_singleton.mpr ?_⟩
  exact (List.forall₂_cons.mp hall).1 ⟨rfl, rfl, rfl⟩

end DocumentRoot

end Crosslink

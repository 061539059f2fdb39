import Crosslink.Proofs.Notes
import Crosslink.Proofs.Slugs

/-!
# Which fragments name one place

The landmarks of a document are what its declarations become, place by place
(`Scope.landmarks`, `Document.landmarks_finished_eq`). Repeated anchors,
citations and footnotes become none, and the numbering schemes keep footnotes
and citations apart, so within the anchors and within the notes no id occurs
twice. Nothing keeps the two apart: they are counted in namespaces of their
own, before footnotes and citations have their ids. Ids derived from text start
with a letter or number and never with the underscore of a generated id, so
what an id is shared by is an anchor with that id written in the document and
a note that gets it (`DocumentRoot.resolve_landmarks`). `buoys` shows it
happen.
-/

namespace Crosslink

/-! ## Kinds of landmarks -/

namespace Landmark

def anchor? : Landmark → Option String
  | anchor id => some id
  | _ => none

def citation? : Landmark → Option String
  | citation id => some id
  | _ => none

def footnote? : Landmark → Option String
  | footnote id => some id
  | _ => none

theorem ne_of_sublist {f : Landmark → Option String} {landmarks : List Landmark}
    (hnodup : (landmarks.filterMap f).Nodup) {a b : Landmark}
    (hsub : [a, b].Sublist landmarks) {i j : String} (ha : f a = some i)
    (hb : f b = some j) : i ≠ j := by
  have hids := (hsub.filterMap f).nodup hnodup
  rw [List.filterMap_cons_some ha, List.filterMap_cons_some hb] at hids
  intro hij
  exact (List.nodup_cons.mp hids).1 (hij ▸ List.mem_cons_self)

/-- If no id occurs twice within a kind, nor among the citations and the
footnotes, then only an anchor and a note can share one. -/
theorem pairwise_of_kinds {landmarks : List Landmark} {P : String → Prop}
    (hanchors : (landmarks.filterMap anchor?).Nodup)
    (hcitations : (landmarks.filterMap citation?).Nodup)
    (hfootnotes : (landmarks.filterMap footnote?).Nodup)
    (hnotes : ∀ id, citation id ∈ landmarks → footnote id ∉ landmarks)
    (hmixed : ∀ id, anchor id ∈ landmarks →
      citation id ∈ landmarks ∨ footnote id ∈ landmarks → P id) :
    landmarks.Pairwise fun a b => a.id = b.id → a.isAnchor ≠ b.isAnchor ∧ P a.id := by
  refine List.pairwise_iff_forall_sublist.mpr fun {a b} hsub hid => ?_
  have ha : a ∈ landmarks := hsub.subset List.mem_cons_self
  have hb : b ∈ landmarks := hsub.subset (List.mem_cons_of_mem _ List.mem_cons_self)
  cases a with
  | anchor i =>
      cases b with
      | anchor j => exact absurd hid (ne_of_sublist hanchors hsub rfl rfl)
      | citation j =>
          obtain rfl : i = j := hid
          exact ⟨Bool.noConfusion, hmixed i ha (.inl hb)⟩
      | footnote j =>
          obtain rfl : i = j := hid
          exact ⟨Bool.noConfusion, hmixed i ha (.inr hb)⟩
  | citation i =>
      cases b with
      | anchor j =>
          obtain rfl : i = j := hid
          exact ⟨Bool.noConfusion, hmixed i hb (.inl ha)⟩
      | citation j => exact absurd hid (ne_of_sublist hcitations hsub rfl rfl)
      | footnote j =>
          obtain rfl : i = j := hid
          exact absurd hb (hnotes i ha)
  | footnote i =>
      cases b with
      | anchor j =>
          obtain rfl : i = j := hid
          exact ⟨Bool.noConfusion, hmixed i hb (.inr ha)⟩
      | citation j =>
          obtain rfl : i = j := hid
          exact absurd ha (hnotes i hb)
      | footnote j => exact absurd hid (ne_of_sublist hfootnotes hsub rfl rfl)

end Landmark

/-! ## What declarations become -/

/-- The footnote that a block already is. -/
@[simp] def Node.footnote? : Node → Option NumberedFootnote
  | .block (.footnote id label _) => some ⟨id, label⟩
  | _ => none

abbrev Block.footnotes (block : Block) : List NumberedFootnote :=
  block.collect Node.footnote? .everywhere

/-- The footnotes of a sequence of blocks that are numbered already. -/
abbrev Blocks.footnotes (blocks : List Block) : List NumberedFootnote :=
  Blocks.collect Node.footnote? .everywhere blocks

namespace Scope

/-- The landmark that a declaration becomes if `place` footnotes were declared
before it; a repeated or nameless one becomes none. -/
def landmark? (s : Scope) (place : Nat) : Declaration → Option Landmark
  | .anchor id =>
    if s.index.anchors.isDuplicate id then none else some (.anchor id)
  | .citation label =>
    if label = "" ∨ s.index.citations.isDuplicate label then none
    else some (.citation ("__cit-" ++ label))
  | .footnote label =>
    (s.numbered? place label).map fun footnote => .footnote footnote.id
  | .anonymous _ => none
  | .definition _ _ => none

def landmarks (s : Scope) (place : Nat) : List Declaration → List Landmark
  | [] => []
  | declaration :: declarations =>
    (s.landmark? place declaration).toList
      ++ s.landmarks (place + if declaration.isFootnote then 1 else 0) declarations

variable {s : Scope} {place : Nat}

theorem landmarks_append (first second : List Declaration) (place : Nat) :
    s.landmarks place (first ++ second)
      = s.landmarks place first
        ++ s.landmarks (place + Declaration.footnoteCount first) second := by
  induction first generalizing place with
  | nil => rfl
  | cons declaration first ih =>
      rw [List.cons_append, landmarks, landmarks, ih, List.append_assoc,
        Declaration.footnoteCount_cons, Nat.add_assoc,
        Nat.add_comm (Declaration.footnoteCount first)]

/-! ## Blocks become the landmarks of their declarations -/

/-- A checked anchor is a landmark of its own unless it is repeated; what is
inside stays. -/
theorem landmarks_checkAnchor (ordinal : Nat) (inner : List Landmark)
    {id : Option String} {block : Block}
    (hkept : block.landmarks = id.toList.map .anchor ++ inner)
    (hinside : block.nestedLandmarks = inner) :
    Counted place (s.checkAnchor id block) place fun out =>
      out.landmarks = s.landmarks ordinal (Declaration.anchors id) ++ inner := by
  cases id with
  | none => exact .pure hkept
  | some id =>
      simp only [checkAnchor]
      by_cases hdup : s.index.anchors.isDuplicate id = true
      · rw [if_pos hdup]
        exact counted_invalidBlock (by
          simp [Block.landmarks, hinside, Declaration.anchors, landmarks, landmark?, hdup])
      · rw [if_neg hdup]
        exact .pure (by
          simp [hkept, Declaration.anchors, landmarks, landmark?, hdup])

theorem landmarks_finishCitation (label : String) (id : Option String)
    (content : List Block) :
    Counted place (s.finishCitation label id content) place fun out =>
      out.landmarks
        = (s.landmark? place (.citation label)).toList ++ Blocks.landmarks content := by
  unfold finishCitation
  by_cases hname : label = ""
  · rw [if_pos hname]
    exact counted_invalidBlock (by
      simp [Block.landmarks, Block.nestedLandmarks, landmark?, hname])
  · rw [if_neg hname]
    dsimp only
    by_cases hdup : s.index.citations.isDuplicate label = true
    · rw [if_pos hdup]
      exact counted_invalidBlock (by
        simp [Block.landmarks, Block.nestedLandmarks, landmark?, hdup])
    · rw [if_neg hdup]
      exact .pure (by simp [Block.landmarks, landmark?, hname, hdup])

theorem landmarks_finishFootnote (ordinal : Nat) (label : FootnoteLabel)
    (content : List Block) :
    Counted place (s.finishFootnote ordinal label content) place fun out =>
      out.landmarks
        = (s.landmark? ordinal (.footnote label)).toList
          ++ Blocks.landmarks content := by
  unfold finishFootnote
  cases hrepeated : s.repeatedFootnote? label with
  | some key =>
      exact counted_invalidBlock (by
        simp [Block.landmarks, Block.nestedLandmarks, landmark?, numbered?, hrepeated])
  | none =>
      cases hassigned : s.index.footnotes.definition ordinal with
      | some assigned =>
          exact .pure (by
            simp [Block.landmarks, landmark?, numbered?, hrepeated, hassigned])
      | none =>
          exact counted_invalidBlock (by
            simp [Block.landmarks, Block.nestedLandmarks, landmark?, numbered?,
              hrepeated, hassigned])

theorem LeavesInvalid.landmarks_eq {block : Block} {out : Option Block}
    (h : LeavesInvalid block out) (hnone : block.nestedLandmarks = []) :
    Blocks.landmarks out.toList = [] := by
  obtain rfl | ⟨problem, rfl⟩ := h
  · rfl
  · simp [Block.landmarks, hnone]

mutual

theorem landmarks_resolveBlock : ∀ (block : Block) (place : Nat),
    block.problems = [] → block.footnotes = [] →
    Counted place (s.resolveBlock block)
      (place + Declaration.footnoteCount block.declarations) fun out =>
        Blocks.landmarks out.toList = s.landmarks place block.declarations
  | .paragraph content, place, _, _ => by
      rw [resolveBlock]
      exact (uncounted_resolveSpans content place).map fun text _ => by
        simp [Block.declarations, landmarks, Block.landmarks]
  | .codeBlock _ _, _, _, _ | .rule, _, _, _ | .verbatim _ _, _, _, _
  | .decoratedHeader _, _, _, _ => by
      rw [resolveBlock]
      exact .pure (by simp [Block.declarations, landmarks, Block.landmarks])
  | .header header, place, _, _ => by
      rw [resolveBlock, Block.declarations, Declaration.footnoteCount_anchors]
      refine (uncounted_resolveSpans header.content place).bind fun text _ => ?_
      refine (landmarks_checkAnchor place [] ?_ ?_).map fun out hout => ?_
      · simp [Block.landmarks]
      · simp [Block.nestedLandmarks]
      · simpa using hout
  | .title title, place, _, _ => by
      rw [resolveBlock, Block.declarations, Declaration.footnoteCount_anchors]
      refine (uncounted_resolveSpans title.content place).bind fun text _ => ?_
      refine (landmarks_checkAnchor place [] ?_ ?_).map fun out hout => ?_
      · simp [Block.landmarks]
      · simp [Block.nestedLandmarks]
      · simpa using hout
  | .sectionOf header content, place, hclean, hraw => by
      simp at hclean hraw
      rw [resolveBlock, Block.declarations, landmarks_append,
        Declaration.footnoteCount_append, Declaration.footnoteCount_anchors,
        Nat.zero_add, Nat.add_zero]
      refine (uncounted_resolveSpans header.content place).bind fun text _ => ?_
      refine (landmarks_resolveBlocks content place hclean.2 hraw.2).bind
        fun content' hcontent => ?_
      refine (landmarks_checkAnchor place (Blocks.landmarks content') ?_ ?_).map
        fun out hout => ?_
      · rw [Block.landmarks]
      · rw [Block.nestedLandmarks]
      · rw [← hcontent, ← hout]
        exact Blocks.landmarks_singleton out
  | .quoted content, place, hclean, hraw => by
      simp at hclean hraw
      rw [resolveBlock, Block.declarations]
      exact (landmarks_resolveBlocks content place hclean hraw).map
        fun content' hcontent => by simpa [Block.landmarks] using hcontent
  | .anchor id, place, _, _ => by
      rw [resolveBlock]
      refine (landmarks_checkAnchor place [] ?_ ?_).map fun out hout => ?_
      · simp [Block.landmarks]
      · simp [Block.nestedLandmarks]
      · simpa [Block.declarations, Declaration.anchors] using hout
  | .linkDefinition definition, place, _, _ => by
      have hnone : s.landmarks place [.ofDefinition definition] = []
          ∧ Declaration.footnoteCount [.ofDefinition definition] = 0 := by
        unfold Declaration.ofDefinition
        split <;> exact ⟨rfl, rfl⟩
      rw [resolveBlock, Block.declarations, hnone.1, hnone.2]
      exact (counted_resolveDefinition definition).mono fun out hout =>
        hout.landmarks_eq (by simp [Block.nestedLandmarks])
  | .linkAlias indirection, place, _, _ => by
      rw [resolveBlock]
      exact (counted_resolveAlias indirection).mono fun out hout =>
        hout.landmarks_eq (by simp [Block.nestedLandmarks])
  | .citation label id content, place, hclean, hraw => by
      simp at hclean hraw
      rw [resolveBlock, Block.declarations]
      refine (landmarks_resolveBlocks content place hclean hraw).bind
        fun content' hcontent => ?_
      refine (landmarks_finishCitation label id content').map fun out hout => ?_
      rw [Option.toList_some, Blocks.landmarks_singleton, hout, hcontent, landmarks]
      rfl
  | .footnoteDefinition label content, place, hclean, hraw => by
      simp at hclean hraw
      have hnext : Counted place nextFootnote (place + 1) (· = place) :=
        fun st hst => ⟨congrArg (· + 1) hst, hst⟩
      have hcount : place + Declaration.footnoteCount
            (.footnote label :: Blocks.declarations content)
          = place + 1 + Declaration.footnoteCount (Blocks.declarations content) := by
        simp
        omega
      rw [resolveBlock, Block.declarations, hcount]
      refine hnext.bind fun ordinal hordinal => ?_
      subst hordinal
      refine (landmarks_resolveBlocks content (ordinal + 1) hclean hraw).bind
        fun content' hcontent => ?_
      refine (landmarks_finishFootnote ordinal label content').map fun out hout => ?_
      rw [Option.toList_some, Blocks.landmarks_singleton, hout, hcontent, landmarks]
      rfl
  | .footnote _ _ _, _, _, hraw => by simp at hraw
  | .reference kind source, place, _, _ => by
      rw [resolveBlock]
      exact (uncounted_resolveReference kind source place).map fun span _ => by
        simp [Block.declarations, landmarks, landmarks_blockOfSpan]
  | .invalid _ _, _, hclean, _ => by simp at hclean

/-- Blocks without invalid nodes and numbered footnotes become the landmarks
that their declarations stand for. -/
theorem landmarks_resolveBlocks : ∀ (blocks : List Block) (place : Nat),
    Blocks.problems blocks = [] → Blocks.footnotes blocks = [] →
    Counted place (s.resolveBlocks blocks)
      (place + Declaration.footnoteCount (Blocks.declarations blocks)) fun outs =>
        Blocks.landmarks outs = s.landmarks place (Blocks.declarations blocks)
  | [], _, _, _ => .pure rfl
  | block :: blocks, place, hclean, hraw => by
      simp at hclean hraw
      rw [resolveBlocks, Blocks.declarations, landmarks_append,
        Declaration.footnoteCount_append, ← Nat.add_assoc]
      refine (landmarks_resolveBlock block place hclean.1 hraw.1).bind
        fun out hout => ?_
      refine (landmarks_resolveBlocks blocks _ hclean.2 hraw.2).map
        fun outs houts => ?_
      rw [Blocks.landmarks_append, hout, houts]

end

end Scope

/-! ## Within a kind no id occurs twice -/

/-- Names that are not repeated occur once. -/
theorem Namespace.nodup_filter_isDuplicate (names : List String) :
    (names.filter fun name => !(ofNames names).isDuplicate name).Nodup := by
  refine List.nodup_iff_count_le_one.mpr fun name => ?_
  by_cases hdup : (ofNames names).isDuplicate name = true
  · have hnone : name ∉ names.filter fun name => !(ofNames names).isDuplicate name := by
      simp [hdup]
    rw [List.count_eq_zero_of_not_mem hnone]
    exact Nat.zero_le 1
  · have honce : ¬ 2 ≤ names.count name := by
      rwa [isDuplicate_iff, length_values_ofNames] at hdup
    rw [List.count_filter (by simpa using hdup)]
    omega

/-- The ids of footnotes share their first characters. -/
theorem FootnoteEntry.Numbered.id_eq {displayed symbols : Nat} {e : FootnoteEntry}
    {a : NumberedFootnote} (h : e.Numbered displayed symbols)
    (ha : e.assigned = some a) : ∃ rest, a.id = "__fn" ++ rest := by
  cases h with
  | nameless => cases ha
  | @numeric number =>
      cases ha
      exact ⟨"-" ++ toString number, by
        simp [NumberedFootnote.numeric, ← String.append_assoc]⟩
  | @autonumber display =>
      cases ha
      exact ⟨"auto-" ++ toString display, by
        simp [NumberedFootnote.autonumber, ← String.append_assoc]⟩
  | @labelled label display =>
      cases ha
      exact ⟨"l-" ++ label, by
        simp [NumberedFootnote.labelled, ← String.append_assoc]⟩
  | @autosymbol position =>
      cases ha
      exact ⟨"s-" ++ toString (position + 1), by
        simp [NumberedFootnote.symbol, ← String.append_assoc]⟩

namespace Scope

variable {s : Scope} {declarations : List Declaration}

theorem filterMap_landmarks {f : Landmark → Option String}
    {g : Declaration → Option String}
    (h : ∀ place declaration, (s.landmark? place declaration).bind f = g declaration)
    (declarations : List Declaration) (place : Nat) :
    (s.landmarks place declarations).filterMap f = declarations.filterMap g := by
  induction declarations generalizing place with
  | nil => rfl
  | cons declaration declarations ih =>
      rw [landmarks, List.filterMap_append, ih, List.filterMap_cons,
        ← h place declaration]
      cases s.landmark? place declaration with
      | none => rfl
      | some landmark => cases hf : f landmark <;> simp [hf]

theorem anchors_landmarks (declarations : List Declaration) (place : Nat) :
    (s.landmarks place declarations).filterMap Landmark.anchor?
      = (declarations.filterMap Declaration.anchor?).filter fun id =>
          !s.index.anchors.isDuplicate id := by
  rw [List.filter_filterMap]
  refine filterMap_landmarks (fun place declaration => ?_) declarations place
  cases declaration with
  | anchor id =>
      by_cases hdup : s.index.anchors.isDuplicate id = true <;>
        simp [landmark?, hdup, Landmark.anchor?, Declaration.anchor?, Option.filter]
  | citation label =>
      by_cases hname : label = "" ∨ s.index.citations.isDuplicate label = true <;>
        simp [landmark?, hname, Landmark.anchor?, Declaration.anchor?]
  | footnote label =>
      cases hnumbered : s.numbered? place label <;>
        simp [landmark?, hnumbered, Landmark.anchor?, Declaration.anchor?]
  | _ => rfl

theorem citations_landmarks (declarations : List Declaration) (place : Nat) :
    (s.landmarks place declarations).filterMap Landmark.citation?
      = (((declarations.filterMap Declaration.citation?).filter fun label =>
          !s.index.citations.isDuplicate label).filter (· ≠ "")).map
            ("__cit-" ++ ·) := by
  rw [List.filter_filterMap, List.filter_filterMap, List.map_filterMap]
  refine filterMap_landmarks (fun place declaration => ?_) declarations place
  cases declaration with
  | anchor id =>
      by_cases hdup : s.index.anchors.isDuplicate id = true <;>
        simp [landmark?, hdup, Landmark.citation?, Declaration.citation?]
  | citation label =>
      by_cases hdup : s.index.citations.isDuplicate label = true
      · simp [landmark?, hdup, Declaration.citation?, Option.filter]
      · by_cases hname : label = "" <;>
          simp_all [landmark?, Landmark.citation?, Declaration.citation?, Option.filter]
  | footnote label =>
      cases hnumbered : s.numbered? place label <;>
        simp [landmark?, hnumbered, Landmark.citation?, Declaration.citation?]
  | _ => rfl

theorem footnotes_landmarks (declarations : List Declaration) (place : Nat) :
    (s.landmarks place declarations).filterMap Landmark.footnote?
      = ((s.notes place declarations).filterMap Note.footnote?).map
          NumberedFootnote.id := by
  induction declarations generalizing place with
  | nil => rfl
  | cons declaration declarations ih =>
      rw [landmarks, List.filterMap_append, ih]
      cases declaration with
      | anchor id =>
          by_cases hdup : s.index.anchors.isDuplicate id = true <;>
            simp [landmark?, notes, hdup, Landmark.footnote?]
      | citation label =>
          by_cases hname : label = "" ∨ s.index.citations.isDuplicate label = true <;>
            cases hid : citationId label none <;>
              simp [landmark?, notes, hname, hid, List.filterMap_cons,
                Landmark.footnote?, Note.footnote?]
      | footnote label =>
          cases hnumbered : s.numbered? place label <;>
            simp [landmark?, notes, hnumbered, Landmark.footnote?, Note.footnote?]
      | _ => simp [landmark?, notes]

/-- The footnotes among the landmarks of a document are those that are not
repeated. -/
theorem footnotes_landmarks_eq (hindex : s.index = .ofDeclarations declarations) :
    (s.landmarks 0 declarations).filterMap Landmark.footnote?
      = s.usableFootnotes.map NumberedFootnote.id := by
  rw [footnotes_landmarks, footnotes_notes_eq hindex]

theorem id_eq_of_mem_usableFootnotes (hindex : s.index = .ofDeclarations declarations)
    {footnote : NumberedFootnote} (h : footnote ∈ s.usableFootnotes) :
    ∃ rest, footnote.id = "__fn" ++ rest := by
  obtain ⟨e, he, husable⟩ := List.mem_filterMap.mp h
  rw [hindex] at he
  exact (numbered_of_mem he).id_eq (usable?_eq_some.mp husable).2

/-- Only an anchor and a note of the landmarks can share an id, and that anchor
is declared with an id that starts with an underscore. -/
theorem pairwise_landmarks (hindex : s.index = .ofDeclarations declarations) :
    (s.landmarks 0 declarations).Pairwise fun a b => a.id = b.id →
      a.isAnchor ≠ b.isAnchor
        ∧ a.id ∈ declarations.filterMap Declaration.anchor?
        ∧ a.id.toList.head? = some '_' := by
  have hanchors := anchors_landmarks (s := s) declarations 0
  have hcitations := citations_landmarks (s := s) declarations 0
  have hfootnotes := footnotes_landmarks_eq hindex
  have hmem : ∀ {f : Landmark → Option String} {id : String} {landmark : Landmark},
      landmark ∈ s.landmarks 0 declarations → f landmark = some id →
        id ∈ (s.landmarks 0 declarations).filterMap f :=
    fun hmem hf => List.mem_filterMap.mpr ⟨_, hmem, hf⟩
  have hcitation : ∀ id, .citation id ∈ s.landmarks 0 declarations →
      ∃ label, id = "__cit-" ++ label := by
    intro id hid
    have hlisted := hmem (f := Landmark.citation?) hid rfl
    rw [hcitations] at hlisted
    obtain ⟨label, -, rfl⟩ := List.mem_map.mp hlisted
    exact ⟨label, rfl⟩
  have hfootnote : ∀ id, .footnote id ∈ s.landmarks 0 declarations →
      ∃ rest, id = "__fn" ++ rest := by
    intro id hid
    have hlisted := hmem (f := Landmark.footnote?) hid rfl
    rw [hfootnotes] at hlisted
    obtain ⟨footnote, husable, rfl⟩ := List.mem_map.mp hlisted
    exact id_eq_of_mem_usableFootnotes hindex husable
  refine Landmark.pairwise_of_kinds
    (P := fun id => id ∈ declarations.filterMap Declaration.anchor?
      ∧ id.toList.head? = some '_') ?_ ?_ ?_ ?_ ?_
  · rw [hanchors, hindex]
    exact Namespace.nodup_filter_isDuplicate _
  · -- labels that occur once make ids that occur once
    rw [hcitations, hindex]
    refine ((Namespace.nodup_filter_isDuplicate _).filter _).map fun a b heq => ?_
    exact (String.append_right_inj "__cit-").mp heq
  · rw [hfootnotes]
    exact List.pairwise_map.mpr (pairwise_usableFootnotes hindex)
  · -- a citation and a footnote differ in the third character
    intro id hcited hnoted
    obtain ⟨label, rfl⟩ := hcitation id hcited
    obtain ⟨rest, heq⟩ := hfootnote _ hnoted
    have hchars := congrArg String.toList heq
    simp at hchars
  · -- nothing is checked between an anchor and a note
    intro id hid hnote
    have hlisted := hmem (f := Landmark.anchor?) hid rfl
    rw [hanchors] at hlisted
    refine ⟨List.mem_of_mem_filter hlisted, ?_⟩
    rcases hnote with hcited | hnoted
    · obtain ⟨label, rfl⟩ := hcitation id hcited
      simp
    · obtain ⟨rest, rfl⟩ := hfootnote id hnoted
      simp

end Scope

/-! ## Documents -/

namespace Document

variable {d : Document}

/-- Both passes leave the landmarks that the declarations of the document stand
for. -/
theorem landmarks_finished_eq (tree : TreeIndex) (hclean : Blocks.problems d.content = [])
    (hraw : Blocks.footnotes d.content = []) :
    Blocks.landmarks (d.finished tree).content
      = d.firstScope.landmarks 0 (Blocks.declarations d.outlined.content) := by
  have hclean' : Blocks.problems d.outlined.content = [] :=
    (Blocks.problems_buildOutline _ _).trans hclean
  have hraw' : Blocks.footnotes d.outlined.content = [] :=
    (Blocks.collect_buildOutline (Node.forall_isHeading (fun _ => rfl)
      (fun _ => rfl) (fun _ => rfl) fun _ _ => rfl) _ _ _).trans hraw
  rw [landmarks_finished tree hclean]
  exact (Scope.landmarks_resolveBlocks (s := d.firstScope) d.outlined.content 0
    hclean' hraw' {} rfl).2

/-- An anchor of the outline whose id starts with an underscore is written in
the document. -/
theorem mem_writtenAnchors {id : String}
    (hdeclared : id ∈ (Blocks.declarations d.outlined.content).filterMap
      Declaration.anchor?) (hid : id.toList.head? = some '_') :
    id ∈ Blocks.writtenAnchors d.content := by
  rw [Blocks.filterMap_declarations] at hdeclared
  have hlisted := (Blocks.declaredAnchors_buildOutline _ d.content).subset hdeclared
  refine (List.mem_append.mp hlisted).resolve_right fun hderived => ?_
  obtain ⟨c, hhead, hc⟩ := (Leveling.isSlug_newIds _ d.content id hderived).head?
  obtain rfl := Option.some.inj (hid.symm.trans hhead)
  exact absurd hc (by decide)

theorem pairwise_landmarks (tree : TreeIndex) (hclean : Blocks.problems d.content = [])
    (hraw : Blocks.footnotes d.content = []) :
    (Blocks.landmarks (d.finished tree).content).Pairwise fun a b => a.id = b.id →
      a.isAnchor ≠ b.isAnchor ∧ a.id ∈ Blocks.writtenAnchors d.content := by
  rw [landmarks_finished_eq tree hclean hraw]
  refine (Scope.pairwise_landmarks rfl).imp fun hpair hid => ?_
  obtain ⟨hkinds, hdeclared, hstart⟩ := hpair hid
  exact ⟨hkinds, mem_writtenAnchors hdeclared hstart⟩

end Document

namespace DocumentRoot

/-- The fragments that the index of the tree accepts for a document are the ids
of its landmarks in the end. Two landmarks share an id only if one of them is
an anchor that is written with this id and the other one a footnote or a
citation. -/
theorem resolve_landmarks (r : DocumentRoot) (workers : Nat) :
    List.Forall₂
      (fun d final =>
        Blocks.problems d.content = [] → Blocks.footnotes d.content = [] →
          (TreeIndex.summarize d.settled).anchors
              = (Blocks.landmarks final.content).map Landmark.id
            ∧ (Blocks.landmarks final.content).Pairwise fun a b => a.id = b.id →
              a.isAnchor ≠ b.isAnchor ∧ a.id ∈ Blocks.writtenAnchors d.content)
      r.documents (r.resolve workers).root.documents := by
  rw [documents_resolve]
  refine List.forall₂_map_right_iff.mpr
    (List.forall₂_same.mpr fun d _ hclean hraw => ⟨?_, ?_⟩)
  · rw [Document.landmarks_finished r.settledIndex hclean, Blocks.ids_landmarks]
    rfl
  · exact Document.pairwise_landmarks r.settledIndex hclean hraw

/-- An anchor with the id that the first footnote gets. -/
def buoys : DocumentRoot where
  cover := none
  staticDocuments := []
  tree := ⟨.root, .initial, none,
    [.document ⟨⟨["a.md"], none⟩, .initial,
      [.anchor "__fn-1", .footnoteDefinition (.numeric 1) [.anchor "red"]]⟩]⟩

/-- Both can be linked to, by the same fragment. -/
theorem usableAnchors_buoys :
    (∀ d ∈ buoys.documents,
        Blocks.problems d.content = [] ∧ Blocks.footnotes d.content = [])
      ∧ ((buoys.resolve 2).root.documents.map fun d => Blocks.usableAnchors d.content)
        = [["__fn-1", "__fn-1", "red"]]
      ∧ ¬ ∀ d ∈ (buoys.resolve 2).root.documents,
          (Blocks.usableAnchors d.content).Nodup := by
  have hanchors : ((buoys.resolve 2).root.documents.map fun d =>
      Blocks.usableAnchors d.content) = [["__fn-1", "__fn-1", "red"]] := by
    rw [documents_resolve]
    rfl
  refine ⟨List.forall_mem_singleton.mpr ⟨rfl, rfl⟩, hanchors, fun hall => ?_⟩
  have hnodup : ∀ anchors ∈ (buoys.resolve 2).root.documents.map fun d =>
      Blocks.usableAnchors d.content, anchors.Nodup := List.forall_mem_map.mpr hall
  rw [hanchors] at hnodup
  exact absurd (hnodup _ List.mem_cons_self) (by decide)

/-- What shares it there is an anchor that is written so, and a footnote. -/
theorem resolve_landmarks_buoys :
    (buoys.documents.map fun d => Blocks.writtenAnchors d.content)
        = [["__fn-1", "red"]]
      ∧ ((buoys.resolve 2).root.documents.map fun d => Blocks.landmarks d.content)
        = [[.anchor "__fn-1", .footnote "__fn-1", .anchor "red"]]
      ∧ ∀ final ∈ (buoys.resolve 2).root.documents,
          (Blocks.landmarks final.content).Pairwise fun a b => a.id = b.id →
            a.isAnchor ≠ b.isAnchor ∧ a.id ∈ ["__fn-1", "red"] := by
  have hall := resolve_landmarks buoys 2
  rw [documents_resolve] at hall ⊢
  refine ⟨rfl, rfl, List.forall_mem_singleton.mpr ?_⟩
  exact ((List.forall₂_cons.mp hall).1 rfl rfl).2

end DocumentRoot

end Crosslink

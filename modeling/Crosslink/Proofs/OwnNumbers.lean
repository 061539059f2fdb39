import Crosslink.Proofs.Pairing

/-!
# Which number a footnote gets

The index numbers the footnote definitions that it lists, and a pass gives these
numbers one by one to the definitions that it comes to. So a definition gets the
number of the label that is listed at its place (`Scope.run_numbers`), and this is
the number of its own label just if its own label is listed there, since no number
belongs to two labels (`FootnoteLabel.Gets.label_eq`).

The pass comes to the listed definitions in the order of the list but leaves out
those inside an invalid quote or footnote (`Blocks.labelsHidden`). Where there are
none, every definition gets the number of its own label. One of them shifts the
numbers of all definitions after it (`run_driftNotes`).
-/

namespace Crosslink

/-! ## The numbers of a label -/

/-- What a definition with the label may be numbered as. -/
inductive FootnoteLabel.Gets : FootnoteLabel → NumberedFootnote → Prop
  | numeric {number : Nat} : Gets (.numeric number) (.numeric number)
  | autonumber {display : Nat} : Gets .autonumber (.autonumber display)
  | labelled {label : String} {display : Nat} :
      Gets (.labelled label) (.labelled label display)
  | autosymbol {position : Nat} : Gets .autosymbol (.symbol position)

/-- No number belongs to two labels. -/
theorem FootnoteLabel.Gets.label_eq {label label' : FootnoteLabel}
    {footnote : NumberedFootnote} (h : label.Gets footnote)
    (h' : label'.Gets footnote) : label = label' := by
  generalize hsame : footnote = footnote' at h'
  have hid : footnote.id = footnote'.id := congrArg NumberedFootnote.id hsame
  have hmark := NumberedFootnote.mark_eq hid
  cases h with
  | numeric =>
    cases h' with
    | numeric =>
      rw [Nat.repr_injective ((String.append_right_inj "__fn-").mp hid)]
    | _ => simp at hmark
  | labelled =>
    cases h' with
    | labelled => rw [(String.append_right_inj "__fnl-").mp hid]
    | _ => simp at hmark
  | autonumber =>
    cases h' with
    | autonumber => rfl
    | _ => simp at hmark
  | autosymbol =>
    cases h' with
    | autosymbol => rfl
    | _ => simp at hmark

theorem FootnoteEntry.Numbered.gets {displayed symbols : Nat} {e : FootnoteEntry}
    (h : e.Numbered displayed symbols) {footnote : NumberedFootnote}
    (hassigned : e.assigned = some footnote) : e.label.Gets footnote := by
  cases h with
  | nameless => cases hassigned
  | numeric => cases hassigned; exact .numeric
  | autonumber => cases hassigned; exact .autonumber
  | labelled => cases hassigned; exact .labelled
  | autosymbol => cases hassigned; exact .autosymbol

/-! ## The definitions listed -/

/-- The labels of the footnote definitions that the index lists. -/
abbrev Blocks.labelsListed (blocks : List Block) : List FootnoteLabel :=
  (Blocks.declarations blocks).filterMap Declaration.footnote?

/-- What the index has at a place is a number of the label listed there. -/
theorem Scope.gets_of_definition {s : Scope} {declarations : List Declaration}
    (hindex : s.index = .ofDeclarations declarations) {place : Nat}
    {footnote : NumberedFootnote}
    (h : s.index.footnotes.definition place = some footnote) :
    ∃ label, (declarations.filterMap Declaration.footnote?)[place]? = some label
      ∧ label.Gets footnote := by
  obtain ⟨e, hat, hassigned⟩ := Option.bind_eq_some_iff.mp h
  refine ⟨e.label, ?_, ?_⟩
  · rw [← labels_entries hindex, List.getElem?_map, hat]
    rfl
  · have hmem := List.mem_of_getElem? hat
    rw [hindex] at hmem
    exact (numbered_of_mem hmem).gets hassigned

mutual

/-- The labels of the definitions that the index lists and a pass does not come
to. -/
def Block.labelsHidden : Block → List FootnoteLabel
  | .footnoteDefinition _ content => Blocks.labelsHidden content
  | .sectionOf _ content => Blocks.labelsHidden content
  | .quoted content => Blocks.labelsHidden content
  | .citation _ _ content => Blocks.labelsHidden content
  | .footnote _ _ content => Blocks.labelsHidden content
  | .invalid fallback _ => fallback.labelsHiddenInside
  | _ => []

/-- The same for the fallback of an invalid block: all in a quote or a footnote are
hidden. -/
def Block.labelsHiddenInside : Block → List FootnoteLabel
  | .citation _ _ content => Blocks.labelsHidden content
  | .footnoteDefinition _ content => Blocks.labelsHidden content
  | .sectionOf _ content => Blocks.labelsHidden content
  | .quoted content => Blocks.labelsListed content
  | .footnote _ _ content => Blocks.labelsListed content
  | _ => []

def Blocks.labelsHidden : List Block → List FootnoteLabel
  | [] => []
  | block :: blocks => block.labelsHidden ++ Blocks.labelsHidden blocks

end

/-- What is listed is met, in this order, or hidden. -/
structure Splits (listed met hidden : List FootnoteLabel) : Prop where
  sublist : met.Sublist listed
  length : listed.length = met.length + hidden.length

namespace Splits

variable {listed listed' met met' hidden hidden' : List FootnoteLabel}

theorem none : Splits [] [] [] := ⟨.slnil, rfl⟩

theorem all_hidden (listed : List FootnoteLabel) : Splits listed [] listed :=
  ⟨List.nil_sublist listed, (Nat.zero_add _).symm⟩

theorem cons (label : FootnoteLabel) (h : Splits listed met hidden) :
    Splits (label :: listed) (label :: met) hidden :=
  ⟨h.sublist.cons_cons label, by simp [h.length]; omega⟩

theorem append (h : Splits listed met hidden) (h' : Splits listed' met' hidden') :
    Splits (listed ++ listed') (met ++ met') (hidden ++ hidden') :=
  ⟨h.sublist.append h'.sublist, by simp [h.length, h'.length]; omega⟩

theorem met_eq_iff (h : Splits listed met hidden) : met = listed ↔ hidden = [] := by
  constructor
  · rintro rfl
    exact List.length_eq_zero_iff.mp (Nat.left_eq_add.mp h.length)
  · rintro rfl
    exact h.sublist.eq_of_length h.length.symm

end Splits

mutual

theorem Block.splits : ∀ block : Block,
    Splits (block.declarations.filterMap Declaration.footnote?) block.labelsMet
      block.labelsHidden
  | .footnoteDefinition label content => by
    rw [Block.declarations, Block.labelsMet, Block.labelsHidden]
    exact (Blocks.splits content).cons label
  | .sectionOf header content => by
    rw [Block.declarations, Block.labelsMet, Block.labelsHidden,
      List.filterMap_append, Declaration.footnote?_anchors]
    exact Blocks.splits content
  | .quoted content | .footnote _ _ content | .citation _ _ content => by
    rw [Block.declarations, Block.labelsMet, Block.labelsHidden]
    exact Blocks.splits content
  | .invalid fallback _ => by
    rw [Block.declarations, Block.labelsMet, Block.labelsHidden]
    exact fallback.splitsInside
  | .header header => by
    rw [Block.declarations, Declaration.footnote?_anchors]
    exact .none
  | .title title => by
    rw [Block.declarations, Declaration.footnote?_anchors]
    exact .none
  | .linkDefinition definition => by
    rw [Block.declarations, Declaration.footnote?_ofDefinition]
    exact .none
  | .paragraph _ | .codeBlock _ _ | .rule | .verbatim _ _ | .decoratedHeader _
  | .anchor _ | .linkAlias _ | .reference _ _ => .none

theorem Block.splitsInside : ∀ block : Block,
    Splits (block.nestedDeclarations.filterMap Declaration.footnote?)
      block.labelsMetInside block.labelsHiddenInside
  | .citation _ _ content | .footnoteDefinition _ content | .sectionOf _ content => by
    rw [Block.nestedDeclarations, Block.labelsMetInside, Block.labelsHiddenInside]
    exact Blocks.splits content
  | .quoted content | .footnote _ _ content => .all_hidden (Blocks.labelsListed content)
  | .paragraph _ | .codeBlock _ _ | .rule | .verbatim _ _ | .decoratedHeader _
  | .header _ | .title _ | .anchor _ | .linkDefinition _ | .linkAlias _
  | .reference _ _ | .invalid _ _ => .none

/-- Of the definitions that the index lists, a pass comes to those that are not
hidden, in the order of the list. -/
theorem Blocks.splits : ∀ blocks : List Block,
    Splits (Blocks.labelsListed blocks) (Blocks.labelsMet blocks)
      (Blocks.labelsHidden blocks)
  | [] => .none
  | block :: blocks => by
    rw [Blocks.labelsListed, Blocks.declarations, List.filterMap_append,
      Blocks.labelsMet, Blocks.labelsHidden]
    exact block.splits.append (Blocks.splits blocks)

end

/-! ## The numbers given -/

namespace Scope

variable {s : Scope}

theorem FinishesFootnote.definition_eq {place : Nat} {label : FootnoteLabel}
    {content : List Block} {out : Block} {problems : List Problem}
    (h : s.FinishesFootnote place label content out problems)
    {footnote : NumberedFootnote} {inner : List Block}
    (hout : out = .footnote footnote.id footnote.label inner) :
    s.index.footnotes.definition place = some footnote := by
  cases h with
  | repeated => cases hout
  | nameless => cases hout
  | @numbered assigned _ hat =>
    obtain ⟨id, label⟩ := assigned
    cases hout
    exact hat

/-- A pass finishes the definitions that it comes to one by one. -/
theorem finishes_run (s : Scope) (blocks : List Block) :
    ∃ meetings, Blocks.Met blocks ((s.indexing blocks).run blocks).1 meetings
      ∧ ∀ (place : Nat) (noted : Noted),
        (meetings.filterMap Meeting.noted?)[place]? = some noted →
          ∃ problems, (s.indexing blocks).FinishesFootnote place noted.label
            noted.content noted.out problems := by
  have hstart : (s.indexing blocks).Sound (Blocks.declarations blocks) {} :=
    ⟨cacheSound_nil _, fun scheme => by cases scheme <;> exact (Nat.zero_sub _).symm⟩
  obtain ⟨-, meetings, hcourse, hmet⟩ := meets_resolveBlocks rfl blocks {} hstart
  refine ⟨meetings, hmet, fun place noted hnoted => ?_⟩
  have hfirst : (PassState.tally {}).definitions + place = place := Nat.zero_add place
  exact hfirst ▸ hcourse.finishes hnoted

/-- What the definitions get that a pass comes to and makes a footnote of. -/
structure NumbersInOrder (s : Scope) (blocks : List Block) (meetings : List Meeting) :
    Prop where
  /-- The definitions met are those listed, without the hidden ones. -/
  met : Splits (Blocks.labelsListed blocks) (Meeting.labels meetings)
    (Blocks.labelsHidden blocks)
  /-- The definition at a place gets a number of the label that is listed at this
  place. -/
  listed : ∀ (place : Nat) (noted : Noted) (footnote : NumberedFootnote)
      (inner : List Block),
    (meetings.filterMap Meeting.noted?)[place]? = some noted →
      noted.out = .footnote footnote.id footnote.label inner →
        s.index.footnotes.definition place = some footnote
          ∧ ∃ label, (Blocks.labelsListed blocks)[place]? = some label
            ∧ label.Gets footnote
  /-- That is a number of its own label just if its own label is listed there. -/
  own_iff : ∀ (place : Nat) (noted : Noted) (footnote : NumberedFootnote)
      (inner : List Block),
    (meetings.filterMap Meeting.noted?)[place]? = some noted →
      noted.out = .footnote footnote.id footnote.label inner →
        (noted.label.Gets footnote
          ↔ (Blocks.labelsListed blocks)[place]? = some noted.label)
  /-- If no definition is hidden, each gets a number of its own label. -/
  own : Blocks.labelsHidden blocks = [] →
    ∀ (noted : Noted) (footnote : NumberedFootnote) (inner : List Block),
      .definition noted ∈ meetings →
        noted.out = .footnote footnote.id footnote.label inner →
          noted.label.Gets footnote

/-- A footnote definition gets the number of the label that the index lists at its
place; and of its own label, if none stands in an invalid quote or footnote. -/
theorem run_numbers (s : Scope) (blocks : List Block) :
    ∃ meetings, Blocks.Met blocks ((s.indexing blocks).run blocks).1 meetings
      ∧ (s.indexing blocks).NumbersInOrder blocks meetings := by
  obtain ⟨meetings, hmet, hfinishes⟩ := s.finishes_run blocks
  have hindex : (s.indexing blocks).index
      = .ofDeclarations (Blocks.declarations blocks) := rfl
  have hsplits : Splits (Blocks.labelsListed blocks) (Meeting.labels meetings)
      (Blocks.labelsHidden blocks) := hmet.labels_eq ▸ Blocks.splits blocks
  have hdefinition : ∀ (place : Nat) (noted : Noted) (footnote : NumberedFootnote)
      (inner : List Block),
      (meetings.filterMap Meeting.noted?)[place]? = some noted →
        noted.out = .footnote footnote.id footnote.label inner →
          (s.indexing blocks).index.footnotes.definition place = some footnote := by
    intro place noted footnote inner hnoted hout
    obtain ⟨_, hfinish⟩ := hfinishes place noted hnoted
    exact hfinish.definition_eq hout
  have hown : ∀ (place : Nat) (noted : Noted) (footnote : NumberedFootnote)
      (inner : List Block),
      (meetings.filterMap Meeting.noted?)[place]? = some noted →
        noted.out = .footnote footnote.id footnote.label inner →
          (noted.label.Gets footnote
            ↔ (Blocks.labelsListed blocks)[place]? = some noted.label) := by
    intro place noted footnote inner hnoted hout
    obtain ⟨label, hlabel, hgets⟩ :=
      gets_of_definition hindex (hdefinition place noted footnote inner hnoted hout)
    constructor
    · intro hself
      rw [hself.label_eq hgets]
      exact hlabel
    · intro hself
      obtain rfl := Option.some.inj (hself.symm.trans hlabel)
      exact hgets
  refine ⟨meetings, hmet, hsplits, fun place noted footnote inner hnoted hout => ?_,
    hown, fun hnone noted footnote inner hmem hout => ?_⟩
  · have hat := hdefinition place noted footnote inner hnoted hout
    exact ⟨hat, gets_of_definition hindex hat⟩
  · have hnoted : noted ∈ meetings.filterMap Meeting.noted? :=
      List.mem_filterMap.mpr ⟨.definition noted, hmem, rfl⟩
    obtain ⟨place, hplace⟩ := List.mem_iff_getElem?.mp hnoted
    refine (hown place noted footnote inner hplace hout).mpr ?_
    rw [← hsplits.met_eq_iff.mpr hnone, Meeting.labels, List.getElem?_map, hplace]
    rfl

/-- A numbered definition in an invalid quote, and another one after it. -/
def driftNotes : List Block :=
  [.invalid (.quoted [.footnoteDefinition (.numeric 1) []]) ⟨.unresolved, "adrift"⟩,
    .footnoteDefinition (.numeric 2) []]

/-- The second definition gets the number of the first. -/
theorem run_driftNotes :
    (quay.indexing driftNotes).run driftNotes
        = ([.invalid (.quoted [.footnoteDefinition (.numeric 1) []])
              ⟨.unresolved, "adrift"⟩,
            .footnote "__fn-1" "1" []], [])
      ∧ ¬(FootnoteLabel.numeric 2).Gets ⟨"__fn-1", "1"⟩ := by
  refine ⟨rfl, fun hgets => ?_⟩
  have hone : (FootnoteLabel.numeric 1).Gets ⟨"__fn-1", "1"⟩ := .numeric
  cases hgets.label_eq hone

end Scope

end Crosslink

import Crosslink.Proofs.Counting
import Crosslink.Proofs.Numbering

/-!
# Pairing by position

Three kinds of references name no target: references without an id, and
references to plain auto-numbered and to auto-symbol footnotes. In each of
these schemes the references go with the definitions one by one.
`Scheme.definitions` lists the definitions of a scheme among the declarations of
a document, each with its place among the footnotes that are declared, since it
is by that place that a footnote is numbered. The index holds the same
definitions in the same order (`Scope.anonymous_eq_definitions`,
`Scope.assignedTo_eq_definitions`), so the reference that asks for position `k`
takes the definition at position `k` (`Scope.Takes`).
-/

namespace Crosslink

/-! ## Schemes -/

/-- The ways in which references go with definitions by position. -/
inductive Scheme where
  | anonymous
  | autonumber
  | autosymbol
deriving DecidableEq

namespace Scheme

/-- Why a reference after the last definition fails. -/
def exhausted : Scheme → Failure
  | anonymous => .anonymousExhausted
  | autonumber => .autonumbersExhausted
  | autosymbol => .autosymbolsExhausted

/-- The kind under which such a reference is reported. -/
def kind : Scheme → ProblemKind
  | anonymous => .tooManyAnonymous
  | autonumber => .tooManyAutonumber
  | autosymbol => .tooManyAutosymbol

@[simp] theorem kind_exhausted (scheme : Scheme) :
    scheme.exhausted.problem.kind = scheme.kind := by
  cases scheme <;> rfl

theorem kind_inj {scheme other : Scheme} (h : scheme.kind = other.kind) :
    scheme = other := by
  cases scheme <;> cases other <;> first | rfl | cases h

end Scheme

def FootnoteLabel.scheme? : FootnoteLabel → Option Scheme
  | .autonumber => some .autonumber
  | .autosymbol => some .autosymbol
  | .labelled _ => none
  | .numeric _ => none

/-- The scheme of a reference, if it is paired by position. -/
def ReferenceKind.scheme? : ReferenceKind → Option Scheme
  | .linkId _ id => if id = "" then some .anonymous else none
  | .imageId _ id => if id = "" then some .anonymous else none
  | .footnote label => label.scheme?
  | .citation _ => none
  | .imagePath _ _ _ => none
  | .linkPath _ _ _ => none

/-- The scheme of a definition. -/
def Declaration.scheme? : Declaration → Option Scheme
  | .anonymous _ => some .anonymous
  | .footnote label => label.scheme?
  | .anchor _ => none
  | .citation _ => none
  | .definition _ _ => none

theorem FootnoteLabel.scheme?_ne_anonymous (label : FootnoteLabel) :
    label.scheme? ≠ some .anonymous := by
  cases label <;> exact nofun

/-- A footnote scheme has one label. -/
theorem FootnoteLabel.scheme?_inj {label other : FootnoteLabel} {scheme : Scheme}
    (h : label.scheme? = some scheme) (h' : other.scheme? = some scheme) :
    label = other := by
  cases label <;> cases h <;> cases other <;> cases h' <;> rfl

theorem Declaration.eq_footnote {declaration : Declaration} {label : FootnoteLabel}
    {scheme : Scheme} (hlabel : label.scheme? = some scheme)
    (h : declaration.scheme? = some scheme) : declaration = .footnote label := by
  cases declaration with
  | anonymous defined =>
      cases h
      exact absurd hlabel label.scheme?_ne_anonymous
  | footnote other => rw [FootnoteLabel.scheme?_inj h hlabel]
  | _ => cases h

/-! ## Definitions and their places -/

/-- A declaration and how many footnotes are declared before it. -/
structure Placed where
  place : Nat
  declaration : Declaration
deriving DecidableEq

namespace Declaration

/-- The declarations with their places, if `place` footnotes are declared before
them. -/
def placed (place : Nat) : List Declaration → List Placed
  | [] => []
  | declaration :: declarations =>
    ⟨place, declaration⟩
      :: placed (place + if declaration.isFootnote then 1 else 0) declarations

end Declaration

namespace Scheme

variable (scheme : Scheme)

/-- The definitions of a scheme in the order in which they are declared, if
`place` footnotes are declared before them. -/
def definitionsFrom (place : Nat) (declarations : List Declaration) : List Placed :=
  (Declaration.placed place declarations).filter fun placed =>
    placed.declaration.scheme? = some scheme

abbrev definitions (declarations : List Declaration) : List Placed :=
  scheme.definitionsFrom 0 declarations

theorem definitionsFrom_cons (place : Nat) (declaration : Declaration)
    (declarations : List Declaration) :
    scheme.definitionsFrom place (declaration :: declarations)
      = (if declaration.scheme? = some scheme then [⟨place, declaration⟩] else [])
        ++ scheme.definitionsFrom (place + if declaration.isFootnote then 1 else 0)
          declarations := by
  rw [definitionsFrom, Declaration.placed, List.filter_cons]
  by_cases h : declaration.scheme? = some scheme
  · rw [if_pos h, if_pos (decide_eq_true h)]
    rfl
  · rw [if_neg h, if_neg (by simpa using h)]
    rfl

variable {scheme}

theorem scheme?_of_mem {place : Nat} {declarations : List Declaration} {placed : Placed}
    (h : placed ∈ scheme.definitionsFrom place declarations) :
    placed.declaration.scheme? = some scheme := by
  simpa using (List.mem_filter.mp h).2

end Scheme

/-- The place of a footnote leads to its label among the labels declared. -/
theorem Declaration.label_of_placed {declarations : List Declaration}
    {start place : Nat} {label : FootnoteLabel}
    (h : ⟨place, .footnote label⟩ ∈ placed start declarations) :
    ∃ k, place = start + k
      ∧ (declarations.filterMap footnote?)[k]? = some label := by
  induction declarations generalizing start with
  | nil => cases h
  | cons declaration declarations ih =>
      rcases List.mem_cons.mp h with heq | hrest
      · obtain ⟨rfl, rfl⟩ := Placed.mk.inj heq
        exact ⟨0, rfl, rfl⟩
      · obtain ⟨k, rfl, hk⟩ := ih hrest
        cases declaration with
        | footnote other =>
            refine ⟨k + 1, by simp; omega, ?_⟩
            have hfirst : footnote? (footnote other) = some other := rfl
            rw [List.filterMap_cons_some hfirst]
            exact hk
        | _ => exact ⟨k, rfl, hk⟩

/-! ## The index holds the definitions -/

namespace Scope

variable {s : Scope} {declarations : List Declaration}

theorem map_definitionsFrom_anonymous (place : Nat) (declarations : List Declaration) :
    (Scheme.anonymous.definitionsFrom place declarations).map Placed.declaration
      = (declarations.filterMap Declaration.anonymous?).map .anonymous := by
  induction declarations generalizing place with
  | nil => rfl
  | cons declaration declarations ih =>
      rw [Scheme.definitionsFrom_cons, List.map_append, ih, List.filterMap_cons]
      cases declaration with
      | footnote label =>
          have hother : (Declaration.footnote label).scheme? ≠ some .anonymous :=
            label.scheme?_ne_anonymous
          rw [if_neg hother]
          rfl
      | _ => rfl

theorem anonymous_eq_definitions (hindex : s.index = .ofDeclarations declarations) :
    (Scheme.anonymous.definitions declarations).map Placed.declaration
      = s.index.anonymous.map .anonymous := by
  rw [hindex]
  exact map_definitionsFrom_anonymous 0 declarations

/-- A definition with a positional label is always numbered. -/
theorem assigned_of_scheme? (hindex : s.index = .ofDeclarations declarations)
    {e : FootnoteEntry} (he : e ∈ s.index.footnotes.entries) {scheme : Scheme}
    (h : e.label.scheme? = some scheme) : ∃ footnote, e.assigned = some footnote := by
  rw [hindex] at he
  cases numbered_of_mem he with
  | numeric => cases h
  | labelled => cases h
  | nameless => cases h
  | autonumber => exact ⟨_, rfl⟩
  | autosymbol => exact ⟨_, rfl⟩

/-- What is assigned to the label of a scheme, from some place on. -/
theorem assignedTo_drop (hindex : s.index = .ofDeclarations declarations)
    {label : FootnoteLabel} {scheme : Scheme} (hscheme : label.scheme? = some scheme) :
    ∀ (later : List Declaration) {place : Nat},
      (s.index.footnotes.entries.drop place).map FootnoteEntry.label
          = later.filterMap Declaration.footnote? →
        ((scheme.definitionsFrom place later).map fun placed =>
            s.index.footnotes.definition placed.place)
          = ((s.index.footnotes.entries.drop place).filterMap fun e =>
              if e.label = label then e.assigned else none).map some
  | [], place, hlabels => by
      rw [List.map_eq_nil_iff.mp hlabels]
      rfl
  | .footnote other :: later, place, hlabels => by
      obtain ⟨e, rest, hentries, rfl, hrest⟩ := List.map_eq_cons_iff.mp hlabels
      obtain ⟨hat, rfl⟩ := getElem?_of_drop_eq_cons hentries
      have ih := assignedTo_drop hindex hscheme later hrest
      rw [Scheme.definitionsFrom_cons, List.map_append, hentries, List.filterMap_cons]
      by_cases hlabel : e.label = label
      · obtain ⟨footnote, hassigned⟩ := assigned_of_scheme? hindex
          (List.mem_of_getElem? hat) (hlabel ▸ hscheme)
        have hdefinition : s.index.footnotes.definition place = some footnote := by
          rw [FootnoteNumbering.definition, hat]
          exact hassigned
        have hpositional : (Declaration.footnote e.label).scheme? = some scheme :=
          hlabel ▸ hscheme
        rw [if_pos hpositional, if_pos hlabel, hassigned]
        show s.index.footnotes.definition place :: _ = some footnote :: _
        rw [hdefinition]
        exact congrArg (some footnote :: ·) ih
      · have hother : (Declaration.footnote e.label).scheme? ≠ some scheme := fun h =>
          hlabel (FootnoteLabel.scheme?_inj h hscheme)
        rw [if_neg hother, if_neg hlabel]
        exact ih
  | .anonymous defined :: later, place, hlabels => by
      have hother : (Declaration.anonymous defined).scheme? ≠ some scheme := fun h =>
        label.scheme?_ne_anonymous (hscheme.trans h.symm)
      rw [Scheme.definitionsFrom_cons, if_neg hother]
      exact assignedTo_drop hindex hscheme later hlabels
  | .anchor _ :: later, place, hlabels
  | .citation _ :: later, place, hlabels
  | .definition _ _ :: later, place, hlabels =>
      assignedTo_drop hindex hscheme later hlabels

/-- The footnotes of a scheme in the index are those at the places of its
definitions. -/
theorem assignedTo_eq_definitions (hindex : s.index = .ofDeclarations declarations)
    {label : FootnoteLabel} {scheme : Scheme} (hscheme : label.scheme? = some scheme) :
    ((scheme.definitions declarations).map fun placed =>
        s.index.footnotes.definition placed.place)
      = (s.index.footnotes.assignedTo label).map some :=
  assignedTo_drop hindex hscheme declarations (labels_entries hindex)

/-- The index and the declarations have the same anonymous definition at a
position, or neither has one there. -/
theorem anonymous_at (hindex : s.index = .ofDeclarations declarations) (k : Nat) :
    (∃ place defined, (Scheme.anonymous.definitions declarations)[k]?
          = some ⟨place, .anonymous defined⟩
        ∧ s.index.anonymous[k]? = some defined)
      ∨ (Scheme.anonymous.definitions declarations)[k]? = none
        ∧ s.index.anonymous[k]? = none := by
  have hk := congrArg (·[k]?) (anonymous_eq_definitions hindex)
  simp only [List.getElem?_map] at hk
  cases hplaced : (Scheme.anonymous.definitions declarations)[k]? with
  | none =>
      rw [hplaced] at hk
      exact .inr ⟨rfl, Option.map_eq_none_iff.mp hk.symm⟩
  | some placed =>
      rw [hplaced] at hk
      obtain ⟨defined, hdefined, heq⟩ := Option.map_eq_some_iff.mp hk.symm
      obtain ⟨place, declaration⟩ := placed
      subst heq
      exact .inl ⟨place, defined, rfl, hdefined⟩

/-- The same for the footnotes of a scheme. -/
theorem assignedTo_at (hindex : s.index = .ofDeclarations declarations)
    {label : FootnoteLabel} {scheme : Scheme} (hscheme : label.scheme? = some scheme)
    (k : Nat) :
    (∃ place footnote, (scheme.definitions declarations)[k]?
          = some ⟨place, .footnote label⟩
        ∧ s.index.footnotes.definition place = some footnote
        ∧ (s.index.footnotes.assignedTo label)[k]? = some footnote)
      ∨ (scheme.definitions declarations)[k]? = none
        ∧ (s.index.footnotes.assignedTo label)[k]? = none := by
  have hk := congrArg (·[k]?) (assignedTo_eq_definitions hindex hscheme)
  simp only [List.getElem?_map] at hk
  cases hplaced : (scheme.definitions declarations)[k]? with
  | none =>
      rw [hplaced] at hk
      exact .inr ⟨rfl, Option.map_eq_none_iff.mp hk.symm⟩
  | some placed =>
      rw [hplaced] at hk
      obtain ⟨footnote, hfootnote, heq⟩ := Option.map_eq_some_iff.mp hk.symm
      obtain ⟨place, declaration⟩ := placed
      have hlabel := Scheme.scheme?_of_mem (List.mem_of_getElem? hplaced)
      obtain rfl := Declaration.eq_footnote hscheme hlabel
      exact .inl ⟨place, footnote, rfl, heq.symm, hfootnote⟩

end Scope

/-! ## What a reference takes -/

/-- The reference to `id` that shows this. -/
def Appearance.named : Appearance → (id : String) → ReferenceKind
  | .link content, id => .linkId content id
  | .image alt, id => .imageId alt id

theorem Appearance.byId_eq (shown : Appearance) (id source : String) :
    shown.byId id source = .reference (shown.named id) source := by
  cases shown <;> rfl

@[simp] theorem Appearance.scheme?_named (shown : Appearance) (id : String) :
    (shown.named id).scheme? = if id = "" then some .anonymous else none := by
  cases shown <;> rfl

/-- What a positional reference becomes, given the definition at its position, if
there is one, and what is reported: it leads to the destination defined, or to the
footnote numbered at the place of the definition; without a definition it is
invalid. -/
inductive Scope.Takes (s : Scope) : ReferenceKind → (source : String) →
    Option Placed → Span → List Problem → Prop
  | destination {shown : Appearance} {source : String} {place : Nat}
      {defined : DefinedTarget} {out : Span} {problems : List Problem}
      (h : s.SettlesId shown "" source (.found defined.destination) out problems) :
      Takes s (shown.named "") source (some ⟨place, .anonymous defined⟩) out problems
  | footnote {label : FootnoteLabel} {source : String} {place : Nat}
      {numbered : NumberedFootnote}
      (h : s.index.footnotes.definition place = some numbered) :
      Takes s (.footnote label) source (some ⟨place, .footnote label⟩)
        (.footnoteLink numbered.id numbered.label) []
  | nothing {kind : ReferenceKind} {source : String} {scheme : Scheme}
      (h : kind.scheme? = some scheme) :
      Takes s kind source none
        (.invalid (.reference kind source) scheme.exhausted.problem)
        [scheme.exhausted.problem]

end Crosslink

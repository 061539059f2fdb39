import Std.Data.String.ToNat
import Crosslink.Proofs.Repetition

/-!
# Ids of footnotes

Each of the four numbering schemes makes ids with a mark of its own, and
within one scheme equal ids come from equal names or from one position
(`FootnoteEntry.Numbered`). So of the footnotes that a document numbers two
get the same id only if they declare the same name
(`pairwise_numberFootnotes`), and those that are not repeated have different
ids (`Scope.pairwise_usableFootnotes`).
-/

namespace Crosslink

/-- What begins at a place of a list. -/
theorem getElem?_of_drop_eq_cons {α : Type} {list rest : List α} {place : Nat} {a : α}
    (h : list.drop place = a :: rest) :
    list[place]? = some a ∧ rest = list.drop (place + 1) := by
  refine ⟨?_, ?_⟩
  · rw [← List.head?_drop, h]
    rfl
  · rw [← List.tail_drop, h]
    rfl

/-! ## Schemes -/

namespace NumberedFootnote

/-- The character that tells the schemes apart. -/
def mark (footnote : NumberedFootnote) : Option Char := footnote.id.toList[4]?

@[simp] theorem mark_numeric (number : Nat) : (numeric number).mark = some '-' := by
  simp [mark, numeric]

@[simp] theorem mark_autonumber (display : Nat) :
    (autonumber display).mark = some 'a' := by
  simp [mark, autonumber]

@[simp] theorem mark_labelled (label : String) (display : Nat) :
    (labelled label display).mark = some 'l' := by
  simp [mark, labelled]

@[simp] theorem mark_symbol (position : Nat) : (symbol position).mark = some 's' := by
  simp [mark, symbol]

theorem mark_eq {a b : NumberedFootnote} (h : a.id = b.id) : a.mark = b.mark := by
  rw [mark, mark, h]

end NumberedFootnote

/-! ## Numbering -/

namespace FootnoteEntry

/-- The name that the definition declares, if it has one. -/
def name? (e : FootnoteEntry) : Option Name :=
  (Declaration.footnote e.label).name?

/-- What a definition may get after `displayed` auto-numbered and `symbols`
auto-symbol ones. -/
inductive Numbered (displayed symbols : Nat) : FootnoteEntry → Prop
  | numeric {number : Nat} :
      Numbered displayed symbols ⟨.numeric number, some (.numeric number)⟩
  | autonumber {display : Nat} (h : displayed < display) :
      Numbered displayed symbols ⟨.autonumber, some (.autonumber display)⟩
  | labelled {label : String} {display : Nat} :
      Numbered displayed symbols ⟨.labelled label, some (.labelled label display)⟩
  | nameless : Numbered displayed symbols ⟨.labelled "", none⟩
  | autosymbol {position : Nat} (h : symbols ≤ position) :
      Numbered displayed symbols ⟨.autosymbol, some (.symbol position)⟩

namespace Numbered

variable {displayed symbols : Nat} {e : FootnoteEntry} {a : NumberedFootnote}

theorem mono {displayed' symbols' : Nat} (h : e.Numbered displayed' symbols')
    (hdisplayed : displayed ≤ displayed') (hsymbols : symbols ≤ symbols') :
    e.Numbered displayed symbols := by
  cases h with
  | numeric => exact .numeric
  | autonumber hlt => exact .autonumber (Nat.lt_of_le_of_lt hdisplayed hlt)
  | labelled => exact .labelled
  | nameless => exact .nameless
  | autosymbol hle => exact .autosymbol (Nat.le_trans hsymbols hle)

/-- Whatever has the id of an explicit number declares that number. -/
theorem name?_of_numeric (h : e.Numbered displayed symbols)
    (ha : e.assigned = some a) {number : Nat}
    (hid : (NumberedFootnote.numeric number).id = a.id) :
    e.name? = some ⟨.numericFootnote, toString number⟩ := by
  have hmark := NumberedFootnote.mark_eq hid
  cases h with
  | numeric =>
      cases ha
      have hkey := (String.append_right_inj "__fn-").mp hid
      simp [name?, Declaration.name?, hkey]
  | nameless => cases ha
  | _ => cases ha; simp at hmark

theorem name?_of_labelled (h : e.Numbered displayed symbols)
    (ha : e.assigned = some a) {label : String} {display : Nat}
    (hid : (NumberedFootnote.labelled label display).id = a.id) :
    e.name? = some ⟨.labelledFootnote, label⟩ := by
  have hmark := NumberedFootnote.mark_eq hid
  cases h with
  | labelled =>
      cases ha
      have hkey := (String.append_right_inj "__fnl-").mp hid
      simp [name?, Declaration.name?, hkey]
  | nameless => cases ha
  | _ => cases ha; simp at hmark

/-- A position in the shared sequence is not given again. -/
theorem id_ne_autonumber (h : e.Numbered displayed symbols)
    (ha : e.assigned = some a) :
    (NumberedFootnote.autonumber displayed).id ≠ a.id := by
  intro hid
  have hmark := NumberedFootnote.mark_eq hid
  cases h with
  | autonumber hlt =>
      cases ha
      have heq := Nat.repr_injective ((String.append_right_inj "__fnauto-").mp hid)
      omega
  | nameless => cases ha
  | _ => cases ha; simp at hmark

theorem id_ne_symbol (h : e.Numbered displayed (symbols + 1))
    (ha : e.assigned = some a) :
    (NumberedFootnote.symbol symbols).id ≠ a.id := by
  intro hid
  have hmark := NumberedFootnote.mark_eq hid
  cases h with
  | autosymbol hle =>
      cases ha
      have heq := Nat.repr_injective ((String.append_right_inj "__fns-").mp hid)
      omega
  | nameless => cases ha
  | _ => cases ha; simp at hmark

end Numbered

end FootnoteEntry

theorem numbered_of_mem {labels : List FootnoteLabel} {e : FootnoteEntry} :
    ∀ {displayed symbols : Nat}, e ∈ numberFootnotes displayed symbols labels →
      e.Numbered displayed symbols := by
  induction labels with
  | nil => intro displayed symbols he; cases he
  | cons label labels ih =>
      intro displayed symbols he
      cases label with
      | numeric number =>
          rcases List.mem_cons.mp he with rfl | he
          · exact .numeric
          · exact ih he
      | autonumber =>
          rcases List.mem_cons.mp he with rfl | he
          · exact .autonumber (Nat.lt_succ_self _)
          · exact (ih he).mono (Nat.le_succ _) (Nat.le_refl _)
      | labelled label =>
          rw [numberFootnotes] at he
          split at he
          · rename_i hempty
            rcases List.mem_cons.mp he with rfl | he
            · exact hempty ▸ .nameless
            · exact ih he
          · rcases List.mem_cons.mp he with rfl | he
            · exact .labelled
            · exact (ih he).mono (Nat.le_succ _) (Nat.le_refl _)
      | autosymbol =>
          rcases List.mem_cons.mp he with rfl | he
          · exact .autosymbol (Nat.le_refl _)
          · exact (ih he).mono (Nat.le_refl _) (Nat.le_succ _)

/-- Definitions with one id declare one name. -/
def FootnoteEntry.Compatible (e e' : FootnoteEntry) : Prop :=
  ∀ a a', e.assigned = some a → e'.assigned = some a' → a.id = a'.id →
    ∃ name, e.name? = some name ∧ e'.name? = some name

theorem pairwise_numberFootnotes (labels : List FootnoteLabel) :
    ∀ displayed symbols : Nat,
      (numberFootnotes displayed symbols labels).Pairwise
        FootnoteEntry.Compatible := by
  induction labels with
  | nil => exact fun _ _ => .nil
  | cons label labels ih =>
      intro displayed symbols
      cases label with
      | numeric number =>
          refine .cons (fun e he a a' ha ha' hid => ?_) (ih _ _)
          cases ha
          exact ⟨_, rfl, (numbered_of_mem he).name?_of_numeric ha' hid⟩
      | autonumber =>
          refine .cons (fun e he a a' ha ha' hid => ?_) (ih _ _)
          cases ha
          exact absurd hid ((numbered_of_mem he).id_ne_autonumber ha')
      | labelled label =>
          rw [numberFootnotes]
          split
          · refine .cons (fun e he a a' ha ha' hid => ?_) (ih _ _)
            cases ha
          · refine .cons (fun e he a a' ha ha' hid => ?_) (ih _ _)
            cases ha
            exact ⟨_, rfl, (numbered_of_mem he).name?_of_labelled ha' hid⟩
      | autosymbol =>
          refine .cons (fun e he a a' ha ha' hid => ?_) (ih _ _)
          cases ha
          exact absurd hid ((numbered_of_mem he).id_ne_symbol ha')

@[simp] theorem labels_numberFootnotes (labels : List FootnoteLabel) :
    ∀ displayed symbols : Nat,
      (numberFootnotes displayed symbols labels).map FootnoteEntry.label = labels := by
  induction labels with
  | nil => exact fun _ _ => rfl
  | cons label labels ih =>
      intro displayed symbols
      cases label with
      | labelled label =>
          rw [numberFootnotes]
          split <;> simp [ih]
      | _ => simp [numberFootnotes, ih]

/-! ## The footnotes that stay -/

theorem Block.name?_footnoteDefinition (label : FootnoteLabel)
    (content : List Block) :
    (footnoteDefinition label content).name? = (Declaration.footnote label).name? := by
  cases label <;> rfl

/-- The names of the footnotes are among all names declared. -/
theorem Declaration.footnoteNames_sublist (declarations : List Declaration) :
    ((declarations.filterMap footnote?).filterMap fun label =>
        (footnote label).name?).Sublist
      (declarations.filterMap name?) := by
  induction declarations with
  | nil => exact .slnil
  | cons declaration declarations ih =>
      cases declaration with
      | footnote label =>
          have hfirst : footnote? (footnote label) = some label := rfl
          rw [List.filterMap_cons_some hfirst, List.filterMap_cons,
            List.filterMap_cons]
          cases (footnote label).name? with
          | none => exact ih
          | some name => exact ih.cons_cons name
      | _ =>
          rw [List.filterMap_cons_none rfl, List.filterMap_cons]
          split
          · exact ih
          · exact ih.cons _

namespace Scope

variable {s : Scope}

/-- What a footnote definition is assigned if it is not repeated. -/
def usable? (s : Scope) (e : FootnoteEntry) : Option NumberedFootnote :=
  if (s.repeatedFootnote? e.label).isSome then none else e.assigned

/-- The footnotes of the definitions that are not repeated. -/
def usableFootnotes (s : Scope) : List NumberedFootnote :=
  s.index.footnotes.entries.filterMap s.usable?

theorem usable?_eq_some {e : FootnoteEntry} {footnote : NumberedFootnote} :
    s.usable? e = some footnote
      ↔ s.repeatedFootnote? e.label = none ∧ e.assigned = some footnote := by
  unfold usable?
  cases s.repeatedFootnote? e.label <;> simp

/-- The index has one entry for each footnote that is declared. -/
theorem labels_entries {declarations : List Declaration}
    (hindex : s.index = .ofDeclarations declarations) :
    s.index.footnotes.entries.map FootnoteEntry.label
      = declarations.filterMap Declaration.footnote? := by
  rw [hindex]
  exact labels_numberFootnotes _ 0 0

/-- Two definitions that declare one name are repeated. -/
theorem repeatedFootnote?_of_sublist {declarations : List Declaration}
    (hindex : s.index = .ofDeclarations declarations) {e e' : FootnoteEntry}
    (hsub : [e, e'].Sublist s.index.footnotes.entries) {name : Name}
    (he : e.name? = some name) (he' : e'.name? = some name) :
    s.repeatedFootnote? e.label = some name.id := by
  have hcounts : s.Counts (declarations.filterMap Declaration.name?) := by
    intro name
    rw [hindex]
    exact DocumentIndex.occurrences_ofDeclarations declarations name
  have hdeclared : [e.label, e'.label].Sublist
      (declarations.filterMap Declaration.footnote?) :=
    labels_entries hindex ▸ hsub.map FootnoteEntry.label
  have hnames : [name, name].Sublist
      (declarations.filterMap Declaration.name?) := by
    have hnamed := hdeclared.filterMap fun label => (Declaration.footnote label).name?
    rw [FootnoteEntry.name?] at he he'
    simp only [List.filterMap_cons, List.filterMap_nil, he, he'] at hnamed
    exact hnamed.trans (Declaration.footnoteNames_sublist declarations)
  have htwo : 2 ≤ (declarations.filterMap Declaration.name?).count name := by
    simpa using hnames.count_le name
  have hname := (Block.name?_footnoteDefinition e.label []).trans he
  rw [(repeatedFootnote?_eq hcounts hname).1, if_pos htwo]

theorem pairwise_usableFootnotes {declarations : List Declaration}
    (hindex : s.index = .ofDeclarations declarations) :
    s.usableFootnotes.Pairwise fun a b => a.id ≠ b.id := by
  refine List.pairwise_filterMap.mpr
    (List.pairwise_iff_forall_sublist.mpr fun {e e'} hsub => ?_)
  intro a ha a' ha' hid
  obtain ⟨hfresh, hassigned⟩ := usable?_eq_some.mp ha
  obtain ⟨-, hassigned'⟩ := usable?_eq_some.mp ha'
  have hcompatible : s.index.footnotes.entries.Pairwise
      FootnoteEntry.Compatible := by
    rw [hindex]
    exact pairwise_numberFootnotes _ 0 0
  obtain ⟨name, he, he'⟩ := List.pairwise_iff_forall_sublist.mp hcompatible hsub
    a a' hassigned hassigned' hid
  rw [repeatedFootnote?_of_sublist hindex hsub he he'] at hfresh
  cases hfresh

/-- A declared number has the footnote of that number. -/
theorem numeric_mem_assignedTo {declarations : List Declaration}
    (hindex : s.index = .ofDeclarations declarations) {number : Nat}
    (h : s.index.numericFootnotes.entry? (toString number) = some (.unique ())) :
    .numeric number ∈ s.index.footnotes.assignedTo (.numeric number) := by
  have hkey := Namespace.mem_of_entry?_eq_unique h
  rw [hindex] at hkey ⊢
  obtain ⟨declaration, hmem, hnumber⟩ :=
    List.mem_filterMap.mp (Namespace.mem_ofNames.mp hkey)
  have hlabel : .numeric number ∈ declarations.filterMap Declaration.footnote? := by
    refine List.mem_filterMap.mpr ⟨declaration, hmem, ?_⟩
    cases declaration with
    | footnote label =>
        cases label with
        | numeric other =>
            rw [Nat.repr_injective (Option.some.inj hnumber)]
            rfl
        | _ => cases hnumber
    | _ => cases hnumber
  rw [← labels_numberFootnotes (declarations.filterMap Declaration.footnote?) 0 0]
    at hlabel
  obtain ⟨e, he, hnumeric⟩ := List.mem_map.mp hlabel
  refine List.mem_filterMap.mpr ⟨e, he, ?_⟩
  rw [if_pos hnumeric]
  cases numbered_of_mem he with
  | numeric =>
      cases hnumeric
      rfl
  | _ => cases hnumeric

/-- A reference never means a footnote whose definition is repeated. -/
theorem Means.mem_usableFootnotes {declarations : List Declaration}
    (hindex : s.index = .ofDeclarations declarations) {label : FootnoteLabel}
    {footnote : NumberedFootnote} (h : s.Means label (.ok footnote)) :
    footnote ∈ s.usableFootnotes := by
  have hassigned : ∀ {label}, s.repeatedFootnote? label = none →
      footnote ∈ s.index.footnotes.assignedTo label →
        footnote ∈ s.usableFootnotes := by
    intro label hfresh hmem
    obtain ⟨e, he, hfound⟩ := List.mem_filterMap.mp hmem
    split at hfound
    · rename_i hlabel
      exact List.mem_filterMap.mpr
        ⟨e, he, usable?_eq_some.mpr ⟨hlabel ▸ hfresh, hfound⟩⟩
    · cases hfound
  generalize hfound : Except.ok footnote = found at h
  cases h with
  | @numeric number =>
      unfold numericFootnote at hfound
      dsimp only at hfound
      split at hfound
      · rename_i hunique
        cases hfound
        have hfresh : s.repeatedFootnote? (.numeric number) = none := by
          rw [repeatedFootnote?, Namespace.isDuplicate_eq_false_of_unique hunique]
          rfl
        exact hassigned hfresh (numeric_mem_assignedTo hindex hunique)
      · cases hfound
      · cases hfound
  | @labelled label =>
      unfold labelledFootnote at hfound
      split at hfound
      · cases hfound
      · split at hfound
        · rename_i hunique
          split at hfound
          · rename_i hfirst
            cases hfound
            have hfresh : s.repeatedFootnote? (.labelled label) = none := by
              rw [repeatedFootnote?, Namespace.isDuplicate_eq_false_of_unique hunique]
              rfl
            exact hassigned hfresh (List.mem_of_mem_head? hfirst)
          · cases hfound
        · cases hfound
        · cases hfound
  | autonumber hmem =>
      cases hfound
      exact hassigned rfl hmem
  | autonumbersExhausted => cases hfound
  | autosymbol hmem =>
      cases hfound
      exact hassigned rfl hmem
  | autosymbolsExhausted => cases hfound

end Scope

end Crosslink

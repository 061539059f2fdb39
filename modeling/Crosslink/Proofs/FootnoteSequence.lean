import Mathlib.Data.List.GetD
import Mathlib.Data.List.Nodup
import Crosslink.Proofs.Numbering

/-!
# Footnotes in sequence

What a footnote definition gets depends on its label and on two counts: how many
definitions before it share the sequence of displayed numbers, and how many show a
symbol (`FootnoteLabel.numberedAfter`, `FootnoteNumbering.definition_assign`). Either
count goes up at every definition of its kind (`countP_take_lt`), decimal digits tell
numbers apart and so do the repeated symbols (`autosymbol_injective`), so what is
displayed differs within each kind.
-/

namespace Crosslink

/-! ## Symbols -/

theorem nodup_footnoteSymbols : footnoteSymbols.Nodup := by decide

/-- The round shows in the length and the place in the round in the symbol. -/
theorem autosymbol_injective : Function.Injective autosymbol := by
  intro m n h
  have hpositive : 0 < footnoteSymbols.length := by decide
  have hm := Nat.mod_lt m hpositive
  have hn := Nat.mod_lt n hpositive
  obtain ⟨hround, hsymbol⟩ := List.replicate_inj.mp (String.ofList_injective h)
  have hsame : footnoteSymbols[m % footnoteSymbols.length]
      = footnoteSymbols[n % footnoteSymbols.length] := by
    rcases hsymbol with hnone | hsymbol
    · cases hnone
    · rwa [List.getD_eq_getElem _ _ hm, List.getD_eq_getElem _ _ hn] at hsymbol
  have hplace : m % footnoteSymbols.length = n % footnoteSymbols.length :=
    nodup_footnoteSymbols.getElem_inj_iff.mp hsame
  have hturn : m / footnoteSymbols.length = n / footnoteSymbols.length :=
    Nat.succ.inj hround
  rw [← Nat.div_add_mod m footnoteSymbols.length, hplace, hturn, Nat.div_add_mod]

/-! ## What a definition gets -/

namespace FootnoteLabel

/-- The definition takes the next number of the sequence displayed. -/
def isAutonumbered : FootnoteLabel → Bool
  | .autonumber => true
  | .labelled label => label ≠ ""
  | .autosymbol => false
  | .numeric _ => false

/-- What a definition gets after `displayed` others of the sequence displayed and
`symbols` others with a symbol. -/
def numberedAfter (displayed symbols : Nat) : FootnoteLabel → Option NumberedFootnote
  | .numeric number => some (.numeric number)
  | .autonumber => some (.autonumber (displayed + 1))
  | .labelled label => if label = "" then none else some (.labelled label (displayed + 1))
  | .autosymbol => some (.symbol symbols)

end FootnoteLabel

/-- One definition moves each of the counts on if it is of that kind. -/
theorem numberFootnotes_cons (displayed symbols : Nat) (label : FootnoteLabel)
    (labels : List FootnoteLabel) :
    numberFootnotes displayed symbols (label :: labels)
      = ⟨label, label.numberedAfter displayed symbols⟩
        :: numberFootnotes (displayed + if label.isAutonumbered then 1 else 0)
          (symbols + if label == .autosymbol then 1 else 0) labels := by
  cases label with
  | labelled label =>
      rw [numberFootnotes]
      by_cases hempty : label = ""
      · simp [hempty, FootnoteLabel.numberedAfter, FootnoteLabel.isAutonumbered]
      · simp [hempty, FootnoteLabel.numberedAfter, FootnoteLabel.isAutonumbered]
  | _ => rfl

theorem getElem?_numberFootnotes (labels : List FootnoteLabel) (i : Nat) :
    ∀ displayed symbols : Nat,
      (numberFootnotes displayed symbols labels)[i]? = labels[i]?.map fun label =>
        ⟨label, label.numberedAfter
          (displayed + (labels.take i).countP FootnoteLabel.isAutonumbered)
          (symbols + (labels.take i).count .autosymbol)⟩ := by
  induction labels generalizing i with
  | nil => exact fun _ _ => rfl
  | cons label labels ih =>
      intro displayed symbols
      rw [numberFootnotes_cons]
      cases i with
      | zero => rfl
      | succ i =>
          rw [List.getElem?_cons_succ, List.getElem?_cons_succ, ih, List.take_succ_cons,
            List.countP_cons, List.count_cons]
          simp only [Nat.add_comm, Nat.add_left_comm]

/-! ## Counts -/

/-- The count of a kind before some place is smaller than before any later one, if the
kind stands at the place. -/
theorem countP_take_lt {α : Type} {p : α → Bool} {list : List α} {a : α} {i j : Nat}
    (hij : i < j) (hat : list[i]? = some a) (ha : p a = true) :
    (list.take i).countP p < (list.take j).countP p := by
  have hnext : (list.take (i + 1)).countP p = (list.take i).countP p + 1 := by
    rw [List.take_add_one, hat, List.countP_append]
    simp [ha]
  have hlater : (list.take (i + 1)).countP p ≤ (list.take j).countP p :=
    (List.take_sublist_take_left hij).countP_le
  omega

theorem countP_take_inj {α : Type} {p : α → Bool} {list : List α} {a b : α} {i j : Nat}
    (ha : list[i]? = some a) (hpa : p a = true) (hb : list[j]? = some b)
    (hpb : p b = true) (h : (list.take i).countP p = (list.take j).countP p) : i = j := by
  rcases Nat.lt_trichotomy i j with hlt | heq | hgt
  · have hless := countP_take_lt hlt ha hpa
    omega
  · exact heq
  · have hless := countP_take_lt hgt hb hpb
    omega

/-! ## The numbering of a document -/

namespace FootnoteNumbering

theorem definition_assign (labels : List FootnoteLabel) (i : Nat) :
    (assign labels).definition i = labels[i]?.bind fun label =>
      label.numberedAfter ((labels.take i).countP FootnoteLabel.isAutonumbered)
        ((labels.take i).count .autosymbol) := by
  show (numberFootnotes 0 0 labels)[i]?.bind _ = _
  rw [getElem?_numberFootnotes]
  cases labels[i]? with
  | none => rfl
  | some label => simp

theorem labelOf_definition {labels : List FootnoteLabel} {i : Nat}
    {footnote : NumberedFootnote} (h : (assign labels).definition i = some footnote) :
    ∃ e : FootnoteEntry, (assign labels).entries[i]? = some e
      ∧ e.assigned = some footnote ∧ labels[i]? = some e.label := by
  obtain ⟨e, he, hassigned⟩ := Option.bind_eq_some_iff.mp h
  refine ⟨e, he, hassigned, ?_⟩
  have hlabels := labels_numberFootnotes labels 0 0
  rw [← hlabels, List.getElem?_map]
  exact congrArg (Option.map FootnoteEntry.label) he

/-- Two definitions with one name are labelled alike, by a number or by a text. -/
theorem label_eq_of_name? {e e' : FootnoteEntry} {name : Name} (h : e.name? = some name)
    (h' : e'.name? = some name) :
    (∃ number, e.label = .numeric number ∧ e'.label = .numeric number)
      ∨ ∃ label, e.label = .labelled label ∧ e'.label = .labelled label := by
  obtain ⟨label, assigned⟩ := e
  obtain ⟨label', assigned'⟩ := e'
  cases label with
  | numeric number =>
      cases h
      cases label' with
      | numeric number' =>
          have hkey := congrArg Name.id (Option.some.inj h')
          exact .inl ⟨number, rfl, by rw [Nat.repr_injective hkey]⟩
      | _ => cases h'
  | labelled label =>
      cases h
      cases label' with
      | labelled label' =>
          have hkey := congrArg Name.id (Option.some.inj h')
          exact .inr ⟨label, rfl, congrArg FootnoteLabel.labelled hkey⟩
      | _ => cases h'
  | autonumber => cases h
  | autosymbol => cases h

theorem label_eq_of_lt {labels : List FootnoteLabel} {i j : Nat} (hlt : i < j)
    {a b : NumberedFootnote} (ha : (assign labels).definition i = some a)
    (hb : (assign labels).definition j = some b) (hid : a.id = b.id) :
    (∃ number, labels[i]? = some (.numeric number) ∧ labels[j]? = some (.numeric number))
      ∨ ∃ label, labels[i]? = some (.labelled label)
        ∧ labels[j]? = some (.labelled label) := by
  obtain ⟨e, he, hassigned, hlabel⟩ := labelOf_definition ha
  obtain ⟨e', he', hassigned', hlabel'⟩ := labelOf_definition hb
  obtain ⟨hi, heq⟩ := List.getElem?_eq_some_iff.mp he
  obtain ⟨hj, heq'⟩ := List.getElem?_eq_some_iff.mp he'
  have hcompatible := List.pairwise_iff_getElem.mp (pairwise_numberFootnotes labels 0 0)
    i j hi hj hlt
  obtain ⟨name, hname, hname'⟩ := hcompatible a b (heq ▸ hassigned) (heq' ▸ hassigned') hid
  rw [hlabel, hlabel']
  have hsame := label_eq_of_name? (heq ▸ hname) (heq' ▸ hname')
  simpa only [Option.some.injEq] using hsame

/-- The id of a number and of a text does not depend on the place. -/
theorem id_eq_of_label {labels : List FootnoteLabel} {i j : Nat}
    {a b : NumberedFootnote} (ha : (assign labels).definition i = some a)
    (hb : (assign labels).definition j = some b)
    (h : (∃ number, labels[i]? = some (.numeric number)
          ∧ labels[j]? = some (.numeric number))
      ∨ ∃ label, labels[i]? = some (.labelled label)
        ∧ labels[j]? = some (.labelled label)) : a.id = b.id := by
  rw [definition_assign] at ha hb
  rcases h with ⟨number, hi, hj⟩ | ⟨label, hi, hj⟩
  · rw [hi] at ha
    rw [hj] at hb
    cases ha
    cases hb
    rfl
  · rw [hi, Option.bind_some, FootnoteLabel.numberedAfter] at ha
    rw [hj, Option.bind_some, FootnoteLabel.numberedAfter] at hb
    by_cases hempty : label = ""
    · rw [if_pos hempty] at ha
      cases ha
    · rw [if_neg hempty] at ha hb
      cases ha
      cases hb
      rfl

end FootnoteNumbering

/-! ## The first definition with a label -/

/-- A definition with an empty label gets nothing. -/
theorem findSome?_nameless (labels : List FootnoteLabel) (displayed symbols : Nat) :
    (numberFootnotes displayed symbols labels).findSome? (fun e =>
      if e.label = .labelled "" then e.assigned else none) = none := by
  refine List.findSome?_eq_none_iff.mpr fun e he => ?_
  obtain ⟨i, hat⟩ := List.mem_iff_getElem?.mp he
  rw [getElem?_numberFootnotes] at hat
  obtain ⟨label, -, rfl⟩ := Option.map_eq_some_iff.mp hat
  by_cases hlabel : label = .labelled ""
  · rw [if_pos hlabel, hlabel]
    rfl
  · rw [if_neg hlabel]

theorem findSome?_labelled (name : String) (labels : List FootnoteLabel) :
    ∀ displayed symbols : Nat,
      (numberFootnotes displayed symbols labels).findSome? (fun e =>
          if e.label = .labelled name then e.assigned else none)
        = (labels.idxOf? (.labelled name)).bind fun i =>
          (numberFootnotes displayed symbols labels)[i]?.bind (·.assigned) := by
  induction labels with
  | nil => exact fun _ _ => rfl
  | cons label labels ih =>
      intro displayed symbols
      rw [numberFootnotes_cons, List.findSome?_cons, List.idxOf?_cons]
      by_cases hlabel : label = .labelled name
      · subst hlabel
        by_cases hempty : name = ""
        · subst hempty
          simpa [FootnoteLabel.numberedAfter] using findSome?_nameless labels _ _
        · simp [FootnoteLabel.numberedAfter, hempty]
      · simp only [if_neg hlabel, beq_iff_eq]
        rw [ih]
        cases labels.idxOf? (.labelled name) <;> rfl

theorem FootnoteNumbering.labelled_assign (labels : List FootnoteLabel) (label : String) :
    (assign labels).labelled label
      = (labels.idxOf? (.labelled label)).bind (assign labels).definition := by
  rw [labelled, assignedTo, List.head?_filterMap]
  exact findSome?_labelled label labels 0 0

/-! ## The sequence -/

/-- What a numbering says of the definitions with these labels. -/
structure FootnoteNumbering.InSequence (n : FootnoteNumbering)
    (labels : List FootnoteLabel) : Prop where
  /-- An auto-numbered definition, with or without a label, displays the number that
  comes after those of the auto-numbered definitions before it. -/
  autonumbered : ∀ i label, labels[i]? = some label → label.isAutonumbered = true →
    ∃ footnote, n.definition i = some footnote
      ∧ footnote.label
        = toString (1 + (labels.take i).countP FootnoteLabel.isAutonumbered)
  /-- An auto-symbol definition displays the symbol of its place among those. -/
  autosymbol : ∀ i, labels[i]? = some .autosymbol →
    ∃ footnote, n.definition i = some footnote
      ∧ footnote.label = Crosslink.autosymbol ((labels.take i).count .autosymbol)
  /-- A label stands for the first definition that has it. -/
  labelled : ∀ label,
    n.labelled label = (labels.idxOf? (.labelled label)).bind n.definition
  /-- Of two definitions with one id both have one number, or both have one label. -/
  id_eq_iff : ∀ i j a b, i ≠ j → n.definition i = some a → n.definition j = some b →
    (a.id = b.id
      ↔ (∃ number, labels[i]? = some (.numeric number)
          ∧ labels[j]? = some (.numeric number))
        ∨ ∃ label, labels[i]? = some (.labelled label)
          ∧ labels[j]? = some (.labelled label))
  /-- Two auto-numbered definitions display different numbers. -/
  autonumbered_ne : ∀ i j label label' a b, i ≠ j →
    labels[i]? = some label → label.isAutonumbered = true →
    labels[j]? = some label' → label'.isAutonumbered = true →
    n.definition i = some a → n.definition j = some b → a.label ≠ b.label
  /-- Two auto-symbol definitions display different symbols. -/
  autosymbol_ne : ∀ i j a b, i ≠ j →
    labels[i]? = some .autosymbol → labels[j]? = some .autosymbol →
    n.definition i = some a → n.definition j = some b → a.label ≠ b.label

namespace FootnoteNumbering

variable {labels : List FootnoteLabel} {i : Nat}

theorem definition_autonumbered {label : FootnoteLabel} (hat : labels[i]? = some label)
    (h : label.isAutonumbered = true) :
    ∃ footnote, (assign labels).definition i = some footnote
      ∧ footnote.label
        = toString (1 + (labels.take i).countP FootnoteLabel.isAutonumbered) := by
  rw [definition_assign, hat, Nat.add_comm]
  cases label with
  | autonumber => exact ⟨_, rfl, rfl⟩
  | labelled name =>
      have hname : name ≠ "" := of_decide_eq_true h
      exact ⟨_, if_neg hname, rfl⟩
  | autosymbol => cases h
  | numeric _ => cases h

theorem definition_autosymbol (hat : labels[i]? = some .autosymbol) :
    (assign labels).definition i = some (.symbol ((labels.take i).count .autosymbol)) := by
  rw [definition_assign, hat]
  rfl

/-- The numbers displayed count the auto-numbered definitions and the symbols the
auto-symbol ones, a label stands for the first definition that has it, and no id or
display is given twice within its kind, but for what is written twice. Each place has a
symbol of its own. -/
theorem assign_in_sequence :
    (∀ labels : List FootnoteLabel, (assign labels).InSequence labels)
      ∧ Function.Injective autosymbol := by
  refine ⟨fun labels => ?_, autosymbol_injective⟩
  exact
    { autonumbered := fun i label hat h => definition_autonumbered hat h
      autosymbol := fun i hat => ⟨_, definition_autosymbol hat, rfl⟩
      labelled := labelled_assign labels
      id_eq_iff := by
        intro i j a b hne ha hb
        refine ⟨fun hid => ?_, id_eq_of_label ha hb⟩
        rcases Nat.lt_or_gt_of_ne hne with hlt | hgt
        · exact label_eq_of_lt hlt ha hb hid
        · exact (label_eq_of_lt hgt hb ha hid.symm).imp
            (fun ⟨number, hj, hi⟩ => ⟨number, hi, hj⟩)
            (fun ⟨label, hj, hi⟩ => ⟨label, hi, hj⟩)
      autonumbered_ne := by
        intro i j label label' a b hne hi hlabel hj hlabel' ha hb heq
        obtain ⟨footnote, hfootnote, hfirst⟩ := definition_autonumbered hi hlabel
        obtain ⟨footnote', hfootnote', hsecond⟩ := definition_autonumbered hj hlabel'
        obtain rfl := Option.some.inj (ha.symm.trans hfootnote)
        obtain rfl := Option.some.inj (hb.symm.trans hfootnote')
        rw [hfirst, hsecond] at heq
        have hcount := Nat.repr_injective heq
        exact hne (countP_take_inj hi hlabel hj hlabel' (Nat.add_left_cancel hcount))
      autosymbol_ne := by
        intro i j a b hne hi hj ha hb heq
        obtain rfl := Option.some.inj (ha.symm.trans (definition_autosymbol hi))
        obtain rfl := Option.some.inj (hb.symm.trans (definition_autosymbol hj))
        have hcount : (labels.take i).countP (· == FootnoteLabel.autosymbol)
            = (labels.take j).countP (· == FootnoteLabel.autosymbol) :=
          autosymbol_injective heq
        exact hne (countP_take_inj hi rfl hj rfl hcount) }

end FootnoteNumbering

end Crosslink

import Crosslink.Proofs.Phases

/-!
# Indexes of the two phases

A pass declares nothing: what its result declares, the document declared
before, in the same order (`Blocks.Yields.declarations_sublist`). So the
index of the second phase holds nothing that the index of the first one
lacks, and nothing is repeated in it that was not repeated before
(`secondScope_anchors`, `secondScope_linkDefinitions`).
-/

namespace Crosslink

/-! ## Namespaces -/

namespace Namespace

variable {α : Type} {ns ns' : Namespace α} {id : String}

theorem mem_values {value : α} :
    value ∈ ns.values id ↔ (id, value) ∈ ns.declared := by
  rw [values, List.mem_filterMap]
  constructor
  · rintro ⟨⟨key, other⟩, hmem, heq⟩
    simp only at heq
    split at heq
    · rename_i hkey
      obtain rfl := Option.some.inj heq
      rw [← hkey]
      exact hmem
    · cases heq
  · intro hmem
    exact ⟨(id, value), hmem, by simp⟩

theorem entry?_eq_unique {value : α} :
    ns.entry? id = some (.unique value) ↔ ns.values id = [value] := by
  unfold entry?
  split <;> rename_i h <;> simp [h]

theorem entry?_eq_none : ns.entry? id = none ↔ ns.values id = [] := by
  unfold entry?
  split <;> rename_i h <;> simp [h]

theorem entry?_eq_duplicate :
    ns.entry? id = some .duplicate ↔ 2 ≤ (ns.values id).length := by
  unfold entry?
  split <;> rename_i h <;> simp [h]

theorem isDuplicate_iff : ns.isDuplicate id = true ↔ 2 ≤ (ns.values id).length := by
  rw [← entry?_eq_duplicate]
  unfold isDuplicate
  split
  · rename_i h
    simp [h]
  · rename_i h
    simpa using h

theorem mem_of_entry?_eq_unique {value : α}
    (h : ns.entry? id = some (.unique value)) : (id, value) ∈ ns.declared :=
  mem_values.mp (by rw [entry?_eq_unique.mp h]; exact List.mem_singleton.mpr rfl)

theorem isDuplicate_eq_false_of_unique {value : α}
    (h : ns.entry? id = some (.unique value)) : ns.isDuplicate id = false := by
  rw [Bool.eq_false_iff]
  intro hdup
  have hlen := isDuplicate_iff.mp hdup
  rw [entry?_eq_unique.mp h, List.length_singleton] at hlen
  omega

theorem entry?_eq_unique_of_mem {value : α} (hmem : (id, value) ∈ ns.declared)
    (honce : ns.isDuplicate id = false) : ns.entry? id = some (.unique value) := by
  rw [entry?_eq_unique]
  have hvalue := mem_values.mpr hmem
  have hlen : ¬ 2 ≤ (ns.values id).length := by
    rw [← isDuplicate_iff, honce]
    exact Bool.false_ne_true
  match hvalues : ns.values id with
  | [] => simp [hvalues] at hvalue
  | [_] => simpa [hvalues, eq_comm] using hvalue
  | _ :: _ :: _ => simp [hvalues] at hlen

@[simp] theorem mem_ofNames {names : List String} {id : String} :
    (id, ()) ∈ (ofNames names).declared ↔ id ∈ names := by
  simp [ofNames]

/-- `ns` has everything that `ns'` has. -/
def Covers (ns ns' : Namespace α) : Prop := ns'.declared.Sublist ns.declared

theorem Covers.isDuplicate (h : ns.Covers ns') (hdup : ns'.isDuplicate id = true) :
    ns.isDuplicate id = true := by
  rw [isDuplicate_iff] at hdup ⊢
  exact Nat.le_trans hdup (h.filterMap _).length_le

theorem Covers.not_isDuplicate (h : ns.Covers ns')
    (hunique : ns.isDuplicate id = false) : ns'.isDuplicate id = false := by
  rw [Bool.eq_false_iff] at hunique ⊢
  exact fun hdup => hunique (h.isDuplicate hdup)

theorem Covers.entry?_eq_none (h : ns.Covers ns') (hnone : ns.entry? id = none) :
    ns'.entry? id = none := by
  rw [Namespace.entry?_eq_none] at hnone ⊢
  have hsub : (ns'.values id).Sublist (ns.values id) := h.filterMap _
  rw [hnone] at hsub
  exact List.sublist_nil.mp hsub

end Namespace

theorem DocumentIndex.mem_anchors {blocks : List Block} {id : String} :
    (id, ()) ∈ (DocumentIndex.build blocks).anchors.declared
      ↔ .anchor id ∈ Blocks.declarations blocks := by
  rw [build, ofDeclarations, Namespace.mem_ofNames, List.mem_filterMap]
  constructor
  · rintro ⟨declaration, hmem, hname⟩
    cases declaration with
    | anchor id =>
        obtain rfl := Option.some.inj hname
        exact hmem
    | _ => cases hname
  · exact fun hmem => ⟨.anchor id, hmem, rfl⟩

theorem DocumentIndex.mem_citations {blocks : List Block} {label : String} :
    (label, ()) ∈ (DocumentIndex.build blocks).citations.declared
      ↔ .citation label ∈ Blocks.declarations blocks := by
  rw [build, ofDeclarations, Namespace.mem_ofNames, List.mem_filterMap]
  constructor
  · rintro ⟨declaration, hmem, hname⟩
    cases declaration with
    | citation label =>
        obtain rfl := Option.some.inj hname
        exact hmem
    | _ => cases hname
  · exact fun hmem => ⟨.citation label, hmem, rfl⟩

/-! ## What a pass leaves of the declarations -/

theorem Blocks.declarations_append (first second : List Block) :
    Blocks.declarations (first ++ second)
      = Blocks.declarations first ++ Blocks.declarations second := by
  induction first with
  | nil => rfl
  | cons block first ih => simp [Blocks.declarations, ih]

@[simp] theorem Blocks.declarations_singleton (block : Block) :
    Blocks.declarations [block] = block.declarations := by
  simp [Blocks.declarations]

@[simp] theorem Scope.declarations_blockOfSpan (span : Span) :
    (blockOfSpan span).declarations = [] := by
  cases span with
  | invalid fallback problem =>
      cases fallback <;> simp [blockOfSpan, Block.declarations, Block.nestedDeclarations]
  | _ => simp [blockOfSpan, Block.declarations]

section

variable {s : Scope}

/-- A checked anchor stays, or only what is inside counts. -/
theorem Scope.ChecksAnchor.declarations_sublist {id : Option String}
    {block out : Block} {problems : List Problem}
    {declared : List Declaration} (h : s.ChecksAnchor id block out problems)
    (hkept : block.declarations.Sublist declared)
    (hnested : block.nestedDeclarations.Sublist declared) :
    (Blocks.declarations [out]).Sublist declared := by
  rw [Blocks.declarations_singleton]
  cases h with
  | kept _ => exact hkept
  | repeated _ _ => exact hnested

mutual

theorem Block.Yields.declarations_sublist {before : Block} {after : Option Block}
    {problems : List Problem} :
    Block.Yields s before after problems →
      (Blocks.declarations after.toList).Sublist before.declarations
  | .paragraph _ => by simp [Block.declarations]
  | .codeBlock => by simp
  | .rule => by simp
  | .verbatim => by simp
  | .decoratedHeader => by simp
  | .header _ h =>
      h.declarations_sublist (List.Sublist.refl _) (List.nil_sublist _)
  | .title _ h =>
      h.declarations_sublist (List.Sublist.refl _) (List.nil_sublist _)
  | .sectionOf _ hcontent h => by
      have hinner := hcontent.declarations_sublist
      rw [Block.declarations]
      exact h.declarations_sublist (hinner.append_left _)
        (hinner.trans (List.sublist_append_right _ _))
  | .quoted h => by simpa [Block.declarations] using h.declarations_sublist
  | .anchor h => h.declarations_sublist (List.Sublist.refl _) (List.nil_sublist _)
  | .linkDefinition h => by
      cases h <;> simp [Blocks.declarations, Block.declarations,
        Block.nestedDeclarations]
  | .linkAlias h => by
      cases h <;> simp [Blocks.declarations, Block.declarations,
        Block.nestedDeclarations]
  | .citation hcontent h => by
      have hinner := hcontent.declarations_sublist
      cases h <;> simp [Block.declarations, Block.nestedDeclarations, hinner,
        hinner.cons]
  | .footnoteDefinition hcontent h => by
      have hinner := hcontent.declarations_sublist
      cases h <;> simp [Block.declarations, Block.nestedDeclarations, hinner.cons]
  | .footnote h => by simpa [Block.declarations] using h.declarations_sublist
  | .reference _ => by simp
  | .invalid h => by simpa [Block.declarations] using h.nestedDeclarations_sublist

theorem Block.YieldsInside.nestedDeclarations_sublist {before after : Block}
    {problems : List Problem} :
    Block.YieldsInside s before after problems →
      after.nestedDeclarations.Sublist before.nestedDeclarations
  | .citation h => h.declarations_sublist
  | .footnoteDefinition h => h.declarations_sublist
  | .header _ => List.Sublist.refl _
  | .sectionOf _ h => h.declarations_sublist
  | .title _ => List.Sublist.refl _
  | .sealed _ => List.Sublist.refl _

/-- A pass declares nothing. -/
theorem Blocks.Yields.declarations_sublist {before after : List Block}
    {problems : List Problem} :
    Blocks.Yields s before after problems →
      (Blocks.declarations after).Sublist (Blocks.declarations before)
  | .nil => List.Sublist.refl _
  | .cons h hrest => by
      rw [Blocks.declarations_append, Blocks.declarations]
      exact h.declarations_sublist.append hrest.declarations_sublist

end

end

/-! ## The two indexes of a document -/

namespace Document

variable (d : Document) (tree : TreeIndex)

theorem declarations_settled :
    (Blocks.declarations d.settled.content).Sublist
      (Blocks.declarations d.outlined.content) := by
  obtain ⟨problems, hyields, -⟩ := d.yields_settled
  exact hyields.declarations_sublist

theorem secondScope_anchors :
    d.firstScope.index.anchors.Covers (d.secondScope tree).index.anchors :=
  (d.declarations_settled.filterMap Declaration.anchor?).map _

theorem secondScope_citations :
    d.firstScope.index.citations.Covers (d.secondScope tree).index.citations :=
  (d.declarations_settled.filterMap Declaration.citation?).map _

theorem secondScope_linkDefinitions :
    d.firstScope.index.linkDefinitions.Covers
      (d.secondScope tree).index.linkDefinitions :=
  d.declarations_settled.filterMap Declaration.definition?

end Document

end Crosslink

import Crosslink.Proofs.Index
import Crosslink.Proofs.Nodes

/-!
# Names and how often they are declared

A name is an identifier in one of five spaces. What a block declares is read
off the block (`Block.name?`), what a document declares off all of its nodes
(`Blocks.names`). The index walks the blocks in its own way and keeps one
namespace for each space; both count alike (`DocumentIndex.occurrences_build`),
so a name is repeated in the index when two nodes declare it.
-/

namespace Crosslink

/-- What an identifier is an identifier of. Link definitions and aliases
share a space. -/
inductive NameSpace where
  | anchor
  | citation
  | numericFootnote
  | labelledFootnote
  | link
deriving DecidableEq

structure Name where
  space : NameSpace
  id : String
deriving DecidableEq

/-- The name that a block declares; a link definition without an id is
anonymous. -/
def Block.name? : Block → Option Name
  | .header h => h.id.map (Name.mk .anchor)
  | .title t => t.id.map (Name.mk .anchor)
  | .sectionOf h _ => h.id.map (Name.mk .anchor)
  | .anchor id => some ⟨.anchor, id⟩
  | .citation label _ _ => some ⟨.citation, label⟩
  | .footnoteDefinition (.numeric number) _ =>
    some ⟨.numericFootnote, toString number⟩
  | .footnoteDefinition (.labelled label) _ => some ⟨.labelledFootnote, label⟩
  | .linkAlias indirection => some ⟨.link, indirection.id⟩
  | .linkDefinition definition =>
    if definition.id = "" then none else some ⟨.link, definition.id⟩
  | _ => none

def Node.name? : Node → Option Name
  | .span _ => none
  | .block b => b.name?

theorem Node.name?_span (span : Span) : name? (.span span) = none := rfl

/-- The names declared anywhere in a sequence of blocks, each as often as it
is declared. -/
abbrev Blocks.names (blocks : List Block) : List Name :=
  Blocks.collect Node.name? .everywhere blocks

/-! ## The two walks -/

/-- The name of a declaration, if it has one. -/
def Declaration.name? : Declaration → Option Name
  | .anchor id => some ⟨.anchor, id⟩
  | .citation label => some ⟨.citation, label⟩
  | .footnote (.numeric number) => some ⟨.numericFootnote, toString number⟩
  | .footnote (.labelled label) => some ⟨.labelledFootnote, label⟩
  | .footnote .autonumber => none
  | .footnote .autosymbol => none
  | .anonymous _ => none
  | .definition id _ => some ⟨.link, id⟩

theorem Declaration.names_anchors (id : Option String) :
    (anchors id).filterMap name? = (id.map (Name.mk .anchor)).toList := by
  cases id <;> rfl

@[simp] theorem Spans.names (spans : List Span) :
    Spans.collect Node.name? .everywhere spans = [] :=
  Spans.collect_of_blocks Node.name?_span _ spans

mutual

theorem Block.names_perm : ∀ block : Block, block.problems = [] →
    (block.collect Node.name? .everywhere).Perm
      (block.declarations.filterMap Declaration.name?)
  | .header header, _ => by
      simp [Block.declarations, Declaration.names_anchors, Node.name?, Block.name?]
  | .title title, _ => by
      simp [Block.declarations, Declaration.names_anchors, Node.name?, Block.name?]
  | .sectionOf header content, h => by
      simp at h
      simp [Block.declarations, Declaration.names_anchors, Node.name?, Block.name?]
      exact (List.perm_append_comm.trans
        ((Blocks.names_perm content h.2).append_left _))
  | .quoted content, h => by
      simp at h
      simpa [Block.declarations, Node.name?, Block.name?] using
        Blocks.names_perm content h
  | .anchor id, _ => by rfl
  | .linkDefinition definition, _ => by
      by_cases hid : definition.id = ""
      · simp [Block.declarations, Declaration.ofDefinition, Node.name?,
          Block.name?, hid, Declaration.name?]
      · simp [Block.declarations, Declaration.ofDefinition, Node.name?,
          Block.name?, hid, Declaration.name?]
  | .linkAlias indirection, _ => by rfl
  | .citation label id content, h => by
      simp at h
      simp [Block.declarations, Declaration.name?, Node.name?, Block.name?]
      exact List.perm_append_comm.trans ((Blocks.names_perm content h).cons _)
  | .footnoteDefinition label content, h => by
      simp at h
      have hcontent := Blocks.names_perm content h
      cases label with
      | autonumber | autosymbol =>
          simpa [Block.declarations, List.filterMap_cons, Declaration.name?,
            Node.name?, Block.name?] using hcontent
      | numeric number =>
          simp [Block.declarations, Declaration.name?, Node.name?, Block.name?]
          exact List.perm_append_comm.trans (hcontent.cons _)
      | labelled label =>
          simp [Block.declarations, Declaration.name?, Node.name?, Block.name?]
          exact List.perm_append_comm.trans (hcontent.cons _)
  | .footnote id label content, h => by
      simp at h
      simpa [Block.declarations, Node.name?, Block.name?] using
        Blocks.names_perm content h
  | .invalid fallback problem, h => by simp at h
  | .reference kind source, _ => by
      simp [Block.declarations, Node.name?, Block.name?,
        ReferenceKind.collect_of_blocks Node.name?_span]
  | .paragraph _, _ | .codeBlock _ _, _ | .rule, _ | .verbatim _ _, _
  | .decoratedHeader _, _ => by
      simp [Block.declarations, Node.name?, Block.name?]

/-- The index sees every name, as often as it is declared. -/
theorem Blocks.names_perm : ∀ blocks : List Block, Blocks.problems blocks = [] →
    (Blocks.names blocks).Perm
      ((Blocks.declarations blocks).filterMap Declaration.name?)
  | [], _ => .nil
  | block :: blocks, h => by
      simp at h
      rw [Blocks.names, Blocks.collect_cons, Blocks.declarations,
        List.filterMap_append]
      exact (Block.names_perm block h.1).append (Blocks.names_perm blocks h.2)

end

/-! ## Counting -/

/-- How often a name is declared in the namespace of its space. -/
def DocumentIndex.occurrences (index : DocumentIndex) (name : Name) : Nat :=
  match name.space with
  | .anchor => (index.anchors.values name.id).length
  | .citation => (index.citations.values name.id).length
  | .numericFootnote => (index.numericFootnotes.values name.id).length
  | .labelledFootnote => (index.labelledFootnotes.values name.id).length
  | .link => (index.linkDefinitions.values name.id).length

theorem Namespace.length_values {α : Type} (ns : Namespace α) (id : String) :
    (ns.values id).length = (ns.declared.map Prod.fst).count id := by
  rw [values, List.length_filterMap_eq_countP, List.count_eq_countP,
    List.countP_map]
  refine List.countP_congr fun entry _ => ?_
  by_cases hid : entry.1 = id <;> simp [hid]

theorem Namespace.length_values_ofNames (names : List String) (id : String) :
    ((ofNames names).values id).length = names.count id := by
  rw [length_values, ofNames, List.map_map]
  exact congrArg (List.count id) (List.map_id names)

/-- Identifiers of one space among the declarations, counted as names. -/
theorem Declaration.count_eq {f : Declaration → Option String} {space : NameSpace}
    (h : ∀ (declaration : Declaration) (id : String),
      f declaration = some id ↔ declaration.name? = some ⟨space, id⟩)
    (declarations : List Declaration) (id : String) :
    (declarations.filterMap f).count id
      = (declarations.filterMap name?).count ⟨space, id⟩ := by
  have hmap : ∀ {β : Type} [DecidableEq β] (found : Option β) (b : β),
      (found.map (· == b)).getD false = true ↔ found = some b := by
    intro β _ found b
    cases found <;> simp
  simp only [List.count_eq_countP, List.countP_filterMap]
  refine List.countP_congr fun declaration _ => ?_
  rw [hmap, hmap]
  exact h declaration id

theorem DocumentIndex.occurrences_ofDeclarations (declarations : List Declaration)
    (name : Name) :
    (ofDeclarations declarations).occurrences name
      = (declarations.filterMap Declaration.name?).count name := by
  obtain ⟨space, id⟩ := name
  cases space with
  | anchor =>
      refine (Namespace.length_values_ofNames _ id).trans
        (Declaration.count_eq (fun declaration id => ?_) declarations id)
      cases declaration with
      | footnote label => cases label <;> simp [Declaration.anchor?, Declaration.name?]
      | _ => simp [Declaration.anchor?, Declaration.name?]
  | citation =>
      refine (Namespace.length_values_ofNames _ id).trans
        (Declaration.count_eq (fun declaration id => ?_) declarations id)
      cases declaration with
      | footnote label => cases label <;> simp [Declaration.citation?, Declaration.name?]
      | _ => simp [Declaration.citation?, Declaration.name?]
  | numericFootnote =>
      refine (Namespace.length_values_ofNames _ id).trans
        (Declaration.count_eq (fun declaration id => ?_) declarations id)
      cases declaration with
      | footnote label => cases label <;> simp [Declaration.number?, Declaration.name?]
      | _ => simp [Declaration.number?, Declaration.name?]
  | labelledFootnote =>
      refine (Namespace.length_values_ofNames _ id).trans
        (Declaration.count_eq (fun declaration id => ?_) declarations id)
      cases declaration with
      | footnote label => cases label <;> simp [Declaration.labelled?, Declaration.name?]
      | _ => simp [Declaration.labelled?, Declaration.name?]
  | link =>
      refine (Namespace.length_values _ id).trans ?_
      rw [ofDeclarations, List.map_filterMap]
      refine Declaration.count_eq (fun declaration id => ?_) declarations id
      cases declaration with
      | footnote label => cases label <;> simp [Declaration.definition?, Declaration.name?]
      | _ => simp [Declaration.definition?, Declaration.name?]

/-- The index counts every name as the nodes do. -/
theorem DocumentIndex.occurrences_build {blocks : List Block}
    (h : Blocks.problems blocks = []) (name : Name) :
    (build blocks).occurrences name = (Blocks.names blocks).count name :=
  (occurrences_ofDeclarations _ name).trans
    ((Blocks.names_perm blocks h).count_eq name).symm

end Crosslink

import Mathlib.Data.List.Forall2
import Mathlib.Logic.Relation
import Crosslink.Tree

/-!
# Documents taken out and put back

Whatever goes through the places of a tree meets its documents in tree order, and
what it leaves there is what it makes of the list of documents
(`DocumentRoot.documents_mapM`). The tree around the documents stays as it is:
`Agrees R` says that two trees differ in nothing but their documents, and that the
documents at one place are related by `R`. A tree is known by what is around the
documents and the list of them (`DocumentRoot.Agrees.of_documents`), so what is done
to a root comes down to what is done to a list.

Taking documents out lists them and leaves the skeleton (`detach_eq`). Putting a
supply back is `overwrite` on the list of documents: the supply comes first, and
places it does not reach keep what they hold. So the documents of a root that got a
full set back are that set (`documents_attach`), and a root that gets its own
documents back is the same as before (`attach_documents`).
-/

namespace Crosslink

/-! ## Tree order -/

section

variable {σ : Type} (step : Document → StateM σ Document)

theorem toList_mapM (document : Option Document) :
    Option.toList <$> document.mapM step = document.toList.mapM step := by
  cases document <;> simp

mutual

theorem TreeNode.documents_mapM : ∀ node : TreeNode,
    TreeNode.documents <$> node.mapM step = node.documents.mapM step
  | .document document => by simp [TreeNode.mapM, TreeNode.documents]
  | .tree path config titleDocument children => by
      rw [TreeNode.documents, List.mapM_append, ← toList_mapM,
        ← TreeNodes.documents_mapM children]
      simp [TreeNode.mapM, TreeNode.documents]

theorem TreeNodes.documents_mapM : ∀ nodes : List TreeNode,
    TreeNodes.documents <$> TreeNodes.mapM step nodes
      = (TreeNodes.documents nodes).mapM step
  | [] => by simp [TreeNodes.mapM, TreeNodes.documents]
  | node :: nodes => by
      rw [TreeNodes.documents, List.mapM_append, ← TreeNode.documents_mapM node,
        ← TreeNodes.documents_mapM nodes]
      simp [TreeNodes.mapM, TreeNodes.documents]

end

/-- Going through the places of a root is going through the list of its documents. -/
theorem DocumentRoot.documents_mapM (r : DocumentRoot) :
    DocumentRoot.documents <$> r.mapM step = r.documents.mapM step := by
  rw [documents, DocumentTree.documents, List.mapM_append, List.mapM_append,
    ← toList_mapM, ← toList_mapM, ← TreeNodes.documents_mapM]
  simp [mapM, DocumentTree.mapM, documents, DocumentTree.documents]

end

/-! ## Trees that differ in their documents -/

mutual

/-- The nodes are the same but for the documents, and the documents at one place are
related by `R`. -/
inductive TreeNode.Agrees (R : Document → Document → Prop) : TreeNode → TreeNode → Prop
  | document {d d' : Document} (h : R d d') :
      TreeNode.Agrees R (.document d) (.document d')
  | tree {path : AbsolutePath} {config : Config} {titleDocument titleDocument' : Option Document}
      {children children' : List TreeNode}
      (htitle : Option.Rel R titleDocument titleDocument')
      (hchildren : TreeNodes.Agrees R children children') :
      TreeNode.Agrees R (.tree path config titleDocument children)
        (.tree path config titleDocument' children')

inductive TreeNodes.Agrees (R : Document → Document → Prop) :
    List TreeNode → List TreeNode → Prop
  | nil : TreeNodes.Agrees R [] []
  | cons {node node' : TreeNode} {nodes nodes' : List TreeNode}
      (hnode : TreeNode.Agrees R node node') (hnodes : TreeNodes.Agrees R nodes nodes') :
      TreeNodes.Agrees R (node :: nodes) (node' :: nodes')

end

/-- The roots are the same but for the documents, and the documents at one place are
related by `R`. -/
structure DocumentRoot.Agrees (R : Document → Document → Prop) (r r' : DocumentRoot) :
    Prop where
  cover : Option.Rel R r.cover r'.cover
  staticDocuments : r'.staticDocuments = r.staticDocuments
  path : r'.tree.path = r.tree.path
  config : r'.tree.config = r.tree.config
  titleDocument : Option.Rel R r.tree.titleDocument r'.tree.titleDocument
  children : TreeNodes.Agrees R r.tree.children r'.tree.children

section

variable {R S : Document → Document → Prop}

/-! ### Documents at one place -/

theorem forall₂_toList {d d' : Option Document} (h : Option.Rel R d d') :
    List.Forall₂ R d.toList d'.toList := by
  cases h with
  | some h => exact .cons h .nil
  | none => exact .nil

mutual

theorem TreeNode.Agrees.documents {node node' : TreeNode} :
    node.Agrees R node' → List.Forall₂ R node.documents node'.documents
  | .document h => .cons h .nil
  | .tree htitle hchildren => by
      rw [TreeNode.documents, TreeNode.documents]
      exact List.rel_append (forall₂_toList htitle) hchildren.documents

theorem TreeNodes.Agrees.documents {nodes nodes' : List TreeNode} :
    TreeNodes.Agrees R nodes nodes' →
      List.Forall₂ R (TreeNodes.documents nodes) (TreeNodes.documents nodes')
  | .nil => .nil
  | .cons hnode hnodes => by
      rw [TreeNodes.documents, TreeNodes.documents]
      exact List.rel_append hnode.documents hnodes.documents

end

theorem DocumentRoot.Agrees.documents {r r' : DocumentRoot} (h : r.Agrees R r') :
    List.Forall₂ R r.documents r'.documents :=
  List.rel_append (forall₂_toList h.cover)
    (List.rel_append (forall₂_toList h.titleDocument) h.children.documents)

/-! ### A tree from its documents -/

/-- Two lists of documents, each in two parts of one length, are related part by part. -/
theorem forall₂_of_append {first first' second second' : List Document}
    (hlength : first.length = first'.length)
    (h : List.Forall₂ R (first ++ second) (first' ++ second')) :
    List.Forall₂ R first first' ∧ List.Forall₂ R second second' := by
  have hfirst := List.forall₂_take_append _ _ _ h
  have hsecond := List.forall₂_drop_append _ _ _ h
  rw [List.take_left' hlength] at hfirst
  rw [List.drop_left' hlength] at hsecond
  exact ⟨hfirst, hsecond⟩

theorem rel_of_toList {d d' : Option Document} (hplace : Option.Rel S d d')
    (h : List.Forall₂ R d.toList d'.toList) : Option.Rel R d d' := by
  cases hplace with
  | none => exact .none
  | some _ =>
      cases h with
      | cons h _ => exact .some h

mutual

theorem TreeNode.Agrees.of_documents {node node' : TreeNode} :
    node.Agrees S node' → List.Forall₂ R node.documents node'.documents →
      node.Agrees R node'
  | .document _, .cons h _ => .document h
  | .tree htitle hchildren, h => by
      have hlength := (forall₂_toList htitle).length_eq
      obtain ⟨hfirst, hrest⟩ := forall₂_of_append hlength h
      exact .tree (rel_of_toList htitle hfirst) (hchildren.of_documents hrest)

theorem TreeNodes.Agrees.of_documents {nodes nodes' : List TreeNode} :
    TreeNodes.Agrees S nodes nodes' →
      List.Forall₂ R (TreeNodes.documents nodes) (TreeNodes.documents nodes') →
      TreeNodes.Agrees R nodes nodes'
  | .nil, _ => .nil
  | .cons hnode hnodes, h => by
      obtain ⟨hfirst, hrest⟩ := forall₂_of_append hnode.documents.length_eq h
      exact .cons (hnode.of_documents hfirst) (hnodes.of_documents hrest)

end

/-- How the documents at one place are related shows in the lists of documents. -/
theorem DocumentRoot.Agrees.of_documents {r r' : DocumentRoot} (h : r.Agrees S r')
    (hdocuments : List.Forall₂ R r.documents r'.documents) : r.Agrees R r' := by
  obtain ⟨hcover, hrest⟩ :=
    forall₂_of_append (forall₂_toList h.cover).length_eq hdocuments
  obtain ⟨htitle, hchildren⟩ :=
    forall₂_of_append (forall₂_toList h.titleDocument).length_eq hrest
  exact
    { cover := rel_of_toList h.cover hcover
      staticDocuments := h.staticDocuments
      path := h.path
      config := h.config
      titleDocument := rel_of_toList h.titleDocument htitle
      children := h.children.of_documents hchildren }

/-! ### A tree like one that is like another -/

theorem comp_of_rel {d d' d'' : Option Document} (h : Option.Rel R d d')
    (h' : Option.Rel S d' d'') : Option.Rel (Relation.Comp R S) d d'' := by
  cases h with
  | none =>
      cases h'
      exact .none
  | some h =>
      cases h' with
      | some h' => exact .some ⟨_, h, h'⟩

mutual

theorem TreeNode.Agrees.comp {node node' node'' : TreeNode} :
    node.Agrees R node' → node'.Agrees S node'' → node.Agrees (Relation.Comp R S) node''
  | .document h, .document h' => .document ⟨_, h, h'⟩
  | .tree htitle hchildren, .tree htitle' hchildren' =>
      .tree (comp_of_rel htitle htitle') (hchildren.comp hchildren')

theorem TreeNodes.Agrees.comp {nodes nodes' nodes'' : List TreeNode} :
    TreeNodes.Agrees R nodes nodes' → TreeNodes.Agrees S nodes' nodes'' →
      TreeNodes.Agrees (Relation.Comp R S) nodes nodes''
  | .nil, .nil => .nil
  | .cons hnode hnodes, .cons hnode' hnodes' =>
      .cons (hnode.comp hnode') (hnodes.comp hnodes')

end

theorem DocumentRoot.Agrees.comp {r r' r'' : DocumentRoot} (h : r.Agrees R r')
    (h' : r'.Agrees S r'') : r.Agrees (Relation.Comp R S) r'' where
  cover := comp_of_rel h.cover h'.cover
  staticDocuments := h'.staticDocuments.trans h.staticDocuments
  path := h'.path.trans h.path
  config := h'.config.trans h.config
  titleDocument := comp_of_rel h.titleDocument h'.titleDocument
  children := h.children.comp h'.children

/-! ### The same tree -/

theorem eq_of_rel {d d' : Option Document} (h : Option.Rel Eq d d') : d' = d := by
  cases h with
  | some h => rw [h]
  | none => rfl

mutual

theorem TreeNode.Agrees.eq {node node' : TreeNode} : node.Agrees Eq node' → node' = node
  | .document h => by rw [h]
  | .tree htitle hchildren => by rw [eq_of_rel htitle, hchildren.eq]

theorem TreeNodes.Agrees.eq {nodes nodes' : List TreeNode} :
    TreeNodes.Agrees Eq nodes nodes' → nodes' = nodes
  | .nil => rfl
  | .cons hnode hnodes => by rw [hnode.eq, hnodes.eq]

end

theorem DocumentRoot.Agrees.eq {r r' : DocumentRoot} (h : r.Agrees Eq r') : r' = r := by
  obtain ⟨cover, staticDocuments, path, config, titleDocument, children⟩ := r
  obtain ⟨cover', staticDocuments', path', config', titleDocument', children'⟩ := r'
  rw [DocumentRoot.mk.injEq, DocumentTree.mk.injEq]
  exact ⟨eq_of_rel h.cover, h.staticDocuments, h.path, h.config,
    eq_of_rel h.titleDocument, h.children.eq⟩

/-! ### Going through a tree keeps what is around the documents -/

theorem rel_mapM {σ : Type} {step : Document → StateM σ Document}
    (h : ∀ d s, R d (step d s).1) (d : Option Document) (s : σ) :
    Option.Rel R d (d.mapM step s).1 := by
  cases d with
  | none => exact .none
  | some d => exact .some (h d s)

mutual

theorem TreeNode.agrees_mapM {σ : Type} {step : Document → StateM σ Document}
    (h : ∀ d s, R d (step d s).1) : ∀ (node : TreeNode) (s : σ),
    node.Agrees R (node.mapM step s).1
  | .document d, s => .document (h d s)
  | .tree _ _ titleDocument children, s =>
      .tree (rel_mapM h titleDocument s)
        (TreeNodes.agrees_mapM h children (titleDocument.mapM step s).2)

theorem TreeNodes.agrees_mapM {σ : Type} {step : Document → StateM σ Document}
    (h : ∀ d s, R d (step d s).1) : ∀ (nodes : List TreeNode) (s : σ),
    TreeNodes.Agrees R nodes (TreeNodes.mapM step nodes s).1
  | [], _ => .nil
  | node :: nodes, s =>
      .cons (node.agrees_mapM h s) (TreeNodes.agrees_mapM h nodes (node.mapM step s).2)

end

theorem DocumentRoot.agrees_mapM {σ : Type} {step : Document → StateM σ Document}
    (h : ∀ d s, R d (step d s).1) (r : DocumentRoot) (s : σ) :
    r.Agrees R (r.mapM step s).1 where
  cover := rel_mapM h r.cover s
  staticDocuments := rfl
  path := rfl
  config := rfl
  titleDocument := rel_mapM h r.tree.titleDocument _
  children := TreeNodes.agrees_mapM h r.tree.children _

end

/-! ## Taking documents out -/

/-- A step with a known outcome, and what follows it. -/
theorem bind_of_eq {σ α β : Type} {x : StateM σ α} {f : α → StateM σ β} {s s' : σ} {a : α}
    (h : x s = (a, s')) : (x >>= f) s = f a s' := by
  show f (x s).1 (x s).2 = f a s'
  rw [h]

theorem layAside_toList (d : Option Document) (taken : List Document) :
    d.mapM layAside taken = (d.map Document.placeholder, taken ++ d.toList) := by
  cases d with
  | none => exact congrArg (Prod.mk none) (List.append_nil taken).symm
  | some d => rfl

mutual

theorem TreeNode.mapM_layAside : ∀ (node : TreeNode) (taken : List Document),
    node.mapM layAside taken = (node.skeleton, taken ++ node.documents)
  | .document _, _ => rfl
  | .tree _ _ titleDocument children, taken => by
      have hchildren := TreeNodes.mapM_layAside children (taken ++ titleDocument.toList)
      rw [List.append_assoc] at hchildren
      rw [TreeNode.mapM, bind_of_eq (layAside_toList titleDocument taken),
        bind_of_eq hchildren]
      rfl

theorem TreeNodes.mapM_layAside : ∀ (nodes : List TreeNode) (taken : List Document),
    TreeNodes.mapM layAside nodes taken
      = (TreeNodes.skeleton nodes, taken ++ TreeNodes.documents nodes)
  | [], taken => congrArg (Prod.mk []) (List.append_nil taken).symm
  | node :: nodes, taken => by
      have hnodes := TreeNodes.mapM_layAside nodes (taken ++ node.documents)
      rw [List.append_assoc] at hnodes
      rw [TreeNodes.mapM, bind_of_eq (node.mapM_layAside taken), bind_of_eq hnodes]
      rfl

end

theorem DocumentTree.mapM_layAside (t : DocumentTree) (taken : List Document) :
    t.mapM layAside taken = (t.skeleton, taken ++ t.documents) := by
  have hchildren := TreeNodes.mapM_layAside t.children (taken ++ t.titleDocument.toList)
  rw [List.append_assoc] at hchildren
  rw [mapM, bind_of_eq (layAside_toList t.titleDocument taken), bind_of_eq hchildren]
  rfl

namespace DocumentRoot

/-- Taking the documents out leaves the skeleton and lists them in tree order. -/
theorem detach_eq (r : DocumentRoot) : r.detach = (r.skeleton, r.documents) := by
  show r.mapM layAside [] = _
  rw [mapM, bind_of_eq (layAside_toList r.cover []), List.nil_append,
    bind_of_eq (r.tree.mapM_layAside r.cover.toList)]
  rfl

theorem agrees_skeleton (r : DocumentRoot) :
    r.Agrees (fun d held => held = d.placeholder) r.skeleton := by
  have hplace : ∀ d taken, (layAside d taken).1 = d.placeholder := fun _ _ => rfl
  have hdetached : r.Agrees (fun d held => held = d.placeholder) r.detach.1 :=
    r.agrees_mapM hplace []
  rwa [detach_eq] at hdetached

theorem documents_skeleton (r : DocumentRoot) :
    r.skeleton.documents = r.documents.map Document.placeholder := by
  have hplaces : List.Forall₂ Eq (r.documents.map Document.placeholder)
      r.skeleton.documents :=
    List.forall₂_map_left_iff.mpr (r.agrees_skeleton.documents.imp fun _ _ h => Eq.symm h)
  rw [List.forall₂_eq_eq_eq] at hplaces
  exact hplaces.symm

end DocumentRoot

/-! ## Putting documents back -/

/-- A supply laid over a list of places: places left over keep what they
hold, surplus supply is dropped. -/
def overwrite (supply held : List Document) : List Document :=
  supply.take held.length ++ held.drop supply.length

theorem overwrite_of_length_eq {supply held : List Document}
    (h : supply.length = held.length) : overwrite supply held = supply := by
  rw [overwrite, ← h, List.take_length, h, List.drop_length, List.append_nil]

theorem mapM_nextDocument (held supply : List Document) :
    held.mapM nextDocument supply = (overwrite supply held, supply.drop held.length) := by
  induction held generalizing supply with
  | nil =>
      rw [overwrite, List.length_nil, List.take_zero, List.drop_nil]
      rfl
  | cons d held ih =>
      rw [List.mapM_cons]
      cases supply with
      | nil =>
          have hkept : nextDocument d [] = (d, []) := rfl
          rw [bind_of_eq hkept, bind_of_eq (ih [])]
          show (d :: overwrite [] held, List.drop held.length []) = _
          simp [overwrite]
      | cons document supply =>
          have htaken : nextDocument d (document :: supply) = (document, supply) := rfl
          rw [bind_of_eq htaken, bind_of_eq (ih supply)]
          rfl

namespace DocumentRoot

/-- What the places of a root hold after a supply was put into them. -/
theorem documents_attach_eq_overwrite (r : DocumentRoot)
    (supply : List Document) :
    (r.attach supply).documents = overwrite supply r.documents := by
  have hlist := congrFun (r.documents_mapM nextDocument) supply
  rw [mapM_nextDocument] at hlist
  exact congrArg Prod.fst hlist

/-- A full set of documents replaces the old one. -/
theorem documents_attach (r : DocumentRoot) {supply : List Document}
    (h : supply.length = r.documents.length) :
    (r.skeleton.attach supply).documents = supply := by
  rw [documents_attach_eq_overwrite, documents_skeleton]
  exact overwrite_of_length_eq (by rw [List.length_map]; exact h)

/-- Putting documents back changes nothing around them. -/
theorem agrees_attach (r : DocumentRoot) (supply : List Document) :
    r.Agrees (fun _ _ => True) (r.attach supply) :=
  r.agrees_mapM (fun _ _ => trivial) supply

/-- A root that gets its own documents back is restored. -/
theorem attach_documents (r : DocumentRoot) : r.skeleton.attach r.documents = r := by
  have hplaces := r.agrees_skeleton.comp (r.skeleton.agrees_attach r.documents)
  refine (hplaces.of_documents (R := Eq) ?_).eq
  rw [documents_attach r rfl]
  exact List.forall₂_refl _

theorem mem_of_document?_eq_some {r : DocumentRoot} {path : AbsolutePath}
    {d : Document} (h : r.document? path = some d) :
    d ∈ r.documents ∧ d.path = path.withoutFragment := by
  rw [document?] at h
  exact ⟨List.mem_of_find?_eq_some h, by simpa using List.find?_some h⟩

end DocumentRoot

end Crosslink

import Crosslink.Proofs.Phases

/-!
# What is around the documents

A phase takes the documents out of the tree, works on the list and puts the results
back. Everything around the documents stays as it is, and every result gets into the
place that its document came from (`DocumentRoot.agrees_phase`). The work of either
phase keeps path and configuration, so the resolved tree has at every place a document
with the path and the configuration of the one that was there
(`DocumentRoot.agrees_resolve`).

A supply of another length is put back as far as it goes: the places left over hold
their placeholders, and what is left of the supply is dropped
(`DocumentRoot.places_kept`).
-/

namespace Crosslink

namespace DocumentRoot

variable (r : DocumentRoot)

/-- A phase puts into every place what it made of the document there. -/
theorem agrees_phase (workers : Nat) (settle : Document → Document × List Diagnostic) :
    r.Agrees (fun d out => out = (settle d).1) (r.phase workers settle).1 := by
  rw [phase_eq]
  have haround := r.agrees_skeleton.comp
    (r.skeleton.agrees_attach (r.documents.map fun d => (settle d).1))
  have hlength : (r.documents.map fun d => (settle d).1).length = r.documents.length :=
    List.length_map _
  refine haround.of_documents ?_
  rw [documents_attach r hlength, List.forall₂_map_right_iff, List.forall₂_same]
  exact fun _ _ => rfl

/-- At every place the resolved tree has a document with the path and the
configuration of the one that was there. -/
theorem agrees_resolve (workers : Nat) :
    r.Agrees (fun d final => final.path = d.path ∧ final.config = d.config)
      (r.resolve workers).root := by
  have hfirst := r.agrees_phase workers Document.localPhase
  have hsecond := (r.phase workers Document.localPhase).1.agrees_phase workers
    (Document.globalPhase (.build (r.phase workers Document.localPhase).1))
  have hboth := hfirst.comp hsecond
  refine hboth.of_documents (hboth.documents.imp ?_)
  rintro d final ⟨settled, rfl, rfl⟩
  exact ⟨rfl, rfl⟩

/-- Taking the documents out lists them in tree order and leaves placeholders in a tree
that is the same otherwise. A supply is put back in tree order, from the first place on;
the documents taken out restore the root. So resolution keeps, at every place, the path
and the configuration of the document there, and everything around the documents. -/
theorem places_kept :
    r.detach.2 = r.documents
      ∧ r.Agrees (fun d held => held = d.placeholder) r.detach.1
      ∧ (∀ supply : List Document,
          r.Agrees (fun _ _ => True) (r.detach.1.attach supply)
            ∧ (r.detach.1.attach supply).documents
              = supply.take r.documents.length
                ++ (r.documents.drop supply.length).map Document.placeholder)
      ∧ r.detach.1.attach r.detach.2 = r
      ∧ ∀ workers : Nat,
          r.Agrees (fun d final => final.path = d.path ∧ final.config = d.config)
            (r.resolve workers).root := by
  rw [detach_eq]
  refine ⟨rfl, r.agrees_skeleton, fun supply => ⟨?_, ?_⟩, r.attach_documents,
    r.agrees_resolve⟩
  · have haround := r.agrees_skeleton.comp (r.skeleton.agrees_attach supply)
    exact haround.of_documents (haround.documents.imp fun _ _ _ => trivial)
  · rw [documents_attach_eq_overwrite, documents_skeleton, overwrite, List.length_map,
      List.map_drop]

end DocumentRoot

end Crosslink

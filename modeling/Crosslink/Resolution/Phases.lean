import Crosslink.Outline.Sections
import Crosslink.Resolution.Pass
import Crosslink.Resolution.WorkerPool

/-!
# Resolving a tree

Resolution has two phases. The local phase outlines every document and
settles what its own declarations decide. Then the tree is indexed once,
and the global phase settles what is left. Within a phase the documents do
not see each other, so they can be shared out to any number of workers.
-/

namespace Crosslink

/-- A resolved tree and one diagnostic for every invalid node made. -/
structure Resolution where
  diagnostics : List Diagnostic
  root : DocumentRoot

namespace Document

/-- One pass over the document as it is. -/
def pass (d : Document) (tree : Option TreeIndex) :
    Document × List Diagnostic :=
  let scope : Scope := ⟨d.path, d.config, .build d.content, tree⟩
  let (content, diagnostics) := scope.run d.content
  ({ d with content := content }, diagnostics)

/-- The document with title, levels, ids and sections. -/
def outlined (d : Document) : Document :=
  { d with content := buildOutline d.config.firstHeaderAsTitle d.content }

/-- Outlines a document and settles what it can on its own. -/
def localPhase (d : Document) : Document × List Diagnostic :=
  d.outlined.pass none

/-- Settles what needs the tree. -/
def globalPhase (tree : TreeIndex) (d : Document) :
    Document × List Diagnostic :=
  d.pass (some tree)

end Document

namespace DocumentRoot

/-- One phase over all documents: the new tree and what was reported for
each document. -/
def phase (r : DocumentRoot) (workers : Nat)
    (settle : Document → Document × List Diagnostic) :
    DocumentRoot × List (List Diagnostic) :=
  let (skeleton, documents) := r.detach
  let results := WorkerPool.mapInOrder settle workers documents
  (skeleton.attach (results.map (·.1)), results.map (·.2))

/-- Resolves every reference of the tree, on at most the given number of
workers. The diagnostics of a document stand together, those of the local
phase first. -/
def resolve (r : DocumentRoot) (workers : Nat) : Resolution :=
  let (settled, localReports) := r.phase workers Document.localPhase
  let tree := TreeIndex.build settled
  let (resolved, globalReports) :=
    settled.phase workers (Document.globalPhase tree)
  { diagnostics := (localReports.zipWith (· ++ ·) globalReports).flatten
    root := resolved }

end DocumentRoot

end Crosslink

import Crosslink.Resolution.Phases
import Crosslink.Proofs.Outline
import Crosslink.Proofs.Pass
import Crosslink.Proofs.Tree
import Crosslink.Proofs.WorkerPool

/-!
# The two phases, document by document

What resolution makes of a tree is what it makes of each document against
one index, whatever the number of workers (`documents_resolve`,
`diagnostics_resolve`). The index is `settledIndex`: it is built from the
documents as the local phase leaves them. Both passes over a document
follow the rules of `Crosslink.Proofs.Yields`, each in its own scope
(`yields_settled`, `yields_finished`).
-/

namespace Crosslink

/-! ## One document -/

namespace Document

/-- What the first pass over the document looks at. -/
def firstScope (d : Document) : Scope :=
  ⟨d.path, d.config, .build d.outlined.content, none⟩

/-- The document after the local phase. -/
def settled (d : Document) : Document := d.localPhase.1

/-- What the second pass over the document looks at. -/
def secondScope (d : Document) (tree : TreeIndex) : Scope :=
  ⟨d.path, d.config, .build d.settled.content, some tree⟩

/-- The document after both phases. -/
def finished (d : Document) (tree : TreeIndex) : Document :=
  (d.settled.globalPhase tree).1

/-- What both phases report for the document. -/
def reports (d : Document) (tree : TreeIndex) : List Diagnostic :=
  d.localPhase.2 ++ (d.settled.globalPhase tree).2

variable (d : Document) (tree : TreeIndex)

@[simp] theorem path_finished : (d.finished tree).path = d.path := rfl

/-- The first pass follows the rules. -/
theorem yields_settled :
    ∃ problems, Blocks.Yields d.firstScope d.outlined.content d.settled.content
        problems
      ∧ d.localPhase.2 = problems.map (Diagnostic.mk d.path) :=
  Scope.yields_run d.firstScope d.outlined.content

/-- The second pass follows the rules. -/
theorem yields_finished :
    ∃ problems, Blocks.Yields (d.secondScope tree) d.settled.content
        (d.finished tree).content problems
      ∧ (d.settled.globalPhase tree).2 = problems.map (Diagnostic.mk d.path) :=
  Scope.yields_run (d.secondScope tree) d.settled.content

end Document

/-! ## The index between the phases -/

namespace TreeIndex

theorem foldl_record {documents : List Document}
    {summaries : List (AbsolutePath × DocumentSummary)}
    (hpaths : (documents.map Document.path).Nodup)
    (hnew : ∀ entry ∈ summaries, ∀ d ∈ documents, entry.1 ≠ d.path) :
    documents.foldl record summaries
      = summaries ++ documents.map fun d => (d.path, summarize d) := by
  induction documents generalizing summaries with
  | nil => exact (List.append_nil _).symm
  | cons d documents ih =>
      obtain ⟨hd, hpaths⟩ := List.nodup_cons.mp hpaths
      have hkept : summaries.filter (·.1 != d.path) = summaries :=
        List.filter_eq_self.mpr fun entry hentry =>
          bne_iff_ne.mpr (hnew entry hentry d List.mem_cons_self)
      rw [List.foldl_cons, record, hkept, ih hpaths, List.append_assoc]
      · rfl
      · intro entry hentry e he
        rcases List.mem_append.mp hentry with hentry | hentry
        · exact hnew entry hentry e (List.mem_cons_of_mem _ he)
        · obtain rfl := List.mem_singleton.mp hentry
          intro heq
          exact hd (List.mem_map.mpr ⟨e, he, heq.symm⟩)

/-- Documents at different paths all have their summary in the index. -/
theorem documents_build {root : DocumentRoot}
    (hpaths : (root.documents.map Document.path).Nodup) :
    (build root).documents
      = root.documents.map fun d => (d.path, summarize d) :=
  foldl_record hpaths fun _ hentry => absurd hentry List.not_mem_nil

end TreeIndex

namespace DocumentRoot

/-- The root with every document as the local phase leaves it. -/
def settled (r : DocumentRoot) : DocumentRoot :=
  r.skeleton.attach (r.documents.map Document.settled)

/-- The index that the global phase uses. -/
def settledIndex (r : DocumentRoot) : TreeIndex := .build r.settled

variable (r : DocumentRoot)

theorem documents_settled :
    r.settled.documents = r.documents.map Document.settled :=
  documents_attach r (by rw [List.length_map])

@[simp] theorem staticDocuments_settledIndex :
    r.settledIndex.staticDocuments = r.staticDocuments := rfl

theorem documents_settledIndex (hpaths : (r.documents.map Document.path).Nodup) :
    r.settledIndex.documents
      = r.documents.map fun d => (d.path, TreeIndex.summarize d.settled) := by
  have hsettled : (r.settled.documents.map Document.path).Nodup := by
    rw [documents_settled, List.map_map]
    exact hpaths
  rw [settledIndex, TreeIndex.documents_build hsettled, documents_settled,
    List.map_map]
  rfl

/-- The index knows of a path what the local phase left there. -/
theorem document?_settledIndex (hpaths : (r.documents.map Document.path).Nodup)
    (path : AbsolutePath) :
    r.settledIndex.document? path
      = (r.document? path).map fun d => TreeIndex.summarize d.settled := by
  rw [TreeIndex.document?, documents_settledIndex r hpaths, document?]
  generalize r.documents = documents
  induction documents with
  | nil => rfl
  | cons d documents ih =>
      rw [List.map_cons, List.lookup_cons, List.find?_cons]
      by_cases hpath : d.path = path.withoutFragment
      · simp [hpath]
      · have hother : (path.withoutFragment == d.path) = false :=
          beq_false_of_ne fun heq => hpath heq.symm
        rw [hother, decide_eq_false hpath]
        exact ih

/-! ## The whole tree -/

theorem phase_eq (workers : Nat) (settle : Document → Document × List Diagnostic) :
    r.phase workers settle
      = (r.skeleton.attach (r.documents.map fun d => (settle d).1),
          r.documents.map fun d => (settle d).2) := by
  simp only [phase, detach_eq, WorkerPool.mapInOrder_eq_map, List.map_map]
  rfl

/-- Resolution treats the documents one by one. -/
theorem resolve_eq (workers : Nat) :
    r.resolve workers =
      ⟨(r.documents.map fun d => d.reports r.settledIndex).flatten,
        r.settled.skeleton.attach
          (r.documents.map fun d => d.finished r.settledIndex)⟩ := by
  have hsettled : r.skeleton.attach (r.documents.map fun d => d.localPhase.1)
      = r.settled := rfl
  have hzip : ∀ (f g : Document → List Diagnostic) (documents : List Document),
      (documents.map f).zipWith (· ++ ·) (documents.map g)
        = documents.map fun d => f d ++ g d := by
    intro f g documents
    rw [List.zipWith_map, List.zipWith_self]
  simp only [resolve, phase_eq, hsettled]
  rw [documents_settled, List.map_map, List.map_map, hzip]
  rfl

/-- The resolved tree holds every document as both phases leave it. -/
theorem documents_resolve (workers : Nat) :
    (r.resolve workers).root.documents
      = r.documents.map fun d => d.finished r.settledIndex := by
  rw [resolve_eq]
  refine documents_attach r.settled ?_
  rw [documents_settled, List.length_map, List.length_map]

theorem staticDocuments_resolve (workers : Nat) :
    (r.resolve workers).root.staticDocuments = r.staticDocuments := by
  rw [resolve_eq]
  rfl

theorem diagnostics_resolve (workers : Nat) :
    (r.resolve workers).diagnostics
      = (r.documents.map fun d => d.reports r.settledIndex).flatten := by
  rw [resolve_eq]

end DocumentRoot

end Crosslink

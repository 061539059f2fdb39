import Crosslink.Files.Scan
import Crosslink.Proofs.Inheritance
import Crosslink.Proofs.Markdown
import Crosslink.Proofs.Tree

/-!
# Scanned roots

`Scans` says all that a scan can do with the entries of a directory, one rule
per kind of entry, and every scan that succeeds follows the rules
(`scans_of_scanEntries`). What holds of scanned roots is shown by induction on
the rules; here it is that every document was read from a file, so no
reference there has references in its text (`DocumentRoot.unnested_of_scan`).
-/

namespace Crosslink

theorem bind_eq_ok {ε α β : Type} {m : Except ε α} {k : α → Except ε β} {b : β}
    (h : (m >>= k) = .ok b) : ∃ a, m = .ok a ∧ k a = .ok b := by
  cases m with
  | error e => cases h
  | ok a => exact ⟨a, rfl, h⟩

/-! ## Layers -/

/-- The layer in a text, with the tree that declares it. -/
def readLayer? (written : String × AbsolutePath) :
    Option (ConfigLayer × AbsolutePath) :=
  (ConfigLayer.parse? written.1).map (·, written.2)

/-- The texts are layers, which can be applied one after the other, and `config`
is what they make of the inherited one by the rules of inheritance. -/
def Configures (inherited : Config) (written : List (String × AbsolutePath))
    (config : Config) : Prop :=
  ∃ layers, written.mapM readLayer? = some layers
    ∧ ConfigLayer.applyAll inherited layers = .ok config
    ∧ ConfigLayer.Inherits inherited layers config

theorem Configures.refl (config : Config) : Configures config [] config :=
  ⟨[], rfl, rfl, .refl config⟩

theorem Configures.append {first second third : Config}
    {outer inner : List (String × AbsolutePath)} (h : Configures first outer second)
    (h' : Configures second inner third) : Configures first (outer ++ inner) third := by
  obtain ⟨layers, hread, happly, hinherits⟩ := h
  obtain ⟨more, hmore, happly', hinherits'⟩ := h'
  exact ⟨layers ++ more, by simp [List.mapM_append, hread, hmore],
    (ConfigLayer.applyAll_append happly).trans happly', hinherits.append hinherits'⟩

theorem configures_of_applyLayer {file source : String} {base : AbsolutePath}
    {inherited config : Config}
    (h : applyLayer file source inherited base = .ok config) :
    Configures inherited [(source, base)] config := by
  unfold applyLayer at h
  split at h
  · cases h
  · next layer hlayer =>
    have happly : ConfigLayer.applyAll inherited [(layer, base)] = .ok config := by
      cases happly : layer.apply inherited base with
      | error error => simp [happly, Except.mapError] at h
      | ok next =>
        rw [happly] at h
        cases h
        simp [ConfigLayer.applyAll, happly]
    exact ⟨[(layer, base)], by simp [readLayer?, hlayer], happly,
      ConfigLayer.inherits_of_applyAll happly⟩

/-- The layer of the directory at `path`. -/
def directoryLayer (path : AbsolutePath) (entries : List (String × FileTree)) :
    List (String × AbsolutePath) :=
  match entries.lookup layerFile with
  | some (.text source) => [(source, path)]
  | _ => []

/-- The layer in a source that stands in the tree at `base`. -/
def frontLayer (base : AbsolutePath) (source : String) :
    List (String × AbsolutePath) :=
  (Markdown.splitFrontMatter source.toList).front.toList.map
    fun front => (String.ofList front, base)

/-- What is known once a scan has the configuration of the directory at
`path`. -/
structure Enters (path : AbsolutePath) (inherited : Config)
    (entries : List (String × FileTree)) (config : Config) : Prop where
  layer : ∀ node, entries.lookup layerFile = some node →
    ∃ source, node = .text source
  config : Configures inherited (directoryLayer path entries) config

theorem enters_of_directoryConfig {place : String} {path : AbsolutePath}
    {inherited config : Config} {entries : List (String × FileTree)}
    (h : directoryConfig place path inherited entries = .ok config) :
    Enters path inherited entries config := by
  unfold directoryConfig at h
  split at h
  · next hnone =>
    cases h
    exact ⟨by simp [hnone], by simpa [directoryLayer, hnone] using .refl inherited⟩
  · next source htext =>
    refine ⟨by simp [htext], ?_⟩
    simpa [directoryLayer, htext] using configures_of_applyLayer h
  · cases h
  · cases h

/-- What is known of the document that was read from a source in the tree at
`base`. -/
structure Document.ReadFrom (d : Document) (source : String)
    (path base : AbsolutePath) (inherited : Config) : Prop where
  path : d.path = path
  content : d.content = Markdown.parse
    (String.ofList (Markdown.splitFrontMatter source.toList).body)
  config : Configures inherited (frontLayer base source) d.config

theorem Document.readFrom_of_read {file source : String}
    {path base : AbsolutePath} {inherited : Config} {d : Document}
    (h : Document.read file source path base inherited = .ok d) :
    d.ReadFrom source path base inherited := by
  unfold Document.read at h
  dsimp only at h
  split at h
  · next front hfront =>
    obtain ⟨config, hconfig, h⟩ := bind_eq_ok h
    cases h
    refine ⟨rfl, by with_reducible rfl, ?_⟩
    simpa [frontLayer, hfront] using configures_of_applyLayer hconfig
  · next hfront =>
    cases h
    refine ⟨rfl, by with_reducible rfl, ?_⟩
    simpa [frontLayer, hfront] using .refl inherited

/-! ## The rules -/

/-- All that a scan can do with some entries of the directory at `base`, whose
configuration is given. -/
inductive Scans : AbsolutePath → Config → List (String × FileTree) → Listing → Prop
  | nil {base : AbsolutePath} {config : Config} : Scans base config [] {}
  | leftOut {base : AbsolutePath} {config : Config} {name : String}
      {node : FileTree} {entries : List (String × FileTree)} {rest : Listing}
      (hname : isLeftOut name = true) (hrest : Scans base config entries rest) :
      Scans base config ((name, node) :: entries) rest
  | document {base : AbsolutePath} {config : Config} {name source : String}
      {d : Document} {entries : List (String × FileTree)} {rest : Listing}
      (hname : isLeftOut name = false) (hfile : isDocumentFile name = true)
      (hread : d.ReadFrom source (base.join name) base config)
      (hrest : Scans base config entries rest) :
      Scans base config ((name, .text source) :: entries)
        ((Listing.ofDocument d).append rest)
  | static {base : AbsolutePath} {config : Config} {name : String}
      {node : FileTree} {entries : List (String × FileTree)} {rest : Listing}
      (hname : isLeftOut name = false) (hfile : isDocumentFile name = false)
      (hnode : ∀ inside, node ≠ .directory inside)
      (hrest : Scans base config entries rest) :
      Scans base config ((name, node) :: entries)
        (Listing.append { staticDocuments := [base.join name] } rest)
  | directory {base : AbsolutePath} {config next : Config} {name : String}
      {inside entries : List (String × FileTree)} {inner rest : Listing}
      (hname : isLeftOut name = false)
      (henters : Enters (base.join name) config inside next)
      (hinside : Scans (base.join name) next inside inner)
      (hrest : Scans base config entries rest) :
      Scans base config ((name, .directory inside) :: entries)
        ((Listing.ofTree (base.join name) next inner).append rest)

theorem Listing.nil_append (l : Listing) : Listing.append {} l = l := by
  simp [append]

mutual

theorem scans_of_scanNode {place name : String} {base : AbsolutePath}
    {config : Config} (hname : isLeftOut name = false)
    {entries : List (String × FileTree)} {rest : Listing}
    (hrest : Scans base config entries rest) : ∀ {node : FileTree} {l : Listing},
    scanNode place name base config node = .ok l →
      Scans base config ((name, node) :: entries) (l.append rest)
  | .directory inside, l, h => by
      rw [scanNode] at h
      obtain ⟨next, hnext, h⟩ := bind_eq_ok h
      obtain ⟨inner, hinner, h⟩ := bind_eq_ok h
      cases h
      exact .directory hname (enters_of_directoryConfig hnext)
        (scans_of_scanEntries hinner) hrest
  | .text source, l, h => by
      rw [scanNode] at h
      split at h
      · next hfile =>
        cases hread : Document.read place source (base.join name) base config with
        | error e => simp [hread, Except.map] at h
        | ok d =>
            rw [hread] at h
            cases h
            exact .document hname hfile (Document.readFrom_of_read hread) hrest
      · next hfile =>
        cases h
        exact .static hname (Bool.not_eq_true _ ▸ hfile) nofun hrest
  | .bytes, l, h => by
      rw [scanNode] at h
      split at h
      · cases h
      · next hfile =>
        cases h
        exact .static hname (Bool.not_eq_true _ ▸ hfile) nofun hrest

theorem scans_of_scanEntry {place : String} {base : AbsolutePath}
    {config : Config} {entries : List (String × FileTree)} {rest : Listing}
    (hrest : Scans base config entries rest) :
    ∀ {entry : String × FileTree} {l : Listing},
    scanEntry place base config entry = .ok l →
      Scans base config (entry :: entries) (l.append rest)
  | (name, node), l, h => by
      rw [scanEntry] at h
      split at h
      · next hname =>
        cases h
        rw [Listing.nil_append]
        exact .leftOut hname hrest
      · next hname => exact scans_of_scanNode (Bool.not_eq_true _ ▸ hname) hrest h

/-- A scan follows the rules. -/
theorem scans_of_scanEntries {place : String} {base : AbsolutePath}
    {config : Config} : ∀ {entries : List (String × FileTree)} {l : Listing},
    scanEntries place base config entries = .ok l → Scans base config entries l
  | [], l, h => by
      rw [scanEntries] at h
      cases h
      exact .nil
  | entry :: entries, l, h => by
      rw [scanEntries] at h
      obtain ⟨here, hhere, h⟩ := bind_eq_ok h
      obtain ⟨rest, hrest, h⟩ := bind_eq_ok h
      cases h
      exact scans_of_scanEntry (scans_of_scanEntries hrest) hhere

end

/-- The root of the directory whose entries give the listing. -/
def Listing.toRoot (l : Listing) (config : Config) : DocumentRoot where
  cover := (takeCover l.children).1
  staticDocuments := l.staticDocuments
  tree := ⟨.root, config, l.titleDocument, (takeCover l.children).2⟩

/-- A scanned root is that of a listing the rules give of its directory. -/
theorem DocumentRoot.scans_of_scan {place : String} {node : Option FileTree}
    {r : DocumentRoot} (h : scan place node = .ok r) :
    ∃ entries config l, node = some (.directory entries)
      ∧ Enters .root .initial entries config ∧ Scans .root config entries l
      ∧ r = l.toRoot config := by
  unfold scan at h
  split at h
  · next entries =>
    obtain ⟨config, hconfig, h⟩ := bind_eq_ok h
    obtain ⟨l, hl, h⟩ := bind_eq_ok h
    cases h
    exact ⟨entries, config, l, rfl, enters_of_directoryConfig hconfig,
      scans_of_scanEntries hl, rfl⟩
  · cases h

/-- The cover is the first child that is a document of that name; the other
children stay as they are. -/
theorem takeCover_eq (nodes : List TreeNode) :
    (∃ front d back, nodes = front ++ .document d :: back
        ∧ d.path.name? = some coverFile ∧ takeCover nodes = (some d, front ++ back))
      ∨ (∀ d, TreeNode.document d ∈ nodes → d.path.name? ≠ some coverFile)
        ∧ takeCover nodes = (none, nodes) := by
  fun_induction takeCover nodes with
  | case1 => exact .inr ⟨nofun, rfl⟩
  | case2 d nodes hname => exact .inl ⟨[], d, nodes, rfl, hname, rfl⟩
  | case3 d nodes hname cover rest hcover ih =>
      rw [hcover] at ih
      rcases ih with ⟨front, d', back, rfl, hname', heq⟩ | ⟨hnone, heq⟩
      · cases heq
        exact .inl ⟨.document d :: front, d', back, rfl, hname', rfl⟩
      · cases heq
        refine .inr ⟨fun d' hd' => ?_, rfl⟩
        rcases List.mem_cons.mp hd' with hd' | hd'
        · cases hd'
          exact hname
        · exact hnone d' hd'
  | case4 node nodes hnot cover rest hcover ih =>
      rw [hcover] at ih
      rcases ih with ⟨front, d', back, rfl, hname', heq⟩ | ⟨hnone, heq⟩
      · cases heq
        exact .inl ⟨node :: front, d', back, rfl, hname', rfl⟩
      · cases heq
        refine .inr ⟨fun d' hd' => ?_, rfl⟩
        rcases List.mem_cons.mp hd' with hd' | hd'
        · exact absurd hd'.symm (hnot d')
        · exact hnone d' hd'

/-! ## Documents -/

theorem TreeNodes.documents_append (first second : List TreeNode) :
    documents (first ++ second) = documents first ++ documents second := by
  induction first with
  | nil => rfl
  | cons node first ih => simp [documents, ih]

namespace Listing

/-- The documents of a listing. -/
def documents (l : Listing) : List Document :=
  l.titleDocument.toList ++ TreeNodes.documents l.children

theorem mem_documents_append {a b : Listing} {d : Document}
    (h : d ∈ (a.append b).documents) : d ∈ a.documents ∨ d ∈ b.documents := by
  simp only [append, documents, TreeNodes.documents_append, List.mem_append,
    Option.mem_toList, Option.or_eq_some_iff] at h ⊢
  rcases h with (hb | ⟨-, ha⟩) | ha | hb
  · exact .inr (.inl hb)
  · exact .inl (.inl ha)
  · exact .inl (.inr ha)
  · exact .inr (.inr hb)

theorem documents_ofDocument (d : Document) : (ofDocument d).documents = [d] := by
  unfold ofDocument
  split <;> rfl

theorem documents_ofTree (path : AbsolutePath) (config : Config)
    (inside : Listing) : (ofTree path config inside).documents = inside.documents :=
  List.append_nil _

/-- Taking out the cover adds no document. -/
theorem documents_toRoot_subset (l : Listing) (config : Config) :
    (l.toRoot config).documents ⊆ l.documents := by
  intro d hd
  simp only [toRoot, DocumentRoot.documents, DocumentTree.documents, documents,
    List.mem_append] at hd ⊢
  rcases takeCover_eq l.children with ⟨front, cover, back, hchildren, -, heq⟩ | ⟨-, heq⟩
  · rw [heq] at hd
    simp only [TreeNodes.documents_append, List.mem_append] at hd
    simp only [hchildren, TreeNodes.documents_append, TreeNodes.documents,
      TreeNode.documents, List.mem_append]
    rcases hd with hd | hd | hd | hd
    · exact .inr (.inr (.inl (by simpa using hd)))
    · exact .inl hd
    · exact .inr (.inl hd)
    · exact .inr (.inr (.inr hd))
  · rw [heq] at hd
    simpa using hd

end Listing

/-- No reference of the document has references in its text. -/
def Document.Unnested (d : Document) : Prop := Blocks.nesting d.content = []

theorem Document.ReadFrom.unnested {d : Document} {source : String}
    {path base : AbsolutePath} {inherited : Config}
    (h : d.ReadFrom source path base inherited) : d.Unnested := by
  rw [Unnested, h.content]
  exact Markdown.nesting_parse _

theorem Scans.unnested {base : AbsolutePath} {config : Config}
    {entries : List (String × FileTree)} {l : Listing}
    (h : Scans base config entries l) : ∀ d ∈ l.documents, d.Unnested := by
  induction h with
  | nil => exact nofun
  | leftOut _ _ ih => exact ih
  | document _ _ hread _ ih =>
      intro d hd
      rcases Listing.mem_documents_append hd with hd | hd
      · rw [Listing.documents_ofDocument, List.mem_singleton] at hd
        exact hd ▸ hread.unnested
      · exact ih d hd
  | static _ _ _ _ ih =>
      intro d hd
      rcases Listing.mem_documents_append hd with hd | hd
      · cases hd
      · exact ih d hd
  | directory _ _ _ _ ihinside ih =>
      intro d hd
      rcases Listing.mem_documents_append hd with hd | hd
      · rw [Listing.documents_ofTree] at hd
        exact ihinside d hd
      · exact ih d hd

namespace DocumentRoot

/-- No reference of the root has references in its text. -/
def Unnested (r : DocumentRoot) : Prop := ∀ d ∈ r.documents, d.Unnested

/-- A scanned root nests no references. -/
theorem unnested_of_scan {place : String} {tree : Option FileTree}
    {r : DocumentRoot} (h : scan place tree = .ok r) : r.Unnested := by
  obtain ⟨entries, config, l, -, -, hscans, rfl⟩ := scans_of_scan h
  exact fun d hd => hscans.unnested d (l.documents_toRoot_subset config hd)

end DocumentRoot

end Crosslink

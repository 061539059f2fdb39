import Mathlib.Data.List.Forall2
import Crosslink.Proofs.Ascent
import Crosslink.Proofs.Links

/-!
# Whether a relative target leads back

A link carries its target twice, as a place in the tree and as the path to write
in the document. Written in the document, the second leads to the first, but for
one place: the tree that the document itself stands in. Its path from there says
nothing, and a path that says nothing means the document. So such a target leads
to the document, with the wanted fragment (`AbsolutePath.reachedFrom`). At the top of
the tree nothing else can be written, since no path leads from there to the root
(`AbsolutePath.resolveFromDocument_ne_root`).

This is shown for any two paths (`AbsolutePath.resolve_relativeTo`) and with it
for every internal link that resolution makes, since it makes none whose two
halves are not of one path (`Scope.Grants.relative_eq`).
-/

namespace Crosslink

/-! ## One path -/

namespace AbsolutePath

/-- Where the path from `document` to `p` leads when it stands in `document`. -/
def reachedFrom (p document : AbsolutePath) : AbsolutePath :=
  if p.segments = document.parent.segments then document.withFragment p.fragment
  else p

variable {p document : AbsolutePath}

theorem withFragment_of_segments_eq (h : p.segments = document.segments) :
    document.withFragment p.fragment = p := by
  rw [withFragment, ← h]

/-- Only the tree around the document is missed, and the root, which is its own
tree, is not. -/
theorem reachedFrom_eq_self_iff :
    p.reachedFrom document = p
      ↔ p.segments = document.parent.segments → p.segments = document.segments := by
  rw [reachedFrom]
  by_cases htree : p.segments = document.parent.segments
  · rw [if_pos htree]
    constructor
    · exact fun heq _ => (congrArg segments heq).symm
    · exact fun hsame => withFragment_of_segments_eq (hsame htree)
  · rw [if_neg htree]
    exact ⟨fun _ heq => absurd heq htree, fun _ => rfl⟩

/-- The path from a document says nothing of names just to the document itself and
to the tree around it. -/
theorem isCurrentDocument_relativeTo :
    (p.relativeTo document).isCurrentDocument = true
      ↔ p.segments = document.segments
        ∨ p.segments = document.parent.segments := by
  rw [relativeTo]
  by_cases hsame : p.segments = document.segments
  · rw [if_pos hsame]
    exact ⟨fun _ => Or.inl hsame, fun _ => rfl⟩
  rw [if_neg hsame]
  have htake := take_commonLength p.segments document.parent.segments
  have hbase := commonLength_le_right p.segments document.parent.segments
  simp only [RelativePath.isCurrentDocument, Bool.and_eq_true, beq_iff_eq,
    List.isEmpty_iff, List.drop_eq_nil_iff, hsame, false_or, depth]
  constructor
  · rintro ⟨hclimb, hdescend⟩
    -- nothing to climb and nothing to descend, so both are the common start
    have hcommon : document.parent.segments.length
        ≤ commonLength p.segments document.parent.segments := by omega
    rwa [List.take_of_length_le hdescend, List.take_of_length_le hcommon] at htake
  · intro htree
    have hcommon : document.parent.segments.length
        ≤ commonLength p.segments document.parent.segments := by
      refine (take_isPrefixOf_iff (Nat.le_refl _)).mp ?_
      rw [List.take_length, htree]
      exact List.isPrefixOf_iff_prefix.mpr List.prefix_rfl
    rw [htree] at hcommon ⊢
    exact ⟨by omega, hcommon⟩

/-- To any other place the path climbs to the common start and then descends. -/
theorem resolve_parent_relativeTo (hsame : p.segments ≠ document.segments) :
    document.parent.resolve (p.relativeTo document) = .inside p := by
  rw [relativeTo, if_neg hsame, resolve_eq]
  have hbase : commonLength p.segments document.parent.segments
      ≤ document.parent.depth :=
    commonLength_le_right _ _
  have hroom : ¬document.parent.depth
      < document.parent.depth - commonLength p.segments document.parent.segments :=
    Nat.not_lt.mpr (Nat.sub_le _ _)
  rw [if_neg hroom, follow]
  simp only [Nat.sub_sub_self hbase]
  rw [← take_commonLength, List.take_append_drop]

/-- The path from a document to a place, followed from the document. -/
theorem resolve_relativeTo (p document : AbsolutePath) :
    document.resolveFromDocument (p.relativeTo document)
      = .inside (p.reachedFrom document) := by
  have hfragment : (p.relativeTo document).fragment = p.fragment := by
    rw [relativeTo]
    split <;> rfl
  rw [resolveFromDocument, reachedFrom, hfragment]
  by_cases htree : p.segments = document.parent.segments
  · rw [if_pos (isCurrentDocument_relativeTo.mpr (Or.inr htree)), if_pos htree]
  rw [if_neg htree]
  by_cases hsame : p.segments = document.segments
  · rw [if_pos (isCurrentDocument_relativeTo.mpr (Or.inl hsame)),
      withFragment_of_segments_eq hsame]
  · have hnames : (p.relativeTo document).isCurrentDocument ≠ true := fun hcurrent =>
      (isCurrentDocument_relativeTo.mp hcurrent).elim hsame htree
    rw [if_neg hnames, resolve_parent_relativeTo hsame]

/-- No path leads from a document at the top of the tree to the root: without names it
means the document. -/
theorem resolveFromDocument_ne_root {document : AbsolutePath}
    (htop : document.parent.segments = []) (hname : document.segments ≠ [])
    (r : RelativePath) : document.resolveFromDocument r ≠ .inside root := by
  intro hroot
  rw [resolveFromDocument] at hroot
  split at hroot
  · exact hname (congrArg segments (PathResolution.inside.inj hroot))
  · rename_i hnames
    rw [resolve_eq] at hroot
    split at hroot
    · cases hroot
    · rename_i hbelow
      have hsegments := congrArg segments (PathResolution.inside.inj hroot)
      simp only [follow, htop, List.take_nil, List.nil_append] at hsegments
      have hdepth : document.parent.depth = 0 := congrArg List.length htop
      refine hnames ?_
      simp only [RelativePath.isCurrentDocument, Bool.and_eq_true, beq_iff_eq,
        List.isEmpty_iff]
      exact ⟨by omega, hsegments⟩

end AbsolutePath

/-! ## Every link -/

/-- The two halves of what a pass links to are of one path. -/
theorem Scope.Grants.relative_eq {s : Scope} {place : InternalTarget}
    (h : s.Grants (.internal place)) :
    place.relative = place.absolute.relativeTo s.document := by
  generalize htarget : Target.internal place = target at h
  cases h with
  | external => cases htarget
  | anchor _ =>
      cases htarget
      rfl
  | @path tree written path _ _ hchecked =>
      subst htarget
      unfold checkPath at hchecked
      split at hchecked
      · cases hchecked
        rfl
      · split at hchecked
        · cases hchecked
        · split at hchecked
          · cases hchecked
          · cases hchecked
            rfl

theorem Document.relative_finished (d : Document) (tree : TreeIndex) :
    ∀ place ∈ Blocks.internalTargets (d.finished tree).content,
      place ∈ Blocks.internalTargets d.content
        ∨ place.relative = place.absolute.relativeTo d.path := by
  intro place hplace
  obtain ⟨_, hfirst, -⟩ := d.yields_settled
  obtain ⟨_, hsecond, -⟩ := d.yields_finished tree
  rcases hsecond.internalTargets place hplace with hsettled | hgranted
  · rcases hfirst.internalTargets place hsettled with houtlined | hgranted
    · have hsame : Blocks.internalTargets d.outlined.content
          = Blocks.internalTargets d.content :=
        Blocks.internalTargets_buildOutline _ _
      exact Or.inl (hsame ▸ houtlined)
    · exact Or.inr hgranted.relative_eq
  · exact Or.inr hgranted.relative_eq

/-- A relative target leads back to its place just if this is not the tree around the
document; and so does the relative target of every internal link that resolution
makes. -/
theorem relative_leads_back :
    (∀ p document : AbsolutePath,
        document.resolveFromDocument (p.relativeTo document) = .inside p
          ↔ (p.segments = document.parent.segments → p.segments = document.segments))
      ∧ ∀ (r : DocumentRoot) (workers : Nat),
        List.Forall₂ (fun d final : Document =>
            ∀ place ∈ Blocks.internalTargets final.content,
              place ∈ Blocks.internalTargets d.content
                ∨ (final.path.resolveFromDocument place.relative = .inside place.absolute
                  ↔ (place.absolute.segments = final.path.parent.segments →
                      place.absolute.segments = final.path.segments)))
          r.documents (r.resolve workers).root.documents := by
  have hback : ∀ p document : AbsolutePath,
      document.resolveFromDocument (p.relativeTo document) = .inside p
        ↔ (p.segments = document.parent.segments → p.segments = document.segments) := by
    intro p document
    rw [p.resolve_relativeTo, PathResolution.inside.injEq]
    exact AbsolutePath.reachedFrom_eq_self_iff
  refine ⟨hback, fun r workers => ?_⟩
  rw [DocumentRoot.documents_resolve, List.forall₂_map_right_iff, List.forall₂_same]
  intro d _ place hplace
  refine (d.relative_finished r.settledIndex place hplace).imp_right fun heq => ?_
  rw [heq]
  exact hback place.absolute d.path

/-- A document in the tree `/a`, which has a static document at the path of that
tree. -/
def slipway : DocumentRoot :=
  { cover := none
    staticDocuments := [⟨["a"], none⟩]
    tree := ⟨.root, .initial, none,
      [.tree ⟨["a"], none⟩ .initial none
        [.document ⟨⟨["a", "b.md"], none⟩, .initial,
          [.paragraph [.reference
            (.linkPath [.text "slip"] (.absolute ⟨["a"], some "x"⟩) none)
            "[slip](/a#x)"]]⟩]]⟩ }

/-- The link has a target in the tree around its document, and the relative half of it
leads to the document. From the top of the tree no path at all leads back to the
root. -/
theorem slipway_leads_astray :
    (slipway.resolve 1).root.documents.map (fun d => Blocks.internalTargets d.content)
        = [[⟨⟨["a"], some "x"⟩, none, ⟨0, [], some "x"⟩⟩]]
      ∧ (⟨["a"], some "x"⟩ : AbsolutePath).relativeTo ⟨["a", "b.md"], none⟩
        = ⟨0, [], some "x"⟩
      ∧ (⟨["a", "b.md"], none⟩ : AbsolutePath).resolveFromDocument
          ((⟨["a"], some "x"⟩ : AbsolutePath).relativeTo ⟨["a", "b.md"], none⟩)
        ≠ .inside ⟨["a"], some "x"⟩
      ∧ ∀ r : RelativePath, (⟨["b.md"], none⟩ : AbsolutePath).resolveFromDocument r
        ≠ .inside .root := by
  refine ⟨?_, by decide, by decide, fun r =>
    AbsolutePath.resolveFromDocument_ne_root rfl (by decide) r⟩
  rw [DocumentRoot.documents_resolve]
  rfl

end Crosslink

import Crosslink.Proofs.External
import Crosslink.Proofs.PathJoin
import Crosslink.Proofs.Spelling

/-!
# Links that lead above the root

A link or an image by path whose destination climbs above the root is
finished by whatever pass comes to it, and nothing is reported
(`Scope.settlePath_of_climbs`). What is kept of the destination is the text
of the path it was read as. That text is read as the same path, but it is
the written one only if this is in normal form: steps upward, then names,
without empty segments, dots or a sign that no fragment follows
(`RelativePath.toText_parse_iff`).
-/

namespace Crosslink

open Markdown

/-! ## Texts in normal form -/

/-- The text is made of steps upward, then names, and perhaps a fragment. -/
structure IsNormalForm (raw : String) : Prop where
  segments : ∃ count names, pathSegments raw = List.replicate count ['.', '.'] ++ names
    ∧ ∀ name ∈ names, IsName name
  sign : (splitFragment raw.toList).2 = none → '#' ∉ raw.toList

namespace RelativePath

theorem isNormalForm_toText {p : RelativePath} (h : p.Normal) (hascents : p.ascents ≠ 0) :
    IsNormalForm p.toText := by
  have hne : p.parts ≠ [] := by simp [parts, hascents]
  have htext := toList_toText hascents
  have hcut : splitFragment p.toText.toList = (['/'].intercalate p.parts, p.fragment) := by
    rw [htext, h.splitFragment_joined]
  constructor
  · refine ⟨p.ascents, p.segments.map String.toList, ?_, List.forall_mem_map.mpr h.names⟩
    rw [pathSegments, hcut]
    exact h.splitOn_joined hne
  · intro hnone
    have hsign : '#' ∉ (splitFragment p.toText.toList).1 := splitFragment_fst
    rw [hcut] at hnone hsign
    rw [htext, show p.fragment = none from hnone]
    simpa [fragmentText] using hsign

/-- A text in normal form is read segment by segment. -/
theorem parts_parse {raw : String} (h : IsNormalForm raw) :
    (parse raw).parts = pathSegments raw
      ∧ (parse raw).fragment = (splitFragment raw.toList).2 := by
  obtain ⟨count, names, hsegments, hnames⟩ := h.segments
  have hwritten : (names.map String.ofList).map String.toList = names := by simp
  have hname : ∀ name ∈ names.map String.ofList, IsName name.toList := by
    simpa using hnames
  have hfold : (pathSegments raw).foldl Descent.step ⟨0, []⟩
      = ⟨count, (names.map String.ofList).reverse⟩ := by
    have hread := Descent.foldl_names hname ⟨count, []⟩
    rw [hwritten, List.append_nil] at hread
    rw [hsegments, List.foldl_append, Descent.foldl_dots, Nat.zero_add, hread]
  have hparse : parse raw
      = ⟨count, names.map String.ofList, (splitFragment raw.toList).2⟩ := by
    unfold pathSegments at hfold
    simp [parse, hfold]
  rw [hparse, hsegments, parts, hwritten]
  exact ⟨rfl, rfl⟩

/-- The text of a path that climbs is the text it was read from just if that
is in normal form. -/
theorem toText_parse_iff {raw : String} (h : (parse raw).ascents ≠ 0) :
    (parse raw).toText = raw ↔ IsNormalForm raw := by
  constructor
  · intro htext
    rw [← htext]
    exact isNormalForm_toText (normal_parse raw) h
  · intro hnormal
    obtain ⟨hparts, hfragment⟩ := parts_parse hnormal
    have hpath : ['/'].intercalate (pathSegments raw) = (splitFragment raw.toList).1 :=
      List.intercalate_splitOn '/'
    rw [← String.toList_inj, toList_toText h, hparts, hfragment, hpath,
      splitFragment_join hnormal.sign]

end RelativePath

/-! ## Paths that climb -/

theorem RelativePath.ascents_of_climbs {depth : Nat} {raw : String}
    (h : climbs depth (pathSegments raw) = true) : (parse raw).ascents ≠ 0 := by
  have hascents := (climbs_iff depth raw.toList).mp h
  rw [String.ofList_toList] at hascents
  omega

/-- From the document, the path climbs above the root name by name just if it
resolves to a place above it. -/
theorem AbsolutePath.resolveFromDocument_eq_aboveRoot_iff {document : AbsolutePath}
    {raw : String} :
    document.resolveFromDocument (.parse raw) = .aboveRoot (.parse raw)
      ↔ climbs document.parent.depth (pathSegments raw) = true := by
  have hascents := climbs_iff document.parent.depth raw.toList
  rw [String.ofList_toList] at hascents
  rw [pathSegments, hascents, resolveFromDocument]
  split
  case isTrue hhere =>
    have hzero : (RelativePath.parse raw).ascents = 0 := by
      simp only [RelativePath.isCurrentDocument, Bool.and_eq_true, beq_iff_eq] at hhere
      exact hhere.1
    simp [hzero]
  case isFalse =>
    rw [resolve]
    split
    case isTrue habove => simp [habove]
    case isFalse hbelow => simp [hbelow]

namespace Scope

/-- Such a reference needs no tree, and nothing is reported. -/
theorem settlePath_of_climbs {s : Scope} {raw : String}
    (h : climbs s.document.parent.depth (pathSegments raw) = true)
    (shown : Appearance) (title : Option String) (source : String) :
    s.settlePath shown (.relative (.parse raw)) title source
      = pure (shown.toSpan (.external (RelativePath.parse raw).toText) title) := by
  have hplace : s.locate (.relative (.parse raw)) = .aboveRoot (.parse raw) :=
    AbsolutePath.resolveFromDocument_eq_aboveRoot_iff.mpr h
  have hpath : s.resolvePath (.relative (.parse raw))
      = .resolved (.external (RelativePath.parse raw).toText) := by
    rw [resolvePath, hplace]
    rfl
  rw [settlePath, hpath]

end Scope

/-! ## Forms by path -/

namespace Markdown

/-- What a link or an image by path is made of. -/
structure PathForm where
  shown : Appearance
  destination : String
  title : Option String

/-- The parts of a link or an image by path. -/
def Lexeme.pathForm? : Lexeme → Option PathForm
  | linkByPath text destination title =>
    some ⟨.link (inline text), String.ofList destination, titleText title⟩
  | imageByPath alt destination title =>
    some ⟨.image (String.ofList alt), String.ofList destination, titleText title⟩
  | _ => none

namespace PathForm

/-- The destination is a path from where it stands. -/
structure IsRelative (form : PathForm) : Prop where
  external : isExternalUrl form.destination = false
  slash : form.destination.toList.head? ≠ some '/'

/-- Followed from the document, the destination climbs above the root. -/
structure LeavesFrom (form : PathForm) (document : AbsolutePath) : Prop
    extends form.IsRelative where
  above : climbs document.parent.depth (pathSegments form.destination) = true

/-- The form as a reference, before it is resolved. -/
def reference (form : PathForm) (source : String) : Span :=
  form.shown.byPath (.relative (.parse form.destination)) form.title source

/-- The text of the path that the destination is read as. -/
def url (form : PathForm) : String := (RelativePath.parse form.destination).toText

/-- The finished form that leads out of the tree. -/
def outside (form : PathForm) : Span :=
  form.shown.toSpan (.external form.url) form.title

/-- The block of a form on a line of its own. -/
def alone (form : PathForm) (span : Span) : Block :=
  match form.shown with
  | .link _ => .paragraph [span]
  | .image _ => Scope.blockOfSpan span

variable {form : PathForm} {lexeme : Lexeme}

/-- A form with a relative destination is read as a reference. -/
theorem toSpan_eq_reference (h : lexeme.pathForm? = some form) (hrelative : form.IsRelative)
    (source : String) :
    lexeme.toSpan (inline lexeme.inner) source = form.reference source := by
  have hparse : WrittenPath.parse form.destination
      = .ok (.relative (.parse form.destination)) :=
    WrittenPath.parse_of_not_slash fun text htext =>
      hrelative.slash (by rw [htext, List.head?_cons])
  have hexternal := hrelative.external
  cases lexeme <;> cases h
  case linkByPath text destination title =>
    simp only [Lexeme.toSpan, Lexeme.pathReference] at hexternal hparse ⊢
    rw [hexternal, hparse]
    rfl
  case imageByPath alt destination title =>
    simp only [Lexeme.toSpan, Lexeme.pathReference] at hparse ⊢
    rw [hparse]
    rfl

theorem resolveSpan_reference (s : Scope) (source : String) :
    s.resolveSpan (form.reference source)
      = s.settlePath form.shown (.relative (.parse form.destination)) form.title source := by
  obtain ⟨shown, destination, title⟩ := form
  cases shown <;> rfl

/-- A text that is nothing but the form is a block of its own. -/
theorem plainParagraph_eq {cs source : List Char}
    (hpieces : pieces cs = [.markup lexeme source]) (h : lexeme.pathForm? = some form)
    (hrelative : form.IsRelative) :
    plainParagraph cs = form.alone (form.reference (String.ofList source)) := by
  have hcs : cs = source := by
    have hflat := flatMap_pieces cs
    rw [hpieces] at hflat
    simpa [Piece.source] using hflat.symm
  have hmem : .markup lexeme source ∈ pieces cs := by simp [hpieces]
  obtain ⟨hspelled, -⟩ := spelled_of_mem_pieces hmem
  have hid : explicitId? cs = none := by
    rw [hcs]
    cases hspelled <;> rfl
  have hinline : inline cs = [form.reference (String.ofList source)] := by
    rw [inline_eq_map, hpieces, List.map_singleton]
    exact congrArg (fun span => [span]) (toSpan_eq_reference h hrelative _)
  rw [plainParagraph, hid, hinline]
  obtain ⟨shown, destination, title⟩ := form
  cases shown <;> rfl

/-- In every pass over the document. -/
theorem resolveSpan_reference_outside {s : Scope} (h : form.LeavesFrom s.document)
    (source : String) : s.resolveSpan (form.reference source) = pure form.outside := by
  rw [resolveSpan_reference, Scope.settlePath_of_climbs h.above]
  rfl

theorem run_alone {s : Scope} (h : form.LeavesFrom s.document) (source : String) :
    s.run [form.alone (form.reference source)] = ([.paragraph [form.outside]], []) := by
  have hspan := resolveSpan_reference_outside h source
  have hblock : s.resolveBlock (form.alone (form.reference source))
      = pure (some (.paragraph [form.outside])) := by
    obtain ⟨shown, destination, title⟩ := form
    cases shown with
    | link content =>
        show s.resolveBlock (.paragraph [_]) = _
        rw [Scope.resolveBlock, Scope.resolveSpans, hspan]
        rfl
    | image alt =>
        have hreference : s.resolveReference
            (.imagePath alt (.relative (.parse destination)) title) source = _ := hspan
        show s.resolveBlock (.reference _ _) = _
        rw [Scope.resolveBlock, hreference]
        rfl
  simp only [Scope.run, Scope.resolveBlocks, hblock]
  rfl

/-- A page that is nothing but the form. -/
theorem localPhase_alone {d : Document} (h : form.LeavesFrom d.path) {source : String}
    (hcontent : d.content = [form.alone (form.reference source)]) :
    d.localPhase = ({ d with content := [.paragraph [form.outside]] }, []) := by
  have houtline : d.outlined.content = [form.alone (form.reference source)] := by
    rw [Document.outlined, hcontent]
    obtain ⟨shown, destination, title⟩ := form
    cases shown <;> rfl
  have hrun : d.firstScope.run d.outlined.content = ([.paragraph [form.outside]], []) := by
    rw [houtline]
    exact run_alone h source
  have hphase : d.localPhase
      = ({ d with content := (d.firstScope.run d.outlined.content).1 },
          (d.firstScope.run d.outlined.content).2) := rfl
  rw [hphase, hrun]

/-- A link or an image by path that climbs above the root from its document
becomes external in every pass over the document, with nothing reported,
whatever is around it; on a page of its own the local phase leaves nothing
else. Its address is the text of the path that the destination is read as:
it means the same path, but it is the destination only if this is in normal
form. -/
theorem resolves_outside {document : AbsolutePath} (h : lexeme.pathForm? = some form)
    (hleaves : form.LeavesFrom document) :
    (∀ s : Scope, s.document = document → ∀ source,
        s.resolveSpan (lexeme.toSpan (inline lexeme.inner) source) = pure form.outside)
      ∧ (∀ d : Document, d.path = document → ∀ cs source,
        pieces cs = [.markup lexeme source] → d.content = [plainParagraph cs] →
          d.localPhase = ({ d with content := [.paragraph [form.outside]] }, []))
      ∧ RelativePath.parse form.url = RelativePath.parse form.destination
      ∧ (form.url = form.destination ↔ IsNormalForm form.destination) := by
  refine ⟨?_, ?_, ?_, ?_⟩
  · rintro s rfl source
    rw [toSpan_eq_reference h hleaves.toIsRelative]
    exact resolveSpan_reference_outside hleaves source
  · rintro d rfl cs source hpieces hcontent
    rw [plainParagraph_eq hpieces h hleaves.toIsRelative] at hcontent
    exact localPhase_alone hleaves hcontent
  · exact RelativePath.parse_toText (RelativePath.normal_parse form.destination)
  · exact RelativePath.toText_parse_iff (RelativePath.ascents_of_climbs hleaves.above)

end PathForm

/-- A page with a picture from outside the tree. -/
def quayPage : Document where
  path := ⟨["port", "quay.md"], none⟩
  config := .initial
  content := [plainParagraph "![boat](../../boat.png#mast \"Sloop\")".toList]

theorem PathForm.resolves_outside_quayPage :
    quayPage.localPhase
        = ({ quayPage with
              content :=
                [.paragraph [.image "boat" (.external "../../boat.png#mast") (some "Sloop")]] },
            [])
      ∧ IsNormalForm "../../boat.png#mast" := by
  have hpieces : pieces "![boat](../../boat.png#mast \"Sloop\")".toList
      = [.markup (.imageByPath "boat".toList "../../boat.png#mast".toList
          (some "Sloop".toList)) "![boat](../../boat.png#mast \"Sloop\")".toList] := by
    decide +kernel
  have hleaves : LeavesFrom ⟨.image "boat", "../../boat.png#mast", some "Sloop"⟩
      quayPage.path := ⟨⟨by decide, by decide⟩, by decide⟩
  have hform : (Lexeme.imageByPath "boat".toList "../../boat.png#mast".toList
      (some "Sloop".toList)).pathForm?
        = some ⟨.image "boat", "../../boat.png#mast", some "Sloop"⟩ := rfl
  obtain ⟨-, hpage, -, hurl⟩ := resolves_outside hform hleaves
  exact ⟨hpage quayPage rfl _ _ hpieces rfl, hurl.mp (by decide)⟩

/-- A page with a link to a directory outside the tree. -/
def shorePage : Document where
  path := ⟨["a.md"], none⟩
  config := .initial
  content := parse "[charts](../charts/)\n"

/-- The link leads above the root, and the slash at its end is lost. -/
theorem shorePage_loses_slash :
    isExternalUrl "../charts/" = false
      ∧ climbs shorePage.path.parent.depth (pathSegments "../charts/") = true
      ∧ shorePage.content
        = [.paragraph [.reference
            (.linkPath [.text "charts"] (.relative (.parse "../charts/")) none)
            "[charts](../charts/)"]]
      ∧ shorePage.localPhase
        = ({ shorePage with
              content := [.paragraph [.link [.text "charts"] (.external "../charts") none]] },
            [])
      ∧ shorePage.localPhase.1.content
        ≠ [.paragraph [.link [.text "charts"] (.external "../charts/") none]] := by
  have hleaves : PathForm.LeavesFrom ⟨.link [.text "charts"], "../charts/", none⟩
      shorePage.path := ⟨⟨by decide, by decide⟩, by decide⟩
  have hlegible : (Caption.link "charts".toList).Legible := by decide
  have hblocks : sourceBlocks "[charts](../charts/)\n".toList
      = [.paragraph "[charts](../charts/)\n".toList] :=
    @sourceBlocks_paragraph '[' "charts](../charts/)".toList rfl (by simp) (by decide)
  have hblock : (SourceBlock.paragraph "[charts](../charts/)\n".toList).toBlock? 0
      = some (plainParagraph "[charts](../charts/)".toList) :=
    Caption.toBlock?_paragraph hlegible "(../charts/".toList
      (show Unicode.isWhite ')' = false by decide)
  have hpieces : pieces "[charts](../charts/)".toList
      = [.markup (.linkByPath "charts".toList "../charts/".toList none)
          "[charts](../charts/)".toList] := by
    decide +kernel
  have htext : inline "charts".toList = [.text "charts"] := by
    have hplain : pieces "charts".toList = [.plain "charts".toList] := by decide +kernel
    rw [inline_eq_map, hplain]
    rfl
  have hform : (Lexeme.linkByPath "charts".toList "../charts/".toList none).pathForm?
      = some ⟨.link [.text "charts"], "../charts/", none⟩ := by
    rw [← htext]
    rfl
  have hcontent : shorePage.content
      = [PathForm.alone ⟨.link [.text "charts"], "../charts/", none⟩
          (PathForm.reference ⟨.link [.text "charts"], "../charts/", none⟩
            "[charts](../charts/)")] := by
    show parse _ = _
    rw [parse, hblocks]
    simp only [SourceBlocks.toBlocks, hblock]
    exact congrArg (fun block => [block])
      (PathForm.plainParagraph_eq hpieces hform hleaves.toIsRelative)
  have houtside : PathForm.outside ⟨.link [.text "charts"], "../charts/", none⟩
      = .link [.text "charts"] (.external "../charts") none := rfl
  have hphase := PathForm.localPhase_alone hleaves hcontent
  refine ⟨hleaves.external, hleaves.above, hcontent, hphase, ?_⟩
  simp [hphase, houtside]

end Markdown

end Crosslink

import Crosslink.Proofs.Ascent
import Crosslink.Proofs.Pieces

/-!
# Paths read back from their text

Reading leaves names only: segments that are neither empty nor steps and hold
no mark that divides a path (`IsName`). A path of names is read back from its
text as it is (`RelativePath.parse_toText`, `AbsolutePath.parse_toText`), so
the paths that can be read are exactly those of names
(`AbsolutePath.readable_iff`). A path put together from other segments has a
text all the same, but it reads back as another path or not at all
(`AbsolutePath.parse_toText_iff`). So what is printed of a path that was read is a
normal form (`paths_print_normally`).
-/

namespace Crosslink

/-! ## Names -/

/-- A segment that stands for itself wherever it is read. -/
structure IsName (segment : List Char) : Prop where
  ne_nil : segment ≠ []
  ne_dot : segment ≠ ['.']
  ne_dots : segment ≠ ['.', '.']
  slash : '/' ∉ segment
  sign : '#' ∉ segment

theorem Descent.step_name {segment : List Char} (h : IsName segment)
    (d : Descent) :
    d.step segment = { d with names := String.ofList segment :: d.names } := by
  rw [step, if_neg (not_or.mpr ⟨h.ne_nil, h.ne_dot⟩), if_neg h.ne_dots]

theorem Descent.foldl_names {names : List String}
    (h : ∀ name ∈ names, IsName name.toList) (d : Descent) :
    (names.map String.toList).foldl step d
      = { d with names := names.reverse ++ d.names } := by
  induction names generalizing d with
  | nil => rfl
  | cons name names ih =>
      obtain ⟨hname, hnames⟩ := List.forall_mem_cons.mp h
      rw [List.map_cons, List.foldl_cons, step_name hname, ih hnames]
      simp

/-- Steps upward in front of every name only climb. -/
theorem Descent.foldl_dots (count ascents : Nat) :
    (List.replicate count ['.', '.']).foldl step ⟨ascents, []⟩
      = ⟨ascents + count, []⟩ := by
  induction count generalizing ascents with
  | zero => rfl
  | succ count ih =>
      rw [List.replicate_succ, List.foldl_cons]
      show (List.replicate count ['.', '.']).foldl step ⟨ascents + 1, []⟩ = _
      rw [ih, Nat.add_right_comm, Nat.add_assoc]

theorem Descent.isName_step {d : Descent} {segment : List Char}
    (hd : ∀ name ∈ d.names, IsName name.toList)
    (hslash : '/' ∉ segment) (hsign : '#' ∉ segment) :
    ∀ name ∈ (d.step segment).names, IsName name.toList := by
  unfold step
  split
  · exact hd
  · next hstay =>
    split
    · next hup =>
      split
      · exact hd
      · next first names hnames =>
        rw [hnames] at hd
        exact (List.forall_mem_cons.mp hd).2
    · next hup =>
      obtain ⟨hnil, hdot⟩ := not_or.mp hstay
      refine List.forall_mem_cons.mpr ⟨?_, hd⟩
      rw [String.toList_ofList]
      exact ⟨hnil, hdot, hup, hslash, hsign⟩

/-- What is left after any segments is made of names. -/
theorem Descent.isName_foldl {segments : List (List Char)}
    (h : ∀ segment ∈ segments, '/' ∉ segment ∧ '#' ∉ segment) {d : Descent}
    (hd : ∀ name ∈ d.names, IsName name.toList) :
    ∀ name ∈ (segments.foldl step d).names, IsName name.toList := by
  induction segments generalizing d with
  | nil => exact hd
  | cons segment segments ih =>
      obtain ⟨⟨hslash, hsign⟩, hsegments⟩ := List.forall_mem_cons.mp h
      exact ih hsegments (isName_step hd hslash hsign)

/-! ## Fragments -/

theorem splitFragment_fst {raw : List Char} : '#' ∉ (splitFragment raw).1 := by
  unfold splitFragment
  split
  · next hnone => exact Text.cutAt_eq_none_iff.mp hnone
  · next hcut => exact Text.not_mem_of_cutAt hcut
  · next hcut => exact Text.not_mem_of_cutAt hcut

theorem splitFragment_snd {raw : List Char} :
    (splitFragment raw).2 ≠ some "" := by
  unfold splitFragment
  split
  · exact nofun
  · exact nofun
  · next path fragment hne hcut =>
    intro h
    have hnil : fragment = [] := by simpa using Option.some.inj h
    exact hne hnil

theorem splitFragment_append_of_not_mem {front : List Char} (h : '#' ∉ front)
    (back : List Char) :
    splitFragment (front ++ back)
      = (front ++ (splitFragment back).1, (splitFragment back).2) := by
  rw [splitFragment, splitFragment, Text.cutAt_append_of_not_mem h]
  cases Text.cutAt '#' back with
  | none => rfl
  | some parts =>
      obtain ⟨before, after⟩ := parts
      cases after <;> rfl

theorem splitFragment_fragmentText {fragment : Option String} (h : fragment ≠ some "") :
    splitFragment (fragmentText fragment).toList = ([], fragment) := by
  cases fragment with
  | none => rfl
  | some text =>
      have hcut : Text.cutAt '#' (fragmentText (some text)).toList
          = some ([], text.toList) := by
        simp [fragmentText, Text.cutAt]
      rw [splitFragment, hcut]
      cases htext : text.toList with
      | nil => exact absurd (congrArg some (String.toList_inj.mp htext)) h
      | cons c cs => simp [← htext]

/-- A fragment is cut off where it was put. -/
theorem splitFragment_append {path : List Char} (h : '#' ∉ path)
    {fragment : Option String} (hfragment : fragment ≠ some "") :
    splitFragment (path ++ (fragmentText fragment).toList) = (path, fragment) := by
  rw [splitFragment_append_of_not_mem h, splitFragment_fragmentText hfragment,
    List.append_nil]

/-- Path and fragment are the text, unless it has a sign for no fragment. -/
theorem splitFragment_join {raw : List Char}
    (h : (splitFragment raw).2 = none → '#' ∉ raw) :
    (splitFragment raw).1 ++ (fragmentText (splitFragment raw).2).toList = raw := by
  cases hcut : Text.cutAt '#' raw with
  | none => simp [splitFragment, hcut, fragmentText]
  | some pair =>
      obtain ⟨path, fragment⟩ := pair
      have hraw := Text.eq_of_cutAt hcut
      cases fragment with
      | nil =>
          have hnone : (splitFragment raw).2 = none := by rw [splitFragment, hcut]
          exact absurd (by simp [hraw]) (h hnone)
      | cons c cs =>
          simp only [splitFragment, hcut, fragmentText]
          simp [hraw]

/-! ## Relative paths -/

/-- The path is made of names, and an empty fragment is none. -/
structure RelativePath.Normal (p : RelativePath) : Prop where
  names : ∀ name ∈ p.segments, IsName name.toList
  fragment : p.fragment ≠ some ""

theorem RelativePath.normal_parse (raw : String) : (parse raw).Normal := by
  constructor
  · intro name hname
    refine Descent.isName_foldl (d := ⟨0, []⟩) (fun segment hsegment => ⟨?_, ?_⟩)
      nofun name (List.mem_reverse.mp hname)
    · exact fun h => (Text.mem_of_mem_splitOn hsegment h).1 rfl
    · exact fun h => splitFragment_fst (Text.mem_of_mem_splitOn hsegment h).2
  · exact splitFragment_snd

section

variable {p : RelativePath}

/-- What a relative path is written with: its climbs, then its names. -/
def RelativePath.parts (p : RelativePath) : List (List Char) :=
  List.replicate p.ascents ['.', '.'] ++ p.segments.map String.toList

theorem RelativePath.Normal.of_mem_parts (h : p.Normal) {part : List Char}
    (hpart : part ∈ p.parts) : '/' ∉ part ∧ '#' ∉ part := by
  rcases List.mem_append.mp hpart with hdots | hname
  · rw [List.eq_of_mem_replicate hdots]
    decide
  · obtain ⟨name, hmem, rfl⟩ := List.mem_map.mp hname
    exact ⟨(h.names name hmem).slash, (h.names name hmem).sign⟩

theorem RelativePath.toList_joined (p : RelativePath) :
    ("/".intercalate (List.replicate p.ascents ".." ++ p.segments)).toList
      = ['/'].intercalate p.parts := by
  have hparts : (List.replicate p.ascents ".." ++ p.segments).map String.toList
      = p.parts := by
    rw [List.map_append, List.map_replicate]
    rfl
  rw [String.toList_intercalate, hparts]
  rfl

/-- A path that climbs is written with its parts, and its fragment after them. -/
theorem RelativePath.toList_toText (h : p.ascents ≠ 0) :
    p.toText.toList = ['/'].intercalate p.parts ++ (fragmentText p.fragment).toList := by
  have hparts : ¬(List.replicate p.ascents ".." ++ p.segments = []
      ∧ p.fragment = none) := by
    rintro ⟨hnil, -⟩
    simp [h] at hnil
  rw [toText, if_neg hparts, String.toList_append, toList_joined]

/-- The text of climbs, names and a fragment is cut into these. -/
theorem RelativePath.Normal.splitFragment_joined (h : p.Normal) :
    splitFragment (['/'].intercalate p.parts ++ (fragmentText p.fragment).toList)
      = (['/'].intercalate p.parts, p.fragment) :=
  splitFragment_append
    (Text.not_mem_intercalate (by decide) fun _ hmem => (h.of_mem_parts hmem).2) h.fragment

theorem RelativePath.Normal.splitOn_joined (h : p.Normal) (hne : p.parts ≠ []) :
    (['/'].intercalate p.parts).splitOn '/' = p.parts :=
  List.splitOn_intercalate '/' (fun _ hmem => (h.of_mem_parts hmem).1) hne

/-- The text of climbs, names and a fragment is read as these. -/
theorem RelativePath.parse_parts (h : p.Normal) :
    parse ("/".intercalate (List.replicate p.ascents ".." ++ p.segments)
      ++ fragmentText p.fragment) = p := by
  have hfold : ((['/'].intercalate p.parts).splitOn '/').foldl Descent.step ⟨0, []⟩
      = ⟨p.ascents, p.segments.reverse⟩ := by
    by_cases hnil : p.parts = []
    · obtain ⟨hdots, hsegments⟩ := List.append_eq_nil_iff.mp hnil
      have hascents : p.ascents = 0 := by simpa using hdots
      have hnames : p.segments = [] := by simpa using hsegments
      rw [hnil, hascents, hnames]
      rfl
    · rw [h.splitOn_joined hnil, parts, List.foldl_append, Descent.foldl_dots,
        Descent.foldl_names h.names]
      simp
  rw [parse, String.toList_append, toList_joined, h.splitFragment_joined]
  simp [hfold]

end

theorem RelativePath.parse_toText {p : RelativePath} (h : p.Normal) :
    parse p.toText = p := by
  rw [toText]
  split
  · next hempty =>
    obtain ⟨ascents, segments, fragment⟩ := p
    obtain ⟨hparts, rfl⟩ := hempty
    obtain ⟨hdots, rfl⟩ := List.append_eq_nil_iff.mp hparts
    obtain rfl : ascents = 0 := by simpa using hdots
    rfl
  · exact parse_parts h

/-! ## Absolute paths -/

structure AbsolutePath.Normal (p : AbsolutePath) : Prop where
  names : ∀ name ∈ p.segments, IsName name.toList
  fragment : p.fragment ≠ some ""

namespace AbsolutePath

theorem normal_of_parse {raw : String} {p : AbsolutePath} (h : parse raw = .ok p) :
    p.Normal := by
  cases hraw : raw.toList with
  | nil => simp [parse, hraw] at h
  | cons c text =>
      by_cases hc : c = '/'
      · subst hc
        rw [parse_of_slash hraw] at h
        split at h
        · cases h
        · have hnormal := RelativePath.normal_parse (String.ofList text)
          cases h
          exact ⟨by simpa [follow, root] using hnormal.names, hnormal.fragment⟩
      · simp [parse, hraw, hc] at h

theorem toList_toText (p : AbsolutePath) :
    p.toText.toList
      = '/' :: ("/".intercalate p.segments ++ fragmentText p.fragment).toList := by
  simp [toText]

theorem parse_toText {p : AbsolutePath} (h : p.Normal) : parse p.toText = .ok p := by
  have hread := RelativePath.parse_parts (p := ⟨0, p.segments, p.fragment⟩)
    ⟨h.names, h.fragment⟩
  rw [parse_of_slash p.toList_toText]
  simp only [List.replicate_zero, List.nil_append] at hread
  rw [String.ofList_toList, hread]
  simp [follow, root]

/-- Whether a path is read back from its text shows in its names. -/
theorem parse_toText_iff {p : AbsolutePath} : parse p.toText = .ok p ↔ p.Normal :=
  ⟨normal_of_parse, parse_toText⟩

/-- A path that some text is read as. -/
def Readable (p : AbsolutePath) : Prop := ∃ raw, parse raw = .ok p

theorem readable_iff {p : AbsolutePath} : p.Readable ↔ p.Normal :=
  ⟨fun ⟨_, h⟩ => normal_of_parse h, fun h => ⟨p.toText, parse_toText h⟩⟩

end AbsolutePath

/-! ## Paths as they are written -/

/-- A path that some text is read as. -/
def RelativePath.Readable (p : RelativePath) : Prop := ∃ raw, parse raw = p

theorem RelativePath.Readable.parse_toText {p : RelativePath} (h : p.Readable) :
    parse p.toText = p := by
  obtain ⟨raw, rfl⟩ := h
  exact RelativePath.parse_toText (normal_parse raw)

/-- A path that some text is read as. -/
def WrittenPath.Readable (p : WrittenPath) : Prop := ∃ raw, parse raw = .ok p

/-- The text of a path of names does not look like that of an absolute path. -/
theorem RelativePath.toText_ne_slash {p : RelativePath} (h : p.Normal)
    (text : List Char) : p.toText.toList ≠ '/' :: text := by
  obtain ⟨ascents, segments, fragment⟩ := p
  have hfirst : ∀ part ∈ List.replicate ascents ".." ++ segments,
      ∃ c cs, part.toList = c :: cs ∧ c ≠ '/' := by
    intro part hpart
    rcases List.mem_append.mp hpart with hdots | hname
    · exact ⟨'.', ['.'], by rw [List.eq_of_mem_replicate hdots]; rfl, by decide⟩
    · have hpart := h.names part hname
      obtain ⟨c, cs, hcons⟩ := List.exists_cons_of_ne_nil hpart.ne_nil
      exact ⟨c, cs, hcons, fun hc => hpart.slash (by simp [hcons, hc])⟩
  rw [toText]
  split
  · simp
  · next hsome =>
    dsimp only at hsome ⊢
    generalize List.replicate ascents ".." ++ segments = parts at hfirst hsome
    rcases parts with - | ⟨part, parts⟩
    · obtain ⟨text, rfl⟩ := Option.ne_none_iff_exists'.mp fun hnone => hsome ⟨rfl, hnone⟩
      simp [fragmentText]
    · obtain ⟨c, cs, hcons, hc⟩ := hfirst part List.mem_cons_self
      cases parts <;> simp [hcons, hc]

theorem WrittenPath.Readable.parse_toText {p : WrittenPath} (h : p.Readable) :
    parse p.toText = .ok p := by
  obtain ⟨raw, h⟩ := h
  cases p with
  | absolute path =>
      have hpath : AbsolutePath.parse raw = .ok path := by
        rw [parse] at h
        split at h
        · cases hread : AbsolutePath.parse raw <;> simp_all [Except.map]
        · cases h
      have hread := AbsolutePath.parse_toText (AbsolutePath.normal_of_parse hpath)
      rw [parse]
      split
      · rw [toText, hread]
        rfl
      · next hslash => exact absurd path.toList_toText (hslash _)
  | relative path =>
      have hpath : RelativePath.parse raw = path := by
        rw [parse] at h
        split at h
        · cases hread : AbsolutePath.parse raw <;> simp_all [Except.map]
        · cases h
          rfl
      have hnormal : path.Normal := hpath ▸ RelativePath.normal_parse raw
      rw [toText, parse_of_not_slash (RelativePath.toText_ne_slash hnormal),
        RelativePath.parse_toText hnormal]

/-! ## Normal forms -/

section

variable {α : Type}

/-- What is printed of the path that a text is read as. -/
def reprint (parse : String → Except PathError α) (toText : α → String) (raw : String) :
    Except PathError String :=
  (parse raw).map toText

/-- What is printed of a path that was read is a normal form. -/
structure PrintsNormally (parse : String → Except PathError α) (toText : α → String) :
    Prop where
  /-- It is read as the same path again. -/
  reads_back : ∀ raw p, parse raw = .ok p → parse (toText p) = .ok p
  /-- It is printed as it is. -/
  stable : ∀ raw text, reprint parse toText raw = .ok text →
    reprint parse toText text = .ok text
  /-- Different paths have different ones. -/
  unique : ∀ raw raw' p p', parse raw = .ok p → parse raw' = .ok p' →
    toText p = toText p' → p = p'

theorem PrintsNormally.of_reads_back {parse : String → Except PathError α}
    {toText : α → String} (h : ∀ raw p, parse raw = .ok p → parse (toText p) = .ok p) :
    PrintsNormally parse toText where
  reads_back := h
  stable := by
    intro raw text htext
    rw [reprint] at htext
    cases hread : parse raw with
    | error e =>
        rw [hread] at htext
        cases htext
    | ok p =>
        rw [hread] at htext
        obtain rfl := Except.ok.inj htext
        rw [reprint, h raw p hread]
        rfl
  unique := by
    intro raw raw' p p' hp hp' htext
    have hread : parse (toText p) = .ok p' := htext ▸ h raw' p' hp'
    exact Except.ok.inj ((h raw p hp).symm.trans hread)

end

/-- Absolute paths, relative paths and paths as they are written print normally. -/
theorem paths_print_normally :
    PrintsNormally AbsolutePath.parse AbsolutePath.toText
      ∧ PrintsNormally (fun raw => .ok (RelativePath.parse raw)) RelativePath.toText
      ∧ PrintsNormally WrittenPath.parse WrittenPath.toText := by
  refine ⟨.of_reads_back ?_, .of_reads_back ?_, .of_reads_back ?_⟩
  · intro raw p hread
    exact AbsolutePath.parse_toText (AbsolutePath.normal_of_parse hread)
  · intro raw p hread
    have hreadable : p.Readable := ⟨raw, Except.ok.inj hread⟩
    exact congrArg Except.ok hreadable.parse_toText
  · intro raw p hread
    have hreadable : p.Readable := ⟨raw, hread⟩
    exact hreadable.parse_toText

end Crosslink

import Crosslink.Proofs.PathText

/-!
# Paths written one after the other

Reading folds the segments of a path into a `Descent`. Two stretches of segments may
be read apart and put together after that: what the second climbs uses up the names of
the first, and only the rest of it climbs further (`Descent.foldl_eq_andThen`). The
invariant is that of one step (`Descent.step_andThen`). So a text with a slash between
two paths is read as the one followed by the other (`RelativePath.parse_append`), and
to resolve a path against a base is to read both as one text
(`AbsolutePath.parse_join`).

From the root, a path that climbs at all leads above it. By counting, it climbs just
if some start of its segments has more steps upward than names (`climbs_iff_exists`).
-/

namespace Crosslink

/-! ## One descent after another -/

namespace Descent

/-- Descends `d` and then `e`: the climbs of `e` undo names of `d` as long as there
are any. -/
def andThen (d e : Descent) : Descent where
  ascents := d.ascents + (e.ascents - d.names.length)
  names := e.names ++ d.names.drop e.ascents

theorem andThen_start (d : Descent) : d.andThen ⟨0, []⟩ = d := by
  simp [andThen]

/-- A step upward from where `d` was climbed takes a name of `d`, or climbs further if
none is left. -/
theorem step_up_andThen (d : Descent) (ascents : Nat) :
    (d.andThen ⟨ascents, []⟩).step ['.', '.'] = d.andThen ⟨ascents + 1, []⟩ := by
  have hup : ¬((['.', '.'] : List Char) = [] ∨ ['.', '.'] = ['.']) := by decide
  rw [step, if_neg hup, if_pos rfl]
  simp only [andThen, List.nil_append]
  cases hleft : d.names.drop ascents with
  | nil =>
    have hall : d.names.length ≤ ascents := List.drop_eq_nil_iff.mp hleft
    have hnext : d.names.drop (ascents + 1) = [] :=
      List.drop_eq_nil_iff.mpr (Nat.le_succ_of_le hall)
    have hclimb : ascents + 1 - d.names.length = ascents - d.names.length + 1 := by
      omega
    rw [hnext, hclimb]
    rfl
  | cons name rest =>
    have hlt : ascents < d.names.length := by
      refine Nat.lt_of_not_le fun hall => ?_
      rw [List.drop_eq_nil_iff.mpr hall] at hleft
      cases hleft
    have hnext : d.names.drop (ascents + 1) = rest := by
      rw [← List.tail_drop, hleft]
      rfl
    have hclimb : ascents + 1 - d.names.length = ascents - d.names.length := by
      omega
    rw [hnext, hclimb]

theorem step_andThen (d e : Descent) (segment : List Char) :
    (d.andThen e).step segment = d.andThen (e.step segment) := by
  obtain ⟨ascents, names⟩ := e
  by_cases hstay : segment = [] ∨ segment = ['.']
  · rw [step, step, if_pos hstay, if_pos hstay]
  by_cases hup : segment = ['.', '.']
  · subst hup
    cases names with
    | nil => exact d.step_up_andThen ascents
    | cons name names => rfl
  · rw [step, step, if_neg hstay, if_neg hstay, if_neg hup, if_neg hup]
    rfl

/-- Segments read from where `d` ends are `d` and then the same segments read alone. -/
theorem foldl_eq_andThen (segments : List (List Char)) (d : Descent) :
    segments.foldl step d = d.andThen (segments.foldl step ⟨0, []⟩) := by
  have hhom : segments.foldl step (d.andThen ⟨0, []⟩)
      = d.andThen (segments.foldl step ⟨0, []⟩) :=
    List.foldl_hom d.andThen fun e segment => d.step_andThen e segment
  rwa [andThen_start] at hhom

end Descent

/-- Follows `p` and then `r`; the fragment is that of `r`. -/
def RelativePath.andThen (p r : RelativePath) : RelativePath where
  ascents := p.ascents + (r.ascents - p.segments.length)
  segments := p.segments.take (p.segments.length - r.ascents) ++ r.segments
  fragment := r.fragment

/-- A text with a slash in the middle, and no fragment before it, is read as the path
in front and then the path behind. -/
theorem RelativePath.parse_append {front : String} (h : '#' ∉ front.toList)
    (back : String) :
    parse (front ++ "/" ++ back) = (parse front).andThen (parse back) := by
  have hfront : splitFragment front.toList = (front.toList, none) := by
    rw [splitFragment, Text.cutAt_eq_none_iff.mpr h]
  have hslash : '#' ∉ front.toList ++ ['/'] := by
    rw [List.mem_append, not_or]
    exact ⟨h, by decide⟩
  have htext : (front ++ "/" ++ back).toList = (front.toList ++ ['/']) ++ back.toList := by
    simp
  unfold parse
  rw [htext, splitFragment_append_of_not_mem hslash, hfront]
  dsimp only
  rw [List.append_assoc, List.singleton_append, List.splitOn_append_cons_self,
    List.foldl_append, Descent.foldl_eq_andThen]
  simp [andThen, Descent.andThen, List.reverse_drop]

/-! ## A path written after its base -/

namespace AbsolutePath

/-- The text of a base without its slash is read as the names of the base. -/
theorem parse_names {p : AbsolutePath} (h : p.Normal) :
    RelativePath.parse ("/".intercalate p.segments) = ⟨0, p.segments, none⟩ := by
  have hparts := RelativePath.parse_parts (p := ⟨0, p.segments, none⟩) ⟨h.names, nofun⟩
  simpa [fragmentText] using hparts

theorem sign_not_mem_names {p : AbsolutePath} (h : p.Normal) :
    '#' ∉ ("/".intercalate p.segments).toList := by
  rw [String.toList_intercalate]
  refine Text.not_mem_intercalate (by decide) fun piece hpiece => ?_
  obtain ⟨name, hname, rfl⟩ := List.mem_map.mp hpiece
  exact (h.names name hname).sign

/-- Written after its base, a path is read as what it resolves to. -/
theorem parse_join {p : AbsolutePath} (h : p.Normal) (hfragment : p.fragment = none)
    (r : String) :
    parse (p.toText ++ "/" ++ r)
      = if p.depth < (RelativePath.parse r).ascents
        then .error (.aboveRoot (p.toText ++ "/" ++ r))
        else .ok (p.follow (.parse r)) := by
  have htext : (p.toText ++ "/" ++ r).toList
      = '/' :: ("/".intercalate p.segments ++ "/" ++ r).toList := by
    simp [toText, hfragment, fragmentText]
  rw [parse_of_slash htext, String.ofList_toList,
    RelativePath.parse_append (sign_not_mem_names h), parse_names h]
  have habove : 0 < ((⟨0, p.segments, none⟩ : RelativePath).andThen (.parse r)).ascents
      ↔ p.depth < (RelativePath.parse r).ascents := by
    simp only [RelativePath.andThen, depth]
    omega
  have hplace : root.follow ((⟨0, p.segments, none⟩ : RelativePath).andThen (.parse r))
      = p.follow (.parse r) := by
    simp [follow, root, RelativePath.andThen, depth]
  rw [hplace]
  by_cases hclimb : p.depth < (RelativePath.parse r).ascents
  · rw [if_pos hclimb, if_pos (habove.mpr hclimb)]
  · rw [if_neg hclimb, if_neg (mt habove.mp hclimb)]

end AbsolutePath

/-! ## Climbing by counting -/

/-- How many of the segments are steps upward. -/
def upwardCount (segments : List (List Char)) : Nat := segments.count ['.', '.']

/-- How many of the segments are neither empty nor steps. -/
def nameCount (segments : List (List Char)) : Nat :=
  segments.countP fun segment =>
    segment ≠ [] ∧ segment ≠ ['.'] ∧ segment ≠ ['.', '.']

section

variable {segment : List Char} (front : List (List Char))

theorem counts_of_stay (h : segment = [] ∨ segment = ['.']) :
    nameCount (segment :: front) = nameCount front
      ∧ upwardCount (segment :: front) = upwardCount front := by
  rcases h with rfl | rfl <;> exact ⟨rfl, rfl⟩

theorem counts_of_up :
    nameCount (['.', '.'] :: front) = nameCount front
      ∧ upwardCount (['.', '.'] :: front) = upwardCount front + 1 :=
  ⟨rfl, List.count_cons_self⟩

theorem counts_of_name (hstay : ¬(segment = [] ∨ segment = ['.']))
    (hup : segment ≠ ['.', '.']) :
    nameCount (segment :: front) = nameCount front + 1
      ∧ upwardCount (segment :: front) = upwardCount front := by
  obtain ⟨hnil, hdot⟩ := not_or.mp hstay
  refine ⟨?_, List.count_cons_of_ne hup⟩
  rw [nameCount, List.countP_cons_of_pos (by simp [hnil, hdot, hup])]
  rfl

end

/-- Followed from a place `depth` names below the root, a path comes above the root
just if some start of it has more steps upward than there are names on the way. -/
theorem climbs_iff_exists (segments : List (List Char)) (depth : Nat) :
    climbs depth segments = true
      ↔ ∃ front, front <+: segments ∧ depth + nameCount front < upwardCount front := by
  induction segments generalizing depth with
  | nil => simp [climbs, nameCount, upwardCount]
  | cons segment segments ih =>
      -- the empty start has no steps, so every start that counts has the first segment
      have hfirst : (∃ front, front <+: segment :: segments
            ∧ depth + nameCount front < upwardCount front)
          ↔ ∃ front, front <+: segments
            ∧ depth + nameCount (segment :: front) < upwardCount (segment :: front) := by
        constructor
        · rintro ⟨front, hfront, hlt⟩
          rcases List.prefix_cons_iff.mp hfront with rfl | ⟨rest, rfl, hrest⟩
          · exact absurd hlt (Nat.not_lt_zero _)
          · exact ⟨rest, hrest, hlt⟩
        · rintro ⟨rest, hrest, hlt⟩
          exact ⟨segment :: rest, List.prefix_cons_iff.mpr (.inr ⟨rest, rfl, hrest⟩), hlt⟩
      rw [hfirst, climbs]
      by_cases hstay : segment = [] ∨ segment = ['.']
      · simp only [counts_of_stay _ hstay]
        rw [if_pos hstay, ih]
      rw [if_neg hstay]
      by_cases hup : segment = ['.', '.']
      · subst hup
        simp only [counts_of_up]
        rw [if_pos trivial]
        by_cases hroot : depth = 0
        · have hone : ([] : List (List Char)) <+: segments := List.nil_prefix
          rw [if_pos hroot]
          exact iff_of_true rfl ⟨[], hone, by simp [hroot, nameCount]⟩
        · rw [if_neg hroot, ih]
          have hless : ∀ front, depth - 1 + nameCount front < upwardCount front
              ↔ depth + nameCount front < upwardCount front + 1 := by
            intro front
            omega
          simp only [hless]
      · simp only [counts_of_name _ hstay hup]
        rw [if_neg hup, ih]
        have hmore : ∀ front, depth + 1 + nameCount front < upwardCount front
            ↔ depth + (nameCount front + 1) < upwardCount front := by
          intro front
          omega
        simp only [hmore]

/-- The segments of the path part of a text. -/
def pathSegments (raw : String) : List (List Char) :=
  (splitFragment raw.toList).1.splitOn '/'

/-- A text that starts with a slash is no path just if some start of its segments has
more steps upward than names. -/
theorem AbsolutePath.parse_error_iff {raw : String} (h : raw.toList.head? = some '/') :
    (∃ e, parse raw = .error e)
      ↔ ∃ front, front <+: pathSegments raw ∧ nameCount front < upwardCount front := by
  obtain ⟨text, htext⟩ := List.head?_eq_some_iff.mp h
  have hsegments : pathSegments raw = [] :: (splitFragment text).1.splitOn '/' := by
    have hslash : '#' ∉ ['/'] := by decide
    rw [pathSegments, htext, ← List.singleton_append, splitFragment_append_of_not_mem hslash]
    exact List.splitOn_append_cons_self [] _
  have hclimbs : climbs 0 (pathSegments raw) = true
      ↔ 0 < (RelativePath.parse (String.ofList text)).ascents := by
    rw [hsegments, ← climbs_iff 0 text]
    rfl
  have hcounts := climbs_iff_exists (pathSegments raw) 0
  simp only [Nat.zero_add] at hcounts
  rw [← hcounts, hclimbs, parse_of_slash htext]
  by_cases habove : 0 < (RelativePath.parse (String.ofList text)).ascents
  · rw [if_pos habove]
    exact iff_of_true ⟨_, rfl⟩ habove
  · rw [if_neg habove]
    exact iff_of_false nofun habove

/-- To resolve a path against a base is to read the two as one text, and it leads above
the root just if this text is no path. A text that starts with a slash is no path just if
some start of its segments has more steps upward than names. -/
theorem AbsolutePath.resolve_reads_joined :
    (∀ p : AbsolutePath, p.Readable → p.fragment = none → ∀ r : String,
        (∀ q : AbsolutePath, p.resolve (.parse r) = .inside q
            ↔ parse (p.toText ++ "/" ++ r) = .ok q)
          ∧ ((∃ above, p.resolve (.parse r) = .aboveRoot above)
            ↔ ∃ e, parse (p.toText ++ "/" ++ r) = .error e))
      ∧ ∀ raw : String, raw.toList.head? = some '/' →
        ((∃ e, parse raw = .error e)
          ↔ ∃ front, front <+: pathSegments raw
            ∧ nameCount front < upwardCount front) := by
  refine ⟨fun p hread hfragment r => ?_, fun raw hslash => parse_error_iff hslash⟩
  rw [parse_join (readable_iff.mp hread) hfragment, resolve_eq]
  by_cases habove : p.depth < (RelativePath.parse r).ascents
  · rw [if_pos habove, if_pos habove]
    exact ⟨fun q => iff_of_false nofun nofun, iff_of_true ⟨_, rfl⟩ ⟨_, rfl⟩⟩
  · rw [if_neg habove, if_neg habove]
    refine ⟨fun q => ?_, iff_of_false nofun nofun⟩
    rw [PathResolution.inside.injEq, Except.ok.injEq]

/-- A path that goes back and forth from the pier, and a text that climbs above the root
after its first name. -/
theorem AbsolutePath.resolve_reads_joined_pier :
    (⟨["harbour", "pier"], none⟩ : AbsolutePath).Readable
      ∧ (⟨["harbour", "pier"], none⟩ : AbsolutePath).fragment = none
      ∧ parse (toText ⟨["harbour", "pier"], none⟩ ++ "/" ++ ".././mast/..//quay#top")
        = .ok ⟨["harbour", "quay"], some "top"⟩
      ∧ "/bow/../../stern".toList.head? = some '/'
      ∧ ∃ e, parse "/bow/../../stern" = .error e := by
  have hread : (⟨["harbour", "pier"], none⟩ : AbsolutePath).Readable :=
    ⟨"/harbour/pier", rfl⟩
  have hslash : "/bow/../../stern".toList.head? = some '/' := by decide
  have hfront : [[], ['b', 'o', 'w'], ['.', '.'], ['.', '.']]
      <+: pathSegments "/bow/../../stern" := ⟨[['s', 't', 'e', 'r', 'n']], by decide⟩
  refine ⟨hread, rfl, ?_, hslash, ?_⟩
  · exact ((resolve_reads_joined.1 _ hread rfl ".././mast/..//quay#top").1 _).mp (by decide)
  · exact (resolve_reads_joined.2 _ hslash).mpr ⟨_, hfront, by decide⟩

end Crosslink

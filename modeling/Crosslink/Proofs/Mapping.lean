import Mathlib.Data.List.Forall2
import Crosslink.Config.Layer

/-!
# Which mapping covers a path

Of the mappings around a path the deepest is used, and of several that map
the same subtree the one listed last (`Config.mappingFor_eq_some_iff`). A
layer lists its mappings before those it inherits, so a chain of layers
lists them from the last layer to the first
(`ConfigLayer.linkMappings_applyAll`). Both together say which layer
decides: where several map the same subtree, it is the one applied first,
the farthest from the document (`ConfigLayer.mappingFor_applyAll`), as
`harbourLayers` shows.
-/

namespace Crosslink

namespace LinkMapping

/-- The path stands in the mapped subtree. -/
abbrev Covers (m : LinkMapping) (path : AbsolutePath) : Prop :=
  path.isWithin m.internalPath = true

abbrev depth (m : LinkMapping) : Nat := m.internalPath.depth

/-- Both mappings publish the same subtree; fragments do not count. -/
abbrev SameSubtree (m n : LinkMapping) : Prop :=
  m.internalPath.segments = n.internalPath.segments

/-- Of the mappings around one path, those of one depth map one subtree. -/
theorem Covers.depth_eq_iff {m n : LinkMapping} {path : AbsolutePath}
    (hm : m.Covers path) (hn : n.Covers path) :
    m.depth = n.depth ↔ m.SameSubtree n := by
  have hprefix : ∀ {l : LinkMapping}, l.Covers path →
      l.internalPath.segments = path.segments.take l.depth :=
    fun h => List.prefix_iff_eq_take.mp (List.isPrefixOf_iff_prefix.mp h)
  refine ⟨fun hdepth => ?_, congrArg List.length⟩
  rw [SameSubtree, hprefix hm, hprefix hn, hdepth]

theorem SameSubtree.covers {m n : LinkMapping} {path : AbsolutePath}
    (h : m.SameSubtree n) (hn : n.Covers path) : m.Covers path := by
  simpa only [Covers, AbsolutePath.isWithin, h] using hn

end LinkMapping

namespace Config

theorem deepest?_eq_none_iff {mappings : List LinkMapping} :
    deepest? mappings = none ↔ mappings = [] := by
  cases mappings with
  | nil => simp [deepest?]
  | cons m mappings => cases h : deepest? mappings <;> simp [deepest?, h]

/-- `m` is the last of the deepest mappings: those listed before it are no
deeper, those after it shallower. -/
def LastDeepest (mappings : List LinkMapping) (m : LinkMapping) : Prop :=
  ∃ front back, mappings = front ++ m :: back
    ∧ (∀ n ∈ front, n.depth ≤ m.depth) ∧ ∀ n ∈ back, n.depth < m.depth

theorem LastDeepest.mem {mappings : List LinkMapping} {m : LinkMapping}
    (h : LastDeepest mappings m) : m ∈ mappings := by
  obtain ⟨front, back, rfl, -⟩ := h
  simp

theorem LastDeepest.depth_le {mappings : List LinkMapping} {m n : LinkMapping}
    (h : LastDeepest mappings m) (hn : n ∈ mappings) : n.depth ≤ m.depth := by
  obtain ⟨front, back, rfl, hfront, hback⟩ := h
  rcases List.mem_append.mp hn with hn | hn
  · exact hfront n hn
  · rcases List.mem_cons.mp hn with rfl | hn
    · exact Nat.le_refl _
    · exact Nat.le_of_lt (hback n hn)

theorem lastDeepest_of_deepest? {mappings : List LinkMapping} {m : LinkMapping}
    (h : deepest? mappings = some m) : LastDeepest mappings m := by
  induction mappings generalizing m with
  | nil => cases h
  | cons l mappings ih =>
    cases hrest : deepest? mappings with
    | none =>
      obtain rfl := deepest?_eq_none_iff.mp hrest
      obtain rfl : l = m := by simpa [deepest?] using h
      exact ⟨[], [], rfl, by simp, by simp⟩
    | some n =>
      have hlast := ih hrest
      -- the front one is taken only if it is strictly deeper
      rw [deepest?, hrest, Option.some.injEq, deeper] at h
      split at h
      · next hlt =>
        subst h
        exact ⟨[], mappings, rfl, by simp,
          fun k hk => Nat.lt_of_le_of_lt (hlast.depth_le hk) hlt⟩
      · next hle =>
        subst h
        obtain ⟨front, back, rfl, hfront, hback⟩ := hlast
        refine ⟨l :: front, back, rfl, fun k hk => ?_, hback⟩
        rcases List.mem_cons.mp hk with rfl | hk
        · exact Nat.le_of_not_lt hle
        · exact hfront k hk

theorem deepest?_append_cons {front back : List LinkMapping} {m : LinkMapping}
    (hfront : ∀ n ∈ front, n.depth ≤ m.depth)
    (hback : ∀ n ∈ back, n.depth < m.depth) :
    deepest? (front ++ m :: back) = some m := by
  induction front with
  | nil =>
    cases hrest : deepest? back with
    | none => simp [deepest?, hrest]
    | some n =>
      have hn : n.depth < m.depth := hback n (lastDeepest_of_deepest? hrest).mem
      simp [deepest?, hrest, deeper, hn]
  | cons l front ih =>
    have hl : ¬ m.depth < l.depth := Nat.not_lt.mpr (hfront l (by simp))
    rw [List.cons_append, deepest?,
      ih fun n hn => hfront n (List.mem_cons_of_mem l hn)]
    simp [deeper, hl]

theorem deepest?_eq_some_iff {mappings : List LinkMapping} {m : LinkMapping} :
    deepest? mappings = some m ↔ LastDeepest mappings m := by
  refine ⟨lastDeepest_of_deepest?, ?_⟩
  rintro ⟨front, back, rfl, hfront, hback⟩
  exact deepest?_append_cons hfront hback

theorem mappingFor_eq_none_iff {config : Config} {path : AbsolutePath} :
    config.mappingFor path = none ↔
      ∀ m ∈ config.linkMappings, ¬ m.Covers path := by
  rw [mappingFor, deepest?_eq_none_iff, List.filter_eq_nil_iff]

/-- Of the mappings around a path the deepest is used; of several for its
subtree, the one listed last. -/
theorem mappingFor_eq_some_iff {config : Config} {path : AbsolutePath}
    {m : LinkMapping} :
    config.mappingFor path = some m ↔
      m.Covers path
        ∧ (∀ n ∈ config.linkMappings, n.Covers path → n.depth ≤ m.depth)
        ∧ ∃ front back, config.linkMappings = front ++ m :: back
            ∧ ∀ n ∈ back, ¬ n.SameSubtree m := by
  let covers (n : LinkMapping) : Bool := path.isWithin n.internalPath
  rw [mappingFor, deepest?_eq_some_iff]
  constructor
  · intro hlast
    have hdepth : ∀ n ∈ config.linkMappings, n.Covers path → n.depth ≤ m.depth :=
      fun n hn hcovers => hlast.depth_le (List.mem_filter.mpr ⟨hn, hcovers⟩)
    obtain ⟨front, back, hkept, -, hback⟩ := hlast
    obtain ⟨front', rest, hlist, -, hrest⟩ := List.filter_eq_append_iff.mp hkept
    obtain ⟨skipped, back', rfl, -, hm, rfl⟩ := List.filter_eq_cons_iff.mp hrest
    refine ⟨hm, hdepth, front' ++ skipped, back', by simp [hlist], fun n hn hsame => ?_⟩
    have hcovers : n.Covers path := hsame.covers hm
    have hlt := hback n (List.mem_filter.mpr ⟨hn, hcovers⟩)
    exact Nat.ne_of_lt hlt ((LinkMapping.Covers.depth_eq_iff hcovers hm).mpr hsame)
  · rintro ⟨hm, hdepth, front, back, hsplit, hback⟩
    rw [hsplit] at hdepth ⊢
    refine ⟨front.filter covers, back.filter covers, ?_, fun n hn => ?_, fun n hn => ?_⟩
    · rw [List.filter_append, List.filter_cons_of_pos (show covers m from hm)]
    · obtain ⟨hn, hcovers⟩ := List.mem_filter.mp hn
      exact hdepth n (by simp [hn]) hcovers
    · obtain ⟨hn, hcovers⟩ := List.mem_filter.mp hn
      have hne : n.depth ≠ m.depth := fun h =>
        hback n hn ((LinkMapping.Covers.depth_eq_iff hcovers hm).mp h)
      exact Nat.lt_of_le_of_ne (hdepth n (by simp [hn]) hcovers) hne

end Config

namespace ConfigLayer

/-- Applies the layers of nested trees, the outermost first, each with the
tree that declares it. -/
def applyAll (inherited : Config) :
    List (ConfigLayer × AbsolutePath) → Except LayerError Config
  | [] => .ok inherited
  | (layer, base) :: layers =>
    match layer.apply inherited base with
    | .error error => .error error
    | .ok config => applyAll config layers

theorem applyAll_append {layers more : List (ConfigLayer × AbsolutePath)}
    {inherited config : Config} (h : applyAll inherited layers = .ok config) :
    applyAll inherited (layers ++ more) = applyAll config more := by
  induction layers generalizing inherited with
  | nil =>
    cases h
    rfl
  | cons layer layers ih =>
    cases happly : layer.1.apply inherited layer.2 with
    | error error => simp [applyAll, happly] at h
    | ok next =>
      rw [applyAll, happly] at h
      rw [List.cons_append, applyAll, happly]
      exact ih h

/-- The mappings a layer declares in the tree at its base. -/
abbrev Declares (layer : ConfigLayer × AbsolutePath) (mappings : List LinkMapping) :
    Prop :=
  readMappings layer.2 layer.1.mappings = .ok mappings

theorem linkMappings_apply {layer : ConfigLayer} {inherited config : Config}
    {base : AbsolutePath} (h : layer.apply inherited base = .ok config) :
    ∃ mappings, Declares (layer, base) mappings
      ∧ config.linkMappings = mappings ++ inherited.linkMappings := by
  unfold apply at h
  split at h
  · cases h
  · split at h
    · cases h
    · next mappings hmappings =>
      cases h
      exact ⟨mappings, hmappings, rfl⟩

/-- The mappings of a chain stand from the last layer to the first. -/
theorem linkMappings_applyAll {layers : List (ConfigLayer × AbsolutePath)}
    {inherited config : Config} (h : applyAll inherited layers = .ok config) :
    ∃ declared, List.Forall₂ Declares layers declared
      ∧ config.linkMappings = declared.reverse.flatten ++ inherited.linkMappings := by
  induction layers generalizing inherited with
  | nil =>
    cases h
    exact ⟨[], .nil, rfl⟩
  | cons layer layers ih =>
    cases happly : layer.1.apply inherited layer.2 with
    | error error => simp [applyAll, happly] at h
    | ok next =>
      rw [applyAll, happly] at h
      obtain ⟨mappings, hmappings, hnext⟩ := linkMappings_apply happly
      obtain ⟨declared, hdeclared, hconfig⟩ := ih h
      exact ⟨mappings :: declared, .cons hmappings hdeclared, by simp [hconfig, hnext]⟩

theorem split_of_flatten {layers : List (List LinkMapping)}
    {front back : List LinkMapping} {m : LinkMapping}
    (h : layers.flatten = front ++ m :: back) :
    ∃ before listed unlisted after,
      layers = before ++ (listed ++ m :: unlisted) :: after
        ∧ back = unlisted ++ after.flatten := by
  rcases List.flatten_eq_append_iff.mp h with ⟨before, rest, rfl, -, hrest⟩ | h
  · obtain ⟨empties, unlisted, after, rfl, -, rfl⟩ :=
      List.flatten_eq_cons_iff.mp hrest.symm
    exact ⟨before ++ empties, [], unlisted, after, by simp, rfl⟩
  · obtain ⟨before, listed, c, unlisted, after, rfl, -, hback⟩ := h
    obtain ⟨rfl, rfl⟩ : m = c ∧ back = unlisted ++ after.flatten := by
      simpa using hback
    exact ⟨before, listed, unlisted, after, rfl, rfl⟩

/-- What comes last in the reversed lists is the end of one list and all
lists before it. -/
theorem split_reverse_flatten_iff {declared : List (List LinkMapping)}
    {m : LinkMapping} {P : LinkMapping → Prop} :
    (∃ front back, declared.reverse.flatten = front ++ m :: back ∧ ∀ n ∈ back, P n) ↔
      ∃ outer front back inner,
        declared = outer ++ (front ++ m :: back) :: inner
          ∧ (∀ mappings ∈ outer, ∀ n ∈ mappings, P n) ∧ ∀ n ∈ back, P n := by
  constructor
  · rintro ⟨front, back, hsplit, hback⟩
    obtain ⟨before, listed, unlisted, after, hreverse, rfl⟩ := split_of_flatten hsplit
    refine ⟨after.reverse, listed, unlisted, before.reverse, ?_, ?_, ?_⟩
    · rw [← List.reverse_reverse declared, hreverse]
      simp
    · intro mappings hms n hn
      have hafter : n ∈ after.flatten :=
        List.mem_flatten.mpr ⟨mappings, List.mem_reverse.mp hms, hn⟩
      exact hback n (List.mem_append_right _ hafter)
    · exact fun n hn => hback n (List.mem_append_left _ hn)
  · rintro ⟨outer, front, back, inner, rfl, houter, hback⟩
    refine ⟨inner.reverse.flatten ++ front, back ++ outer.reverse.flatten, by simp, ?_⟩
    intro n hn
    rcases List.mem_append.mp hn with hn | hn
    · exact hback n hn
    · obtain ⟨mappings, hms, hn⟩ := List.mem_flatten.mp hn
      exact houter mappings (List.mem_reverse.mp hms) n hn

/-- After a chain of layers a path is mapped by the deepest mapping around
it that any layer declares; of the layers mapping that subtree the first
applied decides, and within that layer the last mapping listed. -/
theorem mappingFor_applyAll {layers : List (ConfigLayer × AbsolutePath)}
    {config : Config} (h : applyAll .initial layers = .ok config) :
    ∃ declared, List.Forall₂ Declares layers declared
      ∧ ∀ path : AbsolutePath,
        (config.mappingFor path = none ↔
          ∀ mappings ∈ declared, ∀ m ∈ mappings, ¬ m.Covers path)
        ∧ ∀ m, config.mappingFor path = some m ↔
          m.Covers path
            ∧ (∀ mappings ∈ declared, ∀ n ∈ mappings,
                n.Covers path → n.depth ≤ m.depth)
            ∧ ∃ outer front back inner,
                declared = outer ++ (front ++ m :: back) :: inner
                  ∧ (∀ mappings ∈ outer, ∀ n ∈ mappings, ¬ n.SameSubtree m)
                  ∧ ∀ n ∈ back, ¬ n.SameSubtree m := by
  obtain ⟨declared, hdeclared, hconfig⟩ := linkMappings_applyAll h
  replace hconfig : config.linkMappings = declared.reverse.flatten := by
    simpa [Config.initial] using hconfig
  have hmem : ∀ P : LinkMapping → Prop, (∀ m ∈ config.linkMappings, P m) ↔
      ∀ mappings ∈ declared, ∀ m ∈ mappings, P m := by
    intro P
    simp only [hconfig, List.mem_flatten, List.mem_reverse]
    exact ⟨fun h mappings hms m hm => h m ⟨mappings, hms, hm⟩,
      fun h m ⟨mappings, hms, hm⟩ => h mappings hms m hm⟩
  refine ⟨declared, hdeclared, fun path => ⟨?_, fun m => ?_⟩⟩
  · rw [Config.mappingFor_eq_none_iff, hmem]
  · rw [Config.mappingFor_eq_some_iff, hmem fun n => n.Covers path → n.depth ≤ m.depth,
      hconfig, split_reverse_flatten_iff]

/-- The root and its subtree `port` both publish `/guide`. -/
def harbourLayers : List (ConfigLayer × AbsolutePath) :=
  [({ mappings := [⟨"http://outer", "/guide"⟩] }, .root),
    ({ mappings := [⟨"http://inner", "/guide"⟩] }, AbsolutePath.root.join "port")]

theorem mappingFor_applyAll_harbourLayers :
    ∃ config, applyAll .initial harbourLayers = .ok config
      ∧ (∃ declared, List.Forall₂ Declares harbourLayers declared
        ∧ ∀ path, config.mappingFor path = none ↔
            ∀ mappings ∈ declared, ∀ m ∈ mappings, ¬ m.Covers path)
      ∧ config.mappingFor ⟨["port", "guide"], none⟩ = none
      ∧ config.mappingFor ⟨["guide", "intro"], none⟩
        = some ⟨"http://outer", ⟨["guide"], none⟩⟩ := by
  have h : ∃ config, applyAll .initial harbourLayers = .ok config := ⟨_, rfl⟩
  obtain ⟨config, hconfig⟩ := h
  obtain ⟨declared, hdeclared, hpaths⟩ := mappingFor_applyAll hconfig
  let inner : LinkMapping := ⟨"http://inner", ⟨["guide"], none⟩⟩
  have hlists : declared = [[⟨"http://outer", ⟨["guide"], none⟩⟩], [inner]] := by
    rcases hdeclared with - | ⟨houter, - | ⟨hinner, - | -⟩⟩
    cases houter
    cases hinner
    rfl
  subst hlists
  refine ⟨config, hconfig, ⟨_, hdeclared, fun path => (hpaths path).1⟩, ?_, ?_⟩
  · exact (hpaths _).1.mpr (by decide)
  · refine ((hpaths _).2 _).mpr ⟨by decide, by decide, ?_⟩
    exact ⟨[], [], [], [[inner]], rfl, by decide, by decide⟩

/-- The nearer layer does not decide: `port` maps the guide elsewhere, and
no mapping around the path is deeper. -/
theorem harbourLayers_outermost :
    ∃ config, applyAll .initial harbourLayers = .ok config
      ∧ ∃ m, (∃ layer ∈ harbourLayers.getLast?, Declares layer [m])
        ∧ m.Covers ⟨["guide", "intro"], none⟩
        ∧ (∀ n ∈ config.linkMappings, n.depth ≤ m.depth)
        ∧ ∃ n, config.mappingFor ⟨["guide", "intro"], none⟩ = some n
          ∧ n.SameSubtree m ∧ n ≠ m :=
  ⟨_, rfl, ⟨"http://inner", ⟨["guide"], none⟩⟩, ⟨_, rfl, rfl⟩, by decide, by decide,
    _, rfl, rfl, by decide⟩

end ConfigLayer

end Crosslink

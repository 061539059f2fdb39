import Crosslink.Proofs.Ascent
import Crosslink.Proofs.Dictionary
import Crosslink.Proofs.Mapping
import Crosslink.Report.Fatal

/-!
# What a configuration inherits

A chain of layers merges by three rules (`ConfigLayer.Inherits`). The last
layer that sets a single value decides it. A link target is what the last
layer that declares its name says. Mappings are listed from the last layer to
the first, before those that were there at the start. In each of them a path
is followed from the tree of the layer that wrote it, not from the tree that
inherits it. A layer cannot be applied exactly if one of the paths it writes
leads above the root, and the error names such a path
(`ConfigLayer.applyAll_inherits`).
-/

namespace Crosslink

namespace ConfigLayer

/-! ## One layer -/

/-- The path written in the tree at `base` leads above the root: from the
root if it starts with a slash, else from `base`. -/
def Ascends (base : AbsolutePath) (raw : String) : Prop :=
  (match raw.toList with
    | '/' :: text => climbs 0 ((splitFragment text).1.splitOn '/')
    | text => climbs base.depth ((splitFragment text).1.splitOn '/')) = true

instance (base : AbsolutePath) (raw : String) : Decidable (Ascends base raw) :=
  inferInstanceAs (Decidable (_ = true))

/-- The place that the path written in the tree at `base` leads to. -/
def placeAt (base : AbsolutePath) (raw : String) : AbsolutePath :=
  match raw.toList with
  | '/' :: text => AbsolutePath.root.follow (.parse (String.ofList text))
  | _ => base.follow (.parse raw)

/-- What is reported of a path that leads above the root. -/
def ascentError (raw : String) : LayerError :=
  match raw.toList with
  | '/' :: _ => .badPath (.aboveRoot raw)
  | _ => .climbsAboveRoot raw

/-- A path is resolved exactly if it does not lead above the root. -/
theorem resolvePath_eq (base : AbsolutePath) (raw : String) :
    Ascends base raw ∧ resolvePath base raw = .error (ascentError raw)
      ∨ ¬ Ascends base raw ∧ resolvePath base raw = .ok (placeAt base raw) := by
  unfold Ascends ascentError placeAt resolvePath
  split
  · next text htext =>
    rw [WrittenPath.parse_of_slash htext, climbs_iff]
    by_cases habove : 0 < (RelativePath.parse (String.ofList text)).ascents
    · exact .inl ⟨habove, by rw [if_pos habove]⟩
    · exact .inr ⟨habove, by rw [if_neg habove]⟩
  · next hrelative =>
    rw [WrittenPath.parse_of_not_slash hrelative, climbs_iff, String.ofList_toList]
    simp only [AbsolutePath.resolve_eq]
    by_cases habove : base.depth < (RelativePath.parse raw).ascents
    · exact .inl ⟨habove, by rw [if_pos habove]⟩
    · exact .inr ⟨habove, by rw [if_neg habove]⟩

/-- What a link target written in the tree at `base` means. -/
def targetAt (base : AbsolutePath) (raw : String) : GlobalTarget :=
  if isExternalUrl raw then .external raw else .internal (placeAt base raw)

def mappingAt (base : AbsolutePath) (m : WrittenMapping) : LinkMapping :=
  ⟨m.externalUrl, placeAt base m.internalPath⟩

/-- The paths among the targets of a layer. -/
def targetPaths (targets : List (String × String)) : List String :=
  (targets.map Prod.snd).filter fun raw => !isExternalUrl raw

/-- The paths that a layer writes: its link targets, unless they are external,
and the subtrees it maps. -/
def writtenPaths (layer : ConfigLayer) : List String :=
  targetPaths layer.targets.entries ++ layer.mappings.map (·.internalPath)

/-- What the layer says about a link target. The last entry for a name counts,
should there be several. -/
def target? (layer : ConfigLayer) (name : String) : Option String :=
  layer.targets.entries.reverse.lookup name

theorem readTarget_eq (base : AbsolutePath) (raw : String) :
    isExternalUrl raw = false ∧ Ascends base raw
        ∧ readTarget base raw = .error (ascentError raw)
      ∨ (isExternalUrl raw = false → ¬ Ascends base raw)
        ∧ readTarget base raw = .ok (targetAt base raw) := by
  unfold readTarget targetAt
  cases isExternalUrl raw with
  | true => exact .inr ⟨nofun, rfl⟩
  | false =>
    rcases resolvePath_eq base raw with ⟨habove, heq⟩ | ⟨hinside, heq⟩
    · exact .inl ⟨rfl, habove, by rw [heq]; rfl⟩
    · exact .inr ⟨fun _ => hinside, by rw [heq]; rfl⟩

/-- Targets are merged unless one of their paths leads above the root; the
error names such a path. -/
theorem mergeTargets_eq (base : AbsolutePath) (targets : List (String × String))
    (inherited : Dictionary GlobalTarget) :
    (∃ raw ∈ targetPaths targets, Ascends base raw
        ∧ mergeTargets base inherited targets = .error (ascentError raw))
      ∨ (∀ raw ∈ targetPaths targets, ¬ Ascends base raw)
        ∧ ∃ merged, mergeTargets base inherited targets = .ok merged
          ∧ ∀ name, merged.get? name
              = ((targets.reverse.lookup name).map (targetAt base)).or
                  (inherited.get? name) := by
  induction targets generalizing inherited with
  | nil => exact .inr ⟨nofun, inherited, rfl, fun name => rfl⟩
  | cons entry targets ih =>
    obtain ⟨key, raw⟩ := entry
    have hmem : ∀ r, r ∈ targetPaths ((key, raw) :: targets)
        ↔ isExternalUrl raw = false ∧ r = raw ∨ r ∈ targetPaths targets := by
      intro r
      simp only [targetPaths, List.map_cons, List.filter_cons]
      cases isExternalUrl raw <;> simp
    rw [mergeTargets]
    rcases readTarget_eq base raw with ⟨hpath, habove, heq⟩ | ⟨hinside, heq⟩
    · exact .inl ⟨raw, (hmem raw).mpr (.inl ⟨hpath, rfl⟩), habove, by rw [heq]⟩
    · rw [heq]
      rcases ih (inherited.insert key (targetAt base raw)) with
        ⟨r, hr, habove, herror⟩ | ⟨hnone, merged, hmerged, hget⟩
      · exact .inl ⟨r, (hmem r).mpr (.inr hr), habove, herror⟩
      · refine .inr ⟨fun r hr => ?_, merged, hmerged, fun name => ?_⟩
        · rcases (hmem r).mp hr with ⟨hpath, rfl⟩ | hr
          · exact hinside hpath
          · exact hnone r hr
        · rw [hget, Dictionary.get?_insert, List.reverse_cons, List.lookup_append,
            Dictionary.lookup_cons]
          cases targets.reverse.lookup name with
          | some later => rfl
          | none => split <;> rfl

theorem readMappings_eq (base : AbsolutePath) (mappings : List WrittenMapping) :
    (∃ raw ∈ mappings.map (·.internalPath), Ascends base raw
        ∧ readMappings base mappings = .error (ascentError raw))
      ∨ (∀ raw ∈ mappings.map (·.internalPath), ¬ Ascends base raw)
        ∧ readMappings base mappings = .ok (mappings.map (mappingAt base)) := by
  induction mappings with
  | nil => exact .inr ⟨nofun, rfl⟩
  | cons m mappings ih =>
    rw [readMappings, readMapping]
    rcases resolvePath_eq base m.internalPath with ⟨habove, heq⟩ | ⟨hinside, heq⟩
    · exact .inl ⟨m.internalPath, List.mem_cons_self, habove, by rw [heq]; rfl⟩
    · rw [heq]
      rcases ih with ⟨raw, hraw, habove, herror⟩ | ⟨hnone, hmappings⟩
      · exact .inl ⟨raw, List.mem_cons_of_mem _ hraw, habove, by rw [herror]; rfl⟩
      · refine .inr ⟨fun raw hraw => ?_, by rw [hmappings]; rfl⟩
        rcases List.mem_cons.mp hraw with rfl | hraw
        · exact hinside
        · exact hnone raw hraw

/-! ## Chains of layers -/

/-- What the last layer of a chain that sets something sets it to. -/
def lastSet {α : Type} (set? : ConfigLayer × AbsolutePath → Option α)
    (layers : List (ConfigLayer × AbsolutePath)) : Option α :=
  layers.reverse.findSome? set?

theorem lastSet_append {α : Type} (set? : ConfigLayer × AbsolutePath → Option α)
    (outer inner : List (ConfigLayer × AbsolutePath)) :
    lastSet set? (outer ++ inner) = (lastSet set? inner).or (lastSet set? outer) := by
  rw [lastSet, List.reverse_append, List.findSome?_append]
  rfl

/-- The configuration that a chain of layers, each with the tree that declares
it, makes of an inherited one. -/
structure Inherits (inherited : Config) (layers : List (ConfigLayer × AbsolutePath))
    (config : Config) : Prop where
  firstHeaderAsTitle : config.firstHeaderAsTitle
    = (lastSet (fun (layer, _) => layer.firstHeaderAsTitle) layers).getD
        inherited.firstHeaderAsTitle
  targetFormats : config.targetFormats
    = (lastSet (fun (layer, _) => layer.targetFormats.map .ofNames) layers).getD
        inherited.targetFormats
  globalTargets : ∀ name, config.globalTargets.get? name
    = (lastSet (fun (layer, base) => (layer.target? name).map (targetAt base)) layers).or
        (inherited.globalTargets.get? name)
  linkMappings : config.linkMappings
    = (layers.reverse.flatMap fun (layer, base) => layer.mappings.map (mappingAt base))
        ++ inherited.linkMappings

theorem Inherits.refl (config : Config) : Inherits config [] config :=
  ⟨rfl, rfl, fun _ => rfl, rfl⟩

theorem Inherits.append {first second third : Config}
    {outer inner : List (ConfigLayer × AbsolutePath)} (h : Inherits first outer second)
    (h' : Inherits second inner third) : Inherits first (outer ++ inner) third where
  firstHeaderAsTitle := by
    rw [h'.firstHeaderAsTitle, h.firstHeaderAsTitle, lastSet_append]
    cases lastSet _ inner <;> rfl
  targetFormats := by
    rw [h'.targetFormats, h.targetFormats, lastSet_append]
    cases lastSet _ inner <;> rfl
  globalTargets name := by
    rw [h'.globalTargets, h.globalTargets, lastSet_append, Option.or_assoc]
  linkMappings := by
    rw [h'.linkMappings, h.linkMappings, List.reverse_append, List.flatMap_append,
      List.append_assoc]

/-- A layer can be applied unless one of its paths leads above the root; the
error names such a path. -/
theorem apply_eq (layer : ConfigLayer) (inherited : Config) (base : AbsolutePath) :
    (∃ raw ∈ layer.writtenPaths, Ascends base raw
        ∧ layer.apply inherited base = .error (ascentError raw))
      ∨ (∀ raw ∈ layer.writtenPaths, ¬ Ascends base raw)
        ∧ ∃ config, layer.apply inherited base = .ok config
          ∧ Inherits inherited [(layer, base)] config := by
  rw [apply, writtenPaths]
  rcases mergeTargets_eq base layer.targets.entries inherited.globalTargets with
    ⟨raw, hraw, habove, herror⟩ | ⟨htargets, merged, hmerged, hget⟩
  · exact .inl ⟨raw, List.mem_append_left _ hraw, habove, by rw [herror]⟩
  rw [hmerged]
  rcases readMappings_eq base layer.mappings with
    ⟨raw, hraw, habove, herror⟩ | ⟨hmappings, hread⟩
  · exact .inl ⟨raw, List.mem_append_right _ hraw, habove, by rw [herror]⟩
  rw [hread]
  refine .inr ⟨List.forall_mem_append.mpr ⟨htargets, hmappings⟩, _, rfl, ?_, ?_, ?_, ?_⟩
  · simp [lastSet]
  · cases hformats : layer.targetFormats <;> simp [lastSet, hformats]
  · intro name
    rw [hget]
    simp [lastSet, target?]
  · simp

theorem inherits_of_applyAll {layers : List (ConfigLayer × AbsolutePath)}
    {inherited config : Config} (h : applyAll inherited layers = .ok config) :
    Inherits inherited layers config := by
  induction layers generalizing inherited with
  | nil =>
    cases h
    exact .refl _
  | cons layer layers ih =>
    obtain ⟨layer, base⟩ := layer
    rcases apply_eq layer inherited base with ⟨raw, -, -, herror⟩ | ⟨-, next, hnext, hone⟩
    · rw [applyAll, herror] at h
      cases h
    · rw [applyAll, hnext] at h
      exact hone.append (ih h)

/-- A chain of layers that can all be applied makes of a configuration what
the three rules say. A layer can be applied exactly if none of the paths it
writes leads above the root; otherwise the configuration is invalid, and the
reason names such a path. -/
theorem applyAll_inherits (inherited : Config)
    (layers : List (ConfigLayer × AbsolutePath)) :
    (∀ config, applyAll inherited layers = .ok config →
        Inherits inherited layers config)
      ∧ ∀ (layer : ConfigLayer) (config : Config) (base : AbsolutePath) (file : String),
          ((∀ raw ∈ layer.writtenPaths, ¬ Ascends base raw) →
            ∃ next, (layer.apply config base).mapError (FatalError.ofLayer file) = .ok next)
          ∧ ((∃ raw ∈ layer.writtenPaths, Ascends base raw) →
            ∃ raw ∈ layer.writtenPaths, Ascends base raw
              ∧ (layer.apply config base).mapError (FatalError.ofLayer file)
                = .error (.configInvalid file (ascentError raw).reason)) := by
  refine ⟨fun config h => inherits_of_applyAll h, fun layer config base file => ?_⟩
  rcases apply_eq layer config base with ⟨raw, hraw, habove, herror⟩ | ⟨hnone, next, hnext, -⟩
  · refine ⟨fun hnone => absurd habove (hnone raw hraw), fun _ => ?_⟩
    exact ⟨raw, hraw, habove, by rw [herror]; rfl⟩
  · refine ⟨fun _ => ⟨next, by rw [hnext]; rfl⟩, fun ⟨raw, hraw, habove⟩ => ?_⟩
    exact absurd habove (hnone raw hraw)

/-- The root and its subtree `port`, which names its home anew. -/
def portLayers : List (ConfigLayer × AbsolutePath) :=
  [({ firstHeaderAsTitle := some true
      targetFormats := some ["pdf", "html"]
      targets := .ofList [("home", "index.md"), ("tides", "https://tides")]
      mappings := [⟨"http://pier", "pier"⟩] }, .root),
    ({ targetFormats := some ["pdf"]
       targets := .ofList [("home", "../quay.md#top")]
       mappings := [⟨"http://boats", "boats"⟩] }, AbsolutePath.root.join "port")]

/-- A layer of `port` that climbs too far. -/
def overboard : ConfigLayer := { mappings := [⟨"http://sea", "../../sea"⟩] }

theorem applyAll_inherits_portLayers :
    ∃ config, applyAll .initial portLayers = .ok config
      ∧ Inherits .initial portLayers config
      ∧ config.firstHeaderAsTitle = true
      ∧ config.targetFormats = .only ["pdf"]
      ∧ config.globalTargets.get? "home" = some (.internal ⟨["quay.md"], some "top"⟩)
      ∧ config.globalTargets.get? "tides" = some (.external "https://tides")
      ∧ config.linkMappings
        = [⟨"http://boats", ⟨["port", "boats"], none⟩⟩, ⟨"http://pier", ⟨["pier"], none⟩⟩]
      ∧ ∃ raw ∈ overboard.writtenPaths, Ascends (AbsolutePath.root.join "port") raw
        ∧ (overboard.apply config (AbsolutePath.root.join "port")).mapError
            (FatalError.ofLayer "directory.toml")
          = .error (.configInvalid "directory.toml" (ascentError raw).reason) :=
  ⟨_, rfl, (applyAll_inherits .initial portLayers).1 _ rfl, rfl, rfl, rfl, rfl, rfl,
    ((applyAll_inherits .initial portLayers).2 overboard _ _ _).2
      ⟨"../../sea", by decide, by decide⟩⟩

end ConfigLayer

end Crosslink

import Crosslink.Proofs.Memory

/-!
# The three courses of an alias chain

Following aliases from an id gives a chain (`Scope.chain`), which ends at an
id that is no alias, comes back to an id it has passed, or does neither
within the depth limit. A look-up tells the three apart
(`lookUp_classified`): it answers with the end, names the first id that
comes back, or names the id where the limit is. Only the last answer depends
on what was looked up before.

A search walks down the chain as long as it meets no id again
(`follow_walks`), so its answer is what it finds where the walk stops. A
chain that runs in a circle has no end, and so nothing on it is ever
remembered (`Circles.lookup_eq_none`).
-/

namespace Crosslink

namespace Scope

variable {s : Scope} {id target x : String} {cache : IdCache}

/-! ## The chain of an id -/

/-- The id that `n` aliases lead to, if there are so many. -/
def chain (s : Scope) (id : String) : Nat → Option String
  | 0 => some id
  | n + 1 => (s.chain id n).bind s.aliasTarget?

theorem chain_add (id : String) (m n : Nat) :
    s.chain id (m + n) = (s.chain id m).bind fun mid => s.chain mid n := by
  induction n with
  | zero => exact (Option.bind_fun_some (s.chain id m)).symm
  | succ n ih =>
      rw [← Nat.add_assoc, chain, ih, Option.bind_assoc]
      rfl

theorem chain_of_alias (h : s.aliasTarget? id = some target) (n : Nat) :
    s.chain id (n + 1) = s.chain target n := by
  rw [Nat.add_comm, chain_add, chain, chain, Option.bind_some, h, Option.bind_some]

theorem chain_of_last (h : s.aliasTarget? id = none) (n : Nat) :
    s.chain id (n + 1) = none := by
  rw [Nat.add_comm, chain_add, chain, chain, Option.bind_some, h, Option.bind_none]

theorem isSome_chain_of_le {m n : Nat} (hle : m ≤ n) (h : (s.chain id n).isSome) :
    (s.chain id m).isSome := by
  obtain ⟨k, rfl⟩ := Nat.exists_eq_add_of_le hle
  rw [chain_add] at h
  exact Option.isSome_of_isSome_bind h

/-- A chain that ends is one that leads to its end. -/
theorem leads_of_chain {n : Nat} {last : String} (h : s.chain id n = some last)
    (hlast : s.aliasTarget? last = none) : s.Leads n id last := by
  induction n generalizing id with
  | zero =>
      obtain rfl := Option.some.inj h
      exact .here hlast
  | succ n ih =>
      cases htarget : s.aliasTarget? id with
      | none => rw [chain_of_last htarget] at h; cases h
      | some target =>
          rw [chain_of_alias htarget] at h
          exact .onward htarget (ih h)

theorem Leads.chain_eq_none {n : Nat} {last : String} (h : s.Leads n id last) :
    s.chain id (n + 1) = none := by
  induction h with
  | here hnone => exact chain_of_last hnone 0
  | onward hsome _ ih => rw [chain_of_alias hsome, ih]

/-- The chain comes back for the first time at `n`, to the id at `m`. -/
structure Circles (s : Scope) (id : String) (m n : Nat) (x : String) : Prop where
  lt : m < n
  first : s.chain id m = some x
  again : s.chain id n = some x
  before : ∀ j < n, ∀ i < j, s.chain id i ≠ s.chain id j

/-- A chain that comes back goes on forever. -/
theorem Circles.isSome_chain {m n : Nat} (h : s.Circles id m n x) (k : Nat) :
    (s.chain id k).isSome := by
  induction k using Nat.strongRecOn with
  | _ k ih =>
      rcases Nat.le_total k n with hle | hle
      · exact isSome_chain_of_le hle (by rw [h.again]; rfl)
      · obtain ⟨rest, rfl⟩ := Nat.exists_eq_add_of_le hle
        have hback : s.chain id (n + rest) = s.chain id (m + rest) := by
          rw [chain_add, chain_add, h.first, h.again]
        have hlt := h.lt
        rw [hback]
        exact ih (m + rest) (by omega)

/-- Nothing on a circle or on the way to it is remembered. -/
theorem Circles.lookup_eq_none {m n : Nat} (h : s.Circles id m n x)
    (hcache : s.CacheSound cache) {k : Nat} {mid : String}
    (hmid : s.chain id k = some mid) : cache.lookup mid = none := by
  cases hknown : cache.lookup mid with
  | none => rfl
  | some outcome =>
      obtain ⟨rest, last, hlead, -⟩ := hcache mid outcome hknown
      have hsome := h.isSome_chain (k + (rest + 1))
      rw [chain_add, hmid, Option.bind_some, hlead.chain_eq_none] at hsome
      cases hsome

/-! ## Walking down a chain -/

/-- The first `n` ids of the chain differ from each other and from the ones
being followed. -/
def Apart (s : Scope) (active : List String) (id : String) (n : Nat) : Prop :=
  ∀ j < n, ∀ y, s.chain id j = some y →
    y ∉ active ∧ ∀ i < j, s.chain id i ≠ some y

theorem Apart.tail {active : List String} {n : Nat}
    (h : s.Apart active id (n + 1)) (htarget : s.aliasTarget? id = some target) :
    s.Apart (id :: active) target n := by
  intro j hj y hy
  obtain ⟨hactive, hnew⟩ := h (j + 1) (Nat.succ_lt_succ hj) y
    (by rw [chain_of_alias htarget, hy])
  have hid : y ≠ id := by
    rintro rfl
    exact hnew 0 (Nat.succ_pos j) rfl
  refine ⟨fun hmem => (List.mem_cons.mp hmem).elim hid hactive, fun i hi hi' => ?_⟩
  exact hnew (i + 1) (Nat.succ_lt_succ hi) (by rw [chain_of_alias htarget, hi'])

/-- A search walks `n` aliases down as long as it meets no id again and
nothing it remembers. -/
theorem follow_walks (room : Nat) {active : List String} {n : Nat}
    (hx : s.chain id n = some x) (hapart : s.Apart active id n)
    (hnew : ∀ j < n, ∀ y, s.chain id j = some y → cache.lookup y = none) :
    ∃ passed, (∀ y, y ∈ passed ↔ y ∈ active ∨ ∃ j < n, s.chain id j = some y)
      ∧ (s.follow active (room + n) id cache).1
        = (s.follow passed room x cache).1 := by
  induction n generalizing active id with
  | zero =>
      obtain rfl := Option.some.inj hx
      exact ⟨active, by simp, rfl⟩
  | succ n ih =>
      cases htarget : s.aliasTarget? id with
      | none => rw [chain_of_last htarget] at hx; cases hx
      | some target =>
          rw [chain_of_alias htarget] at hx
          obtain ⟨passed, hpassed, heq⟩ := ih hx (hapart.tail htarget)
            fun j hj y hy => hnew (j + 1) (Nat.succ_lt_succ hj) y
              (by rw [chain_of_alias htarget, hy])
          have hsettled : settled cache active id = none :=
            settled_of_new (hnew 0 (Nat.succ_pos n) id rfl)
              (hapart 0 (Nat.succ_pos n) id rfl).1
          refine ⟨passed, fun y => ?_, ?_⟩
          · rw [hpassed, List.mem_cons]
            constructor
            · rintro ((rfl | hactive) | ⟨j, hj, hy⟩)
              · exact Or.inr ⟨0, Nat.succ_pos n, rfl⟩
              · exact Or.inl hactive
              · exact Or.inr ⟨j + 1, Nat.succ_lt_succ hj,
                  by rw [chain_of_alias htarget, hy]⟩
            · rintro (hactive | ⟨j, hj, hy⟩)
              · exact Or.inl (Or.inr hactive)
              · cases j with
                | zero => exact Or.inl (Or.inl (Option.some.inj hy).symm)
                | succ j =>
                    rw [chain_of_alias htarget] at hy
                    exact Or.inr ⟨j, Nat.lt_of_succ_lt_succ hj, hy⟩
          · rw [← Nat.add_assoc, follow_of_alias hsettled htarget]
            exact heq

/-! ## Where the walk stops -/

/-- A circle is reported from the first id that comes back. -/
theorem Circles.lookUp_eq {m n : Nat} (h : s.Circles id m n x)
    (hn : n ≤ Failure.maxAliasDepth) (hcache : s.CacheSound cache) :
    (s.lookUp id cache).1 = .failed (.circularAlias x) := by
  obtain ⟨room, hroom⟩ := Nat.exists_eq_add_of_le' hn
  have hapart : s.Apart [] id n := by
    intro j hj y hy
    refine ⟨List.not_mem_nil, fun i hi hi' => ?_⟩
    exact h.before j hj i hi (hi'.trans hy.symm)
  obtain ⟨passed, hpassed, heq⟩ := follow_walks room h.again hapart
    fun j _ y hy => h.lookup_eq_none hcache hy
  have hmem : x ∈ passed := (hpassed x).mpr (Or.inr ⟨m, h.lt, h.first⟩)
  have hsettled : settled cache passed x = some (.failed (.circularAlias x)) := by
    rw [settled, h.lookup_eq_none hcache h.again, if_pos hmem]
  rw [lookUp, hroom, heq, follow_of_settled hsettled]

section

variable (hend : ∀ n last, n < Failure.maxAliasDepth → s.chain id n = some last →
  s.aliasTarget? last ≠ none)

include hend

/-- A chain without an end within the limit is as long as the limit. -/
theorem chain_of_endless : ∀ n ≤ Failure.maxAliasDepth, ∃ y, s.chain id n = some y := by
  intro n hn
  induction n with
  | zero => exact ⟨id, rfl⟩
  | succ n ih =>
      obtain ⟨y, hy⟩ := ih (Nat.le_of_succ_le hn)
      obtain ⟨target, htarget⟩ := Option.ne_none_iff_exists'.mp (hend n y hn hy)
      exact ⟨target, by rw [chain, hy, Option.bind_some, htarget]⟩

variable (hcircle : ∀ m n y, n ≤ Failure.maxAliasDepth → ¬ s.Circles id m n y)

include hcircle

/-- If there is no circle either, its ids are all different. The induction is up to
the limit, since a circle is one whose earlier ids differ. -/
theorem chain_ne_of_endless : ∀ n ≤ Failure.maxAliasDepth, ∀ m < n,
    s.chain id m ≠ s.chain id n := by
  intro n
  induction n using Nat.strongRecOn with
  | _ n ih =>
      intro hn m hm heq
      obtain ⟨y, hy⟩ := chain_of_endless hend n hn
      exact hcircle m n y hn
        ⟨hm, heq.trans hy, hy, fun j hj i hi => ih j hj (by omega) i hi⟩

/-- Without an end or a circle within the limit a fresh pass gives up at the
limit. -/
theorem lookUp_of_endless :
    ∃ far, s.chain id Failure.maxAliasDepth = some far
      ∧ (s.lookUp id []).1 = .failed (.aliasChainTooLong far) := by
  have hdistinct := chain_ne_of_endless hend hcircle
  obtain ⟨far, hfar⟩ := chain_of_endless hend Failure.maxAliasDepth (Nat.le_refl _)
  have hapart : s.Apart [] id Failure.maxAliasDepth := by
    intro j hj y hy
    refine ⟨List.not_mem_nil, fun i hi hi' => ?_⟩
    exact hdistinct j (Nat.le_of_lt hj) i hi (hi'.trans hy.symm)
  obtain ⟨passed, hpassed, heq⟩ := follow_walks 0 hfar hapart
    fun _ _ _ _ => List.lookup_nil
  have hnot : far ∉ passed := by
    rw [hpassed]
    rintro (hnil | ⟨j, hj, hy⟩)
    · exact List.not_mem_nil hnil
    · exact hdistinct Failure.maxAliasDepth (Nat.le_refl _) j hj (hy.trans hfar.symm)
  refine ⟨far, hfar, ?_⟩
  rw [lookUp, ← Nat.zero_add Failure.maxAliasDepth, heq, follow,
    settled_of_new List.lookup_nil hnot, Option.getD_none]

end

/-! ## Blocks of aliases -/

/-- In a pass that has looked up `earlier`, the alias becomes `out`, and
`problems` are reported for it. -/
def AliasBecomes (s : Scope) (earlier : List String) (indirection : LinkAlias)
    (out : Option Block) (problems : List Problem) : Prop :=
  ∀ st : PassState, st.cache = s.memory earlier →
    (s.resolveBlock (.linkAlias indirection) st).1 = out
      ∧ (s.resolveBlock (.linkAlias indirection) st).2.diagnostics
        = st.diagnostics ++ problems.map (Diagnostic.mk s.document)

section

variable {earlier : List String} {indirection : LinkAlias}
  (h : s.index.linkDefinitions.isDuplicate indirection.id = false)

include h

theorem aliasBecomes_none
    (hends : (s.lookUp indirection.id (s.memory earlier)).1.isAliasLoop = false) :
    s.AliasBecomes earlier indirection none [] := by
  intro st hst
  rw [← hst] at hends
  simp only [resolveBlock, resolveAlias, h, Bool.false_eq_true, if_false,
    bind, StateT.bind, lookUpId]
  generalize s.lookUp indirection.id st.cache = found at hends ⊢
  obtain ⟨outcome, cache⟩ := found
  cases outcome with
  | failed failure =>
      have hfailure : failure.isAliasLoop = false := hends
      simp only [hfailure, Bool.false_eq_true, if_false]
      exact ⟨rfl, (List.append_nil _).symm⟩
  | _ => exact ⟨rfl, (List.append_nil _).symm⟩

theorem aliasBecomes_invalid {failure : Failure}
    (hfails : (s.lookUp indirection.id (s.memory earlier)).1 = .failed failure)
    (hloop : failure.isAliasLoop = true) :
    s.AliasBecomes earlier indirection
      (some (.invalid (.linkAlias indirection) failure.problem))
      [failure.problem] := by
  intro st hst
  rw [← hst] at hfails
  simp only [resolveBlock, resolveAlias, h, Bool.false_eq_true, if_false,
    bind, StateT.bind, lookUpId, hfails, hloop, if_true]
  exact ⟨rfl, rfl⟩

end

/-! ## The three courses -/

/-- A chain that ends within the limit is answered with what is found at its
end, one that comes back within it with the first id that does, both
whatever was looked up before; any other chain is given up by a fresh pass
at the limit. An alias that is not repeated disappears in the first case and
stays as an invalid block in the second. -/
theorem lookUp_classified (s : Scope) (id : String) :
    (∀ n last, n < Failure.maxAliasDepth → s.chain id n = some last →
      s.aliasTarget? last = none → ∀ earlier,
        (s.lookUp id (s.memory earlier)).1 = (s.lookUp last []).1
          ∧ (s.lookUp last []).1 = s.outcomeOf last
          ∧ (s.index.linkDefinitions.isDuplicate id = false → ∀ target,
            s.AliasBecomes earlier ⟨id, target⟩ none []))
    ∧ (∀ m n x, n ≤ Failure.maxAliasDepth → s.Circles id m n x → ∀ earlier,
        (s.lookUp id (s.memory earlier)).1 = .failed (.circularAlias x)
          ∧ (s.index.linkDefinitions.isDuplicate id = false → ∀ target,
            s.AliasBecomes earlier ⟨id, target⟩
              (some (.invalid (.linkAlias ⟨id, target⟩)
                (Failure.circularAlias x).problem))
              [(Failure.circularAlias x).problem]))
    ∧ ((∀ n last, n < Failure.maxAliasDepth → s.chain id n = some last →
          s.aliasTarget? last ≠ none) →
        (∀ m n x, n ≤ Failure.maxAliasDepth → ¬ s.Circles id m n x) →
        ∃ far, s.chain id Failure.maxAliasDepth = some far
          ∧ (s.lookUp id []).1 = .failed (.aliasChainTooLong far)) := by
  refine ⟨fun n last hn hchain hlast earlier => ?_,
    fun m n x hn hcircle earlier => ?_, lookUp_of_endless⟩
  · have hsound := cacheSound_afterLookUps (cacheSound_nil s) earlier
    have hfound : (s.lookUp id (s.memory earlier)).1 = s.outcomeOf last :=
      (answers_lookUp hsound id).eq_outcomeOf (leads_of_chain hchain hlast) hn
    have halone : (s.lookUp last []).1 = s.outcomeOf last :=
      (answers_lookUp (cacheSound_nil s) last).of_aliasTarget?_eq_none hlast
    refine ⟨hfound.trans halone.symm, halone, fun hunique target => ?_⟩
    exact aliasBecomes_none hunique (by rw [hfound]; exact outcomeOf_isAliasLoop s last)
  · have hsound := cacheSound_afterLookUps (cacheSound_nil s) earlier
    have hfound := hcircle.lookUp_eq hn hsound
    exact ⟨hfound, fun hunique target => aliasBecomes_invalid hunique hfound rfl⟩

/-- One hawser made fast to a bollard, three in a ring and one leading into
it. -/
def hawsers : Scope where
  document := .root
  config := .initial
  index := .build [.linkAlias ⟨"bow", "bollard"⟩, .anchor "bollard",
    .linkAlias ⟨"tail", "red"⟩, .linkAlias ⟨"red", "green"⟩,
    .linkAlias ⟨"green", "blue"⟩, .linkAlias ⟨"blue", "red"⟩]
  tree := none

theorem lookUp_classified_hawsers :
    (hawsers.lookUp "bow" (hawsers.memory ["tail", "green"])).1
        = hawsers.outcomeOf "bollard"
      ∧ hawsers.AliasBecomes ["tail"] ⟨"bow", "bollard"⟩ none []
      ∧ hawsers.Circles "tail" 1 4 "red"
      ∧ (hawsers.lookUp "tail" (hawsers.memory ["green", "bow"])).1
        = .failed (.circularAlias "red") := by
  have hends := (lookUp_classified hawsers "bow").1 1 "bollard" (by decide) (by decide)
    (by decide)
  have hcircle : hawsers.Circles "tail" 1 4 "red" :=
    { lt := by decide, first := by decide, again := by decide, before := by decide }
  have hcomesBack := (lookUp_classified hawsers "tail").2.1 1 4 "red" (by decide) hcircle
  refine ⟨(hends ["tail", "green"]).1.trans (hends []).2.1, ?_, hcircle, ?_⟩
  · exact (hends ["tail"]).2.2 (by decide) "bollard"
  · exact (hcomesBack ["green", "bow"]).1

end Scope

end Crosslink

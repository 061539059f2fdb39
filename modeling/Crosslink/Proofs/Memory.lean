import Mathlib.Data.List.Induction
import Crosslink.Proofs.Pass

/-!
# What earlier look-ups change

A pass starts with nothing remembered and remembers only what its look-ups
met (`Scope.memory`). A look-up that gets to the end of its chain leaves the
whole chain remembered, a look-up that is given up leaves nothing
(`lookUp_remembers`), so an id is remembered just if a look-up that got to
its end passed by it (`isSome_lookup_memory`).

The answer may depend on that. A chain of more aliases than a search may
follow is given up by a pass that starts with it, and followed to its end
by one that remembers a place within reach (`lookUp_memory`), as on
`longWarp`. Nothing else changes the answer: shorter chains and circles are
answered alike by every pass.
-/

namespace Crosslink

namespace Scope

variable {s : Scope}

/-- What a pass remembers that looked up these ids, the first one first. -/
abbrev memory (s : Scope) (earlier : List String) : IdCache :=
  s.afterLookUps [] earlier

theorem memory_append (s : Scope) (earlier : List String) (id : String) :
    s.memory (earlier ++ [id]) = (s.lookUp id (s.memory earlier)).2 :=
  afterLookUps_append [] earlier [id]

/-- Whatever a pass went through, it remembers what look-ups left. -/
theorem exists_memory_eq (s : Scope) (before : List Block) :
    ∃ earlier, (s.resolveBlocks before {}).2.cache = s.memory earlier :=
  (ensures_resolveBlocks before {} (cacheSound_nil s)).1

/-! ## Places on a chain -/

/-- `n` aliases lead from `id` to `mid`, which may be one more. -/
inductive Passes (s : Scope) : Nat → String → String → Prop
  | here (id : String) : Passes s 0 id id
  | onward {n : Nat} {id target mid : String}
      (h : s.aliasTarget? id = some target) (rest : Passes s n target mid) :
      Passes s (n + 1) id mid

theorem Passes.snoc {n : Nat} {id mid target : String} (h : s.Passes n id mid)
    (htarget : s.aliasTarget? mid = some target) : s.Passes (n + 1) id target := by
  induction h with
  | here _ => exact .onward htarget (.here _)
  | onward hsome _ ih => exact .onward hsome (ih htarget)

theorem passes_onward_iff {id target mid : String}
    (h : s.aliasTarget? id = some target) :
    (∃ n, s.Passes n id mid) ↔ mid = id ∨ ∃ n, s.Passes n target mid := by
  constructor
  · rintro ⟨n, hpass⟩
    cases hpass with
    | here _ => exact Or.inl rfl
    | onward hsome rest =>
        obtain rfl := Option.some.inj (h.symm.trans hsome)
        exact Or.inr ⟨_, rest⟩
  · rintro (rfl | ⟨n, hpass⟩)
    · exact ⟨0, .here _⟩
    · exact ⟨n + 1, .onward h hpass⟩

theorem passes_last_iff {id mid : String} (h : s.aliasTarget? id = none) :
    (∃ n, s.Passes n id mid) ↔ mid = id := by
  constructor
  · rintro ⟨n, hpass⟩
    cases hpass with
    | here _ => rfl
    | onward hsome _ => rw [h] at hsome; cases hsome
  · rintro rfl
    exact ⟨0, .here _⟩

/-! ## What one search leaves behind -/

/-- What is behind something remembered is remembered as well. -/
def CacheClosed (s : Scope) (cache : IdCache) : Prop :=
  ∀ id target, s.aliasTarget? id = some target →
    (cache.lookup id).isSome → (cache.lookup target).isSome

theorem CacheClosed.passes {cache : IdCache} (h : s.CacheClosed cache)
    {n : Nat} {id mid : String} (hpass : s.Passes n id mid)
    (hknown : (cache.lookup id).isSome) : (cache.lookup mid).isSome := by
  induction hpass with
  | here _ => exact hknown
  | onward hsome _ ih => exact ih (h _ _ hsome hknown)

theorem isSome_lookup_cons {cache : IdCache} {id mid : String}
    {outcome : IdOutcome} :
    (((id, outcome) :: cache).lookup mid).isSome
      ↔ mid = id ∨ (cache.lookup mid).isSome := by
  by_cases h : mid = id
  · simp [h]
  · rw [List.lookup_cons, beq_false_of_ne h]
    exact (or_iff_right h).symm

/-- A search that gets to its end leaves its whole chain remembered; one
that is given up leaves nothing. -/
theorem follow_remembers (active : List String) (room : Nat) (id : String)
    {cache : IdCache} (hclosed : s.CacheClosed cache) (mid : String) :
    ((s.follow active room id cache).2.lookup mid).isSome ↔
      (cache.lookup mid).isSome
        ∨ ((s.follow active room id cache).1.isAliasLoop = false
          ∧ ∃ n, s.Passes n id mid) := by
  have hkept : ∀ {active id outcome} (room : Nat),
      settled cache active id = some outcome →
      (((s.follow active room id cache).2.lookup mid).isSome ↔
        (cache.lookup mid).isSome
          ∨ ((s.follow active room id cache).1.isAliasLoop = false
            ∧ ∃ n, s.Passes n id mid)) := by
    intro active id outcome room h
    rw [follow_of_settled h]
    refine ⟨Or.inl, fun h' => h'.elim (fun h => h) ?_⟩
    rintro ⟨hloop, n, hpass⟩
    -- a remembered id has the rest of its chain remembered already
    rcases settled_cases h with hknown | rfl
    · exact hclosed.passes hpass (by simp [hknown])
    · cases hloop
  induction room generalizing active id with
  | zero =>
      cases hsettled : settled cache active id with
      | some outcome => exact hkept 0 hsettled
      | none =>
          have hfollow : s.follow active 0 id cache =
              (.failed (.aliasChainTooLong id), cache) := by
            simp only [follow, hsettled, Option.getD_none]
          simp [hfollow, IdOutcome.isAliasLoop, Failure.isAliasLoop]
  | succ room ih =>
      cases hsettled : settled cache active id with
      | some outcome => exact hkept (room + 1) hsettled
      | none =>
          cases htarget : s.aliasTarget? id with
          | none =>
              rw [follow_of_last hsettled htarget, remember,
                outcomeOf_isAliasLoop, if_neg (by decide), isSome_lookup_cons,
                passes_last_iff htarget, or_comm]
              simp only [true_and]
          | some target =>
              have hrest := ih (id :: active) target
              rw [follow_of_alias hsettled htarget, passes_onward_iff htarget]
              cases hloop : (s.follow (id :: active) room target cache).1.isAliasLoop with
              | true =>
                  rw [hloop] at hrest
                  simpa only [remember, hloop, if_true, Bool.true_eq_false,
                    false_and, or_false] using hrest
              | false =>
                  rw [hloop] at hrest
                  simp only [remember, hloop, Bool.false_eq_true, if_false,
                    isSome_lookup_cons, hrest, true_and]
                  exact or_left_comm

theorem lookUp_remembers {cache : IdCache} (hclosed : s.CacheClosed cache)
    (id mid : String) :
    ((s.lookUp id cache).2.lookup mid).isSome ↔
      (cache.lookup mid).isSome
        ∨ ((s.lookUp id cache).1.isAliasLoop = false ∧ ∃ n, s.Passes n id mid) :=
  follow_remembers [] Failure.maxAliasDepth id hclosed mid

theorem cacheClosed_lookUp {cache : IdCache} (h : s.CacheClosed cache)
    (id : String) : s.CacheClosed (s.lookUp id cache).2 := by
  intro mid target htarget hmid
  rw [lookUp_remembers h] at hmid ⊢
  rcases hmid with hmid | ⟨hend, n, hpass⟩
  · exact Or.inl (h mid target htarget hmid)
  · exact Or.inr ⟨hend, n + 1, hpass.snoc htarget⟩

/-! ## What a pass remembers -/

theorem cacheClosed_memory (s : Scope) (earlier : List String) :
    s.CacheClosed (s.memory earlier) := by
  induction earlier using List.reverseRecOn with
  | nil => exact fun _ _ _ h => nomatch h
  | append_singleton earlier id ih =>
      rw [memory_append]
      exact cacheClosed_lookUp ih id

/-- One of the look-ups got to the end of its chain and passed by `mid`. -/
def Visited (s : Scope) (earlier : List String) (mid : String) : Prop :=
  ∃ before id n, before ++ [id] <+: earlier
    ∧ (s.lookUp id (s.memory before)).1.isAliasLoop = false ∧ s.Passes n id mid

theorem visited_append_iff {earlier : List String} {id mid : String} :
    s.Visited (earlier ++ [id]) mid ↔
      s.Visited earlier mid
        ∨ ((s.lookUp id (s.memory earlier)).1.isAliasLoop = false
          ∧ ∃ n, s.Passes n id mid) := by
  constructor
  · rintro ⟨before, id', n, hprefix, hend, hpass⟩
    rcases List.prefix_concat_iff.mp hprefix with heq | hprefix
    · obtain ⟨rfl, hid⟩ := List.append_inj' heq rfl
      obtain rfl := List.head_eq_of_cons_eq hid
      exact Or.inr ⟨hend, n, hpass⟩
    · exact Or.inl ⟨before, id', n, hprefix, hend, hpass⟩
  · rintro (⟨before, id', n, hprefix, hend, hpass⟩ | ⟨hend, n, hpass⟩)
    · exact ⟨before, id', n, hprefix.trans (List.prefix_append _ _), hend, hpass⟩
    · exact ⟨earlier, id, n, List.prefix_rfl, hend, hpass⟩

theorem isSome_lookup_memory {earlier : List String} {mid : String} :
    ((s.memory earlier).lookup mid).isSome ↔ s.Visited earlier mid := by
  induction earlier using List.reverseRecOn with
  | nil =>
      constructor
      · intro h
        cases h
      · rintro ⟨before, id, n, hprefix, -⟩
        simp at hprefix
  | append_singleton earlier id ih =>
      rw [memory_append, lookUp_remembers (s.cacheClosed_memory earlier),
        visited_append_iff, ih]

/-! ## Answers with and without earlier look-ups -/

theorem Reaches.leads {cache : IdCache} (hcache : s.CacheSound cache)
    {room : Nat} {id : String} (h : s.Reaches cache room id) :
    ∃ n last, s.Leads n id last := by
  induction h with
  | remembered hknown =>
      obtain ⟨n, last, hlead, -⟩ := hcache _ _ hknown
      exact ⟨n, last, hlead⟩
  | last hnone => exact ⟨0, _, .here hnone⟩
  | onward hsome _ ih =>
      obtain ⟨n, last, hlead⟩ := ih
      exact ⟨n + 1, last, .onward hsome hlead⟩

theorem Passes.reaches {cache : IdCache} {room k : Nat} {id mid : String}
    (h : s.Passes k id mid) (hroom : k ≤ room)
    (hknown : (cache.lookup mid).isSome) : s.Reaches cache room id := by
  induction h generalizing room with
  | here _ =>
      obtain ⟨outcome, hknown⟩ := Option.isSome_iff_exists.mp hknown
      exact .remembered hknown
  | onward hsome _ ih =>
      cases room with
      | zero => cases hroom
      | succ room => exact .onward hsome (ih (Nat.le_of_succ_le_succ hroom) hknown)

/-- A search meets the end of a chain within the room it has, something
remembered also at the place where the room ends. -/
theorem reaches_iff {cache : IdCache} {room n : Nat} {id last : String}
    (hlead : s.Leads n id last) :
    s.Reaches cache room id ↔
      n < room ∨ ∃ k mid, k ≤ room ∧ s.Passes k id mid ∧ (cache.lookup mid).isSome := by
  constructor
  · intro h
    induction h generalizing n with
    | @remembered room id outcome hknown =>
        exact Or.inr ⟨0, id, Nat.zero_le room, .here id, by rw [hknown]; rfl⟩
    | @last room id hnone =>
        obtain rfl := (hlead.unique (.here hnone)).1
        exact Or.inl (Nat.zero_lt_succ room)
    | @onward room id target hsome _ ih =>
        obtain ⟨n, rfl, hrest⟩ := hlead.of_alias hsome
        rcases ih hrest with hlt | ⟨k, mid, hk, hpass, hknown⟩
        · exact Or.inl (Nat.succ_lt_succ hlt)
        · exact Or.inr ⟨k + 1, mid, Nat.succ_le_succ hk, .onward hsome hpass, hknown⟩
  · rintro (hlt | ⟨k, mid, hk, hpass, hknown⟩)
    · exact hlead.reaches hlt
    · exact hpass.reaches hk hknown

/-- A search that reaches nothing answers as one that remembers nothing. -/
theorem follow_of_not_reaches {cache : IdCache} {room : Nat} {id : String}
    (h : ¬ s.Reaches cache room id) (active : List String) :
    (s.follow active room id cache).1 = (s.follow active room id []).1 := by
  have hsettled : ∀ {active room id}, ¬ s.Reaches cache room id →
      settled cache active id = settled [] active id := by
    intro active room id h
    cases hknown : cache.lookup id with
    | none => simp only [settled, hknown, List.lookup_nil]
    | some outcome => exact absurd (.remembered hknown) h
  induction room generalizing active id with
  | zero => simp only [follow, hsettled h]
  | succ room ih =>
      cases hnone : settled [] active id with
      | some outcome =>
          rw [follow_of_settled hnone, follow_of_settled ((hsettled h).trans hnone)]
      | none =>
          cases htarget : s.aliasTarget? id with
          | none => exact absurd (.last htarget) h
          | some target =>
              rw [follow_of_alias hnone htarget,
                follow_of_alias ((hsettled h).trans hnone) htarget]
              exact ih (fun hrest => h (.onward htarget hrest)) (id :: active)

/-- Without memory a longer chain is given up where the room ends. -/
theorem follow_tooLong {active : List String} {room n : Nat} {id last : String}
    (hlead : s.Leads n id last) (hroom : room ≤ n) (hahead : s.Ahead active n last) :
    ∃ far, s.Passes room id far
      ∧ (s.follow active room id []).1 = .failed (.aliasChainTooLong far) := by
  have hnew : settled [] active id = none :=
    settled_of_new List.lookup_nil (hahead.notMem hlead)
  induction room generalizing active n id with
  | zero => exact ⟨id, .here id, by simp only [follow, hnew, Option.getD_none]⟩
  | succ room ih =>
      cases hlead with
      | here _ => cases hroom
      | onward hsome hrest =>
          have hahead' := hahead.cons (.onward hsome hrest)
          obtain ⟨far, hpass, hfar⟩ := ih hrest (Nat.le_of_succ_le_succ hroom) hahead'
            (settled_of_new List.lookup_nil (hahead'.notMem hrest))
          rw [follow_of_alias hnew hsome]
          exact ⟨far, .onward hsome hpass, hfar⟩

section

variable {earlier : List String} {id last : String} {n : Nat}

theorem lookUp_of_reaches (hlead : s.Leads n id last)
    (h : s.Reaches (s.memory earlier) Failure.maxAliasDepth id) :
    (s.lookUp id (s.memory earlier)).1 = s.outcomeOf last :=
  follow_of_reaches (cacheSound_afterLookUps (cacheSound_nil s) earlier) h hlead
    (s.ahead_nil n last)

theorem lookUp_of_not_reaches
    (h : ¬ s.Reaches (s.memory earlier) Failure.maxAliasDepth id) :
    (s.lookUp id (s.memory earlier)).1 = (s.lookUp id []).1 :=
  follow_of_not_reaches h []

theorem lookUp_tooLong (hlead : s.Leads n id last)
    (hlong : Failure.maxAliasDepth ≤ n) :
    ∃ far, s.Passes Failure.maxAliasDepth id far
      ∧ (s.lookUp id []).1 = .failed (.aliasChainTooLong far) :=
  follow_tooLong hlead hlong (s.ahead_nil n last)

/-- The chain has to be too long for a fresh search, and memory has to hold
a place that is not. -/
theorem lookUp_memory_ne_iff :
    (s.lookUp id (s.memory earlier)).1 ≠ (s.lookUp id []).1 ↔
      ∃ n last k mid, s.Leads n id last ∧ Failure.maxAliasDepth ≤ n
        ∧ k ≤ Failure.maxAliasDepth ∧ s.Passes k id mid ∧ s.Visited earlier mid := by
  constructor
  · intro hne
    have hreach := not_imp_comm.mp lookUp_of_not_reaches hne
    obtain ⟨n, last, hlead⟩ :=
      hreach.leads (cacheSound_afterLookUps (cacheSound_nil s) earlier)
    rcases Nat.lt_or_ge n Failure.maxAliasDepth with hshort | hlong
    · refine absurd ?_ hne
      rw [lookUp_of_reaches hlead hreach]
      exact (follow_of_reaches (cacheSound_nil s) (hlead.reaches hshort) hlead
        (s.ahead_nil n last)).symm
    · rcases (reaches_iff hlead).mp hreach with hshort | ⟨k, mid, hk, hpass, hknown⟩
      · exact absurd hshort (Nat.not_lt.mpr hlong)
      · have hvisited := isSome_lookup_memory.mp hknown
        exact ⟨n, last, k, mid, hlead, hlong, hk, hpass, hvisited⟩
  · rintro ⟨n, last, k, mid, hlead, hlong, hk, hpass, hvisited⟩
    obtain ⟨far, -, hfar⟩ := lookUp_tooLong hlead hlong
    have hreach := hpass.reaches hk (isSome_lookup_memory.mpr hvisited)
    have hnot := outcomeOf_isAliasLoop s last
    rw [lookUp_of_reaches hlead hreach, hfar]
    intro heq
    rw [heq] at hnot
    cases hnot

end

/-- What a pass remembers after the blocks before a place are look-ups. They
change an answer just for a chain of at least `Failure.maxAliasDepth`
aliases of which they have visited a place within reach: a fresh pass gives
such a chain up where the limit is, the other one answers with its end. -/
theorem lookUp_memory (s : Scope) :
    (∀ before : List Block,
      ∃ earlier, (s.resolveBlocks before {}).2.cache = s.memory earlier)
    ∧ ∀ (earlier : List String) (id : String),
      ((s.lookUp id (s.memory earlier)).1 ≠ (s.lookUp id []).1 ↔
        ∃ n last k mid, s.Leads n id last ∧ Failure.maxAliasDepth ≤ n
          ∧ k ≤ Failure.maxAliasDepth ∧ s.Passes k id mid ∧ s.Visited earlier mid)
      ∧ ∀ n last, s.Leads n id last → Failure.maxAliasDepth ≤ n →
        (∃ far, s.Passes Failure.maxAliasDepth id far
          ∧ (s.lookUp id []).1 = .failed (.aliasChainTooLong far))
        ∧ ((s.lookUp id (s.memory earlier)).1 = (s.lookUp id []).1
          ∨ (s.lookUp id (s.memory earlier)).1 = s.outcomeOf last) := by
  refine ⟨s.exists_memory_eq, fun earlier id => ⟨lookUp_memory_ne_iff, ?_⟩⟩
  intro n last hlead hlong
  refine ⟨lookUp_tooLong hlead hlong, ?_⟩
  by_cases hreach : s.Reaches (s.memory earlier) Failure.maxAliasDepth id
  · exact Or.inr (lookUp_of_reaches hlead hreach)
  · exact Or.inl (lookUp_of_not_reaches hreach)

/-! ## A chain that is too long to start with -/

/-- The loops of a rope, each made fast to the next. -/
def ropeLoop (k : Nat) : String := String.singleton (Char.ofNat (97 + k))

/-- A document of 64 aliases in one chain. -/
def longWarp : Scope where
  document := .root
  config := .initial
  index := .build ((List.range Failure.maxAliasDepth).map fun k =>
    .linkAlias ⟨ropeLoop k, ropeLoop (k + 1)⟩)
  tree := none

/-- The same reference is invalid on its own and kept for the tree behind
one to the next place of the chain. -/
theorem lookUp_longWarp :
    (longWarp.lookUp (ropeLoop 0) []).1 = .failed (.aliasChainTooLong (ropeLoop 64))
      ∧ (longWarp.lookUp (ropeLoop 0) (longWarp.memory [ropeLoop 1])).1
        = .deferred (ropeLoop 64)
      ∧ (longWarp.run [.reference (.linkId [] (ropeLoop 0)) "first"]).2.length = 1
      ∧ (longWarp.run [.reference (.linkId [] (ropeLoop 1)) "second",
        .reference (.linkId [] (ropeLoop 0)) "first"]).2 = [] := by
  decide +kernel

end Scope

end Crosslink

import Crosslink.Resolution.LinkId

/-!
# Chains of aliases and what is remembered of them

`Leads n id last` says where a link id goes without the search that
follows it: `n` aliases, each declared once, lead from `id` to `last`,
which is no such alias. `Finds` says what is found there, with one rule
for every place where the search may end. The search agrees with both in
spite of its depth limit and of what it remembers. Everything remembered
is the outcome at the end of some chain (`CacheSound`), a search keeps
this (`cacheSound_lookUp`), and its answer is the outcome at the end of
the chain unless the chain never ends or has as many aliases as the limit
(`Answers`, `answers_lookUp`).
-/

namespace Crosslink

namespace Scope

variable {s : Scope}

/-! ## Where an id leads -/

/-- `n` aliases lead from `id` to `last`, which is no alias. -/
inductive Leads (s : Scope) : Nat → String → String → Prop
  | here {id : String} (h : s.aliasTarget? id = none) : Leads s 0 id id
  | onward {n : Nat} {id target last : String}
      (h : s.aliasTarget? id = some target) (rest : Leads s n target last) :
      Leads s (n + 1) id last

theorem Leads.of_alias {n : Nat} {id target last : String}
    (h : s.Leads n id last) (hsome : s.aliasTarget? id = some target) :
    ∃ k, n = k + 1 ∧ s.Leads k target last := by
  cases h with
  | here hnone => rw [hsome] at hnone; cases hnone
  | onward hsome' rest =>
      obtain rfl := Option.some.inj (hsome.symm.trans hsome')
      exact ⟨_, rfl, rest⟩

/-- A chain has one length and one end. -/
theorem Leads.unique {n m : Nat} {id last last' : String}
    (h : s.Leads n id last) (h' : s.Leads m id last') : n = m ∧ last = last' := by
  induction h generalizing m with
  | here hnone =>
      cases h' with
      | here _ => exact ⟨rfl, rfl⟩
      | onward hsome _ => rw [hnone] at hsome; cases hsome
  | onward hsome _ ih =>
      obtain ⟨k, rfl, rest'⟩ := h'.of_alias hsome
      obtain ⟨rfl, rfl⟩ := ih rest'
      exact ⟨rfl, rfl⟩

theorem Leads.last_ne_alias {n : Nat} {id last : String}
    (h : s.Leads n id last) : s.aliasTarget? last = none := by
  induction h with
  | here hnone => exact hnone
  | onward _ _ ih => exact ih

/-! ## What a search may answer -/

/-- The name belongs to no definition and is not repeated among definitions
and aliases. -/
def Undefines (s : Scope) (id : String) : Prop :=
  s.index.linkDefinitions.entry? id
    = (s.aliasTarget? id).map fun target => .unique (.indirection target)

theorem Undefines.entry?_eq_none {id : String} (h : s.Undefines id)
    (hnone : s.aliasTarget? id = none) :
    s.index.linkDefinitions.entry? id = none := by
  rw [h, hnone]
  rfl

/-- The document does not declare the name, except as an alias. -/
structure Foreign (s : Scope) (id : String) : Prop where
  definition : s.Undefines id
  anchor : s.index.anchors.entry? id = none

/-- What the end of a chain comes to: one rule for every place where the
search may end, in the order in which it looks. -/
inductive Finds (s : Scope) (id : String) : IdOutcome → Prop
  | repeatedDefinition
      (h : s.index.linkDefinitions.entry? id = some .duplicate) :
      Finds s id (.failed (.duplicateDefinition id s.document))
  | definedUrl {url : String} {title : Option String}
      (h : s.index.linkDefinitions.entry? id
        = some (.unique (.target ⟨.external url, title⟩))) :
      Finds s id (.found (.external url title))
  | definedPath {path : WrittenPath} {title : Option String}
      (h : s.index.linkDefinitions.entry? id
        = some (.unique (.target ⟨.internal path, title⟩))) :
      Finds s id (.found (.path path title))
  | repeatedAnchor (hdef : s.Undefines id)
      (h : s.index.anchors.entry? id = some .duplicate) :
      Finds s id (.failed (.duplicateTarget id s.document))
  | anchor (hdef : s.Undefines id)
      (h : s.index.anchors.entry? id = some (.unique ())) :
      Finds s id (.found (.target (s.ownAnchor id)))
  | deferred (hforeign : s.Foreign id) (htree : s.tree = none) :
      Finds s id (.deferred id)
  | globalUrl {tree : TreeIndex} {url : String} (hforeign : s.Foreign id)
      (htree : s.tree = some tree)
      (h : s.config.globalTargets.get? id = some (.external url)) :
      Finds s id (.found (.external url none))
  | globalPath {tree : TreeIndex} {path : AbsolutePath}
      (hforeign : s.Foreign id) (htree : s.tree = some tree)
      (h : s.config.globalTargets.get? id = some (.internal path)) :
      Finds s id (.found (.path (.absolute path) none))
  | elsewhere {tree : TreeIndex} {path : AbsolutePath}
      (hforeign : s.Foreign id) (htree : s.tree = some tree)
      (hglobal : s.config.globalTargets.get? id = none)
      (h : tree.findAnchor id s.document = .found path) :
      Finds s id (.found (.path (.absolute path) none))
  | ambiguous {tree : TreeIndex} {scope : AbsolutePath}
      (hforeign : s.Foreign id) (htree : s.tree = some tree)
      (hglobal : s.config.globalTargets.get? id = none)
      (h : tree.findAnchor id s.document = .duplicate scope) :
      Finds s id (.failed (.duplicateTarget id scope))
  | missing {tree : TreeIndex} (hforeign : s.Foreign id)
      (htree : s.tree = some tree)
      (hglobal : s.config.globalTargets.get? id = none)
      (h : tree.findAnchor id s.document = .missing) :
      Finds s id (.missing id)

theorem finds_searchTree {tree : TreeIndex} {id : String}
    (hforeign : s.Foreign id) (htree : s.tree = some tree) :
    s.Finds id (s.searchTree tree id) := by
  unfold searchTree
  cases hglobal : s.config.globalTargets.get? id with
  | some target =>
      cases target with
      | external url => exact .globalUrl hforeign htree hglobal
      | internal path => exact .globalPath hforeign htree hglobal
  | none =>
      cases hfind : tree.findAnchor id s.document with
      | found path => exact .elsewhere hforeign htree hglobal hfind
      | duplicate scope => exact .ambiguous hforeign htree hglobal hfind
      | missing => exact .missing hforeign htree hglobal hfind

theorem finds_searchAnchors {id : String} (hdef : s.Undefines id) :
    s.Finds id (s.searchAnchors id) := by
  unfold searchAnchors
  cases hanchor : s.index.anchors.entry? id with
  | some entry =>
      cases entry with
      | duplicate => exact .repeatedAnchor hdef hanchor
      | unique value => exact .anchor hdef hanchor
  | none =>
      cases htree : s.tree with
      | none => exact .deferred ⟨hdef, hanchor⟩ htree
      | some tree => exact finds_searchTree ⟨hdef, hanchor⟩ htree

/-- The search at the end of a chain follows the rules. -/
theorem finds_outcomeOf (s : Scope) (id : String) :
    s.Finds id (s.outcomeOf id) := by
  unfold outcomeOf
  cases hentry : s.index.linkDefinitions.entry? id with
  | none =>
      refine finds_searchAnchors ?_
      simp only [Undefines, aliasTarget?, hentry, Option.map_none]
  | some entry =>
      cases entry with
      | duplicate => exact .repeatedDefinition hentry
      | unique entry =>
          cases entry with
          | indirection target =>
              refine finds_searchAnchors ?_
              simp only [Undefines, aliasTarget?, hentry, Option.map_some]
          | target defined =>
              obtain ⟨target, title⟩ := defined
              cases target with
              | external url => exact .definedUrl hentry
              | internal path => exact .definedPath hentry

/-- The outcome at the end of a chain was found somewhere, not given up. -/
theorem Finds.isAliasLoop {id : String} {outcome : IdOutcome}
    (h : s.Finds id outcome) : outcome.isAliasLoop = false := by
  cases h <;> rfl

theorem outcomeOf_isAliasLoop (s : Scope) (id : String) :
    (s.outcomeOf id).isAliasLoop = false :=
  (finds_outcomeOf s id).isAliasLoop

/-- An answer to a search for `id`: the outcome at the end of its chain, or,
if that end is not within reach, a failure of the aliases. -/
def Answers (s : Scope) (id : String) (outcome : IdOutcome) : Prop :=
  (∃ n last, s.Leads n id last ∧ outcome = s.outcomeOf last)
    ∨ ((∀ n last, s.Leads n id last → Failure.maxAliasDepth ≤ n)
      ∧ ∃ failure, outcome = .failed failure ∧ failure.isAliasLoop = true)

/-- The end of a chain within reach decides the answer. -/
theorem Answers.eq_outcomeOf {n : Nat} {id last : String} {outcome : IdOutcome}
    (h : s.Answers id outcome) (hlead : s.Leads n id last)
    (hlt : n < Failure.maxAliasDepth) : outcome = s.outcomeOf last := by
  rcases h with ⟨m, last', hlead', rfl⟩ | ⟨hfar, -⟩
  · rw [(hlead.unique hlead').2]
  · have := hfar n last hlead
    omega

theorem Answers.finds {id : String} {outcome : IdOutcome}
    (h : s.Answers id outcome) :
    (∃ last, s.Finds last outcome)
      ∨ ∃ failure, outcome = .failed failure ∧ failure.isAliasLoop = true := by
  rcases h with ⟨n, last, -, rfl⟩ | ⟨-, hloop⟩
  · exact Or.inl ⟨last, finds_outcomeOf s last⟩
  · exact Or.inr hloop

/-! ## What is remembered -/

/-- Every remembered outcome is the one at the end of a chain. -/
def CacheSound (s : Scope) (cache : IdCache) : Prop :=
  ∀ id outcome, cache.lookup id = some outcome →
    ∃ n last, s.Leads n id last ∧ outcome = s.outcomeOf last

theorem cacheSound_nil (s : Scope) : s.CacheSound [] := by
  intro id outcome h
  cases h

theorem CacheSound.remember {cache : IdCache} (h : s.CacheSound cache)
    {n : Nat} {id last : String} (hlead : s.Leads n id last) :
    s.CacheSound (remember cache id (s.outcomeOf last)) := by
  rw [Scope.remember, outcomeOf_isAliasLoop, if_neg (by decide)]
  intro other outcome hother
  rw [List.lookup_cons] at hother
  split at hother
  · rename_i heq
    obtain rfl := beq_iff_eq.mp heq
    obtain rfl := Option.some.inj hother
    exact ⟨n, last, hlead, rfl⟩
  · exact h other outcome hother

theorem remember_of_isAliasLoop {cache : IdCache} {id : String}
    {outcome : IdOutcome} (h : outcome.isAliasLoop = true) :
    remember cache id outcome = cache := by
  rw [remember, if_pos h]

/-! ## One step of a search -/

theorem settled_cases {cache : IdCache} {active : List String} {id : String}
    {outcome : IdOutcome} (h : settled cache active id = some outcome) :
    cache.lookup id = some outcome ∨ outcome = .failed (.circularAlias id) := by
  unfold settled at h
  split at h
  · rename_i known hknown
    exact Or.inl (hknown.trans h)
  · split at h
    · exact Or.inr (Option.some.inj h).symm
    · cases h

theorem settled_of_lookup {cache : IdCache} {id : String} {outcome : IdOutcome}
    (h : cache.lookup id = some outcome) (active : List String) :
    settled cache active id = some outcome := by
  rw [settled, h]

theorem settled_of_new {cache : IdCache} {active : List String} {id : String}
    (h : cache.lookup id = none) (hnew : id ∉ active) :
    settled cache active id = none := by
  rw [settled, h, if_neg hnew]

theorem follow_of_settled {cache : IdCache} {active : List String} {id : String}
    {outcome : IdOutcome} (h : settled cache active id = some outcome) (room : Nat) :
    s.follow active room id cache = (outcome, cache) := by
  cases room <;> simp only [follow, h, Option.getD_some]

theorem follow_of_alias {cache : IdCache} {active : List String}
    {id target : String} (h : settled cache active id = none)
    (htarget : s.aliasTarget? id = some target) (room : Nat) :
    s.follow active (room + 1) id cache =
      let rest := s.follow (id :: active) room target cache
      (rest.1, remember rest.2 id rest.1) := by
  simp only [follow, h, htarget]

theorem follow_of_last {cache : IdCache} {active : List String} {id : String}
    (h : settled cache active id = none) (hnone : s.aliasTarget? id = none)
    (room : Nat) :
    s.follow active (room + 1) id cache =
      (s.outcomeOf id, remember cache id (s.outcomeOf id)) := by
  simp only [follow, h, hnone]

/-! ## Where a search ends -/

/-- What a search from `id` may come to: the end of the chain, or a failure
of the aliases. -/
def Concludes (s : Scope) (id : String) (outcome : IdOutcome) : Prop :=
  (∃ n last, s.Leads n id last ∧ outcome = s.outcomeOf last)
    ∨ ∃ failure, outcome = .failed failure ∧ failure.isAliasLoop = true

theorem CacheSound.concludes {cache : IdCache} (h : s.CacheSound cache)
    {active : List String} {id : String} {outcome : IdOutcome}
    (hsettled : settled cache active id = some outcome) : s.Concludes id outcome := by
  rcases settled_cases hsettled with hknown | rfl
  · exact Or.inl (h _ _ hknown)
  · exact Or.inr ⟨_, rfl, rfl⟩

/-- A failure of the aliases leaves nothing new to remember. -/
theorem follow_cases (active : List String) (room : Nat) (id : String)
    {cache : IdCache} (hcache : s.CacheSound cache) :
    s.CacheSound (s.follow active room id cache).2
      ∧ s.Concludes id (s.follow active room id cache).1 := by
  induction room generalizing active id with
  | zero =>
      cases hsettled : settled cache active id with
      | some outcome =>
          rw [follow_of_settled hsettled]
          exact ⟨hcache, hcache.concludes hsettled⟩
      | none =>
          refine ⟨hcache, Or.inr ⟨.aliasChainTooLong id, ?_, rfl⟩⟩
          simp only [follow, hsettled, Option.getD_none]
  | succ room ih =>
      cases hsettled : settled cache active id with
      | some outcome =>
          rw [follow_of_settled hsettled]
          exact ⟨hcache, hcache.concludes hsettled⟩
      | none =>
          cases htarget : s.aliasTarget? id with
          | none =>
              rw [follow_of_last hsettled htarget]
              exact ⟨hcache.remember (.here htarget),
                Or.inl ⟨0, id, .here htarget, rfl⟩⟩
          | some target =>
              rw [follow_of_alias hsettled htarget]
              obtain ⟨hsound, hend | hloop⟩ := ih (id :: active) target
              · obtain ⟨n, last, hlead, heq⟩ := hend
                simp only [heq]
                exact ⟨hsound.remember (.onward htarget hlead),
                  Or.inl ⟨n + 1, last, .onward htarget hlead, rfl⟩⟩
              · obtain ⟨failure, heq, hfailure⟩ := hloop
                simp only [heq]
                rw [remember_of_isAliasLoop (by exact hfailure)]
                exact ⟨hsound, Or.inr ⟨failure, rfl, hfailure⟩⟩

/-! ## How far a search gets -/

/-- A search that may follow `room` ids meets the end of the chain, or
something remembered. -/
inductive Reaches (s : Scope) (cache : IdCache) : Nat → String → Prop
  | remembered {room : Nat} {id : String} {outcome : IdOutcome}
      (h : cache.lookup id = some outcome) : Reaches s cache room id
  | last {room : Nat} {id : String} (h : s.aliasTarget? id = none) :
      Reaches s cache (room + 1) id
  | onward {room : Nat} {id target : String}
      (h : s.aliasTarget? id = some target) (rest : Reaches s cache room target) :
      Reaches s cache (room + 1) id

theorem Leads.reaches {room n : Nat} {id last : String} {cache : IdCache}
    (h : s.Leads n id last) (hroom : n < room) : s.Reaches cache room id := by
  induction h generalizing room with
  | here hnone =>
      cases room with
      | zero => cases hroom
      | succ room => exact .last hnone
  | onward hsome _ ih =>
      cases room with
      | zero => cases hroom
      | succ room => exact .onward hsome (ih (Nat.lt_of_succ_lt_succ hroom))

/-- The ids being followed stand before one that is `n` aliases from
`last`, so a search from there on meets none of them again. -/
def Ahead (s : Scope) (active : List String) (n : Nat) (last : String) : Prop :=
  ∀ other ∈ active, ∃ m, n < m ∧ s.Leads m other last

theorem ahead_nil (s : Scope) (n : Nat) (last : String) : s.Ahead [] n last :=
  fun _ hother => absurd hother List.not_mem_nil

theorem Ahead.notMem {active : List String} {n : Nat} {id last : String}
    (h : s.Ahead active n last) (hlead : s.Leads n id last) : id ∉ active := by
  intro hmem
  obtain ⟨m, hlt, hlead'⟩ := h id hmem
  exact Nat.ne_of_lt hlt (hlead.unique hlead').1

theorem Ahead.cons {active : List String} {n : Nat} {id last : String}
    (h : s.Ahead active (n + 1) last) (hlead : s.Leads (n + 1) id last) :
    s.Ahead (id :: active) n last := by
  intro other hother
  rcases List.mem_cons.mp hother with rfl | hother
  · exact ⟨n + 1, Nat.lt_succ_self n, hlead⟩
  · obtain ⟨m, hlt, hlead'⟩ := h other hother
    exact ⟨m, Nat.lt_of_succ_lt hlt, hlead'⟩

theorem CacheSound.eq_outcomeOf {cache : IdCache} (h : s.CacheSound cache)
    {n : Nat} {id last : String} {outcome : IdOutcome}
    (hknown : cache.lookup id = some outcome) (hlead : s.Leads n id last) :
    outcome = s.outcomeOf last := by
  obtain ⟨m, last', hlead', rfl⟩ := h id outcome hknown
  rw [(hlead.unique hlead').2]

/-- A search that meets the end, or something remembered of it, answers
with the end. -/
theorem follow_of_reaches {active : List String} {room n : Nat}
    {id last : String} {cache : IdCache} (hcache : s.CacheSound cache)
    (hreach : s.Reaches cache room id) (hlead : s.Leads n id last)
    (hahead : s.Ahead active n last) :
    (s.follow active room id cache).1 = s.outcomeOf last := by
  induction hreach generalizing active n with
  | remembered hknown =>
      rw [follow_of_settled (settled_of_lookup hknown active)]
      exact hcache.eq_outcomeOf hknown hlead
  | @last room id hnone =>
      cases hknown : cache.lookup id with
      | some outcome =>
          rw [follow_of_settled (settled_of_lookup hknown active)]
          exact hcache.eq_outcomeOf hknown hlead
      | none =>
          rw [follow_of_last (settled_of_new hknown (hahead.notMem hlead)) hnone,
            (hlead.unique (.here hnone)).2]
  | @onward room id target hsome rest ih =>
      cases hknown : cache.lookup id with
      | some outcome =>
          rw [follow_of_settled (settled_of_lookup hknown active)]
          exact hcache.eq_outcomeOf hknown hlead
      | none =>
          rw [follow_of_alias (settled_of_new hknown (hahead.notMem hlead)) hsome]
          obtain ⟨k, rfl, hrest⟩ := hlead.of_alias hsome
          exact ih hrest (hahead.cons hlead)

/-! ## Looking an id up -/

theorem cacheSound_lookUp {cache : IdCache} (h : s.CacheSound cache)
    (id : String) : s.CacheSound (s.lookUp id cache).2 :=
  (follow_cases [] Failure.maxAliasDepth id h).1

/-- What is remembered after look-ups of the ids, the first one first. -/
def afterLookUps (s : Scope) (cache : IdCache) (ids : List String) : IdCache :=
  ids.foldl (fun cache id => (s.lookUp id cache).2) cache

theorem afterLookUps_append (cache : IdCache) (first second : List String) :
    s.afterLookUps cache (first ++ second)
      = s.afterLookUps (s.afterLookUps cache first) second :=
  List.foldl_append

theorem cacheSound_afterLookUps {cache : IdCache} (h : s.CacheSound cache)
    (ids : List String) : s.CacheSound (s.afterLookUps cache ids) := by
  induction ids generalizing cache with
  | nil => exact h
  | cons id ids ih => exact ih (cacheSound_lookUp h id)

theorem answers_lookUp {cache : IdCache} (h : s.CacheSound cache)
    (id : String) : s.Answers id (s.lookUp id cache).1 := by
  rcases (follow_cases [] Failure.maxAliasDepth id h).2 with hend | hloop
  · exact Or.inl hend
  · refine Or.inr ⟨fun n last hlead => ?_, hloop⟩
    rcases Nat.lt_or_ge n Failure.maxAliasDepth with hlt | hge
    · obtain ⟨failure, heq, hfailure⟩ := hloop
      have hreach := follow_of_reaches h (hlead.reaches hlt) hlead (s.ahead_nil n last)
      have hnot := outcomeOf_isAliasLoop s last
      rw [← hreach, heq] at hnot
      rw [show (IdOutcome.failed failure).isAliasLoop = failure.isAliasLoop from rfl,
        hfailure] at hnot
      cases hnot
    · exact hge

/-- An id that is no alias answers for itself. -/
theorem Answers.of_aliasTarget?_eq_none {id : String} {outcome : IdOutcome}
    (h : s.Answers id outcome) (hnone : s.aliasTarget? id = none) :
    outcome = s.outcomeOf id :=
  h.eq_outcomeOf (.here hnone) (by decide)

end Scope

end Crosslink

import Crosslink.Resolution.WorkerPool

/-!
# Every finished schedule gives the same answer

What the pool will still hand in does not depend on who does it:
`outstanding` lists the results that are or will be handed in, with their
places, and a move only permutes that list (`outstanding_step`). Once the
pool is done everything is handed in, and sorting by place leaves one
answer (`collect_run`). The schedule of `mapInOrder` does finish: a round
gives at least one waiting job away and ends with every worker idle
(`round_idle`, `round_waiting`), so the whole is `mapInOrder_eq_map`.
-/

namespace Crosslink

namespace WorkerPool

variable {α β : Type}

/-! ## Places -/

theorem map_numbered (work : α → β) (items : List α) :
    (numbered items).map (fun job => (job.1, work job.2))
      = numbered (items.map work) := by
  simp only [numbered, List.zipIdx_map, List.map_map]
  rfl

theorem map_snd_numbered (items : List α) :
    (numbered items).map (·.2) = items := by
  rw [numbered, List.map_map]
  exact List.zipIdx_map_fst 0 items

theorem length_numbered (items : List α) :
    (numbered items).length = items.length := by
  rw [numbered, List.length_map, List.length_zipIdx]

/-- Places grow from left to right. -/
theorem pairwise_numbered (items : List α) :
    (numbered items).Pairwise (fun a b => a.1 < b.1) := by
  have hplaces : (items.zipIdx.map (·.2)).Pairwise (· < ·) := by
    rw [List.zipIdx_map_snd]
    exact List.pairwise_lt_range' 1
  exact List.pairwise_map.mpr (List.pairwise_map.mp hplaces)

theorem getElem?_of_mem_numbered {items : List α} {job : Nat × α}
    (h : job ∈ numbered items) : items[job.1]? = some job.2 := by
  obtain ⟨indexed, hmem, rfl⟩ := List.mem_map.mp h
  exact List.mem_zipIdx_iff_getElem?.mp hmem

/-- No two jobs share a place. -/
theorem eq_of_mem_numbered {items : List α} {a b : Nat × α}
    (ha : a ∈ numbered items) (hb : b ∈ numbered items) (hab : a.1 = b.1) :
    a = b := by
  have hsame : some a.2 = some b.2 := by
    rw [← getElem?_of_mem_numbered ha, ← getElem?_of_mem_numbered hb, hab]
  exact Prod.ext hab (Option.some.inj hsame)

/-! ## What a move changes -/

/-- The jobs some worker is busy with. -/
def taken (workers : List (Option (Nat × α))) : List (Nat × α) :=
  workers.filterMap id

@[simp] theorem taken_replicate_none (count : Nat) :
    taken (List.replicate count (none : Option (Nat × α))) = [] := by
  simp [taken]

/-- Giving a job to an idle worker adds that job, wherever the worker
stands. -/
theorem taken_set_some {workers : List (Option (Nat × α))} {worker : Nat}
    (h : workers[worker]? = some none) (job : Nat × α) :
    (taken (workers.set worker (some job))).Perm (job :: taken workers) := by
  induction workers generalizing worker with
  | nil => cases h
  | cons first rest ih =>
      cases worker with
      | zero =>
          obtain rfl : first = none := by simpa using h
          exact List.Perm.refl _
      | succ worker =>
          have hat : rest[worker]? = some none := by simpa using h
          have hrest := ih hat
          cases first with
          | none => simpa [taken] using hrest
          | some busy =>
              have hswap := (hrest.cons busy).trans (List.Perm.swap job busy _)
              simpa [taken] using hswap

/-- Taking the job of a busy worker away removes that job. -/
theorem taken_set_none {workers : List (Option (Nat × α))} {worker : Nat}
    {job : Nat × α} (h : workers[worker]? = some (some job)) :
    (taken workers).Perm (job :: taken (workers.set worker none)) := by
  obtain ⟨hlt, hat⟩ := List.getElem?_eq_some_iff.mp h
  have hback : (workers.set worker none).set worker (some job) = workers := by
    rw [List.set_set, ← hat, List.set_getElem_self]
  have hidle : (workers.set worker none)[worker]? = some none := by
    simp [hlt]
  have hperm := taken_set_some hidle job
  rwa [hback] at hperm

/-- The results that are or will be handed in. -/
def outstanding (work : α → β) (p : WorkerPool α β) : List (Nat × β) :=
  p.handedIn ++ ((taken p.workers ++ p.waiting).map
    fun job => (job.1, work job.2))

/-- A move permutes the outstanding results. -/
theorem outstanding_step (work : α → β) (p : WorkerPool α β)
    (move : WorkerMove) :
    ((p.step work move).outstanding work).Perm (p.outstanding work) := by
  cases move with
  | take worker =>
      simp only [step]
      split
      · rename_i job jobs hidle hjobs
        have htaken := taken_set_some hidle job
        have hall : (taken (p.workers.set worker (some job)) ++ jobs).Perm
            (taken p.workers ++ job :: jobs) :=
          (htaken.append_right jobs).trans List.perm_middle.symm
        simp only [outstanding, hjobs]
        exact (hall.map _).append_left _
      · exact List.Perm.refl _
  | handIn worker =>
      simp only [step]
      split
      · rename_i place item hbusy
        have htaken := (taken_set_none hbusy).append_right p.waiting
        have hall := htaken.map fun job => (job.1, work job.2)
        simp only [outstanding, List.append_assoc]
        exact (hall.append_left p.handedIn).symm
      · exact List.Perm.refl _

theorem outstanding_run (work : α → β) (p : WorkerPool α β)
    (schedule : List WorkerMove) :
    ((p.run work schedule).outstanding work).Perm (p.outstanding work) := by
  induction schedule generalizing p with
  | nil => exact List.Perm.refl _
  | cons move schedule ih =>
      exact (ih (p.step work move)).trans (outstanding_step work p move)

theorem outstanding_start (work : α → β) (workers : Nat) (items : List α) :
    (start workers items).outstanding work = numbered (items.map work) := by
  simp only [outstanding, start, taken_replicate_none, List.nil_append]
  exact map_numbered work items

/-! ## The answer of a finished pool -/

theorem outstanding_of_isDone {work : α → β} {p : WorkerPool α β}
    (h : p.isDone = true) : p.outstanding work = p.handedIn := by
  rw [isDone, Bool.and_eq_true] at h
  obtain ⟨hwaiting, hworkers⟩ := h
  have htaken : taken p.workers = [] := by
    refine List.filterMap_eq_nil_iff.mpr fun worker hmem => ?_
    exact Option.isNone_iff_eq_none.mp (List.all_eq_true.mp hworkers worker hmem)
  simp [outstanding, htaken, List.isEmpty_iff.mp hwaiting]

/-- Results handed in for all places come out in the order of the places,
whatever the order they were handed in. -/
theorem collect_of_perm {p : WorkerPool α β} {results : List β}
    (h : p.handedIn.Perm (numbered results)) : p.collect = results := by
  have hsorted : (p.handedIn.mergeSort fun a b => decide (a.1 ≤ b.1)).Pairwise
      fun a b => decide (a.1 ≤ b.1) = true :=
    List.pairwise_mergeSort (by simp only [decide_eq_true_eq]; omega)
      (by simp only [Bool.or_eq_true, decide_eq_true_eq]; omega) p.handedIn
  have hplaces : (numbered results).Pairwise
      fun a b => decide (a.1 ≤ b.1) = true :=
    (pairwise_numbered results).imp fun hab => decide_eq_true (Nat.le_of_lt hab)
  have hperm := (List.mergeSort_perm p.handedIn
    fun a b => decide (a.1 ≤ b.1)).trans h
  have heq := hperm.eq_of_pairwise (fun a b ha hb hab hba =>
    eq_of_mem_numbered (hperm.subset ha) hb
      (Nat.le_antisymm (of_decide_eq_true hab) (of_decide_eq_true hba)))
    hsorted hplaces
  rw [collect, heq, map_snd_numbered]

/-- The answer of a schedule that finishes the work. -/
theorem collect_run {work : α → β} {workers : Nat} {items : List α}
    {schedule : List WorkerMove}
    (h : ((start workers items).run work schedule).isDone = true) :
    ((start workers items).run work schedule).collect = items.map work := by
  have hperm := outstanding_run work (start workers items) schedule
  rw [outstanding_of_isDone h, outstanding_start] at hperm
  exact collect_of_perm hperm

/-! ## Rounds finish the work -/

def Idle (p : WorkerPool α β) : Prop := ∀ job ∈ p.workers, job = none

theorem length_workers_step (work : α → β) (p : WorkerPool α β)
    (move : WorkerMove) : (p.step work move).workers.length = p.workers.length := by
  cases move <;> simp only [step] <;> split <;> simp

theorem length_workers_run (work : α → β) (p : WorkerPool α β)
    (schedule : List WorkerMove) :
    (p.run work schedule).workers.length = p.workers.length := by
  induction schedule generalizing p with
  | nil => rfl
  | cons move schedule ih =>
      exact (ih (p.step work move)).trans (length_workers_step work p move)

theorem run_append (work : α → β) (p : WorkerPool α β)
    (first second : List WorkerMove) :
    p.run work (first ++ second) = (p.run work first).run work second :=
  List.foldl_append

/-- No move puts a job back. -/
theorem length_waiting_step_le (work : α → β) (p : WorkerPool α β)
    (move : WorkerMove) : (p.step work move).waiting.length ≤ p.waiting.length := by
  cases move with
  | take worker =>
      simp only [step]
      split
      · rename_i job jobs hidle hjobs
        simp [hjobs]
      · exact Nat.le_refl _
  | handIn worker => simp only [step]; split <;> exact Nat.le_refl _

theorem length_waiting_run_le (work : α → β) (p : WorkerPool α β)
    (schedule : List WorkerMove) :
    (p.run work schedule).waiting.length ≤ p.waiting.length := by
  induction schedule generalizing p with
  | nil => exact Nat.le_refl _
  | cons move schedule ih =>
      exact Nat.le_trans (ih (p.step work move)) (length_waiting_step_le work p move)

/-- A worker who hands in is idle, and nobody else gets busy by that. -/
theorem handIn_idle (work : α → β) (p : WorkerPool α β) (worker other : Nat)
    (h : other = worker ∨ p.workers[other]? = some none)
    (hlt : other < p.workers.length) :
    (p.step work (.handIn worker)).workers[other]? = some none := by
  simp only [step]
  split
  · rename_i place item hbusy
    by_cases heq : other = worker
    · subst heq; simp [hlt]
    · have hidle := h.resolve_left heq
      simpa [List.getElem?_set, Ne.symm heq] using hidle
  · rename_i hfree
    rcases h with rfl | hidle
    · cases hat : p.workers[other] with
      | none => rw [List.getElem?_eq_getElem hlt, hat]
      | some job =>
          exact absurd (by rw [List.getElem?_eq_getElem hlt, hat])
            (hfree job.1 job.2)
    · exact hidle

theorem handIn_all_idle (work : α → β) (p : WorkerPool α β)
    (workers : List Nat) (other : Nat) (hlt : other < p.workers.length)
    (h : other ∈ workers ∨ p.workers[other]? = some none) :
    (p.run work (workers.map .handIn)).workers[other]? = some none := by
  induction workers generalizing p with
  | nil => exact h.resolve_left (List.not_mem_nil)
  | cons worker workers ih =>
      refine ih (p.step work (.handIn worker))
        (by rw [length_workers_step]; exact hlt) ?_
      rcases h with hmem | hidle
      · rcases List.mem_cons.mp hmem with rfl | hmem
        · exact Or.inr (handIn_idle work p other other (Or.inl rfl) hlt)
        · exact Or.inl hmem
      · exact Or.inr (handIn_idle work p worker other (Or.inr hidle) hlt)

/-- The moves of one round. -/
def roundOf (workers : Nat) : List WorkerMove :=
  (List.range workers).map .take ++ (List.range workers).reverse.map .handIn

theorem inRounds_succ (workers rounds : Nat) :
    inRounds workers (rounds + 1) = roundOf workers ++ inRounds workers rounds := by
  simp [inRounds, roundOf]

/-- A round ends with every worker idle. -/
theorem round_idle (work : α → β) (p : WorkerPool α β) :
    (p.run work (roundOf p.workers.length)).Idle := by
  intro job hmem
  obtain ⟨worker, hlt, rfl⟩ := List.mem_iff_getElem.mp hmem
  rw [length_workers_run] at hlt
  have hidle := handIn_all_idle work
    (p.run work ((List.range p.workers.length).map .take))
    (List.range p.workers.length).reverse worker
    (by rw [length_workers_run]; exact hlt) (Or.inl (by simpa using hlt))
  rw [← run_append] at hidle
  exact (List.getElem?_eq_some_iff.mp hidle).2

/-- A round of idle workers gives a waiting job away. -/
theorem round_waiting (work : α → β) (p : WorkerPool α β) (hidle : p.Idle)
    (hsome : 0 < p.workers.length) :
    (p.run work (roundOf p.workers.length)).waiting.length
      ≤ p.waiting.length - 1 := by
  obtain ⟨count, hcount⟩ := Nat.exists_eq_succ_of_ne_zero (Nat.ne_of_gt hsome)
  have hfirst : p.workers[0]? = some none := by
    rw [List.getElem?_eq_getElem hsome, hidle _ (List.getElem_mem hsome)]
  have htake : (p.step work (.take 0)).waiting.length ≤ p.waiting.length - 1 := by
    cases hwaiting : p.waiting with
    | nil => simp [step, hfirst, hwaiting]
    | cons job jobs => simp [step, hfirst, hwaiting]
  have hmoves : ∃ rest, roundOf p.workers.length = .take 0 :: rest := by
    rw [hcount, roundOf, List.range_succ_eq_map]
    exact ⟨_, rfl⟩
  obtain ⟨rest, hrest⟩ := hmoves
  rw [hrest]
  exact Nat.le_trans (length_waiting_run_le work (p.step work (.take 0)) rest) htake

/-- As many rounds as there are waiting jobs finish the work. -/
theorem isDone_inRounds (work : α → β) (rounds : Nat) (p : WorkerPool α β)
    (hidle : p.Idle) (hsome : 0 < p.workers.length)
    (hrounds : p.waiting.length ≤ rounds) :
    (p.run work (inRounds p.workers.length rounds)).isDone = true := by
  induction rounds generalizing p with
  | zero =>
      have hnone : p.waiting = [] := List.length_eq_zero_iff.mp (by omega)
      have hfree : p.workers.all Option.isNone = true :=
        List.all_eq_true.mpr fun job hmem => by rw [hidle job hmem]; rfl
      show p.isDone = true
      rw [isDone, hnone, hfree]
      rfl
  | succ rounds ih =>
      have hlen := length_workers_run work p (roundOf p.workers.length)
      have hdone := ih (p.run work (roundOf p.workers.length))
        (round_idle work p) (by omega)
        (by have := round_waiting work p hidle hsome; omega)
      rw [hlen, ← run_append, ← inRounds_succ] at hdone
      exact hdone

/-- Sharing work out does not show in the results. -/
theorem mapInOrder_eq_map (work : α → β) (workers : Nat) (items : List α) :
    mapInOrder work workers items = items.map work := by
  simp only [mapInOrder]
  split
  · rfl
  · rename_i hmany
    refine collect_run ?_
    have hdone := isDone_inRounds work items.length
      (start (min workers items.length) items)
      (fun job hmem => List.eq_of_mem_replicate hmem)
      (by simp only [start, List.length_replicate]; omega)
      (by simp only [start, length_numbered]; exact Nat.le_refl _)
    simpa only [start, List.length_replicate] using hdone

end WorkerPool

end Crosslink

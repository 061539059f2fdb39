import Crosslink.Proofs.Phases

/-!
# Every interleaving of the workers

`WorkerPool.Makes` is a stretch of a run as the workers themselves order it:
each move is possible where it is made. `SharesOut` is what a run can end
with: it goes on until no worker can move. The potential `movesLeft` counts
the moves that are still to be made, so a run of `n` jobs cannot go on for more
than `2 * n` moves (`Makes.movesLeft_eq`), and a pool that cannot move is done
(`isDone_of_stuck`), which together with `collect_run` leaves one list of
results. `DocumentRoot.Resolves` is resolution with each phase shared out in
any way; `DocumentRoot.schedule_irrelevant` says that neither the number of
workers nor the interleavings show.
-/

namespace Crosslink

namespace WorkerPool

variable {α β : Type}

/-- The moves that can be made: an idle worker takes the job in front, a busy
one hands in. -/
inductive Possible (p : WorkerPool α β) : WorkerMove → Prop
  | take {worker : Nat} {job : Nat × α} {jobs : List (Nat × α)}
      (idle : p.workers[worker]? = some none) (next : p.waiting = job :: jobs) :
      Possible p (.take worker)
  | handIn {worker : Nat} {job : Nat × α}
      (busy : p.workers[worker]? = some (some job)) : Possible p (.handIn worker)

/-- No worker can move. -/
def Stuck (p : WorkerPool α β) : Prop := ∀ move, ¬ p.Possible move

/-- The schedule leads from one pool to the other, every move of it possible
when it is made. -/
inductive Makes (work : α → β) :
    WorkerPool α β → List WorkerMove → WorkerPool α β → Prop
  | nil {p : WorkerPool α β} : Makes work p [] p
  | cons {p q : WorkerPool α β} {move : WorkerMove} {schedule : List WorkerMove}
      (possible : p.Possible move) (rest : Makes work (p.step work move) schedule q) :
      Makes work p (move :: schedule) q

/-- The results can come of sharing the items out: one worker, or none, does
them in turn; more of them move in some order until nobody can. -/
inductive SharesOut (work : α → β) (workers : Nat) (items : List α) : List β → Prop
  | inTurn (few : min workers items.length ≤ 1) :
      SharesOut work workers items (items.map work)
  | pooled {schedule : List WorkerMove} {p : WorkerPool α β}
      (many : 1 < min workers items.length)
      (made : Makes work (start (min workers items.length) items) schedule p)
      (stuck : p.Stuck) : SharesOut work workers items p.collect

/-! ## Runs come to an end -/

/-- The moves still to be made: two for a job that waits, one for a job that
is worked on. -/
def movesLeft (p : WorkerPool α β) : Nat :=
  2 * p.waiting.length + (taken p.workers).length

/-- A move that can be made is one move less to make. -/
theorem movesLeft_step (work : α → β) {p : WorkerPool α β} {move : WorkerMove}
    (h : p.Possible move) : (p.step work move).movesLeft + 1 = p.movesLeft := by
  cases h with
  | @take worker job jobs idle next =>
      have htaken := (taken_set_some idle job).length_eq
      simp only [movesLeft, step, idle, next, htaken, List.length_cons]
      omega
  | handIn busy =>
      have htaken := (taken_set_none busy).length_eq
      simp only [movesLeft, step, busy, htaken, List.length_cons]
      omega

theorem Makes.movesLeft_eq {work : α → β} {p q : WorkerPool α β}
    {schedule : List WorkerMove} (h : Makes work p schedule q) :
    schedule.length + q.movesLeft = p.movesLeft := by
  induction h with
  | nil => exact Nat.zero_add _
  | cons possible _ ih =>
      have hstep := movesLeft_step work possible
      rw [List.length_cons]
      omega

theorem Makes.eq_run {work : α → β} {p q : WorkerPool α β}
    {schedule : List WorkerMove} (h : Makes work p schedule q) :
    q = p.run work schedule := by
  induction h with
  | nil => rfl
  | cons _ _ ih => exact ih

theorem movesLeft_start (workers : Nat) (items : List α) :
    (start workers items : WorkerPool α β).movesLeft = 2 * items.length := by
  simp only [movesLeft, start, taken_replicate_none, length_numbered]
  rfl

/-- However the workers move, at some point none of them can. -/
theorem exists_makes_stuck (work : α → β) (p : WorkerPool α β) :
    ∃ schedule q, Makes work p schedule q ∧ q.Stuck := by
  -- on the moves left: a pool that is not stuck makes one of them
  induction hleft : p.movesLeft using Nat.strongRecOn generalizing p with
  | ind left ih =>
      by_cases hmove : ∃ move, p.Possible move
      · obtain ⟨move, hpossible⟩ := hmove
        have hstep := movesLeft_step work hpossible
        obtain ⟨schedule, q, hmade, hstuck⟩ :=
          ih (p.step work move).movesLeft (by omega) _ rfl
        exact ⟨move :: schedule, q, .cons hpossible hmade, hstuck⟩
      · exact ⟨[], p, .nil, fun move hpossible => hmove ⟨move, hpossible⟩⟩

/-- Workers that cannot move have nothing left to do. -/
theorem isDone_of_stuck {p : WorkerPool α β} (hstuck : p.Stuck)
    (hsome : 0 < p.workers.length) : p.isDone = true := by
  have hidle : ∀ worker ∈ p.workers, worker = none := by
    intro worker hmem
    obtain ⟨place, hlt, hat⟩ := List.mem_iff_getElem.mp hmem
    cases worker with
    | none => rfl
    | some job =>
        have hbusy : p.workers[place]? = some (some job) := by
          rw [List.getElem?_eq_getElem hlt, hat]
        exact absurd (.handIn hbusy) (hstuck (.handIn place))
  have hwaiting : p.waiting = [] := by
    cases hnext : p.waiting with
    | nil => rfl
    | cons job jobs =>
        have hfirst : p.workers[0]? = some none := by
          rw [List.getElem?_eq_getElem hsome, hidle _ (List.getElem_mem hsome)]
        exact absurd (.take hfirst hnext) (hstuck (.take 0))
  rw [isDone, hwaiting, Bool.and_eq_true]
  exact ⟨rfl, List.all_eq_true.mpr fun worker hmem => by rw [hidle worker hmem]; rfl⟩

/-! ## One list of results -/

/-- Results that come of sharing out are the items in order, each worked on. -/
theorem SharesOut.eq_map {work : α → β} {workers : Nat} {items : List α}
    {results : List β} (h : SharesOut work workers items results) :
    results = items.map work := by
  cases h with
  | inTurn => rfl
  | pooled many made stuck =>
      have hrun := made.eq_run
      have hsome := length_workers_run work
        (start (min workers items.length) items) ‹_›
      rw [← hrun, start, List.length_replicate] at hsome
      have hdone := isDone_of_stuck stuck (by omega)
      subst hrun
      exact collect_run hdone

/-- Sharing out comes to the items in order, each worked on, and to nothing
else. -/
theorem sharesOut_iff {work : α → β} {workers : Nat} {items : List α}
    {results : List β} :
    SharesOut work workers items results ↔ results = items.map work := by
  refine ⟨SharesOut.eq_map, fun hresults => ?_⟩
  subst hresults
  by_cases hfew : min workers items.length ≤ 1
  · exact .inTurn hfew
  · obtain ⟨schedule, p, hmade, hstuck⟩ :=
      exists_makes_stuck work (start (min workers items.length) items)
    have hshared : SharesOut work workers items p.collect :=
      .pooled (Nat.lt_of_not_le hfew) hmade hstuck
    rwa [hshared.eq_map] at hshared

end WorkerPool

/-! ## Resolution shared out -/

namespace DocumentRoot

/-- The resolution can come of sharing both phases out to that many workers,
each phase in a way of its own. -/
inductive Resolves (r : DocumentRoot) (workers : Nat) : Resolution → Prop
  | mk {locals globals : List (Document × List Diagnostic)} {settled : DocumentRoot}
      (first : WorkerPool.SharesOut Document.localPhase workers r.documents locals)
      (between : settled = r.skeleton.attach (locals.map (·.1)))
      (second : WorkerPool.SharesOut (Document.globalPhase (.build settled)) workers
        settled.documents globals) :
      Resolves r workers
        { diagnostics :=
            ((locals.map (·.2)).zipWith (· ++ ·) (globals.map (·.2))).flatten
          root := settled.skeleton.attach (globals.map (·.1)) }

theorem resolves_iff {r : DocumentRoot} {workers : Nat} (other : Nat)
    {resolution : Resolution} :
    r.Resolves workers resolution ↔ resolution = r.resolve other := by
  have hshared : ∀ {α β : Type} (work : α → β) (items : List α),
      WorkerPool.SharesOut work workers items
        (WorkerPool.mapInOrder work other items) := fun work items =>
    WorkerPool.sharesOut_iff.mpr (WorkerPool.mapInOrder_eq_map work other items)
  constructor
  · rintro ⟨first, rfl, second⟩
    rw [first.eq_map] at second ⊢
    rw [second.eq_map]
    simp only [resolve, phase, detach_eq, WorkerPool.mapInOrder_eq_map]
  · rintro rfl
    simp only [resolve, phase, detach_eq]
    exact .mk (hshared _ _) rfl (hshared _ _)

/-- Work that is shared out ends after at most two moves per item, always with
the items in order, each worked on. So what resolution comes to does not show
how many workers there were, nor in which order they moved. -/
theorem schedule_irrelevant :
    (∀ {α β : Type} (work : α → β) (workers : Nat) (items : List α),
      (∀ schedule p, WorkerPool.Makes work (WorkerPool.start workers items) schedule p →
        schedule.length ≤ 2 * items.length)
      ∧ ∀ results, WorkerPool.SharesOut work workers items results
          ↔ results = items.map work)
    ∧ ∀ (r : DocumentRoot) (workers other : Nat) (resolution : Resolution),
      r.Resolves workers resolution ↔ resolution = r.resolve other := by
  refine ⟨fun work workers items => ⟨fun schedule p hmade => ?_, fun results => ?_⟩,
    fun r workers other resolution => resolves_iff other⟩
  · have hmoves := hmade.movesLeft_eq
    rw [WorkerPool.movesLeft_start] at hmoves
    omega
  · exact WorkerPool.sharesOut_iff

/-- Two workers and three items, where the second worker overtakes the first:
the results come in last to first, and leave in order. -/
theorem schedule_irrelevant_overtaking :
    WorkerPool.Makes (· + 1) (WorkerPool.start 2 [10, 20, 30])
        [.take 0, .take 1, .handIn 1, .take 1, .handIn 1, .handIn 0]
        ⟨[], [none, none], [(1, 21), (2, 31), (0, 11)]⟩
      ∧ [WorkerMove.take 0, .take 1, .handIn 1, .take 1, .handIn 1, .handIn 0].length
        ≤ 2 * [10, 20, 30].length
      ∧ WorkerPool.SharesOut (· + 1) 2 [10, 20, 30] [11, 21, 31] := by
  have hmade : WorkerPool.Makes (· + 1) (WorkerPool.start 2 [10, 20, 30])
      [.take 0, .take 1, .handIn 1, .take 1, .handIn 1, .handIn 0]
      ⟨[], [none, none], [(1, 21), (2, 31), (0, 11)]⟩ :=
    .cons (.take rfl rfl) <| .cons (.take rfl rfl) <| .cons (.handIn rfl) <|
      .cons (.take rfl rfl) <| .cons (.handIn rfl) <| .cons (.handIn rfl) .nil
  obtain ⟨hmoves, hresults⟩ := schedule_irrelevant.1 (· + 1) 2 [10, 20, 30]
  exact ⟨hmade, hmoves _ _ hmade, (hresults _).mpr rfl⟩

end DocumentRoot

end Crosslink

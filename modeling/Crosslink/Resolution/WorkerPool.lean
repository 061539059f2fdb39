/-!
# A pool of workers

Jobs wait in a queue together with their place in the list they came from.
Any idle worker may take the job in front; whenever it is done, it hands in
the result with that place. `collect` sorts the results by place, so the
order of the moves does not show in the answer. A list of moves is a
schedule; `inRounds` is the one used by `mapInOrder`.
-/

namespace Crosslink

/-- The jobs of a run by where they are. -/
structure WorkerPool (α β : Type) where
  /-- Jobs nobody has taken yet, in order. -/
  waiting : List (Nat × α)
  /-- What each worker is busy with. -/
  workers : List (Option (Nat × α))
  /-- Results in the order they were handed in. -/
  handedIn : List (Nat × β)
deriving Repr, DecidableEq

inductive WorkerMove where
  | take (worker : Nat)
  | handIn (worker : Nat)
deriving Repr, DecidableEq

namespace WorkerPool

variable {α β : Type}

/-- Pairs every item with its place. -/
def numbered (items : List α) : List (Nat × α) := items.zipIdx.map Prod.swap

/-- All jobs wait and all workers are idle. -/
def start (workers : Nat) (items : List α) : WorkerPool α β :=
  ⟨numbered items, List.replicate workers none, []⟩

/-- Makes a move; one that is not possible changes nothing. -/
def step (work : α → β) (p : WorkerPool α β) : WorkerMove → WorkerPool α β
  | .take worker =>
    match p.workers[worker]?, p.waiting with
    | some none, job :: jobs =>
      { p with waiting := jobs, workers := p.workers.set worker (some job) }
    | _, _ => p
  | .handIn worker =>
    match p.workers[worker]? with
    | some (some (place, item)) =>
      { p with
        workers := p.workers.set worker none
        handedIn := p.handedIn ++ [(place, work item)] }
    | _ => p

/-- Makes the moves of a schedule. -/
def run (work : α → β) (p : WorkerPool α β) (schedule : List WorkerMove) :
    WorkerPool α β :=
  schedule.foldl (step work) p

/-- Nothing is waiting or being worked on. -/
def isDone (p : WorkerPool α β) : Bool :=
  p.waiting.isEmpty && p.workers.all Option.isNone

/-- The results in the order of the places of their jobs. -/
def collect (p : WorkerPool α β) : List β :=
  (p.handedIn.mergeSort fun a b => decide (a.1 ≤ b.1)).map (·.2)

/-- In every round each worker takes a job, then each hands in, the last
one first. -/
def inRounds (workers : Nat) : (rounds : Nat) → List WorkerMove
  | 0 => []
  | rounds + 1 =>
    (List.range workers).map .take
      ++ ((List.range workers).reverse.map .handIn ++ inRounds workers rounds)

/-- Applies `work` to every item with at most the given number of workers;
the results are in the order of the items. One worker, or none, needs no
pool. -/
def mapInOrder (work : α → β) (workers : Nat) (items : List α) : List β :=
  let workers := min workers items.length
  if workers ≤ 1 then items.map work
  else
    ((start workers items).run work (inRounds workers items.length)).collect

end WorkerPool

end Crosslink

import SlotArray.Pool

/-! The threads of a pool at work. Jobs are queued one after another while the threads already run;
each thread takes the next job, renders it on its own, waits until no other thread has the document,
and files what it made. Who moves when is left open: a schedule says it, move by move. -/
namespace SlotArray

/-- A value brought between two limits. Limits that cross allow none. -/
def clamp? (low high value : Nat) : Option Nat :=
  if low ≤ high then some (max low (min value high)) else none

/-- The number of threads for a number of jobs, as long as the limits it is brought between do not
cross. -/
def poolSize? (workers jobs : Nat) : Option Nat :=
  (clamp? 1 maxWorkers jobs).bind fun limit => clamp? 1 limit workers

/-- The inner limits are never crossed, so there always is a number of threads. -/
theorem poolSize?_eq (workers jobs : Nat) : poolSize? workers jobs = some (poolSize workers jobs) := by
  have limit : clamp? 1 maxWorkers jobs = some (max 1 (min jobs maxWorkers)) := if_pos (by decide)
  have apart : 1 ≤ max 1 (min jobs maxWorkers) := Nat.le_max_left _ _
  rw [poolSize?, limit, Option.bind_some, clamp?, if_pos apart, poolSize]

/-- What one thread is doing. -/
inductive Worker where
  | idle
  | rendering (request : Request)
  /-- Has the text of a request and waits for the document. -/
  | waiting (request : Request) (text : String)
  /-- Has the document to itself. -/
  | filing (request : Request) (text : String)
deriving DecidableEq, Repr

/-- The request that a thread is busy with. -/
def Worker.request? : Worker → Option Request
  | .idle => none
  | .rendering request => some request
  | .waiting request _ => some request
  | .filing request _ => some request

def Worker.isFiling : Worker → Bool
  | .filing _ _ => true
  | _ => false

/-- A pool: the jobs that are still to be queued, the queue, the threads, and the document they
share. -/
structure Pool where
  ahead : List Request
  queue : List Request
  workers : List Worker
  document : Document
deriving DecidableEq, Repr

/-- Whose move it is: a job is queued, or a thread goes on. -/
inductive Turn where
  | submit
  | work (worker : Nat)
deriving DecidableEq, Repr

namespace Pool

/-- A pool before its first job. -/
def start (threads : Nat) (requests : List Request) : Pool :=
  ⟨requests, [], List.replicate threads .idle, .empty⟩

/-- Nothing is left to do. -/
def isDone (pool : Pool) : Bool :=
  pool.ahead.isEmpty && pool.queue.isEmpty && pool.workers.all (· == .idle)

/-- Makes one move. There is none for a thread that has no job to take, or that waits while
another one has the document. -/
def move (extraDerives : List String) (pool : Pool) : Turn → Option Pool
  | .submit =>
    match pool.ahead with
    | [] => none
    | request :: rest => some { pool with ahead := rest, queue := pool.queue ++ [request] }
  | .work i =>
    match pool.workers[i]? with
    | none => none
    | some .idle =>
      match pool.queue with
      | [] => none
      | request :: rest =>
        some { pool with queue := rest, workers := pool.workers.set i (.rendering request) }
    | some (.rendering request) =>
      let text := request.render extraDerives
      some { pool with workers := pool.workers.set i (.waiting request text) }
    | some (.waiting request text) =>
      if pool.workers.any Worker.isFiling then none
      else some { pool with workers := pool.workers.set i (.filing request text) }
    | some (.filing request text) =>
      some { pool with
        workers := pool.workers.set i .idle
        document := pool.document.append request.home text }

/-- Makes moves one after another. -/
def play (extraDerives : List String) (pool : Pool) : List Turn → Option Pool
  | [] => some pool
  | turn :: turns => (pool.move extraDerives turn).bind (play extraDerives · turns)

end Pool
end SlotArray

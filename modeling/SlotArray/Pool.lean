import SlotArray.Definition
import SlotArray.Document
import SlotArray.Fault

/-! The threads that render requests, and the document they fill. -/
namespace SlotArray

/-- The number of threads started for a number of jobs: no more than asked for, than there are
jobs, or than the limit, but one at least. -/
def poolSize (workers jobs : Nat) : Nat :=
  max 1 (min workers (max 1 (min jobs maxWorkers)))

/-- Some thread is started, whatever was asked for. -/
theorem poolSize_pos (workers jobs : Nat) : 0 < poolSize workers jobs := by
  unfold poolSize
  omega

/-- No more threads are started than there are jobs, the first one apart. -/
theorem poolSize_le_jobs (workers jobs : Nat) : poolSize workers jobs ≤ max 1 jobs := by
  unfold poolSize
  omega

theorem poolSize_le_maxWorkers (workers jobs : Nat) : poolSize workers jobs ≤ maxWorkers := by
  unfold poolSize maxWorkers
  omega

/-- Files the definition of a request. -/
def Document.addRequest (extraDerives : List String) (document : Document) (request : Request) :
    Document :=
  document.append request.home (request.render extraDerives)

/-- The document of requests whose definitions are filed in the order given. -/
def Document.ofRequests (extraDerives : List String) (requests : List Request) : Document :=
  requests.foldl (Document.addRequest extraDerives) .empty

theorem Document.size_foldl_addRequest (extraDerives : List String) (requests : List Request)
    (document : Document) :
    (requests.foldl (Document.addRequest extraDerives) document).size =
      document.size + requests.length := by
  induction requests generalizing document with
  | nil => simp
  | cons first rest ih =>
    rw [List.foldl_cons, ih]
    simp only [Document.addRequest, Document.size_append, List.length_cons]
    omega

/-- A document has a definition for each request. -/
theorem Document.size_ofRequests (extraDerives : List String) (requests : List Request) :
    (Document.ofRequests extraDerives requests).size = requests.length := by
  rw [Document.ofRequests, Document.size_foldl_addRequest, Document.size_empty]
  omega

end SlotArray

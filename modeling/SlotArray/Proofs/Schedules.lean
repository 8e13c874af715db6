import Mathlib.Algebra.Order.Ring.Nat
import SlotArray.Pool.Schedule
import SlotArray.Proofs.Sections

/-! What the threads of a pool can come to. A move never loses a job and never makes one up, so
whatever the schedule, the document holds the whole texts of requests that were queued, each once;
every move leaves one less to make, and until nothing is left some move can be made. -/
namespace SlotArray
variable {extraDerives : List String} {requests : List Request} {threads : Nat}

namespace Pool
variable {pool next last : Pool}

/-- The requests that threads are busy with. -/
def hands (pool : Pool) : List Request := pool.workers.filterMap Worker.request?

/-- The moves of a pool, each with all that it changes. -/
inductive Step (extraDerives : List String) : Pool → Pool → Prop where
  | submit {request : Request} {ahead queue : List Request} {workers : List Worker}
      {document : Document} :
      Step extraDerives ⟨request :: ahead, queue, workers, document⟩
        ⟨ahead, queue ++ [request], workers, document⟩
  | take {request : Request} {ahead queue : List Request} {before after : List Worker}
      {document : Document} :
      Step extraDerives ⟨ahead, request :: queue, before ++ .idle :: after, document⟩
        ⟨ahead, queue, before ++ .rendering request :: after, document⟩
  | render {request : Request} {ahead queue : List Request} {before after : List Worker}
      {document : Document} :
      Step extraDerives ⟨ahead, queue, before ++ .rendering request :: after, document⟩
        ⟨ahead, queue, before ++ .waiting request (request.render extraDerives) :: after, document⟩
  | acquire {request : Request} {text : String} {ahead queue : List Request}
      {before after : List Worker} {document : Document}
      (free : ∀ worker ∈ before ++ after, worker.isFiling = false) :
      Step extraDerives ⟨ahead, queue, before ++ .waiting request text :: after, document⟩
        ⟨ahead, queue, before ++ .filing request text :: after, document⟩
  | file {request : Request} {text : String} {ahead queue : List Request}
      {before after : List Worker} {document : Document} :
      Step extraDerives ⟨ahead, queue, before ++ .filing request text :: after, document⟩
        ⟨ahead, queue, before ++ .idle :: after, document.append request.home text⟩

/-- A thread among the others, and what putting another state in its place comes to. -/
private theorem exists_split {workers : List Worker} {i : Nat} {worker : Worker}
    (there : workers[i]? = some worker) :
    ∃ before after, workers = before ++ worker :: after ∧
      ∀ other, workers.set i other = before ++ other :: after := by
  obtain ⟨bound, same⟩ := List.getElem?_eq_some_iff.mp there
  refine ⟨workers.take i, workers.drop (i + 1), ?_, fun other => ?_⟩
  · rw [← same, ← List.drop_eq_getElem_cons bound, List.take_append_drop]
  · exact List.set_eq_take_append_cons_drop.trans (if_pos bound)

/-- A move is one of the steps. -/
theorem step_of_move {turn : Turn} (moved : pool.move extraDerives turn = some next) :
    Step extraDerives pool next := by
  obtain ⟨ahead, queue, workers, document⟩ := pool
  cases turn with
  | submit =>
    cases ahead with
    | nil => cases moved
    | cons request ahead =>
      cases moved
      exact .submit
  | work i =>
    simp only [move] at moved
    split at moved
    · cases moved
    · rename_i there
      obtain ⟨before, after, rfl, placed⟩ := exists_split there
      split at moved
      · cases moved
      · cases moved
        rw [placed]
        exact .take
    · rename_i request there
      obtain ⟨before, after, rfl, placed⟩ := exists_split there
      cases moved
      rw [placed]
      exact .render
    · rename_i request text there
      obtain ⟨before, after, rfl, placed⟩ := exists_split there
      split at moved
      · cases moved
      · rename_i free
        cases moved
        rw [placed]
        refine .acquire fun worker mem => Bool.eq_false_iff.mpr fun filing => free ?_
        have known : worker ∈ before ++ .waiting request text :: after :=
          ((List.sublist_cons_self _ after).append_left before).subset mem
        exact List.any_eq_true.mpr ⟨worker, known, filing⟩
    · rename_i request text there
      obtain ⟨before, after, rfl, placed⟩ := exists_split there
      cases moved
      rw [placed]
      exact .file

/-- Moves one after another keep what every step keeps. -/
theorem play_induction {P : Pool → Prop}
    (kept : ∀ {pool next}, Step extraDerives pool next → P pool → P next) {turns : List Turn}
    (holds : P pool) (played : pool.play extraDerives turns = some last) : P last := by
  induction turns generalizing pool with
  | nil =>
    cases played
    exact holds
  | cons turn turns ih =>
    obtain ⟨next, moved, played⟩ := Option.bind_eq_some_iff.mp played
    exact ih (kept (step_of_move moved) holds) played

end Pool

namespace Worker

/-- A text on its way into the document is that of its request. -/
def IsTrue (extraDerives : List String) : Worker → Prop
  | .waiting request text => text = request.render extraDerives
  | .filing request text => text = request.render extraDerives
  | _ => True

/-- The moves a thread has to make until it is idle. -/
def left : Worker → Nat
  | .idle => 0
  | .filing _ _ => 1
  | .waiting _ _ => 2
  | .rendering _ => 3

end Worker

namespace Pool
variable {pool next last : Pool}

/-! ## What the document holds -/

/-- The books of a pool: `filed` are the requests whose texts are in the document, in the order they
were filed. With what the threads are busy with, they are what was taken off the queue so far. -/
structure Accounts (extraDerives : List String) (requests : List Request) (threads : Nat) (pool : Pool)
    (filed : List Request) : Prop where
  count : pool.workers.length = threads
  document : pool.document = .ofRequests extraDerives filed
  texts : ∀ worker ∈ pool.workers, worker.IsTrue extraDerives
  exclusive : pool.workers.countP Worker.isFiling ≤ 1
  jobs : ∃ taken, taken ++ pool.queue ++ pool.ahead = requests ∧ (filed ++ pool.hands).Perm taken ∧
    (threads = 1 → filed ++ pool.hands = taken)

theorem accounts_start (extraDerives : List String) (requests : List Request) (threads : Nat) :
    (start threads requests).Accounts extraDerives requests threads [] where
  count := List.length_replicate
  document := rfl
  texts worker mem := by
    rw [List.eq_of_mem_replicate mem]
    trivial
  exclusive := by
    have none : (List.replicate threads Worker.idle).countP Worker.isFiling = 0 :=
      List.countP_eq_zero.mpr fun worker mem => by simp [List.eq_of_mem_replicate mem, Worker.isFiling]
    exact none.le.trans (Nat.zero_le 1)
  jobs := by
    have idle : (start threads requests).hands = [] :=
      List.filterMap_eq_nil_iff.mpr fun worker mem => by
        simp [List.eq_of_mem_replicate mem, Worker.request?]
    exact ⟨[], rfl, by simp [idle], fun _ => by simp [idle]⟩

/-- Only a thread that is alone has nobody beside it. -/
private theorem nil_of_length {worker : Worker} {before after : List Worker}
    (single : (before ++ worker :: after).length = 1) : before = [] ∧ after = [] := by
  rw [List.length_append, List.length_cons] at single
  exact ⟨List.eq_nil_of_length_eq_zero (by omega), List.eq_nil_of_length_eq_zero (by omega)⟩

/-- One thread goes on; the others keep the texts that they have. -/
private theorem texts_of_swap {old new : Worker} {before after : List Worker}
    (texts : ∀ worker ∈ before ++ old :: after, worker.IsTrue extraDerives)
    (whole : new.IsTrue extraDerives) :
    ∀ worker ∈ before ++ new :: after, worker.IsTrue extraDerives := by
  rw [List.forall_mem_append, List.forall_mem_cons] at texts ⊢
  exact ⟨texts.1, whole, texts.2.2⟩

private theorem count_of_swap {old : Worker} {before after : List Worker}
    (count : (before ++ old :: after).length = threads) (new : Worker) :
    (before ++ new :: after).length = threads := by
  rw [List.length_append, List.length_cons] at count ⊢
  exact count

/-- The request of one thread among those of all. -/
private theorem hands_split (ahead queue : List Request) (before after : List Worker) (worker : Worker)
    (document : Document) :
    hands ⟨ahead, queue, before ++ worker :: after, document⟩ =
      before.filterMap Worker.request? ++
        (worker.request?.toList ++ after.filterMap Worker.request?) := by
  rw [hands, List.filterMap_append, List.filterMap_cons]
  cases worker.request? <;> rfl

/-- The books are kept by every step: a text is filed when a thread lets go of the document. -/
theorem Accounts.step {filed : List Request} (accounts : pool.Accounts extraDerives requests threads filed)
    (step : Step extraDerives pool next) : ∃ filed, next.Accounts extraDerives requests threads filed := by
  obtain ⟨count, document, texts, exclusive, taken, split, perm, inOrder⟩ := accounts
  cases step with
  | submit =>
    refine ⟨filed, count, document, texts, exclusive, taken, ?_, perm, inOrder⟩
    simpa using split
  | @take request ahead queue before after document' =>
    simp only [hands_split, Worker.request?, Option.toList_none, List.nil_append] at perm inOrder
    refine ⟨filed, count_of_swap count _, document, texts_of_swap texts trivial, ?_,
      taken ++ [request], ?_, ?_, fun alone => ?_⟩
    · simpa [List.countP_cons, Worker.isFiling] using exclusive
    · simpa using split
    · rw [hands_split]
      calc filed ++ (before.filterMap Worker.request? ++ request :: after.filterMap Worker.request?)
        _ |>.Perm (filed ++ request :: (before.filterMap Worker.request? ++
              after.filterMap Worker.request?)) := List.perm_middle.append_left filed
        _ |>.Perm (request :: (filed ++ (before.filterMap Worker.request? ++
              after.filterMap Worker.request?))) := List.perm_middle
        _ |>.Perm (request :: taken) := perm.cons request
        _ |>.Perm (taken ++ [request]) := (List.perm_append_singleton request taken).symm
    · obtain ⟨rfl, rfl⟩ := nil_of_length (count.trans alone)
      rw [hands_split, ← inOrder alone]
      simp [Worker.request?]
  | @render request ahead queue before after document' =>
    exact ⟨filed, count_of_swap count _, document, texts_of_swap texts rfl,
      by simpa [List.countP_cons, Worker.isFiling] using exclusive, taken, split,
      by simpa only [hands_split, Worker.request?] using perm,
      by simpa only [hands_split, Worker.request?] using inOrder⟩
  | @acquire request text ahead queue before after document' free =>
    have whole : (Worker.waiting request text).IsTrue extraDerives :=
      texts _ (List.mem_append_right _ List.mem_cons_self)
    have none : (before ++ after).countP Worker.isFiling = 0 :=
      List.countP_eq_zero.mpr fun worker mem => Bool.eq_false_iff.mp (free worker mem)
    refine ⟨filed, count_of_swap count _, document, texts_of_swap texts whole, ?_, taken, split,
      by simpa only [hands_split, Worker.request?] using perm,
      by simpa only [hands_split, Worker.request?] using inOrder⟩
    rw [List.countP_append] at none
    rw [List.countP_append, List.countP_cons]
    simp only [Worker.isFiling, ↓reduceIte]
    omega
  | @file request text ahead queue before after document' =>
    have whole : text = request.render extraDerives :=
      texts (.filing request text) (List.mem_append_right _ List.mem_cons_self)
    refine ⟨filed ++ [request], count_of_swap count _, ?_, texts_of_swap texts trivial, ?_, taken,
      split, ?_, fun alone => ?_⟩
    · rw [Document.ofRequests_append_singleton, ← document, whole]
    · rw [List.countP_append, List.countP_cons] at exclusive ⊢
      simp only [Worker.isFiling, Bool.false_eq_true, ↓reduceIte] at exclusive ⊢
      omega
    · rw [hands_split] at perm ⊢
      rw [List.append_assoc, List.singleton_append]
      exact (List.perm_middle.symm.append_left filed).trans perm
    · obtain ⟨rfl, rfl⟩ := nil_of_length (count.trans alone)
      rw [hands_split, ← inOrder alone, hands_split]
      simp [Worker.request?]

theorem accounts_of_play {turns : List Turn}
    (played : (start threads requests).play extraDerives turns = some pool) :
    ∃ filed, pool.Accounts extraDerives requests threads filed :=
  play_induction (P := fun pool => ∃ filed, pool.Accounts extraDerives requests threads filed)
    (fun step ⟨_, accounts⟩ => accounts.step step)
    ⟨[], accounts_start extraDerives requests threads⟩ played

/-- Once nothing is left to do, every request is filed. -/
theorem Accounts.of_isDone {filed : List Request}
    (accounts : pool.Accounts extraDerives requests threads filed) (done : pool.isDone = true) :
    filed.Perm requests ∧ (threads = 1 → filed = requests) := by
  obtain ⟨_, _, _, _, taken, split, perm, inOrder⟩ := accounts
  simp only [isDone, Bool.and_eq_true, List.isEmpty_iff, List.all_eq_true, beq_iff_eq] at done
  obtain ⟨⟨ahead, queue⟩, idle⟩ := done
  have free : pool.hands = [] :=
    List.filterMap_eq_nil_iff.mpr fun worker mem => by rw [idle worker mem, Worker.request?]
  rw [ahead, queue, List.append_nil, List.append_nil] at split
  rw [free, List.append_nil, split] at perm inOrder
  exact ⟨perm, inOrder⟩

/-- Only whole texts are in the document, each that of a request of its own. -/
theorem Accounts.subperm {filed : List Request}
    (accounts : pool.Accounts extraDerives requests threads filed) : filed.Subperm requests := by
  obtain ⟨_, _, _, _, taken, split, perm, _⟩ := accounts
  have some : filed.Subperm taken := (List.sublist_append_left filed pool.hands).subperm.trans perm.subperm
  rw [List.append_assoc] at split
  exact some.trans (split ▸ (List.sublist_append_left taken _).subperm)

/-! ## How long it takes -/

/-- The moves that are left to make: five for a job, of which the first one queues it. -/
def left (pool : Pool) : Nat :=
  5 * pool.ahead.length + 4 * pool.queue.length + (pool.workers.map Worker.left).sum

theorem left_start (threads : Nat) (requests : List Request) :
    (start threads requests).left = 5 * requests.length := by
  simp [left, start, Worker.left]

/-- A step is one move of those that are left. -/
theorem left_of_step (step : Step extraDerives pool next) : pool.left = next.left + 1 := by
  cases step <;>
    simp only [left, List.length_cons, List.length_append, List.length_nil, List.map_append,
      List.map_cons, List.sum_append_nat, List.sum_cons, Worker.left] <;>
    omega

theorem left_of_play {turns : List Turn} (played : pool.play extraDerives turns = some last) :
    pool.left = last.left + turns.length := by
  induction turns generalizing pool with
  | nil =>
    cases played
    rfl
  | cons turn turns ih =>
    obtain ⟨next, moved, played⟩ := Option.bind_eq_some_iff.mp played
    rw [left_of_step (step_of_move moved), ih played, List.length_cons]
    omega

/-- No two threads wait for each other: as long as something is left to do, someone can move. -/
theorem exists_move (extraDerives : List String) (staffed : pool.workers ≠ [])
    (unfinished : pool.isDone = false) : ∃ turn next, pool.move extraDerives turn = some next := by
  by_cases filing : ∃ worker ∈ pool.workers, worker.isFiling = true
  · obtain ⟨worker, mem, isFiling⟩ := filing
    obtain ⟨i, there⟩ := List.mem_iff_getElem?.mp mem
    cases worker with
    | filing request text => exact ⟨.work i, _, by rw [move, there]⟩
    | idle | rendering | waiting => cases isFiling
  by_cases busy : ∃ worker ∈ pool.workers, worker ≠ .idle
  · obtain ⟨worker, mem, notIdle⟩ := busy
    obtain ⟨i, there⟩ := List.mem_iff_getElem?.mp mem
    cases worker with
    | idle => exact absurd rfl notIdle
    | rendering request => exact ⟨.work i, _, by rw [move, there]⟩
    | waiting request text =>
      have free : ¬ pool.workers.any Worker.isFiling = true := by simpa using filing
      exact ⟨.work i, _, by rw [move, there]; exact if_neg free⟩
    | filing request text => exact absurd ⟨_, mem, rfl⟩ filing
  have idle : ∀ worker ∈ pool.workers, worker = .idle := by simpa using busy
  obtain ⟨ahead, queue, workers, document⟩ := pool
  cases queue with
  | cons request queue =>
    obtain ⟨worker, others, rfl⟩ := List.exists_cons_of_ne_nil staffed
    obtain rfl := idle worker List.mem_cons_self
    exact ⟨.work 0, _, rfl⟩
  | nil =>
    cases ahead with
    | cons request ahead => exact ⟨.submit, _, rfl⟩
    | nil =>
      have done : isDone ⟨[], [], workers, document⟩ = true := by
        simpa [isDone] using idle
      rw [done] at unfinished
      cases unfinished

private theorem staffed_of_step (step : Step extraDerives pool next) : next.workers ≠ [] ∨ pool.workers = [] := by
  cases step with
  | submit => exact Classical.or_iff_not_imp_right.mpr id
  | _ => exact .inl (List.append_ne_nil_of_right_ne_nil _ (List.cons_ne_nil _ _))

/-- Wherever it stands, a pool with a thread can be played to its end. -/
theorem exists_finish (staffed : pool.workers ≠ []) :
    ∃ more last, pool.play extraDerives more = some last ∧ last.isDone = true := by
  induction remaining : pool.left generalizing pool with
  | zero =>
    cases done : pool.isDone with
    | true => exact ⟨[], pool, rfl, done⟩
    | false =>
      obtain ⟨turn, next, moved⟩ := exists_move extraDerives staffed done
      have less := left_of_step (step_of_move moved)
      omega
  | succ n ih =>
    cases done : pool.isDone with
    | true => exact ⟨[], pool, rfl, done⟩
    | false =>
      obtain ⟨turn, next, moved⟩ := exists_move extraDerives staffed done
      have step := step_of_move moved
      have less := left_of_step step
      obtain ⟨more, last, played, ended⟩ :=
        ih ((staffed_of_step step).resolve_right staffed) (by omega)
      exact ⟨turn :: more, last, Option.bind_eq_some_iff.mpr ⟨next, moved, played⟩, ended⟩

end Pool

/-! ## Every schedule -/

open Pool in
/-- However many threads are asked for, there is a number of them within the limits, and whatever
their schedule, the document is never used by two of them at once, holds whole texts of distinct
requests at every moment, and is complete after a bounded number of moves, which can always be
made. Then each module has the texts of its requests: in the order of the requests when there is
one thread, and in the one order there is when it has one request at most. -/
theorem schedules_fill_document (extraDerives : List String) (workers : Nat) (requests : List Request) :
    ∃ threads, poolSize? workers requests.length = some threads ∧ 1 ≤ threads ∧
      threads ≤ min maxWorkers (max 1 requests.length) ∧
      ∀ turns pool, (Pool.start threads requests).play extraDerives turns = some pool →
        pool.workers.length = threads ∧
        pool.workers.countP Worker.isFiling ≤ 1 ∧
        (∃ filed, filed.Subperm requests ∧ pool.document = .ofRequests extraDerives filed) ∧
        turns.length ≤ 5 * requests.length ∧
        (∃ more last, pool.play extraDerives more = some last ∧ last.isDone = true) ∧
        (pool.isDone = true →
          pool.document.size = requests.length ∧
          (∀ home, (pool.document.definitionsOf home).Perm
            ((requests.filter (·.home = home)).map (·.render extraDerives))) ∧
          (threads = 1 → ∀ home, pool.document.definitionsOf home =
            (requests.filter (·.home = home)).map (·.render extraDerives)) ∧
          ((requests.map Request.home).Nodup →
            pool.document.render = (Document.ofRequests extraDerives requests).render)) := by
  have jobs := poolSize_le_jobs workers requests.length
  have limit := poolSize_le_maxWorkers workers requests.length
  refine ⟨poolSize workers requests.length, poolSize?_eq _ _, poolSize_pos _ _, by omega,
    fun turns pool played => ?_⟩
  obtain ⟨filed, accounts⟩ := accounts_of_play played
  have staffed : pool.workers ≠ [] := by
    have some := poolSize_pos workers requests.length
    rw [← accounts.count] at some
    exact List.ne_nil_of_length_pos some
  have moves := left_of_play played
  rw [left_start] at moves
  refine ⟨accounts.count, accounts.exclusive, ⟨filed, accounts.subperm, accounts.document⟩,
    by omega, exists_finish staffed, fun done => ?_⟩
  obtain ⟨perm, inOrder⟩ := accounts.of_isDone done
  rw [accounts.document]
  refine ⟨(Document.size_ofRequests extraDerives filed).trans perm.length_eq, fun home => ?_,
    fun single home => ?_, fun single => ?_⟩
  · rw [Document.definitionsOf_ofRequests]
    exact (perm.filter _).map _
  · rw [inOrder single, Document.definitionsOf_ofRequests]
  · rw [Document.ofRequests_of_perm perm single]

end SlotArray

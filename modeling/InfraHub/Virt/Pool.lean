import InfraHub.Lib.Run
import InfraHub.Lib.Slots

/-!
# Virt — Pool

The worker pool of `celery_base.py` under a number of `sync_all_platform_data` tasks: threads that
take messages from one queue, in its order.

A `sync_all_platform_data` sends the five tasks of its group to the same queue and keeps its thread
until they are through.  `never_starved_iff` says that some order of steps blocks the pool exactly
if there are as many of these tasks as threads.
-/

namespace InfraHub.Virt.Pool
open InfraHub.Lib (Run countP_set_add)

/-- The tasks of the group. -/
inductive Subtask
  | sync_platform_info
  | sync_hosts
  | sync_vms
  | sync_datastores
  | sync_templates
  deriving DecidableEq, Repr

def group : List Subtask :=
  [.sync_platform_info, .sync_hosts, .sync_vms, .sync_datastores, .sync_templates]

/-- A message; a `sync_all_platform_data` is known by the number of its message. -/
inductive Message
  | sync_all_platform_data (task : Nat)
  | subtask (parent : Nat) (sub : Subtask)
  deriving DecidableEq, Repr

inductive Thread
  | idle
  /-- `job.apply_async()`: the messages still to send -/
  | sending (task : Nat) (rest : List Subtask)
  /-- `result.get(timeout=600)` -/
  | waiting (task : Nat)
  | running (parent : Nat) (sub : Subtask)
  deriving DecidableEq, Repr

structure State where
  queue : List Message
  threads : List Thread
  finished : List (Nat × Subtask)
  deriving DecidableEq, Repr

/-- What a thread does next. -/
inductive Event
  /-- take the first message -/
  | take (thread : Nat)
  /-- the platform is not there, or not active: return at once -/
  | absent (thread : Nat)
  /-- send the next message of the group, or start to wait -/
  | send (thread : Nat)
  | finish (thread : Nat)
  /-- `self.retry`: back into the queue -/
  | retry (thread : Nat)
  /-- `result.get` returns -/
  | get (thread : Nat)
  /-- `result.get` gives up -/
  | timeout (thread : Nat)
  deriving DecidableEq, Repr

/-- Thread `i` goes on as `thread`. -/
def State.goto (s : State) (i : Nat) (thread : Thread) : State :=
  { s with threads := s.threads.set i thread }

def next (s : State) : Event → Option State
  | .take i =>
      match s.threads[i]?, s.queue with
      | some .idle, .sync_all_platform_data task :: queue =>
          some ({ s with queue }.goto i (.sending task group))
      | some .idle, .subtask parent sub :: queue =>
          some ({ s with queue }.goto i (.running parent sub))
      | _, _ => none
  | .absent i =>
      match s.threads[i]? with
      | some (.sending _ rest) => if rest = group then some (s.goto i .idle) else none
      | _ => none
  | .send i =>
      match s.threads[i]? with
      | some (.sending task (sub :: rest)) =>
          some ({ s with queue := s.queue ++ [Message.subtask task sub] }.goto i (.sending task rest))
      | some (.sending task []) => some (s.goto i (.waiting task))
      | _ => none
  | .finish i =>
      match s.threads[i]? with
      | some (.running parent sub) =>
          some ({ s with finished := (parent, sub) :: s.finished }.goto i .idle)
      | _ => none
  | .retry i =>
      match s.threads[i]? with
      | some (.running parent sub) =>
          some ({ s with queue := s.queue ++ [Message.subtask parent sub] }.goto i .idle)
      | _ => none
  | .get i =>
      match s.threads[i]? with
      | some (.waiting task) =>
          if ∀ sub ∈ group, (task, sub) ∈ s.finished then some (s.goto i .idle) else none
      | _ => none
  | .timeout i =>
      match s.threads[i]? with
      | some (.waiting _) => some (s.goto i .idle)
      | _ => none

def Step (s : State) (e : Event) (t : State) : Prop := next s e = some t

/-- `threads` idle threads, and `tasks` messages. -/
def State.init (threads tasks : Nat) : State where
  queue := (List.range tasks).map .sync_all_platform_data
  threads := List.replicate threads .idle
  finished := []

/-- All threads wait, and a task that one of them waits for is in the queue. -/
def Starved (s : State) : Prop :=
  (∀ thread ∈ s.threads, ∃ task, thread = .waiting task) ∧
    ∃ task sub, .waiting task ∈ s.threads ∧ .subtask task sub ∈ s.queue

/-! ### Fewer tasks than threads -/

def Message.isParent : Message → Bool
  | .sync_all_platform_data _ => true
  | .subtask .. => false

def Thread.isParent : Thread → Bool
  | .sending .. | .waiting _ => true
  | .idle | .running .. => false

/-- The `sync_all_platform_data` tasks in the queue and in the threads. -/
def State.parents (s : State) : Nat :=
  s.queue.countP Message.isParent + s.threads.countP Thread.isParent

/-- A step of thread `i` that leaves no more tasks than before. -/
theorem parents_goto {s : State} {i : Nat} {old new : Thread} {queue : List Message}
    {finished : List (Nat × Subtask)} (h : s.threads[i]? = some old)
    (hle : queue.countP Message.isParent + (if new.isParent then 1 else 0) ≤
      s.queue.countP Message.isParent + (if old.isParent then 1 else 0)) :
    ({ s with queue, finished }.goto i new).parents ≤ s.parents := by
  have := countP_set_add (a := new) Thread.isParent h
  simp only [State.parents, State.goto]
  omega

/-- No step adds a task to those that were queued at the start. -/
theorem parents_step {s t : State} {e : Event} (h : next s e = some t) :
    t.parents ≤ s.parents := by
  cases e with
  | take i =>
      simp only [next] at h
      split at h
      · next hi hq =>
        cases h
        exact parents_goto hi (by simp [hq, Message.isParent, Thread.isParent, List.countP_cons])
      · next hi hq =>
        cases h
        exact parents_goto hi (by simp [hq, Message.isParent, Thread.isParent])
      · cases h
  | absent i =>
      simp only [next] at h
      split at h
      · next hi =>
        obtain ⟨-, h⟩ := Option.ite_none_right_eq_some.mp h
        cases h
        exact parents_goto hi (by simp [Thread.isParent])
      · cases h
  | send i =>
      simp only [next] at h
      split at h
      · next hi =>
        cases h
        exact parents_goto hi (by simp [Message.isParent, Thread.isParent])
      · next hi =>
        cases h
        exact parents_goto hi (by simp [Thread.isParent])
      · cases h
  | finish i =>
      simp only [next] at h
      split at h
      · next hi =>
        cases h
        exact parents_goto hi (by simp [Thread.isParent])
      · cases h
  | retry i =>
      simp only [next] at h
      split at h
      · next hi =>
        cases h
        exact parents_goto hi (by simp [Message.isParent, Thread.isParent])
      · cases h
  | get i =>
      simp only [next] at h
      split at h
      · next hi =>
        obtain ⟨-, h⟩ := Option.ite_none_right_eq_some.mp h
        cases h
        exact parents_goto hi (by simp [Thread.isParent])
      · cases h
  | timeout i =>
      simp only [next] at h
      split at h
      · next hi =>
        cases h
        exact parents_goto hi (by simp [Thread.isParent])
      · cases h

/-- The number of threads stays. -/
theorem threads_step {s t : State} {e : Event} (h : next s e = some t) :
    t.threads.length = s.threads.length := by
  cases e <;> simp only [next] at h <;> split at h <;>
    simp_all only [reduceCtorEq, Option.some.injEq, Option.ite_none_right_eq_some] <;>
    first
      | (subst h; simp [State.goto])
      | (obtain ⟨-, rfl⟩ := h; simp [State.goto])

theorem not_starved {threads tasks : Nat} (hlt : tasks < threads) {l : List Event} {s : State}
    (r : Run Step (.init threads tasks) l s) : ¬ Starved s := by
  have hinv : s.parents ≤ tasks ∧ s.threads.length = threads := by
    refine r.invariant (I := fun s => s.parents ≤ tasks ∧ s.threads.length = threads)
      (fun s e t hs h => ?_) ⟨?_, List.length_replicate⟩
    · exact ⟨Nat.le_trans (parents_step h) hs.1, (threads_step h).trans hs.2⟩
    · have hall : ((List.range tasks).map Message.sync_all_platform_data).countP Message.isParent ≤
          tasks := by
        simpa using List.countP_le_length (p := Message.isParent)
          (l := (List.range tasks).map Message.sync_all_platform_data)
      have hnone : (List.replicate threads Thread.idle).countP Thread.isParent = 0 := by
        rw [List.countP_eq_zero]
        intro thread hmem
        rw [List.eq_of_mem_replicate hmem]
        exact Bool.false_ne_true
      simp only [State.parents, State.init]
      omega
  rintro ⟨hwait, -⟩
  have hall : s.threads.countP Thread.isParent = s.threads.length := by
    rw [List.countP_eq_length]
    intro thread hmem
    obtain ⟨task, rfl⟩ := hwait thread hmem
    rfl
  have hle := hinv.1
  rw [State.parents, hall, hinv.2] at hle
  omega

/-! ### As many tasks as threads -/

/-- The messages of a group. -/
def messages (task : Nat) : List Message := group.map (Message.subtask task)

/-- A thread takes a task, sends its group and waits. -/
theorem run_task (ws rest : List Thread) (task : Nat) (queue : List Message)
    (finished : List (Nat × Subtask)) :
    ∃ l, Run Step ⟨.sync_all_platform_data task :: queue, ws ++ .idle :: rest, finished⟩ l
      ⟨queue ++ messages task, ws ++ .waiting task :: rest, finished⟩ := by
  have hset (a b : Thread) : (ws ++ a :: rest).set ws.length b = ws ++ b :: rest := by simp
  have htake : Step ⟨.sync_all_platform_data task :: queue, ws ++ .idle :: rest, finished⟩
      (.take ws.length) ⟨queue, ws ++ .sending task group :: rest, finished⟩ := by
    simp [Step, next, State.goto, hset]
  have hsend (sub : Subtask) (subs : List Subtask) (queue : List Message) :
      Step ⟨queue, ws ++ .sending task (sub :: subs) :: rest, finished⟩ (.send ws.length)
        ⟨queue ++ [.subtask task sub], ws ++ .sending task subs :: rest, finished⟩ := by
    simp [Step, next, State.goto, hset]
  have hwait (queue : List Message) :
      Step ⟨queue, ws ++ .sending task [] :: rest, finished⟩ (.send ws.length)
        ⟨queue, ws ++ .waiting task :: rest, finished⟩ := by
    simp [Step, next, State.goto, hset]
  -- sending the messages one by one
  have hgroup (subs : List Subtask) (queue : List Message) :
      ∃ l, Run Step ⟨queue, ws ++ .sending task subs :: rest, finished⟩ l
        ⟨queue ++ subs.map (Message.subtask task), ws ++ .waiting task :: rest, finished⟩ := by
    induction subs generalizing queue with
    | nil =>
        rw [List.map_nil, List.append_nil]
        exact ⟨_, .one (hwait queue)⟩
    | cons sub subs ih =>
        obtain ⟨l, r⟩ := ih (queue ++ [.subtask task sub])
        rw [List.append_assoc] at r
        exact ⟨_, .cons (hsend sub subs queue) r⟩
  obtain ⟨l, r⟩ := hgroup group queue
  exact ⟨_, .cons htake r⟩

/-- The threads one after another. -/
theorem run_tasks (tasks : List Nat) (ws : List Thread) (queue : List Message)
    (finished : List (Nat × Subtask)) :
    ∃ l, Run Step
      ⟨tasks.map .sync_all_platform_data ++ queue, ws ++ List.replicate tasks.length .idle, finished⟩ l
      ⟨queue ++ tasks.flatMap messages, ws ++ tasks.map .waiting, finished⟩ := by
  induction tasks generalizing ws queue with
  | nil => exact ⟨[], by simpa using .nil _⟩
  | cons task tasks ih =>
      obtain ⟨l₁, r₁⟩ := run_task ws (List.replicate tasks.length .idle) task
        (tasks.map .sync_all_platform_data ++ queue) finished
      obtain ⟨l₂, r₂⟩ := ih (ws ++ [.waiting task]) (queue ++ messages task)
      refine ⟨l₁ ++ l₂, ?_⟩
      have r := r₁.append (by simpa using r₂)
      simpa [List.replicate_succ] using r

theorem exists_starved {threads tasks : Nat} (hpos : 0 < threads) (hle : threads ≤ tasks) :
    ∃ l s, Run Step (.init threads tasks) l s ∧ Starved s := by
  obtain ⟨more, rfl⟩ := Nat.exists_eq_add_of_le hle
  obtain ⟨l, r⟩ := run_tasks (List.range threads) []
    (((List.range more).map (threads + ·)).map .sync_all_platform_data) []
  refine ⟨l, _, by simpa [State.init, List.range_add] using r, ?_, 0, .sync_hosts, ?_, ?_⟩
  · intro thread hmem
    obtain ⟨task, -, rfl⟩ := List.mem_map.mp hmem
    exact ⟨task, rfl⟩
  · exact List.mem_map_of_mem (List.mem_range.mpr hpos)
  · refine List.mem_append_right _ (List.mem_flatMap.mpr ⟨0, List.mem_range.mpr hpos, ?_⟩)
    exact List.mem_map_of_mem (by decide)

/-- One thread, and one platform. -/
def sampleBlocked : List Event :=
  [.take 0, .send 0, .send 0, .send 0, .send 0, .send 0, .send 0]

end InfraHub.Virt.Pool

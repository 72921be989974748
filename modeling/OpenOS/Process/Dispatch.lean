import OpenOS.Process.Reachable

/-! What `schedule` dispatches. `pick_next` takes the head of the highest non-empty queue, the
policy `scheduler.h` states ("The scheduler always runs the head of the highest non-empty
queue"), so at the moment of the pick no queued process has a smaller priority than the one
it takes. But `schedule` picks before it requeues the outgoing process: when the quantum of a
high-priority process runs out while only lower levels hold work, it goes back on its queue
above the process it handed the CPU to.

A process that `process_create` returns is already queued as ready, and `process_create`
re-enables interrupts before it returns; the user-mode fields are filled in by
`process_create_user` only afterwards, so a tick in between can dispatch it half built. -/
namespace OpenOS.Process

variable {s : State} {qs : Level → List Slot} {p : Slot}

/-- The scan of `pick_next` stops at the first level with a head; every level before it is
empty. -/
theorem pickFrom_some : ∀ {ls : List Level}, (pickFrom ls s).1 = some p →
    ∃ pre q post, ls = pre ++ q :: post ∧ s.queueHead q = some p ∧ ∀ q' ∈ pre, s.queueHead q' = none
  | [], pick => by simp [pickFrom] at pick
  | q :: ls, pick => by
    cases head : s.queueHead q with
    | none =>
      rw [pickFrom, head] at pick
      obtain ⟨pre, q', post, split, found, empty⟩ := pickFrom_some pick
      refine ⟨q :: pre, q', post, by rw [split]; rfl, found, ?_⟩
      intro q'' mem
      rcases List.mem_cons.mp mem with rfl | mem
      · exact head
      · exact empty q'' mem
    | some p' =>
      rw [pickFrom, head] at pick
      have same : p' = p := Option.some.inj pick
      exact ⟨[], q, ls, rfl, same ▸ head, by simp⟩

theorem lt_mem_of_levels {pre post : List Level} {q q' : Level} (split : levels = pre ++ q :: post)
    (lt : q' < q) : q' ∈ pre := by
  have sorted : (pre ++ q :: post).Pairwise (· < ·) := split ▸ List.pairwise_lt_finRange priorityLevels
  have mem : q' ∈ pre ++ q :: post := split ▸ List.mem_finRange q'
  rcases List.mem_append.mp mem with before | later
  · exact before
  · rcases List.mem_cons.mp later with rfl | after
    · exact absurd lt (lt_irrefl _)
    · have above : q < q' := (List.pairwise_cons.mp (List.pairwise_append.mp sorted).2.1).1 q' after
      exact absurd (lt.trans above) (lt_irrefl _)

theorem pickNext_highest (pick : (pickNext s).1 = some p) :
    ∃ q, s.queueHead q = some p ∧ ∀ q', q' < q → s.queueHead q' = none := by
  obtain ⟨pre, q, post, split, found, empty⟩ := pickFrom_some pick
  exact ⟨q, found, fun q' lt => empty q' (lt_mem_of_levels split lt)⟩

/-- At the moment of the pick, every ready process with a pid other than 0 has at least the
priority of the process `pick_next` takes. -/
theorem pickNext_priority_le (h : Sound s) (pick : (pickNext s).1 = some p) (r : Slot)
    (ready : (s.table r).state = .ready) (pid : (s.table r).pid ≠ 0) :
    (s.table p).priority ≤ (s.table r).priority := by
  obtain ⟨qs, hq, hc⟩ := h
  obtain ⟨q, found, empty⟩ := pickNext_highest pick
  have first : (qs q).head? = some p := by rw [← hq.head q]; exact found
  have pMem : p ∈ qs q := List.mem_of_mem_head? first
  obtain ⟨q', rMem⟩ := (hc.slot r).ready ready pid
  obtain ⟨-, -, pLevel⟩ := (hc.slot p).queued q pMem
  obtain ⟨-, -, rLevel⟩ := (hc.slot r).queued q' rMem
  -- a queue below `q` is empty, so `r` sits at `q` or above it
  have notBelow : ¬ q' < q := by
    intro lt
    have none : (qs q').head? = none := by rw [← hq.head q']; exact empty q' lt
    rw [List.head?_eq_none_iff] at none
    rw [none] at rMem
    exact List.not_mem_nil rMem
  rw [pLevel, rLevel]
  exact Fin.not_lt.mp notBelow

/-- A HIGH shell and a NORMAL worker created before the scheduler starts: `pick_next` takes
the shell, whose priority is at least the worker's. -/
theorem pickNext_priority_le_created :
    ((Runs.run ProcCall.apply [.create 1 priorityHigh 1, .create 1 priorityNormal 1] processInit).table ⟨1, by decide⟩).priority ≤ ((Runs.run ProcCall.apply [.create 1 priorityHigh 1, .create 1 priorityNormal 1] processInit).table ⟨2, by decide⟩).priority := by
  have allowed : Runs.Admissible Allowed ProcCall.apply [.create 1 priorityHigh 1, .create 1 priorityNormal 1]
      processInit := ⟨trivial, trivial, trivial⟩
  -- `pick_next` takes the shell in slot 1, and the worker in slot 2 is ready
  have facts : (pickNext (Runs.run ProcCall.apply [.create 1 priorityHigh 1, .create 1 priorityNormal 1] processInit)).1 = some ⟨1, by decide⟩ ∧
      ((Runs.run ProcCall.apply [.create 1 priorityHigh 1, .create 1 priorityNormal 1] processInit).table ⟨2, by decide⟩).state = .ready ∧ ((Runs.run ProcCall.apply [.create 1 priorityHigh 1, .create 1 priorityNormal 1] processInit).table ⟨2, by decide⟩).pid ≠ 0 := by
    set_option maxRecDepth 20000 in decide
  exact pickNext_priority_le (run_inv allowed).1 facts.1 ⟨2, by decide⟩ facts.2.1 facts.2.2

/-- The policy of `scheduler.h` as a property of a state: no ready process has a smaller
priority than the running one. -/
def StrictPriority (s : State) : Prop :=
  ∀ r, (s.table r).state = .ready → (s.table s.current).priority ≤ (s.table r).priority

/-- The shell (high priority) creates a normal-priority worker and keeps the CPU until its
quantum runs out on the fifth tick; `pick_next` then takes the worker, and only afterwards is
the shell requeued, ready, at the higher level. -/
theorem quantum_expiry_requeues_above_next :
    ¬ StrictPriority (Runs.run ProcCall.apply [.create 1 priorityHigh 1, .start, .tick,
      .create 1 priorityNormal 1, .tick, .tick, .tick, .tick, .tick] processInit) := by
  intro strict
  have shell := strict ⟨1, by decide⟩ (by decide +kernel)
  exact absurd shell (by decide +kernel)

theorem enqueue_table (p r : Slot) (s : State) :
    ∃ n w, (enqueue p s).table r = { s.table r with next := n, waitTicks := w } := by
  unfold enqueue
  split
  · exact ⟨_, _, rfl⟩
  · dsimp only
    split <;> simp only [State.modify_table, Function.update_apply] <;> split_ifs <;> subst_vars <;>
      exact ⟨_, _, rfl⟩

/-- `process_create` returns a process that is ready, and queued when its pid is not 0, while
it is still a kernel thread without a user stack. -/
theorem processCreate_unfinished {entry priority stack : Nat} {t : State}
    (created : processCreate entry priority stack s = (some p, t)) :
    (t.table p).state = .ready ∧ (t.table p).isUser = false ∧ (t.table p).ustack = 0 := by
  unfold processCreate at created
  split at created
  · cases created
  · split at created
    · cases created
    · rcases allocPcb_spec s with alloc | ⟨p', -, alloc⟩
      · rw [alloc] at created
        cases created
      · rw [alloc] at created
        simp only [Prod.mk.injEq, Option.some.injEq] at created
        obtain ⟨rfl, rfl⟩ := created
        obtain ⟨n, w, queued⟩ := enqueue_table p' p' _
        rw [queued]
        simp [Pcb.zero]

/-- The shell `process_create_user` starts from: ready, and still a kernel thread. -/
theorem processCreate_unfinished_shell :
    ((processCreate 1 priorityHigh 1 processInit).2.table ⟨1, by decide⟩).state = .ready ∧
      ((processCreate 1 priorityHigh 1 processInit).2.table ⟨1, by decide⟩).isUser = false ∧
      ((processCreate 1 priorityHigh 1 processInit).2.table ⟨1, by decide⟩).ustack = 0 :=
  processCreate_unfinished (Prod.ext (by decide) rfl)

/-- The user-mode fields of `p` are in place whenever `p` runs. -/
def UserFieldsSet (p : Slot) (s : State) : Prop :=
  s.current = p → (s.table p).isUser = true ∧ (s.table p).ustack ≠ 0

/-- The shell's quantum is down to one tick when it calls `process_create_user(uhello,
NORMAL)`, whose first half is `process_create` of the trampoline (entry `1` here); the tick
that arrives right after `process_create` has re-enabled interrupts dispatches the new
process in slot 2 before `is_user`, `ustack`, `ustack_top` and `user_entry` are set. -/
theorem user_process_dispatched_half_built :
    ¬ UserFieldsSet ⟨2, by decide⟩ (Runs.run ProcCall.apply [.create 1 priorityHigh 1, .start,
      .tick, .tick, .tick, .tick, .tick, .create 1 priorityNormal 1, .tick] processInit) := by
  intro fieldsSet
  have fields := fieldsSet (by decide +kernel)
  exact absurd fields.1 (by decide +kernel)

end OpenOS.Process

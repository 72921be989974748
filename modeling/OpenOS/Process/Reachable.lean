import OpenOS.Process.Schedule
import OpenOS.Process.Lifecycle

/-! Every entry point of the process layer keeps the invariant, so it holds in every state
that a run of calls reaches from `process_init`. The one exception is `process_exit` made
by the idle process: `kmain` only halts once it has started the scheduler, and `schedule`
treats an idle process that cannot run as impossible ("Idle blocked?! Should not happen").
A run in which it does exit ends with the current process on a ready queue. -/
namespace OpenOS.Process

open Linked

variable {s : State} {p : Slot}

theorem processByPid_some {pid : Nat} (h : processByPid pid s = some p) :
    (s.table p).state ≠ .unused ∧ (s.table p).pid = pid := by
  have found := List.find?_some h
  simpa using found

theorem allocPcb_spec (s : State) : allocPcb s = (none, s) ∨ ∃ p, (s.table p).state = .unused ∧
    allocPcb s = (some p, { s with
      table := Function.update s.table p { Pcb.zero with pid := s.nextPid },
      nextPid := (s.nextPid + 1) % 2^32 }) := by
  unfold allocPcb
  split
  · exact .inl rfl
  · next p found => exact .inr ⟨p, by simpa using List.find?_some found, rfl⟩

/-- The invariant between calls. -/
def Inv (s : State) : Prop := Sound s ∧ Running s

theorem Inv.install (h : Inv s) (unused : (s.table p).state = .unused) {t : State}
    (others : ∀ r, r ≠ p → t.table r = s.table r) (heads : t.queueHead = s.queueHead)
    (tails : t.queueTail = s.queueTail) (current : t.current = s.current)
    (started : t.started = s.started) (ready : (t.table p).state = .ready)
    (priority : (t.table p).priority ≤ (t.table p).basePriority)
    (basePriority : (t.table p).basePriority < priorityLevels) : Inv (enqueue p t) := by
  obtain ⟨⟨qs, hq, hc⟩, running⟩ := h
  have pend := hc.pending_install hq running unused others heads tails current started ready
    priority basePriority
  exact ⟨pend.sound, (running.install hc unused others current).keeps (enqueue_keeps p t)⟩

/-! ### Waking a parent -/

theorem wakeParent_sound (h : Sound s) (quiet : Quiet s) (child : Slot) :
    Sound (wakeParent child s) := by
  unfold wakeParent
  split
  · split
    · exact schedulerUnblock_sound h quiet
    · exact h
  · exact h

theorem Quiet.wakeParent (h : Quiet s) (child : Slot) : Quiet (wakeParent child s) := by
  unfold OpenOS.Process.wakeParent
  split
  · split
    · exact h.unblock
    · exact h
  · exact h

theorem Running.wakeParent (h : Running s) (child : Slot) : Running (wakeParent child s) := by
  unfold OpenOS.Process.wakeParent
  split
  · split
    · exact h.unblock
    · exact h
  · exact h

/-! ### Creation -/

/-- `process_create`: a fresh ready PCB in the first unused slot, queued at its priority. -/
theorem processCreate_inv (h : Inv s) (entry priority stack : Nat) :
    Inv (processCreate entry priority stack s).2 := by
  unfold processCreate
  split
  · exact h
  · next guard =>
    have level : priority < priorityLevels := by simp only [not_or, not_le] at guard; exact guard.2
    split
    · exact h
    · rcases allocPcb_spec s with alloc | ⟨p, unused, alloc⟩
      · rw [alloc]; exact h
      · rw [alloc]
        dsimp only
        refine h.install unused (fun r hr => by simp [hr]) rfl rfl rfl rfl (by simp) (by simp)
          (by simpa using level)

theorem processCreateUser_inv (h : Inv s) (priority ustack stack : Nat) :
    Inv (processCreateUser priority ustack stack s).2 := by
  unfold processCreateUser
  split
  · exact h
  · have created := processCreate_inv h 1 priority stack
    split
    · next t heq =>
      rw [heq] at created
      exact created
    · next p t heq =>
      rw [heq] at created
      dsimp only at created ⊢
      obtain ⟨sound, running⟩ := created
      refine ⟨sound.modify ?_ ?_, running.keeps (Keeps.modify t p ?_)⟩ <;> rfl

theorem sysFork_inv (h : Inv s) (kstack ustack : Nat) : Inv (sysFork kstack ustack s).2 := by
  unfold sysFork
  dsimp only
  split
  · exact h
  · split
    · exact h
    · split
      · exact h
      · next child found =>
        have unused : (s.table child).state = .unused := by simpa using List.find?_some found
        have current := h.1.choose_spec.2.slot s.current
        refine h.install unused (fun r hr => by simp [hr]) rfl rfl rfl rfl (by simp)
          (by simpa using current.priority) (by simpa using current.basePriority)

/-! ### Exit, kill, wait and sleep -/

theorem processExit_inv (h : Sound s) (notIdle : s.current ≠ idleSlot) (code : Int) :
    Inv (processExit code s) := by
  unfold processExit
  dsimp only
  have parked := h.park (f := fun pcb => { pcb with exitCode := code, state := .zombie, ustack := 0 })
    (fun _ => ⟨rfl, rfl, rfl, rfl⟩) (by simp) (fun idle => absurd idle notIdle)
  have quiet : Quiet (s.modify s.current fun pcb =>
      { pcb with exitCode := code, state := .zombie, ustack := 0 }) := .inr ⟨by simp, by simp⟩
  exact schedule_sound (wakeParent_sound parked quiet _)

theorem processKill_inv (h : Inv s) (pid : Nat) : Inv (processKill pid s).2 := by
  obtain ⟨⟨qs, hq, hc⟩, running⟩ := h
  unfold processKill
  split
  · exact ⟨⟨qs, hq, hc⟩, running⟩
  · next notZero =>
    split
    · exact ⟨⟨qs, hq, hc⟩, running⟩
    · next p found =>
      have notIdle : p ≠ idleSlot := hc.ne_idle (by rw [(processByPid_some found).2]; exact notZero)
      split
      · exact ⟨⟨qs, hq, hc⟩, running⟩
      · split
        · next self =>
          dsimp only
          exact processExit_inv ⟨qs, hq, hc⟩ (by rw [← self]; exact notIdle) (-1)
        · next other =>
          have retired := Sound.retire ⟨qs, hq, hc⟩ other notIdle
          have stillRunning := running.retire hq other
          exact ⟨wakeParent_sound retired stillRunning.quiet p, stillRunning.wakeParent p⟩

/-- `process_wait`: reap a zombie child, or return, or block until a child exits. -/
theorem processWait_inv (h : Inv s) : Inv (processWait s).2 := by
  obtain ⟨sound, running⟩ := h
  unfold processWait
  dsimp only
  have keeps := Keeps.modify s s.current (f := fun pcb => { pcb with parentWaiting := false }) rfl
  have sound1 := sound.modify (p := s.current) (f := fun pcb => { pcb with parentWaiting := false }) rfl rfl
  have running1 := running.keeps keeps
  generalize s.modify s.current (fun pcb => { pcb with parentWaiting := false }) = t at sound1 running1 ⊢
  split
  · next p found =>
    have zombie : (t.table p).state = .zombie := by simpa using List.find?_some found
    exact ⟨sound1.release zombie, running1.release⟩
  · split
    · exact ⟨sound1, running1⟩
    · dsimp only
      refine schedule_sound (sound1.park (fun _ => ⟨rfl, rfl, rfl, rfl⟩) (by simp) fun _ => ⟨?_, ?_⟩) <;>
        simp

theorem schedulerYield_inv (h : Inv s) : Inv (schedulerYield s) := by
  unfold schedulerYield
  split
  · exact schedule_sound (h.1.modify rfl rfl)
  · exact h

theorem processSleep_inv (h : Inv s) (ms : Nat) : Inv (processSleep ms s) := by
  unfold processSleep
  split
  · exact schedulerYield_inv h
  · refine schedule_sound (h.1.park (fun _ => ⟨rfl, rfl, rfl, rfl⟩) (by simp) fun _ => ⟨?_, ?_⟩) <;>
      simp

/-! ### Every call -/

/-- The calls of a run: every call but `process_exit` made by the idle process, which
`kmain` never makes. -/
def Allowed (s : State) : ProcCall → Prop
  | .exit _ => s.current ≠ idleSlot
  | _ => True

instance (s : State) : (c : ProcCall) → Decidable (Allowed s c)
  | .exit _ => inferInstanceAs (Decidable (s.current ≠ idleSlot))
  | .create .. | .createUser .. | .fork .. | .kill _ | .wait | .sleep _ | .tick | .schedule
  | .yield | .unblock _ | .start => inferInstanceAs (Decidable True)

theorem ProcCall.apply_inv (h : Inv s) (c : ProcCall) (allowed : Allowed s c) :
    Inv (c.apply s) := by
  cases c with
  | create entry priority stack => exact processCreate_inv h entry priority stack
  | createUser priority ustack stack => exact processCreateUser_inv h priority ustack stack
  | fork kstack ustack => exact sysFork_inv h kstack ustack
  | exit code => exact processExit_inv h.1 allowed code
  | kill pid => exact processKill_inv h pid
  | wait => exact processWait_inv h
  | sleep ms => exact processSleep_inv h ms
  | tick =>
    exact schedulerTick_sound (h.1.keeps (Keeps.of_table rfl rfl rfl) rfl rfl fun _ => rfl)
      (h.2.keeps (Keeps.of_table rfl rfl rfl))
  | schedule =>
    show Inv (OpenOS.Process.schedule s)
    exact schedule_sound h.1
  | yield => exact schedulerYield_inv h
  | unblock p => exact ⟨schedulerUnblock_sound h.1 h.2.quiet, h.2.unblock⟩
  | start =>
    -- starting the scheduler only releases the boot-time pin of the idle process
    obtain ⟨⟨qs, hq, hc⟩, running⟩ := h
    refine ⟨⟨qs, hq.congr rfl rfl fun _ _ _ => rfl, ⟨fun r => (hc.slot r).congr rfl
      (fun _ => Iff.rfl) Iff.rfl, fun no => ?_⟩⟩, running⟩
    cases no

theorem processInit_inv : Inv processInit := by
  refine ⟨⟨fun _ => [], ⟨fun _ => .nil, fun _ => rfl, fun mem => absurd mem List.not_mem_nil⟩,
    ⟨fun r => ⟨fun _ mem => absurd mem List.not_mem_nil, fun ready => ?_,
      fun _ _ mem => absurd mem List.not_mem_nil, ?_, ?_, fun idle => ?_⟩, fun _ => rfl⟩⟩, .inl rfl⟩
  all_goals by_cases hr : r = idleSlot
  all_goals simp_all [processInit, Pcb.zero, priorityLow, priorityLevels]

theorem run_inv {calls : List ProcCall}
    (allowed : Runs.Admissible Allowed ProcCall.apply calls processInit) :
    Inv (Runs.run ProcCall.apply calls processInit) :=
  Runs.run_invariant Inv (fun _ c h ok => ProcCall.apply_inv h c ok) processInit_inv allowed

/-! ### The ready queues -/

/-- The ready queues are well formed: for each level the head pointer starts an acyclic list
through the `next` links whose last node the tail pointer names (both `NULL` exactly when
the list is empty); no slot appears twice on a level or on two levels; every queued slot is
ready, has a pid other than 0, sits on the level of its priority and has a priority at most
its base; every ready slot with a pid other than 0 is queued; and the current process is
not. -/
def ReadyQueuesWellFormed (s : State) : Prop :=
  ∃ qs : Level → List Slot,
    (∀ q, Chain (fun p => (s.table p).next) (s.queueHead q) (qs q) ∧
      s.queueTail q = (qs q).getLast? ∧ (s.queueHead q = none ↔ qs q = []) ∧
      (s.queueTail q = none ↔ qs q = []) ∧ (qs q).Nodup) ∧
    (∀ q q' p, p ∈ qs q → p ∈ qs q' → q = q') ∧
    (∀ q p, p ∈ qs q → (s.table p).state = .ready ∧ (s.table p).pid ≠ 0 ∧
      (s.table p).priority = q.val ∧ (s.table p).priority ≤ (s.table p).basePriority) ∧
    (∀ p, (s.table p).state = .ready → (s.table p).pid ≠ 0 → ∃ q, p ∈ qs q) ∧
    ∀ q, s.current ∉ qs q

theorem Sound.readyQueues (h : Sound s) : ReadyQueuesWellFormed s := by
  obtain ⟨qs, hq, hc⟩ := h
  refine ⟨qs, fun q => ⟨hq.chain q, hq.tail q, ?_, ?_, hq.nodup q⟩, fun q q' p => hq.disjoint,
    fun q p mem => ?_, fun p => (hc.slot p).ready, hc.current_not_queued⟩
  · rw [hq.head q]; exact List.head?_eq_none_iff
  · rw [hq.tail q]; exact List.getLast?_eq_none_iff
  · obtain ⟨ready, pid, level⟩ := (hc.slot p).queued q mem
    exact ⟨ready, pid, level, (hc.slot p).priority⟩

theorem ready_queues_well_formed {calls : List ProcCall}
    (allowed : Runs.Admissible Allowed ProcCall.apply calls processInit) :
    ReadyQueuesWellFormed (Runs.run ProcCall.apply calls processInit) :=
  (run_inv allowed).1.readyQueues

/-- The shell is created, scheduled on the first tick, and exits. -/
theorem ready_queues_after_shell_exit :
    ReadyQueuesWellFormed (Runs.run ProcCall.apply [.create 1 0 1, .start, .tick, .exit 0] processInit) :=
  ready_queues_well_formed ⟨trivial, trivial, trivial, by decide +kernel, trivial⟩

/-- The idle process exits after starting the shell; the shell then sleeps, and nothing
else can run: the reaper releases the idle slot, so `process_by_pid(0)` finds nothing, the
shell stays current while asleep, and the next tick wakes it onto a ready queue. -/
theorem idle_exit_queues_current :
    ¬ ReadyQueuesWellFormed
      (Runs.run ProcCall.apply [.create 1 0 1, .start, .exit 0, .sleep 10, .tick] processInit) := by
  rintro ⟨qs, chains, -, -, -, notCurrent⟩
  have head : (Runs.run ProcCall.apply [.create 1 0 1, .start, .exit 0, .sleep 10, .tick]
      processInit).queueHead ⟨0, by decide⟩ = some (Runs.run ProcCall.apply
        [.create 1 0 1, .start, .exit 0, .sleep 10, .tick] processInit).current := by
    decide +kernel
  have first := (chains ⟨0, by decide⟩).1.head?
  rw [head] at first
  exact notCurrent ⟨0, by decide⟩ (List.mem_of_mem_head? first.symm)

/-! ### Pids -/

/-- No two live slots share a pid. -/
def PidsUnique (s : State) : Prop :=
  ∀ i j, (s.table i).state ≠ .unused → (s.table j).state ≠ .unused →
    (s.table i).pid = (s.table j).pid → i = j

/-- The shell (pid 1) starts `forktest` (pid 2) and sleeps; `forktest` forks, and the scan of
`sys_fork` gives the child pid 3; the shell wakes on the next tick and starts `uhello`, which
`alloc_pcb` gives `next_pid`, also 3. -/
theorem fork_and_create_share_pid :
    ¬ PidsUnique (Runs.run ProcCall.apply [.create 1 0 1, .start, .tick, .createUser 1 1 1,
      .sleep 10, .fork 1 1, .tick, .createUser 1 1 1] processInit) := by
  intro unique
  have same := unique ⟨3, by decide⟩ ⟨4, by decide⟩ (by decide +kernel) (by decide +kernel)
    (by decide +kernel)
  exact absurd same (by decide)

end OpenOS.Process

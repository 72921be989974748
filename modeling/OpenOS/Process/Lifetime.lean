import OpenOS.Process.Dispatch

/-! How long processes stay in the table and asleep.

`reap_orphans` releases a zombie only when its parent is gone, a zombie, or the idle process;
a zombie whose parent is still alive is kept for `process_wait`. The shell is pid 1 and never
calls `process_wait`, so every process it starts stays in the table as a zombie once it has
exited.

`wake_sleepers` wakes a sleeper only once its deadline has passed, but `process_sleep`
computes the deadline `(ms + 9) / 10` in 32 bits: for the top nine values of `ms` the sum
wraps and the deadline is the current tick. -/
namespace OpenOS.Process

variable {s t : State} {par z : Slot}

theorem processByPid_stable {pid : Nat} (found : processByPid pid s = some par)
    (same : t.table par = s.table par)
    (live : ∀ r, (t.table r).state ≠ .unused → t.table r = s.table r) :
    processByPid pid t = some par := by
  unfold processByPid at found ⊢
  rw [List.find?_eq_some_iff_append] at found ⊢
  obtain ⟨hit, before, after, split, missed⟩ := found
  refine ⟨by rw [same]; exact hit, before, after, split, fun x mem => ?_⟩
  -- a slot before the first match that is live now was live, and no match, before
  by_cases alive : (t.table x).state = .unused
  · simp [alive]
  · rw [live x alive]
    exact missed x mem

/-- A zombie whose parent is alive, not a zombie and not the idle process survives
`reap_orphans` untouched. -/
theorem reapOrphans_keeps_child (parent : processByPid (s.table z).ppid s = some par)
    (alive : (s.table par).state ≠ .unused) (notZombie : (s.table par).state ≠ .zombie)
    (notIdle : (s.table par).pid ≠ 0) : (reapOrphans s).table z = s.table z := by
  -- the fold only turns zombies into unused slots, and never `z` or its parent
  let keeps := fun t : State => t.table z = s.table z ∧ t.table par = s.table par ∧
    ∀ r, (t.table r).state ≠ .unused → t.table r = s.table r
  have kept : keeps (reapOrphans s) := by
    unfold reapOrphans
    refine Runs.foldl_invariant keeps (fun t i _ ht => ?_) ⟨rfl, rfl, fun _ _ => rfl⟩
    obtain ⟨zSame, parSame, live⟩ := ht
    have found : processByPid (t.table z).ppid t = some par := by
      rw [zSame]; exact processByPid_stable parent parSame live
    -- a release of slot `i` keeps `keeps` as long as `i` is neither `z` nor the parent
    have release : i ≠ z → i ≠ par → keeps (processRelease i t) := by
      intro notZ notPar
      unfold processRelease
      split
      · exact ⟨zSame, parSame, live⟩
      · refine ⟨by simp [Ne.symm notZ, zSame], by simp [Ne.symm notPar, parSame], fun r hr => ?_⟩
        by_cases same : r = i
        · subst same; simp at hr
        · simp only [State.modify_table, Function.update_apply, same, if_false] at hr ⊢
          exact live r hr
    split
    · exact ⟨zSame, parSame, live⟩
    · next dying =>
      have zombie : (t.table i).state = .zombie := by
        simp only [not_or, ne_eq, not_not] at dying
        exact dying.1
      have notPar : i ≠ par := by
        rintro rfl
        rw [parSame] at zombie
        exact notZombie zombie
      split
      · next lost =>
        have notZ : i ≠ z := by
          rintro rfl
          rw [found] at lost
          cases lost
        exact release notZ notPar
      · next parent' lookup =>
        split
        · next orphaned =>
          have notZ : i ≠ z := by
            rintro rfl
            rw [found] at lookup
            cases lookup
            rw [parSame] at orphaned
            rcases orphaned with gone | dead | idle
            · exact alive gone
            · exact notZombie dead
            · exact notIdle idle
          exact release notZ notPar
        · exact ⟨zSame, parSame, live⟩
  exact kept.1

/-- The shell creates a worker and sleeps; the worker exits, and its zombie survives the reaper. -/
theorem reapOrphans_keeps_worker :
    (reapOrphans (Runs.run ProcCall.apply [.create 1 priorityHigh 1, .start, .tick, .create 1 priorityNormal 1, .sleep 10,
      .exit 0] processInit)).table ⟨2, by decide⟩ =
      (Runs.run ProcCall.apply [.create 1 priorityHigh 1, .start, .tick, .create 1 priorityNormal 1, .sleep 10,
      .exit 0] processInit).table ⟨2, by decide⟩ := by
  -- the worker's parent is the shell in slot 1, alive and not a zombie
  have parent : processByPid ((Runs.run ProcCall.apply [.create 1 priorityHigh 1, .start, .tick, .create 1 priorityNormal 1, .sleep 10,
      .exit 0] processInit).table ⟨2, by decide⟩).ppid
        (Runs.run ProcCall.apply [.create 1 priorityHigh 1, .start, .tick, .create 1 priorityNormal 1, .sleep 10,
      .exit 0] processInit) = some ⟨1, by decide⟩ ∧
      ((Runs.run ProcCall.apply [.create 1 priorityHigh 1, .start, .tick, .create 1 priorityNormal 1, .sleep 10,
      .exit 0] processInit).table ⟨1, by decide⟩).state ≠ .unused ∧
      ((Runs.run ProcCall.apply [.create 1 priorityHigh 1, .start, .tick, .create 1 priorityNormal 1, .sleep 10,
      .exit 0] processInit).table ⟨1, by decide⟩).state ≠ .zombie ∧
      ((Runs.run ProcCall.apply [.create 1 priorityHigh 1, .start, .tick, .create 1 priorityNormal 1, .sleep 10,
      .exit 0] processInit).table ⟨1, by decide⟩).pid ≠ 0 := by
    set_option maxRecDepth 20000 in decide
  exact reapOrphans_keeps_child parent.1 parent.2.1 parent.2.2.1 parent.2.2.2

/-- The shell starts a worker and sleeps; the worker exits and the idle process runs; the next
tick wakes the shell and schedules it. The worker's parent is the live shell, so the reaper
keeps its zombie: three slots stay occupied. -/
theorem exited_worker_keeps_slot :
    processCount (Runs.run ProcCall.apply [.create 1 priorityHigh 1, .start, .tick,
      .create 1 priorityNormal 1, .sleep 10, .exit 0, .tick] processInit) = 3 := by
  decide +kernel

/-- `wake_sleepers` makes a sleeper ready only once `now` has reached its deadline. -/
theorem wakeSleepers_due (now : Nat) (r : Slot) (asleep : (s.table r).state = .sleeping)
    (woken : ((wakeSleepers now s).table r).state ≠ .sleeping) : (s.table r).sleepUntil ≤ now := by
  -- either `r` still sleeps with its deadline, or that deadline has passed
  let due := fun t : State => ((t.table r).state = .sleeping ∧
    (t.table r).sleepUntil = (s.table r).sleepUntil) ∨ (s.table r).sleepUntil ≤ now
  have final : due (wakeSleepers now s) := by
    unfold wakeSleepers
    refine Runs.foldl_invariant due (fun t i _ ht => ?_) (.inl ⟨asleep, rfl⟩)
    split
    · next ready =>
      by_cases same : i = r
      · subst same
        rcases ht with ⟨-, deadline⟩ | passed
        · exact .inr (deadline ▸ ready.2)
        · exact .inr passed
      · obtain ⟨n, w, queued⟩ := enqueue_table i r (t.modify i fun pcb => { pcb with state := .ready })
        simp only [State.modify_table, Function.update_apply, Ne.symm same, if_false] at queued
        simp only [due, queued]
        exact ht
    · exact ht
  rcases final with ⟨still, -⟩ | passed
  · exact absurd still woken
  · exact passed

/-- The shell asleep for 10 ms is woken at tick 5, which its deadline has passed. -/
theorem wakeSleepers_due_shell :
    ((Runs.run ProcCall.apply [.create 1 priorityHigh 1, .start, .tick, .sleep 10] processInit).table
      ⟨1, by decide⟩).sleepUntil ≤ 5 := by
  have woken : ((Runs.run ProcCall.apply [.create 1 priorityHigh 1, .start, .tick, .sleep 10] processInit).table ⟨1, by decide⟩).state = .sleeping ∧
      ((wakeSleepers 5 (Runs.run ProcCall.apply [.create 1 priorityHigh 1, .start, .tick, .sleep 10] processInit)).table ⟨1, by decide⟩).state ≠ .sleeping := by
    set_option maxRecDepth 20000 in decide
  exact wakeSleepers_due 5 ⟨1, by decide⟩ woken.1 woken.2

/-- `p` is not made ready or run again before tick `deadline`. -/
def SleepsUntil (p : Slot) (deadline : Nat) (s : State) : Prop :=
  (s.table p).state ≠ .sleeping → deadline ≤ s.ticks

/-- The shell sleeps at tick 1 for `ms = 0xFFFFFFFF`, about 49.7 days; `(ms + 9) / 10` wraps
to 0 in 32 bits, and the very next tick wakes and resumes it, long before tick
`1 + ⌈ms / 10⌉`. -/
theorem longest_sleep_ends_next_tick :
    ¬ SleepsUntil ⟨1, by decide⟩ (1 + (2^32 - 1 + 9) / 10) (Runs.run ProcCall.apply
      [.create 1 priorityHigh 1, .start, .tick, .sleep (2^32 - 1), .tick] processInit) := by
  intro sleeps
  have late := sleeps (by decide +kernel)
  exact absurd late (by decide +kernel)

end OpenOS.Process

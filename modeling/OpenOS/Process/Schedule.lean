import OpenOS.Process.Invariant
import OpenOS.Lib.Run

/-! `schedule` and `scheduler_tick` keep the invariant, with the housekeeping they run:
`reap_orphans` and `wake_sleepers` as folds over the table, and `apply_aging` as a walk of
each aged level that moves long-waiting slots up a level while it walks. `switchTo` is the
end of `schedule`, where the outgoing process is requeued and the incoming one runs. -/
namespace OpenOS.Process

open Linked

variable {s : State} {qs : Level → List Slot} {p : Slot}

/-! ### Waking -/

theorem Sound.wake (h : Sound s) (quiet : Quiet s)
    (waiting : (s.table p).state = .blocked ∨ (s.table p).state = .sleeping) :
    Sound (enqueue p (s.modify p fun pcb => { pcb with state := .ready })) := by
  obtain ⟨qs, hq, hc⟩ := h
  exact (hc.pending_wake hq quiet waiting).sound

theorem Running.wake (h : Running s) (quiet : Quiet s)
    (waiting : (s.table p).state = .blocked ∨ (s.table p).state = .sleeping) :
    Running (enqueue p (s.modify p fun pcb => { pcb with state := .ready })) :=
  (h.modify (quiet.waiting_current waiting)).keeps (enqueue_keeps p _)

theorem Quiet.wake (h : Quiet s)
    (waiting : (s.table p).state = .blocked ∨ (s.table p).state = .sleeping) :
    Quiet (enqueue p (s.modify p fun pcb => { pcb with state := .ready })) :=
  (h.modify (h.waiting_current waiting)).keeps (enqueue_keeps p _)

theorem schedulerUnblock_sound (h : Sound s) (quiet : Quiet s) : Sound (schedulerUnblock p s) := by
  unfold schedulerUnblock
  split
  · next waiting => exact h.wake quiet waiting
  · exact h

theorem Quiet.unblock (h : Quiet s) : Quiet (schedulerUnblock p s) := by
  unfold schedulerUnblock
  split
  · next waiting => exact h.wake waiting
  · exact h

theorem Running.unblock (h : Running s) : Running (schedulerUnblock p s) := by
  unfold schedulerUnblock
  split
  · next waiting => exact h.wake h.quiet waiting
  · exact h

theorem wakeSleepers_sound (h : Sound s) (running : Running s) (now : Nat) :
    Sound (wakeSleepers now s) ∧ Running (wakeSleepers now s) := by
  unfold wakeSleepers
  refine Runs.foldl_invariant (fun t => Sound t ∧ Running t) (fun t i _ ht => ?_) ⟨h, running⟩
  split
  · next asleep => exact ⟨ht.1.wake ht.2.quiet (.inr asleep.1), ht.2.wake ht.2.quiet (.inr asleep.1)⟩
  · exact ht

/-! ### Reaping -/

theorem processRelease_started (p : Slot) (s : State) :
    (processRelease p s).started = s.started := by
  unfold processRelease
  split <;> rfl

theorem reapOrphans_sound (h : Sound s) : Sound (reapOrphans s) := by
  unfold reapOrphans
  refine Runs.foldl_invariant Sound (fun t i _ ht => ?_) h
  split
  · exact ht
  · next live =>
    have zombie : (t.table i).state = .zombie := by
      simp only [not_or, ne_eq, not_not] at live
      exact live.1
    split
    · exact ht.release zombie
    · split
      · exact ht.release zombie
      · exact ht

theorem reapOrphans_started (s : State) : (reapOrphans s).started = s.started := by
  unfold reapOrphans
  refine Runs.foldl_invariant (fun t : State => t.started = s.started) (fun t i _ ht => ?_) rfl
  split
  · exact ht
  · split
    · rw [processRelease_started]; exact ht
    · split
      · rw [processRelease_started]; exact ht
      · exact ht

/-! ### Aging -/

/-- The walk of `apply_aging` over level `lv`, from the slots `rest` that follow the ones
already passed: a slot that waited too long leaves the level for the tail of the one above,
and the walk goes on from the successor it read before. -/
theorem ageQueue_sound {lv : Level} (pos : 0 < lv.val) :
    ∀ (fuel : Nat) (done rest : List Slot) (s : State) (qs : Level → List Slot),
      QueuesOk s qs → Consistent s qs → Running s → qs lv = done ++ rest →
      Sound (ageQueue lv.val fuel rest.head? s) ∧ Running (ageQueue lv.val fuel rest.head? s) := by
  intro fuel
  induction fuel with
  | zero => intro done rest s qs hq hc running _; exact ⟨⟨qs, hq, hc⟩, running⟩
  | succ fuel ih =>
    intro done rest s qs hq hc running split
    cases rest with
    | nil => exact ⟨⟨qs, hq, hc⟩, running⟩
    | cons r rest =>
      have mem : r ∈ qs lv := by rw [split]; simp
      obtain ⟨ready, pid, prio⟩ := (hc.slot r).queued lv mem
      have succ : (s.table r).next = rest.head? := (split ▸ hq.chain lv).next_of_append
      have notCurrent : r ≠ s.current := fun e => hc.current_not_queued lv (e ▸ mem)
      have rDone : r ∉ done := fun inDone =>
        (List.nodup_cons.mp (List.nodup_middle.mp (split ▸ hq.nodup lv))).1
          (List.mem_append_left _ inDone)
      -- the wait counter only feeds the test
      have keeps1 := Keeps.modify s r (f := fun pcb => { pcb with waitTicks := pcb.waitTicks + 1 }) rfl
      have hq1 := hq.modify (p := r) (f := fun pcb => { pcb with waitTicks := pcb.waitTicks + 1 }) rfl
      have hc1 := hc.keeps keeps1
      have running1 := running.keeps keeps1
      simp only [List.head?_cons, ageQueue, succ]
      split
      · -- the slot moves to the tail of level `lv - 1`
        have keeps2 := dequeue_keeps hq1 r
        obtain ⟨pidD, stateD, prioD, baseD⟩ := Pcb.attrs_eq.mp ((keeps1.trans keeps2).attrs r)
        set t := (dequeue r (s.modify r fun pcb => { pcb with waitTicks := pcb.waitTicks + 1 })).modify
          r fun pcb => { pcb with priority := lv.val - 1 } with ht
        have pend : Pending t (drop qs r) r := by
          have below := (hc.slot r).priority
          refine ⟨?_, fun r' hr' => ?_, ?_, fun q m => (hq1.mem_drop.mp m).1 rfl,
            by simp [ht, stateD, ready], by simp [ht, baseD]; omega,
            by simpa [ht, baseD] using (hc.slot r).basePriority,
            fun e => absurd (e.trans (keeps1.trans keeps2).current) notCurrent, fun e => ?_⟩
          · exact (dequeue_queues hq1 r).modify rfl
          · exact (hc1.slot r').congr (by simp [ht, hr', keeps2.attrs r'])
              (fun q => hq1.mem_drop.trans (by simp [hr'])) (by simp [ht, keeps2.current])
          · simp only [ht, State.modify_started, State.modify_current, keeps2.started, keeps2.current]
            exact hc1.boot
          · have idlePid := hc.idle.1
            rw [← e] at idlePid
            simpa [ht, pidD] using idlePid
        obtain ⟨hq2, hc2⟩ := pend.enqueue_ok
        have lower : levelOf (lv.val - 1) ≠ lv := fun e => by
          have := congrArg Fin.val e
          rw [levelOf_val (by omega)] at this
          omega
        have level : enqueued (drop qs r) t r lv = done ++ rest := by
          have pidT : (t.table r).pid ≠ 0 := by simp [ht, pidD, pid]
          have prioT : (t.table r).priority = lv.val - 1 := by simp [ht]
          simp only [enqueued, if_neg pidT, push, prioT, Function.update_of_ne (Ne.symm lower), drop,
            split, List.erase_append_right _ rDone, List.erase_cons_head]
        have running2 := ((running1.keeps keeps2).modify (f := fun pcb => { pcb with priority := lv.val - 1 })
          fun e => absurd (e.trans (keeps1.trans keeps2).current) notCurrent).keeps (enqueue_keeps r _)
        exact ih done rest _ _ hq2 hc2 running2 level
      · exact ih (done ++ [r]) rest _ qs hq1 hc1 running1 (by rw [split]; simp)

theorem applyAging_sound (h : Sound s) (running : Running s) :
    Sound (applyAging s) ∧ Running (applyAging s) := by
  unfold applyAging
  refine Runs.foldl_invariant (fun t => Sound t ∧ Running t) (fun t lv mem ht => ?_) ⟨h, running⟩
  obtain ⟨⟨qs, hq, hc⟩, runningT⟩ := ht
  have pos : 0 < lv.val := by
    simp only [agingLevels, List.mem_cons, List.not_mem_nil, or_false] at mem
    rcases mem with rfl | rfl <;> decide
  rw [hq.head lv]
  exact ageQueue_sound pos _ [] (qs lv) t qs hq hc runningT rfl

/-! ### `schedule` -/

theorem switchTo_started (prev next : Slot) (s : State) :
    (switchTo prev next s).started = s.started := by
  unfold switchTo
  dsimp only
  split
  · simp [(enqueue_keeps _ _).started]
  · rfl

/-- What `schedule` leaves of each slot: `next` runs at its base priority, and `prev`, if it
still ran, is ready at its base priority. -/
theorem switchTo_attrs {prev next : Slot} (s : State) (ne : next ≠ prev) (r : Slot) :
    ((switchTo prev next s).table r).attrs =
      if r = next then
        ((s.table next).pid, .running, (s.table next).basePriority, (s.table next).basePriority)
      else if r = prev ∧ (s.table prev).state = .running then
        ((s.table prev).pid, .ready, (s.table prev).basePriority, (s.table prev).basePriority)
      else (s.table r).attrs := by
  -- the requeue of `prev`
  have requeue : ∀ r, ((if (s.table prev).state = .running then
      enqueue prev (s.modify prev fun pcb => { pcb with state := .ready, priority := pcb.basePriority })
      else s).table r).attrs =
      if r = prev ∧ (s.table prev).state = .running then
        ((s.table prev).pid, .ready, (s.table prev).basePriority, (s.table prev).basePriority)
      else (s.table r).attrs := by
    intro r
    split
    · next running =>
      rw [(enqueue_keeps prev _).attrs r]
      by_cases hr : r = prev
      · subst hr; simp [running, Pcb.attrs]
      · simp [hr]
    · next idle => simp [idle]
  unfold switchTo
  dsimp only
  by_cases hr : r = next
  · subst hr
    have same := requeue r
    rw [if_neg (show ¬(r = prev ∧ _) from fun h => ne h.1)] at same
    obtain ⟨pid, -, -, base⟩ := Pcb.attrs_eq.mp same
    simp [Pcb.attrs, pid, base]
  · simp only [State.modify_table, Function.update_of_ne hr, if_neg hr]
    exact requeue r

theorem switchTo_queues {prev next : Slot} (hq : QueuesOk s qs) (fresh : ∀ q, prev ∉ qs q) :
    QueuesOk (switchTo prev next s)
      (if (s.table prev).state = .running then
        enqueued qs (s.modify prev fun pcb => { pcb with state := .ready, priority := pcb.basePriority }) prev
      else qs) := by
  unfold switchTo
  dsimp only
  by_cases running : (s.table prev).state = .running
  · simp only [if_pos running]
    refine QueuesOk.switch (QueuesOk.modify (enqueue_enqueued (hq.modify ?_) fresh) ?_) next _ <;> rfl
  · simp only [if_neg running]
    refine QueuesOk.switch (QueuesOk.modify hq ?_) next _
    rfl

/-- The end of `schedule` hands the CPU from the current process to `next`, a slot on no
queue that is consistent but for being ready. -/
theorem switchTo_sound {next : Slot} (hq : QueuesOk s qs) (others : ∀ r, r ≠ next → SlotOk s qs r)
    (fresh : ∀ q, next ∉ qs q) (ne : next ≠ s.current) (started : s.started = true)
    (priority : (s.table next).priority ≤ (s.table next).basePriority)
    (basePriority : (s.table next).basePriority < priorityLevels)
    (idle : next = idleSlot → (s.table next).pid = 0) :
    Sound (switchTo s.current next s) ∧ Running (switchTo s.current next s) := by
  have prevOk := others s.current (Ne.symm ne)
  have prevFresh : ∀ q, s.current ∉ qs q := prevOk.current rfl
  have attrs := switchTo_attrs s ne
  have mem : ∀ r, r ≠ s.current → ∀ q, r ∈ (if (s.table s.current).state = .running then
      enqueued qs (s.modify s.current fun pcb =>
        { pcb with state := .ready, priority := pcb.basePriority }) s.current else qs) q ↔ r ∈ qs q := by
    intro r hr q
    split <;> simp [mem_enqueued, hr]
  refine ⟨⟨_, switchTo_queues hq prevFresh,
    Consistent.of_frame (fun r => r = s.current ∨ r = next) (fun r hr => others r (by tauto)) ?_
      (fun r hr => mem r (by tauto)) ?_ ?_ ?_⟩, .inr ?_⟩
  · intro r hr
    rw [attrs r, if_neg (by tauto), if_neg (by tauto)]
  · intro r hr
    simp only [switchTo]
    tauto
  · rw [switchTo_started, started]; intro no; cases no
  · rintro r (rfl | rfl)
    · -- the outgoing process
      by_cases running : (s.table s.current).state = .running
      · have base := prevOk.basePriority
        refine SlotOk.of_attrs
          (b := { s.table s.current with state := .ready, priority := (s.table s.current).basePriority })
          (by rw [attrs]; simp [Ne.symm ne, running, Pcb.attrs])
          ?_ ?_ (fun e => absurd e (Ne.symm ne)) le_rfl base
          (fun e => ⟨(prevOk.idle e).1, by simp, by simp⟩)
        · intro q m
          simp only [if_pos running, mem_enqueued] at m
          rcases m with old | ⟨pid, rfl, -⟩
          · exact absurd old (prevFresh q)
          · exact ⟨rfl, by simpa using pid, by simp [levelOf_val base]⟩
        · intro _ pid
          refine ⟨levelOf (s.table s.current).basePriority, ?_⟩
          rw [if_pos running]
          exact mem_enqueued.mpr (.inr ⟨by simpa using pid, by simp, rfl⟩)
      · refine SlotOk.of_attrs (b := s.table s.current) (by rw [attrs]; simp [Ne.symm ne, running, Pcb.attrs])
          ?_ ?_ (fun e => absurd e (Ne.symm ne)) prevOk.priority prevOk.basePriority (prevOk.idle)
        · intro q m
          simp only [if_neg running] at m
          exact absurd m (prevFresh q)
        · simp only [if_neg running]
          exact prevOk.ready
    · -- the incoming process
      have away : ∀ q, r ∉ (if (s.table s.current).state = .running then
          enqueued qs (s.modify s.current fun pcb =>
            { pcb with state := .ready, priority := pcb.basePriority }) s.current else qs) q :=
        fun q m => fresh q ((mem r ne q).mp m)
      refine SlotOk.of_attrs
        (b := { s.table r with state := .running, priority := (s.table r).basePriority })
        (by rw [attrs]; simp [Pcb.attrs])
        (fun q m => absurd m (away q)) (fun st => by simp at st) (fun _ => away) le_rfl
        basePriority (fun e => ⟨idle e, by simp, by simp⟩)
  · have state := attrs next
    simp only [if_pos, Pcb.attrs, Prod.mk.injEq] at state
    exact state.2.1

theorem processByPid_idle (pid : (s.table idleSlot).pid = 0)
    (live : (s.table idleSlot).state ≠ .unused) : processByPid 0 s = some idleSlot := by
  have first : slots = idleSlot :: (List.finRange 63).map Fin.succ := List.finRange_succ
  have found : ((s.table idleSlot).state != .unused && (s.table idleSlot).pid == 0) = true := by
    simpa [pid] using live
  unfold processByPid
  rw [first, List.find?_cons, found]

/-- `schedule` ends with the invariant whenever it starts with the queues well formed: it
runs the head of the highest non-empty level, or keeps a process that still runs, or falls
back to the idle process, which `process_by_pid(0)` finds in slot 0. -/
theorem schedule_sound (h : Sound s) : Sound (schedule s) ∧ Running (schedule s) := by
  unfold schedule
  split
  · next notStarted =>
    obtain ⟨qs, hq, hc⟩ := h
    exact ⟨⟨qs, hq, hc⟩, .inl (hc.boot (by simpa using notStarted))⟩
  · next started =>
    have started' : (reapOrphans s).started = true := by
      rw [reapOrphans_started]; simpa using started
    obtain ⟨qs, hq, hc⟩ := reapOrphans_sound h
    dsimp only
    generalize reapOrphans s = t at hq hc started' ⊢
    rcases pickNext_spec hq with ⟨pick, empty⟩ | ⟨q, p, post, split, pick⟩
    · rw [pick]
      dsimp only
      split
      · next running =>
        refine ⟨Sound.modify ⟨qs, hq, hc⟩ ?_ ?_, .inr (by simpa using running)⟩ <;> rfl
      · rw [processByPid_idle hc.idle.1 hc.idle.2.1]
        dsimp only
        split
        · next same => exact ⟨⟨qs, hq, hc⟩, .inl same.symm⟩
        · next differ =>
          exact switchTo_sound hq (fun r _ => hc.slot r) (fun q => by simp [empty]) differ started'
            (hc.slot idleSlot).priority (hc.slot idleSlot).basePriority (fun _ => hc.idle.1)
    · rw [pick]
      dsimp only
      have mem : p ∈ qs q := by rw [split]; exact List.mem_cons_self
      have keeps := popHead_keeps q p t
      obtain ⟨pidK, -, prioK, baseK⟩ := Pcb.attrs_eq.mp (keeps.attrs p)
      refine switchTo_sound (popHead_drop hq split)
        (fun r hr => (hc.slot r).congr (keeps.attrs r) (fun q => hq.mem_drop.trans (by simp [hr]))
          (by rw [keeps.current]))
        (fun q m => (hq.mem_drop.mp m).1 rfl) ?_ (by rw [keeps.started]; exact started')
        (by rw [prioK, baseK]; exact (hc.slot p).priority) (by rw [baseK]; exact (hc.slot p).basePriority)
        (fun e => by rw [pidK]; exact e ▸ hc.idle.1)
      rw [keeps.current]
      exact fun e => hc.current_not_queued q (e ▸ mem)

/-! ### `scheduler_tick` -/

theorem schedulerTick_sound (h : Sound s) (running : Running s) :
    Sound (schedulerTick s) ∧ Running (schedulerTick s) := by
  unfold schedulerTick
  split
  · exact ⟨h, running⟩
  · dsimp only
    have keeps := Keeps.modify s s.current (f := fun pcb => { pcb with cpuTicks := pcb.cpuTicks + 1 }) rfl
    have woken := wakeSleepers_sound (h.modify rfl rfl) (running.keeps keeps) s.ticks
    have aged := applyAging_sound woken.1 woken.2
    generalize applyAging (wakeSleepers s.ticks _) = t at aged ⊢
    have counted : Sound (if (t.table t.current).quantumLeft > 0 then
        t.modify t.current fun pcb => { pcb with quantumLeft := pcb.quantumLeft - 1 } else t) ∧
        Running (if (t.table t.current).quantumLeft > 0 then
        t.modify t.current fun pcb => { pcb with quantumLeft := pcb.quantumLeft - 1 } else t) := by
      split
      · exact ⟨aged.1.modify rfl rfl, aged.2.keeps (Keeps.modify t t.current rfl)⟩
      · exact aged
    generalize (if (t.table t.current).quantumLeft > 0 then _ else t) = u at counted ⊢
    split
    · exact schedule_sound counted.1
    · exact counted

end OpenOS.Process

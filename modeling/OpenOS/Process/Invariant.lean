import OpenOS.Process.Queues

/-! The invariant of the process table and the ready queues, stated slot by slot over the
lists of `QueuesOk`. A step that changes a few slots keeps the part of every other slot by
the frame rule `Consistent.frame`, and shows the part of the slots it changes; the steps of
`process.c` and `scheduler.c` that change one slot are proved here once: releasing a
zombie, stopping the current process, killing another one, and making a slot ready and
queueing it (`Pending.enqueue`), which waking, creating, forking and aging share. -/
namespace OpenOS.Process

open Linked

/-- What the invariant asks of one slot, given the lists the queues hold: a queued slot is
ready, has a real pid and sits at its priority's level; a ready slot with a real pid is
queued; the current slot is not; the priority is at most the base, which names a level;
and slot 0 stays the live idle process. -/
structure SlotOk (s : State) (qs : Level → List Slot) (r : Slot) : Prop where
  queued : ∀ q, r ∈ qs q →
    (s.table r).state = .ready ∧ (s.table r).pid ≠ 0 ∧ (s.table r).priority = q.val
  ready : (s.table r).state = .ready → (s.table r).pid ≠ 0 → ∃ q, r ∈ qs q
  current : r = s.current → ∀ q, r ∉ qs q
  priority : (s.table r).priority ≤ (s.table r).basePriority
  basePriority : (s.table r).basePriority < priorityLevels
  idle : r = idleSlot →
    (s.table r).pid = 0 ∧ (s.table r).state ≠ .unused ∧ (s.table r).state ≠ .zombie

structure Consistent (s : State) (qs : Level → List Slot) : Prop where
  slot : ∀ r, SlotOk s qs r
  /-- Before `scheduler_start` nothing switches away from the boot context. -/
  boot : s.started = false → s.current = idleSlot

/-- The queues are well formed over some lists, and every slot is consistent with them. -/
def Sound (s : State) : Prop := ∃ qs, QueuesOk s qs ∧ Consistent s qs

/-- Between calls the current process runs, unless it is the idle process. -/
def Running (s : State) : Prop := s.current = idleSlot ∨ (s.table s.current).state = .running

/-- Inside a call the current process may have stopped, but it only waits for an event if it
is the idle process. -/
def Quiet (s : State) : Prop :=
  s.current = idleSlot ∨
    ((s.table s.current).state ≠ .blocked ∧ (s.table s.current).state ≠ .sleeping)

variable {s s' : State} {qs qs' : Level → List Slot} {p r : Slot}

theorem Running.quiet (h : Running s) : Quiet s := by
  rcases h with idle | running
  · exact .inl idle
  · exact .inr ⟨by rw [running]; decide, by rw [running]; decide⟩

theorem Pcb.attrs_eq {a b : Pcb} : a.attrs = b.attrs ↔
    a.pid = b.pid ∧ a.state = b.state ∧ a.priority = b.priority ∧ a.basePriority = b.basePriority := by
  simp [Pcb.attrs]

theorem levelOf_val {priority : Nat} (h : priority < priorityLevels) :
    (levelOf priority).val = priority := by
  simp [levelOf, h]

/-! ### The frame rule -/

theorem SlotOk.of_attrs {b : Pcb} (attrs : (s.table r).attrs = b.attrs)
    (queued : ∀ q, r ∈ qs q → b.state = .ready ∧ b.pid ≠ 0 ∧ b.priority = q.val)
    (ready : b.state = .ready → b.pid ≠ 0 → ∃ q, r ∈ qs q)
    (current : r = s.current → ∀ q, r ∉ qs q)
    (priority : b.priority ≤ b.basePriority) (basePriority : b.basePriority < priorityLevels)
    (idle : r = idleSlot → b.pid = 0 ∧ b.state ≠ .unused ∧ b.state ≠ .zombie) :
    SlotOk s qs r := by
  obtain ⟨pid, state, prio, base⟩ := Pcb.attrs_eq.mp attrs
  refine ⟨?_, ?_, current, ?_, ?_, ?_⟩
  · rw [state, pid, prio]; exact queued
  · rw [state, pid]; exact ready
  · rw [prio, base]; exact priority
  · rw [base]; exact basePriority
  · rw [pid, state]; exact idle

theorem SlotOk.congr (h : SlotOk s qs r) (attrs : (s'.table r).attrs = (s.table r).attrs)
    (mem : ∀ q, r ∈ qs' q ↔ r ∈ qs q) (current : r = s'.current ↔ r = s.current) :
    SlotOk s' qs' r := by
  refine SlotOk.of_attrs attrs (fun q m => h.queued q ((mem q).mp m)) ?_
    (fun e q m => h.current (current.mp e) q ((mem q).mp m)) h.priority h.basePriority h.idle
  intro ready pid
  obtain ⟨q, m⟩ := h.ready ready pid
  exact ⟨q, (mem q).mpr m⟩

theorem Consistent.of_frame (changed : Slot → Prop) (others : ∀ r, ¬ changed r → SlotOk s qs r)
    (attrs : ∀ r, ¬ changed r → (s'.table r).attrs = (s.table r).attrs)
    (mem : ∀ r, ¬ changed r → ∀ q, r ∈ qs' q ↔ r ∈ qs q)
    (current : ∀ r, ¬ changed r → (r = s'.current ↔ r = s.current))
    (boot : s'.started = false → s'.current = idleSlot)
    (ok : ∀ r, changed r → SlotOk s' qs' r) : Consistent s' qs' where
  slot r := by
    by_cases hr : changed r
    · exact ok r hr
    · exact (others r hr).congr (attrs r hr) (mem r hr) (current r hr)
  boot := boot

theorem Consistent.frame (h : Consistent s qs) (changed : Slot → Prop)
    (attrs : ∀ r, ¬ changed r → (s'.table r).attrs = (s.table r).attrs)
    (mem : ∀ r, ¬ changed r → ∀ q, r ∈ qs' q ↔ r ∈ qs q)
    (current : ∀ r, ¬ changed r → (r = s'.current ↔ r = s.current))
    (boot : s'.started = false → s'.current = idleSlot)
    (ok : ∀ r, changed r → SlotOk s' qs' r) : Consistent s' qs' :=
  Consistent.of_frame changed (fun r _ => h.slot r) attrs mem current boot ok

theorem Consistent.keeps (h : Consistent s qs) (k : Keeps s s') : Consistent s' qs :=
  h.frame (fun _ => False) (fun r _ => k.attrs r) (fun _ _ _ => Iff.rfl)
    (fun r _ => by rw [k.current]) (by rw [k.started, k.current]; exact h.boot)
    (fun _ no => no.elim)

theorem Consistent.not_queued (h : Consistent s qs) (hs : (s.table r).state ≠ .ready) (q : Level) :
    r ∉ qs q :=
  fun mem => hs ((h.slot r).queued q mem).1

theorem Consistent.current_not_queued (h : Consistent s qs) (q : Level) : s.current ∉ qs q :=
  (h.slot s.current).current rfl q

theorem Consistent.idle (h : Consistent s qs) : (s.table idleSlot).pid = 0 ∧
    (s.table idleSlot).state ≠ .unused ∧ (s.table idleSlot).state ≠ .zombie :=
  (h.slot idleSlot).idle rfl

theorem Consistent.ne_idle (h : Consistent s qs) (pid : (s.table r).pid ≠ 0) : r ≠ idleSlot :=
  fun e => pid (e ▸ h.idle.1)

theorem Consistent.ne_current_of_unused (h : Consistent s qs) (running : Running s)
    (unused : (s.table r).state = .unused) : r ≠ s.current := by
  rintro rfl
  rcases running with idle | running
  · exact h.idle.2.1 (idle ▸ unused)
  · rw [running] at unused; exact absurd unused (by decide)

theorem QueuesOk.modify (h : QueuesOk s qs) {f : Pcb → Pcb}
    (next : (f (s.table p)).next = (s.table p).next) : QueuesOk (s.modify p f) qs :=
  h.congr rfl rfl fun _ r _ => by
    rw [link_modify]
    split
    · next e => rw [e, next]; rfl
    · rfl

theorem Sound.keeps (h : Sound s) (k : Keeps s s') (heads : s'.queueHead = s.queueHead)
    (tails : s'.queueTail = s.queueTail) (links : ∀ r, link s' r = link s r) : Sound s' := by
  obtain ⟨qs, hq, hc⟩ := h
  exact ⟨qs, hq.congr heads tails fun _ r _ => links r, hc.keeps k⟩

theorem Sound.modify (h : Sound s) {f : Pcb → Pcb}
    (attrs : (f (s.table p)).attrs = (s.table p).attrs)
    (next : (f (s.table p)).next = (s.table p).next) : Sound (s.modify p f) := by
  obtain ⟨qs, hq, hc⟩ := h
  exact ⟨qs, hq.modify next, hc.keeps (Keeps.modify s p attrs)⟩

theorem Running.keeps (h : Running s) (k : Keeps s s') : Running s' := by
  have state := (Pcb.attrs_eq.mp (k.attrs s.current)).2.1
  unfold Running
  rw [k.current, state]
  exact h

theorem Quiet.keeps (h : Quiet s) (k : Keeps s s') : Quiet s' := by
  have state := (Pcb.attrs_eq.mp (k.attrs s.current)).2.1
  unfold Quiet
  rw [k.current, state]
  exact h

theorem Running.modify (h : Running s) {f : Pcb → Pcb} (hp : p = s.current → s.current = idleSlot) :
    Running (s.modify p f) := by
  rcases h with idle | running
  · exact .inl idle
  · by_cases e : p = s.current
    · exact .inl (hp e)
    · exact .inr (by simp [Ne.symm e, running])

theorem Quiet.modify (h : Quiet s) {f : Pcb → Pcb} (hp : p = s.current → s.current = idleSlot) :
    Quiet (s.modify p f) := by
  rcases h with idle | quiet
  · exact .inl idle
  · by_cases e : p = s.current
    · exact .inl (hp e)
    · exact .inr (by simpa [Ne.symm e] using quiet)

/-! ### Releasing, stopping and killing -/

/-- `process_release` of a zombie: it left the queues when it stopped. -/
theorem Sound.release (h : Sound s) (zombie : (s.table p).state = .zombie) :
    Sound (processRelease p s) := by
  obtain ⟨qs, hq, hc⟩ := h
  unfold processRelease
  split
  · exact ⟨qs, hq, hc⟩
  · next notCurrent =>
    have fresh := hc.not_queued (r := p) (by rw [zombie]; decide)
    refine ⟨qs, hq.modify rfl, hc.frame (· = p) (fun r hr => by simp [hr])
      (fun _ _ _ => Iff.rfl) (fun _ _ => Iff.rfl) hc.boot ?_⟩
    rintro r rfl
    refine SlotOk.of_attrs (b := { s.table r with kstack := 0, ustack := 0, state := .unused, pid := 0 })
      (by simp) (fun q mem => absurd mem (fresh q)) (fun st _ => by simp at st)
      (fun e => absurd e notCurrent) (hc.slot r).priority (hc.slot r).basePriority ?_
    intro idle
    exact absurd zombie (idle ▸ hc.idle.2.2)

theorem Running.release (h : Running s) : Running (processRelease p s) := by
  unfold processRelease
  split
  · exact h
  · next notCurrent => exact h.modify fun e => absurd e notCurrent

/-- The current process stops: `process_exit`, or a `process_wait` or `process_sleep` that
blocks. It is on no queue, and the idle process never becomes a zombie. -/
theorem Sound.park (h : Sound s) {f : Pcb → Pcb}
    (same : ∀ pcb, (f pcb).pid = pcb.pid ∧ (f pcb).priority = pcb.priority ∧
      (f pcb).basePriority = pcb.basePriority ∧ (f pcb).next = pcb.next)
    (notReady : (f (s.table s.current)).state ≠ .ready)
    (alive : s.current = idleSlot →
      (f (s.table s.current)).state ≠ .unused ∧ (f (s.table s.current)).state ≠ .zombie) :
    Sound (s.modify s.current f) := by
  obtain ⟨qs, hq, hc⟩ := h
  obtain ⟨pid, prio, base, next⟩ := same (s.table s.current)
  refine ⟨qs, hq.modify next, hc.frame (· = s.current) (fun r hr => by simp [hr])
    (fun _ _ _ => Iff.rfl) (fun _ _ => Iff.rfl) hc.boot ?_⟩
  rintro r rfl
  refine SlotOk.of_attrs (by simp) (fun q mem => absurd mem (hc.current_not_queued q))
    (fun st => absurd st notReady) (fun _ => hc.current_not_queued) (by rw [prio, base]; exact (hc.slot _).priority)
    (by rw [base]; exact (hc.slot _).basePriority) ?_
  intro idle
  exact ⟨by rw [pid]; exact (idle ▸ hc.idle).1, alive idle⟩

/-- `process_kill` of a process other than the caller: out of its queue, and a zombie. -/
theorem Sound.retire (h : Sound s) (notCurrent : p ≠ s.current) (notIdle : p ≠ idleSlot) :
    Sound ((dequeue p s).modify p fun pcb =>
      { pcb with exitCode := -1, state := .zombie, ustack := 0 }) := by
  obtain ⟨qs, hq, hc⟩ := h
  have keeps := dequeue_keeps hq p
  obtain ⟨-, -, prio, base⟩ := Pcb.attrs_eq.mp (keeps.attrs p)
  refine ⟨drop qs p, (dequeue_queues hq p).modify rfl, hc.frame (· = p) ?_ ?_ ?_ ?_ ?_⟩
  · intro r hr; simp [hr, keeps.attrs r]
  · intro r hr q; exact (hq.mem_drop).trans (by simp [hr])
  · intro r _; simp [keeps.current]
  · simp only [State.modify_started, State.modify_current, keeps.started, keeps.current]
    exact hc.boot
  · rintro r rfl
    refine SlotOk.of_attrs
      (b := { (dequeue r s).table r with exitCode := -1, state := .zombie, ustack := 0 })
      (by simp) (fun q mem => absurd rfl (hq.mem_drop.mp mem).1)
      (fun st => by simp at st) (fun e => absurd (e.trans keeps.current) notCurrent)
      (by dsimp only; rw [prio, base]; exact (hc.slot r).priority)
      (by dsimp only; rw [base]; exact (hc.slot r).basePriority) (fun e => absurd e notIdle)

theorem Running.retire (h : Running s) (hq : QueuesOk s qs) (notCurrent : p ≠ s.current) :
    Running ((dequeue p s).modify p fun pcb =>
      { pcb with exitCode := -1, state := .zombie, ustack := 0 }) :=
  (h.keeps (dequeue_keeps hq p)).modify fun e =>
    absurd (e.trans (dequeue_keeps hq p).current) notCurrent

/-! ### Making a slot ready and queueing it -/

/-- The invariant with one slot `p` left to queue: the state inside a call that has made `p`
ready and is about to hand it to `scheduler_enqueue`. -/
structure Pending (s : State) (qs : Level → List Slot) (p : Slot) : Prop where
  queues : QueuesOk s qs
  others : ∀ r, r ≠ p → SlotOk s qs r
  boot : s.started = false → s.current = idleSlot
  fresh : ∀ q, p ∉ qs q
  ready : (s.table p).state = .ready
  priority : (s.table p).priority ≤ (s.table p).basePriority
  basePriority : (s.table p).basePriority < priorityLevels
  notCurrent : p = s.current → (s.table p).pid = 0
  idle : p = idleSlot → (s.table p).pid = 0

/-- The lists after `scheduler_enqueue p`: `p` appended at its priority's level, unless it
has the idle pid, which never queues. -/
def enqueued (qs : Level → List Slot) (s : State) (p : Slot) : Level → List Slot :=
  if (s.table p).pid = 0 then qs else push qs (levelOf (s.table p).priority) p

theorem mem_enqueued {q : Level} : r ∈ enqueued qs s p q ↔
    r ∈ qs q ∨ (s.table p).pid ≠ 0 ∧ q = levelOf (s.table p).priority ∧ r = p := by
  unfold enqueued
  split
  · next pid => simp [pid]
  · next pid => simp [mem_push, pid]

theorem enqueue_enqueued (h : QueuesOk s qs) (fresh : ∀ q, p ∉ qs q) :
    QueuesOk (enqueue p s) (enqueued qs s p) := by
  unfold enqueued
  split
  · next pid => rw [enqueue_of_pid_zero pid]; exact h
  · next pid => exact enqueue_queues h fresh pid

/-- Queueing the pending slot restores the invariant. -/
theorem Pending.enqueue_ok (h : Pending s qs p) :
    QueuesOk (enqueue p s) (enqueued qs s p) ∧ Consistent (enqueue p s) (enqueued qs s p) := by
  have keeps := enqueue_keeps p s
  refine ⟨enqueue_enqueued h.queues h.fresh,
    ⟨fun r => ?_, by rw [keeps.started, keeps.current]; exact h.boot⟩⟩
  by_cases hr : r = p
  · subst hr
    have level := levelOf_val (lt_of_le_of_lt h.priority h.basePriority)
    refine SlotOk.of_attrs (keeps.attrs r) ?_ ?_ ?_ h.priority h.basePriority ?_
    · intro q mem
      rcases mem_enqueued.mp mem with old | ⟨pid, rfl, -⟩
      · exact absurd old (h.fresh q)
      · exact ⟨h.ready, pid, level.symm⟩
    · exact fun _ pid => ⟨_, mem_enqueued.mpr (.inr ⟨pid, rfl, rfl⟩)⟩
    · intro e q mem
      rcases mem_enqueued.mp mem with old | ⟨pid, -, -⟩
      · exact h.fresh q old
      · exact pid (h.notCurrent (e.trans keeps.current))
    · intro e
      exact ⟨h.idle e, by rw [h.ready]; decide, by rw [h.ready]; decide⟩
  · exact (h.others r hr).congr (keeps.attrs r) (fun q => by simp [mem_enqueued, hr])
      (by rw [keeps.current])

theorem Pending.sound (h : Pending s qs p) : Sound (enqueue p s) :=
  ⟨_, h.enqueue_ok.1, h.enqueue_ok.2⟩

theorem Quiet.waiting_current (quiet : Quiet s)
    (waiting : (s.table p).state = .blocked ∨ (s.table p).state = .sleeping) :
    p = s.current → s.current = idleSlot := by
  rintro rfl
  rcases quiet with idle | ⟨notBlocked, notSleeping⟩
  · exact idle
  · rcases waiting with w | w
    · exact absurd w notBlocked
    · exact absurd w notSleeping

/-- A waiting slot made ready, as `scheduler_unblock` and `wake_sleepers` do: it was on no
queue, and it is not the caller unless the caller is the idle process. -/
theorem Consistent.pending_wake (hq : QueuesOk s qs) (hc : Consistent s qs) (quiet : Quiet s)
    (waiting : (s.table p).state = .blocked ∨ (s.table p).state = .sleeping) :
    Pending (s.modify p fun pcb => { pcb with state := .ready }) qs p where
  queues := hq.modify rfl
  others r hr := (hc.slot r).congr (by simp [hr]) (fun _ => Iff.rfl) Iff.rfl
  boot := hc.boot
  fresh := hc.not_queued (by rcases waiting with w | w <;> rw [w] <;> decide)
  ready := by simp
  priority := by simpa using (hc.slot p).priority
  basePriority := by simpa using (hc.slot p).basePriority
  notCurrent e := by
    have idle : p = idleSlot := e.trans (quiet.waiting_current waiting e)
    subst idle
    simpa using hc.idle.1
  idle e := by
    subst e
    simpa using hc.idle.1

/-- A fresh PCB installed in an unused slot and made ready, as `process_create` and
`sys_fork` do. -/
theorem Consistent.pending_install (hq : QueuesOk s qs) (hc : Consistent s qs) (running : Running s)
    (unused : (s.table p).state = .unused) {t : State} (others : ∀ r, r ≠ p → t.table r = s.table r)
    (heads : t.queueHead = s.queueHead) (tails : t.queueTail = s.queueTail)
    (current : t.current = s.current) (started : t.started = s.started)
    (ready : (t.table p).state = .ready)
    (priority : (t.table p).priority ≤ (t.table p).basePriority)
    (basePriority : (t.table p).basePriority < priorityLevels) : Pending t qs p where
  queues := hq.congr heads tails fun q r mem => by
    have rp : r ≠ p := fun e => hc.not_queued (r := p) (by rw [unused]; decide) q (e ▸ mem)
    simp [link, others r rp]
  others r hr := (hc.slot r).congr (by rw [others r hr]) (fun _ => Iff.rfl) (by rw [current])
  boot := by rw [started, current]; exact hc.boot
  fresh := hc.not_queued (by rw [unused]; decide)
  ready := ready
  priority := priority
  basePriority := basePriority
  notCurrent e := absurd (e.trans current) (hc.ne_current_of_unused running unused)
  idle e := absurd unused (e ▸ hc.idle.2.1)

theorem Running.install (h : Running s) (hc : Consistent s qs) (unused : (s.table p).state = .unused)
    {t : State} (others : ∀ r, r ≠ p → t.table r = s.table r) (current : t.current = s.current) :
    Running t := by
  have other : s.current ≠ p := (hc.ne_current_of_unused h unused).symm
  unfold Running
  rw [current, others _ other]
  exact h

end OpenOS.Process

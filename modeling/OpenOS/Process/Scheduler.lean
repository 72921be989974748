import OpenOS.Process.Process

/-! The multilevel round-robin scheduler of `process/scheduler.c`: one FIFO queue per level,
linked through the PCBs' `next` fields, aging, timed sleep, and `schedule`. The list walks
of the source follow `next` until `NULL`; here they carry a bound of `PROCESS_MAX + 1`
links, which a queue of distinct slots never reaches. -/
namespace OpenOS.Process

/-- The queue of a priority, clamped to the lowest level as `scheduler_enqueue` does. -/
def levelOf (priority : Nat) : Level :=
  if h : priority < priorityLevels then ⟨priority, h⟩ else ⟨priorityLevels - 1, by decide⟩

def levels : List Level := List.finRange priorityLevels

/-- `scheduler_enqueue`: append to the tail of the process's level; the idle pid never
queues. -/
def enqueue (p : Slot) (s : State) : State :=
  if (s.table p).pid = 0 then s
  else
    let s := s.modify p fun pcb => { pcb with next := none, waitTicks := 0 }
    let q := levelOf (s.table p).priority
    match s.queueTail q with
    | some t =>
      { s.modify t (fun pcb => { pcb with next := some p }) with
        queueTail := Function.update s.queueTail q (some p) }
    | none =>
      { s with queueHead := Function.update s.queueHead q (some p),
               queueTail := Function.update s.queueTail q (some p) }

/-- The splice of `scheduler_dequeue` once the walk meets `it` after `prev`: the predecessor
(or the head) takes its successor, a tail at `it` falls back to `prev`, and `it` is cut off. -/
def unlinkAt (it : Slot) (q : Level) (prev : Option Slot) (s : State) : State :=
  let succ := (s.table it).next
  let s := match prev with
    | some pr => s.modify pr fun pcb => { pcb with next := succ }
    | none => { s with queueHead := Function.update s.queueHead q succ }
  let tail := if s.queueTail q = some it then Function.update s.queueTail q prev else s.queueTail
  let s := { s with queueTail := tail }
  s.modify it fun pcb => { pcb with next := none }

/-- The walk of one queue in `scheduler_dequeue`, from `it` with predecessor `prev`; `none`
when `p` is not met. -/
def unlinkFrom (p : Slot) (q : Level) : Nat → Option Slot → Option Slot → State → Option State
  | 0, _, _, _ => none
  | _ + 1, _, none, _ => none
  | fuel + 1, prev, some it, s =>
    if it ≠ p then unlinkFrom p q fuel (some it) (s.table it).next s
    else some (unlinkAt it q prev s)

def dequeueFrom (p : Slot) : List Level → State → State
  | [], s => s
  | q :: qs, s =>
    match unlinkFrom p q (processMax + 1) none (s.queueHead q) s with
    | some s => s
    | none => dequeueFrom p qs s

/-- `scheduler_dequeue`: remove `p` from the first queue that holds it. -/
def dequeue (p : Slot) (s : State) : State := dequeueFrom p levels s

/-- The pop of `pick_next` at a non-empty level `q` with head `p`. -/
def popHead (q : Level) (p : Slot) (s : State) : State :=
  let succ := (s.table p).next
  let tail := if succ = none then Function.update s.queueTail q none else s.queueTail
  let s := { s with queueHead := Function.update s.queueHead q succ, queueTail := tail }
  s.modify p fun pcb => { pcb with next := none }

def pickFrom : List Level → State → Option Slot × State
  | [], s => (none, s)
  | q :: qs, s =>
    match s.queueHead q with
    | some p => (some p, popHead q p s)
    | none => pickFrom qs s

/-- `pick_next`: pop the head of the highest non-empty queue. -/
def pickNext (s : State) : Option Slot × State := pickFrom levels s

/-- `reap_orphans`: release every zombie other than the current process whose parent is gone,
a zombie, or the idle process. -/
def reapOrphans (s : State) : State :=
  slots.foldl (fun s i =>
    if (s.table i).state ≠ .zombie ∨ i = s.current then s
    else
      match processByPid (s.table i).ppid s with
      | none => processRelease i s
      | some parent =>
        if (s.table parent).state = .unused ∨ (s.table parent).state = .zombie ∨ (s.table parent).pid = 0
        then processRelease i s else s) s

/-- One level of `apply_aging`, walking from `it`: each waiting process ages, and one that
waited too long moves up a level. -/
def ageQueue (q : Nat) : Nat → Option Slot → State → State
  | 0, _, s => s
  | _ + 1, none, s => s
  | fuel + 1, some it, s =>
    let succ := (s.table it).next
    let s := s.modify it fun pcb => { pcb with waitTicks := pcb.waitTicks + 1 }
    let s := if (s.table it).waitTicks > agingThreshold then
        enqueue it ((dequeue it s).modify it fun pcb => { pcb with priority := q - 1 })
      else s
    ageQueue q fuel succ s

/-- The levels that age, `1 .. PRIORITY_LEVELS - 1`. -/
def agingLevels : List Level := [⟨1, by decide⟩, ⟨2, by decide⟩]

def applyAging (s : State) : State :=
  agingLevels.foldl (fun s q => ageQueue q.val (processMax + 1) (s.queueHead q) s) s

/-- `wake_sleepers`. -/
def wakeSleepers (now : Nat) (s : State) : State :=
  slots.foldl (fun s i =>
    if (s.table i).state = .sleeping ∧ (s.table i).sleepUntil ≤ now then
      enqueue i (s.modify i fun pcb => { pcb with state := .ready })
    else s) s

/-- The end of `schedule`: requeue `prev` if it still runs, and run `next`. -/
def switchTo (prev next : Slot) (s : State) : State :=
  let s := if (s.table prev).state = .running then
      enqueue prev (s.modify prev fun pcb => { pcb with state := .ready, priority := pcb.basePriority })
    else s
  let s := s.modify next fun pcb =>
    { pcb with state := .running, priority := pcb.basePriority, quantumLeft := schedQuantumTicks }
  { s with current := next, contextSwitches := s.contextSwitches + 1 }

def schedule (s : State) : State :=
  if !s.started then s
  else
    let s := reapOrphans s
    let prev := s.current
    match pickNext s with
    | (some next, s) => switchTo prev next s
    | (none, s) =>
      -- nothing queued: keep a running process, else fall back to idle
      if (s.table prev).state = .running then s.modify prev fun pcb => { pcb with quantumLeft := schedQuantumTicks }
      else
        match processByPid 0 s with
        | none => s
        | some next => if next = prev then s else switchTo prev next s

/-- `scheduler_tick`: account the tick, wake and age, and preempt on an expired quantum or a
higher level that became ready. -/
def schedulerTick (s : State) : State :=
  if !s.started then s
  else
    let now := s.ticks
    let s := s.modify s.current fun pcb => { pcb with cpuTicks := pcb.cpuTicks + 1 }
    let s := applyAging (wakeSleepers now s)
    let cur := s.table s.current
    let higher := levels.any fun q => decide (q.val < cur.priority) && (s.queueHead q).isSome
    -- the idle process gives way to anything runnable
    let higher := higher || (cur.pid == 0 && levels.any fun q => (s.queueHead q).isSome)
    let s := if cur.quantumLeft > 0 then s.modify s.current fun pcb => { pcb with quantumLeft := pcb.quantumLeft - 1 }
      else s
    if higher || (s.table s.current).quantumLeft == 0 then schedule s else s

/-- `timer_handler`: the tick count, then the scheduler. -/
def timerTick (s : State) : State := schedulerTick { s with ticks := s.ticks + 1 }

def schedulerYield (s : State) : State :=
  if s.started then schedule (s.modify s.current fun pcb => { pcb with quantumLeft := 0 }) else s

def schedulerBlockCurrent (s : State) : State := schedule s

def schedulerUnblock (p : Slot) (s : State) : State :=
  if (s.table p).state = .blocked ∨ (s.table p).state = .sleeping then
    enqueue p (s.modify p fun pcb => { pcb with state := .ready })
  else s

def schedulerStart (s : State) : State := { s with started := true }

end OpenOS.Process

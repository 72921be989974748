import OpenOS.Process.Scheduler

/-! Process creation, exit, kill, wait and sleep from `process/process.c`, and `sys_fork` from
`kernel/syscall.c`. Each acts on behalf of the current process. A call that switches away
from its caller (exit, or a wait or sleep that blocks) ends in `schedule`; the caller's
later resumption is the next call it makes. -/
namespace OpenOS.Process

/-- Wake a parent blocked in `process_wait`, as `process_exit` and `process_kill` do. -/
def wakeParent (child : Slot) (s : State) : State :=
  match processByPid (s.table child).ppid s with
  | some parent =>
    if (s.table parent).parentWaiting ∧ (s.table parent).state = .blocked then schedulerUnblock parent s
    else s
  | none => s

/-- `process_create` with `stack` the result of `kmalloc(PROCESS_KSTACK_SIZE)` and `entry`
the entry point, `0` for `NULL`. -/
def processCreate (entry priority stack : Nat) (s : State) : Option Slot × State :=
  if entry = 0 ∨ priority ≥ priorityLevels then (none, s)
  else if stack = 0 then (none, s)
  else
    match allocPcb s with
    | (none, s) => (none, s)
    | (some p, s) =>
      let s := s.modify p fun pcb =>
        { pcb with ppid := (s.table s.current).pid, priority := priority, basePriority := priority,
                   quantumLeft := schedQuantumTicks, kstack := stack, isUser := false, state := .ready }
      (some p, enqueue p s)

/-- `process_create_user`, with `ustack` from `kmalloc(PROCESS_USTACK_SIZE)`; the kernel
thread it creates runs the user trampoline. -/
def processCreateUser (priority ustack stack : Nat) (s : State) : Option Slot × State :=
  if ustack = 0 then (none, s)
  else
    match processCreate 1 priority stack s with
    | (none, s) => (none, s)
    | (some p, s) => (some p, s.modify p fun pcb => { pcb with isUser := true, ustack := ustack })

/-- `process_exit`: the caller becomes a zombie and the CPU goes to the next process. -/
def processExit (code : Int) (s : State) : State :=
  let self := s.current
  let s := s.modify self fun pcb => { pcb with exitCode := code, state := .zombie, ustack := 0 }
  schedule (wakeParent self s)

/-- `process_kill`: `none` when the caller killed itself and never returns. -/
def processKill (pid : Nat) (s : State) : Option Int × State :=
  if pid = 0 then (some (-1), s)
  else
    match processByPid pid s with
    | none => (some (-1), s)
    | some p =>
      if (s.table p).state = .unused ∨ (s.table p).state = .zombie then (some (-1), s)
      else if p = s.current then (none, processExit (-1) s)
      else
        let s := (dequeue p s).modify p fun pcb => { pcb with exitCode := -1, state := .zombie, ustack := 0 }
        (some 0, wakeParent p s)

inductive WaitResult
  | reaped (pid : Nat) (status : Int)
  | noChildren
  | blocked
  deriving DecidableEq, Repr

/-- One pass of the loop of `process_wait`, including the reset of `parent_waiting` that
ends a pass resumed after blocking: reap the first zombie child, or report that there are
no children, or block until a child exits. -/
def processWait (s : State) : WaitResult × State :=
  let s := s.modify s.current fun pcb => { pcb with parentWaiting := false }
  let children := slots.filter fun i =>
    (s.table i).state != .unused && (s.table i).ppid == (s.table s.current).pid && i != s.current
  match children.find? (fun i => (s.table i).state == .zombie) with
  | some p => (.reaped (s.table p).pid (s.table p).exitCode, processRelease p s)
  | none =>
    if children = [] then (.noChildren, s)
    else
      (.blocked, schedulerBlockCurrent
        (s.modify s.current fun pcb => { pcb with parentWaiting := true, state := .blocked }))

/-- `process_sleep`: at least `ms` milliseconds at 100 Hz, rounded up in 32 bits. -/
def processSleep (ms : Nat) (s : State) : State :=
  if ms = 0 then schedulerYield s
  else
    let ticks := (ms + 9) % 2^32 / 10
    schedulerBlockCurrent
      (s.modify s.current fun pcb => { pcb with sleepUntil := s.ticks + ticks, state := .sleeping })

/-- The pid scan of `sys_fork`: the first pid from `pid` on that no live slot other than the
child holds. At most 64 slots are live, so the scan stops well within its fuel. -/
def forkPid (child : Slot) (s : State) : Nat → Nat → Nat
  | 0, pid => pid
  | fuel + 1, pid =>
    if slots.any (fun i => i != child && (s.table i).state != .unused && (s.table i).pid == pid) then
      forkPid child s fuel ((pid + 1) % 2^32)
    else pid

/-- `sys_fork` with the two stacks from `kmalloc`: the child starts as a copy of the caller
and gets the lowest free pid. -/
def sysFork (kstack ustack : Nat) (s : State) : Int × State :=
  let parent := s.table s.current
  if !parent.isUser || parent.ustack = 0 then (-1, s)
  else if kstack = 0 ∨ ustack = 0 then (-1, s)
  else
    match slots.find? (fun i => (s.table i).state == .unused) with
    | none => (-1, s)
    | some child =>
      let copy := { parent with next := none, parentWaiting := false, cpuTicks := 0, waitTicks := 0 }
      let s := { s with table := Function.update s.table child copy }
      let pid := forkPid child s (2^32) 1
      let s := s.modify child fun pcb =>
        { pcb with pid := pid, ppid := parent.pid, kstack := kstack, ustack := ustack, state := .ready }
      (pid, enqueue child s)

/-- The entry points of the process layer, each made by the current process; `tick` is a
timer interrupt. -/
inductive ProcCall
  | create (entry priority stack : Nat)
  | createUser (priority ustack stack : Nat)
  | fork (kstack ustack : Nat)
  | exit (code : Int)
  | kill (pid : Nat)
  | wait
  | sleep (ms : Nat)
  | tick
  | schedule
  | yield
  | unblock (p : Slot)
  | start
  deriving DecidableEq, Repr

def ProcCall.apply : ProcCall → State → State
  | .create entry priority stack, s => (processCreate entry priority stack s).2
  | .createUser priority ustack stack, s => (processCreateUser priority ustack stack s).2
  | .fork kstack ustack, s => (sysFork kstack ustack s).2
  | .exit code, s => processExit code s
  | .kill pid, s => (processKill pid s).2
  | .wait, s => (processWait s).2
  | .sleep ms, s => processSleep ms s
  | .tick, s => timerTick s
  | .schedule, s => OpenOS.Process.schedule s
  | .yield, s => schedulerYield s
  | .unblock p, s => schedulerUnblock p s
  | .start, s => schedulerStart s

end OpenOS.Process

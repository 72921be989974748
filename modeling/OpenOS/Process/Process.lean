import Mathlib

/-! The process table of `process/process.c` and the scheduler's statics of
`process/scheduler.c`. A `process_t *` is a slot of the 64-entry table; `NULL` is `none`.
The PCB keeps the fields that the modelled functions read or write; the name, the saved
`esp`, the stack tops and the user entry point only feed the context switch and the TSS,
which the model leaves out. Stacks come from `kmalloc`, whose result is an input of the
call that allocates them. -/
namespace OpenOS.Process

def processMax : Nat := 64

def priorityHigh : Nat := 0
def priorityNormal : Nat := 1
def priorityLow : Nat := 2
def priorityLevels : Nat := 3

def schedQuantumTicks : Nat := 5
def agingThreshold : Nat := 200

inductive ProcessState
  | unused
  | ready
  | running
  | blocked
  | sleeping
  | zombie
  deriving DecidableEq, Repr

abbrev Slot := Fin processMax

/-- Slot 0, where `process_init` puts the idle process. -/
def idleSlot : Slot := ⟨0, by decide⟩

abbrev Level := Fin priorityLevels

structure Pcb where
  pid : Nat
  ppid : Nat
  state : ProcessState
  priority : Nat
  basePriority : Nat
  quantumLeft : Nat
  waitTicks : Nat
  cpuTicks : Nat
  next : Option Slot
  kstack : Nat
  isUser : Bool
  ustack : Nat
  sleepUntil : Nat
  exitCode : Int
  parentWaiting : Bool
  deriving DecidableEq, Repr

/-- A PCB cleared to zero bytes. -/
def Pcb.zero : Pcb := ⟨0, 0, .unused, 0, 0, 0, 0, 0, none, 0, false, 0, 0, 0, false⟩

structure State where
  table : Slot → Pcb
  nextPid : Nat
  /-- `current_process`, never `NULL` after `process_init`. -/
  current : Slot
  queueHead : Level → Option Slot
  queueTail : Level → Option Slot
  started : Bool
  contextSwitches : Nat
  /-- `system_ticks` of the timer. -/
  ticks : Nat

/-- A store into the PCB in slot `p`. -/
def State.modify (s : State) (p : Slot) (f : Pcb → Pcb) : State :=
  { s with table := Function.update s.table p (f (s.table p)) }

@[simp] theorem State.modify_table (s : State) (p : Slot) (f : Pcb → Pcb) :
    (s.modify p f).table = Function.update s.table p (f (s.table p)) := rfl
@[simp] theorem State.modify_nextPid (s : State) (p : Slot) (f : Pcb → Pcb) :
    (s.modify p f).nextPid = s.nextPid := rfl
@[simp] theorem State.modify_current (s : State) (p : Slot) (f : Pcb → Pcb) :
    (s.modify p f).current = s.current := rfl
@[simp] theorem State.modify_queueHead (s : State) (p : Slot) (f : Pcb → Pcb) :
    (s.modify p f).queueHead = s.queueHead := rfl
@[simp] theorem State.modify_queueTail (s : State) (p : Slot) (f : Pcb → Pcb) :
    (s.modify p f).queueTail = s.queueTail := rfl
@[simp] theorem State.modify_started (s : State) (p : Slot) (f : Pcb → Pcb) :
    (s.modify p f).started = s.started := rfl
@[simp] theorem State.modify_ticks (s : State) (p : Slot) (f : Pcb → Pcb) :
    (s.modify p f).ticks = s.ticks := rfl

def slots : List Slot := List.finRange processMax

/-- The first live slot with this pid. -/
def processByPid (pid : Nat) (s : State) : Option Slot :=
  slots.find? fun i => (s.table i).state != .unused && (s.table i).pid == pid

def processCount (s : State) : Nat := slots.countP fun i => (s.table i).state != .unused

/-- `process_release`: the reaper frees the stacks and the slot; never the current one. -/
def processRelease (p : Slot) (s : State) : State :=
  if p = s.current then s
  else s.modify p fun pcb => { pcb with kstack := 0, ustack := 0, state := .unused, pid := 0 }

/-- `alloc_pcb`: the first unused slot, cleared, with the next pid. -/
def allocPcb (s : State) : Option Slot × State :=
  match slots.find? (fun i => (s.table i).state == .unused) with
  | none => (none, s)
  | some p =>
    (some p, { s with table := Function.update s.table p { Pcb.zero with pid := s.nextPid },
                      nextPid := (s.nextPid + 1) % 2^32 })

/-- `process_init`: every slot unused, and the boot context adopted as pid 0 in slot 0. -/
def processInit : State where
  table := fun i => if i = idleSlot then
      { Pcb.zero with state := .running, priority := priorityLow, basePriority := priorityLow,
                      quantumLeft := schedQuantumTicks }
    else Pcb.zero
  nextPid := 1
  current := idleSlot
  queueHead := fun _ => none
  queueTail := fun _ => none
  started := false
  contextSwitches := 0
  ticks := 0

end OpenOS.Process

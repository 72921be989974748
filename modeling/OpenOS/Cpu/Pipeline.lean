import Mathlib
import OpenOS.Lib.Run

/-! The 5-stage pipeline simulator of `kernel/cpu/pipeline.c`. A latch holds an instruction
or nothing: the fields of an invalid `Instruction` are never read. The `IF` latch and the
`stalled` flags are never read either, and are left out; the counters are `uint64_t` and stay
far below 2^64 here, so they are natural numbers. The program counter is 32 bits. -/
namespace OpenOS.Cpu

/-- A decoded `Instruction` that is `valid`. -/
structure Instruction where
  opcode : UInt32
  rd : UInt32
  rs1 : UInt32
  rs2 : UInt32
  immediate : UInt32
  pc : UInt32
  deriving DecidableEq, Repr

/-- `PipelineCPU`, with the four latches that carry instructions. -/
structure PipelineCpu where
  id : Option Instruction
  ex : Option Instruction
  mem : Option Instruction
  wb : Option Instruction
  pc : UInt32
  registers : Nat → UInt32
  cycleCount : Nat
  instructionCount : Nat
  stallCount : Nat
  running : Bool

/-- `pipeline_init`: everything zero and empty, and running. -/
def pipelineInit : PipelineCpu := ⟨none, none, none, none, 0, fun _ => 0, 0, 0, 0, true⟩

/-- The field split of `fetch_instruction`. -/
def decode (raw pc : UInt32) : Instruction :=
  ⟨raw &&& 0x7F, (raw >>> 7) &&& 0x1F, (raw >>> 15) &&& 0x1F, (raw >>> 20) &&& 0x1F, raw >>> 20, pc⟩

/-- `fetch_instruction`; `none` is an instruction that is not `valid`. -/
def fetchInstruction (memory : Nat → UInt32) (memSize pc : UInt32) : Option Instruction :=
  if pc / 4 ≥ memSize then none else some (decode (memory (pc / 4).toNat) pc)

/-- The destination test of the hazard check and of write-back: a register other than 0,
and not a store. -/
def writesRegister (i : Instruction) : Bool := i.rd != 0 && i.opcode != 0x23

/-- `pipeline_detect_hazard`: the instruction in `EX` writes a register the one in `ID` reads. -/
def pipelineDetectHazard (cpu : PipelineCpu) : Bool :=
  match cpu.id, cpu.ex with
  | some i, some e => writesRegister e && (i.rs1 == e.rd || i.rs2 == e.rd)
  | _, _ => false

/-- The `WB` branch of `pipeline_cycle`: write the immediate and count the instruction. -/
def writeBack (cpu : PipelineCpu) : (Nat → UInt32) × Nat :=
  match cpu.wb with
  | some i =>
    (if writesRegister i then Function.update cpu.registers i.rd.toNat i.immediate else cpu.registers,
      cpu.instructionCount + 1)
  | none => (cpu.registers, cpu.instructionCount)

/-- `pipeline_cycle`: the next latches are built from the current ones, and the end of the
program is tested on the current latches. -/
def pipelineCycle (memory : Nat → UInt32) (memSize : UInt32) (cpu : PipelineCpu) : PipelineCpu :=
  if !cpu.running then cpu
  else
    let stall := pipelineDetectHazard cpu
    let (registers, instructionCount) := writeBack cpu
    -- `ID` moves on to `EX`, or stays for a stall cycle
    let (nextEx, nextId, stallCount) :=
      match cpu.id with
      | some i => if !stall then (some i, none, cpu.stallCount) else (none, some i, cpu.stallCount + 1)
      | none => (none, none, cpu.stallCount)
    let (nextId, pc, running) :=
      if !stall && cpu.pc / 4 < memSize then
        match fetchInstruction memory memSize cpu.pc with
        | some i => (some i, cpu.pc + 4, cpu.running)
        | none => (nextId, cpu.pc, cpu.running)
      else if cpu.pc / 4 ≥ memSize then
        (nextId, cpu.pc,
          !(cpu.id.isNone && cpu.ex.isNone && cpu.mem.isNone && cpu.wb.isNone) && cpu.running)
      else (nextId, cpu.pc, cpu.running)
    { id := nextId, ex := nextEx, mem := cpu.ex, wb := cpu.mem, pc := pc, registers := registers,
      cycleCount := cpu.cycleCount + 1, instructionCount := instructionCount, stallCount := stallCount,
      running := running }

/-- The loop of `pipeline_execute`: a cycle while the CPU runs and fewer than `target`
instructions have retired, and out once `cycle_count` is past `target * 10`. Every pass
counts one more cycle, so the cut-off ends the loop within `target * 10 + 1` passes, the fuel
`pipelineExecute` gives it. -/
def executeLoop (memory : Nat → UInt32) (memSize : UInt32) (target : Nat) :
    Nat → PipelineCpu → PipelineCpu
  | 0, cpu => cpu
  | fuel + 1, cpu =>
    if cpu.running && cpu.instructionCount < target then
      let cpu := pipelineCycle memory memSize cpu
      if cpu.cycleCount > target * 10 then cpu else executeLoop memory memSize target fuel cpu
    else cpu

/-- `pipeline_execute`: run until `num_instructions` more instructions have retired. -/
def pipelineExecute (memory : Nat → UInt32) (memSize numInstructions : UInt32)
    (cpu : PipelineCpu) : PipelineCpu :=
  let target := cpu.instructionCount + numInstructions.toNat
  executeLoop memory memSize target (target * 10 + 1) cpu

/-- The CPU after `k` calls of `pipeline_cycle` from `pipeline_init`. -/
def cycles (memory : Nat → UInt32) (memSize : UInt32) (k : Nat) : PipelineCpu :=
  Runs.run (fun (_ : Unit) => pipelineCycle memory memSize) (List.replicate k ()) pipelineInit

/-- The address a cycle fetches from, if it fetches. -/
def fetched (memSize : UInt32) (_ : Unit) (cpu : PipelineCpu) : List UInt32 :=
  if cpu.running && !pipelineDetectHazard cpu && cpu.pc / 4 < memSize then [cpu.pc] else []

/-- The address of the instruction a cycle passes through the `WB` branch, if any. -/
def retired (_ : Unit) (cpu : PipelineCpu) : List UInt32 :=
  if cpu.running then cpu.wb.toList.map Instruction.pc else []

/-- The addresses fetched, and retired, over the first `k` cycles, in order. -/
def fetchTrace (memory : Nat → UInt32) (memSize : UInt32) (k : Nat) : List UInt32 :=
  Runs.outputs (fun (_ : Unit) => pipelineCycle memory memSize) (fetched memSize)
    (List.replicate k ()) pipelineInit

def retireTrace (memory : Nat → UInt32) (memSize : UInt32) (k : Nat) : List UInt32 :=
  Runs.outputs (fun (_ : Unit) => pipelineCycle memory memSize) retired (List.replicate k ()) pipelineInit

/-- The sequential machine the pipeline should agree with: for each word in turn, the
immediate `word >> 20` goes to `rd` when `rd` is not 0 and the opcode is not a store. -/
def referenceRegisters (memory : Nat → UInt32) (n : Nat) : Nat → UInt32 :=
  (List.range n).foldl (fun registers i =>
    let raw := memory i
    if ((raw >>> 7) &&& 0x1F) ≠ 0 ∧ raw &&& 0x7F ≠ 0x23 then
      Function.update registers ((raw >>> 7) &&& 0x1F).toNat (raw >>> 20)
    else registers) fun _ => 0

end OpenOS.Cpu

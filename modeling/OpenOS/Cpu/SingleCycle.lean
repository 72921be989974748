import Mathlib
import OpenOS.Cpu.PipelineSim

/-! The single-cycle reference CPU of `kernel/cpu/single_cycle.c`, against which the benchmark
measures the pipeline. Each call of `single_cycle_execute_one` fetches the word at `pc`, splits
it into the fields `fetch_instruction` splits it into, computes an `add`, an `addi`, a load or a
store, writes the result back and moves `pc` on by 4. The stores write the instruction memory
itself, so the state is the CPU together with the memory.

Every run keeps `x0` at 0, counts one cycle per instruction and writes no word at or past
`mem_size`. Given `num_instructions` passes, `single_cycle_execute` retires
`min(num_instructions, mem_size)` instructions as long as `mem_size < 2^30`; from `2^30` words
on, `pc / 4` is below `mem_size` for every 32-bit `pc` and the CPU never stops. On a program of
`addi`s from `x0` it ends with the registers the pipeline ends with. -/
namespace OpenOS.Cpu

/-- `SingleCycleCPU`; the counters are `uint64_t` and stay far below `2^64`. -/
structure SingleCycleCpu where
  pc : UInt32
  registers : Nat → UInt32
  cycleCount : Nat
  instructionCount : Nat
  running : Bool

/-- `single_cycle_init`: everything zero, and running. -/
def singleCycleInit : SingleCycleCpu := ⟨0, fun _ => 0, 0, 0, true⟩

/-- The execute `switch` of `single_cycle_execute_one` on a decoded word: the result to write
back, and the memory after a store. A load or a store outside the memory is skipped. -/
def execute (memory : Nat → UInt32) (memSize : UInt32) (registers : Nat → UInt32) (i : Instruction) :
    UInt32 × (Nat → UInt32) :=
  let address := (registers i.rs1.toNat + i.immediate) / 4
  if i.opcode = 0x33 then (registers i.rs1.toNat + registers i.rs2.toNat, memory)
  else if i.opcode = 0x13 then (registers i.rs1.toNat + i.immediate, memory)
  else if i.opcode = 0x03 then (if address < memSize then memory address.toNat else 0, memory)
  else if i.opcode = 0x23 then
    (0, if address < memSize then Function.update memory address.toNat (registers i.rs2.toNat) else memory)
  else (0, memory)

/-- Fetch, decode, execute and write back the word at `pc`, and count it. The write-back test
is the one of the pipeline's `WB` stage. -/
def retire (memSize : UInt32) (cpu : SingleCycleCpu) (memory : Nat → UInt32) :
    SingleCycleCpu × (Nat → UInt32) :=
  let i := decode (memory (cpu.pc / 4).toNat) cpu.pc
  let done := execute memory memSize cpu.registers i
  ({ cpu with
      pc := cpu.pc + 4
      registers := if writesRegister i then Function.update cpu.registers i.rd.toNat done.1 else cpu.registers
      cycleCount := cpu.cycleCount + 1
      instructionCount := cpu.instructionCount + 1 }, done.2)

/-- `single_cycle_execute_one(cpu, memory, mem_size)`: nothing once stopped, a stop at the end
of the memory, and otherwise the word at `pc`. -/
def singleCycleExecuteOne (memSize : UInt32) (cpu : SingleCycleCpu) (memory : Nat → UInt32) :
    SingleCycleCpu × (Nat → UInt32) :=
  if !cpu.running then (cpu, memory)
  else if cpu.pc / 4 ≥ memSize then ({ cpu with running := false }, memory)
  else retire memSize cpu memory

/-- The `for` loop of `single_cycle_execute`: one more pass while fewer than
`num_instructions` passes have run and the CPU runs. -/
def singleCycleLoop (memSize : UInt32) :
    Nat → SingleCycleCpu × (Nat → UInt32) → SingleCycleCpu × (Nat → UInt32)
  | 0, m => m
  | passes + 1, m =>
    if m.1.running then singleCycleLoop memSize passes (singleCycleExecuteOne memSize m.1 m.2) else m

/-- `single_cycle_execute(cpu, memory, mem_size, num_instructions)`. -/
def singleCycleExecute (memory : Nat → UInt32) (memSize numInstructions : UInt32) (cpu : SingleCycleCpu) :
    SingleCycleCpu × (Nat → UInt32) :=
  singleCycleLoop memSize numInstructions.toNat (cpu, memory)

/-- The entry points that change the CPU or the memory. -/
inductive SingleCycleCall
  | executeOne
  | execute (numInstructions : UInt32)
  | reset

/-- A call on the program memory of `mem_size` words; `single_cycle_reset` is
`single_cycle_init` again and leaves the memory. -/
def SingleCycleCall.apply (memSize : UInt32) :
    SingleCycleCall → SingleCycleCpu × (Nat → UInt32) → SingleCycleCpu × (Nat → UInt32)
  | .executeOne, m => singleCycleExecuteOne memSize m.1 m.2
  | .execute numInstructions, m => singleCycleExecute m.2 memSize numInstructions m.1
  | .reset, m => (singleCycleInit, m.2)

/-! ### One call -/

section Step

variable {memSize : UInt32} {cpu : SingleCycleCpu} {memory : Nat → UInt32}

@[simp] theorem retire_pc : (retire memSize cpu memory).1.pc = cpu.pc + 4 := rfl
@[simp] theorem retire_cycleCount : (retire memSize cpu memory).1.cycleCount = cpu.cycleCount + 1 := rfl
@[simp] theorem retire_instructionCount :
    (retire memSize cpu memory).1.instructionCount = cpu.instructionCount + 1 := rfl
@[simp] theorem retire_running : (retire memSize cpu memory).1.running = cpu.running := rfl

theorem retire_registers : (retire memSize cpu memory).1.registers =
    if writesRegister (decode (memory (cpu.pc / 4).toNat) cpu.pc) then
      Function.update cpu.registers (decode (memory (cpu.pc / 4).toNat) cpu.pc).rd.toNat
        (execute memory memSize cpu.registers (decode (memory (cpu.pc / 4).toNat) cpu.pc)).1
    else cpu.registers := rfl

theorem retire_memory :
    (retire memSize cpu memory).2 = (execute memory memSize cpu.registers (decode (memory (cpu.pc / 4).toNat) cpu.pc)).2 :=
  rfl

theorem singleCycleExecuteOne_halted (halted : cpu.running = false) :
    singleCycleExecuteOne memSize cpu memory = (cpu, memory) := by
  simp [singleCycleExecuteOne, halted]

theorem singleCycleExecuteOne_end (running : cpu.running = true) (past : memSize ≤ cpu.pc / 4) :
    singleCycleExecuteOne memSize cpu memory = ({ cpu with running := false }, memory) := by
  simp [singleCycleExecuteOne, running, past]

theorem singleCycleExecuteOne_fetch (running : cpu.running = true) (inside : cpu.pc / 4 < memSize) :
    singleCycleExecuteOne memSize cpu memory = retire memSize cpu memory := by
  simp [singleCycleExecuteOne, running, UInt32.not_le.mpr inside]

theorem writesRegister_rd {i : Instruction} (writes : writesRegister i = true) : i.rd.toNat ≠ 0 := by
  simp only [writesRegister, Bool.and_eq_true, bne_iff_ne] at writes
  exact fun zero => writes.1 (UInt32.toNat_inj.mp zero)

theorem retire_zero : (retire memSize cpu memory).1.registers 0 = cpu.registers 0 := by
  simp only [retire]
  split
  · next writes => exact Function.update_of_ne (writesRegister_rd writes).symm _ _
  · rfl

theorem execute_frame (registers : Nat → UInt32) (i : Instruction) {j : Nat} (past : memSize.toNat ≤ j) :
    (execute memory memSize registers i).2 j = memory j := by
  unfold execute
  dsimp only
  split_ifs
  all_goals try rfl
  -- what is left is the store inside the memory
  rename_i inside
  have below : ((registers i.rs1.toNat + i.immediate) / 4).toNat < memSize.toNat := UInt32.lt_iff_toNat_lt.mp inside
  exact Function.update_of_ne (by omega) _ _

theorem execute_memory_of_ne_store (registers : Nat → UInt32) {i : Instruction} (notStore : i.opcode ≠ 0x23) :
    (execute memory memSize registers i).2 = memory := by
  unfold execute
  split_ifs
  all_goals rfl

theorem retire_frame {j : Nat} (past : memSize.toNat ≤ j) : (retire memSize cpu memory).2 j = memory j :=
  execute_frame cpu.registers _ past

end Step

/-! ### What every run keeps -/

/-- `pc` is the address of the next word, modulo the 32 bits of `pc`; one cycle per
instruction; `x0` is 0. -/
structure Counting (cpu : SingleCycleCpu) : Prop where
  pc_eq : cpu.pc.toNat = 4 * (cpu.instructionCount % 2^30)
  cycles_eq : cpu.cycleCount = cpu.instructionCount
  zero : cpu.registers 0 = 0

theorem counting_init : Counting singleCycleInit := ⟨rfl, rfl, rfl⟩

section Counting

variable {memSize : UInt32} {cpu : SingleCycleCpu} {memory : Nat → UInt32}

theorem Counting.word (c : Counting cpu) : (cpu.pc / 4).toNat = cpu.instructionCount % 2^30 := by
  rw [UInt32.toNat_div, c.pc_eq, show (4 : UInt32).toNat = 4 from rfl]
  omega

theorem Counting.retire (c : Counting cpu) : Counting (retire memSize cpu memory).1 where
  pc_eq := by
    rw [retire_pc, retire_instructionCount, UInt32.toNat_add, c.pc_eq, show (4 : UInt32).toNat = 4 from rfl]
    omega
  cycles_eq := by rw [retire_cycleCount, retire_instructionCount, c.cycles_eq]
  zero := retire_zero.trans c.zero

theorem Counting.executeOne (c : Counting cpu) : Counting (singleCycleExecuteOne memSize cpu memory).1 := by
  cases running : cpu.running
  · rw [singleCycleExecuteOne_halted running]
    exact c
  · by_cases inside : cpu.pc / 4 < memSize
    · rw [singleCycleExecuteOne_fetch running inside]
      exact c.retire
    · rw [singleCycleExecuteOne_end running (UInt32.not_lt.mp inside)]
      exact ⟨c.pc_eq, c.cycles_eq, c.zero⟩

theorem executeOne_frame {j : Nat} (past : memSize.toNat ≤ j) :
    (singleCycleExecuteOne memSize cpu memory).2 j = memory j := by
  unfold singleCycleExecuteOne
  split_ifs
  · rfl
  · rfl
  · exact retire_frame past

theorem singleCycleLoop_halted (passes : Nat) {m : SingleCycleCpu × (Nat → UInt32)} (halted : m.1.running = false) :
    singleCycleLoop memSize passes m = m := by
  cases passes <;> simp [singleCycleLoop, halted]

theorem singleCycleLoop_invariant (inv : SingleCycleCpu × (Nat → UInt32) → Prop)
    (pass : ∀ m, inv m → inv (singleCycleExecuteOne memSize m.1 m.2)) :
    ∀ (passes : Nat) (m : SingleCycleCpu × (Nat → UInt32)), inv m → inv (singleCycleLoop memSize passes m)
  | 0, _, start => start
  | passes + 1, m, start => by
    rw [singleCycleLoop]
    split
    · exact singleCycleLoop_invariant inv pass passes _ (pass m start)
    · exact start

end Counting

/-- In every run of the entry points from `single_cycle_init`, `x0` reads 0, the CPU has
counted one cycle per instruction (its CPI is 1), and no word at or past `mem_size` has
changed: every load and store is bounds-checked. -/
theorem single_cycle_runs_safe (memory : Nat → UInt32) (memSize : UInt32) (calls : List SingleCycleCall) :
    (Runs.run (SingleCycleCall.apply memSize) calls (singleCycleInit, memory)).1.registers 0 = 0 ∧
      (Runs.run (SingleCycleCall.apply memSize) calls (singleCycleInit, memory)).1.cycleCount =
        (Runs.run (SingleCycleCall.apply memSize) calls (singleCycleInit, memory)).1.instructionCount ∧
      ∀ j, memSize.toNat ≤ j → (Runs.run (SingleCycleCall.apply memSize) calls (singleCycleInit, memory)).2 j = memory j := by
  -- the invariant: the counting facts, and the memory past `mem_size` as it was
  let inv := fun (m : SingleCycleCpu × (Nat → UInt32)) => Counting m.1 ∧ ∀ j, memSize.toNat ≤ j → m.2 j = memory j
  have pass : ∀ m, inv m → inv (singleCycleExecuteOne memSize m.1 m.2) := fun m ⟨c, frame⟩ =>
    ⟨c.executeOne, fun j past => (executeOne_frame past).trans (frame j past)⟩
  have safe : inv (Runs.run (SingleCycleCall.apply memSize) calls (singleCycleInit, memory)) := by
    refine Runs.run_invariant_all inv (fun m call start => ?_) ⟨counting_init, fun _ _ => rfl⟩
    cases call with
    | executeOne => exact pass m start
    | execute numInstructions => exact singleCycleLoop_invariant inv pass _ _ start
    | reset => exact ⟨counting_init, start.2⟩
  exact ⟨safe.1.zero, safe.1.cycles_eq, safe.2⟩

/-! ### How many instructions `single_cycle_execute` runs -/

section Loop

variable {memSize : UInt32}

/-- Below `2^30` words the CPU stops one pass after the last word: from a count `c` at most
`mem_size`, `passes` more passes bring it to `min(c + passes, mem_size)`, and it is still
running exactly when the passes did not go past the end. -/
theorem singleCycleLoop_small (small : memSize.toNat < 2^30) :
    ∀ (passes : Nat) (m : SingleCycleCpu × (Nat → UInt32)), Counting m.1 → m.1.running = true →
      m.1.instructionCount ≤ memSize.toNat →
      (singleCycleLoop memSize passes m).1.instructionCount = min (m.1.instructionCount + passes) memSize.toNat ∧
        (singleCycleLoop memSize passes m).1.running = decide (m.1.instructionCount + passes ≤ memSize.toNat)
  | 0, m, _, running, le => by simp [singleCycleLoop, running, le]
  | passes + 1, m, c, running, le => by
    have word := c.word
    rw [singleCycleLoop, if_pos running]
    by_cases left : m.1.instructionCount < memSize.toNat
    · -- a word is left: it retires, and the count moves on by one
      have inside : m.1.pc / 4 < memSize := UInt32.lt_iff_toNat_lt.mpr (by omega)
      rw [singleCycleExecuteOne_fetch running inside]
      obtain ⟨count, stops⟩ := singleCycleLoop_small small passes (retire memSize m.1 m.2) c.retire
        (by rw [retire_running, running])
        (by rw [retire_instructionCount]; omega)
      rw [count, stops, retire_instructionCount]
      constructor
      · omega
      · simp only [decide_eq_decide]
        omega
    · -- the end of the memory: the pass stops the CPU and counts nothing
      have past : memSize ≤ m.1.pc / 4 := UInt32.le_iff_toNat_le.mpr (by omega)
      rw [singleCycleExecuteOne_end running past, singleCycleLoop_halted passes rfl]
      simp only
      constructor
      · omega
      · simp only [Bool.false_eq, decide_eq_false_iff_not]
        omega

theorem singleCycleLoop_large (large : 2^30 ≤ memSize.toNat) :
    ∀ (passes : Nat) (m : SingleCycleCpu × (Nat → UInt32)), Counting m.1 → m.1.running = true →
      (singleCycleLoop memSize passes m).1.instructionCount = m.1.instructionCount + passes ∧
        (singleCycleLoop memSize passes m).1.running = true
  | 0, m, _, running => ⟨rfl, running⟩
  | passes + 1, m, c, running => by
    have word := c.word
    have inside : m.1.pc / 4 < memSize := UInt32.lt_iff_toNat_lt.mpr (by omega)
    rw [singleCycleLoop, if_pos running, singleCycleExecuteOne_fetch running inside]
    obtain ⟨count, stillRunning⟩ := singleCycleLoop_large large passes (retire memSize m.1 m.2) c.retire
      (by rw [retire_running, running])
    rw [count, retire_instructionCount]
    exact ⟨by omega, stillRunning⟩

end Loop

/-- From `single_cycle_init`, `single_cycle_execute` retires `min(num_instructions, mem_size)`
instructions, one cycle each, and has stopped exactly when it was given more passes than words,
as long as `mem_size < 2^30`. From `2^30` words on it retires all `num_instructions` and is
still running: `pc` wraps before it reaches the end of the memory. -/
theorem single_cycle_execute_counts (memory : Nat → UInt32) (memSize numInstructions : UInt32) :
    (singleCycleExecute memory memSize numInstructions singleCycleInit).1.instructionCount =
        (if memSize.toNat < 2^30 then min numInstructions.toNat memSize.toNat else numInstructions.toNat) ∧
      (singleCycleExecute memory memSize numInstructions singleCycleInit).1.cycleCount =
        (singleCycleExecute memory memSize numInstructions singleCycleInit).1.instructionCount ∧
      ((singleCycleExecute memory memSize numInstructions singleCycleInit).1.running = true ↔
        (memSize.toNat < 2^30 → numInstructions.toNat ≤ memSize.toNat)) := by
  have counting : Counting (singleCycleLoop memSize numInstructions.toNat (singleCycleInit, memory)).1 :=
    singleCycleLoop_invariant (fun m => Counting m.1) (fun m c => c.executeOne) _ _ counting_init
  unfold singleCycleExecute
  refine ⟨?_, counting.cycles_eq, ?_⟩
  · split
    · next small =>
      rw [(singleCycleLoop_small small _ _ counting_init rfl (Nat.zero_le _)).1]
      simp [singleCycleInit]
    · next large =>
      rw [(singleCycleLoop_large (by omega) _ _ counting_init rfl).1]
      simp [singleCycleInit]
  · by_cases small : memSize.toNat < 2^30
    · rw [(singleCycleLoop_small small _ _ counting_init rfl (Nat.zero_le _)).2]
      simp only [singleCycleInit, Nat.zero_add, decide_eq_true_eq]
      exact ⟨fun within _ => within, fun within => within small⟩
    · rw [(singleCycleLoop_large (by omega) _ _ counting_init rfl).2]
      exact ⟨fun _ fits => absurd fits small, fun _ => rfl⟩

/-! ### The single-cycle CPU against the pipeline -/

/-- A word on which the two simulators agree: an `addi` from `x0`, which loads its immediate,
or a word that writes no register and stores nothing. -/
def loadsImmediate (i : Instruction) : Bool :=
  (i.opcode == 0x13 && i.rs1 == 0) || (i.rd == 0 && i.opcode != 0x23)

theorem loadsImmediate_ne_store {i : Instruction} (loads : loadsImmediate i = true) : i.opcode ≠ 0x23 := by
  simp only [loadsImmediate, Bool.or_eq_true, Bool.and_eq_true, beq_iff_eq, bne_iff_ne] at loads
  rcases loads with ⟨addi, -⟩ | ⟨-, notStore⟩
  · rw [addi]
    decide
  · exact notStore

theorem execute_loadsImmediate (memory : Nat → UInt32) (memSize : UInt32) {registers : Nat → UInt32}
    (zero : registers 0 = 0) {i : Instruction} (loads : loadsImmediate i = true) (writes : writesRegister i = true) :
    (execute memory memSize registers i).1 = i.immediate := by
  simp only [loadsImmediate, Bool.or_eq_true, Bool.and_eq_true, beq_iff_eq, bne_iff_ne] at loads
  simp only [writesRegister, Bool.and_eq_true, bne_iff_ne] at writes
  rcases loads with ⟨addi, fromZero⟩ | ⟨noTarget, -⟩
  · simp [execute, addi, fromZero, zero]
  · exact absurd noTarget writes.1

theorem referenceRegisters_zero (memory : Nat → UInt32) : ∀ r, referenceRegisters memory r 0 = 0
  | 0 => rfl
  | r + 1 => by
    rw [referenceRegisters_succ]
    split
    · next writes => rw [Function.update_of_ne (writesRegister_rd writes).symm, referenceRegisters_zero memory r]
    · exact referenceRegisters_zero memory r

/-- On a program of such words the CPU follows the sequential machine the pipeline follows:
after `c` words its registers are the machine's after `c` words, and the memory is untouched. -/
theorem singleCycleLoop_follows (memory : Nat → UInt32) {n : Nat} (small : n < 2^30)
    (immediates : ∀ i < n, loadsImmediate (decodeAt memory i) = true) :
    ∀ (passes : Nat) (m : SingleCycleCpu × (Nat → UInt32)), Counting m.1 → m.1.running = true →
      m.1.instructionCount + passes ≤ n → m.2 = memory → m.1.registers = referenceRegisters memory m.1.instructionCount →
      (singleCycleLoop n.toUInt32 passes m).2 = memory ∧
        (singleCycleLoop n.toUInt32 passes m).1.registers =
          referenceRegisters memory (singleCycleLoop n.toUInt32 passes m).1.instructionCount
  | 0, m, _, _, _, memoryEq, registers => ⟨memoryEq, registers⟩
  | passes + 1, m, c, running, room, memoryEq, registers => by
    have word := c.word
    have size : n.toUInt32.toNat = n := by rw [Nat.toUInt32, UInt32.toNat_ofNat']; omega
    have inside : m.1.pc / 4 < n.toUInt32 := UInt32.lt_iff_toNat_lt.mpr (by omega)
    rw [singleCycleLoop, if_pos running, singleCycleExecuteOne_fetch running inside]
    -- the word at `pc` is word `c` of the program, which the sequential machine takes next;
    -- its decoded fields do not depend on the address it is decoded at
    have at_c : (m.1.pc / 4).toNat = m.1.instructionCount := by omega
    have loads : loadsImmediate (decode (memory m.1.instructionCount) m.1.pc) = true :=
      immediates _ (show m.1.instructionCount < n by omega)
    apply singleCycleLoop_follows memory small immediates passes _ c.retire (by rw [retire_running, running])
      (by rw [retire_instructionCount]; omega)
    · rw [retire_memory, memoryEq, at_c]
      exact execute_memory_of_ne_store _ (loadsImmediate_ne_store loads)
    · rw [retire_instructionCount, referenceRegisters_succ, retire_registers, memoryEq, at_c, ← registers]
      by_cases writes : writesRegister (decodeAt memory m.1.instructionCount) = true
      · rw [if_pos writes, if_pos (show writesRegister (decode (memory m.1.instructionCount) m.1.pc) = true from writes),
          execute_loadsImmediate memory _ (registers ▸ referenceRegisters_zero memory _) loads writes]
        rfl
      · rw [if_neg writes, if_neg (show ¬ writesRegister (decode (memory m.1.instructionCount) m.1.pc) = true from writes)]

/-- On every program of `n < 2^30` words that are `addi`s from `x0` or write no register and
store nothing, `single_cycle_execute` with `n` passes retires all `n` words in `n` cycles and
leaves the memory as it was, and the pipeline, run until it stops, retires the same `n` words and
ends with the same register file. -/
theorem single_cycle_agrees_with_pipeline (memory : Nat → UInt32) (n : Nat) (small : n < 2^30)
    (immediates : ∀ i < n, loadsImmediate (decodeAt memory i) = true) :
    (singleCycleExecute memory n.toUInt32 n.toUInt32 singleCycleInit).1.instructionCount = n ∧
      (singleCycleExecute memory n.toUInt32 n.toUInt32 singleCycleInit).1.cycleCount = n ∧
      (singleCycleExecute memory n.toUInt32 n.toUInt32 singleCycleInit).2 = memory ∧
      ∃ k, (cycles memory n.toUInt32 k).running = false ∧ (cycles memory n.toUInt32 k).instructionCount = n ∧
        (cycles memory n.toUInt32 k).registers =
          (singleCycleExecute memory n.toUInt32 n.toUInt32 singleCycleInit).1.registers := by
  have size : n.toUInt32.toNat = n := by rw [Nat.toUInt32, UInt32.toNat_ofNat']; omega
  have fits : n.toUInt32.toNat < 2^30 := by omega
  obtain ⟨count, -⟩ := singleCycleLoop_small fits n.toUInt32.toNat (singleCycleInit, memory) counting_init rfl
    (Nat.zero_le _)
  have counting : Counting (singleCycleLoop n.toUInt32 n.toUInt32.toNat (singleCycleInit, memory)).1 :=
    singleCycleLoop_invariant (fun m => Counting m.1) (fun m c => c.executeOne) _ _ counting_init
  obtain ⟨unchanged, registers⟩ := singleCycleLoop_follows memory small immediates n.toUInt32.toNat
    (singleCycleInit, memory) counting_init rfl (by simp [singleCycleInit, size]) rfl rfl
  unfold singleCycleExecute
  have retired : (singleCycleLoop n.toUInt32 n.toUInt32.toNat (singleCycleInit, memory)).1.instructionCount = n := by
    rw [count, size]
    simp [singleCycleInit]
  -- the pipeline side: it drains, and a stopped pipeline has retired every word into the
  -- registers of the sequential machine
  obtain ⟨k, stops, -⟩ := drains small _ pipelineInit sim_init (Nat.le_refl _)
  have sim : Sim memory n (cycles memory n.toUInt32 k) := sim_cycles small k
  obtain ⟨-, allRetired⟩ := sim.finished stops
  refine ⟨retired, counting.cycles_eq.trans retired, unchanged, k, stops, allRetired, ?_⟩
  rw [sim.registers, allRetired, registers, retired]

theorem single_cycle_agrees_two_words :
    2 < 2^30 ∧ (∀ i < 2, loadsImmediate (decodeAt (fun _ => 0x00100093) i) = true) ∧
      (singleCycleExecute (fun _ => 0x00100093) (2 : Nat).toUInt32 (2 : Nat).toUInt32 singleCycleInit).1.instructionCount = 2 ∧
      (singleCycleExecute (fun _ => 0x00100093) (2 : Nat).toUInt32 (2 : Nat).toUInt32 singleCycleInit).1.cycleCount = 2 ∧
      (singleCycleExecute (fun _ => 0x00100093) (2 : Nat).toUInt32 (2 : Nat).toUInt32 singleCycleInit).2 =
        (fun _ => 0x00100093) ∧
      ∃ k, (cycles (fun _ => 0x00100093) (2 : Nat).toUInt32 k).running = false ∧
        (cycles (fun _ => 0x00100093) (2 : Nat).toUInt32 k).instructionCount = 2 ∧
        (cycles (fun _ => 0x00100093) (2 : Nat).toUInt32 k).registers =
          (singleCycleExecute (fun _ => 0x00100093) (2 : Nat).toUInt32 (2 : Nat).toUInt32 singleCycleInit).1.registers :=
  ⟨by decide, by decide, single_cycle_agrees_with_pipeline _ 2 (by decide) (by decide)⟩

-- `addi x1, x1, 1` twice reads `x1`: the single-cycle CPU counts to 2, the pipeline writes the
-- immediate 1 twice
example : (singleCycleExecute (fun _ => 0x00108093) 2 2 singleCycleInit).1.registers 1 = 2 ∧
    (cycles (fun _ => 0x00108093) 2 8).registers 1 = 1 := by
  decide

end OpenOS.Cpu

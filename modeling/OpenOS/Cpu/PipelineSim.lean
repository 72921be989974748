import OpenOS.Cpu.Pipeline

/-! The pipeline against the sequential machine. At every cycle the latches `WB`, `MEM`,
`EX`, `ID` hold, oldest first and with bubbles between them, exactly the words from the
number retired up to the number fetched, and the register file is the sequential machine's
after the words retired. The `remaining` work strictly drops in every cycle that keeps the CPU
running, so the pipeline drains and stops once all `n` words are fetched and retired.

This needs the program counter to get past the last word. With `n = 2^30` words `pc / 4` is
below `n` for every 32-bit `pc`, fetching never ends, and the CPU runs forever. -/
namespace OpenOS.Cpu

variable {memory : Nat → UInt32} {memSize : UInt32} {n : Nat} {cpu : PipelineCpu}

/-- Word `i` of the program as `fetch_instruction` decodes it at its address. -/
def decodeAt (memory : Nat → UInt32) (i : Nat) : Instruction := decode (memory i) (4 * i).toUInt32

/-- The number of words fetched so far. -/
def fetchedCount (cpu : PipelineCpu) : Nat := cpu.pc.toNat / 4

/-- The instructions behind `WB`, oldest first. -/
def later (cpu : PipelineCpu) : List Instruction := [cpu.mem, cpu.ex, cpu.id].filterMap id

/-- The instructions in flight, oldest first. -/
def inflight (cpu : PipelineCpu) : List Instruction := cpu.wb.toList ++ later cpu

/-- The pipeline holds the program words from the number retired to the number fetched, in
order, and the registers are the sequential machine's after the words retired; a CPU that has
stopped has fetched all `n` words and holds none. -/
structure Sim (memory : Nat → UInt32) (n : Nat) (cpu : PipelineCpu) : Prop where
  aligned : cpu.pc.toNat = 4 * fetchedCount cpu
  fetched_le : fetchedCount cpu ≤ n
  retired_le : cpu.instructionCount ≤ fetchedCount cpu
  flight : inflight cpu =
    (List.range' cpu.instructionCount (fetchedCount cpu - cpu.instructionCount)).map (decodeAt memory)
  registers : cpu.registers = referenceRegisters memory cpu.instructionCount
  stopped : cpu.running = false → fetchedCount cpu = n ∧ inflight cpu = []

theorem sim_init : Sim memory n pipelineInit where
  aligned := rfl
  fetched_le := Nat.zero_le _
  retired_le := Nat.le_refl _
  flight := rfl
  registers := rfl
  stopped := by simp [pipelineInit]

/-! ### One cycle -/

/-- `pipeline_cycle` on a running CPU, latch by latch. -/
theorem pipelineCycle_running (running : cpu.running = true) :
    (pipelineCycle memory memSize cpu).wb = cpu.mem ∧
    (pipelineCycle memory memSize cpu).mem = cpu.ex ∧
    (pipelineCycle memory memSize cpu).ex = (if pipelineDetectHazard cpu then none else cpu.id) ∧
    (pipelineCycle memory memSize cpu).id = (if pipelineDetectHazard cpu then cpu.id
      else if cpu.pc / 4 < memSize then some (decode (memory (cpu.pc / 4).toNat) cpu.pc) else none) ∧
    (pipelineCycle memory memSize cpu).pc =
      (if !pipelineDetectHazard cpu && cpu.pc / 4 < memSize then cpu.pc + 4 else cpu.pc) ∧
    (pipelineCycle memory memSize cpu).registers = (writeBack cpu).1 ∧
    (pipelineCycle memory memSize cpu).instructionCount = (writeBack cpu).2 ∧
    (pipelineCycle memory memSize cpu).running = (decide (cpu.pc / 4 < memSize) ||
      !(cpu.id.isNone && cpu.ex.isNone && cpu.mem.isNone && cpu.wb.isNone)) := by
  -- the branches of the cycle: what `ID` holds, whether it stalls, whether it can fetch
  cases hid : cpu.id <;> cases stall : pipelineDetectHazard cpu <;>
    by_cases room : cpu.pc / 4 < memSize
  all_goals
    have past : memSize ≤ cpu.pc / 4 ↔ ¬ cpu.pc / 4 < memSize := UInt32.not_lt.symm
    simp [pipelineCycle, running, hid, stall, room, past, fetchInstruction]

/-- A cycle that is not stalled and finds a word at `pc` fetches it. -/
def fetches (memSize : UInt32) (cpu : PipelineCpu) : Bool :=
  !pipelineDetectHazard cpu && cpu.pc / 4 < memSize

theorem inflight_cycle (running : cpu.running = true) :
    inflight (pipelineCycle memory memSize cpu) = later cpu ++
      (if fetches memSize cpu then [decode (memory (cpu.pc / 4).toNat) cpu.pc] else []) := by
  obtain ⟨wb, mem, ex, id, -⟩ := @pipelineCycle_running memory memSize cpu running
  unfold inflight later fetches
  rw [wb, mem, ex, id]
  cases stall : pipelineDetectHazard cpu
  · by_cases room : cpu.pc / 4 < memSize <;> cases cpu.mem <;> cases cpu.ex <;> cases cpu.id <;>
      simp [room]
  · cases cpu.mem <;> cases cpu.ex <;> cases cpu.id <;> simp

theorem referenceRegisters_succ (memory : Nat → UInt32) (r : Nat) :
    referenceRegisters memory (r + 1) =
      if writesRegister (decodeAt memory r) then
        Function.update (referenceRegisters memory r) (decodeAt memory r).rd.toNat (decodeAt memory r).immediate
      else referenceRegisters memory r := by
  unfold referenceRegisters
  rw [List.range_succ, List.foldl_append]
  simp [writesRegister, decodeAt, decode]

theorem below_memSize_iff (small : n < 2^30) :
    cpu.pc / 4 < n.toUInt32 ↔ fetchedCount cpu < n := by
  rw [UInt32.lt_iff_toNat_lt, UInt32.toNat_div, Nat.toUInt32, UInt32.toNat_ofNat',
    Nat.mod_eq_of_lt (by omega : n < 2^32)]
  rfl

theorem pc_eq (sim : Sim memory n cpu) : cpu.pc = (4 * fetchedCount cpu).toUInt32 := by
  apply UInt32.toNat_inj.mp
  rw [Nat.toUInt32, UInt32.toNat_ofNat', ← sim.aligned, Nat.mod_eq_of_lt cpu.pc.toNat_lt]

theorem fetches_lt (small : n < 2^30) (fetch : fetches n.toUInt32 cpu = true) : fetchedCount cpu < n :=
  (below_memSize_iff small).mp (by simp [fetches] at fetch; exact fetch.2)

theorem pc_cycle (small : n < 2^30) (sim : Sim memory n cpu) (running : cpu.running = true) :
    (pipelineCycle memory n.toUInt32 cpu).pc.toNat = cpu.pc.toNat + if fetches n.toUInt32 cpu then 4 else 0 := by
  obtain ⟨-, -, -, -, pc, -⟩ := @pipelineCycle_running memory n.toUInt32 cpu running
  rw [pc]
  unfold fetches
  split_ifs with fetch
  · have room := fetches_lt small fetch
    have aligned := sim.aligned
    rw [UInt32.toNat_add, show (4 : UInt32).toNat = 4 from rfl, Nat.mod_eq_of_lt (by omega)]
  · rfl

theorem fetchedCount_cycle (small : n < 2^30) (sim : Sim memory n cpu) (running : cpu.running = true) :
    fetchedCount (pipelineCycle memory n.toUInt32 cpu) =
      fetchedCount cpu + if fetches n.toUInt32 cpu then 1 else 0 := by
  have pc := pc_cycle small sim running
  have aligned := sim.aligned
  unfold fetchedCount at aligned ⊢
  rw [pc]
  split_ifs <;> omega

theorem fetch_word (sim : Sim memory n cpu) :
    decode (memory (cpu.pc / 4).toNat) cpu.pc = decodeAt memory (fetchedCount cpu) := by
  rw [UInt32.toNat_div, pc_eq sim]
  unfold decodeAt
  congr 2
  rw [← pc_eq sim]
  rfl

/-- The instruction in `WB` is the oldest word not yet retired. -/
theorem Sim.wb_some (sim : Sim memory n cpu) {i : Instruction} (hwb : cpu.wb = some i) :
    i = decodeAt memory cpu.instructionCount ∧ cpu.instructionCount < fetchedCount cpu ∧
      later cpu = (List.range' (cpu.instructionCount + 1)
        (fetchedCount cpu - (cpu.instructionCount + 1))).map (decodeAt memory) := by
  have flight := sim.flight
  unfold inflight at flight
  rw [hwb, Option.toList_some, List.singleton_append] at flight
  obtain ⟨more, rest⟩ : ∃ more, fetchedCount cpu - cpu.instructionCount = more + 1 := by
    cases h : fetchedCount cpu - cpu.instructionCount with
    | zero => rw [h] at flight; cases flight
    | succ more => exact ⟨more, rfl⟩
  rw [rest, List.range'_succ, List.map_cons, List.cons.injEq] at flight
  obtain ⟨rfl, laterEq⟩ := flight
  refine ⟨rfl, by omega, ?_⟩
  rw [laterEq]
  congr 2
  omega

/-- What `WB` does to the simulation: it retires the oldest word in flight, if there is one,
into the register file. -/
theorem writeBack_sim (sim : Sim memory n cpu) :
    later cpu = (List.range' (writeBack cpu).2 (fetchedCount cpu - (writeBack cpu).2)).map (decodeAt memory) ∧
      (writeBack cpu).2 ≤ fetchedCount cpu ∧ (writeBack cpu).1 = referenceRegisters memory (writeBack cpu).2 := by
  cases hwb : cpu.wb with
  | none =>
    have flight := sim.flight
    unfold inflight at flight
    rw [hwb, Option.toList_none, List.nil_append] at flight
    simp only [writeBack, hwb]
    exact ⟨flight, sim.retired_le, sim.registers⟩
  | some i =>
    obtain ⟨rfl, fetched, laterEq⟩ := sim.wb_some hwb
    simp only [writeBack, hwb]
    refine ⟨laterEq, fetched, ?_⟩
    rw [referenceRegisters_succ, ← sim.registers]

/-- One cycle keeps the simulation. -/
theorem Sim.cycle (small : n < 2^30) (sim : Sim memory n cpu) :
    Sim memory n (pipelineCycle memory n.toUInt32 cpu) := by
  cases running : cpu.running
  · rwa [show pipelineCycle memory n.toUInt32 cpu = cpu by simp [pipelineCycle, running]]
  obtain ⟨-, -, -, -, -, registers, count, stillRunning⟩ :=
    @pipelineCycle_running memory n.toUInt32 cpu running
  obtain ⟨laterEq, retired, written⟩ := writeBack_sim sim
  have pc := pc_cycle small sim running
  have flight := @inflight_cycle memory n.toUInt32 cpu running
  have fetched := fetchedCount_cycle small sim running
  have aligned := sim.aligned
  have fetchedLe := sim.fetched_le
  refine ⟨by rw [pc, fetched]; split_ifs <;> omega,
    by rw [fetched]; split_ifs with fetch <;> (try have := fetches_lt small fetch) <;> omega,
    by rw [count, fetched]; split_ifs <;> omega, ?_, by rw [registers, count, written], fun stops => ?_⟩
  -- the latches shift by one word at the old end, and take the fetched word at the new end
  · rw [flight, count, laterEq, fetched, fetch_word sim]
    split_ifs with fetch
    · rw [show fetchedCount cpu + 1 - (writeBack cpu).2 = fetchedCount cpu - (writeBack cpu).2 + 1 by omega,
        List.range'_concat, List.map_append, List.map_singleton,
        show (writeBack cpu).2 + 1 * (fetchedCount cpu - (writeBack cpu).2) = fetchedCount cpu by omega]
    · simp
  -- the CPU stops only with every word fetched and every latch empty
  · rw [stillRunning] at stops
    simp only [Bool.or_eq_false_iff, decide_eq_false_iff_not, Bool.not_eq_false', Bool.and_eq_true,
      Option.isNone_iff_eq_none] at stops
    obtain ⟨past, ⟨⟨⟨noId, noEx⟩, noMem⟩, -⟩⟩ := stops
    have notFetch : fetches n.toUInt32 cpu = false := by simp [fetches, past]
    have done := (below_memSize_iff small).not.mp past
    rw [fetched, notFetch]
    refine ⟨by simp only [Bool.false_eq_true, if_false]; omega, ?_⟩
    rw [flight, notFetch]
    simp [later, noId, noEx, noMem]

theorem sim_cycles (small : n < 2^30) (k : Nat) : Sim memory n (cycles memory n.toUInt32 k) :=
  Runs.run_invariant_all (Sim memory n) (fun _ _ sim => sim.cycle small) sim_init

theorem Sim.finished (sim : Sim memory n cpu) (stops : cpu.running = false) :
    fetchedCount cpu = n ∧ cpu.instructionCount = n := by
  obtain ⟨all, empty⟩ := sim.stopped stops
  have flight := sim.flight
  rw [empty, eq_comm, List.map_eq_nil_iff, List.range'_eq_nil_iff] at flight
  have retired := sim.retired_le
  omega

/-! ### Draining -/

/-- The latches, each weighted by the cycles its instruction still needs to leave `WB`. -/
def occupancy (cpu : PipelineCpu) : Nat :=
  cpu.wb.isSome.toNat + 2 * cpu.mem.isSome.toNat + 3 * cpu.ex.isSome.toNat + 4 * cpu.id.isSome.toNat

/-- The cycles of work left: five for each word not yet fetched, the latches' share, and one
for the cycle that finds the pipeline empty and stops it. -/
def remaining (n : Nat) (cpu : PipelineCpu) : Nat :=
  cpu.running.toNat + 5 * (n - fetchedCount cpu) + occupancy cpu

theorem hazard_full (stall : pipelineDetectHazard cpu = true) : ∃ i e, cpu.id = some i ∧ cpu.ex = some e := by
  unfold pipelineDetectHazard at stall
  split at stall
  · next i e hid hex => exact ⟨i, e, hid, hex⟩
  · cases stall

/-- Every cycle of a running CPU lowers the work left. -/
theorem remaining_cycle (small : n < 2^30) (sim : Sim memory n cpu) (running : cpu.running = true) :
    remaining n (pipelineCycle memory n.toUInt32 cpu) < remaining n cpu := by
  obtain ⟨wb, mem, ex, id, -, -, -, stillRunning⟩ := @pipelineCycle_running memory n.toUInt32 cpu running
  have fetched := fetchedCount_cycle small sim running
  unfold remaining occupancy
  rw [wb, mem, ex, id, stillRunning, fetched, running]
  unfold fetches
  cases stall : pipelineDetectHazard cpu
  · -- without a stall every latch moves on, and `ID` takes the next word if there is one
    by_cases room : cpu.pc / 4 < n.toUInt32
    · have left := (below_memSize_iff small).mp room
      cases cpu.wb <;> cases cpu.mem <;> cases cpu.ex <;> cases cpu.id <;> simp [room] <;> omega
    · cases cpu.wb <;> cases cpu.mem <;> cases cpu.ex <;> cases cpu.id <;> simp [room]
  · -- a stall empties `EX` and holds `ID`, and fetches nothing
    obtain ⟨i, e, hid, hex⟩ := hazard_full stall
    rw [hid, hex]
    cases cpu.wb <;> cases cpu.mem <;> simp

/-- From every simulated CPU the cycles stop, after a number of cycles in all of which but the
last the CPU was running. -/
theorem drains (small : n < 2^30) (bound : Nat) (cpu : PipelineCpu) (sim : Sim memory n cpu)
    (within : remaining n cpu ≤ bound) :
    ∃ k, (Runs.run (fun (_ : Unit) => pipelineCycle memory n.toUInt32) (List.replicate k ()) cpu).running = false ∧
      ∀ j < k, (Runs.run (fun (_ : Unit) => pipelineCycle memory n.toUInt32) (List.replicate j ()) cpu).running =
        true := by
  -- induction on a bound of the work left, which every running cycle lowers
  induction bound generalizing cpu with
  | zero =>
    cases running : cpu.running
    · exact ⟨0, running, fun j hj => absurd hj (Nat.not_lt_zero j)⟩
    · simp [remaining, running] at within
  | succ bound ih =>
    cases running : cpu.running
    · exact ⟨0, running, fun j hj => absurd hj (Nat.not_lt_zero j)⟩
    · have lower := remaining_cycle small sim running
      obtain ⟨k, stops, before⟩ := ih _ (sim.cycle small) (by omega)
      refine ⟨k + 1, stops, fun j hj => ?_⟩
      cases j with
      | zero => exact running
      | succ j => exact before j (by omega)

/-! ### The traces -/

theorem fetched_law (small : n < 2^30) (sim : Sim memory n cpu) :
    fetchedCount cpu ≤ fetchedCount (pipelineCycle memory n.toUInt32 cpu) ∧
      fetched n.toUInt32 () cpu = (List.range' (fetchedCount cpu)
        (fetchedCount (pipelineCycle memory n.toUInt32 cpu) - fetchedCount cpu)).map fun i => (4 * i).toUInt32 := by
  cases running : cpu.running
  · simp [pipelineCycle, fetched, running]
  · rw [fetchedCount_cycle small sim running]
    have fetchIff : fetched n.toUInt32 () cpu = if fetches n.toUInt32 cpu then [cpu.pc] else [] := by
      simp [fetched, fetches, running]
    rw [fetchIff]
    split_ifs <;> simp [pc_eq sim]

theorem retired_law (sim : Sim memory n cpu) :
    cpu.instructionCount ≤ (pipelineCycle memory n.toUInt32 cpu).instructionCount ∧
      retired () cpu = (List.range' cpu.instructionCount
        ((pipelineCycle memory n.toUInt32 cpu).instructionCount - cpu.instructionCount)).map
          fun i => (4 * i).toUInt32 := by
  cases running : cpu.running
  · simp [pipelineCycle, retired, running]
  · obtain ⟨-, -, -, -, -, -, count, -⟩ := @pipelineCycle_running memory n.toUInt32 cpu running
    rw [count]
    cases hwb : cpu.wb with
    | none => simp [retired, writeBack, hwb, running]
    | some i =>
      obtain ⟨rfl, -, -⟩ := sim.wb_some hwb
      simp [retired, writeBack, hwb, running, decodeAt, decode]

theorem fetchTrace_eq (small : n < 2^30) (k : Nat) :
    fetchTrace memory n.toUInt32 k =
      (List.range (fetchedCount (cycles memory n.toUInt32 k))).map fun i => (4 * i).toUInt32 := by
  rw [List.range_eq_range']
  exact Runs.outputs_counter (Sim memory n) fetchedCount _ _ (fun _ _ sim => sim.cycle small)
    (fun _ _ sim => fetched_law small sim) sim_init

theorem retireTrace_eq (small : n < 2^30) (k : Nat) :
    retireTrace memory n.toUInt32 k =
      (List.range (cycles memory n.toUInt32 k).instructionCount).map fun i => (4 * i).toUInt32 := by
  rw [List.range_eq_range']
  exact Runs.outputs_counter (Sim memory n) PipelineCpu.instructionCount _ _
    (fun _ _ sim => sim.cycle small) (fun _ _ sim => retired_law sim) sim_init

/-! ### The pipeline refines the sequential machine -/

theorem pipeline_refines_sequential (memory : Nat → UInt32) (n : Nat) (small : n < 2^30) :
    ∃ k, (cycles memory n.toUInt32 k).running = false ∧
      (∀ j < k, (cycles memory n.toUInt32 j).running = true) ∧
      fetchTrace memory n.toUInt32 k = (List.range n).map (fun i => (4 * i).toUInt32) ∧
      retireTrace memory n.toUInt32 k = (List.range n).map (fun i => (4 * i).toUInt32) ∧
      (cycles memory n.toUInt32 k).instructionCount = n ∧
      (cycles memory n.toUInt32 k).registers = referenceRegisters memory n := by
  obtain ⟨k, stops, before⟩ := drains small _ pipelineInit sim_init (Nat.le_refl _)
  have sim : Sim memory n (cycles memory n.toUInt32 k) := sim_cycles small k
  obtain ⟨allFetched, allRetired⟩ := sim.finished stops
  refine ⟨k, stops, before, ?_, ?_, allRetired, by rw [sim.registers, allRetired]⟩
  · rw [fetchTrace_eq small, allFetched]
  · rw [retireTrace_eq small, allRetired]

/-- Two words of `addi x1, x0, 1`: the second reads `x1` through its `rs2` field while the
first is in `EX`, so the run has a stall. -/
theorem pipeline_refines_two_words : 2 < 2^30 ∧
    ∃ k, (cycles (fun _ => 0x00100093) (2 : Nat).toUInt32 k).running = false ∧
      (∀ j < k, (cycles (fun _ => 0x00100093) (2 : Nat).toUInt32 j).running = true) ∧
      fetchTrace (fun _ => 0x00100093) (2 : Nat).toUInt32 k = (List.range 2).map (fun i => (4 * i).toUInt32) ∧
      retireTrace (fun _ => 0x00100093) (2 : Nat).toUInt32 k = (List.range 2).map (fun i => (4 * i).toUInt32) ∧
      (cycles (fun _ => 0x00100093) (2 : Nat).toUInt32 k).instructionCount = 2 ∧
      (cycles (fun _ => 0x00100093) (2 : Nat).toUInt32 k).registers = referenceRegisters (fun _ => 0x00100093) 2 :=
  ⟨by decide, pipeline_refines_sequential _ 2 (by decide)⟩

-- the run of the two words: one stall cycle, and the cycle that finds the pipeline empty
example : (cycles (fun _ => 0x00100093) (2 : Nat).toUInt32 7).running = true ∧
    (cycles (fun _ => 0x00100093) (2 : Nat).toUInt32 8).running = false ∧
    (cycles (fun _ => 0x00100093) (2 : Nat).toUInt32 8).stallCount = 1 := by
  decide

theorem running_full_memory (memory : Nat → UInt32) (k : Nat) :
    (cycles memory (2^30 : Nat).toUInt32 k).running = true := by
  refine Runs.run_invariant_all (fun (cpu : PipelineCpu) => cpu.running = true) (fun cpu _ running => ?_) rfl
  obtain ⟨-, -, -, -, -, -, -, stillRunning⟩ := @pipelineCycle_running memory (2^30 : Nat).toUInt32 cpu running
  have below : cpu.pc / 4 < (2^30 : Nat).toUInt32 := by
    rw [UInt32.lt_iff_toNat_lt, UInt32.toNat_div, Nat.toUInt32, UInt32.toNat_ofNat',
      show (4 : UInt32).toNat = 4 from rfl]
    have := cpu.pc.toNat_lt
    omega
  rw [stillRunning, decide_eq_true below, Bool.true_or]

/-- A program of `2^30` zero words runs forever. -/
theorem pipeline_full_memory_never_stops :
    ¬ ∃ k, (cycles (fun _ => 0) (2^30 : Nat).toUInt32 k).running = false := by
  rintro ⟨k, stops⟩
  rw [running_full_memory] at stops
  cases stops

end OpenOS.Cpu

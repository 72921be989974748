import Mathlib
import OpenOS.Cpu.PipelineSim

/-! Cycle accounting of the pipeline. A cycle of a running CPU does one of three things: it
stalls, holding `ID` behind a bubble because the word there reads a register the word in `EX`
writes; it fetches the next word; or, once every word is fetched, it drains the latches. Each
adjacent pair of words meets in `ID` and `EX` exactly once, so the stalls are the hazardous
pairs, and a program of `n` words stops after `n` fetches, its stalls, four cycles that move
the last word out of `WB` and the cycle that finds the pipeline empty.

`pipeline_execute` with a budget of more than `n` instructions runs the same cycles, since its
cut-off at ten cycles an instruction is never reached. With a budget of exactly `n` it leaves
at the cycle that retires the last word, one cycle before the CPU stops running. -/
namespace OpenOS.Cpu

variable {memory : Nat → UInt32} {memSize : UInt32} {n : Nat} {cpu next : PipelineCpu}

/-- Word `i + 1` reads a register word `i` writes, with the fields `fetch_instruction`
decodes: `pipeline_detect_hazard` holds with word `i + 1` in `ID` and word `i` in `EX`. -/
def hazardPair (memory : Nat → UInt32) (i : Nat) : Bool :=
  writesRegister (decodeAt memory i) &&
    ((decodeAt memory (i + 1)).rs1 == (decodeAt memory i).rd ||
      (decodeAt memory (i + 1)).rs2 == (decodeAt memory i).rd)

/-- The hazardous pairs `(i, i + 1)` among the first `m` words. -/
def hazardPairs (memory : Nat → UInt32) (m : Nat) : Nat :=
  (List.range (m - 1)).countP (hazardPair memory)

theorem hazardPairs_succ_succ (memory : Nat → UInt32) (m : Nat) :
    hazardPairs memory (m + 2) = hazardPairs memory (m + 1) + (hazardPair memory m).toNat := by
  show (List.range (m + 1)).countP (hazardPair memory) = (List.range m).countP (hazardPair memory) + _
  rw [List.range_succ, List.countP_append, List.countP_singleton]
  cases hazardPair memory m <;> rfl

theorem hazardPairs_le (memory : Nat → UInt32) (m : Nat) : hazardPairs memory m ≤ m - 1 := by
  unfold hazardPairs
  simpa using List.countP_le_length (l := List.range (m - 1)) (p := hazardPair memory)

/-! ### Where the youngest words are -/

theorem later_eq (cpu : PipelineCpu) :
    later cpu = cpu.mem.toList ++ cpu.ex.toList ++ cpu.id.toList := by
  unfold later
  cases cpu.mem <;> cases cpu.ex <;> cases cpu.id <;> rfl

private theorem concat_eq_map_range' {α : Type} {g : Nat → α} {l : List α} {a : α} {r k : Nat}
    (h : l ++ [a] = (List.range' r k).map g) :
    1 ≤ k ∧ a = g (r + k - 1) ∧ l = (List.range' r (k - 1)).map g := by
  cases k with
  | zero => simp at h
  | succ k =>
    rw [List.range'_concat, List.map_append, List.map_singleton] at h
    obtain ⟨rest, last⟩ := List.append_inj' h rfl
    rw [List.singleton_inj] at last
    exact ⟨by omega, by rw [last]; congr 1; omega, rest⟩

theorem Sim.id_some (sim : Sim memory n cpu) {i : Instruction} (hid : cpu.id = some i) :
    1 ≤ fetchedCount cpu - cpu.instructionCount ∧ i = decodeAt memory (fetchedCount cpu - 1) ∧
      cpu.wb.toList ++ cpu.mem.toList ++ cpu.ex.toList = (List.range' cpu.instructionCount
        (fetchedCount cpu - cpu.instructionCount - 1)).map (decodeAt memory) := by
  have flight := sim.flight
  simp only [inflight, later_eq, hid, Option.toList_some, ← List.append_assoc] at flight
  obtain ⟨one, last, rest⟩ := concat_eq_map_range' flight
  have retired := sim.retired_le
  exact ⟨one, by rw [last]; congr 1; omega, rest⟩

theorem Sim.ex_some (sim : Sim memory n cpu) {i x : Instruction} (hid : cpu.id = some i)
    (hex : cpu.ex = some x) : 2 ≤ fetchedCount cpu ∧ x = decodeAt memory (fetchedCount cpu - 2) := by
  obtain ⟨one, -, rest⟩ := sim.id_some hid
  rw [hex, Option.toList_some] at rest
  obtain ⟨two, last, -⟩ := concat_eq_map_range' rest
  have retired := sim.retired_le
  exact ⟨by omega, by rw [last]; congr 1; omega⟩

theorem Sim.hazard_eq (sim : Sim memory n cpu) {i x : Instruction} (hid : cpu.id = some i)
    (hex : cpu.ex = some x) : pipelineDetectHazard cpu = hazardPair memory (fetchedCount cpu - 2) := by
  obtain ⟨two, rfl⟩ := sim.ex_some hid hex
  obtain ⟨-, rfl, -⟩ := sim.id_some hid
  simp only [pipelineDetectHazard, hid, hex, hazardPair]
  rw [show fetchedCount cpu - 2 + 1 = fetchedCount cpu - 1 by omega]

/-! ### The three kinds of cycle -/

theorem pipelineCycle_stopped (stopped : cpu.running = false) :
    pipelineCycle memory memSize cpu = cpu := by
  simp [pipelineCycle, stopped]

theorem pipelineCycle_counts (running : cpu.running = true) :
    (pipelineCycle memory memSize cpu).cycleCount = cpu.cycleCount + 1 ∧
      (pipelineCycle memory memSize cpu).stallCount =
        cpu.stallCount + (pipelineDetectHazard cpu).toNat := by
  cases hid : cpu.id with
  | none =>
    have calm : pipelineDetectHazard cpu = false := by simp [pipelineDetectHazard, hid]
    by_cases room : cpu.pc / 4 < memSize <;> simp [pipelineCycle, running, hid, calm, room]
  | some i =>
    cases stall : pipelineDetectHazard cpu <;> by_cases room : cpu.pc / 4 < memSize <;>
      simp [pipelineCycle, running, hid, stall, room]

/-- What one cycle of a running CPU does: it stalls, it fetches the next word, or, with every
word fetched, it moves the latches on towards `WB` and stops once they are all empty. -/
theorem cycle_cases (small : n < 2^30) (sim : Sim memory n cpu) (running : cpu.running = true) :
    (pipelineCycle memory n.toUInt32 cpu).cycleCount = cpu.cycleCount + 1 ∧
      (pipelineCycle memory n.toUInt32 cpu).wb = cpu.mem ∧
      (pipelineCycle memory n.toUInt32 cpu).mem = cpu.ex ∧
      (pipelineDetectHazard cpu = true ∧ (pipelineCycle memory n.toUInt32 cpu).id = cpu.id ∧
          (pipelineCycle memory n.toUInt32 cpu).ex = none ∧
          fetchedCount (pipelineCycle memory n.toUInt32 cpu) = fetchedCount cpu ∧
          (pipelineCycle memory n.toUInt32 cpu).stallCount = cpu.stallCount + 1 ∧
          (pipelineCycle memory n.toUInt32 cpu).running = true ∨
        pipelineDetectHazard cpu = false ∧ fetchedCount cpu < n ∧
          (pipelineCycle memory n.toUInt32 cpu).id = some (decodeAt memory (fetchedCount cpu)) ∧
          (pipelineCycle memory n.toUInt32 cpu).ex = cpu.id ∧
          fetchedCount (pipelineCycle memory n.toUInt32 cpu) = fetchedCount cpu + 1 ∧
          (pipelineCycle memory n.toUInt32 cpu).stallCount = cpu.stallCount ∧
          (pipelineCycle memory n.toUInt32 cpu).running = true ∨
        pipelineDetectHazard cpu = false ∧ fetchedCount cpu = n ∧
          (pipelineCycle memory n.toUInt32 cpu).id = none ∧
          (pipelineCycle memory n.toUInt32 cpu).ex = cpu.id ∧
          fetchedCount (pipelineCycle memory n.toUInt32 cpu) = fetchedCount cpu ∧
          (pipelineCycle memory n.toUInt32 cpu).stallCount = cpu.stallCount ∧
          (pipelineCycle memory n.toUInt32 cpu).running =
            !(cpu.id.isNone && cpu.ex.isNone && cpu.mem.isNone && cpu.wb.isNone)) := by
  obtain ⟨wb, mem, ex, id, -, -, -, stillRunning⟩ :=
    @pipelineCycle_running memory n.toUInt32 cpu running
  obtain ⟨count, stalls⟩ := @pipelineCycle_counts memory n.toUInt32 cpu running
  have fetched := fetchedCount_cycle small sim running
  refine ⟨count, wb, mem, ?_⟩
  rw [ex, id, stillRunning, fetched, stalls, fetch_word sim]
  unfold fetches
  cases stall : pipelineDetectHazard cpu
  · -- no stall: a fetch while a word is left, a drain after the last
    by_cases room : cpu.pc / 4 < n.toUInt32
    · have left := (below_memSize_iff small).mp room
      exact .inr (.inl (by simp [room, left]))
    · have done : fetchedCount cpu = n := by
        have := (below_memSize_iff small).not.mp room
        have := sim.fetched_le
        omega
      exact .inr (.inr (by simp [room, done]))
  · -- a stall needs a word in `ID`, so the CPU keeps running
    obtain ⟨i, e, hid, -⟩ := hazard_full stall
    exact .inl (by simp [hid])

/-! ### The accounting invariant -/

/-- The number of words that have left `ID`. -/
def entered (cpu : PipelineCpu) : Nat := fetchedCount cpu - cpu.id.isSome.toNat

/-- `ID` holds a word that has already stalled behind the word before it: `EX` holds the
bubble of that stall. -/
def stalled (cpu : PipelineCpu) : Bool :=
  cpu.id.isSome && cpu.ex.isNone && decide (2 ≤ fetchedCount cpu)

/-- The cycles the youngest instruction in flight still needs to leave `WB`. -/
def depth (cpu : PipelineCpu) : Nat :=
  if cpu.id.isSome then 4 else if cpu.ex.isSome then 3 else if cpu.mem.isSome then 2
  else if cpu.wb.isSome then 1 else 0

/-- The cycles so far that neither fetched nor stalled: none while words are left, then one
for each latch the last word has passed, and one for the cycle that stopped the CPU. -/
def idle (n : Nat) (cpu : PipelineCpu) : Nat :=
  if fetchedCount cpu < n then 0 else 4 - depth cpu + (!cpu.running).toNat

/-- The pipeline is simulated, `ID` is empty only before the first fetch and after the last,
a bubble behind `ID` was left by a hazard, and the two counters count the hazards passed and
the cycles of the three kinds. -/
structure Timing (memory : Nat → UInt32) (n : Nat) (cpu : PipelineCpu) : Prop where
  sim : Sim memory n cpu
  idEmpty : cpu.id = none → fetchedCount cpu = 0 ∨ fetchedCount cpu = n
  stalledHazard : stalled cpu = true → hazardPair memory (fetchedCount cpu - 2) = true
  stalls : cpu.stallCount = hazardPairs memory (entered cpu) + (stalled cpu).toNat
  elapsed : cpu.cycleCount = fetchedCount cpu + cpu.stallCount + idle n cpu

theorem timing_init (nonempty : 1 ≤ n) : Timing memory n pipelineInit where
  sim := sim_init
  idEmpty _ := .inl rfl
  stalledHazard := by simp [stalled, pipelineInit]
  stalls := by simp [entered, stalled, hazardPairs, pipelineInit, fetchedCount]
  elapsed := by
    have first : fetchedCount pipelineInit < n := by simp [fetchedCount, pipelineInit]; omega
    rw [idle, if_pos first]
    rfl

/-- Before a cycle that does not stall, the stalls so far are the hazards among the words
fetched: the pair of the word in `ID` has been checked, and stalled if it is a hazard. -/
theorem Timing.stallCount_eq (t : Timing memory n cpu) (calm : pipelineDetectHazard cpu = false) :
    cpu.stallCount = hazardPairs memory (fetchedCount cpu) := by
  rw [t.stalls]
  cases hid : cpu.id with
  | none => simp [entered, stalled, hid]
  | some i =>
    have one := (t.sim.id_some hid).1
    cases hex : cpu.ex with
    | none =>
      by_cases two : 2 ≤ fetchedCount cpu
      · -- the word in `ID` stalled in the cycle before, for the hazard of its pair
        have hazard := t.stalledHazard (by simp [stalled, hid, hex, two])
        obtain ⟨m, hm⟩ : ∃ m, fetchedCount cpu = m + 2 := ⟨fetchedCount cpu - 2, by omega⟩
        rw [hm, Nat.add_sub_cancel] at hazard
        simp [entered, stalled, hid, hex, hm, hazardPairs_succ_succ, hazard]
      · have first : fetchedCount cpu = 1 := by omega
        simp [entered, stalled, hid, hex, first, hazardPairs]
    | some x =>
      -- the pair of the two youngest words is checked now, and is not a hazard
      obtain ⟨two, -⟩ := t.sim.ex_some hid hex
      have hazard := t.sim.hazard_eq hid hex
      rw [calm] at hazard
      obtain ⟨m, hm⟩ : ∃ m, fetchedCount cpu = m + 2 := ⟨fetchedCount cpu - 2, by omega⟩
      rw [hm, Nat.add_sub_cancel] at hazard
      simp [entered, stalled, hid, hex, hm, hazardPairs_succ_succ, ← hazard]

theorem Timing.stall_step (t : Timing memory n cpu) (sim : Sim memory n next)
    (running : cpu.running = true) (stall : pipelineDetectHazard cpu = true)
    (count : next.cycleCount = cpu.cycleCount + 1) (hid : next.id = cpu.id) (hex : next.ex = none)
    (fetched : fetchedCount next = fetchedCount cpu) (stalls : next.stallCount = cpu.stallCount + 1)
    (stillRunning : next.running = true) : Timing memory n next := by
  obtain ⟨i, e, cpuId, cpuEx⟩ := hazard_full stall
  obtain ⟨two, -⟩ := t.sim.ex_some cpuId cpuEx
  have hazard := t.sim.hazard_eq cpuId cpuEx
  -- the word in `ID` stays, now behind the bubble of the stall
  have nowStalled : stalled next = true := by simp [stalled, hid, hex, cpuId, fetched, two]
  have wasStalled : stalled cpu = false := by simp [stalled, cpuEx]
  have sameIdle : idle n next = idle n cpu := by
    simp only [idle, depth, hid, cpuId, Option.isSome_some, if_true, fetched, stillRunning, running]
  refine ⟨sim, fun none => ?_, fun _ => ?_, ?_, ?_⟩
  · rw [hid, cpuId] at none
    cases none
  · rw [fetched, ← hazard, stall]
  · rw [stalls, t.stalls, nowStalled, wasStalled]
    simp [entered, hid, fetched]
  · rw [count, t.elapsed, stalls, fetched, sameIdle]
    omega

theorem Timing.fetch_step (t : Timing memory n cpu) (sim : Sim memory n next)
    (calm : pipelineDetectHazard cpu = false) (left : fetchedCount cpu < n)
    (count : next.cycleCount = cpu.cycleCount + 1)
    (hid : next.id = some (decodeAt memory (fetchedCount cpu))) (hex : next.ex = cpu.id)
    (fetched : fetchedCount next = fetchedCount cpu + 1) (stalls : next.stallCount = cpu.stallCount)
    (stillRunning : next.running = true) : Timing memory n next := by
  -- the word that left `ID` is in `EX`, unless `ID` was empty before the first fetch
  have notStalled : stalled next = false := by
    cases cpuId : cpu.id with
    | none =>
      have first := t.idEmpty cpuId
      simp [stalled, hex, cpuId, fetched]
      omega
    | some i => simp [stalled, hex, cpuId]
  have idleBefore : idle n cpu = 0 := by simp [idle, left]
  have idleAfter : idle n next = 0 := by simp [idle, depth, hid, stillRunning]
  refine ⟨sim, fun none => ?_, fun stalledNext => ?_, ?_, ?_⟩
  · rw [hid] at none
    cases none
  · rw [notStalled] at stalledNext
    cases stalledNext
  · rw [stalls, t.stallCount_eq calm, notStalled]
    simp [entered, hid, fetched]
  · rw [count, t.elapsed, stalls, fetched, idleBefore, idleAfter]
    omega

theorem idle_drain (done : fetchedCount cpu = n) (running : cpu.running = true)
    (fetched : fetchedCount next = fetchedCount cpu) (hwb : next.wb = cpu.mem)
    (hmem : next.mem = cpu.ex) (hid : next.id = none) (hex : next.ex = cpu.id)
    (stillRunning : next.running =
      !(cpu.id.isNone && cpu.ex.isNone && cpu.mem.isNone && cpu.wb.isNone)) :
    idle n next = idle n cpu + 1 := by
  simp only [idle, fetched, done, lt_irrefl, if_false, running, stillRunning, depth, hwb, hmem, hid,
    hex]
  rcases cpu with ⟨_ | _, _ | _, _ | _, _ | _⟩ <;> simp

theorem Timing.drain_step (t : Timing memory n cpu) (sim : Sim memory n next)
    (running : cpu.running = true) (calm : pipelineDetectHazard cpu = false)
    (done : fetchedCount cpu = n) (count : next.cycleCount = cpu.cycleCount + 1)
    (hwb : next.wb = cpu.mem) (hmem : next.mem = cpu.ex) (hid : next.id = none)
    (hex : next.ex = cpu.id) (fetched : fetchedCount next = fetchedCount cpu)
    (stalls : next.stallCount = cpu.stallCount)
    (stillRunning : next.running =
      !(cpu.id.isNone && cpu.ex.isNone && cpu.mem.isNone && cpu.wb.isNone)) :
    Timing memory n next := by
  have notStalled : stalled next = false := by simp [stalled, hid]
  have oneMore := idle_drain done running fetched hwb hmem hid hex stillRunning
  refine ⟨sim, fun _ => .inr (fetched.trans done), fun stalledNext => ?_, ?_, ?_⟩
  · rw [notStalled] at stalledNext
    cases stalledNext
  · rw [stalls, t.stallCount_eq calm, notStalled]
    simp [entered, hid, fetched]
  · rw [count, t.elapsed, stalls, fetched, oneMore]
    omega

theorem Timing.cycle (small : n < 2^30) (t : Timing memory n cpu) :
    Timing memory n (pipelineCycle memory n.toUInt32 cpu) := by
  cases running : cpu.running
  · rwa [pipelineCycle_stopped running]
  have sim := t.sim.cycle small
  obtain ⟨count, wb, mem, stall | fetch | drain⟩ := cycle_cases small t.sim running
  · obtain ⟨stall, id, ex, fetched, stalls, stillRunning⟩ := stall
    exact t.stall_step sim running stall count id ex fetched stalls stillRunning
  · obtain ⟨calm, left, id, ex, fetched, stalls, stillRunning⟩ := fetch
    exact t.fetch_step sim calm left count id ex fetched stalls stillRunning
  · obtain ⟨calm, done, id, ex, fetched, stalls, stillRunning⟩ := drain
    exact t.drain_step sim running calm done count wb mem id ex fetched stalls stillRunning

theorem timing_cycles (nonempty : 1 ≤ n) (small : n < 2^30) (k : Nat) :
    Timing memory n (cycles memory n.toUInt32 k) :=
  Runs.run_invariant_all (Timing memory n) (fun _ _ t => t.cycle small) (timing_init nonempty)

theorem Timing.finished (t : Timing memory n cpu) (stops : cpu.running = false) :
    cpu.stallCount = hazardPairs memory n ∧ cpu.cycleCount = n + cpu.stallCount + 5 := by
  obtain ⟨all, empty⟩ := t.sim.stopped stops
  simp only [inflight, later_eq, List.append_eq_nil_iff, Option.toList_eq_nil_iff] at empty
  obtain ⟨hwb, ⟨hmem, hex⟩, hid⟩ := empty
  constructor
  · rw [t.stalls]
    simp [entered, stalled, hid, all]
  · rw [t.elapsed]
    simp [idle, depth, all, hid, hex, hmem, hwb, stops]

/-! ### `pipeline_execute` -/

/-- The CPU after `m` cycles from `cpu`. -/
def cyclesFrom (memory : Nat → UInt32) (memSize : UInt32) (m : Nat) (cpu : PipelineCpu) :
    PipelineCpu :=
  Runs.run (fun (_ : Unit) => pipelineCycle memory memSize) (List.replicate m ()) cpu

theorem cyclesFrom_succ (m : Nat) (cpu : PipelineCpu) :
    cyclesFrom memory memSize (m + 1) cpu = cyclesFrom memory memSize m (pipelineCycle memory memSize cpu) :=
  rfl

theorem cycleCount_cyclesFrom (m : Nat) (cpu : PipelineCpu)
    (running : ∀ j < m, (cyclesFrom memory memSize j cpu).running = true) :
    (cyclesFrom memory memSize m cpu).cycleCount = cpu.cycleCount + m := by
  induction m generalizing cpu with
  | zero => rfl
  | succ m ih =>
    have first := (@pipelineCycle_counts memory memSize cpu (running 0 (by omega))).1
    rw [cyclesFrom_succ, ih _ fun j lt => by rw [← cyclesFrom_succ]; exact running (j + 1) (by omega),
      first]
    omega

theorem executeLoop_pass {target fuel : Nat}
    (go : cpu.running = true ∧ cpu.instructionCount < target) :
    executeLoop memory memSize target (fuel + 1) cpu =
      if (pipelineCycle memory memSize cpu).cycleCount > target * 10 then pipelineCycle memory memSize cpu
      else executeLoop memory memSize target fuel (pipelineCycle memory memSize cpu) := by
  simp [executeLoop, go]

theorem executeLoop_exit {target fuel : Nat}
    (stop : ¬ (cpu.running = true ∧ cpu.instructionCount < target)) :
    executeLoop memory memSize target (fuel + 1) cpu = cpu := by
  simp only [executeLoop, Bool.and_eq_true, decide_eq_true_eq]
  rw [if_neg stop]

/-- The loop runs `m` cycles and leaves with the CPU stopped, when the CPU runs and stays
under `target` instructions for the first `m` of them and the `m` cycles stay within the
cut-off. -/
theorem executeLoop_cyclesFrom (target m : Nat) (fuel : Nat) (cpu : PipelineCpu) (enough : m < fuel)
    (under : cpu.cycleCount + m ≤ target * 10)
    (before : ∀ j < m, (cyclesFrom memory memSize j cpu).running = true ∧
      (cyclesFrom memory memSize j cpu).instructionCount < target)
    (stops : (cyclesFrom memory memSize m cpu).running = false) :
    executeLoop memory memSize target fuel cpu = cyclesFrom memory memSize m cpu := by
  -- induction on the cycles left, one pass of the loop for each
  induction m generalizing fuel cpu with
  | zero =>
    obtain ⟨fuel, rfl⟩ : ∃ f, fuel = f + 1 := ⟨fuel - 1, by omega⟩
    have stop : ¬ (cpu.running = true ∧ cpu.instructionCount < target) := by
      intro go
      have stopped : cpu.running = false := stops
      rw [stopped] at go
      exact Bool.noConfusion go.1
    rw [executeLoop_exit stop]
    rfl
  | succ m ih =>
    obtain ⟨fuel, rfl⟩ : ∃ f, fuel = f + 1 := ⟨fuel - 1, by omega⟩
    have go : cpu.running = true ∧ cpu.instructionCount < target := before 0 (by omega)
    have count := (@pipelineCycle_counts memory memSize cpu go.1).1
    rw [executeLoop_pass go, if_neg (by simp only [count]; omega), cyclesFrom_succ]
    exact ih fuel _ (by omega) (by rw [count]; omega)
      (fun j lt => by rw [← cyclesFrom_succ]; exact before (j + 1) (by omega)) stops

/-- The pipeline's cycle accounting, and `pipeline_execute` with a budget above the program's
length: the run of `pipeline_cycle` from `pipeline_init` stops, with one stall for each
hazardous adjacent pair and `n + stalls + 5` cycles, and `pipeline_execute` ends in the same
state. -/
theorem pipeline_cycle_accounting (memory : Nat → UInt32) (n : Nat) (k : UInt32)
    (nonempty : 1 ≤ n) (small : n < 2^30) (budget : n < k.toNat) :
    ∃ K, (cycles memory n.toUInt32 K).running = false ∧
      (∀ j < K, (cycles memory n.toUInt32 j).running = true) ∧
      (cycles memory n.toUInt32 K).stallCount = hazardPairs memory n ∧ hazardPairs memory n ≤ n - 1 ∧
      (cycles memory n.toUInt32 K).cycleCount = n + (cycles memory n.toUInt32 K).stallCount + 5 ∧
      pipelineExecute memory n.toUInt32 k pipelineInit = cycles memory n.toUInt32 K := by
  obtain ⟨K, stops, before⟩ := drains small _ pipelineInit sim_init (Nat.le_refl _)
  have t : Timing memory n (cycles memory n.toUInt32 K) := timing_cycles nonempty small K
  obtain ⟨stallsEq, cyclesEq⟩ := t.finished stops
  have bound := hazardPairs_le memory n
  refine ⟨K, stops, before, stallsEq, bound, cyclesEq, ?_⟩
  -- the loop runs the same `K` cycles: they are at most `2 n + 4`, under the cut-off
  have counted : (cycles memory n.toUInt32 K).cycleCount = pipelineInit.cycleCount + K :=
    cycleCount_cyclesFrom K pipelineInit before
  have start : pipelineInit.cycleCount = 0 ∧ pipelineInit.instructionCount = 0 := ⟨rfl, rfl⟩
  exact executeLoop_cyclesFrom _ K _ pipelineInit (by omega) (by omega)
    (fun j lt => ⟨before j lt, by
      have sim : Sim memory n (cyclesFrom memory n.toUInt32 j pipelineInit) := sim_cycles small j
      have := sim.retired_le
      have := sim.fetched_le
      omega⟩) stops

theorem pipeline_cycle_accounting_two_words : 1 ≤ 2 ∧ 2 < 2^30 ∧ 2 < (3 : UInt32).toNat ∧
    ∃ K, (cycles (fun _ => 0x00100093) (2 : Nat).toUInt32 K).running = false ∧
      (∀ j < K, (cycles (fun _ => 0x00100093) (2 : Nat).toUInt32 j).running = true) ∧
      (cycles (fun _ => 0x00100093) (2 : Nat).toUInt32 K).stallCount =
        hazardPairs (fun _ => 0x00100093) 2 ∧ hazardPairs (fun _ => 0x00100093) 2 ≤ 2 - 1 ∧
      (cycles (fun _ => 0x00100093) (2 : Nat).toUInt32 K).cycleCount =
        2 + (cycles (fun _ => 0x00100093) (2 : Nat).toUInt32 K).stallCount + 5 ∧
      pipelineExecute (fun _ => 0x00100093) (2 : Nat).toUInt32 3 pipelineInit =
        cycles (fun _ => 0x00100093) (2 : Nat).toUInt32 K :=
  ⟨by decide, by decide, by decide, pipeline_cycle_accounting _ 2 3 (by decide) (by decide) (by decide)⟩

/-- With a budget of exactly the program's one word, `pipeline_execute` leaves at the fifth
cycle, which retires the word, while the CPU is still running; it stops only at the sixth. -/
theorem pipeline_execute_exact_budget_leaves_running :
    (pipelineExecute (fun _ => 0) (1 : Nat).toUInt32 1 pipelineInit).running = true ∧
      (pipelineExecute (fun _ => 0) (1 : Nat).toUInt32 1 pipelineInit).cycleCount = 5 ∧
      (∀ j < 6, (cycles (fun _ => 0) (1 : Nat).toUInt32 j).running = true) ∧
      (cycles (fun _ => 0) (1 : Nat).toUInt32 6).running = false ∧
      (cycles (fun _ => 0) (1 : Nat).toUInt32 6).cycleCount = 6 := by
  decide +kernel

end OpenOS.Cpu

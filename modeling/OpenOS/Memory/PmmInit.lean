import OpenOS.Memory.Pmm

/-! What `pmm_init` leaves in the bitmap when the bootloader passes a memory map: a page is
used unless an available region above 1 MiB frees it, and page 0 and the kernel image are
used again afterwards. Regions that start below 1 MiB are skipped whole, and regions of other
types are never looked at. -/
namespace OpenOS.Pmm

/-- Page `q` is freed by region `e` in the second pass of `pmm_init`. -/
def Clears (total : Nat) (e : MmapEntry) (q : Nat) : Prop :=
  e.type = memoryAvailable ∧ lowMemory ≤ e.addr ∧ startPage e ≤ q ∧ q < min (endPage e) total ∧
    q / 8 < bitmapSize

instance (total : Nat) (e : MmapEntry) (q : Nat) : Decidable (Clears total e q) := by
  unfold Clears; infer_instance

section

variable (s : State) (q : Nat)

theorem test_foldl_clear (a n : Nat) :
    bitmapTest ((List.range' a n).foldl (fun s page => bitmapClear page s) s) q =
      if a ≤ q ∧ q < a + n ∧ q / 8 < bitmapSize then false else bitmapTest s q := by
  induction n generalizing a s with
  | zero =>
    rw [if_neg (by omega)]
    rfl
  | succ n ih =>
    rw [List.range'_succ, List.foldl_cons, ih, bitmapTest_clear]
    by_cases eq : q = a
    · subst eq; simp
    · by_cases inside : a + 1 ≤ q ∧ q < a + 1 + n ∧ q / 8 < bitmapSize
      · rw [if_pos inside, if_pos (by omega)]
      · rw [if_neg inside, if_neg (by omega)]
        by_cases range : q / 8 < bitmapSize
        · rw [if_neg (by omega)]
        · simp [range]

theorem totalPages_foldl_clear (a n : Nat) :
    ((List.range' a n).foldl (fun s page => bitmapClear page s) s).totalPages = s.totalPages := by
  induction n generalizing a s with
  | zero => rfl
  | succ n ih => rw [List.range'_succ, List.foldl_cons, ih, bitmapClear_totalPages]

theorem test_foldl_reserve (a n : Nat) :
    bitmapTest ((List.range' a n).foldl
        (fun s page => if !bitmapTest s page then bitmapSet page s else s) s) q =
      (bitmapTest s q || decide (a ≤ q ∧ q < a + n)) := by
  induction n generalizing a s with
  | zero =>
    rw [decide_eq_false (by omega), Bool.or_false]
    rfl
  | succ n ih =>
    rw [List.range'_succ, List.foldl_cons, ih]
    -- a page already used stays used; a free one is set
    by_cases used : bitmapTest s a = true
    · simp only [used, Bool.not_true, Bool.false_eq_true, if_false]
      by_cases eq : q = a
      · subst eq; simp [used]
      · by_cases inside : a + 1 ≤ q ∧ q < a + 1 + n
        · rw [decide_eq_true inside, decide_eq_true (show a ≤ q ∧ q < a + (n + 1) by omega)]
        · rw [decide_eq_false inside, decide_eq_false (show ¬ (a ≤ q ∧ q < a + (n + 1)) by omega)]
    · simp only [used, Bool.not_false, if_true, bitmapTest_set]
      by_cases eq : q = a
      · subst eq; simp
      · by_cases inside : a + 1 ≤ q ∧ q < a + 1 + n
        · rw [if_neg eq, decide_eq_true inside, decide_eq_true (show a ≤ q ∧ q < a + (n + 1) by omega)]
        · rw [if_neg eq, decide_eq_false inside, decide_eq_false (show ¬ (a ≤ q ∧ q < a + (n + 1)) by omega)]

theorem totalPages_foldl_reserve (a n : Nat) :
    ((List.range' a n).foldl
        (fun s page => if !bitmapTest s page then bitmapSet page s else s) s).totalPages =
      s.totalPages := by
  induction n generalizing a s with
  | zero => rfl
  | succ n ih =>
    rw [List.range'_succ, List.foldl_cons, ih]
    split <;> simp

theorem test_reserveRange (start stop : Nat) :
    bitmapTest (reserveRange start stop s) q =
      (bitmapTest s q || decide (start < stop ∧ start / pageSize % 2^32 ≤ q ∧
        q < min ((stop + pageSize - 1) % 2^64 / pageSize % 2^32) s.totalPages)) := by
  unfold reserveRange
  split
  · simp [show ¬ start < stop by omega]
  · rw [test_foldl_reserve]
    congr 2
    apply propext
    omega

theorem reserveRange_totalPages (start stop : Nat) :
    (reserveRange start stop s).totalPages = s.totalPages := by
  unfold reserveRange
  split
  · rfl
  · exact totalPages_foldl_reserve _ _ _

theorem test_freeRegion (e : MmapEntry) :
    bitmapTest (freeRegion s e) q = (bitmapTest s q && !decide (Clears s.totalPages e q)) := by
  unfold freeRegion
  split
  · next avail =>
    rw [test_foldl_clear]
    by_cases clears : Clears s.totalPages e q
    · obtain ⟨-, -, lo, hi, range⟩ := clears
      rw [if_pos ⟨lo, by omega, range⟩]
      simp [Clears, avail, lo, hi, range]
    · rw [if_neg (fun ⟨lo, hi, range⟩ => clears ⟨avail.1, avail.2, lo, by omega, range⟩)]
      simp [clears]
  · next skipped =>
    have : ¬ Clears s.totalPages e q := fun ⟨avail, low, _⟩ => skipped ⟨avail, low⟩
    simp [this]

theorem freeRegion_totalPages (e : MmapEntry) : (freeRegion s e).totalPages = s.totalPages := by
  unfold freeRegion
  split
  · exact totalPages_foldl_clear _ _ _
  · rfl

theorem test_foldl_freeRegion (entries : List MmapEntry) :
    bitmapTest (entries.foldl freeRegion s) q =
      (bitmapTest s q && !decide (∃ e ∈ entries, Clears s.totalPages e q)) ∧
      (entries.foldl freeRegion s).totalPages = s.totalPages := by
  induction entries generalizing s with
  | nil => simp
  | cons e entries ih =>
    rw [List.foldl_cons, (ih _).1, (ih _).2, test_freeRegion, freeRegion_totalPages]
    refine ⟨?_, rfl⟩
    by_cases first : Clears s.totalPages e q <;> simp [first]

end

/-- `pmm_init` with a memory map: the bitmap after it, page by page. -/
theorem pmmInit_memoryMap {kernelStart kernelEnd : Nat} {mem : Nat → UInt8} {mboot : MultibootInfo}
    {entries : List MmapEntry} (s : State) (mmap : mboot.flags &&& 0x40 ≠ 0)
    (walk : mmapEntries mem mboot = some entries) :
    ∃ t, pmmInit kernelStart kernelEnd mem mboot s = some t ∧
      t.totalPages = min (maxAvailable entries s.maxPhysicalAddress / pageSize % 2^32) (bitmapSize * 8) ∧
      ∀ q, bitmapTest t q =
        (!decide (∃ e ∈ entries, Clears t.totalPages e q) || decide (q < min 1 t.totalPages) ||
          decide (kernelStart < kernelEnd ∧ kernelStart / pageSize % 2^32 ≤ q ∧
            q < min ((kernelEnd + pageSize - 1) % 2^64 / pageSize % 2^32) t.totalPages)) := by
  simp only [pmmInit, if_neg mmap, walk, Option.map_some, Option.some.injEq, exists_eq_left']
  have freed := test_foldl_freeRegion
    ⟨fun _ => true, min (maxAvailable entries s.maxPhysicalAddress / pageSize % 2^32) (bitmapSize * 8),
      s.usedPages, maxAvailable entries s.maxPhysicalAddress⟩
  refine ⟨by rw [reserveRange_totalPages, reserveRange_totalPages, (freed 0 entries).2], fun q => ?_⟩
  -- every page starts used; the second pass frees, the two reservations set again
  have allUsed : bitmapTest ⟨fun _ => true,
      min (maxAvailable entries s.maxPhysicalAddress / pageSize % 2^32) (bitmapSize * 8),
      s.usedPages, maxAvailable entries s.maxPhysicalAddress⟩ q = true := by
    simp [bitmapTest]
  rw [show ∀ t : State, bitmapTest { t with usedPages := countUsed t } q = bitmapTest t q from
    fun _ => rfl]
  simp only [test_reserveRange, reserveRange_totalPages, (freed q entries).1, (freed 0 entries).2,
    allUsed, Bool.true_and, Bool.or_assoc]
  congr 3
  apply propext
  simp only [pageSize]
  omega

/-- An available region that starts below 1 MiB frees nothing, not even its pages above
1 MiB: page `0x100` of the region `[0x80000, 0x480000)` stays used. -/
theorem pmmInit_skips_low_region :
    mmapEntries (fun a => if a = 0x10000 then 20 else if a = 0x10006 then 8
        else if a = 0x1000E then 64 else if a = 0x10014 then 1 else 0) ⟨0x40, 0, 0, 24, 0x10000⟩ =
      some [⟨20, 0x80000, 0x400000, memoryAvailable⟩] ∧
    ∃ t, pmmInit 0x200000 0x210000 (fun a => if a = 0x10000 then 20 else if a = 0x10006 then 8
        else if a = 0x1000E then 64 else if a = 0x10014 then 1 else 0) ⟨0x40, 0, 0, 24, 0x10000⟩ boot =
        some t ∧
      0x100 < t.totalPages ∧ bitmapTest t 0x100 = true := by
  refine ⟨by decide, _, rfl, by decide, by decide⟩

/-- Pages after `pmm_init` with a memory map whose regions end below 2^44 bytes: a page
wholly inside an available region that starts at or above 1 MiB is free unless it is page 0
or meets the kernel image, and a free page is neither of those and meets such a region. -/
theorem pmmInit_free_pages {kernelStart kernelEnd : Nat} {mem : Nat → UInt8} {mboot : MultibootInfo}
    {entries : List MmapEntry} (s : State) (mmap : mboot.flags &&& 0x40 ≠ 0)
    (walk : mmapEntries mem mboot = some entries) (below : ∀ e ∈ entries, e.addr + e.len < 2^44)
    (kernelBelow : kernelEnd < 2^32) :
    ∃ t, pmmInit kernelStart kernelEnd mem mboot s = some t ∧ ∀ i < t.totalPages,
      ((∃ e ∈ entries, e.type = memoryAvailable ∧ lowMemory ≤ e.addr ∧
          e.addr ≤ i * pageSize ∧ (i + 1) * pageSize ≤ e.addr + e.len) →
        i ≠ 0 → ¬ (kernelStart < kernelEnd ∧ kernelStart < (i + 1) * pageSize ∧ i * pageSize < kernelEnd) →
        bitmapTest t i = false) ∧
      (bitmapTest t i = false →
        i ≠ 0 ∧ ¬ (kernelStart < kernelEnd ∧ kernelStart < (i + 1) * pageSize ∧ i * pageSize < kernelEnd) ∧
        ∃ e ∈ entries, e.type = memoryAvailable ∧ lowMemory ≤ e.addr ∧
          e.addr < (i + 1) * pageSize ∧ i * pageSize < e.addr + e.len) := by
  obtain ⟨t, init, total, bits⟩ := @pmmInit_memoryMap kernelStart kernelEnd mem mboot entries s mmap walk
  refine ⟨t, init, fun i lt => ⟨?_, ?_⟩⟩
  · rintro ⟨e, member, avail, low, lo, hi⟩ notZero notKernel
    have small := below e member
    have clears : Clears t.totalPages e i := by
      refine ⟨avail, low, ?_, ?_, ?_⟩
      · unfold startPage
        simp only [pageSize] at lo ⊢
        omega
      · unfold endPage
        simp only [pageSize] at hi ⊢
        omega
      · rw [total] at lt
        simp only [bitmapSize] at lt ⊢
        omega
    have kernel : ¬ (kernelStart < kernelEnd ∧ kernelStart / pageSize % 2^32 ≤ i ∧
        i < min ((kernelEnd + pageSize - 1) % 2^64 / pageSize % 2^32) t.totalPages) := by
      simp only [pageSize] at notKernel ⊢
      omega
    have notFirst : ¬ i < min 1 t.totalPages := by omega
    rw [bits i, decide_eq_true (⟨e, member, clears⟩ : ∃ e ∈ entries, Clears t.totalPages e i),
      decide_eq_false notFirst, decide_eq_false kernel]
    rfl
  · intro free
    rw [bits i] at free
    simp only [Bool.or_eq_false_iff] at free
    obtain ⟨⟨cleared, notZero⟩, notKernel⟩ := free
    simp only [Bool.not_eq_eq_eq_not, Bool.not_false, decide_eq_true_eq] at cleared
    simp only [decide_eq_false_iff_not] at notZero notKernel
    obtain ⟨e, member, avail, low, lo, hi, -⟩ := cleared
    have small := below e member
    unfold startPage at lo
    unfold endPage at hi
    simp only [pageSize] at lo hi notKernel ⊢
    refine ⟨by omega, by omega, e, member, avail, low, by omega, by omega⟩

/-- One available region from 1 MiB to 5 MiB and the kernel image at 2 MiB. -/
theorem pmmInit_free_pages_from_one_mib :
    ∃ t, pmmInit 0x200000 0x210000 (fun a => if a = 0x10000 then 20 else if a = 0x10006 then 16
        else if a = 0x1000E then 64 else if a = 0x10014 then 1 else 0) ⟨0x40, 0, 0, 24, 0x10000⟩ boot =
        some t ∧ ∀ i < t.totalPages,
      ((∃ e ∈ [(⟨20, 0x100000, 0x400000, memoryAvailable⟩ : MmapEntry)], e.type = memoryAvailable ∧
          lowMemory ≤ e.addr ∧ e.addr ≤ i * pageSize ∧ (i + 1) * pageSize ≤ e.addr + e.len) →
        i ≠ 0 → ¬ (0x200000 < 0x210000 ∧ 0x200000 < (i + 1) * pageSize ∧ i * pageSize < 0x210000) →
        bitmapTest t i = false) ∧
      (bitmapTest t i = false →
        i ≠ 0 ∧ ¬ (0x200000 < 0x210000 ∧ 0x200000 < (i + 1) * pageSize ∧ i * pageSize < 0x210000) ∧
        ∃ e ∈ [(⟨20, 0x100000, 0x400000, memoryAvailable⟩ : MmapEntry)], e.type = memoryAvailable ∧
          lowMemory ≤ e.addr ∧ e.addr < (i + 1) * pageSize ∧ i * pageSize < e.addr + e.len) :=
  pmmInit_free_pages boot (by decide) (by decide) (by decide) (by decide)

/-- Page 0, the `NULL` frame, is used after `pmm_init` on either path. -/
theorem pmmInit_reserves_null {kernelStart kernelEnd : Nat} {mem : Nat → UInt8} {mboot : MultibootInfo}
    {s t : State} (init : pmmInit kernelStart kernelEnd mem mboot s = some t) : bitmapTest t 0 = true := by
  by_cases mmap : mboot.flags &&& 0x40 = 0
  · -- without a map only pages from 1 MiB up are cleared
    simp only [pmmInit, if_pos mmap, Option.some.injEq] at init
    subst init
    rw [bitmapTest_mk, test_reserveRange, test_reserveRange, test_foldl_clear,
      if_neg (by simp [lowMemory, pageSize])]
    simp [bitmapTest]
  · cases walk : mmapEntries mem mboot with
    | none => simp [pmmInit, mmap, walk] at init
    | some entries =>
      obtain ⟨t', init', -, bits⟩ := @pmmInit_memoryMap kernelStart kernelEnd mem mboot entries s mmap walk
      rw [init] at init'
      obtain rfl := Option.some.inj init'
      rw [bits 0]
      by_cases empty : t.totalPages = 0
      · -- no page is below `total_pages`, so no region clears page 0
        have none : ¬ ∃ e ∈ entries, Clears t.totalPages e 0 := by
          rintro ⟨e, -, -, -, -, lt, -⟩
          omega
        simp [none]
      · simp [show 0 < min 1 t.totalPages by omega]

/-! ### The memory-map walks -/

/-- The step of both walks, `(uint32_t)mmap + mmap->size + sizeof(mmap->size)`, taken from
the entry under the cursor. -/
def mmapNext (mem : Nat → UInt8) (a : Nat) : Nat := (a + (entryAt mem a).size + 4) % 2^32

theorem mmapWalk_succ (mem : Nat → UInt8) (stop fuel a : Nat) :
    mmapWalk mem stop (fuel + 1) a =
      if a < stop then (mmapWalk mem stop fuel (mmapNext mem a)).map (entryAt mem a :: ·) else some [] :=
  rfl

theorem mmapWalk_of_inside {mem : Nat → UInt8} {stop : Nat} :
    ∀ (fuel a : Nat), (∀ k, (mmapNext mem)^[k] a < stop) → mmapWalk mem stop fuel a = none
  | 0, _, _ => rfl
  | fuel + 1, a, inside => by
    have later : ∀ k, (mmapNext mem)^[k] (mmapNext mem a) < stop := fun k => by
      rw [← Function.iterate_succ_apply]
      exact inside (k + 1)
    rw [mmapWalk_succ, if_pos (show a < stop from inside 0), mmapWalk_of_inside fuel _ later, Option.map_none]

/-- A walk whose strides never wrap ends, and it visits at most one entry per four bytes
of the buffer: every stride is at least `sizeof(mmap->size)`. -/
theorem mmapWalk_ends {mem : Nat → UInt8} {stop : Nat} :
    ∀ (fuel a : Nat), (stop - a + 3) / 4 < fuel →
      (∀ b, a ≤ b → b < stop → b + (entryAt mem b).size + 4 < 2^32) →
      ∃ entries, mmapWalk mem stop fuel a = some entries ∧ entries.length ≤ (stop - a + 3) / 4
  | 0, _, enough, _ => absurd enough (Nat.not_lt_zero _)
  | fuel + 1, a, enough, forward => by
    rw [mmapWalk_succ]
    by_cases inside : a < stop
    · -- the cursor moves forward by the stride, at least four bytes
      have next : mmapNext mem a = a + (entryAt mem a).size + 4 :=
        Nat.mod_eq_of_lt (forward a le_rfl inside)
      obtain ⟨entries, walk, length⟩ := mmapWalk_ends fuel (mmapNext mem a) (by omega)
        (fun b above below => forward b (by omega) below)
      rw [if_pos inside, walk, Option.map_some]
      exact ⟨_, rfl, by rw [List.length_cons]; omega⟩
    · rw [if_neg inside]
      exact ⟨[], rfl, Nat.zero_le _⟩

/-- An entry whose `size` is `0xFFFFFFFC` makes the stride `2^32`: the cursor comes back to
the same entry at every step, inside the 24 bytes of the map, and `pmm_init` never returns. -/
theorem pmmInit_mmap_walk_hangs :
    (∀ k, (mmapNext (fun a => if a = 0x10000 then 0xFC else if 0x10001 ≤ a ∧ a ≤ 0x10003 then 0xFF
        else 0))^[k] 0x10000 = 0x10000) ∧
      mmapEntries (fun a => if a = 0x10000 then 0xFC else if 0x10001 ≤ a ∧ a ≤ 0x10003 then 0xFF
        else 0) ⟨0x40, 0, 0, 24, 0x10000⟩ = none ∧
      pmmInit 0x100000 0x200000 (fun a => if a = 0x10000 then 0xFC
        else if 0x10001 ≤ a ∧ a ≤ 0x10003 then 0xFF else 0) ⟨0x40, 0, 0, 24, 0x10000⟩ boot = none := by
  have back : mmapNext (fun a => if a = 0x10000 then 0xFC else if 0x10001 ≤ a ∧ a ≤ 0x10003 then 0xFF
      else 0) 0x10000 = 0x10000 := by decide
  have stays : ∀ k, (mmapNext (fun a => if a = 0x10000 then 0xFC
      else if 0x10001 ≤ a ∧ a ≤ 0x10003 then 0xFF else 0))^[k] 0x10000 = 0x10000 :=
    fun k => Function.iterate_fixed back k
  have walk : mmapEntries (fun a => if a = 0x10000 then 0xFC else if 0x10001 ≤ a ∧ a ≤ 0x10003 then 0xFF
      else 0) ⟨0x40, 0, 0, 24, 0x10000⟩ = none :=
    mmapWalk_of_inside _ _ fun k => by rw [stays k]; decide
  refine ⟨stays, walk, ?_⟩
  simp only [pmmInit, walk, Option.map_none]
  rw [if_neg (by decide)]

end OpenOS.Pmm

import OpenOS.Memory.PmmInit
import OpenOS.Lib.Run

/-! The allocator after `pmm_init`. The counter `used_pages` is the number of set bits below
`total_pages` in every state a run reaches, and an allocation takes the first clear bit and
sets it, so a page number is never handed out twice without a free in between. The address
handed out is `page * PMM_PAGE_SIZE` in `uint32_t`; it tells pages apart only below 2^20
pages, while `total_pages` may reach `PMM_BITMAP_SIZE * 8 = 2^23`. -/
namespace OpenOS.Pmm

/-- What every entry point keeps: the counter is the number of used pages, and the pages
fit the bitmap. -/
structure Accounted (s : State) : Prop where
  counted : s.usedPages = countUsed s
  bounded : s.totalPages ≤ bitmapSize * 8

@[simp] theorem countUsed_usedPages (s : State) (n : Nat) :
    countUsed { s with usedPages := n } = countUsed s := rfl

@[simp] theorem pmmAllocPage_totalPages (s : State) : (pmmAllocPage s).2.totalPages = s.totalPages := by
  unfold pmmAllocPage
  split <;> simp

@[simp] theorem pmmFreePage_totalPages (ptr : Nat) (s : State) :
    (pmmFreePage ptr s).totalPages = s.totalPages := by
  dsimp only [pmmFreePage]
  split <;> simp

@[simp] theorem pmmMarkUsed_totalPages (ptr : Nat) (s : State) :
    (pmmMarkUsed ptr s).totalPages = s.totalPages := by
  dsimp only [pmmMarkUsed]
  split <;> simp

theorem countUsed_le (s : State) : countUsed s ≤ s.totalPages :=
  calc countUsed s ≤ (List.range s.totalPages).length := List.countP_le_length
    _ = s.totalPages := List.length_range

/-- Changing one bit below `n` moves the count by that bit. -/
theorem countP_range_update {p q : Nat → Bool} {n page : Nat} (lt : page < n)
    (same : ∀ j, j ≠ page → p j = q j) :
    (List.range n).countP p + (if q page then 1 else 0) =
      (List.range n).countP q + (if p page then 1 else 0) := by
  induction n with
  | zero => omega
  | succ n ih =>
    rw [List.range_succ, List.countP_append, List.countP_append, List.countP_singleton,
      List.countP_singleton]
    by_cases last : page = n
    · subst last
      -- below the changed page both counts agree
      have prefixSame : (List.range page).countP p = (List.range page).countP q :=
        List.countP_congr (fun j member => by rw [same j (by simp at member; omega)])
      rw [prefixSame]
      omega
    · have moved := ih (by omega)
      rw [same n (Ne.symm last)]
      omega

theorem countUsed_set {s : State} {page : Nat} (lt : page < s.totalPages)
    (clear : bitmapTest s page = false) : countUsed (bitmapSet page s) = countUsed s + 1 := by
  have moved := countP_range_update (p := bitmapTest s) (q := bitmapTest (bitmapSet page s)) lt
    (fun j ne => by rw [bitmapTest_set, if_neg ne])
  rw [bitmapTest_set, if_pos rfl, clear] at moved
  unfold countUsed
  rw [bitmapSet_totalPages]
  simpa using moved.symm

theorem countUsed_clear {s : State} {page : Nat} (lt : page < s.totalPages)
    (range : page / 8 < bitmapSize) (set : bitmapTest s page = true) :
    countUsed (bitmapClear page s) + 1 = countUsed s := by
  have moved := countP_range_update (p := bitmapTest s) (q := bitmapTest (bitmapClear page s)) lt
    (fun j ne => by rw [bitmapTest_clear, if_neg (fun ⟨eq, _⟩ => ne eq)])
  have cleared : bitmapTest (bitmapClear page s) page = false := by
    rw [bitmapTest_clear, if_pos (And.intro rfl range)]
  rw [cleared, set] at moved
  unfold countUsed
  rw [bitmapClear_totalPages]
  simpa using moved.symm

theorem Accounted.page_range {s : State} (acc : Accounted s) {page : Nat} (lt : page < s.totalPages) :
    page / 8 < bitmapSize := by
  have bounded := acc.bounded
  simp only [bitmapSize] at bounded ⊢
  omega

theorem Accounted.usedPages_lt {s : State} (acc : Accounted s) : s.usedPages < 2^32 := by
  have counted := acc.counted
  have bounded := acc.bounded
  have le := countUsed_le s
  simp only [bitmapSize] at bounded
  omega

theorem findFree_eq_some {s : State} {page : Nat} :
    findFree s = some page ↔
      page < s.totalPages ∧ bitmapTest s page = false ∧ ∀ j < page, bitmapTest s j = true := by
  unfold findFree
  rw [List.find?_range_eq_some]
  simp only [Bool.not_eq_eq_eq_not, Bool.not_true, List.mem_range, Bool.not_not]
  constructor
  · rintro ⟨clear, lt, before⟩
    exact ⟨lt, clear, before⟩
  · rintro ⟨lt, clear, before⟩
    exact ⟨clear, lt, before⟩

theorem pmmAllocPage_of_findFree {s : State} {page : Nat} (found : findFree s = some page) :
    (pmmAllocPage s).1 = page * pageSize % 2^32 ∧ bitmapTest s page = false ∧
      ∀ q, bitmapTest (pmmAllocPage s).2 q = if q = page then true else bitmapTest s q := by
  unfold pmmAllocPage
  rw [found]
  exact ⟨rfl, (findFree_eq_some.mp found).2.1, fun q => by rw [bitmapTest_mk, bitmapTest_set]⟩

theorem pmmAllocPage_of_none {s : State} (none : findFree s = none) : pmmAllocPage s = (0, s) := by
  unfold pmmAllocPage
  rw [none]

section

variable {s : State}

theorem Accounted.alloc (acc : Accounted s) : Accounted (pmmAllocPage s).2 := by
  unfold pmmAllocPage
  split
  · next page found =>
    obtain ⟨lt, clear, -⟩ := findFree_eq_some.mp found
    have count := countUsed_set lt clear
    have le := countUsed_le (bitmapSet page s)
    rw [count, bitmapSet_totalPages] at le
    have bounded := acc.bounded
    simp only [bitmapSize] at bounded
    have counted := acc.counted
    refine ⟨?_, by simpa using acc.bounded⟩
    rw [countUsed_usedPages, count]
    dsimp only
    omega
  · exact acc

theorem Accounted.free (acc : Accounted s) (ptr : Nat) : Accounted (pmmFreePage ptr s) := by
  dsimp only [pmmFreePage]
  split
  · next guard =>
    obtain ⟨lt, set⟩ := guard
    have count := countUsed_clear lt (acc.page_range lt) set
    have small := acc.usedPages_lt
    have counted := acc.counted
    refine ⟨?_, by simpa using acc.bounded⟩
    rw [countUsed_usedPages, u32]
    dsimp only
    omega
  · exact acc

theorem Accounted.markUsed (acc : Accounted s) (ptr : Nat) : Accounted (pmmMarkUsed ptr s) := by
  dsimp only [pmmMarkUsed]
  split
  · next guard =>
    obtain ⟨lt, clear⟩ := guard
    have count := countUsed_set lt clear
    have le := countUsed_le (bitmapSet (ptr % 2^32 / pageSize) s)
    rw [count, bitmapSet_totalPages] at le
    have bounded := acc.bounded
    simp only [bitmapSize] at bounded
    refine ⟨?_, by simpa using acc.bounded⟩
    rw [countUsed_usedPages, count, acc.counted]
    dsimp only
    omega
  · exact acc

theorem PmmCall.apply_accounted (acc : Accounted s) : ∀ c : PmmCall, Accounted (c.apply s)
  | .alloc => acc.alloc
  | .free ptr => acc.free ptr
  | .markUsed ptr => acc.markUsed ptr
  | .markFree ptr => acc.free ptr

@[simp] theorem PmmCall.apply_totalPages : ∀ c : PmmCall, (c.apply s).totalPages = s.totalPages
  | .alloc | .free _ | .markUsed _ | .markFree _ => by simp [PmmCall.apply, pmmMarkFree]

end

theorem pmmInit_accounted {kernelStart kernelEnd : Nat} {mem : Nat → UInt8} {mboot : MultibootInfo}
    {s t : State} (init : pmmInit kernelStart kernelEnd mem mboot s = some t) : Accounted t := by
  unfold pmmInit at init
  split at init
  · -- without a map the size comes from a 32-bit byte count
    obtain rfl := Option.some.inj init
    refine ⟨rfl, ?_⟩
    simp only [reserveRange_totalPages, totalPages_foldl_clear, bitmapSize, pageSize]
    omega
  · obtain ⟨entries, -, rfl⟩ := Option.map_eq_some_iff.mp init
    refine ⟨rfl, ?_⟩
    simp only [reserveRange_totalPages, (test_foldl_freeRegion _ 0 entries).2]
    exact Nat.min_le_right _ _

/-- The allocator states after `pmm_init` from boot and any calls. -/
def Reachable (t : State) : Prop :=
  ∃ kernelStart kernelEnd mem mboot t₀ calls,
    pmmInit kernelStart kernelEnd mem mboot boot = some t₀ ∧ Runs.run PmmCall.apply calls t₀ = t

theorem Reachable.accounted {t : State} (reachable : Reachable t) : Accounted t := by
  obtain ⟨_, _, _, _, t₀, calls, init, rfl⟩ := reachable
  exact Runs.run_invariant_all Accounted (fun s c acc => PmmCall.apply_accounted acc c)
    (pmmInit_accounted init)

/-- In every reachable state `used_pages` counts the used pages, so it is at most
`total_pages` and the free count of `pmm_get_stats` is their difference. -/
theorem pmm_accounting {t : State} (reachable : Reachable t) :
    t.usedPages = countUsed t ∧ t.usedPages ≤ t.totalPages ∧
      (pmmGetStats t).freePages = t.totalPages - t.usedPages := by
  have acc := reachable.accounted
  have counted := acc.counted
  have le := countUsed_le t
  have bounded := acc.bounded
  simp only [bitmapSize] at bounded
  refine ⟨acc.counted, acc.counted ▸ le, ?_⟩
  simp only [pmmGetStats, u32]
  omega

/-- The state `pmm_init` leaves with one available region below 4 MiB. -/
theorem pmm_accounting_after_init :
    ∃ t, Reachable t ∧ t.usedPages = countUsed t ∧ t.usedPages ≤ t.totalPages ∧
      (pmmGetStats t).freePages = t.totalPages - t.usedPages := by
  obtain ⟨t, init⟩ : ∃ t, pmmInit 0x200000 0x210000 (fun a => if a = 0x10000 then 20 else if a = 0x10006 then 8
      else if a = 0x1000E then 64 else if a = 0x10014 then 1 else 0) ⟨0x40, 0, 0, 24, 0x10000⟩ boot = some t :=
    ⟨_, rfl⟩
  have reachable : Reachable t := ⟨_, _, _, _, t, [], init, rfl⟩
  exact ⟨t, reachable, pmm_accounting reachable⟩

/-- The page a call gives back: `pmm_free_page` and `pmm_mark_free` name it by address. -/
def PmmCall.releases (page : Nat) : PmmCall → Bool
  | .free ptr | .markFree ptr => ptr % 2^32 / pageSize == page
  | _ => false

/-- A used page stays used under every call that does not give it back. -/
theorem PmmCall.apply_keeps_used {s : State} {page : Nat} (used : bitmapTest s page = true) :
    ∀ c : PmmCall, c.releases page = false → bitmapTest (c.apply s) page = true
  | .alloc, _ => by
    rw [PmmCall.apply]
    cases found : findFree s with
    | none => rwa [pmmAllocPage_of_none found]
    | some taken =>
      rw [(pmmAllocPage_of_findFree found).2.2]
      split <;> simp [used]
  | .markUsed ptr, _ => by
    dsimp only [PmmCall.apply, pmmMarkUsed]
    split <;> simp [used]
  | .free ptr, keep | .markFree ptr, keep => by
    have other : ¬ page = ptr % 2^32 / pageSize := fun eq => by simp [PmmCall.releases, eq] at keep
    dsimp only [PmmCall.apply, pmmMarkFree, pmmFreePage]
    split
    · rw [bitmapTest_mk, bitmapTest_clear, if_neg fun both => other both.1]
      exact used
    · exact used

theorem run_keeps_used {s : State} {page : Nat} {calls : List PmmCall}
    (used : bitmapTest s page = true) (keep : ∀ c ∈ calls, c.releases page = false) :
    bitmapTest (Runs.run PmmCall.apply calls s) page = true :=
  Runs.run_invariant (fun s => bitmapTest s page = true)
    (fun _ c used keep => PmmCall.apply_keeps_used used c keep) used (Runs.admissible_const.mpr keep)

theorem alloc_not_reissued {s : State} {page : Nat} {calls : List PmmCall}
    (found : findFree s = some page) (keep : ∀ c ∈ calls, c.releases page = false) :
    findFree (Runs.run PmmCall.apply calls (pmmAllocPage s).2) ≠ some page := by
  intro again
  have taken : bitmapTest (pmmAllocPage s).2 page = true := by
    rw [(pmmAllocPage_of_findFree found).2.2, if_pos rfl]
  have still := run_keeps_used taken keep
  rw [(findFree_eq_some.mp again).2.1] at still
  exact Bool.false_ne_true still

theorem run_totalPages (calls : List PmmCall) (s : State) :
    (Runs.run PmmCall.apply calls s).totalPages = s.totalPages := by
  induction calls generalizing s with
  | nil => rfl
  | cons c calls ih => rw [Runs.run_cons, ih, PmmCall.apply_totalPages]

/-- Below 2^20 pages (4 GiB) the addresses tell pages apart, so an address is not handed out
again before its page is given back. -/
theorem alloc_address_not_reissued {s : State} {page page' : Nat} {calls : List PmmCall}
    (small : s.totalPages ≤ 2^20) (found : findFree s = some page)
    (keep : ∀ c ∈ calls, c.releases page = false)
    (found' : findFree (Runs.run PmmCall.apply calls (pmmAllocPage s).2) = some page') :
    (pmmAllocPage (Runs.run PmmCall.apply calls (pmmAllocPage s).2)).1 ≠ (pmmAllocPage s).1 := by
  have other : page' ≠ page := fun eq => alloc_not_reissued found keep (eq ▸ found')
  have lt := (findFree_eq_some.mp found).1
  have lt' := (findFree_eq_some.mp found').1
  rw [run_totalPages, pmmAllocPage_totalPages] at lt'
  rw [(pmmAllocPage_of_findFree found').1, (pmmAllocPage_of_findFree found).1]
  simp only [pageSize]
  omega

/-- Page 1 is handed out first; after one more allocation the next address is not page 1's. -/
theorem alloc_address_not_reissued_twice :
    (⟨fun q => q == 0, 16, 1, 0x10000⟩ : State).totalPages ≤ 2^20 ∧ findFree (⟨fun q => q == 0, 16, 1, 0x10000⟩ : State) = some 1 ∧ (∀ c ∈ [PmmCall.alloc], c.releases 1 = false) ∧
      findFree (Runs.run PmmCall.apply [.alloc] (pmmAllocPage (⟨fun q => q == 0, 16, 1, 0x10000⟩ : State)).2) = some 3 ∧
      (pmmAllocPage (Runs.run PmmCall.apply [.alloc] (pmmAllocPage (⟨fun q => q == 0, 16, 1, 0x10000⟩ : State)).2)).1 ≠ (pmmAllocPage (⟨fun q => q == 0, 16, 1, 0x10000⟩ : State)).1 :=
  ⟨by decide, by decide, by decide, by decide,
    @alloc_address_not_reissued _ 1 3 _ (by decide) (by decide) (by decide) (by decide)⟩

/-- A memory map of two available pages, at 1 MiB and at 4 GiB + 1 MiB: after `pmm_init`
their pages `0x100` and `0x100100` are the only free ones, and the first two allocations take
them in turn. -/
theorem wrap_init :
    ∃ t, pmmInit 0x200000 0x300000 (fun a => if a = 0x10000 ∨ a = 0x10018 then 20
        else if a = 0x10006 ∨ a = 0x1000D ∨ a = 0x1001E ∨ a = 0x10025 then 0x10
        else if a = 0x10014 ∨ a = 0x10020 ∨ a = 0x1002C then 1 else 0)
        ⟨0x40, 0, 0, 48, 0x10000⟩ boot = some t ∧
      findFree t = some 0x100 ∧ findFree (pmmAllocPage t).2 = some 0x100100 := by
  have walk : mmapEntries (fun a => if a = 0x10000 ∨ a = 0x10018 then 20
      else if a = 0x10006 ∨ a = 0x1000D ∨ a = 0x1001E ∨ a = 0x10025 then 0x10
      else if a = 0x10014 ∨ a = 0x10020 ∨ a = 0x1002C then 1 else 0) ⟨0x40, 0, 0, 48, 0x10000⟩ =
      some [⟨20, 0x100000, 0x1000, 1⟩, ⟨20, 0x100100000, 0x1000, 1⟩] := by
    decide
  obtain ⟨t, init, total, bits⟩ := @pmmInit_memoryMap 0x200000 0x300000 _ _ _ boot (by decide) walk
  have pages : t.totalPages = 0x100101 := by
    rw [total]
    decide
  -- the two regions free one page each; every other page below the second stays used
  have used : ∀ j, j ≠ 0x100 → j < 0x100100 → bitmapTest t j = true := by
    intro j ne lt
    have noRegion : ¬ ∃ e ∈ [(⟨20, 0x100000, 0x1000, 1⟩ : MmapEntry), ⟨20, 0x100100000, 0x1000, 1⟩],
        Clears t.totalPages e j := by
      rintro ⟨e, member, -, -, lo, hi, -⟩
      simp only [List.mem_cons, List.not_mem_nil, or_false] at member
      rcases member with rfl | rfl <;> simp only [startPage, endPage, pageSize] at lo hi <;> omega
    rw [bits, decide_eq_false noRegion, Bool.not_false, Bool.true_or, Bool.true_or]
  have low : bitmapTest t 0x100 = false := by
    rw [bits, pages]
    decide
  have high : bitmapTest t 0x100100 = false := by
    rw [bits, pages]
    decide
  have first : findFree t = some 0x100 :=
    findFree_eq_some.mpr ⟨by omega, low, fun j lt => used j (by omega) (by omega)⟩
  obtain ⟨-, -, after⟩ := pmmAllocPage_of_findFree first
  have second : findFree (pmmAllocPage t).2 = some 0x100100 := by
    refine findFree_eq_some.mpr ⟨by rw [pmmAllocPage_totalPages]; omega, ?_, fun j lt => ?_⟩
    · rw [after, if_neg (by decide), high]
    · rw [after]
      split
      · rfl
      · exact used j (by assumption) lt
  exact ⟨t, init, first, second⟩

/-- Above 2^20 pages the addresses wrap. With available regions at 1 MiB and at 4 GiB + 1 MiB,
`pmm_init` frees pages `0x100` and `0x100100`, and two allocations in a row both return
`0x100000`. -/
theorem pmm_alloc_page_same_frame_twice :
    ∃ t, pmmInit 0x200000 0x300000 (fun a => if a = 0x10000 ∨ a = 0x10018 then 20
        else if a = 0x10006 ∨ a = 0x1000D ∨ a = 0x1001E ∨ a = 0x10025 then 0x10
        else if a = 0x10014 ∨ a = 0x10020 ∨ a = 0x1002C then 1 else 0)
        ⟨0x40, 0, 0, 48, 0x10000⟩ boot = some t ∧
      findFree t = some 0x100 ∧ findFree (pmmAllocPage t).2 = some 0x100100 ∧
      (pmmAllocPage t).1 = 0x100000 ∧ (pmmAllocPage (pmmAllocPage t).2).1 = 0x100000 := by
  obtain ⟨t, init, first, second⟩ := wrap_init
  refine ⟨t, init, first, second, ?_, ?_⟩
  · rw [(pmmAllocPage_of_findFree first).1]
    rfl
  · rw [(pmmAllocPage_of_findFree second).1]
    rfl

/-- After the first allocation of the same boot, the second claims page `0x100100` but
returns `0x100000`, not `0x100100 * PMM_PAGE_SIZE`; `pmm_free_page` of that address gives back
page `0x100` instead, so the bitmap is not restored: page `0x100100` stays used and page `0x100`,
which the first allocation holds, becomes free. -/
theorem pmm_free_misses_high_page :
    ∃ t, pmmInit 0x200000 0x300000 (fun a => if a = 0x10000 ∨ a = 0x10018 then 20
        else if a = 0x10006 ∨ a = 0x1000D ∨ a = 0x1001E ∨ a = 0x10025 then 0x10
        else if a = 0x10014 ∨ a = 0x10020 ∨ a = 0x1002C then 1 else 0)
        ⟨0x40, 0, 0, 48, 0x10000⟩ boot = some t ∧
      findFree (pmmAllocPage t).2 = some 0x100100 ∧
      (pmmAllocPage (pmmAllocPage t).2).1 = 0x100000 ∧ 0x100000 ≠ 0x100100 * pageSize ∧
      bitmapTest (pmmAllocPage t).2 0x100100 = false ∧
      bitmapTest (pmmFreePage 0x100000 (pmmAllocPage (pmmAllocPage t).2).2) 0x100100 = true ∧
      bitmapTest (pmmAllocPage t).2 0x100 = true ∧
      bitmapTest (pmmFreePage 0x100000 (pmmAllocPage (pmmAllocPage t).2).2) 0x100 = false := by
  obtain ⟨t, init, first, second⟩ := wrap_init
  obtain ⟨-, -, afterFirst⟩ := pmmAllocPage_of_findFree first
  obtain ⟨address, clear, afterSecond⟩ := pmmAllocPage_of_findFree second
  have low : bitmapTest (pmmAllocPage t).2 0x100 = true := by rw [afterFirst, if_pos rfl]
  have lowStill : bitmapTest (pmmAllocPage (pmmAllocPage t).2).2 0x100 = true := by
    rw [afterSecond, if_neg (by decide), low]
  have high : bitmapTest (pmmAllocPage (pmmAllocPage t).2).2 0x100100 = true := by
    rw [afterSecond, if_pos rfl]
  have total : 0x100 < (pmmAllocPage (pmmAllocPage t).2).2.totalPages := by
    have within := (findFree_eq_some.mp second).1
    simp only [pmmAllocPage_totalPages] at within ⊢
    omega
  -- `pmm_free_page(0x100000)` names page `0x100`, which is used, and clears it
  have freed : ∀ q, bitmapTest (pmmFreePage 0x100000 (pmmAllocPage (pmmAllocPage t).2).2) q =
      if q = 0x100 ∧ q / 8 < bitmapSize then false else bitmapTest (pmmAllocPage (pmmAllocPage t).2).2 q := by
    intro q
    have page : 0x100000 % 2^32 / pageSize = 0x100 := by decide
    simp only [pmmFreePage, page, if_pos (And.intro total lowStill), bitmapTest_mk, bitmapTest_clear]
  refine ⟨t, init, second, by rw [address]; rfl, by decide, clear, ?_, low, ?_⟩
  · rw [freed, if_neg (by decide), high]
  · rw [freed, if_pos ⟨rfl, by decide⟩]

/-! ### `pmm_get_stats` -/

/-- A machine whose memory map reports the memory from 1 MiB to 4 GiB as available:
`pmm_init` counts `2^20` pages, and `pmm_get_stats` reports a total of 0 KiB, because
`total_pages * PMM_PAGE_SIZE` is `2^32` and is computed in `uint32_t`. -/
theorem pmm_get_stats_four_gib_reports_zero :
    ∃ t, pmmInit 0x100000 0x200000 (fun a => if a = 0x10000 then 20 else if a = 0x10006 then 0x10
        else if a = 0x1000E then 0xF0 else if a = 0x1000F then 0xFF else if a = 0x10014 then 1 else 0)
        ⟨0x40, 0, 0, 24, 0x10000⟩ boot = some t ∧
      (pmmGetStats t).totalPages = 2^20 ∧ (pmmGetStats t).totalMemoryKb = 0 ∧
      4 * (pmmGetStats t).totalPages = 4194304 := by
  have walk : mmapEntries (fun a => if a = 0x10000 then 20 else if a = 0x10006 then 0x10
      else if a = 0x1000E then 0xF0 else if a = 0x1000F then 0xFF else if a = 0x10014 then 1 else 0)
      ⟨0x40, 0, 0, 24, 0x10000⟩ = some [⟨20, 0x100000, 0xFFF00000, memoryAvailable⟩] := by
    decide
  obtain ⟨t, init, total, -⟩ := @pmmInit_memoryMap 0x100000 0x200000 _ _ _ boot (by decide) walk
  have pages : t.totalPages = 2^20 := by
    rw [total]
    decide
  refine ⟨t, init, pages, ?_, ?_⟩
  · simp only [pmmGetStats, pages, pageSize]
    norm_num
  · simp only [pmmGetStats, pages]
    norm_num

end OpenOS.Pmm

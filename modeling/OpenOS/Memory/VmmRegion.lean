import Mathlib
import OpenOS.Memory.VmmTeardown
import OpenOS.Memory.PmmInit
import OpenOS.Memory.PmmAlloc

/-! The region maps of `memory/vmm.c` and the identity map `vmm_init` makes with one. Both
loops run a cursor from the aligned start up to an end that is rounded up in 32-bit
arithmetic, so a region that ends in the last page of the address space rounds its end to `0`
and maps nothing. `vmm_init` caps its identity map at 64 MiB: on a machine with more RAM, the
frames the PMM hands out above the cap stay unmapped. -/
namespace OpenOS.Vmm

open Pmm (bitmapTest pmmAllocPage findFree)

section Loop

variable {s : State} {d : Nat}

/-- The map loop of both region functions keeps every translation whose page it does not
visit. -/
theorem foldl_map_physical (virt phys : Nat → Nat) (flags : Nat) (pages : List Nat)
    (ok : DirectoryOk s d) (ex : Exclusive s.pmm) {w : Nat}
    (apart : ∀ a ∈ pages, ¬ samePage w (virt a)) :
    vmmGetPhysical d w (pages.foldl (fun s a => (vmmMapPage d (virt a) (phys a) flags s).2) s) =
      vmmGetPhysical d w s := by
  induction pages generalizing s with
  | nil => rfl
  | cons a pages ih =>
    have rest : ∀ b ∈ pages, ¬ samePage w (virt b) := fun b mem => apart b (List.mem_cons_of_mem a mem)
    rw [List.foldl_cons]
    -- a failed map changes nothing; a successful one changes the page of `virt a` only
    rcases vmmMapPage_spec ok ex (v := virt a) (phys a) flags with
      unchanged | ⟨-, okAfter, exAfter, translation⟩
    · rw [unchanged]
      exact ih ok ex rest
    · rw [ih okAfter exAfter rest, translation, if_neg (apart a List.mem_cons_self)]

theorem regionEnd_le (start size : Nat) :
    (start % 2^32 + size + pageSize - 1) % 2^32 &&& 0xFFFFF000 ≤
      (start % 2^32 + size + pageSize - 1) / pageSize * pageSize := by
  rw [and_frameMask, Nat.mod_mod]
  simp only [pageSize]
  omega

theorem regionEnd_top {start size : Nat} (lt : start < 2^32) (top : 2^32 - pageSize < start + size)
    (fits : start + size ≤ 2^32) : (start % 2^32 + size + pageSize - 1) % 2^32 &&& 0xFFFFF000 = 0 := by
  rw [and_frameMask, Nat.mod_mod, Nat.mod_eq_of_lt lt]
  simp only [pageSize] at *
  omega

theorem pageAlign_eq (addr : Nat) : pageAlign addr = addr % 2^32 / pageSize * pageSize := by
  rw [pageAlign, and_frameMask, Nat.mod_mod]
  rfl

theorem vmmIdentityMapRegion_ok (ok : DirectoryOk s d) (ex : Exclusive s.pmm) (start size flags : Nat) :
    DirectoryOk (vmmIdentityMapRegion d start size flags s) d ∧
      Exclusive (vmmIdentityMapRegion d start size flags s).pmm ∧
      (vmmIdentityMapRegion d start size flags s).kernelDirectory = s.kernelDirectory := by
  simp only [vmmIdentityMapRegion, resolve, if_neg ok.nonzero]
  exact foldl_map_ok (fun a => a) (fun a => a) flags _ ok ex

theorem vmmIdentityMapRegion_frame (ok : DirectoryOk s d) (ex : Exclusive s.pmm) {start size flags w : Nat}
    (wlt : w < 2^32)
    (outside : w < pageAlign start ∨ (start % 2^32 + size + pageSize - 1) / pageSize * pageSize ≤ w) :
    vmmGetPhysical d w (vmmIdentityMapRegion d start size flags s) = vmmGetPhysical d w s := by
  have stop := regionEnd_le start size
  have top := and_frameMask ((start % 2^32 + size + pageSize - 1) % 2^32)
  have first := pageAlign_eq start
  simp only [vmmIdentityMapRegion, resolve, if_neg ok.nonzero]
  refine foldl_map_physical (fun a => a) (fun a => a) flags _ ok ex (fun a mem same => ?_)
  -- the visited pages run from the aligned start to the rounded end, below 2^32
  obtain ⟨i, lt, rfl⟩ := List.mem_range'.mp mem
  unfold samePage at same
  simp only [pageSize] at *
  omega

theorem vmmIdentityMapRegion_top {start size : Nat} (lt : start < 2^32)
    (top : 2^32 - pageSize < start + size) (fits : start + size ≤ 2^32) (dir flags : Nat) :
    vmmIdentityMapRegion dir start size flags s = s := by
  simp only [vmmIdentityMapRegion, regionEnd_top lt top fits, Nat.zero_sub, Nat.zero_div,
    List.range'_zero, List.foldl_nil]

theorem vmmMapRegion_top {virt size : Nat} (lt : virt < 2^32)
    (top : 2^32 - pageSize < virt + size) (fits : virt + size ≤ 2^32) (dir phys flags : Nat) :
    vmmMapRegion dir virt phys size flags s = s := by
  simp only [vmmMapRegion, regionEnd_top lt top fits, Nat.zero_sub, Nat.zero_div, List.range_zero,
    List.foldl_nil]

end Loop

section Wrap

/-- On the fresh directory `0x1000`, the region of the last page, `[0xFFFFF000, 2^32)`, is
mapped by neither region function, though `vmm_map_page` maps that page: the rounded end is
`0`, so the loops do not run and the page keeps no translation. -/
theorem vmm_region_top_maps_nothing :
    vmmIdentityMapRegion 0x1000 0xFFFFF000 0x1000 3
        (vmmCreateDirectory (boot (fun _ => 0) ⟨(fun q => q == 0), 16, 1, 0x10000⟩)).2 =
      (vmmCreateDirectory (boot (fun _ => 0) ⟨(fun q => q == 0), 16, 1, 0x10000⟩)).2 ∧
    vmmMapRegion 0x1000 0xFFFFF000 0xFFFFF000 0x1000 3
        (vmmCreateDirectory (boot (fun _ => 0) ⟨(fun q => q == 0), 16, 1, 0x10000⟩)).2 =
      (vmmCreateDirectory (boot (fun _ => 0) ⟨(fun q => q == 0), 16, 1, 0x10000⟩)).2 ∧
    vmmGetPhysical 0x1000 0xFFFFF000
        (vmmCreateDirectory (boot (fun _ => 0) ⟨(fun q => q == 0), 16, 1, 0x10000⟩)).2 = 0 ∧
    (vmmMapPage 0x1000 0xFFFFF000 0xFFFFF000 3
        (vmmCreateDirectory (boot (fun _ => 0) ⟨(fun q => q == 0), 16, 1, 0x10000⟩)).2).1 = 1 ∧
    vmmGetPhysical 0x1000 0xFFFFF000 (vmmMapPage 0x1000 0xFFFFF000 0xFFFFF000 3
        (vmmCreateDirectory (boot (fun _ => 0) ⟨(fun q => q == 0), 16, 1, 0x10000⟩)).2).2 = 0xFFFFF000 := by
  have made : (allocDirectory (boot (fun _ => 0) ⟨(fun q => q == 0), 16, 1, 0x10000⟩).pmm).1 = 0x1000 := by
    decide
  have created : (vmmCreateDirectory (boot (fun _ => 0) ⟨(fun q => q == 0), 16, 1, 0x10000⟩)).1 ≠ 0 := by
    rw [vmmCreateDirectory_fst, made]
    decide
  obtain ⟨ok, ex⟩ := vmmCreateDirectory_ok ⟨by decide, by decide⟩ created
  rw [vmmCreateDirectory_fst, made] at ok
  have empty : (vmmCreateDirectory (boot (fun _ => 0) ⟨(fun q => q == 0), 16, 1, 0x10000⟩)).2.mem
      (dirTable 0x1000 (pdIndex 0xFFFFF000)) = 0 := by
    rw [vmmCreateDirectory_mem (by rw [made]; decide), made]
    exact clearDirectory_table _ _ (pdIndex_lt _)
  -- a table frame is free, so the single map goes through
  have frame : (pmmAllocPage (vmmCreateDirectory (boot (fun _ => 0)
      ⟨(fun q => q == 0), 16, 1, 0x10000⟩)).2.pmm).1 ≠ 0 := by
    rw [vmmCreateDirectory_pmm]
    decide
  refine ⟨vmmIdentityMapRegion_top (by decide) (by decide) (by decide) _ _,
    vmmMapRegion_top (by decide) (by decide) (by decide) _ _ _,
    vmmGetPhysical_of_absent (by decide) empty, ?_, ?_⟩
  · rw [vmmMapPage_fresh (by decide) _ _ empty frame]
  · rcases vmmMapPage_spec ok ex (v := 0xFFFFF000) 0xFFFFF000 3 with unchanged | ⟨-, -, -, translation⟩
    · rw [vmmMapPage_fresh (by decide) _ _ empty frame] at unchanged
      exact absurd (congrArg Prod.fst unchanged) (by decide)
    · rw [translation, if_pos (show samePage 0xFFFFF000 0xFFFFF000 from rfl)]
      decide

end Wrap

section Init

variable {s : State} {pmm : Pmm.State}

theorem vmmGetPhysical_current {d : Nat} (nonzero : d ≠ 0) (w c : Nat) :
    vmmGetPhysical d w { s with currentDirectory := c } = vmmGetPhysical d w s :=
  vmmGetPhysical_congr nonzero rfl (fun _ => rfl)

theorem vmmInit_kernelDirectory (ex : Exclusive s.pmm) (kernel : s.kernelDirectory = 0) :
    (vmmInit s).kernelDirectory = (allocDirectory s.pmm).1 := by
  unfold vmmInit
  by_cases got : (allocDirectory s.pmm).1 = 0
  · rw [if_pos got, got]
    exact kernel
  · rw [if_neg got]
    simp only [vmmSwitchDirectory, if_neg got]
    exact (vmmIdentityMapRegion_ok (vmmInit_start_ok ex got) (allocDirectory_keeps ex).1 _ _ _).2.2

theorem vmmInit_unmapped_above_cap (ex : Exclusive s.pmm) (got : (allocDirectory s.pmm).1 ≠ 0)
    {w : Nat} (above : 0x4000000 ≤ w) (wlt : w < 2^32) :
    vmmGetPhysical (allocDirectory s.pmm).1 w (vmmInit s) = 0 := by
  unfold vmmInit
  rw [if_neg got]
  simp only [vmmSwitchDirectory, if_neg got]
  rw [vmmGetPhysical_current got,
    vmmIdentityMapRegion_frame (vmmInit_start_ok ex got) (allocDirectory_keeps ex).1 wlt (Or.inr ?_)]
  · refine vmmGetPhysical_of_absent got ?_
    dsimp only
    exact clearDirectory_table _ _ (pdIndex_lt w)
  · -- the end is clamped into [4 MiB, 64 MiB]
    split_ifs <;> simp only [pageSize] <;> omega

/-- The directory's frames are the first free page and the next one when both are free and
in order. -/
theorem allocDirectory_of_pair {p : Nat} (first : findFree pmm = some p)
    (second : findFree (pmmAllocPage pmm).2 = some (p + 1)) (nonzero : p ≠ 0)
    (small : (p + 2) * pageSize ≤ 2^32) : (allocDirectory pmm).1 = p * pageSize := by
  have one : (pmmAllocPage pmm).1 = p * pageSize := by
    rw [(Pmm.pmmAllocPage_of_findFree first).1]
    simp only [Pmm.pageSize, pageSize] at *
    omega
  have two : (pmmAllocPage (pmmAllocPage pmm).2).1 = p * pageSize + pageSize := by
    rw [(Pmm.pmmAllocPage_of_findFree second).1]
    simp only [Pmm.pageSize, pageSize] at *
    omega
  have next : (p * pageSize + pageSize) % 2^32 = p * pageSize + pageSize := by
    simp only [pageSize] at *
    omega
  unfold allocDirectory
  rw [if_neg (by rw [one]; simp only [pageSize]; omega), one, next]
  simp [dirPages_eq, claimContiguous, two]

/-- A machine with 128 MiB of RAM, one available region `[1 MiB, 128 MiB)` and the kernel at
`[1 MiB, 2 MiB)`: `pmm_init` counts `0x8000` pages and leaves page `0x4000` (64 MiB) free, and
`vmm_init` builds its directory at `0x200000` but identity-maps only up to the cap, so
`vmm_get_physical` of that page's address is `0`. -/
theorem vmm_init_leaves_high_frames_unmapped :
    ∃ t, Pmm.pmmInit 0x100000 0x200000 (fun a => if a = 0x10000 then 20 else if a = 0x10006 then 0x10
        else if a = 0x1000E then 0xF0 else if a = 0x1000F then 7 else if a = 0x10014 then 1 else 0)
        ⟨0x40, 0, 0, 24, 0x10000⟩ Pmm.boot = some t ∧
      0x4000 < t.totalPages ∧ bitmapTest t 0x4000 = false ∧
      (vmmInit (boot (fun _ => 0) t)).kernelDirectory = 0x200000 ∧
      vmmGetPhysical 0x200000 (0x4000 * Pmm.pageSize) (vmmInit (boot (fun _ => 0) t)) = 0 := by
  have walk : Pmm.mmapEntries (fun a => if a = 0x10000 then 20 else if a = 0x10006 then 0x10
      else if a = 0x1000E then 0xF0 else if a = 0x1000F then 7 else if a = 0x10014 then 1 else 0)
      ⟨0x40, 0, 0, 24, 0x10000⟩ = some [⟨20, 0x100000, 0x7F00000, 1⟩] := by
    decide
  obtain ⟨t, init, total, bits⟩ := @Pmm.pmmInit_memoryMap 0x100000 0x200000 _ _ _ Pmm.boot (by decide) walk
  have pages : t.totalPages = 0x8000 := by
    rw [total]
    decide
  -- below page `0x100` no region frees a page; from there to `0x200` the kernel holds them
  have used : ∀ j < 0x200, bitmapTest t j = true := by
    intro j lt
    rw [bits, pages]
    by_cases low : j < 0x100
    · have noRegion : ¬ ∃ e ∈ [(⟨20, 0x100000, 0x7F00000, 1⟩ : Pmm.MmapEntry)], Pmm.Clears 0x8000 e j := by
        rintro ⟨e, member, -, -, lo, -, -⟩
        simp only [List.mem_cons, List.not_mem_nil, or_false] at member
        subst member
        simp only [Pmm.startPage, Pmm.pageSize] at lo
        omega
      rw [decide_eq_false noRegion]
      rfl
    · have kernel : 0x100000 < 0x200000 ∧ 0x100000 / Pmm.pageSize % 2^32 ≤ j ∧
          j < min ((0x200000 + Pmm.pageSize - 1) % 2^64 / Pmm.pageSize % 2^32) 0x8000 := by
        simp only [Pmm.pageSize]
        omega
      rw [decide_eq_true kernel, Bool.or_true]
  have free : ∀ j, 0x200 ≤ j → j < 0x8000 → bitmapTest t j = false := by
    intro j lo hi
    have clears : ∃ e ∈ [(⟨20, 0x100000, 0x7F00000, 1⟩ : Pmm.MmapEntry)], Pmm.Clears 0x8000 e j := by
      refine ⟨_, List.mem_singleton_self _, rfl, by decide, ?_, ?_, ?_⟩ <;>
        simp only [Pmm.startPage, Pmm.endPage, Pmm.pageSize, Pmm.bitmapSize] <;> omega
    have notFirst : ¬ j < min 1 0x8000 := by omega
    have notKernel : ¬ (0x100000 < 0x200000 ∧ 0x100000 / Pmm.pageSize % 2^32 ≤ j ∧
        j < min ((0x200000 + Pmm.pageSize - 1) % 2^64 / Pmm.pageSize % 2^32) 0x8000) := by
      simp only [Pmm.pageSize]
      omega
    rw [bits, pages, decide_eq_true clears, decide_eq_false notFirst, decide_eq_false notKernel]
    rfl
  have first : findFree t = some 0x200 :=
    Pmm.findFree_eq_some.mpr ⟨by omega, free _ (by omega) (by omega), used⟩
  obtain ⟨-, -, after⟩ := Pmm.pmmAllocPage_of_findFree first
  have second : findFree (pmmAllocPage t).2 = some 0x201 := by
    refine Pmm.findFree_eq_some.mpr ⟨by rw [Pmm.pmmAllocPage_totalPages]; omega, ?_, fun j lt => ?_⟩
    · rw [after, if_neg (by decide), free _ (by omega) (by omega)]
    · rw [after]
      split
      · rfl
      · exact used j (by omega)
  have ex : Exclusive t := pmmInit_exclusive init (by rw [pages]; decide)
  have made : (allocDirectory (boot (fun _ => 0) t).pmm).1 = 0x200000 :=
    allocDirectory_of_pair first second (by decide) (by decide)
  refine ⟨t, init, by omega, free _ (by omega) (by omega), ?_, ?_⟩
  · rw [vmmInit_kernelDirectory (s := boot (fun _ => 0) t) ex rfl, made]
  · rw [← made]
    exact vmmInit_unmapped_above_cap (s := boot (fun _ => 0) t) ex (by rw [made]; decide) (by decide) (by decide)

end Init

end OpenOS.Vmm

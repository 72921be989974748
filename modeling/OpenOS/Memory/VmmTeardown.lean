import Mathlib
import OpenOS.Memory.VmmMap

/-! What a page directory costs the PMM. `vmm_create_directory` claims `dir_pages = 2`
contiguous frames, but `vmm_destroy_directory` gives back the page tables and the first frame
only, so the second frame stays used after the directory is gone. When the second claim
breaks the run, the create returns `NULL` and keeps both frames it took: the source does not
roll back. -/
namespace OpenOS.Vmm

open Pmm (bitmapTest pmmAllocPage pmmFreePage findFree)

variable {pmm : Pmm.State} {s : State}

theorem pmmAllocPage_lt (pmm : Pmm.State) : (pmmAllocPage pmm).1 < 2^32 := by
  cases found : findFree pmm with
  | none =>
    rw [Pmm.pmmAllocPage_of_none found]
    exact Nat.two_pow_pos 32
  | some page =>
    obtain ⟨address, -, -⟩ := Pmm.pmmAllocPage_of_findFree found
    rw [address]
    exact Nat.mod_lt _ (Nat.two_pow_pos 32)

theorem allocDirectory_lt (pmm : Pmm.State) : (allocDirectory pmm).1 < 2^32 := by
  dsimp only [allocDirectory]
  split
  · exact Nat.two_pow_pos 32
  · split
    · exact pmmAllocPage_lt pmm
    · exact Nat.two_pow_pos 32

/-- The second frame of a directory that `allocDirectory` returns was free before the call:
the contiguity loop found it free right after the first claim, which set another page. -/
theorem allocDirectory_second_free (ex : Exclusive pmm) (got : (allocDirectory pmm).1 ≠ 0) :
    bitmapTest pmm ((allocDirectory pmm).1 / pageSize + 1) = false := by
  obtain ⟨first, same, claimed, -⟩ := allocDirectory_of_ne_zero ex got
  rw [same]
  have fresh := ex.fresh_alloc first
  -- the one step of the loop took the page after the first
  have hit : (pmmAllocPage (pmmAllocPage pmm).2).1 = (pmmAllocPage pmm).1 + pageSize := by
    by_contra miss
    simp [dirPages_eq, claimContiguous, miss] at claimed
  have second := (ex.alloc.fresh_alloc (by rw [hit]; simp [pageSize])).free
  rw [hit] at second
  have shift : ((pmmAllocPage pmm).1 + pageSize) / pageSize = (pmmAllocPage pmm).1 / pageSize + 1 := by
    have aligned := fresh.aligned
    simp only [pageSize] at aligned ⊢
    omega
  rw [shift] at second
  -- a page used before the first claim would still be used after it
  cases before : bitmapTest pmm ((pmmAllocPage pmm).1 / pageSize + 1)
  · rfl
  · rw [alloc_keeps_used before] at second
    exact Bool.noConfusion second

theorem vmmCreateDirectory_fst (s : State) : (vmmCreateDirectory s).1 = (allocDirectory s.pmm).1 := by
  unfold vmmCreateDirectory
  by_cases null : (allocDirectory s.pmm).1 = 0
  · rw [if_pos null]
    exact null.symm
  · rw [if_neg null]

theorem vmmCreateDirectory_pmm (s : State) : (vmmCreateDirectory s).2.pmm = (allocDirectory s.pmm).2 := by
  unfold vmmCreateDirectory
  by_cases null : (allocDirectory s.pmm).1 = 0
  · rw [if_pos null]
  · rw [if_neg null]

theorem vmmCreateDirectory_mem {s : State} (created : (allocDirectory s.pmm).1 ≠ 0) :
    (vmmCreateDirectory s).2.mem = clearDirectory s.mem (allocDirectory s.pmm).1 := by
  unfold vmmCreateDirectory
  rw [if_neg created]

theorem vmmDestroyDirectory_pmm_of_empty {d : Nat} (nonzero : d ≠ 0)
    (empty : ∀ i < pageDirEntries, s.mem (dirTable d i) = 0) :
    (vmmDestroyDirectory d s).pmm = pmmFreePage d s.pmm := by
  unfold vmmDestroyDirectory
  rw [if_neg nonzero]
  dsimp only
  -- no slot holds a table, so the loop over the slots frees nothing
  refine congrArg (pmmFreePage d) ?_
  exact Runs.foldl_invariant (fun p => p = s.pmm)
    (fun p i mem same => by rw [if_neg (not_not.mpr (empty i (List.mem_range.mp mem)))]; exact same) rfl

/-- Creating a directory and destroying it at once leaves its second frame used, while it was
free before the create. -/
theorem destroy_keeps_second_frame (ex : Exclusive s.pmm) (created : (vmmCreateDirectory s).1 ≠ 0) :
    bitmapTest s.pmm ((vmmCreateDirectory s).1 / pageSize + 1) = false ∧
      bitmapTest (vmmDestroyDirectory (vmmCreateDirectory s).1 (vmmCreateDirectory s).2).pmm
        ((vmmCreateDirectory s).1 / pageSize + 1) = true := by
  rw [vmmCreateDirectory_fst] at created ⊢
  obtain ⟨-, used⟩ := allocDirectory_frames ex created
  have empty : ∀ i < pageDirEntries,
      (vmmCreateDirectory s).2.mem (dirTable (allocDirectory s.pmm).1 i) = 0 := by
    intro i lt
    rw [vmmCreateDirectory_mem created]
    exact clearDirectory_table _ _ lt
  have below := allocDirectory_lt s.pmm
  refine ⟨allocDirectory_second_free ex created, ?_⟩
  rw [vmmDestroyDirectory_pmm_of_empty created empty, vmmCreateDirectory_pmm]
  -- the free names the first frame, which is not the second
  refine Pmm.PmmCall.apply_keeps_used (used 1 (by decide)) (.free (allocDirectory s.pmm).1) ?_
  simp only [Pmm.PmmCall.releases, beq_eq_false_iff_ne, Nat.mod_eq_of_lt below, Pmm.pageSize, pageSize]
  omega

theorem destroy_keeps_second_frame_fresh :
    Exclusive (boot (fun _ => 0) ⟨(fun q => q == 0), 16, 1, 0x10000⟩).pmm ∧ (vmmCreateDirectory (boot (fun _ => 0) ⟨(fun q => q == 0), 16, 1, 0x10000⟩)).1 ≠ 0 ∧
      bitmapTest (boot (fun _ => 0) ⟨(fun q => q == 0), 16, 1, 0x10000⟩).pmm ((vmmCreateDirectory (boot (fun _ => 0) ⟨(fun q => q == 0), 16, 1, 0x10000⟩)).1 / pageSize + 1) = false ∧
      bitmapTest (vmmDestroyDirectory (vmmCreateDirectory (boot (fun _ => 0) ⟨(fun q => q == 0), 16, 1, 0x10000⟩)).1 (vmmCreateDirectory (boot (fun _ => 0) ⟨(fun q => q == 0), 16, 1, 0x10000⟩)).2).pmm
        ((vmmCreateDirectory (boot (fun _ => 0) ⟨(fun q => q == 0), 16, 1, 0x10000⟩)).1 / pageSize + 1) = true := by
  have ex : Exclusive (boot (fun _ => 0) ⟨(fun q => q == 0), 16, 1, 0x10000⟩).pmm := ⟨by decide, by decide⟩
  have created : (vmmCreateDirectory (boot (fun _ => 0) ⟨(fun q => q == 0), 16, 1, 0x10000⟩)).1 ≠ 0 := by decide
  exact ⟨ex, created, destroy_keeps_second_frame ex created⟩

/-- On a PMM of 16 pages with page 0 used, `vmm_create_directory` takes pages 1 and 2 and returns
`0x1000`; `vmm_destroy_directory(0x1000)` gives back page 1 only, so page 2 stays used and
`used_pages` is 2, not 1. With page 2 used as well, the create takes page 1, gets page 3 for
the second frame, returns `NULL`, and keeps both pages: `used_pages` goes from 2 to 4. -/
theorem vmm_destroy_leaks_directory_frame :
    (vmmCreateDirectory (boot (fun _ => 0) ⟨(fun q => q == 0), 16, 1, 0x10000⟩)).1 = 0x1000 ∧
      bitmapTest ⟨(fun q => q == 0), 16, 1, 0x10000⟩ 2 = false ∧
      bitmapTest (vmmDestroyDirectory 0x1000
        (vmmCreateDirectory (boot (fun _ => 0) ⟨(fun q => q == 0), 16, 1, 0x10000⟩)).2).pmm 2 = true ∧
      (vmmDestroyDirectory 0x1000
        (vmmCreateDirectory (boot (fun _ => 0) ⟨(fun q => q == 0), 16, 1, 0x10000⟩)).2).pmm.usedPages = 2 ∧
      (vmmCreateDirectory (boot (fun _ => 0) ⟨(fun q => q == 0 || q == 2), 16, 2, 0x10000⟩)).1 = 0 ∧
      (vmmCreateDirectory (boot (fun _ => 0) ⟨(fun q => q == 0 || q == 2), 16, 2, 0x10000⟩)).2.pmm.usedPages = 4 := by
  have made : (vmmCreateDirectory (boot (fun _ => 0) ⟨(fun q => q == 0), 16, 1, 0x10000⟩)).1 = 0x1000 := by
    rw [vmmCreateDirectory_fst]
    decide
  have empty : ∀ i < pageDirEntries, (vmmCreateDirectory (boot (fun _ => 0)
      ⟨(fun q => q == 0), 16, 1, 0x10000⟩)).2.mem (dirTable 0x1000 i) = 0 := by
    intro i lt
    have created : (allocDirectory (boot (fun _ => 0) ⟨(fun q => q == 0), 16, 1, 0x10000⟩).pmm).1 ≠ 0 := by
      rw [← vmmCreateDirectory_fst, made]
      decide
    rw [vmmCreateDirectory_mem created, ← vmmCreateDirectory_fst, made]
    exact clearDirectory_table _ _ lt
  have destroyed := vmmDestroyDirectory_pmm_of_empty (by decide) empty
  rw [vmmCreateDirectory_pmm] at destroyed
  refine ⟨made, by decide, ?_, ?_, by rw [vmmCreateDirectory_fst]; decide, by rw [vmmCreateDirectory_pmm]; decide⟩
  · rw [destroyed]
    decide
  · rw [destroyed]
    decide

end OpenOS.Vmm

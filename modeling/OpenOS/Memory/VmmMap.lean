import OpenOS.Memory.Vmm
import OpenOS.Memory.PmmAlloc

/-! A page directory as a partial map from virtual pages to frames. The invariant
`DirectoryOk` says where a directory's words live and that every frame it owns is used in
the PMM bitmap; a frame fresh from `pmm_alloc_page` is therefore apart from all of them, and
`vmm_map_page` and `vmm_unmap_page` change the translation of their own page only. -/
namespace OpenOS.Vmm

open Pmm (bitmapTest pmmAllocPage findFree)

section Memory

@[simp] theorem write_same (mem : Nat → Nat) (a v : Nat) : write mem a v a = v := by
  simp [write]

theorem write_other (mem : Nat → Nat) {a b : Nat} (v : Nat) (ne : b ≠ a) : write mem a v b = mem b := by
  simp [write, ne]

/-- A loop of zero stores, as both clearing loops of the source are. -/
theorem foldl_write_zero (f : Nat → Nat) (n : Nat) (mem : Nat → Nat) (a : Nat) :
    (List.range n).foldl (fun mem i => write mem (f i) 0) mem a =
      if ∃ i < n, f i = a then 0 else mem a := by
  induction n with
  | zero => simp
  | succ n ih =>
    rw [List.range_succ, List.foldl_append, List.foldl_cons, List.foldl_nil]
    by_cases last : f n = a
    · subst last
      rw [write_same, if_pos ⟨n, Nat.lt_succ_self n, rfl⟩]
    · rw [write_other _ _ (Ne.symm last), ih]
      have sameHit : (∃ i < n, f i = a) ↔ ∃ i < n + 1, f i = a := by
        constructor
        · rintro ⟨i, lt, eq⟩
          exact ⟨i, by omega, eq⟩
        · rintro ⟨i, lt, eq⟩
          refine ⟨i, ?_, eq⟩
          by_cases top : i = n
          · subst top; exact absurd eq last
          · omega
      simp only [sameHit]

theorem clearTable_apply (mem : Nat → Nat) (pt a : Nat) :
    clearTable mem pt a = if ∃ i < pageTableEntries, tableEntry pt i = a then 0 else mem a :=
  foldl_write_zero _ _ _ _

end Memory

section Frames

/-! Every address the code writes lies in one 4 KiB frame; distinct frames keep writes apart. -/

variable {d t : Nat}

theorem frame_dirEntry (aligned : d % pageSize = 0) {i : Nat} (lt : i < pageDirEntries) :
    dirEntry d i / pageSize = d / pageSize := by
  simp only [dirEntry, pageSize, pageDirEntries] at *
  omega

theorem frame_dirTable (aligned : d % pageSize = 0) {i : Nat} (lt : i < pageDirEntries) :
    dirTable d i / pageSize = d / pageSize + 1 := by
  simp only [dirTable, pageSize, pageDirEntries] at *
  omega

theorem frame_tableEntry (aligned : t % pageSize = 0) {i : Nat} (lt : i < pageTableEntries) :
    tableEntry t i / pageSize = t / pageSize := by
  simp only [tableEntry, pageSize, pageTableEntries] at *
  omega

theorem ne_of_frame_ne {a b : Nat} (frames : a / pageSize ≠ b / pageSize) : a ≠ b :=
  fun eq => frames (congrArg (· / pageSize) eq)

theorem clearTable_of_frame (mem : Nat → Nat) (aligned : t % pageSize = 0) {a : Nat}
    (apart : a / pageSize ≠ t / pageSize) : clearTable mem t a = mem a := by
  rw [clearTable_apply, if_neg]
  rintro ⟨i, lt, rfl⟩
  exact apart (frame_tableEntry aligned lt)

theorem clearTable_entry (mem : Nat → Nat) (t : Nat) {i : Nat} (lt : i < pageTableEntries) :
    clearTable mem t (tableEntry t i) = 0 := by
  rw [clearTable_apply, if_pos ⟨i, lt, rfl⟩]

theorem tableEntry_injective {i j : Nat} (ne : i ≠ j) : tableEntry t i ≠ tableEntry t j := by
  unfold tableEntry
  omega

theorem dirTable_injective {i j : Nat} (ne : i ≠ j) : dirTable d i ≠ dirTable d j := by
  unfold dirTable
  omega

end Frames

section Indices

/-- Two addresses on one 4 KiB page, as the 32-bit pointer casts see them. -/
def samePage (w v : Nat) : Prop := w % 2^32 / pageSize = v % 2^32 / pageSize

instance (w v : Nat) : Decidable (samePage w v) := by unfold samePage; infer_instance

theorem pdIndex_lt (addr : Nat) : pdIndex addr < pageDirEntries := by
  rw [pdIndex_eq]
  exact Nat.mod_lt _ (by decide)

theorem ptIndex_lt (addr : Nat) : ptIndex addr < pageTableEntries := by
  rw [ptIndex_eq]
  exact Nat.mod_lt _ (by decide)

theorem samePage_iff (w v : Nat) : samePage w v ↔ pdIndex w = pdIndex v ∧ ptIndex w = ptIndex v := by
  rw [samePage, pdIndex_eq, ptIndex_eq, pdIndex_eq, ptIndex_eq, pageSize]
  omega

theorem offset_cast (w : Nat) : w % 2^32 &&& 0xFFF = w &&& 0xFFF := by
  rw [and_offsetMask, and_offsetMask]
  omega

end Indices

section Calls

variable {s : State} {d v : Nat}

theorem vmmGetPhysical_eq (nonzero : d ≠ 0) (w : Nat) :
    vmmGetPhysical d w s =
      if s.mem (dirTable d (pdIndex w)) = 0 then 0
      else if s.mem (tableEntry (s.mem (dirTable d (pdIndex w))) (ptIndex w)) &&& ptePresent = 0 then 0
      else s.mem (tableEntry (s.mem (dirTable d (pdIndex w))) (ptIndex w)) &&& 0xFFFFF000 |||
        w % 2^32 &&& 0xFFF := by
  unfold vmmGetPhysical resolve getPageTable
  by_cases zero : s.mem (dirTable d (pdIndex w)) = 0 <;> simp [nonzero, zero]

theorem vmmGetPhysical_congr {s' : State} (nonzero : d ≠ 0) {w : Nat}
    (slot : s'.mem (dirTable d (pdIndex w)) = s.mem (dirTable d (pdIndex w)))
    (entry : s.mem (dirTable d (pdIndex w)) ≠ 0 →
      s'.mem (tableEntry (s.mem (dirTable d (pdIndex w))) (ptIndex w)) =
        s.mem (tableEntry (s.mem (dirTable d (pdIndex w))) (ptIndex w))) :
    vmmGetPhysical d w s' = vmmGetPhysical d w s := by
  rw [vmmGetPhysical_eq nonzero, vmmGetPhysical_eq nonzero, slot]
  by_cases zero : s.mem (dirTable d (pdIndex w)) = 0
  · simp [zero]
  · rw [entry zero]

/-- The entry `vmm_map_page` stores. -/
def pteOf (phys flags : Nat) : Nat := phys &&& 0xFFFFF000 ||| flags &&& 0xFFF

theorem vmmMapPage_existing (nonzero : d ≠ 0) (p f : Nat) (present : s.mem (dirTable d (pdIndex v)) ≠ 0) :
    vmmMapPage d v p f s =
      (1, { s with mem := write s.mem (tableEntry (s.mem (dirTable d (pdIndex v))) (ptIndex v)) (pteOf p f) }) := by
  unfold vmmMapPage resolve getPageTable
  simp [nonzero, present, pteOf]

/-- The memory after `get_page_table` installs the fresh table `phys` for `v`. -/
def installTable (mem : Nat → Nat) (d v phys : Nat) : Nat → Nat :=
  write (write (clearTable mem phys) (dirTable d (pdIndex v)) phys) (dirEntry d (pdIndex v))
    (phys &&& 0xFFFFF000 ||| ptePresent ||| pteWritable ||| pteUser)

/-- The state `get_page_table` returns after creating the table of `v`. -/
def installed (s : State) (d v : Nat) : State :=
  { s with mem := installTable s.mem d v (pmmAllocPage s.pmm).1, pmm := (pmmAllocPage s.pmm).2 }

theorem vmmMapPage_fresh (nonzero : d ≠ 0) (p f : Nat) (absent : s.mem (dirTable d (pdIndex v)) = 0)
    (frame : (pmmAllocPage s.pmm).1 ≠ 0) :
    vmmMapPage d v p f s =
      (1, { installed s d v with
        mem := write (installed s d v).mem (tableEntry (pmmAllocPage s.pmm).1 (ptIndex v)) (pteOf p f) }) := by
  unfold vmmMapPage resolve getPageTable
  simp [nonzero, absent, frame, installed, installTable, pteOf]

theorem vmmMapPage_null (nonzero : d ≠ 0) (p f : Nat) (absent : s.mem (dirTable d (pdIndex v)) = 0)
    (frame : (pmmAllocPage s.pmm).1 = 0) :
    vmmMapPage d v p f s = (0, { s with pmm := (pmmAllocPage s.pmm).2 }) := by
  unfold vmmMapPage resolve getPageTable
  simp [nonzero, absent, frame]

theorem vmmMapPage_result (nonzero : d ≠ 0) (p f : Nat) :
    (vmmMapPage d v p f s).1 = if s.mem (dirTable d (pdIndex v)) = 0 ∧ (pmmAllocPage s.pmm).1 = 0 then 0 else 1 := by
  by_cases absent : s.mem (dirTable d (pdIndex v)) = 0
  · by_cases frame : (pmmAllocPage s.pmm).1 = 0
    · rw [vmmMapPage_null nonzero p f absent frame, if_pos ⟨absent, frame⟩]
    · rw [vmmMapPage_fresh nonzero p f absent frame, if_neg (fun both => frame both.2)]
  · rw [vmmMapPage_existing nonzero p f absent, if_neg (fun both => absent both.1)]

theorem vmmUnmapPage_eq (nonzero : d ≠ 0) :
    vmmUnmapPage d v s =
      if s.mem (dirTable d (pdIndex v)) = 0 then s
      else { s with mem := write s.mem (tableEntry (s.mem (dirTable d (pdIndex v))) (ptIndex v)) 0 } := by
  unfold vmmUnmapPage resolve getPageTable
  by_cases absent : s.mem (dirTable d (pdIndex v)) = 0 <;> simp [nonzero, absent]

end Calls

section Frames

/-! The PMM side. Below 2^20 - 1 pages every address `pmm_alloc_page` returns, and the page
after it, lies below 4 GiB, so the returned address names its page; page 0 stays used, so a
`NULL` return means the search found nothing and changed nothing. -/

/-- The PMM in the regime the mapping relies on. -/
structure Exclusive (pmm : Pmm.State) : Prop where
  small : pmm.totalPages < 2^20
  nullUsed : bitmapTest pmm 0 = true

variable {pmm : Pmm.State}

theorem alloc_keeps_used {q : Nat} (used : bitmapTest pmm q = true) :
    bitmapTest (pmmAllocPage pmm).2 q = true :=
  Pmm.PmmCall.apply_keeps_used used .alloc rfl

theorem Exclusive.alloc (ex : Exclusive pmm) : Exclusive (pmmAllocPage pmm).2 :=
  ⟨by rw [Pmm.pmmAllocPage_totalPages]; exact ex.small, alloc_keeps_used ex.nullUsed⟩

theorem Exclusive.null_alloc (ex : Exclusive pmm) (null : (pmmAllocPage pmm).1 = 0) :
    pmmAllocPage pmm = (0, pmm) := by
  cases found : findFree pmm with
  | none => exact Pmm.pmmAllocPage_of_none found
  | some page =>
    obtain ⟨address, clear, -⟩ := Pmm.pmmAllocPage_of_findFree found
    have lt := (Pmm.findFree_eq_some.mp found).1
    have notNull : page ≠ 0 := by
      rintro rfl
      rw [ex.nullUsed] at clear
      exact Bool.noConfusion clear
    have small := ex.small
    rw [address] at null
    simp only [Pmm.pageSize] at null
    omega

theorem pmmInit_exclusive {kernelStart kernelEnd : Nat} {mem : Nat → UInt8} {mboot : Pmm.MultibootInfo}
    {s : Pmm.State} (init : Pmm.pmmInit kernelStart kernelEnd mem mboot s = some pmm)
    (small : pmm.totalPages < 2^20) : Exclusive pmm :=
  ⟨small, Pmm.pmmInit_reserves_null init⟩

theorem Exclusive.apply (ex : Exclusive pmm) {c : Pmm.PmmCall} (keep : c.releases 0 = false) :
    Exclusive (c.apply pmm) :=
  ⟨by rw [Pmm.PmmCall.apply_totalPages]; exact ex.small, Pmm.PmmCall.apply_keeps_used ex.nullUsed c keep⟩

/-- A non-`NULL` frame from `pmm_alloc_page`: aligned, below the last page of 4 GiB, free
before the call and used after it. -/
structure FreshFrame (pmm : Pmm.State) (phys : Nat) : Prop where
  aligned : phys % pageSize = 0
  below : phys + pageSize < 2^32
  free : bitmapTest pmm (phys / pageSize) = false
  taken : bitmapTest (pmmAllocPage pmm).2 (phys / pageSize) = true

theorem Exclusive.fresh_alloc (ex : Exclusive pmm) (frame : (pmmAllocPage pmm).1 ≠ 0) :
    FreshFrame pmm (pmmAllocPage pmm).1 := by
  cases found : findFree pmm with
  | none => exact absurd (by rw [Pmm.pmmAllocPage_of_none found]) frame
  | some page =>
    obtain ⟨address, clear, after⟩ := Pmm.pmmAllocPage_of_findFree found
    have lt := (Pmm.findFree_eq_some.mp found).1
    have small := ex.small
    have exact : (pmmAllocPage pmm).1 = page * pageSize := by
      rw [address]
      simp only [Pmm.pageSize, pageSize]
      omega
    have pageOf : (pmmAllocPage pmm).1 / pageSize = page := by
      rw [exact, pageSize]
      omega
    refine ⟨?_, ?_, ?_, ?_⟩
    · rw [exact, pageSize]
      omega
    · rw [exact, pageSize]
      omega
    · rw [pageOf]
      exact clear
    · rw [pageOf, after, if_pos rfl]

theorem FreshFrame.apart {phys q : Nat} (fresh : FreshFrame pmm phys) (used : bitmapTest pmm q = true) :
    phys / pageSize ≠ q := by
  rintro rfl
  rw [fresh.free] at used
  exact Bool.noConfusion used

end Frames

section Invariant

/-- A table pointer of directory `d`: an aligned frame that the PMM counts as used, apart
from the directory's own frames. -/
structure TableOk (s : State) (d t : Nat) : Prop where
  aligned : t % pageSize = 0
  used : bitmapTest s.pmm (t / pageSize) = true
  apart : ∀ k < dirPages, t / pageSize ≠ d / pageSize + k

/-- Directory `d` in memory: its frames are used, and its table pointers are distinct
tables. -/
structure DirectoryOk (s : State) (d : Nat) : Prop where
  nonzero : d ≠ 0
  aligned : d % pageSize = 0
  used : ∀ k < dirPages, bitmapTest s.pmm (d / pageSize + k) = true
  tables : ∀ i < pageDirEntries, s.mem (dirTable d i) ≠ 0 → TableOk s d (s.mem (dirTable d i))
  distinct : ∀ i < pageDirEntries, ∀ j < pageDirEntries, s.mem (dirTable d i) ≠ 0 →
    s.mem (dirTable d i) = s.mem (dirTable d j) → i = j

theorem dirPages_eq : dirPages = 2 := rfl

theorem DirectoryOk.of_empty {s : State} {d : Nat} (nonzero : d ≠ 0) (aligned : d % pageSize = 0)
    (used : ∀ k < dirPages, bitmapTest s.pmm (d / pageSize + k) = true)
    (empty : ∀ i < pageDirEntries, s.mem (dirTable d i) = 0) : DirectoryOk s d :=
  ⟨nonzero, aligned, used, fun i lt present => absurd (empty i lt) present,
    fun i lt _ _ present _ => absurd (empty i lt) present⟩

variable {s s' : State} {d v : Nat}

theorem DirectoryOk.transfer (ok : DirectoryOk s d)
    (slots : ∀ i < pageDirEntries, s'.mem (dirTable d i) = s.mem (dirTable d i))
    (keeps : ∀ q, bitmapTest s.pmm q = true → bitmapTest s'.pmm q = true) : DirectoryOk s' d where
  nonzero := ok.nonzero
  aligned := ok.aligned
  used k lt := keeps _ (ok.used k lt)
  tables i lt present := by
    rw [slots i lt] at present ⊢
    have table := ok.tables i lt present
    exact ⟨table.aligned, keeps _ table.used, table.apart⟩
  distinct i iLt j jLt present same := by
    rw [slots i iLt, slots j jLt] at same
    rw [slots i iLt] at present
    exact ok.distinct i iLt j jLt present same

theorem DirectoryOk.slot_frame (ok : DirectoryOk s d) {i : Nat} (lt : i < pageDirEntries) {t : Nat}
    (table : TableOk s d t) {j : Nat} (jLt : j < pageTableEntries) : tableEntry t j ≠ dirTable d i := by
  apply ne_of_frame_ne
  rw [frame_tableEntry table.aligned jLt, frame_dirTable ok.aligned lt]
  exact table.apart 1 (by decide)

theorem DirectoryOk.entry_frame (ok : DirectoryOk s d) {i : Nat} (lt : i < pageDirEntries) {t : Nat}
    (table : TableOk s d t) {j : Nat} (jLt : j < pageTableEntries) : tableEntry t j ≠ dirEntry d i := by
  apply ne_of_frame_ne
  rw [frame_tableEntry table.aligned jLt, frame_dirEntry ok.aligned lt]
  simpa using table.apart 0 (by decide)

/-- Two tables of one directory are distinct frames, so their entries are apart. -/
theorem DirectoryOk.entries_apart (ok : DirectoryOk s d) {i j : Nat} (iLt : i < pageDirEntries)
    (jLt : j < pageDirEntries) (ne : i ≠ j) (iPresent : s.mem (dirTable d i) ≠ 0)
    (jPresent : s.mem (dirTable d j) ≠ 0) {a b : Nat} (aLt : a < pageTableEntries) (bLt : b < pageTableEntries) :
    tableEntry (s.mem (dirTable d i)) a ≠ tableEntry (s.mem (dirTable d j)) b := by
  have iTable := ok.tables i iLt iPresent
  have jTable := ok.tables j jLt jPresent
  have tablesNe : s.mem (dirTable d i) ≠ s.mem (dirTable d j) :=
    fun same => ne (ok.distinct i iLt j jLt iPresent same)
  apply ne_of_frame_ne
  rw [frame_tableEntry iTable.aligned aLt, frame_tableEntry jTable.aligned bLt]
  intro frames
  apply tablesNe
  have iAligned := iTable.aligned
  have jAligned := jTable.aligned
  simp only [pageSize] at iAligned jAligned frames
  omega

end Invariant

section Entry

theorem pteOf_fields (p f : Nat) :
    pteOf p f &&& ptePresent = f &&& ptePresent ∧ pteOf p f &&& 0xFFFFF000 = p &&& 0xFFFFF000 := by
  have sum : pteOf p f = p % 2^32 / 4096 * 4096 + f % 4096 := by
    rw [pteOf, and_frameMask, and_offsetMask]
    exact Bits.mul_two_pow_or_of_lt (k := 12) _ (Nat.mod_lt _ (by decide))
  have present : ∀ x, x &&& ptePresent = x % 2 := fun x => Nat.and_two_pow_sub_one_eq_mod x 1
  rw [present, present, and_frameMask, and_frameMask, sum]
  constructor <;> omega

end Entry

section Map

variable {s : State} {d v : Nat}

/-- A store into the table behind `v`'s slot changes the translation of `v`'s page only. -/
theorem vmmGetPhysical_tableWrite (ok : DirectoryOk s d) {t : Nat}
    (slot : s.mem (dirTable d (pdIndex v)) = t) (present : t ≠ 0) (x w : Nat) :
    vmmGetPhysical d w { s with mem := write s.mem (tableEntry t (ptIndex v)) x } =
      if samePage w v then (if x &&& ptePresent = 0 then 0 else x &&& 0xFFFFF000 ||| w % 2^32 &&& 0xFFF)
      else vmmGetPhysical d w s := by
  have table : TableOk s d t := slot ▸ ok.tables _ (pdIndex_lt v) (slot ▸ present)
  -- the store is in the table's frame, never in a slot
  have slotKept : ∀ i < pageDirEntries,
      write s.mem (tableEntry t (ptIndex v)) x (dirTable d i) = s.mem (dirTable d i) :=
    fun i lt => write_other _ _ (ok.slot_frame lt table (ptIndex_lt v)).symm
  by_cases same : samePage w v
  · obtain ⟨pdSame, ptSame⟩ := (samePage_iff w v).mp same
    rw [if_pos same, vmmGetPhysical_eq ok.nonzero]
    -- read the slot first: it is the one the store left alone
    simp only [slotKept _ (pdIndex_lt w)]
    simp only [pdSame, ptSame, slot, present, if_false, write_same]
  · rw [if_neg same]
    refine vmmGetPhysical_congr ok.nonzero (slotKept _ (pdIndex_lt w)) (fun wPresent => ?_)
    apply write_other
    by_cases pdSame : pdIndex w = pdIndex v
    · -- the same table, another entry
      have ptNe : ptIndex w ≠ ptIndex v := fun ptSame => same ((samePage_iff w v).mpr ⟨pdSame, ptSame⟩)
      rw [pdSame, slot]
      exact tableEntry_injective ptNe
    · rw [← slot]
      exact ok.entries_apart (pdIndex_lt w) (pdIndex_lt v) pdSame wPresent (slot ▸ present)
        (ptIndex_lt w) (ptIndex_lt v)

theorem DirectoryOk.tableWrite (ok : DirectoryOk s d) {t : Nat}
    (slot : s.mem (dirTable d (pdIndex v)) = t) (present : t ≠ 0) (x : Nat) :
    DirectoryOk { s with mem := write s.mem (tableEntry t (ptIndex v)) x } d := by
  have table : TableOk s d t := slot ▸ ok.tables _ (pdIndex_lt v) (slot ▸ present)
  exact ok.transfer (fun i lt => write_other _ _ (ok.slot_frame lt table (ptIndex_lt v)).symm)
    (fun _ used => used)

theorem vmmGetPhysical_of_absent (nonzero : d ≠ 0) {w : Nat}
    (absent : s.mem (dirTable d (pdIndex w)) = 0) : vmmGetPhysical d w s = 0 := by
  rw [vmmGetPhysical_eq nonzero, if_pos absent]

end Map

section Install

variable {s : State} {d v : Nat}

theorem dirEntry_ne_dirTable {i j : Nat} (lt : i < pageDirEntries) : dirEntry d i ≠ dirTable d j := by
  simp only [dirEntry, dirTable, pageDirEntries] at *
  omega

theorem installTable_slot (mem : Nat → Nat) (phys : Nat) :
    installTable mem d v phys (dirTable d (pdIndex v)) = phys := by
  unfold installTable
  rw [write_other _ _ (dirEntry_ne_dirTable (pdIndex_lt v)).symm, write_same]

theorem installTable_other (mem : Nat → Nat) {phys a : Nat} (aligned : phys % pageSize = 0)
    (slot : a ≠ dirTable d (pdIndex v)) (entry : a ≠ dirEntry d (pdIndex v))
    (frame : a / pageSize ≠ phys / pageSize) : installTable mem d v phys a = mem a := by
  unfold installTable
  rw [write_other _ _ entry, write_other _ _ slot, clearTable_of_frame _ aligned frame]

theorem installTable_entry (mem : Nat → Nat) {phys : Nat} (dirAligned : d % pageSize = 0)
    (aligned : phys % pageSize = 0) (apart : ∀ k < dirPages, phys / pageSize ≠ d / pageSize + k)
    {j : Nat} (lt : j < pageTableEntries) : installTable mem d v phys (tableEntry phys j) = 0 := by
  have entryFrame := frame_tableEntry aligned lt
  have notEntry : tableEntry phys j ≠ dirEntry d (pdIndex v) := by
    apply ne_of_frame_ne
    rw [entryFrame, frame_dirEntry dirAligned (pdIndex_lt v)]
    simpa using apart 0 (by decide)
  have notSlot : tableEntry phys j ≠ dirTable d (pdIndex v) := by
    apply ne_of_frame_ne
    rw [entryFrame, frame_dirTable dirAligned (pdIndex_lt v)]
    exact apart 1 (by decide)
  unfold installTable
  rw [write_other _ _ notEntry, write_other _ _ notSlot, clearTable_entry _ _ lt]

theorem installed_mem (s : State) (d v : Nat) :
    (installed s d v).mem = installTable s.mem d v (pmmAllocPage s.pmm).1 := rfl

theorem installed_slot (s : State) (d v : Nat) :
    (installed s d v).mem (dirTable d (pdIndex v)) = (pmmAllocPage s.pmm).1 :=
  installTable_slot _ _

section

variable (ok : DirectoryOk s d) (ex : Exclusive s.pmm) (absent : s.mem (dirTable d (pdIndex v)) = 0)
  (frame : (pmmAllocPage s.pmm).1 ≠ 0)
include ok ex frame

theorem fresh_apart_dir : ∀ k < dirPages, (pmmAllocPage s.pmm).1 / pageSize ≠ d / pageSize + k :=
  fun k lt => (ex.fresh_alloc frame).apart (ok.used k lt)

theorem fresh_apart_table {i : Nat} (lt : i < pageDirEntries) (present : s.mem (dirTable d i) ≠ 0) :
    (pmmAllocPage s.pmm).1 / pageSize ≠ s.mem (dirTable d i) / pageSize :=
  (ex.fresh_alloc frame).apart (ok.tables i lt present).used

theorem installed_slot_other {i : Nat} (lt : i < pageDirEntries) (ne : i ≠ pdIndex v) :
    (installed s d v).mem (dirTable d i) = s.mem (dirTable d i) := by
  refine installTable_other _ (ex.fresh_alloc frame).aligned (dirTable_injective ne)
    (dirEntry_ne_dirTable (pdIndex_lt v)).symm ?_
  rw [frame_dirTable ok.aligned lt]
  exact (fresh_apart_dir ok ex frame 1 (by decide)).symm

theorem installed_ok : DirectoryOk (installed s d v) d where
  nonzero := ok.nonzero
  aligned := ok.aligned
  used k lt := alloc_keeps_used (ok.used k lt)
  tables i lt present := by
    by_cases here : i = pdIndex v
    · -- the new table
      subst here
      rw [installed_slot] at present ⊢
      have fresh := ex.fresh_alloc frame
      exact ⟨fresh.aligned, fresh.taken, fresh_apart_dir ok ex frame⟩
    · rw [installed_slot_other ok ex frame lt here] at present ⊢
      have table := ok.tables i lt present
      exact ⟨table.aligned, alloc_keeps_used table.used, table.apart⟩
  distinct i iLt j jLt present same := by
    have newSlot := installed_slot s d v
    by_cases iHere : i = pdIndex v <;> by_cases jHere : j = pdIndex v
    · exact iHere.trans jHere.symm
    · -- the new frame equals no old table
      rw [iHere, newSlot, installed_slot_other ok ex frame jLt jHere] at same
      exact absurd (congrArg (· / pageSize) same) (fresh_apart_table ok ex frame jLt (same ▸ frame))
    · rw [jHere, newSlot, installed_slot_other ok ex frame iLt iHere] at same
      have iPresent : s.mem (dirTable d i) ≠ 0 := same ▸ frame
      exact absurd (congrArg (· / pageSize) same.symm) (fresh_apart_table ok ex frame iLt iPresent)
    · rw [installed_slot_other ok ex frame iLt iHere, installed_slot_other ok ex frame jLt jHere] at same
      rw [installed_slot_other ok ex frame iLt iHere] at present
      exact ok.distinct i iLt j jLt present same

include absent in
theorem installed_physical (w : Nat) : vmmGetPhysical d w (installed s d v) = vmmGetPhysical d w s := by
  by_cases pdSame : pdIndex w = pdIndex v
  · rw [vmmGetPhysical_of_absent (s := s) ok.nonzero (pdSame ▸ absent), vmmGetPhysical_eq ok.nonzero]
    have fresh := ex.fresh_alloc frame
    simp only [pdSame, installed_slot, frame, if_false, installed_mem,
      installTable_entry _ ok.aligned fresh.aligned (fresh_apart_dir ok ex frame) (ptIndex_lt w),
      Nat.zero_and, if_true]
  · refine vmmGetPhysical_congr ok.nonzero (installed_slot_other ok ex frame (pdIndex_lt w) pdSame)
      (fun present => ?_)
    have table := ok.tables _ (pdIndex_lt w) present
    refine installTable_other _ (ex.fresh_alloc frame).aligned
      (ok.slot_frame (pdIndex_lt v) table (ptIndex_lt w)) (ok.entry_frame (pdIndex_lt v) table (ptIndex_lt w)) ?_
    rw [frame_tableEntry table.aligned (ptIndex_lt w)]
    exact (fresh_apart_table ok ex frame (pdIndex_lt w) present).symm

end

end Install

section Spec

variable {s : State} {d v : Nat}

theorem pteOf_translation (p f w : Nat) :
    (if pteOf p f &&& ptePresent = 0 then 0 else pteOf p f &&& 0xFFFFF000 ||| w % 2^32 &&& 0xFFF) =
      if f &&& ptePresent = 0 then 0 else p &&& 0xFFFFF000 ||| w &&& 0xFFF := by
  rw [(pteOf_fields p f).1, (pteOf_fields p f).2, offset_cast]

/-- `vmm_map_page` on a directory: either it fails for want of a frame and changes nothing,
or it maps `v`'s page and keeps every other translation and the invariant. -/
theorem vmmMapPage_spec (ok : DirectoryOk s d) (ex : Exclusive s.pmm) (p f : Nat) :
    vmmMapPage d v p f s = (0, s) ∨
      ((vmmMapPage d v p f s).1 = 1 ∧ DirectoryOk (vmmMapPage d v p f s).2 d ∧
        Exclusive (vmmMapPage d v p f s).2.pmm ∧
        ∀ w, vmmGetPhysical d w (vmmMapPage d v p f s).2 =
          if samePage w v then (if f &&& ptePresent = 0 then 0 else p &&& 0xFFFFF000 ||| w &&& 0xFFF)
          else vmmGetPhysical d w s) := by
  by_cases absent : s.mem (dirTable d (pdIndex v)) = 0
  · by_cases frame : (pmmAllocPage s.pmm).1 = 0
    · left
      rw [vmmMapPage_null ok.nonzero p f absent frame, ex.null_alloc frame]
    · right
      have newOk := installed_ok ok ex frame (v := v)
      have newSlot := installed_slot s d v
      rw [vmmMapPage_fresh ok.nonzero p f absent frame]
      refine ⟨rfl, newOk.tableWrite newSlot frame _, ex.alloc, fun w => ?_⟩
      rw [vmmGetPhysical_tableWrite newOk newSlot frame, installed_physical ok ex absent frame,
        pteOf_translation]
  · right
    rw [vmmMapPage_existing ok.nonzero p f absent]
    refine ⟨rfl, ok.tableWrite rfl absent _, ex, fun w => ?_⟩
    rw [vmmGetPhysical_tableWrite ok rfl absent, pteOf_translation]

theorem vmmUnmapPage_spec (ok : DirectoryOk s d) :
    DirectoryOk (vmmUnmapPage d v s) d ∧ (vmmUnmapPage d v s).pmm = s.pmm ∧
      ∀ w, vmmGetPhysical d w (vmmUnmapPage d v s) = if samePage w v then 0 else vmmGetPhysical d w s := by
  rw [vmmUnmapPage_eq ok.nonzero]
  by_cases absent : s.mem (dirTable d (pdIndex v)) = 0
  · rw [if_pos absent]
    refine ⟨ok, rfl, fun w => ?_⟩
    by_cases same : samePage w v
    · rw [if_pos same, vmmGetPhysical_of_absent ok.nonzero (((samePage_iff w v).mp same).1 ▸ absent)]
    · rw [if_neg same]
  · rw [if_neg absent]
    refine ⟨ok.tableWrite rfl absent 0, rfl, fun w => ?_⟩
    rw [vmmGetPhysical_tableWrite ok rfl absent]
    simp only [Nat.zero_and, if_true]

end Spec

section Create

variable {pmm : Pmm.State}

theorem clearDirectory_table (mem : Nat → Nat) (d : Nat) {i : Nat} (lt : i < pageDirEntries) :
    clearDirectory mem d (dirTable d i) = 0 := by
  -- the loop clears slot `i` at step `i`, and the later steps store elsewhere
  suffices upTo : ∀ n ≤ pageDirEntries, i < n →
      (List.range n).foldl (fun mem i => write (write mem (dirEntry d i) 0) (dirTable d i) 0) mem
        (dirTable d i) = 0 from upTo _ (Nat.le_refl _) lt
  intro n
  induction n with
  | zero => intro _ below; omega
  | succ n ih =>
    intro bound below
    rw [List.range_succ, List.foldl_append, List.foldl_cons, List.foldl_nil]
    by_cases last : i = n
    · subst last
      rw [write_same]
    · rw [write_other _ _ (dirTable_injective last), write_other _ _ (dirEntry_ne_dirTable (by omega)).symm,
        ih (by omega) (by omega)]

theorem claimContiguous_keeps (ex : Exclusive pmm) (n expect : Nat) :
    Exclusive (claimContiguous n expect pmm).2 ∧
      ∀ q, bitmapTest pmm q = true → bitmapTest (claimContiguous n expect pmm).2 q = true := by
  induction n generalizing expect pmm with
  | zero => exact ⟨ex, fun _ used => used⟩
  | succ n ih =>
    unfold claimContiguous
    by_cases hit : (pmmAllocPage pmm).1 = expect
    · rw [if_neg (not_not.mpr hit)]
      have rest := ih ex.alloc (((pmmAllocPage pmm).1 + pageSize) % 2^32)
      exact ⟨rest.1, fun q used => rest.2 q (alloc_keeps_used used)⟩
    · rw [if_pos hit]
      exact ⟨ex.alloc, fun _ used => alloc_keeps_used used⟩

/-- A run the loop accepts: the `n` pages from `expect` on are used. -/
theorem claimContiguous_claims (ex : Exclusive pmm) {n expect : Nat} (aligned : expect % pageSize = 0)
    (nonzero : expect ≠ 0) (claimed : (claimContiguous n expect pmm).1 = true) :
    ∀ k < n, bitmapTest (claimContiguous n expect pmm).2 (expect / pageSize + k) = true := by
  induction n generalizing expect pmm with
  | zero => intro k lt; omega
  | succ n ih =>
    unfold claimContiguous at claimed ⊢
    by_cases hit : (pmmAllocPage pmm).1 = expect
    · rw [if_neg (not_not.mpr hit)] at claimed ⊢
      have fresh := ex.fresh_alloc (hit ▸ nonzero)
      rw [hit] at fresh claimed ⊢
      have next : (expect + pageSize) % 2^32 = expect + pageSize := Nat.mod_eq_of_lt fresh.below
      rw [next] at claimed ⊢
      have later := ih ex.alloc (by simp only [pageSize] at aligned ⊢; omega) (by omega) claimed
      intro k lt
      cases k with
      | zero =>
        -- the page just taken, kept by the rest of the loop
        exact (claimContiguous_keeps ex.alloc n _).2 _ fresh.taken
      | succ k =>
        have shift : expect / pageSize + (k + 1) = (expect + pageSize) / pageSize + k := by
          simp only [pageSize] at aligned ⊢
          omega
        rw [shift]
        exact later k (by omega)
    · rw [if_pos hit] at claimed
      exact absurd claimed Bool.false_ne_true

theorem allocDirectory_keeps (ex : Exclusive pmm) :
    Exclusive (allocDirectory pmm).2 ∧
      ∀ q, bitmapTest pmm q = true → bitmapTest (allocDirectory pmm).2 q = true := by
  have rest := claimContiguous_keeps ex.alloc (dirPages - 1) (((pmmAllocPage pmm).1 + pageSize) % 2^32)
  dsimp only [allocDirectory]
  split
  · exact ⟨ex.alloc, fun _ used => alloc_keeps_used used⟩
  · split <;> exact ⟨rest.1, fun q used => rest.2 q (alloc_keeps_used used)⟩

/-- A directory that `allocDirectory` returns is its first claim, followed by a run of the
contiguity loop that succeeded; the address after the first frame does not wrap. -/
theorem allocDirectory_of_ne_zero (ex : Exclusive pmm) (got : (allocDirectory pmm).1 ≠ 0) :
    (pmmAllocPage pmm).1 ≠ 0 ∧ (allocDirectory pmm).1 = (pmmAllocPage pmm).1 ∧
      (claimContiguous (dirPages - 1) ((pmmAllocPage pmm).1 + pageSize) (pmmAllocPage pmm).2).1 = true ∧
      (allocDirectory pmm).2 =
        (claimContiguous (dirPages - 1) ((pmmAllocPage pmm).1 + pageSize) (pmmAllocPage pmm).2).2 := by
  unfold allocDirectory at got ⊢
  by_cases first : (pmmAllocPage pmm).1 = 0
  · rw [if_pos first] at got
    exact absurd rfl got
  · rw [if_neg first] at got ⊢
    have next : ((pmmAllocPage pmm).1 + pageSize) % 2^32 = (pmmAllocPage pmm).1 + pageSize :=
      Nat.mod_eq_of_lt (ex.fresh_alloc first).below
    rw [next] at got ⊢
    by_cases claimed : (claimContiguous (dirPages - 1) ((pmmAllocPage pmm).1 + pageSize) (pmmAllocPage pmm).2).1 = true
    · rw [if_pos claimed]
      exact ⟨first, rfl, claimed, rfl⟩
    · rw [if_neg claimed] at got
      exact absurd rfl got

/-- The frames of a directory `allocDirectory` returns: aligned, and all used. -/
theorem allocDirectory_frames (ex : Exclusive pmm) (got : (allocDirectory pmm).1 ≠ 0) :
    (allocDirectory pmm).1 % pageSize = 0 ∧
      ∀ k < dirPages, bitmapTest (allocDirectory pmm).2 ((allocDirectory pmm).1 / pageSize + k) = true := by
  obtain ⟨first, same, claimed, rest⟩ := allocDirectory_of_ne_zero ex got
  rw [same, rest]
  have fresh := ex.fresh_alloc first
  have aligned := fresh.aligned
  have later := claimContiguous_claims ex.alloc (by simp only [pageSize] at aligned ⊢; omega)
    (by omega) claimed
  refine ⟨aligned, fun k lt => ?_⟩
  cases k with
  | zero => exact (claimContiguous_keeps ex.alloc _ _).2 _ fresh.taken
  | succ k =>
    have shift : (pmmAllocPage pmm).1 / pageSize + (k + 1) =
        ((pmmAllocPage pmm).1 + pageSize) / pageSize + k := by
      simp only [pageSize] at aligned ⊢
      omega
    rw [shift]
    exact later k (by omega)

theorem vmmCreateDirectory_ok {s : State} (ex : Exclusive s.pmm) (created : (vmmCreateDirectory s).1 ≠ 0) :
    DirectoryOk (vmmCreateDirectory s).2 (vmmCreateDirectory s).1 ∧ Exclusive (vmmCreateDirectory s).2.pmm := by
  unfold vmmCreateDirectory at created ⊢
  by_cases got : (allocDirectory s.pmm).1 = 0
  · rw [if_pos got] at created
    exact absurd rfl created
  · rw [if_neg got]
    obtain ⟨aligned, used⟩ := allocDirectory_frames ex got
    refine ⟨DirectoryOk.of_empty got aligned used (fun i lt => ?_), (allocDirectory_keeps ex).1⟩
    dsimp only
    exact clearDirectory_table _ _ lt

end Create

section Runs

variable {s : State} {d : Nat}

theorem vmmMapPage_kernelDirectory (ok : DirectoryOk s d) (v p f : Nat) :
    (vmmMapPage d v p f s).2.kernelDirectory = s.kernelDirectory := by
  by_cases absent : s.mem (dirTable d (pdIndex v)) = 0
  · by_cases frame : (pmmAllocPage s.pmm).1 = 0
    · rw [vmmMapPage_null ok.nonzero p f absent frame]
    · rw [vmmMapPage_fresh ok.nonzero p f absent frame]
      rfl
  · rw [vmmMapPage_existing ok.nonzero p f absent]

/-- A loop of maps on `d`, as both region functions are, keeps the invariant. -/
theorem foldl_map_ok (virt phys : Nat → Nat) (flags : Nat) (pages : List Nat) (ok : DirectoryOk s d)
    (ex : Exclusive s.pmm) :
    DirectoryOk (pages.foldl (fun s a => (vmmMapPage d (virt a) (phys a) flags s).2) s) d ∧
      Exclusive (pages.foldl (fun s a => (vmmMapPage d (virt a) (phys a) flags s).2) s).pmm ∧
      (pages.foldl (fun s a => (vmmMapPage d (virt a) (phys a) flags s).2) s).kernelDirectory =
        s.kernelDirectory := by
  induction pages generalizing s with
  | nil => exact ⟨ok, ex, rfl⟩
  | cons a pages ih =>
    rw [List.foldl_cons]
    have kept : DirectoryOk (vmmMapPage d (virt a) (phys a) flags s).2 d ∧
        Exclusive (vmmMapPage d (virt a) (phys a) flags s).2.pmm := by
      rcases vmmMapPage_spec ok ex (v := virt a) (phys a) flags with unchanged | ⟨-, okAfter, exAfter, -⟩
      · rw [unchanged]
        exact ⟨ok, ex⟩
      · exact ⟨okAfter, exAfter⟩
    obtain ⟨okRest, exRest, kernelRest⟩ := ih kept.1 kept.2
    exact ⟨okRest, exRest, kernelRest.trans (vmmMapPage_kernelDirectory ok _ _ _)⟩

theorem vmmInit_start_ok {s : State} (ex : Exclusive s.pmm) (got : (allocDirectory s.pmm).1 ≠ 0) :
    DirectoryOk ⟨clearDirectory s.mem (allocDirectory s.pmm).1, (allocDirectory s.pmm).2,
      s.currentDirectory, (allocDirectory s.pmm).1⟩ (allocDirectory s.pmm).1 := by
  obtain ⟨aligned, used⟩ := allocDirectory_frames ex got
  exact DirectoryOk.of_empty got aligned used (fun i lt => by
    dsimp only
    exact clearDirectory_table _ _ lt)

theorem vmmInit_ok {s : State} (ex : Exclusive s.pmm) (kernel : s.kernelDirectory = 0)
    (created : (vmmInit s).kernelDirectory ≠ 0) :
    DirectoryOk (vmmInit s) (vmmInit s).kernelDirectory ∧ Exclusive (vmmInit s).pmm := by
  unfold vmmInit at created ⊢
  by_cases got : (allocDirectory s.pmm).1 = 0
  · rw [if_pos got] at created
    exact absurd kernel created
  · rw [if_neg got] at created ⊢
    obtain ⟨okMapped, exMapped, kernelMapped⟩ :=
      foldl_map_ok (fun a => a) (fun a => a) (ptePresent ||| pteWritable ||| pteUser) _
        (vmmInit_start_ok ex got) (allocDirectory_keeps ex).1
    simp only [vmmIdentityMapRegion, resolve, vmmSwitchDirectory, if_neg got] at created ⊢
    rw [kernelMapped]
    exact ⟨okMapped.transfer (fun _ _ => rfl) (fun _ used => used), exMapped⟩

/-- The statics at boot: no current and no kernel directory. -/
def boot (mem : Nat → Nat) (pmm : Pmm.State) : State := ⟨mem, pmm, 0, 0⟩

/-- The calls a directory sees after it is made: maps and unmaps on it, and frames that other
clients take from the PMM. -/
inductive VmmCall
  | map (virt phys flags : Nat)
  | unmap (virt : Nat)
  | alloc
  deriving DecidableEq, Repr

def VmmCall.apply (d : Nat) : VmmCall → State → State
  | .map virt phys flags, s => (vmmMapPage d virt phys flags s).2
  | .unmap virt, s => vmmUnmapPage d virt s
  | .alloc, s => { s with pmm := (pmmAllocPage s.pmm).2 }

theorem VmmCall.apply_ok (ok : DirectoryOk s d) (ex : Exclusive s.pmm) :
    ∀ c : VmmCall, DirectoryOk (c.apply d s) d ∧ Exclusive (c.apply d s).pmm
  | .map v p f => by
    rcases vmmMapPage_spec ok ex (v := v) p f with unchanged | ⟨-, okAfter, exAfter, -⟩
    · simp only [VmmCall.apply, unchanged]
      exact ⟨ok, ex⟩
    · exact ⟨okAfter, exAfter⟩
  | .unmap v => by
    obtain ⟨okAfter, pmmSame, -⟩ := vmmUnmapPage_spec ok (v := v)
    exact ⟨okAfter, pmmSame ▸ ex⟩
  | .alloc => ⟨ok.transfer (fun _ _ => rfl) (fun _ used => alloc_keeps_used used), ex.alloc⟩

/-- States with directory `d` made by `vmm_create_directory` or by `vmm_init`, from boot with
the PMM in the exclusive regime, and then any calls on `d`. -/
def Reachable (s : State) (d : Nat) : Prop :=
  d ≠ 0 ∧ ∃ mem pmm calls, Exclusive pmm ∧
    ((vmmCreateDirectory (boot mem pmm)).1 = d ∧
        Runs.run (VmmCall.apply d) calls (vmmCreateDirectory (boot mem pmm)).2 = s ∨
      (vmmInit (boot mem pmm)).kernelDirectory = d ∧ Runs.run (VmmCall.apply d) calls (vmmInit (boot mem pmm)) = s)

theorem Reachable.ok (reachable : Reachable s d) : DirectoryOk s d ∧ Exclusive s.pmm := by
  obtain ⟨nonzero, mem, pmm, calls, ex, made⟩ := reachable
  have run : ∀ s₀ : State, DirectoryOk s₀ d ∧ Exclusive s₀.pmm →
      DirectoryOk (Runs.run (VmmCall.apply d) calls s₀) d ∧ Exclusive (Runs.run (VmmCall.apply d) calls s₀).pmm :=
    fun _ start => Runs.run_invariant_all (fun s => DirectoryOk s d ∧ Exclusive s.pmm)
      (fun s c ⟨ok, ex⟩ => VmmCall.apply_ok ok ex c) start
  rcases made with ⟨rfl, rfl⟩ | ⟨rfl, rfl⟩
  · exact run _ (vmmCreateDirectory_ok ex nonzero)
  · exact run _ (vmmInit_ok ex rfl nonzero)

end Runs

section Claim

/-- A directory from `vmm_create_directory` or `vmm_init` is a partial map from virtual pages
to frames: a map returns 1 exactly when `v`'s page table is there or the PMM has a frame for a
new one, and 0 otherwise; a successful map sets its page and no other, a failed one changes
nothing, and an unmap clears its page and no other. -/
theorem vmm_page_directory_partial_map {s : State} {d : Nat} (reachable : Reachable s d) (v p f : Nat) :
    ((vmmMapPage d v p f s).1 = 1 ↔ s.mem (dirTable d (pdIndex v)) ≠ 0 ∨ (pmmAllocPage s.pmm).1 ≠ 0) ∧
      ((vmmMapPage d v p f s).1 = 0 ↔ s.mem (dirTable d (pdIndex v)) = 0 ∧ (pmmAllocPage s.pmm).1 = 0) ∧
      ((vmmMapPage d v p f s).1 = 1 → ∀ w, vmmGetPhysical d w (vmmMapPage d v p f s).2 =
        if samePage w v then (if f &&& ptePresent = 0 then 0 else p &&& 0xFFFFF000 ||| w &&& 0xFFF)
        else vmmGetPhysical d w s) ∧
      ((vmmMapPage d v p f s).1 = 0 → (vmmMapPage d v p f s).2 = s) ∧
      ∀ w, vmmGetPhysical d w (vmmUnmapPage d v s) = if samePage w v then 0 else vmmGetPhysical d w s := by
  obtain ⟨ok, ex⟩ := reachable.ok
  have result := vmmMapPage_result ok.nonzero (s := s) (v := v) p f
  refine ⟨?_, ?_, fun mapped => ?_, fun failed => ?_, (vmmUnmapPage_spec ok).2.2⟩
  · rw [result]
    split_ifs with both
    · exact ⟨False.elim, fun some => absurd both (not_and_or.mpr some)⟩
    · exact ⟨fun _ => not_and_or.mp both, fun _ => rfl⟩
  · rw [result]
    split_ifs with both
    · exact ⟨fun _ => both, fun _ => rfl⟩
    · exact ⟨False.elim, fun none => absurd none both⟩
  · rcases vmmMapPage_spec ok ex (v := v) p f with unchanged | ⟨-, -, -, translation⟩
    · rw [unchanged] at mapped
      exact absurd mapped Nat.zero_ne_one
    · exact translation
  · rcases vmmMapPage_spec ok ex (v := v) p f with unchanged | ⟨one, -⟩
    · rw [unchanged]
    · rw [one] at failed
      exact absurd failed Nat.one_ne_zero

/-- A directory fresh from `vmm_create_directory` on a 16-page PMM with page 0 used: mapping
`0x400000` to `0x5000` takes a frame for the new page table, returns 1 and maps that page only. -/
theorem vmm_page_directory_partial_map_fresh :
    Reachable (vmmCreateDirectory (boot (fun _ => 0) ⟨(fun q => q == 0), 16, 1, 0x10000⟩)).2 0x1000 ∧
      (vmmMapPage 0x1000 0x400000 0x5000 3 (vmmCreateDirectory (boot (fun _ => 0) ⟨(fun q => q == 0), 16, 1, 0x10000⟩)).2).1 = 1 ∧
      ∀ w, vmmGetPhysical 0x1000 w (vmmMapPage 0x1000 0x400000 0x5000 3 (vmmCreateDirectory (boot (fun _ => 0) ⟨(fun q => q == 0), 16, 1, 0x10000⟩)).2).2 =
        if samePage w 0x400000 then 0x5000 &&& 0xFFFFF000 ||| w &&& 0xFFF
        else vmmGetPhysical 0x1000 w (vmmCreateDirectory (boot (fun _ => 0) ⟨(fun q => q == 0), 16, 1, 0x10000⟩)).2 := by
  have reachable : Reachable (vmmCreateDirectory (boot (fun _ => 0) ⟨(fun q => q == 0), 16, 1, 0x10000⟩)).2 0x1000 :=
    ⟨by decide, fun _ => 0, _, [], ⟨by decide, by decide⟩, .inl ⟨by decide, rfl⟩⟩
  -- the PMM still has free pages after the directory's two, so the map succeeds
  have mapped : (vmmMapPage 0x1000 0x400000 0x5000 3 (vmmCreateDirectory (boot (fun _ => 0) ⟨(fun q => q == 0), 16, 1, 0x10000⟩)).2).1 = 1 :=
    (vmm_page_directory_partial_map reachable 0x400000 0x5000 3).1.mpr (.inr (by decide))
  refine ⟨reachable, mapped, fun w => ?_⟩
  rw [(vmm_page_directory_partial_map reachable 0x400000 0x5000 3).2.2.1 mapped w,
    if_neg (by decide : ¬ (3 &&& ptePresent = 0))]

end Claim

end OpenOS.Vmm

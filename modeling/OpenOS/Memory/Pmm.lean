import Mathlib

/-! The physical memory manager of `memory/pmm.c`: one bit per 4 KiB frame, a count of used
frames, and `pmm_init`, which reads the multiboot memory map from memory. The bitmap is
seen bit by bit; `bitmap page` is bit `page % 8` of byte `page / 8`. Counters are
`uint32_t`, map fields `uint64_t`, and the casts of the source are explicit. -/
namespace OpenOS.Pmm

def pageSize : Nat := 4096
/-- `PMM_BITMAP_SIZE`, in bytes. -/
def bitmapSize : Nat := 1024 * 1024
def lowMemory : Nat := 0x100000
def memoryAvailable : Nat := 1

/-- A `uint32_t` computed from an integer expression. -/
def u32 (x : Int) : Nat := (x % 2^32).toNat

structure State where
  bitmap : Nat → Bool
  totalPages : Nat
  usedPages : Nat
  /-- A static that `pmm_init` only raises. -/
  maxPhysicalAddress : Nat

/-- The allocator's statics before `pmm_init`. -/
def boot : State := ⟨fun _ => false, 0, 0, 0⟩

def bitmapSet (page : Nat) (s : State) : State :=
  if page / 8 < bitmapSize then { s with bitmap := Function.update s.bitmap page true } else s

def bitmapClear (page : Nat) (s : State) : State :=
  if page / 8 < bitmapSize then { s with bitmap := Function.update s.bitmap page false } else s

/-- Out-of-range pages count as used. -/
def bitmapTest (s : State) (page : Nat) : Bool :=
  if page / 8 < bitmapSize then s.bitmap page else true

@[simp] theorem bitmapTest_mk (s : State) (total used top q : Nat) :
    bitmapTest ⟨s.bitmap, total, used, top⟩ q = bitmapTest s q := rfl

@[simp] theorem bitmapTest_set (s : State) (page q : Nat) :
    bitmapTest (bitmapSet page s) q = if q = page then true else bitmapTest s q := by
  unfold bitmapTest bitmapSet
  by_cases eq : q = page
  · subst eq
    by_cases range : q / 8 < bitmapSize <;> simp [range]
  · by_cases range : page / 8 < bitmapSize <;> simp [range, eq]

@[simp] theorem bitmapTest_clear (s : State) (page q : Nat) :
    bitmapTest (bitmapClear page s) q =
      if q = page ∧ q / 8 < bitmapSize then false else bitmapTest s q := by
  unfold bitmapTest bitmapClear
  by_cases eq : q = page
  · subst eq
    by_cases range : q / 8 < bitmapSize <;> simp [range]
  · by_cases range : page / 8 < bitmapSize <;> simp [range, eq]

@[simp] theorem bitmapSet_totalPages (page : Nat) (s : State) :
    (bitmapSet page s).totalPages = s.totalPages := by
  unfold bitmapSet; split <;> rfl

@[simp] theorem bitmapClear_totalPages (page : Nat) (s : State) :
    (bitmapClear page s).totalPages = s.totalPages := by
  unfold bitmapClear; split <;> rfl

@[simp] theorem bitmapSet_usedPages (page : Nat) (s : State) :
    (bitmapSet page s).usedPages = s.usedPages := by
  unfold bitmapSet; split <;> rfl

@[simp] theorem bitmapClear_usedPages (page : Nat) (s : State) :
    (bitmapClear page s).usedPages = s.usedPages := by
  unfold bitmapClear; split <;> rfl

/-- Mark every page that `[start, stop)` touches as used, rounding out. -/
def reserveRange (start stop : Nat) (s : State) : State :=
  if stop ≤ start then s
  else
    let first := start / pageSize % 2^32
    let last := (stop + pageSize - 1) % 2^64 / pageSize % 2^32
    (List.range' first (min last s.totalPages - first)).foldl
      (fun s page => if !bitmapTest s page then bitmapSet page s else s) s

structure MultibootInfo where
  flags : Nat
  memLower : Nat
  memUpper : Nat
  mmapLength : Nat
  mmapAddr : Nat
  deriving DecidableEq, Repr

/-- `struct multiboot_mmap_entry`, packed. -/
structure MmapEntry where
  size : Nat
  addr : Nat
  len : Nat
  type : Nat
  deriving DecidableEq, Repr

/-- The little-endian number in the `width` bytes at `a`. -/
def readLE (mem : Nat → UInt8) (a width : Nat) : Nat :=
  ((List.range width).map (fun k => (mem (a + k)).toNat * 256 ^ k)).sum

def entryAt (mem : Nat → UInt8) (a : Nat) : MmapEntry :=
  ⟨readLE mem a 4, readLE mem (a + 4) 8, readLE mem (a + 12) 8, readLE mem (a + 20) 4⟩

/-- The entries that `while (mmap < mmap_end)` visits, stepping by `size + 4` in
`uint32_t`. The walk's only state is the 32-bit cursor, so one that has not left the
buffer after `2^32 + 1` steps never does: `none` stands for that loop. -/
def mmapWalk (mem : Nat → UInt8) (stop : Nat) : Nat → Nat → Option (List MmapEntry)
  | 0, _ => none
  | fuel + 1, a =>
    if a < stop then
      let e := entryAt mem a
      (mmapWalk mem stop fuel ((a + e.size + 4) % 2^32)).map (e :: ·)
    else some []

def mmapEntries (mem : Nat → UInt8) (mboot : MultibootInfo) : Option (List MmapEntry) :=
  mmapWalk mem ((mboot.mmapAddr + mboot.mmapLength) % 2^32) (2^32 + 1) mboot.mmapAddr

/-- The first pass: the highest end of an available region. -/
def maxAvailable (entries : List MmapEntry) (m : Nat) : Nat :=
  entries.foldl (fun m e =>
    if e.type = memoryAvailable ∧ m < (e.addr + e.len) % 2^64 then (e.addr + e.len) % 2^64 else m) m

def startPage (e : MmapEntry) : Nat := e.addr / pageSize % 2^32
def endPage (e : MmapEntry) : Nat := (e.addr + e.len) % 2^64 / pageSize % 2^32

/-- One step of the second pass: free the pages of an available region above 1 MiB. -/
def freeRegion (s : State) (e : MmapEntry) : State :=
  if e.type = memoryAvailable ∧ lowMemory ≤ e.addr then
    (List.range' (startPage e) (min (endPage e) s.totalPages - startPage e)).foldl
      (fun s page => bitmapClear page s) s
  else s

def countUsed (s : State) : Nat := (List.range s.totalPages).countP (bitmapTest s)

/-- `pmm_init`; the kernel image `[kernelStart, kernelEnd)` comes from the linker script.
`none` when the memory-map walk does not end. -/
def pmmInit (kernelStart kernelEnd : Nat) (mem : Nat → UInt8) (mboot : MultibootInfo) (s : State) :
    Option State :=
  let s := { s with bitmap := fun _ => true }
  if mboot.flags &&& 0x40 = 0 then
    -- no memory map: everything above 1 MiB up to the reported size is free
    let memKb := (mboot.memLower + mboot.memUpper) % 2^32
    let total := memKb * 1024 % 2^32 / pageSize
    let s := { s with totalPages := total, maxPhysicalAddress := memKb * 1024 % 2^32 }
    let s := (List.range' (lowMemory / pageSize) (total - lowMemory / pageSize)).foldl
      (fun s i => bitmapClear i s) s
    let s := reserveRange kernelStart kernelEnd (reserveRange 0 pageSize s)
    some { s with usedPages := countUsed s }
  else
    (mmapEntries mem mboot).map fun entries =>
      let maxAddr := maxAvailable entries s.maxPhysicalAddress
      let total := min (maxAddr / pageSize % 2^32) (bitmapSize * 8)
      let s := { s with totalPages := total, maxPhysicalAddress := maxAddr }
      let s := reserveRange kernelStart kernelEnd (reserveRange 0 pageSize (entries.foldl freeRegion s))
      { s with usedPages := countUsed s }

/-- The first page whose bit is clear. -/
def findFree (s : State) : Option Nat := (List.range s.totalPages).find? (fun page => !bitmapTest s page)

/-- Returns the frame's address, `page * PMM_PAGE_SIZE` in `uint32_t`; 0 is `NULL`. -/
def pmmAllocPage (s : State) : Nat × State :=
  match findFree s with
  | some page => (page * pageSize % 2^32, { bitmapSet page s with usedPages := (s.usedPages + 1) % 2^32 })
  | none => (0, s)

def pmmFreePage (ptr : Nat) (s : State) : State :=
  let pageNum := ptr % 2^32 / pageSize
  if pageNum < s.totalPages ∧ bitmapTest s pageNum = true then
    { bitmapClear pageNum s with usedPages := u32 ((s.usedPages : Int) - 1) }
  else s

def pmmMarkUsed (ptr : Nat) (s : State) : State :=
  let pageNum := ptr % 2^32 / pageSize
  if pageNum < s.totalPages ∧ bitmapTest s pageNum = false then
    { bitmapSet pageNum s with usedPages := (s.usedPages + 1) % 2^32 }
  else s

def pmmMarkFree (ptr : Nat) (s : State) : State := pmmFreePage ptr s

def pmmIsPageFree (ptr : Nat) (s : State) : Bool :=
  let pageNum := ptr % 2^32 / pageSize
  decide (pageNum < s.totalPages) && !bitmapTest s pageNum

structure PmmStats where
  totalPages : Nat
  usedPages : Nat
  freePages : Nat
  totalMemoryKb : Nat
  usedMemoryKb : Nat
  freeMemoryKb : Nat
  deriving DecidableEq, Repr

def pmmGetStats (s : State) : PmmStats :=
  let totalKb := s.totalPages * pageSize % 2^32 / 1024
  let usedKb := s.usedPages * pageSize % 2^32 / 1024
  ⟨s.totalPages, s.usedPages, u32 ((s.totalPages : Int) - s.usedPages), totalKb, usedKb,
    u32 ((totalKb : Int) - usedKb)⟩

def pmmGetMaxAddress (s : State) : Nat :=
  if s.maxPhysicalAddress < s.totalPages * pageSize then s.maxPhysicalAddress % 2^32
  else s.totalPages * pageSize % 2^32

/-- The entry points after `pmm_init`. -/
inductive PmmCall
  | alloc
  | free (ptr : Nat)
  | markUsed (ptr : Nat)
  | markFree (ptr : Nat)
  deriving DecidableEq, Repr

def PmmCall.apply : PmmCall → State → State
  | .alloc, s => (pmmAllocPage s).2
  | .free ptr, s => pmmFreePage ptr s
  | .markUsed ptr, s => pmmMarkUsed ptr s
  | .markFree ptr, s => pmmMarkFree ptr s

end OpenOS.Pmm

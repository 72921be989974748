import OpenOS.Memory.Pmm
import OpenOS.Lib.Bits

/-! The virtual memory manager of `memory/vmm.c`. Directories and page tables live in
physical memory, which the code reaches identity-mapped; memory is a map from the 4-aligned
byte addresses it writes to their 32-bit words. A directory at `dir` holds the hardware
`entries[1024]` at `dir` and the software `tables[1024]` pointers at `dir + 4096`; a page
table at `pt` holds its `entries[1024]` at `pt`. Frames come from the PMM model. TLB flushes
and the `CR3` load change nothing the model reads. -/
namespace OpenOS.Vmm

def pageSize : Nat := 4096
def pageTableEntries : Nat := 1024
def pageDirEntries : Nat := 1024

def ptePresent : Nat := 1
def pteWritable : Nat := 2
def pteUser : Nat := 4

structure State where
  mem : Nat → Nat
  pmm : Pmm.State
  currentDirectory : Nat
  kernelDirectory : Nat

/-- `PD_INDEX`. -/
def pdIndex (addr : Nat) : Nat := (addr % 2^32) >>> 22 &&& 0x3FF
/-- `PT_INDEX`. -/
def ptIndex (addr : Nat) : Nat := (addr % 2^32) >>> 12 &&& 0x3FF
/-- `PAGE_ALIGN`. -/
def pageAlign (addr : Nat) : Nat := addr % 2^32 &&& 0xFFFFF000

theorem pdIndex_eq (addr : Nat) : pdIndex addr = addr % 2^32 / 2^22 % 1024 := by
  rw [pdIndex, show (0x3FF : Nat) = 2^10 - 1 from rfl, Bits.shiftRight_and_two_pow_sub_one]
  rfl

theorem ptIndex_eq (addr : Nat) : ptIndex addr = addr % 2^32 / 2^12 % 1024 := by
  rw [ptIndex, show (0x3FF : Nat) = 2^10 - 1 from rfl, Bits.shiftRight_and_two_pow_sub_one]
  rfl

theorem and_frameMask (x : Nat) : x &&& 0xFFFFF000 = x % 2^32 / 4096 * 4096 :=
  Bits.and_two_pow_sub_two_pow x (k := 12) (n := 32) (by decide)

theorem and_offsetMask (x : Nat) : x &&& 0xFFF = x % 4096 :=
  Nat.and_two_pow_sub_one_eq_mod x 12

/-- `&dir->entries[i]`. -/
def dirEntry (dir i : Nat) : Nat := dir + 4 * i
/-- `&dir->tables[i]`. -/
def dirTable (dir i : Nat) : Nat := dir + 4 * pageDirEntries + 4 * i
/-- `&pt->entries[i]`. -/
def tableEntry (pt i : Nat) : Nat := pt + 4 * i

def write (mem : Nat → Nat) (a v : Nat) : Nat → Nat := Function.update mem a v

/-- The loop of `get_page_table` that zeroes a fresh table. -/
def clearTable (mem : Nat → Nat) (pt : Nat) : Nat → Nat :=
  (List.range pageTableEntries).foldl (fun mem i => write mem (tableEntry pt i) 0) mem

/-- The loop that clears a fresh directory: both arrays. -/
def clearDirectory (mem : Nat → Nat) (dir : Nat) : Nat → Nat :=
  (List.range pageDirEntries).foldl (fun mem i => write (write mem (dirEntry dir i) 0) (dirTable dir i) 0) mem

/-- `get_page_table`: the table of `virt`'s directory slot, created from a fresh frame when
`create` is set. A `NULL` from `pmm_alloc_page` still leaves the PMM as that call left it. -/
def getPageTable (dir virt : Nat) (create : Bool) (s : State) : Option Nat × State :=
  let pdIdx := pdIndex virt
  if s.mem (dirTable dir pdIdx) ≠ 0 then (some (s.mem (dirTable dir pdIdx)), s)
  else if create then
    let frame := Pmm.pmmAllocPage s.pmm
    if frame.1 = 0 then (none, { s with pmm := frame.2 })
    else
      let mem := write (clearTable s.mem frame.1) (dirTable dir pdIdx) frame.1
      -- the directory entry lets the table decide user access
      let mem := write mem (dirEntry dir pdIdx)
        (frame.1 &&& 0xFFFFF000 ||| ptePresent ||| pteWritable ||| pteUser)
      (some frame.1, { s with mem := mem, pmm := frame.2 })
  else (none, s)

/-- `sizeof(struct page_directory)` on i386: 1024 entries and 1024 pointers of 4 bytes. -/
def directorySize : Nat := 4 * pageDirEntries + 4 * pageDirEntries

def dirPages : Nat := (directorySize + pageSize - 1) / pageSize

/-- The loop that claims the rest of a directory's pages, each one the page after the last;
`false` when the PMM breaks the run. -/
def claimContiguous : Nat → Nat → Pmm.State → Bool × Pmm.State
  | 0, _, pmm => (true, pmm)
  | n + 1, expect, pmm =>
    let p := Pmm.pmmAllocPage pmm
    if p.1 ≠ expect then (false, p.2) else claimContiguous n ((p.1 + pageSize) % 2^32) p.2

/-- The block that `vmm_init` and `vmm_create_directory` share: the directory's frames, `0`
when the PMM has none or no contiguous run. -/
def allocDirectory (pmm : Pmm.State) : Nat × Pmm.State :=
  let first := Pmm.pmmAllocPage pmm
  if first.1 = 0 then (0, first.2)
  else
    let rest := claimContiguous (dirPages - 1) ((first.1 + pageSize) % 2^32) first.2
    if rest.1 then (first.1, rest.2) else (0, rest.2)

def vmmCreateDirectory (s : State) : Nat × State :=
  let dir := allocDirectory s.pmm
  if dir.1 = 0 then (0, { s with pmm := dir.2 })
  else (dir.1, { s with mem := clearDirectory s.mem dir.1, pmm := dir.2 })

/-- Frees every table and the directory's first page. -/
def vmmDestroyDirectory (dir : Nat) (s : State) : State :=
  if dir = 0 then s
  else
    let pmm := (List.range pageDirEntries).foldl (fun pmm i =>
      if s.mem (dirTable dir i) ≠ 0 then Pmm.pmmFreePage (s.mem (dirTable dir i)) pmm else pmm) s.pmm
    { s with pmm := Pmm.pmmFreePage dir pmm }

def vmmSwitchDirectory (dir : Nat) (s : State) : State :=
  if dir = 0 then s else { s with currentDirectory := dir }

/-- A `NULL` directory means the current one. -/
def resolve (dir : Nat) (s : State) : Nat := if dir = 0 then s.currentDirectory else dir

def vmmMapPage (dir virt phys flags : Nat) (s : State) : Nat × State :=
  let dir := resolve dir s
  match getPageTable dir virt true s with
  | (none, s) => (0, s)
  | (some pt, s) =>
    (1, { s with mem := write s.mem (tableEntry pt (ptIndex virt)) (phys &&& 0xFFFFF000 ||| flags &&& 0xFFF) })

def vmmUnmapPage (dir virt : Nat) (s : State) : State :=
  let dir := resolve dir s
  match (getPageTable dir virt false s).1 with
  | none => s
  | some pt => { s with mem := write s.mem (tableEntry pt (ptIndex virt)) 0 }

def vmmGetPhysical (dir virt : Nat) (s : State) : Nat :=
  let dir := resolve dir s
  match (getPageTable dir virt false s).1 with
  | none => 0
  | some pt =>
    let pte := s.mem (tableEntry pt (ptIndex virt))
    if pte &&& ptePresent = 0 then 0 else pte &&& 0xFFFFF000 ||| virt % 2^32 &&& 0xFFF

/-- `vmm_identity_map_region`: every page from `PAGE_ALIGN(start)` up to the rounded end, in
32-bit arithmetic. The end is page aligned, so the cursor meets it exactly. -/
def vmmIdentityMapRegion (dir start size flags : Nat) (s : State) : State :=
  let dir := resolve dir s
  let virt := pageAlign start
  let stop := (start % 2^32 + size + pageSize - 1) % 2^32 &&& 0xFFFFF000
  (List.range' virt ((stop - virt) / pageSize) pageSize).foldl
    (fun s a => (vmmMapPage dir a a flags s).2) s

def vmmMapRegion (dir virt phys size flags : Nat) (s : State) : State :=
  let dir := resolve dir s
  let virtAddr := pageAlign virt
  let physAddr := pageAlign phys
  let stop := (virt % 2^32 + size + pageSize - 1) % 2^32 &&& 0xFFFFF000
  (List.range ((stop - virtAddr) / pageSize)).foldl
    (fun s k => (vmmMapPage dir (virtAddr + k * pageSize) ((physAddr + k * pageSize) % 2^32) flags s).2) s

/-- `vmm_init`: the kernel directory, all RAM identity-mapped between 4 MiB and 64 MiB, and the
directory made current. -/
def vmmInit (s : State) : State :=
  let dir := allocDirectory s.pmm
  if dir.1 = 0 then { s with pmm := dir.2 }
  else
    let s := { s with mem := clearDirectory s.mem dir.1, pmm := dir.2, kernelDirectory := dir.1 }
    let ramEnd := Pmm.pmmGetMaxAddress s.pmm
    let ramEnd := if ramEnd < 0x400000 then 0x400000 else ramEnd
    let ramEnd := if ramEnd > 0x4000000 then 0x4000000 else ramEnd
    let s := vmmIdentityMapRegion dir.1 0 ramEnd (ptePresent ||| pteWritable ||| pteUser) s
    vmmSwitchDirectory dir.1 { s with currentDirectory := dir.1 }

end OpenOS.Vmm

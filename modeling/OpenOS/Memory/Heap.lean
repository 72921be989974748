import Mathlib

/-! The kernel heap of `memory/heap.c`: a first-fit free list whose block headers live in
the arena itself. Memory is seen at header granularity, `header a` being the
`block_header_t` stored at address `a`; payload bytes are not modelled. `size_t` is 32 bits
wide on the target, so the size arithmetic that can overflow goes through `sizeT`. -/
namespace OpenOS.Heap

/-- `sizeof(block_header_t)` on the 32-bit target: `size`, `free`, `next`, `prev`. -/
def headerSize : Nat := 16
def minPayload : Nat := 16
/-- `sizeof(default_heap)`. -/
def defaultHeapSize : Nat := 65536

/-- A `size_t` computed from an integer expression: wraps modulo 2^32. -/
def sizeT (x : Int) : Nat := (x % 2^32).toNat

/-- `HEAP_ALIGN(n, a)`, that is `(n + a - 1) & ~(a - 1)` in `size_t`. -/
def heapAlign (n a : Nat) : Nat := sizeT ((n : Int) + a - 1) &&& (2^32 - 1 - sizeT ((a : Int) - 1))

structure BlockHeader where
  size : Nat
  free : Bool
  next : Option Nat
  prev : Option Nat
  deriving DecidableEq, Repr

structure State where
  /-- Address of the static `default_heap` array. -/
  defaultHeap : Nat
  heapBase : Nat
  heapSize : Nat
  heapHead : Option Nat
  header : Nat → BlockHeader

/-- The heap before `heap_init`: the static arena, no block list yet, arbitrary memory. -/
def boot (defaultHeap : Nat) (memory : Nat → BlockHeader) : State :=
  ⟨defaultHeap, defaultHeap, defaultHeapSize, none, memory⟩

/-- Store a header at address `a`. -/
def State.write (h : State) (a : Nat) (v : BlockHeader) : State :=
  { h with header := Function.update h.header a v }

@[simp] theorem write_header_self (h : State) (a : Nat) (v : BlockHeader) :
    (h.write a v).header a = v := by simp [State.write]

@[simp] theorem write_header_other (h : State) {a b : Nat} (v : BlockHeader) (ne : b ≠ a) :
    (h.write a v).header b = h.header b := by simp [State.write, ne]

@[simp] theorem write_heapBase (h : State) (a : Nat) (v : BlockHeader) :
    (h.write a v).heapBase = h.heapBase := rfl
@[simp] theorem write_heapSize (h : State) (a : Nat) (v : BlockHeader) :
    (h.write a v).heapSize = h.heapSize := rfl
@[simp] theorem write_heapHead (h : State) (a : Nat) (v : BlockHeader) :
    (h.write a v).heapHead = h.heapHead := rfl
@[simp] theorem write_defaultHeap (h : State) (a : Nat) (v : BlockHeader) :
    (h.write a v).defaultHeap = h.defaultHeap := rfl

/-- A single free block spanning the whole arena. -/
def heapBuildFreelist (h : State) : State :=
  { h.write h.heapBase ⟨sizeT ((h.heapSize : Int) - headerSize), true, none, none⟩ with
    heapHead := some h.heapBase }

def heapInit (start size : Nat) (h : State) : State :=
  if start = 0 ∨ size ≤ headerSize + minPayload then
    -- fall back to the static arena on a bad request
    heapBuildFreelist { h with heapBase := h.defaultHeap, heapSize := defaultHeapSize }
  else heapBuildFreelist { h with heapBase := start, heapSize := size }

/-- Split `blk` so that it holds exactly `want` bytes, the leftover becoming a free block. -/
def blockSplit (blk want : Nat) (h : State) : State :=
  let b := h.header blk
  if b.size < sizeT (want + headerSize + minPayload : Nat) then h
  else
    let rest := blk + headerSize + want
    let h := h.write rest ⟨sizeT ((b.size : Int) - want - headerSize), true, b.next, some blk⟩
    let h := match b.next with
      | some n => h.write n { h.header n with prev := some rest }
      | none => h
    h.write blk { h.header blk with size := want, next := some rest }

/-- The addresses met by following `next` from `x`, at most `fuel` of them. -/
def walk (header : Nat → BlockHeader) : Nat → Option Nat → List Nat
  | 0, _ => []
  | _ + 1, none => []
  | fuel + 1, some a => a :: walk header fuel (header a).next

/-- The block list from `heap_head`. Every block spans at least a header, so `heapSize`
steps reach its end. -/
def State.blocks (h : State) : List Nat := walk h.header h.heapSize h.heapHead

def kmallocAligned (size alignment : Nat) (h : State) : Option Nat × State :=
  let h := if h.heapHead = none then heapBuildFreelist h else h
  if size = 0 then (none, h)
  else
    let alignment := if alignment < 8 then 8 else alignment
    let want := heapAlign size alignment
    -- first fit along the block list
    match h.blocks.find? (fun blk => (h.header blk).free && decide (want ≤ (h.header blk).size)) with
    | none => (none, h)
    | some blk =>
      let h := blockSplit blk want h
      (some (blk + headerSize), h.write blk { h.header blk with free := false })

def kmalloc (size : Nat) (h : State) : Option Nat × State := kmallocAligned size 8 h

/-- Merge a free block with a free successor. -/
def blockCoalesce (blk : Nat) (h : State) : State :=
  match (h.header blk).next with
  | none => h
  | some nxt =>
    let n := h.header nxt
    if n.free then
      let h := h.write blk { h.header blk with
        size := sizeT ((h.header blk).size + headerSize + n.size : Nat), next := n.next }
      match n.next with
      | some after => h.write after { h.header after with prev := some blk }
      | none => h
    else h

def kfree (ptr : Nat) (h : State) : State :=
  if ptr = 0 then h
  else
    let blk := ptr - headerSize
    let h := h.write blk { h.header blk with free := true }
    -- coalesce forward, then backward
    let h := blockCoalesce blk h
    match (h.header blk).prev with
    | some p => if (h.header p).free then blockCoalesce p h else h
    | none => h

structure HeapStats where
  totalPayload : Nat
  usedPayload : Nat
  freePayload : Nat
  blockCount : Nat
  deriving DecidableEq, Repr

/-- One iteration of the loop of `heap_get_stats`, at block `blk`. -/
def statsStep (header : Nat → BlockHeader) (st : HeapStats) (blk : Nat) : HeapStats :=
  let b := header blk
  { totalPayload := sizeT (st.totalPayload + b.size : Nat),
    usedPayload := if b.free then st.usedPayload else sizeT (st.usedPayload + b.size : Nat),
    freePayload := if b.free then sizeT (st.freePayload + b.size : Nat) else st.freePayload,
    blockCount := sizeT (st.blockCount + 1 : Nat) }

def heapGetStats (h : State) : HeapStats := h.blocks.foldl (statsStep h.header) ⟨0, 0, 0, 0⟩

/-- The heap entry points, as a client calls them. -/
inductive HeapCall
  | init (start size : Nat)
  | alloc (size alignment : Nat)
  | free (ptr : Nat)
  deriving DecidableEq, Repr

def HeapCall.apply : HeapCall → State → State
  | .init start size, h => heapInit start size h
  | .alloc size alignment, h => (kmallocAligned size alignment h).2
  | .free ptr, h => kfree ptr h

end OpenOS.Heap

import OpenOS.Memory.Heap
import OpenOS.Lib.Tiling

/-! The block list of a heap state as a tiling of its arena, and the relation that threads
it through the headers in memory. `WellFormed h bs` is the representation invariant of
`heap.c`: the headers reachable from `heap_head` are exactly the blocks `bs`. -/
namespace OpenOS.Heap

open Tiling

/-- The arena lies in the 32-bit address space, above the null page. -/
def ArenaOk (base size : Nat) : Prop := 4096 ≤ base ∧ base + size ≤ 2^32

/-- `bs` is threaded through the headers: each block's header holds its size and free flag,
the address of its successor (`last` after the final block) and that of its predecessor. -/
def Linked (header : Nat → BlockHeader) : Option Nat → List Block → Option Nat → Prop
  | _, [], _ => True
  | prev, b :: rest, last =>
    header b.addr = ⟨b.size, b.free, (rest.head?.map Block.addr).or last, prev⟩ ∧
      Linked header (some b.addr) rest last

structure WellFormed (h : State) (bs : List Block) : Prop where
  head : h.heapHead = bs.head?.map Block.addr
  linked : Linked h.header none bs none
  tiles : Tiles headerSize h.heapBase bs (h.heapBase + h.heapSize)
  coalesced : Coalesced bs
  nonempty : bs ≠ []
  arena : ArenaOk h.heapBase h.heapSize
  fallback : ArenaOk h.defaultHeap defaultHeapSize

variable {header header' : Nat → BlockHeader} {prev last : Option Nat}

@[simp] theorem linked_nil : Linked header prev [] last ↔ True := Iff.rfl

@[simp] theorem linked_cons {b : Block} {rest : List Block} :
    Linked header prev (b :: rest) last ↔
      header b.addr = ⟨b.size, b.free, (rest.head?.map Block.addr).or last, prev⟩ ∧
        Linked header (some b.addr) rest last := Iff.rfl

theorem linked_append {xs ys : List Block} :
    Linked header prev (xs ++ ys) last ↔
      Linked header prev xs ((ys.head?.map Block.addr).or last) ∧
        Linked header ((xs.getLast?.map Block.addr).or prev) ys last := by
  induction xs generalizing prev with
  | nil => simp
  | cons b xs ih =>
    cases xs with
    | nil => simp
    | cons c xs =>
      obtain ⟨l, hl⟩ : ∃ l, (c :: xs).getLast? = some l :=
        ⟨_, List.getLast?_eq_some_getLast (List.cons_ne_nil c xs)⟩
      rw [List.cons_append, linked_cons, ih, linked_cons, List.getLast?_cons_cons, hl]
      simp [and_assoc]

theorem Linked.frame {bs : List Block} (linked : Linked header prev bs last)
    (agree : ∀ c ∈ bs, header' c.addr = header c.addr) : Linked header' prev bs last := by
  induction bs generalizing prev with
  | nil => trivial
  | cons b rest ih =>
    obtain ⟨atB, tail⟩ := linked
    refine ⟨(agree b (by simp)).trans atB, ih tail (fun c member => agree c (by simp [member]))⟩

theorem Linked.reprev {c : Block} {cs : List Block} {prev' : Option Nat}
    (linked : Linked header prev (c :: cs) last)
    (atHead : header' c.addr = { header c.addr with prev := prev' })
    (agree : ∀ d ∈ cs, header' d.addr = header d.addr) : Linked header' prev' (c :: cs) last := by
  obtain ⟨atC, tail⟩ := linked
  exact ⟨by rw [atHead, atC], tail.frame agree⟩

theorem Linked.header_mem {bs : List Block} (linked : Linked header prev bs last) {b : Block}
    (member : b ∈ bs) : (header b.addr).size = b.size ∧ (header b.addr).free = b.free := by
  induction bs generalizing prev with
  | nil => simp at member
  | cons c rest ih =>
    obtain ⟨atC, tail⟩ := linked
    rcases List.mem_cons.mp member with rfl | member
    · simp [atC]
    · exact ih tail member

theorem walk_linked {bs : List Block} (linked : Linked header prev bs none) (fuel : Nat)
    (enough : bs.length ≤ fuel) : walk header fuel (bs.head?.map Block.addr) = bs.map Block.addr := by
  induction bs generalizing prev fuel with
  | nil => cases fuel <;> rfl
  | cons b rest ih =>
    obtain ⟨atB, tail⟩ := linked
    obtain ⟨fuel, rfl⟩ : ∃ f, fuel = f + 1 := ⟨fuel - 1, by simp at enough; omega⟩
    simp only [walk, atB, Option.or_none, List.map_cons, List.head?_cons, Option.map_some]
    rw [ih tail fuel (by simp at enough; omega)]

theorem tiles_length {hdr lo hi : Nat} {bs : List Block} (h : Tiles hdr lo bs hi) :
    lo + hdr * bs.length ≤ hi := by
  induction bs generalizing lo with
  | nil => simp [show lo = hi from h]
  | cons b rest ih =>
    have := ih h.2
    simp only [List.length_cons, Nat.mul_succ]
    omega

namespace WellFormed

variable {h : State} {bs : List Block}

theorem blocks_eq (wf : WellFormed h bs) : h.blocks = bs.map Block.addr := by
  rw [State.blocks, wf.head]
  apply walk_linked wf.linked
  have := tiles_length wf.tiles
  simp only [headerSize] at this
  omega

theorem mem_bounds (wf : WellFormed h bs) {b : Block} (member : b ∈ bs) :
    h.heapBase ≤ b.addr ∧ b.addr + headerSize + b.size ≤ h.heapBase + h.heapSize :=
  tiles_mem wf.tiles member

theorem header_mem (wf : WellFormed h bs) {b : Block} (member : b ∈ bs) :
    (h.header b.addr).size = b.size ∧ (h.header b.addr).free = b.free :=
  wf.linked.header_mem member

theorem size_lt (wf : WellFormed h bs) {b : Block} (member : b ∈ bs) :
    b.size + headerSize + 4096 ≤ 2^32 := by
  have := wf.mem_bounds member
  have := wf.arena
  simp only [ArenaOk] at this
  omega

end WellFormed

theorem sizeT_natCast {n : Nat} (lt : n < 2^32) : sizeT n = n := by
  unfold sizeT
  rw [Int.emod_eq_of_lt (by omega) (by omega)]
  simp

end OpenOS.Heap

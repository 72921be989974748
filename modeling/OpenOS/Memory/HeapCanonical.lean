import OpenOS.Memory.HeapInvariant

/-! The heap is canonical: on a well-formed heap, the block list seen from `heap_head`
(addresses and whole headers) is determined by the arena and the live allocations. So
allocations undone by frees, in any order, give back the heap they started from. -/
namespace OpenOS.Heap

open Tiling

/-- The block list as the code walks it: each block's address and header. -/
def State.view (h : State) : List (Nat × BlockHeader) := h.blocks.map (fun a => (a, h.header a))

/-- The live allocations: payload pointer and payload size of every used block. -/
def State.live (h : State) : List (Nat × Nat) :=
  (h.blocks.filter (fun a => !(h.header a).free)).map (fun a => (a + headerSize, (h.header a).size))

/-- The headers that thread `bs`, the first one with `prev`. -/
def thread (prev : Option Nat) : List Block → List (Nat × BlockHeader)
  | [] => []
  | b :: rest => (b.addr, ⟨b.size, b.free, rest.head?.map Block.addr, prev⟩) :: thread (some b.addr) rest

theorem Linked.map_eq_thread {header : Nat → BlockHeader} {prev : Option Nat} {bs : List Block}
    (linked : Linked header prev bs none) :
    bs.map (fun b => (b.addr, header b.addr)) = thread prev bs := by
  induction bs generalizing prev with
  | nil => rfl
  | cons b rest ih =>
    obtain ⟨atB, tail⟩ := linked
    simp only [List.map_cons, thread, atB, Option.or_none, ih tail]

section

variable {h : State} {bs : List Block}

theorem WellFormed.view_eq (wf : WellFormed h bs) : h.view = thread none bs := by
  rw [State.view, wf.blocks_eq, List.map_map]
  exact wf.linked.map_eq_thread

theorem WellFormed.live_eq (wf : WellFormed h bs) :
    h.live = (used bs).map (fun b => (b.addr + headerSize, b.size)) := by
  rw [State.live, wf.blocks_eq, List.filter_map, List.map_map, used]
  have sameFilter : bs.filter ((fun a => !(h.header a).free) ∘ Block.addr) = bs.filter (fun b => !b.free) :=
    List.filter_congr (fun b member => by simp [(wf.header_mem member).2])
  rw [sameFilter]
  exact List.map_congr_left (fun b member => by simp [(wf.header_mem (List.mem_of_mem_filter member)).1])

/-- A used block is known from its payload pointer and size. -/
theorem mem_used_iff (wf : WellFormed h bs) (b : Block) :
    b ∈ used bs ↔ b.free = false ∧ (b.addr + headerSize, b.size) ∈ h.live := by
  rw [wf.live_eq]
  constructor
  · intro member
    exact ⟨by simpa [used] using (List.mem_filter.mp member).2, List.mem_map_of_mem member⟩
  · rintro ⟨free, member⟩
    obtain ⟨c, cMem, same⟩ := List.mem_map.mp member
    simp only [Prod.mk.injEq, Nat.add_right_cancel_iff] at same
    have cFree : c.free = false := by simpa [used] using (List.mem_filter.mp cMem).2
    have : c = b := by
      obtain ⟨addr, size, cf⟩ := c
      cases cFree
      obtain ⟨rfl, rfl⟩ := same
      cases b
      simp_all
    exact this ▸ cMem

end

theorem view_eq_of_live {h₁ h₂ : State} {bs₁ bs₂ : List Block} (wf₁ : WellFormed h₁ bs₁)
    (wf₂ : WellFormed h₂ bs₂) (base : h₁.heapBase = h₂.heapBase) (size : h₁.heapSize = h₂.heapSize)
    (live : ∀ x, x ∈ h₁.live ↔ x ∈ h₂.live) : h₁.heapHead = h₂.heapHead ∧ h₁.view = h₂.view := by
  have sameUsed : ∀ b, b ∈ used bs₁ ↔ b ∈ used bs₂ := fun b => by
    rw [mem_used_iff wf₁, mem_used_iff wf₂, live]
  have tiles₂ := wf₂.tiles
  rw [← base, ← size] at tiles₂
  have listEq : bs₁ = bs₂ :=
    tiling_canonical (by decide) wf₁.tiles tiles₂ wf₁.coalesced wf₂.coalesced sameUsed
  subst listEq
  exact ⟨by rw [wf₁.heapHead_eq, wf₂.heapHead_eq, base], by rw [wf₁.view_eq, wf₂.view_eq]⟩

/-- Freeing what `kmalloc_aligned` just returned gives back the heap. -/
theorem kfree_kmallocAligned {h : State} {bs : List Block} {size alignment p : Nat}
    (wf : WellFormed h bs) (returned : (kmallocAligned size alignment h).1 = some p) :
    (kfree p (kmallocAligned size alignment h).2).heapHead = h.heapHead ∧
      (kfree p (kmallocAligned size alignment h).2).view = h.view := by
  obtain ⟨a, bs', alloc, rfl, wf₁⟩ := kmallocAligned_returned wf returned
  obtain ⟨pre, b, post, rfl, fit, rfl, rfl⟩ := allocate_eq_some alloc
  obtain ⟨leftover, carveEq, leftoverUsed⟩ := carve_cons (rounded size alignment) b
  have wf₂ : WellFormed (kfree (b.addr + headerSize) (kmallocAligned size alignment h).2)
      (release pre (carved (rounded size alignment) b) (leftover ++ post)) := kfree_wellFormed
    (show WellFormed _ (pre ++ carved (rounded size alignment) b :: (leftover ++ post)) by
      simpa [carveEq] using wf₁)
  have bFree : b.free = true := by simp only [fits, Bool.and_eq_true] at fit; exact fit.1
  have arena := (sameArena_kmallocAligned wf size alignment).trans (sameArena_kfree _ (b.addr + headerSize))
  refine view_eq_of_live wf₂ wf arena.heapBase arena.heapSize (fun x => ?_)
  -- the freed block was the only new live one, and the leftover was free
  rw [wf₂.live_eq, wf.live_eq, used_release, used_append, leftoverUsed, used_append, used_cons,
    if_pos bFree]
  rfl

/-- After `kmalloc(100)`, freeing the block of a `kmalloc(50)` gives back the heap. -/
theorem kfree_kmallocAligned_second :
    (kfree 0x100088 (kmallocAligned 50 8 (Runs.run HeapCall.apply [.alloc 100 8] (boot 0x100000 fun _ => ⟨0, false, none, none⟩))).2).heapHead = (Runs.run HeapCall.apply [.alloc 100 8] (boot 0x100000 fun _ => ⟨0, false, none, none⟩)).heapHead ∧
      (kfree 0x100088 (kmallocAligned 50 8 (Runs.run HeapCall.apply [.alloc 100 8] (boot 0x100000 fun _ => ⟨0, false, none, none⟩))).2).view = (Runs.run HeapCall.apply [.alloc 100 8] (boot 0x100000 fun _ => ⟨0, false, none, none⟩)).view := by
  have fallback : ArenaOk 0x100000 defaultHeapSize := by
    unfold ArenaOk defaultHeapSize
    decide
  have reachable : Reachable (Runs.run HeapCall.apply [.alloc 100 8] (boot 0x100000 fun _ => ⟨0, false, none, none⟩)) := ⟨_, _, [.alloc 100 8], fallback, by simp, ⟨trivial, trivial⟩, rfl⟩
  obtain ⟨bs, wf⟩ := reachable.wellFormed
  exact kfree_kmallocAligned wf (by decide)

/-- The heap states the kernel can reach are determined by their arena and their live
allocations: `heap_head` and every header on the block list agree. -/
theorem heap_canonical {h₁ h₂ : State} (reachable₁ : Reachable h₁) (reachable₂ : Reachable h₂)
    (base : h₁.heapBase = h₂.heapBase) (size : h₁.heapSize = h₂.heapSize)
    (live : ∀ x, x ∈ h₁.live ↔ x ∈ h₂.live) : h₁.heapHead = h₂.heapHead ∧ h₁.view = h₂.view := by
  obtain ⟨bs₁, wf₁⟩ := reachable₁.wellFormed
  obtain ⟨bs₂, wf₂⟩ := reachable₂.wellFormed
  exact view_eq_of_live wf₁ wf₂ base size live

/-- `kmalloc(100)` alone, and `kmalloc(100)`, `kmalloc(50)` with the second block freed,
leave the same heap. -/
theorem heap_canonical_after_free :
    let h₁ := Runs.run HeapCall.apply [.alloc 100 8] (boot 0x100000 fun _ => ⟨0, false, none, none⟩)
    let h₂ := Runs.run HeapCall.apply [.alloc 100 8, .alloc 50 8, .free 0x100088]
      (boot 0x100000 fun _ => ⟨0, false, none, none⟩)
    h₁.heapHead = h₂.heapHead ∧ h₁.view = h₂.view := by
  intro h₁ h₂
  have fallback : ArenaOk 0x100000 defaultHeapSize := by
    unfold ArenaOk defaultHeapSize
    decide
  have reachable₁ : Reachable h₁ := ⟨_, _, [.alloc 100 8], fallback, by simp, ⟨trivial, trivial⟩, rfl⟩
  have reachable₂ : Reachable h₂ :=
    ⟨_, _, [.alloc 100 8, .alloc 50 8, .free 0x100088], fallback, by simp,
      ⟨trivial, trivial, ⟨0x100078, by decide, by decide, rfl⟩, trivial⟩, rfl⟩
  have live : h₁.live = h₂.live := by decide
  exact heap_canonical reachable₁ reachable₂ rfl rfl (fun x => by rw [live])

/-- The calls that keep the arena: allocation and free. -/
def HeapCall.Client : HeapCall → Prop
  | .init _ _ => False
  | _ => True

/-- Allocations and frees that end with the live allocations they started with leave
`heap_head` and every header on the block list as they were. -/
theorem run_restores {h : State} {bs : List Block} (wf : WellFormed h bs) {calls : List HeapCall}
    (admissible : Runs.Admissible (fun s c => c.Allowed s ∧ c.Client) HeapCall.apply calls h)
    (live : ∀ x, x ∈ (Runs.run HeapCall.apply calls h).live ↔ x ∈ h.live) :
    (Runs.run HeapCall.apply calls h).heapHead = h.heapHead ∧
      (Runs.run HeapCall.apply calls h).view = h.view := by
  -- the invariant: well formed, on the starting arena
  have kept := Runs.run_invariant
    (fun s => (∃ bs, WellFormed s bs) ∧ s.heapBase = h.heapBase ∧ s.heapSize = h.heapSize)
    (fun s c ⟨⟨bs, wfs⟩, base, sizeEq⟩ ⟨allowed, client⟩ => by
      refine ⟨apply_wellFormed (.inr ⟨bs, wfs⟩) allowed, ?_⟩
      cases c with
      | init start size => exact absurd client id
      | alloc size alignment =>
        have same := sameArena_kmallocAligned wfs size alignment
        exact ⟨same.heapBase.trans base, same.heapSize.trans sizeEq⟩
      | free ptr =>
        have same := sameArena_kfree s ptr
        exact ⟨same.heapBase.trans base, same.heapSize.trans sizeEq⟩)
    ⟨⟨bs, wf⟩, rfl, rfl⟩ admissible
  obtain ⟨⟨bs', wf'⟩, base, size⟩ := kept
  exact view_eq_of_live wf' wf base size live

/-- After `kmalloc(100)`, a `kmalloc(50)` and the free of its block restore the heap. -/
theorem run_restores_alloc_free :
    (Runs.run HeapCall.apply [.alloc 50 8, .free 0x100088]
        (Runs.run HeapCall.apply [.alloc 100 8] (boot 0x100000 fun _ => ⟨0, false, none, none⟩))).heapHead =
      (Runs.run HeapCall.apply [.alloc 100 8] (boot 0x100000 fun _ => ⟨0, false, none, none⟩)).heapHead ∧
    (Runs.run HeapCall.apply [.alloc 50 8, .free 0x100088]
        (Runs.run HeapCall.apply [.alloc 100 8] (boot 0x100000 fun _ => ⟨0, false, none, none⟩))).view =
      (Runs.run HeapCall.apply [.alloc 100 8] (boot 0x100000 fun _ => ⟨0, false, none, none⟩)).view := by
  have fallback : ArenaOk 0x100000 defaultHeapSize := by
    unfold ArenaOk defaultHeapSize
    decide
  have reachable : Reachable (Runs.run HeapCall.apply [.alloc 100 8] (boot 0x100000 fun _ => ⟨0, false, none, none⟩)) :=
    ⟨_, _, [.alloc 100 8], fallback, by simp, ⟨trivial, trivial⟩, rfl⟩
  obtain ⟨bs, wf⟩ := reachable.wellFormed
  have live : (Runs.run HeapCall.apply [.alloc 50 8, .free 0x100088]
      (Runs.run HeapCall.apply [.alloc 100 8] (boot 0x100000 fun _ => ⟨0, false, none, none⟩))).live =
      (Runs.run HeapCall.apply [.alloc 100 8] (boot 0x100000 fun _ => ⟨0, false, none, none⟩)).live := by
    decide
  exact run_restores wf ⟨⟨trivial, trivial⟩, ⟨⟨0x100078, by decide, by decide, rfl⟩, trivial⟩, trivial⟩
    (fun x => by rw [live])

end OpenOS.Heap

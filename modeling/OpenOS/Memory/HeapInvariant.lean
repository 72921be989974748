import Mathlib
import OpenOS.Memory.HeapRefine
import OpenOS.Lib.Run

/-! The representation invariant of `heap.c` holds along every run of its entry points:
after the first call the headers reachable from `heap_head` tile the arena, carry their
neighbours' addresses, and never leave two free blocks side by side. `heap_get_stats` then
reports sums over that block list. -/
namespace OpenOS.Heap

open Tiling

section

variable {h h' : State} {bs bs' : List Block}

theorem WellFormed.heapHead_eq (wf : WellFormed h bs) : h.heapHead = some h.heapBase := by
  rw [wf.head, tiles_head wf.tiles wf.nonempty]

/-- A state that differs from a well-formed one only in memory is well formed when its
headers thread a coalesced tiling of the same arena. -/
theorem WellFormed.update (wf : WellFormed h bs) (same : SameArena h h')
    (linked : Linked h'.header none bs' none)
    (tiles : Tiles headerSize h.heapBase bs' (h.heapBase + h.heapSize))
    (coalesced : Coalesced bs') : WellFormed h' bs' := by
  have nonempty : bs' ≠ [] := by
    rintro rfl
    have least := tiles_length wf.tiles
    have empty : h.heapBase = h.heapBase + h.heapSize := tiles
    have : 1 ≤ bs.length := List.length_pos_iff.mpr wf.nonempty
    simp only [headerSize] at least
    omega
  refine ⟨?_, linked, ?_, coalesced, nonempty, ?_, ?_⟩
  · rw [same.heapHead, wf.heapHead_eq, tiles_head tiles nonempty]
  · rw [same.heapBase, same.heapSize]
    exact tiles
  · rw [same.heapBase, same.heapSize]
    exact wf.arena
  · rw [same.defaultHeap]
    exact wf.fallback

theorem heapBuildFreelist_wellFormed (arena : ArenaOk h.heapBase h.heapSize)
    (room : headerSize ≤ h.heapSize) (fallback : ArenaOk h.defaultHeap defaultHeapSize) :
    WellFormed (heapBuildFreelist h) [⟨h.heapBase, h.heapSize - headerSize, true⟩] := by
  have size : sizeT ((h.heapSize : Int) - headerSize) = h.heapSize - headerSize :=
    sizeT_eq (by omega) (by simp only [ArenaOk] at arena; omega)
  refine ⟨rfl, ?_, ?_, .singleton _, by simp, arena, fallback⟩
  · simp [heapBuildFreelist, size]
  · simp only [heapBuildFreelist, tiles_cons, tiles_nil, write_heapBase, write_heapSize, true_and]
    omega

/-- What `heap_init` may be given: a null or too small region (the static arena is used
then), or a region inside the address space above the null page. -/
def InitOk (start size : Nat) : Prop :=
  start = 0 ∨ size ≤ headerSize + minPayload ∨ ArenaOk start size

theorem heapInit_wellFormed {start size : Nat} (ok : InitOk start size)
    (fallback : ArenaOk h.defaultHeap defaultHeapSize) :
    ∃ bs, WellFormed (heapInit start size h) bs := by
  unfold heapInit
  split
  · exact ⟨_, heapBuildFreelist_wellFormed fallback (show headerSize ≤ defaultHeapSize by decide)
      fallback⟩
  · next good =>
    have arena : ArenaOk start size := by
      rcases ok with bad | bad | arena
      · exact absurd (.inl bad) good
      · exact absurd (.inr bad) good
      · exact arena
    have room : headerSize ≤ size := by simp only [not_or] at good; omega
    exact ⟨_, heapBuildFreelist_wellFormed arena room fallback⟩

/-- The payload size `kmalloc_aligned` looks for. -/
def rounded (size alignment : Nat) : Nat := heapAlign size (if alignment < 8 then 8 else alignment)

theorem find_blocks (wf : WellFormed h bs) (want : Nat) :
    h.blocks.find? (fun blk => (h.header blk).free && decide (want ≤ (h.header blk).size)) =
      (bs.find? (fits want)).map Block.addr := by
  rw [wf.blocks_eq, List.find?_map]
  congr 1
  apply List.find?_congr
  intro b member
  obtain ⟨size, free⟩ := wf.header_mem member
  simp [fits, size, free]

theorem kmallocAligned_eq (wf : WellFormed h bs) (size alignment : Nat) :
    kmallocAligned size alignment h =
      if size = 0 then (none, h)
      else match (bs.find? (fits (rounded size alignment))).map Block.addr with
        | none => (none, h)
        | some blk =>
          (some (blk + headerSize),
            (blockSplit blk (rounded size alignment) h).write blk
              { (blockSplit blk (rounded size alignment) h).header blk with free := false }) := by
  simp only [kmallocAligned, wf.heapHead_eq, reduceCtorEq, if_false]
  rw [← find_blocks wf]
  rfl

theorem kmallocAligned_none {size alignment : Nat} (wf : WellFormed h bs)
    (fail : size = 0 ∨ allocate (rounded size alignment) bs = none) :
    kmallocAligned size alignment h = (none, h) := by
  rw [kmallocAligned_eq wf]
  split
  · rfl
  · next nonzero =>
    have fail : allocate (rounded size alignment) bs = none := fail.resolve_left nonzero
    cases found : bs.find? (fits (rounded size alignment)) with
    | none => rfl
    | some b =>
      obtain ⟨_, _, _, carved⟩ := allocate_of_find found
      rw [carved] at fail
      contradiction

/-- `kmalloc_aligned` carves the block that `allocate` carves and returns its payload. -/
theorem kmallocAligned_some {size alignment a : Nat} (wf : WellFormed h bs) (nonzero : size ≠ 0)
    (alloc : allocate (rounded size alignment) bs = some (a, bs')) :
    (kmallocAligned size alignment h).1 = some (a + headerSize) ∧
      WellFormed (kmallocAligned size alignment h).2 bs' := by
  have hdr : headerSize = 16 := rfl
  have pay : minPayload = 16 := rfl
  set want := rounded size alignment with wantEq
  obtain ⟨b, found⟩ : ∃ b, bs.find? (fits want) = some b := by
    cases found : bs.find? (fits want) with
    | none => rw [allocate_of_find_none found] at alloc; contradiction
    | some b => exact ⟨b, rfl⟩
  obtain ⟨pre, post, split, carved⟩ := allocate_of_find found
  rw [carved] at alloc
  obtain ⟨rfl, rfl⟩ := Prod.mk.inj (Option.some.inj alloc)
  have fit := List.find?_some found
  simp only [fits, Bool.and_eq_true, decide_eq_true_eq] at fit
  obtain ⟨free, enough⟩ := fit
  subst split
  have member : b ∈ pre ++ b :: post := by simp
  obtain ⟨atSize, atFree⟩ := wf.header_mem member
  have small := wf.size_lt member
  simp only [kmallocAligned_eq wf, if_neg nonzero]
  rw [← wantEq, found, Option.map_some]
  dsimp only
  refine ⟨rfl, ?_⟩
  have tilesMid : Tiles headerSize h.heapBase (pre ++ carve want b ++ post) (h.heapBase + h.heapSize) :=
    tiles_middle (show Tiles headerSize _ (pre ++ [b] ++ post) _ by simpa using wf.tiles)
      (fun _ _ single => tiles_carve single)
  have coalesced : Coalesced (pre ++ carve want b ++ post) := coalesced_carve wf.coalesced free
  by_cases short : b.size < want + headerSize + minPayload
  · -- too small to split: the block is handed out whole
    rw [blockSplit_of_lt (by rw [atSize]; exact short) (by omega)]
    have linked := linked_setFree false wf.linked wf.tiles
    have listEq : pre ++ carve want b ++ post = pre ++ { b with free := false } :: post := by
      simp [carve, short]
    rw [listEq] at tilesMid coalesced ⊢
    exact wf.update (.write _ _ _) linked tilesMid coalesced
  · -- split: the leftover becomes a free block after the returned one
    have room : want + headerSize + minPayload ≤ b.size := by omega
    have split := blockSplit_linked wf.linked wf.tiles room (by omega)
    have listEq : pre ++ carve want b ++ post =
        pre ++ { (⟨b.addr, want, b.free⟩ : Block) with free := false } ::
          ⟨b.addr + headerSize + want, b.size - want - headerSize, true⟩ :: post := by
      simp [carve, short]
    rw [listEq] at tilesMid coalesced ⊢
    have tilesSplit : Tiles headerSize h.heapBase (pre ++ ⟨b.addr, want, b.free⟩ ::
        ⟨b.addr + headerSize + want, b.size - want - headerSize, true⟩ :: post)
        (h.heapBase + h.heapSize) := tiles_setFree.mp tilesMid
    have linked := linked_setFree false (by simpa using split) tilesSplit
    exact wf.update ((sameArena_blockSplit h b.addr want).trans (.write _ _ _)) linked tilesMid
      coalesced

theorem sameArena_kmallocAligned (wf : WellFormed h bs) (size alignment : Nat) :
    SameArena h (kmallocAligned size alignment h).2 := by
  rw [kmallocAligned_eq wf]
  split
  · exact .refl h
  · split
    · exact .refl h
    · exact (sameArena_blockSplit _ _ _).trans (.write _ _ _)

theorem sameArena_kfree (h : State) (ptr : Nat) : SameArena h (kfree ptr h) := by
  have first := (SameArena.write h (ptr - headerSize)
    { h.header (ptr - headerSize) with free := true }).trans (sameArena_blockCoalesce _ (ptr - headerSize))
  dsimp only [kfree]
  split
  · exact .refl h
  · split
    · split
      · exact first.trans (sameArena_blockCoalesce _ _)
      · exact first
    · exact first

theorem kmallocAligned_wellFormed (wf : WellFormed h bs) (size alignment : Nat) :
    ∃ bs', WellFormed (kmallocAligned size alignment h).2 bs' := by
  by_cases nonzero : size = 0
  · exact ⟨bs, by rw [kmallocAligned_none wf (.inl nonzero)]; exact wf⟩
  · cases alloc : allocate (rounded size alignment) bs with
    | none => exact ⟨bs, by rw [kmallocAligned_none wf (.inr alloc)]; exact wf⟩
    | some r => exact ⟨r.2, (kmallocAligned_some wf nonzero alloc).2⟩

/-- A pointer from `kmalloc_aligned` comes from a successful `allocate`. -/
theorem kmallocAligned_returned {size alignment p : Nat} (wf : WellFormed h bs)
    (returned : (kmallocAligned size alignment h).1 = some p) :
    ∃ a bs', allocate (rounded size alignment) bs = some (a, bs') ∧ p = a + headerSize ∧
      WellFormed (kmallocAligned size alignment h).2 bs' := by
  have nonzero : size ≠ 0 := by
    intro zero
    rw [kmallocAligned_none wf (.inl zero)] at returned
    contradiction
  cases alloc : allocate (rounded size alignment) bs with
  | none =>
    rw [kmallocAligned_none wf (.inr alloc)] at returned
    contradiction
  | some r =>
    obtain ⟨pointer, wf'⟩ := kmallocAligned_some wf nonzero alloc
    exact ⟨r.1, r.2, rfl, Option.some.inj (returned.symm.trans pointer), wf'⟩

/-- `kmalloc(0xFFFFFFF9)` on the static arena: the rounding wraps to 0, and a non-null
pointer to a block of 0 bytes comes back; the next block's header sits at that pointer. -/
theorem kmalloc_wrapped_request :
    (kmalloc 0xFFFFFFF9 (boot 0x100000 fun _ => ⟨0, false, none, none⟩)).1 = some 0x100010 ∧
      ((kmalloc 0xFFFFFFF9 (boot 0x100000 fun _ => ⟨0, false, none, none⟩)).2.header 0x100000).size = 0 ∧
      (kmalloc 0xFFFFFFF9 (boot 0x100000 fun _ => ⟨0, false, none, none⟩)).2.blocks =
        [0x100000, 0x100010] := by
  decide

/-- `kfree` on the payload of a block does what `release` does to the list. -/
theorem kfree_wellFormed {pre post : List Block} {b : Block} (wf : WellFormed h (pre ++ b :: post)) :
    WellFormed (kfree (b.addr + headerSize) h) (release pre b post) := by
  have hdr : headerSize = 16 := rfl
  have bound : h.heapBase + h.heapSize ≤ 2^32 := wf.arena.2
  set h₁ := h.write b.addr { h.header b.addr with free := true }
  set h₂ := blockCoalesce b.addr h₁
  have tiles₁ : Tiles headerSize h.heapBase (pre ++ { b with free := true } :: post)
      (h.heapBase + h.heapSize) := tiles_setFree.mpr wf.tiles
  have linked₁ := linked_setFree true wf.linked wf.tiles
  have linked₂ : Linked h₂.header none (pre ++ absorb { b with free := true } post) none :=
    blockCoalesce_linked linked₁ tiles₁ bound
  have right : Coalesced post := (coalesced_split wf.coalesced).2.tail
  obtain ⟨g, tail, fwd, gAddr, gFree, -, -⟩ := absorb_shape (a := { b with free := true }) rfl right
  have tiles₂ : Tiles headerSize h.heapBase (pre ++ g :: tail) (h.heapBase + h.heapSize) := by
    obtain ⟨x, first, rest⟩ := tiles_append.mp tiles₁
    exact tiles_append.mpr ⟨x, first, fwd ▸ tiles_absorb rest⟩
  rw [fwd] at linked₂
  have same₂ : SameArena h h₂ := (SameArena.write _ _ _).trans (sameArena_blockCoalesce _ _)
  have atB := linked₂.header_eq
  rw [gAddr] at atB
  have unfolded : kfree (b.addr + headerSize) h =
      (h₂.header b.addr).prev.elim h₂ fun p => if (h₂.header p).free then blockCoalesce p h₂ else h₂ := by
    have ptrNe : b.addr + headerSize ≠ 0 := by omega
    simp only [kfree, if_neg ptrNe, Nat.add_sub_cancel]
    -- the match of the source on the back link, as an eliminator on the merged state
    split
    · next p hprev => rw [show (h₂.header b.addr).prev = some p from hprev, Option.elim_some]
    · next hprev => rw [show (h₂.header b.addr).prev = none from hprev, Option.elim_none]
  rw [unfolded, atB]
  rcases List.eq_nil_or_concat' pre with rfl | ⟨pre, p, rfl⟩
  · -- no predecessor: only the forward merge
    rw [release_nil, fwd]
    exact wf.update same₂ linked₂ (by simpa using tiles₂) (fwd ▸ coalesced_release (wf.coalesced : Coalesced ([] ++ b :: post)))
  · have whole : Linked h₂.header none (pre ++ p :: g :: tail) none := by simpa using linked₂
    have atP := whole.header_eq
    have tilesP : Tiles headerSize h.heapBase (pre ++ p :: g :: tail) (h.heapBase + h.heapSize) := by
      simpa using tiles₂
    have coalesced := coalesced_release wf.coalesced
    have tilesR := tiles_release wf.tiles
    rw [release_snoc, fwd] at coalesced tilesR ⊢
    simp only [List.getLast?_append, List.getLast?_singleton, Option.some_or, Option.map_some,
      Option.or_none, atP, Option.elim_some]
    split
    · -- free predecessor: the backward merge
      next pFree =>
      rw [if_pos pFree] at coalesced tilesR
      exact wf.update (same₂.trans (sameArena_blockCoalesce _ _))
        (blockCoalesce_linked whole tilesP bound) tilesR coalesced
    · next pUsed =>
      rw [if_neg pUsed] at coalesced tilesR
      exact wf.update same₂ (by simpa using linked₂) tilesR coalesced

/-- The heap before its first use: no block list yet, and arenas that fit. -/
structure Fresh (h : State) : Prop where
  head : h.heapHead = none
  arena : ArenaOk h.heapBase h.heapSize
  room : headerSize ≤ h.heapSize
  fallback : ArenaOk h.defaultHeap defaultHeapSize

theorem boot_fresh {d : Nat} (memory : Nat → BlockHeader) (fallback : ArenaOk d defaultHeapSize) :
    Fresh (boot d memory) :=
  ⟨rfl, fallback, show headerSize ≤ defaultHeapSize by decide, fallback⟩

theorem kmallocAligned_fresh {size alignment : Nat} (fresh : Fresh h) :
    kmallocAligned size alignment h = kmallocAligned size alignment (heapBuildFreelist h) := by
  have built : (heapBuildFreelist h).heapHead = some h.heapBase := rfl
  simp only [kmallocAligned, fresh.head, built, if_true, reduceCtorEq, if_false]

/-- The calls the kernel makes: `heap_init` on a usable region, any allocation, and `kfree`
of a live pointer, that is the payload of a used block of the list. -/
def HeapCall.Allowed (h : State) : HeapCall → Prop
  | .init start size => InitOk start size
  | .alloc _ _ => True
  | .free ptr => ∃ a ∈ h.blocks, (h.header a).free = false ∧ ptr = a + headerSize

/-- One allowed call, from a fresh or a well-formed heap, leaves it well formed. -/
theorem apply_wellFormed {c : HeapCall} (start : Fresh h ∨ ∃ bs, WellFormed h bs)
    (allowed : c.Allowed h) : ∃ bs, WellFormed (c.apply h) bs := by
  have fallback : ArenaOk h.defaultHeap defaultHeapSize := by
    rcases start with fresh | ⟨bs, wf⟩
    · exact fresh.fallback
    · exact wf.fallback
  cases c with
  | init start size => exact heapInit_wellFormed allowed fallback
  | alloc size alignment =>
    rcases start with fresh | ⟨bs, wf⟩
    · rw [HeapCall.apply, kmallocAligned_fresh fresh]
      exact kmallocAligned_wellFormed (heapBuildFreelist_wellFormed fresh.arena fresh.room fallback) _ _
    · exact kmallocAligned_wellFormed wf _ _
  | free ptr =>
    obtain ⟨a, member, -, rfl⟩ := allowed
    rcases start with fresh | ⟨bs, wf⟩
    · -- a fresh heap has no blocks, so nothing can be freed
      have : h.blocks = [] := by
        rw [State.blocks, fresh.head]
        cases h.heapSize <;> rfl
      simp [this] at member
    · rw [wf.blocks_eq] at member
      obtain ⟨b, bMem, rfl⟩ := List.mem_map.mp member
      obtain ⟨pre, post, rfl⟩ := List.append_of_mem bMem
      exact ⟨_, kfree_wellFormed wf⟩

theorem run_wellFormed_of_wellFormed {calls : List HeapCall} {bs : List Block} (wf : WellFormed h bs)
    (admissible : Runs.Admissible HeapCall.Allowed HeapCall.apply calls h) :
    ∃ bs', WellFormed (Runs.run HeapCall.apply calls h) bs' :=
  Runs.run_invariant (fun h => ∃ bs, WellFormed h bs)
    (fun _ _ start allowed => apply_wellFormed (.inr start) allowed) ⟨bs, wf⟩ admissible

/-- `kmalloc_aligned` rounds the size to the alignment but takes the first block that fits,
wherever it lies. On the static arena at 1 MiB, `kmalloc(8)` leaves the next free block's
header at `0x100018`, so `kmalloc_aligned(16, 16)` returns `0x100028`, which is 8 modulo 16. -/
theorem kmalloc_aligned_misaligned :
    (∃ bs, WellFormed (kmalloc 8 (boot 0x100000 fun _ => ⟨0, false, none, none⟩)).2 bs) ∧
      (kmalloc 8 (boot 0x100000 fun _ => ⟨0, false, none, none⟩)).2.heapBase % 16 = 0 ∧
      (kmallocAligned 16 16 (kmalloc 8 (boot 0x100000 fun _ => ⟨0, false, none, none⟩)).2).1 =
        some 0x100028 ∧ 0x100028 % 16 = 8 := by
  have fallback : ArenaOk 0x100000 defaultHeapSize := ⟨by decide, by decide⟩
  refine ⟨apply_wellFormed (c := .alloc 8 8) (.inl (boot_fresh _ fallback)) trivial, by decide, by decide,
    by decide⟩

/-- The heap states the kernel can be in: those after a nonempty run of allowed calls
from boot, the static arena lying in the address space. -/
def Reachable (h : State) : Prop :=
  ∃ d memory calls, ArenaOk d defaultHeapSize ∧ calls ≠ [] ∧
    Runs.Admissible HeapCall.Allowed HeapCall.apply calls (boot d memory) ∧
    Runs.run HeapCall.apply calls (boot d memory) = h

theorem Reachable.wellFormed (reachable : Reachable h) : ∃ bs, WellFormed h bs := by
  obtain ⟨d, memory, calls, fallback, nonempty, admissible, rfl⟩ := reachable
  obtain ⟨c, calls, rfl⟩ := List.exists_cons_of_ne_nil nonempty
  obtain ⟨allowed, rest⟩ := admissible
  obtain ⟨bs, first⟩ := apply_wellFormed (.inl (boot_fresh memory fallback)) allowed
  rw [Runs.run_cons]
  exact run_wellFormed_of_wellFormed first rest

theorem Reachable.run {calls : List HeapCall} (reachable : Reachable h)
    (admissible : Runs.Admissible HeapCall.Allowed HeapCall.apply calls h) :
    Reachable (Runs.run HeapCall.apply calls h) := by
  obtain ⟨d, memory, first, fallback, nonempty, start, rfl⟩ := reachable
  refine ⟨d, memory, first ++ calls, fallback, by simp [nonempty], ?_, Runs.run_append _ _ _⟩
  exact (Runs.admissible_append _ _ _).mpr ⟨start, admissible⟩

end

/-- What `heap_get_stats` reports for a block list whose sums fit in a `size_t`. -/
def stats (bs : List Block) : HeapStats :=
  ⟨(bs.map Block.size).sum, ((used bs).map Block.size).sum,
    ((bs.filter Block.free).map Block.size).sum, bs.length⟩

theorem foldl_statsStep {header : Nat → BlockHeader} (bs : List Block) (st : HeapStats)
    (agree : ∀ b ∈ bs, (header b.addr).size = b.size ∧ (header b.addr).free = b.free)
    (total : st.totalPayload + (bs.map Block.size).sum < 2^32)
    (count : st.blockCount + bs.length < 2^32)
    (usedLe : st.usedPayload ≤ st.totalPayload) (freeLe : st.freePayload ≤ st.totalPayload) :
    (bs.map Block.addr).foldl (statsStep header) st =
      ⟨st.totalPayload + (stats bs).totalPayload, st.usedPayload + (stats bs).usedPayload,
        st.freePayload + (stats bs).freePayload, st.blockCount + (stats bs).blockCount⟩ := by
  induction bs generalizing st with
  | nil => simp [stats, used]
  | cons b rest ih =>
    obtain ⟨size, free⟩ := agree b (by simp)
    simp only [List.map_cons, List.sum_cons, List.length_cons] at total count
    have restAgree : ∀ c ∈ rest, (header c.addr).size = c.size ∧ (header c.addr).free = c.free :=
      fun c member => agree c (by simp [member])
    -- one iteration adds `b` to the running sums, none of which wraps
    have step : statsStep header st b.addr =
        ⟨st.totalPayload + b.size, if b.free then st.usedPayload else st.usedPayload + b.size,
          if b.free then st.freePayload + b.size else st.freePayload, st.blockCount + 1⟩ := by
      have totalOk : sizeT (st.totalPayload + b.size : Nat) = st.totalPayload + b.size :=
        sizeT_natCast (by omega)
      have usedOk : sizeT (st.usedPayload + b.size : Nat) = st.usedPayload + b.size :=
        sizeT_natCast (by omega)
      have freeOk : sizeT (st.freePayload + b.size : Nat) = st.freePayload + b.size :=
        sizeT_natCast (by omega)
      have countOk : sizeT (st.blockCount + 1 : Nat) = st.blockCount + 1 := sizeT_natCast (by omega)
      simp only [statsStep, size, free, totalOk, usedOk, freeOk, countOk]
    rw [List.map_cons, List.foldl_cons, step, ih _ restAgree (by simp only; omega) (by simp only; omega)
      (by split <;> simp only <;> omega) (by split <;> simp only <;> omega)]
    cases bFree : b.free
    · simp [stats, used_cons, bFree]
      omega
    · simp [stats, used_cons, bFree]
      omega

theorem sum_size_used_add_free (bs : List Block) :
    ((used bs).map Block.size).sum + ((bs.filter Block.free).map Block.size).sum =
      (bs.map Block.size).sum := by
  induction bs with
  | nil => rfl
  | cons b rest ih =>
    cases bFree : b.free
    · simp [used_cons, bFree, ← ih]
      omega
    · simp [used_cons, bFree, ← ih]
      omega

theorem sum_header_add_size (hdr : Nat) (bs : List Block) :
    (bs.map (fun b => hdr + b.size)).sum = hdr * bs.length + (bs.map Block.size).sum := by
  induction bs with
  | nil => rfl
  | cons b rest ih =>
    simp only [List.map_cons, List.sum_cons, List.length_cons, ih, Nat.mul_succ]
    omega

theorem WellFormed.heapGetStats_eq {h : State} {bs : List Block} (wf : WellFormed h bs) :
    heapGetStats h = stats bs := by
  have total := tiles_total wf.tiles
  rw [sum_header_add_size] at total
  have arena := wf.arena
  simp only [ArenaOk, headerSize] at arena total
  rw [heapGetStats, wf.blocks_eq, foldl_statsStep bs _ (fun b member => wf.header_mem member)
    (by simp only; omega) (by simp only; omega) le_rfl le_rfl]
  simp

/-- After any nonempty run of allowed calls from boot, the block list threaded from
`heap_head` tiles the arena with correct `prev` links and no two free neighbours, and
`heap_get_stats` accounts for every byte of the arena. -/
theorem heap_representation {h : State} (reachable : Reachable h) :
    (∃ bs, WellFormed h bs) ∧
      (heapGetStats h).totalPayload + headerSize * (heapGetStats h).blockCount = h.heapSize ∧
      (heapGetStats h).usedPayload + (heapGetStats h).freePayload = (heapGetStats h).totalPayload := by
  obtain ⟨bs, wf⟩ := reachable.wellFormed
  have total := tiles_total wf.tiles
  rw [sum_header_add_size] at total
  refine ⟨⟨bs, wf⟩, ?_, ?_⟩
  · rw [wf.heapGetStats_eq]
    simp only [stats]
    omega
  · rw [wf.heapGetStats_eq]
    exact sum_size_used_add_free bs

/-- Boot with the static arena at 1 MiB, then one `kmalloc(100)`. -/
theorem heap_representation_after_kmalloc :
    let h := Runs.run HeapCall.apply [.alloc 100 8] (boot 0x100000 fun _ => ⟨0, false, none, none⟩)
    Reachable h ∧ (∃ bs, WellFormed h bs) ∧
      (heapGetStats h).totalPayload + headerSize * (heapGetStats h).blockCount = h.heapSize ∧
      (heapGetStats h).usedPayload + (heapGetStats h).freePayload = (heapGetStats h).totalPayload := by
  intro h
  have fallback : ArenaOk 0x100000 defaultHeapSize := by
    unfold ArenaOk defaultHeapSize
    decide
  have reachable : Reachable h :=
    ⟨_, _, [.alloc 100 8], fallback, by simp, ⟨trivial, trivial⟩, rfl⟩
  exact ⟨reachable, heap_representation reachable⟩

end OpenOS.Heap

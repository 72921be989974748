import OpenOS.Memory.HeapAbstract

/-! `heap.c` refines the block-list allocator of `HeapAbstract`. Each entry point, run on a
well-formed heap, rewrites headers so that they thread the block list that `allocate` or
`release` computes. The proofs go through one header lemma per function of `heap.c`
(`blockSplit_header`, `blockCoalesce_header`) and one rule for replacing a run of blocks in
a linked list (`Linked.replace`). -/
namespace OpenOS.Heap

open Tiling

/-- Only memory changes: the arena and the list head stay. -/
structure SameArena (h h' : State) : Prop where
  defaultHeap : h'.defaultHeap = h.defaultHeap
  heapBase : h'.heapBase = h.heapBase
  heapSize : h'.heapSize = h.heapSize
  heapHead : h'.heapHead = h.heapHead

theorem SameArena.refl (h : State) : SameArena h h := ⟨rfl, rfl, rfl, rfl⟩

theorem SameArena.trans {h h' h'' : State} (first : SameArena h h') (second : SameArena h' h'') :
    SameArena h h'' :=
  ⟨second.defaultHeap.trans first.defaultHeap, second.heapBase.trans first.heapBase,
    second.heapSize.trans first.heapSize, second.heapHead.trans first.heapHead⟩

theorem SameArena.write (h : State) (a : Nat) (v : BlockHeader) : SameArena h (h.write a v) :=
  ⟨rfl, rfl, rfl, rfl⟩

theorem sameArena_blockSplit (h : State) (blk want : Nat) : SameArena h (blockSplit blk want h) := by
  dsimp only [blockSplit]
  split
  · exact .refl h
  · split <;> exact ⟨rfl, rfl, rfl, rfl⟩

theorem sameArena_blockCoalesce (h : State) (blk : Nat) : SameArena h (blockCoalesce blk h) := by
  dsimp only [blockCoalesce]
  split
  · exact .refl h
  · split
    · split <;> exact ⟨rfl, rfl, rfl, rfl⟩
    · exact .refl h

theorem sizeT_eq {x : Int} {n : Nat} (eq : x = n) (lt : n < 2^32) : sizeT x = n := by
  subst eq
  exact sizeT_natCast lt

/-- What `block_split` writes when `blk` has room for a second block. -/
theorem blockSplit_header {h : State} {blk want size : Nat} {free : Bool} {next prev : Option Nat}
    (atBlk : h.header blk = ⟨size, free, next, prev⟩)
    (room : want + headerSize + minPayload ≤ size) (small : size < 2^32)
    (nextNe : ∀ n ∈ next, n ≠ blk ∧ n ≠ blk + headerSize + want) (a : Nat) :
    (blockSplit blk want h).header a =
      if a = blk then ⟨want, free, some (blk + headerSize + want), prev⟩
      else if a = blk + headerSize + want then ⟨size - want - headerSize, true, next, some blk⟩
      else if some a = next then { h.header a with prev := some (blk + headerSize + want) }
      else h.header a := by
  have restNe : blk ≠ blk + headerSize + want := by simp only [headerSize]; omega
  have noSplit : ¬ size < sizeT (want + headerSize + minPayload : Nat) := by
    rw [sizeT_natCast (by omega)]; omega
  have restSize : sizeT ((size : Int) - want - headerSize) = size - want - headerSize :=
    sizeT_eq (by omega) (by omega)
  simp only [blockSplit, atBlk, noSplit, if_false, restSize]
  -- the successor's `prev` is written only when there is a successor
  cases next with
  | none =>
    by_cases hb : a = blk
    · subst hb; simp [State.write, restNe, atBlk]
    · by_cases hr : a = blk + headerSize + want
      · subst hr; simp [State.write, Function.update_apply, restNe.symm]
      · simp [State.write, Function.update_apply, hb, hr]
  | some n =>
    obtain ⟨nb, nr⟩ := nextNe n rfl
    by_cases hb : a = blk
    · subst hb; simp [State.write, Function.update_apply, restNe, nb.symm, atBlk]
    · by_cases hr : a = blk + headerSize + want
      · subst hr; simp [State.write, Function.update_apply, restNe.symm, nr.symm]
      · by_cases hn : a = n
        · subst hn; simp [State.write, Function.update_apply, hb, hr]
        · simp [State.write, Function.update_apply, hb, hr, hn]

theorem blockSplit_of_lt {h : State} {blk want : Nat}
    (short : (h.header blk).size < want + headerSize + minPayload)
    (small : want + headerSize + minPayload < 2^32) : blockSplit blk want h = h := by
  have noRoom : (h.header blk).size < sizeT (want + headerSize + minPayload : Nat) := by
    rw [sizeT_natCast small]
    exact short
  simp only [blockSplit, noRoom, if_true]

/-- What `block_coalesce` writes when the successor `nxt` of `blk` is free. -/
theorem blockCoalesce_header {h : State} {blk nxt : Nat} {a n : BlockHeader}
    (atBlk : h.header blk = a) (link : a.next = some nxt) (atNext : h.header nxt = n)
    (nFree : n.free = true) (fits : a.size + headerSize + n.size < 2^32)
    (afterNe : ∀ m ∈ n.next, m ≠ blk) (x : Nat) :
    (blockCoalesce blk h).header x =
      if x = blk then { a with size := a.size + headerSize + n.size, next := n.next }
      else if some x = n.next then { h.header x with prev := some blk }
      else h.header x := by
  simp only [blockCoalesce, atBlk, link, atNext, nFree, if_true, sizeT_natCast fits]
  cases after : n.next with
  | none =>
    by_cases hb : x = blk
    · subst hb; simp [State.write]
    · simp [State.write, hb]
  | some m =>
    have mb : m ≠ blk := afterNe m (by simp [after])
    by_cases hb : x = blk
    · subst hb; simp [State.write, Function.update_apply, mb.symm]
    · by_cases hm : x = m
      · subst hm; simp [State.write, hb]
      · simp [State.write, Function.update_apply, hb, hm]

theorem blockCoalesce_of_used {h : State} {blk nxt : Nat} (link : (h.header blk).next = some nxt)
    (used : (h.header nxt).free = false) : blockCoalesce blk h = h := by
  simp [blockCoalesce, link, used]

theorem blockCoalesce_of_last {h : State} {blk : Nat} (last : (h.header blk).next = none) :
    blockCoalesce blk h = h := by
  simp [blockCoalesce, last]

variable {header header' : Nat → BlockHeader}

theorem Linked.header_eq {pre post : List Block} {b : Block} {prev last : Option Nat}
    (linked : Linked header prev (pre ++ b :: post) last) :
    header b.addr =
      ⟨b.size, b.free, (post.head?.map Block.addr).or last, (pre.getLast?.map Block.addr).or prev⟩ :=
  (linked_append.mp linked).2.1

/-- Replacing a run `mid` of a list by a run `mid'` at the same address: the blocks before
keep their headers, the new run is linked in, and the block after it gets a new `prev`. -/
theorem Linked.replace {pre mid mid' post : List Block}
    (linked : Linked header none (pre ++ mid ++ post) none)
    (sameHead : mid'.head?.map Block.addr = mid.head?.map Block.addr) (nonempty : mid' ≠ [])
    (inner : Linked header' (pre.getLast?.map Block.addr) mid' (post.head?.map Block.addr))
    (outer : ∀ c ∈ pre ++ post.drop 1, header' c.addr = header c.addr)
    (relink : ∀ c ∈ post.head?,
      header' c.addr = { header c.addr with prev := mid'.getLast?.map Block.addr }) :
    Linked header' none (pre ++ mid' ++ post) none := by
  rw [List.append_assoc] at linked ⊢
  obtain ⟨left, right⟩ := linked_append.mp linked
  have headEq : (mid' ++ post).head?.map Block.addr = (mid ++ post).head?.map Block.addr := by
    cases mid' with
    | nil => contradiction
    | cons c cs =>
      cases mid with
      | nil => simp at sameHead
      | cons d ds => simpa using sameHead
  refine linked_append.mpr ⟨?_, ?_⟩
  · rw [headEq]
    exact left.frame (fun c member => outer c (List.mem_append_left _ member))
  · obtain ⟨l, lastEq⟩ : ∃ l, mid'.getLast? = some l :=
      ⟨_, List.getLast?_eq_some_getLast nonempty⟩
    refine linked_append.mpr ⟨by simpa using inner, ?_⟩
    obtain ⟨_, tail⟩ := linked_append.mp right
    cases post with
    | nil => trivial
    | cons c cs =>
      rw [lastEq]
      refine tail.reprev (by simpa [lastEq] using relink c rfl) (fun d member => ?_)
      exact outer d (List.mem_append_right _ (by simpa using member))

/-- Where the neighbours of `b` lie in a tiling. -/
theorem tiles_apart {lo hi : Nat} {pre post : List Block} {b : Block}
    (h : Tiles headerSize lo (pre ++ b :: post) hi) :
    (∀ c ∈ pre, c.addr + headerSize ≤ b.addr) ∧
      (∀ c ∈ post, b.addr + headerSize + b.size ≤ c.addr) ∧
      (∀ c ∈ post.head?, ∀ d ∈ post.drop 1, c.addr + headerSize ≤ d.addr) := by
  obtain ⟨x, first, start, rest⟩ := tiles_append.mp h
  refine ⟨fun c member => ?_, fun c member => ?_, fun c head d member => ?_⟩
  · have := (tiles_mem first member).2
    simp only [Block.fin] at this
    omega
  · have := (tiles_mem rest member).1
    omega
  · cases post with
    | nil => simp at head
    | cons c' cs =>
      simp only [List.head?_cons, Option.mem_def, Option.some.injEq] at head
      subst head
      have := rest.1
      have := (tiles_mem rest.2 (by simpa using member)).1
      omega

/-- `block_split` on block `b` of a linked tiling links in the leftover block. -/
theorem blockSplit_linked {h : State} {pre post : List Block} {b : Block} {want lo hi : Nat}
    (linked : Linked h.header none (pre ++ b :: post) none)
    (tiles : Tiles headerSize lo (pre ++ b :: post) hi)
    (room : want + headerSize + minPayload ≤ b.size) (small : b.size < 2^32) :
    Linked (blockSplit b.addr want h).header none
      (pre ++ [⟨b.addr, want, b.free⟩, ⟨b.addr + headerSize + want, b.size - want - headerSize, true⟩] ++
        post) none := by
  have hdr : headerSize = 16 := rfl
  obtain ⟨preLt, postGe, tailGe⟩ := tiles_apart tiles
  have atB := linked.header_eq
  simp only [Option.or_none] at atB
  have spec := blockSplit_header atB room small (fun n member => by
    obtain ⟨c, cMem, rfl⟩ := Option.mem_map.mp member
    have := postGe c (List.mem_of_mem_head? cMem)
    constructor <;> omega)
  have restNe : b.addr + headerSize + want ≠ b.addr := by simp only [headerSize]; omega
  refine Linked.replace (show Linked _ none (pre ++ [b] ++ post) none by simpa using linked)
    (by rfl) (by simp) ?_ ?_ ?_
  · simp [spec, restNe]
  · intro c member
    rw [spec]
    rcases List.mem_append.mp member with member | member
    · have := preLt c member
      have ne : some c.addr ≠ post.head?.map Block.addr := by
        cases post with
        | nil => simp
        | cons d ds => have := postGe d (by simp); simp; omega
      rw [if_neg (by omega), if_neg (by omega), if_neg ne]
    · cases post with
      | nil => simp at member
      | cons d ds =>
        have := tailGe d rfl c member
        have := postGe d (by simp)
        have ne : some c.addr ≠ some d.addr := by simp; omega
        rw [if_neg (by omega), if_neg (by omega), if_neg (by simpa using ne)]
  · intro c head
    have := postGe c (List.mem_of_mem_head? head)
    rw [spec, if_neg (by omega), if_neg (by omega), if_pos (by simp [Option.mem_def.mp head])]
    simp

/-- Setting a block's free flag keeps the list linked. -/
theorem linked_setFree {h : State} {pre post : List Block} {b : Block} {lo hi : Nat} (f : Bool)
    (linked : Linked h.header none (pre ++ b :: post) none)
    (tiles : Tiles headerSize lo (pre ++ b :: post) hi) :
    Linked (h.write b.addr { h.header b.addr with free := f }).header none
      (pre ++ { b with free := f } :: post) none := by
  have hdr : headerSize = 16 := rfl
  obtain ⟨preLt, postGe, tailGe⟩ := tiles_apart tiles
  have atB := linked.header_eq
  simp only [Option.or_none] at atB
  suffices Linked _ none (pre ++ [{ b with free := f }] ++ post) none by simpa using this
  refine Linked.replace (show Linked _ none (pre ++ [b] ++ post) none by simpa using linked)
    (by rfl) (by simp) ?_ ?_ ?_
  · simp [atB]
  · intro c member
    rcases List.mem_append.mp member with member | member
    · have := preLt c member
      exact write_header_other _ _ (by omega)
    · cases post with
      | nil => simp at member
      | cons d ds =>
        have := tailGe d rfl c member
        have := postGe d (by simp)
        exact write_header_other _ _ (by omega)
  · intro c head
    have := postGe c (List.mem_of_mem_head? head)
    obtain ⟨ds, rfl⟩ : ∃ ds, post = c :: ds := by
      cases post with
      | nil => simp at head
      | cons d ds => simp at head; exact ⟨ds, by rw [head]⟩
    have atC := (show Linked h.header none ((pre ++ [b]) ++ c :: ds) none by simpa using linked).header_eq
    rw [write_header_other _ _ (by omega), atC]
    simp

/-- `block_coalesce` on block `a` of a linked tiling merges it with a free successor. -/
theorem blockCoalesce_linked {h : State} {pre post : List Block} {a : Block} {lo hi : Nat}
    (linked : Linked h.header none (pre ++ a :: post) none)
    (tiles : Tiles headerSize lo (pre ++ a :: post) hi) (bound : hi ≤ 2^32) :
    Linked (blockCoalesce a.addr h).header none (pre ++ absorb a post) none := by
  have hdr : headerSize = 16 := rfl
  obtain ⟨preLt, postGe, tailGe⟩ := tiles_apart tiles
  have atA := linked.header_eq
  simp only [Option.or_none] at atA
  cases post with
  | nil =>
    rw [blockCoalesce_of_last (by simp [atA])]
    exact linked
  | cons n rest =>
    have whole : Linked h.header none ((pre ++ [a]) ++ n :: rest) none := by simpa using linked
    have atN := whole.header_eq
    simp only [Option.or_none, List.getLast?_append, List.getLast?_singleton, Option.some_or,
      Option.map_some] at atN
    have link : (h.header a.addr).next = some n.addr := by simp [atA]
    cases nFree : n.free with
    | false =>
      rw [blockCoalesce_of_used link (by simp [atN, nFree]), absorb_used nFree]
      exact linked
    | true =>
      have nEnd := (tiles_mem tiles (by simp : n ∈ pre ++ a :: n :: rest)).2
      have restGe : ∀ d ∈ rest, n.addr + headerSize ≤ d.addr := fun d member => tailGe n rfl d member
      have spec := blockCoalesce_header atA (by simp) atN (by simpa using nFree)
        (by simp only [Block.fin] at nEnd; have := postGe n (by simp); simp; omega)
        (fun m member => by
          obtain ⟨d, dMem, rfl⟩ := Option.mem_map.mp (by simpa using member)
          have := restGe d (List.mem_of_mem_head? dMem)
          have := postGe n (by simp)
          omega)
      rw [absorb_free nFree]
      suffices Linked _ none (pre ++ [merge a n] ++ rest) none by simpa using this
      refine Linked.replace (show Linked _ none (pre ++ [a, n] ++ rest) none by simpa using linked)
        (by rfl) (by simp) ?_ ?_ ?_
      · simp [spec, merge]
      · intro c member
        rw [spec]
        rcases List.mem_append.mp member with member | member
        · have := preLt c member
          have ne : some c.addr ≠ rest.head?.map Block.addr := by
            cases rest with
            | nil => simp
            | cons d ds =>
              have := restGe d (by simp)
              have := postGe n (by simp)
              simp; omega
          rw [if_neg (by omega), if_neg (by simpa using ne)]
        · cases rest with
          | nil => simp at member
          | cons d ds =>
            have := tailGe n rfl d (by simp)
            have := (tiles_apart (show Tiles headerSize lo ((pre ++ [a, n]) ++ d :: ds) hi by
              simpa using tiles)).2.1 c (by simpa using member)
            have := postGe n (by simp)
            rw [if_neg (by omega), if_neg (by simp; omega)]
      · intro c head
        have := restGe c (List.mem_of_mem_head? head)
        have := postGe n (by simp)
        rw [spec, if_neg (by omega), if_pos (by simp [Option.mem_def.mp head])]
        simp [merge]

end OpenOS.Heap

import OpenOS.Memory.HeapBlocks

/-! The allocator on the block list alone: first fit with splitting, and release with
coalescing on both sides. These are what `kmalloc_aligned` and `kfree` do to the tiling of
the arena; both keep it a coalesced tiling. -/
namespace OpenOS.Heap

open Tiling

/-- The blocks that replace the free block `b` when `want` bytes are taken from it. -/
def carve (want : Nat) (b : Block) : List Block :=
  if b.size < want + headerSize + minPayload then [{ b with free := false }]
  else [⟨b.addr, want, false⟩, ⟨b.addr + headerSize + want, b.size - want - headerSize, true⟩]

def merge (a n : Block) : Block := ⟨a.addr, a.size + headerSize + n.size, a.free⟩

/-- `a` absorbs its successor when that one is free. -/
def absorb (a : Block) : List Block → List Block
  | n :: rest => if n.free then merge a n :: rest else a :: n :: rest
  | [] => [a]

/-- The first-fit test of `kmalloc_aligned`. -/
def fits (want : Nat) (b : Block) : Bool := b.free && decide (want ≤ b.size)

/-- First fit: the first free block with room for `want` bytes is carved, and its address
returned. -/
def allocate (want : Nat) : List Block → Option (Nat × List Block)
  | [] => none
  | b :: rest =>
    if fits want b then some (b.addr, carve want b ++ rest)
    else (allocate want rest).map (fun r => (r.1, b :: r.2))

@[simp] theorem absorb_free {a n : Block} {rest : List Block} (free : n.free = true) :
    absorb a (n :: rest) = merge a n :: rest := by
  simp [absorb, free]

@[simp] theorem absorb_used {a n : Block} {rest : List Block} (used : n.free = false) :
    absorb a (n :: rest) = a :: n :: rest := by
  simp [absorb, used]

/-- `b`, between `pre` and `post`, is freed and merged with free neighbours. -/
def release (pre : List Block) (b : Block) (post : List Block) : List Block :=
  let fwd := absorb { b with free := true } post
  match pre.getLast? with
  | some p => if p.free then pre.dropLast ++ absorb p fwd else pre ++ fwd
  | none => fwd

theorem tiles_middle {lo hi : Nat} {pre mid mid' post : List Block}
    (h : Tiles headerSize lo (pre ++ mid ++ post) hi)
    (replace : ∀ a b, Tiles headerSize a mid b → Tiles headerSize a mid' b) :
    Tiles headerSize lo (pre ++ mid' ++ post) hi := by
  obtain ⟨x, first, rest⟩ := tiles_append.mp h
  obtain ⟨y, middle, last⟩ := tiles_append.mp first
  exact tiles_append.mpr ⟨x, tiles_append.mpr ⟨y, middle, replace _ _ last⟩, rest⟩

theorem tiles_carve {lo hi want : Nat} {b : Block}
    (h : Tiles headerSize lo [b] hi) : Tiles headerSize lo (carve want b) hi := by
  obtain ⟨start, ends⟩ := h
  unfold carve
  split
  · exact ⟨start, ends⟩
  · refine ⟨start, by simp [start], ?_⟩
    simp only [tiles_nil] at ends ⊢
    omega

theorem tiles_merge {lo hi : Nat} {a n : Block} {rest : List Block}
    (h : Tiles headerSize lo (a :: n :: rest) hi) : Tiles headerSize lo (merge a n :: rest) hi := by
  obtain ⟨start, next, tail⟩ := h
  refine ⟨start, ?_⟩
  simp only [merge]
  convert tail using 1
  omega

theorem tiles_absorb {lo hi : Nat} {a : Block} {rest : List Block}
    (h : Tiles headerSize lo (a :: rest) hi) : Tiles headerSize lo (absorb a rest) hi := by
  cases rest with
  | nil => exact h
  | cons n rest =>
    by_cases nFree : n.free
    · simpa [nFree] using tiles_merge h
    · simpa [nFree] using h

theorem coalesced_split {xs ys : List Block} (h : Coalesced (xs ++ ys)) :
    Coalesced xs ∧ Coalesced ys :=
  ⟨(List.isChain_append.mp h).1, (List.isChain_append.mp h).2.1⟩

theorem coalesced_middle {xs ys : List Block} {g : Block} (left : Coalesced xs)
    (right : Coalesced ys) (before : ∀ x ∈ xs.getLast?, x.free = false ∨ g.free = false)
    (after : ∀ y ∈ ys.head?, g.free = false ∨ y.free = false) : Coalesced (xs ++ g :: ys) := by
  refine List.isChain_append.mpr ⟨left, ?_, fun x hx y hy => ?_⟩
  · cases ys with
    | nil => exact .singleton g
    | cons y ys =>
      refine List.isChain_cons_cons.mpr ⟨?_, right⟩
      rcases after y (by simp) with h | h <;> simp [h]
  · simp only [List.head?_cons, Option.mem_def, Option.some.injEq] at hy
    subst hy
    rcases before x hx with h | h <;> simp [h]

/-- The neighbours of a free block in a coalesced list are used. -/
theorem coalesced_neighbours {pre post : List Block} {b : Block}
    (h : Coalesced (pre ++ b :: post)) (free : b.free = true) :
    (∀ x ∈ pre.getLast?, x.free = false) ∧ (∀ y ∈ post.head?, y.free = false) := by
  obtain ⟨_, right, link⟩ := List.isChain_append.mp h
  constructor
  · intro x hx
    have := link x hx b (by simp)
    simpa [free] using this
  · intro y hy
    cases post with
    | nil => simp at hy
    | cons c post =>
      simp only [List.head?_cons, Option.mem_def, Option.some.injEq] at hy
      subst hy
      have := (List.isChain_cons_cons.mp right).1
      simpa [free] using this

theorem coalesced_carve {pre post : List Block} {b : Block} {want : Nat}
    (h : Coalesced (pre ++ b :: post)) (free : b.free = true) :
    Coalesced (pre ++ carve want b ++ post) := by
  obtain ⟨before, after⟩ := coalesced_neighbours h free
  obtain ⟨left, rest⟩ := coalesced_split h
  have right : Coalesced post := rest.tail
  have used : ({ b with free := false } : Block).free = false := rfl
  unfold carve
  split
  · simpa using coalesced_middle left right (fun _ _ => .inr used) (fun _ _ => .inl used)
  · have : Coalesced (pre ++ [⟨b.addr, want, false⟩]) :=
      coalesced_middle left .nil (fun _ _ => .inr rfl) (by simp)
    simpa using coalesced_middle this right (by simp) (fun y hy => .inr (after y hy))

theorem absorb_shape {a : Block} {post : List Block} (free : a.free = true)
    (h : Coalesced post) :
    ∃ g rest, absorb a post = g :: rest ∧ g.addr = a.addr ∧ g.free = true ∧ Coalesced rest ∧
      ∀ y ∈ rest.head?, y.free = false := by
  cases post with
  | nil => exact ⟨a, [], rfl, rfl, free, .nil, by simp⟩
  | cons n rest =>
    by_cases nFree : n.free
    · refine ⟨merge a n, rest, absorb_free nFree, rfl, free, h.tail, fun y hy => ?_⟩
      exact (coalesced_neighbours (show Coalesced ([] ++ n :: rest) from h) nFree).2 y hy
    · exact ⟨a, n :: rest, by simp [nFree], rfl, free, h, by simpa using nFree⟩

theorem release_nil {b : Block} {post : List Block} :
    release [] b post = absorb { b with free := true } post := rfl

theorem release_snoc {pre post : List Block} {p b : Block} :
    release (pre ++ [p]) b post =
      if p.free then pre ++ absorb p (absorb { b with free := true } post)
      else pre ++ p :: absorb { b with free := true } post := by
  simp [release]

theorem coalesced_release {pre post : List Block} {b : Block}
    (h : Coalesced (pre ++ b :: post)) : Coalesced (release pre b post) := by
  obtain ⟨left, rest⟩ := coalesced_split h
  have right : Coalesced post := rest.tail
  obtain ⟨g, tail, fwd, -, gFree, tailOk, tailHead⟩ :=
    absorb_shape (a := { b with free := true }) rfl right
  rcases List.eq_nil_or_concat' pre with rfl | ⟨pre, p, rfl⟩
  · rw [release_nil, fwd]
    exact coalesced_middle .nil tailOk (by simp) (fun y hy => .inr (tailHead y hy))
  · rw [release_snoc, fwd]
    split
    · next pFree =>
      have before := (coalesced_neighbours (by simpa using left) pFree).1
      rw [absorb_free gFree]
      exact coalesced_middle (coalesced_split left).1 tailOk (fun x hx => .inl (before x hx))
        (fun y hy => .inr (tailHead y hy))
    · next pUsed =>
      have := coalesced_middle (g := g) left tailOk (by simp [pUsed]) (fun y hy => .inr (tailHead y hy))
      simpa using this

theorem tiles_release {lo hi : Nat} {pre post : List Block} {b : Block}
    (h : Tiles headerSize lo (pre ++ b :: post) hi) :
    Tiles headerSize lo (release pre b post) hi := by
  obtain ⟨x, first, rest⟩ := tiles_append.mp h
  have freed : Tiles headerSize x (absorb { b with free := true } post) hi :=
    tiles_absorb (by simpa using rest)
  rcases List.eq_nil_or_concat' pre with rfl | ⟨pre, p, rfl⟩
  · rw [release_nil]
    simpa [show lo = x from first] using freed
  · obtain ⟨y, before, last⟩ := tiles_append.mp first
    rw [release_snoc]
    split
    · exact tiles_append.mpr ⟨y, before, tiles_absorb (by simpa [show p.addr = y from last.1, show
        y + headerSize + p.size = x from last.2] using freed)⟩
    · exact tiles_append.mpr ⟨y, before, by simpa [show p.addr = y from last.1, show
        y + headerSize + p.size = x from last.2] using freed⟩

theorem allocate_append {want : Nat} {pre rest : List Block} (skip : ∀ c ∈ pre, fits want c = false) :
    allocate want (pre ++ rest) = (allocate want rest).map (fun r => (r.1, pre ++ r.2)) := by
  induction pre with
  | nil => simp
  | cons c pre ih =>
    have cSkip : fits want c = false := skip c (by simp)
    rw [List.cons_append, allocate, cSkip, ih (fun d member => skip d (by simp [member]))]
    cases allocate want rest <;> rfl

theorem allocate_of_find {want : Nat} {bs : List Block} {b : Block} (found : bs.find? (fits want) = some b) :
    ∃ pre post, bs = pre ++ b :: post ∧ allocate want bs = some (b.addr, pre ++ carve want b ++ post) := by
  obtain ⟨fit, pre, post, split, skip⟩ := List.find?_eq_some_iff_append.mp found
  refine ⟨pre, post, split, ?_⟩
  rw [split, allocate_append (fun c member => by simpa using skip c member)]
  simp [allocate, fit]

theorem allocate_of_find_none {want : Nat} {bs : List Block} (missing : bs.find? (fits want) = none) :
    allocate want bs = none := by
  induction bs with
  | nil => rfl
  | cons b rest ih =>
    have skip : fits want b = false := by simpa using List.find?_eq_none.mp missing b (by simp)
    simp only [allocate, skip, ih (by simpa [skip] using missing)]
    rfl

/-- The used block that `carve` leaves at `b`'s address. -/
def carved (want : Nat) (b : Block) : Block :=
  ⟨b.addr, if b.size < want + headerSize + minPayload then b.size else want, false⟩

theorem carve_cons (want : Nat) (b : Block) :
    ∃ leftover, carve want b = carved want b :: leftover ∧ used leftover = [] := by
  unfold carve carved
  split
  · exact ⟨[], rfl, rfl⟩
  · exact ⟨_, rfl, rfl⟩

/-- What a successful `allocate` did: carve a fitting block, all blocks before it failing
the test. -/
theorem allocate_eq_some {want a : Nat} {bs bs' : List Block} (alloc : allocate want bs = some (a, bs')) :
    ∃ pre b post, bs = pre ++ b :: post ∧ fits want b = true ∧ a = b.addr ∧
      bs' = pre ++ carve want b ++ post := by
  induction bs generalizing bs' with
  | nil => contradiction
  | cons c rest ih =>
    by_cases fit : fits want c
    · simp only [allocate, fit, if_true, Option.some.injEq, Prod.mk.injEq] at alloc
      obtain ⟨rfl, rfl⟩ := alloc
      exact ⟨[], c, rest, rfl, fit, rfl, rfl⟩
    · simp only [allocate, fit, Bool.false_eq_true, if_false, Option.map_eq_some_iff] at alloc
      obtain ⟨⟨a', rest'⟩, later, same⟩ := alloc
      simp only [Prod.mk.injEq] at same
      obtain ⟨rfl, rfl⟩ := same
      obtain ⟨pre, b, post, rfl, bFit, rfl, rfl⟩ := ih later
      exact ⟨c :: pre, b, post, rfl, bFit, rfl, rfl⟩

theorem used_append {xs ys : List Block} : used (xs ++ ys) = used xs ++ used ys := List.filter_append _ _

theorem used_absorb {g : Block} {post : List Block} (free : g.free = true) :
    used (absorb g post) = used post := by
  cases post with
  | nil => simp [absorb, used, free]
  | cons n rest =>
    cases nFree : n.free
    · simp [used_cons, free, nFree]
    · simp [absorb_free nFree, used_cons, merge, free, nFree]

theorem used_release {pre post : List Block} {b : Block} :
    used (release pre b post) = used pre ++ used post := by
  rcases List.eq_nil_or_concat' pre with rfl | ⟨pre, p, rfl⟩
  · rw [release_nil, used_absorb rfl]
    rfl
  · rw [release_snoc]
    split
    · next pFree =>
      have : ∀ c : Block, c.free = true → ∀ rest, used (absorb c rest) = used rest :=
        fun c free rest => used_absorb free
      rw [used_append, this p pFree, this _ rfl, used_append]
      simp [used, pFree]
    · next pUsed =>
      rw [used_append, used_cons, if_neg pUsed, used_absorb rfl, used_append]
      simp [used, pUsed]

theorem tiles_head {hdr lo hi : Nat} {bs : List Block} (h : Tiles hdr lo bs hi) (nonempty : bs ≠ []) :
    bs.head?.map Block.addr = some lo := by
  cases bs with
  | nil => contradiction
  | cons b rest => simp [h.1]

end OpenOS.Heap

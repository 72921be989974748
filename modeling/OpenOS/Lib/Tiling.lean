import Mathlib

/-! Arenas tiled by blocks that each carry a header of `hdr` bytes before their payload,
as in boundary-tag allocators. When no two neighbours are both free, the tiling is
determined by its used blocks: every gap between two of them is exactly one free block. -/
namespace Tiling

structure Block where
  addr : Nat
  size : Nat
  free : Bool
  deriving DecidableEq, Repr

variable (hdr : Nat)

/-- The first address after the block. -/
def Block.fin (b : Block) : Nat := b.addr + hdr + b.size

/-- `bs` covers `[lo, hi)` exactly, each block starting where the previous one ends. -/
def Tiles : Nat → List Block → Nat → Prop
  | lo, [], hi => lo = hi
  | lo, b :: rest, hi => b.addr = lo ∧ Tiles (lo + hdr + b.size) rest hi

/-- No two adjacent blocks are both free. -/
def Coalesced (bs : List Block) : Prop := bs.IsChain (fun a b => ¬ (a.free = true ∧ b.free = true))

def used (bs : List Block) : List Block := bs.filter (fun b => !b.free)

/-- The tiling of `[lo, hi)` whose used blocks are `us`, with one free block per gap. -/
def fill : Nat → List Block → Nat → List Block
  | lo, [], hi => if lo = hi then [] else [⟨lo, hi - lo - hdr, true⟩]
  | lo, u :: us, hi =>
    (if lo = u.addr then [] else [⟨lo, u.addr - lo - hdr, true⟩]) ++
      u :: fill (u.addr + hdr + u.size) us hi

variable {hdr}

@[simp] theorem tiles_nil {lo hi : Nat} : Tiles hdr lo [] hi ↔ lo = hi := Iff.rfl

@[simp] theorem tiles_cons {lo hi : Nat} {b : Block} {rest : List Block} :
    Tiles hdr lo (b :: rest) hi ↔ b.addr = lo ∧ Tiles hdr (lo + hdr + b.size) rest hi := Iff.rfl

theorem tiles_append {lo hi : Nat} {first second : List Block} :
    Tiles hdr lo (first ++ second) hi ↔ ∃ mid, Tiles hdr lo first mid ∧ Tiles hdr mid second hi := by
  induction first generalizing lo with
  | nil => simp
  | cons b first ih => simp [ih, and_assoc]

theorem tiles_setFree {lo hi : Nat} {pre post : List Block} {b : Block} {f : Bool} :
    Tiles hdr lo (pre ++ { b with free := f } :: post) hi ↔ Tiles hdr lo (pre ++ b :: post) hi := by
  simp [tiles_append]

theorem tiles_total {lo hi : Nat} {bs : List Block} (h : Tiles hdr lo bs hi) :
    lo + (bs.map (fun b => hdr + b.size)).sum = hi := by
  induction bs generalizing lo with
  | nil => simpa using h
  | cons b rest ih =>
    have := ih h.2
    simp only [List.map_cons, List.sum_cons]
    omega

theorem tiles_le {lo hi : Nat} {bs : List Block} (h : Tiles hdr lo bs hi) : lo ≤ hi := by
  have := tiles_total h; omega

theorem tiles_mem {lo hi : Nat} {bs : List Block} (h : Tiles hdr lo bs hi) {b : Block}
    (member : b ∈ bs) : lo ≤ b.addr ∧ b.fin hdr ≤ hi := by
  induction bs generalizing lo with
  | nil => simp at member
  | cons c rest ih =>
    obtain ⟨start, tail⟩ := h
    rcases List.mem_cons.mp member with rfl | member
    · exact ⟨by omega, by simpa [Block.fin, start] using tiles_le tail⟩
    · have := ih tail member; omega

theorem tiles_sorted {lo hi : Nat} {bs : List Block} (h : Tiles hdr lo bs hi) :
    bs.Pairwise (fun a b => a.fin hdr ≤ b.addr) := by
  induction bs generalizing lo with
  | nil => exact .nil
  | cons b rest ih =>
    obtain ⟨start, tail⟩ := h
    refine List.pairwise_cons.mpr ⟨fun c member => ?_, ih tail⟩
    have := (tiles_mem tail member).1
    simp only [Block.fin]; omega

theorem coalesced_tail {b : Block} {rest : List Block} (h : Coalesced (b :: rest)) :
    Coalesced rest := h.tail

theorem used_cons {b : Block} {rest : List Block} :
    used (b :: rest) = if b.free then used rest else b :: used rest := by
  cases h : b.free <;> simp [used, h]

theorem fill_cons_at {lo hi : Nat} {u : Block} {us : List Block} (start : u.addr = lo) :
    fill hdr lo (u :: us) hi = u :: fill hdr (lo + hdr + u.size) us hi := by
  simp [fill, start]

theorem fill_cons_gap {lo hi : Nat} {u : Block} {us : List Block} (gap : lo ≠ u.addr) :
    fill hdr lo (u :: us) hi =
      ⟨lo, u.addr - lo - hdr, true⟩ :: u :: fill hdr (u.addr + hdr + u.size) us hi := by
  simp [fill, gap]

/-- With nonempty headers, a coalesced tiling is the filling of its used blocks. -/
theorem eq_fill (positive : 0 < hdr) {lo hi : Nat} {bs : List Block} (h : Tiles hdr lo bs hi)
    (coalesced : Coalesced bs) : bs = fill hdr lo (used bs) hi := by
  induction bs generalizing lo with
  | nil => cases h; simp [used, fill]
  | cons b rest ih =>
    obtain ⟨addr, size, free⟩ := b
    obtain ⟨start, tail⟩ := h
    change addr = lo at start
    subst start
    have restEq := ih tail (coalesced_tail coalesced)
    cases free with
    | false =>
      simp only [used_cons, Bool.false_eq_true, if_false]
      rw [fill_cons_at (show (⟨addr, size, false⟩ : Block).addr = addr from rfl)]
      exact congrArg _ restEq
    | true =>
      simp only [used_cons, if_true]
      cases rest with
      | nil =>
        have ends : addr + hdr + size = hi := tail
        have gap : hi - addr - hdr = size := by omega
        simp [used, fill, gap, show addr ≠ hi by omega]
      | cons c rest =>
        have cUsed : c.free = false := by
          simpa using (List.isChain_cons_cons.mp coalesced).1
        have cStart : c.addr = addr + hdr + size := tail.1
        simp only [used_cons, cUsed, Bool.false_eq_true, if_false] at restEq ⊢
        rw [fill_cons_at cStart] at restEq
        rw [fill_cons_gap (by omega), cStart, show addr + hdr + size - addr - hdr = size by omega]
        exact congrArg _ restEq

theorem tiling_canonical (positive : 0 < hdr) {lo hi : Nat} {bs bs' : List Block}
    (h : Tiles hdr lo bs hi) (h' : Tiles hdr lo bs' hi) (coalesced : Coalesced bs)
    (coalesced' : Coalesced bs') (same : ∀ b, b ∈ used bs ↔ b ∈ used bs') : bs = bs' := by
  have sortedUsed : ∀ {xs : List Block}, Tiles hdr lo xs hi →
      (used xs).Pairwise (fun a b => a.addr < b.addr) := fun tiles =>
    ((tiles_sorted tiles).filter _).imp (fun {a b} le => by simp only [Block.fin] at le; omega)
  have : Std.Irrefl (fun a b : Block => a.addr < b.addr) := ⟨fun a => Nat.lt_irrefl a.addr⟩
  have usedEq : used bs = used bs' :=
    List.Pairwise.eq_of_mem_iff (sortedUsed h) (sortedUsed h') same
  rw [eq_fill positive h coalesced, eq_fill positive h' coalesced', usedEq]

end Tiling

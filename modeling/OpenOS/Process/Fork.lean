import OpenOS.Process.Lifecycle

/-! The stack half of `sys_fork` in `kernel/syscall.c`: the child's user stack is a byte copy
of the parent's, and the saved-EBP chain in the copy is walked from the caller's `ebp`, each
link that points into the parent's stack moved by `delta = child_ustack - parent_ustack`.
Stacks are byte arrays indexed by offset; `*(uint32_t *)(ebp + delta)` is the little-endian
word at offset `ebp - parent_ustack` of the child's copy.

The walk stops after 64 links (`guard`), while a 16 KiB stack holds chains of up to 4096
aligned links: on a deeper chain the links past the 64th keep pointing into the parent. -/
namespace OpenOS.Process

def processUstackSize : Nat := 16384

/-- `regs_t`, the frame `int80_handler` pushes. -/
structure Regs where
  gs : UInt32
  fs : UInt32
  es : UInt32
  ds : UInt32
  edi : UInt32
  esi : UInt32
  ebp : UInt32
  espDummy : UInt32
  ebx : UInt32
  edx : UInt32
  ecx : UInt32
  eax : UInt32
  eip : UInt32
  cs : UInt32
  eflags : UInt32
  useresp : UInt32
  ss : UInt32
  deriving DecidableEq, Repr

/-- A 32-bit little-endian load at offset `k`. -/
def readWord (mem : Nat → UInt8) (k : Nat) : UInt32 :=
  ((mem k).toNat + 2^8 * (mem (k + 1)).toNat + 2^16 * (mem (k + 2)).toNat +
    2^24 * (mem (k + 3)).toNat).toUInt32

/-- A 32-bit little-endian store at offset `k`. -/
def writeWord (mem : Nat → UInt8) (k : Nat) (w : UInt32) : Nat → UInt8 := fun j =>
  if k ≤ j ∧ j < k + 4 then (w.toNat / 2^(8 * (j - k)) % 2^8).toUInt8 else mem j

/-- The walk of `sys_fork` over the child's copy, with `guard` links left. `lo` and `hi` are
`parent_lo` and `parent_hi`. -/
def forkWalk (lo hi delta : UInt32) : Nat → UInt32 → (Nat → UInt8) → Nat → UInt8
  | 0, _, ustack => ustack
  | guard + 1, ebp, ustack =>
    if lo ≤ ebp ∧ ebp ≤ hi - 4 ∧ ebp &&& 3 = 0 then
      let slot := (ebp - lo).toNat
      let next := readWord ustack slot
      let ustack := if lo ≤ next ∧ next ≤ hi then writeWord ustack slot (next + delta) else ustack
      if next ≤ ebp then ustack else forkWalk lo hi delta guard next ustack
    else ustack

/-- What the stack half of `sys_fork` gives the child. -/
structure ForkedStack where
  ustack : Nat → UInt8
  regs : Regs
  ustackTop : UInt32

/-- `delta`: the distance from the parent's user stack to the child's, in 32 bits. -/
def forkDelta (parentUstack childUstack : UInt32) : UInt32 := childUstack - parentUstack

/-- The user stack, register frame and stack top `sys_fork` builds for the child whose user
stack `kmalloc` put at `childUstack`. -/
def forkStack (parentUstack parentUstackTop childUstack : UInt32) (stack : Nat → UInt8)
    (regs : Regs) : ForkedStack :=
  let lo := parentUstack
  let hi := lo + processUstackSize.toUInt32
  let delta := forkDelta parentUstack childUstack
  -- the copy loop leaves the child's array equal to the parent's
  { ustack := forkWalk lo hi delta 64 regs.ebp stack
    regs := { regs with
      eax := 0
      useresp := regs.useresp + delta
      ebp := if lo ≤ regs.ebp ∧ regs.ebp ≤ hi then regs.ebp + delta else regs.ebp }
    ustackTop := childUstack + processUstackSize.toUInt32 -
      (parentUstack + processUstackSize.toUInt32 - parentUstackTop) }

/-! ### Words in a byte array -/

theorem writeWord_of_not_mem {mem : Nat → UInt8} {k j : Nat} (w : UInt32) (outside : ¬ (k ≤ j ∧ j < k + 4)) :
    writeWord mem k w j = mem j := by
  simp [writeWord, outside]

theorem readWord_congr {m₁ m₂ : Nat → UInt8} {k : Nat} (same : ∀ i < 4, m₁ (k + i) = m₂ (k + i)) :
    readWord m₁ k = readWord m₂ k := by
  unfold readWord
  rw [show m₁ k = m₂ k from same 0 (by decide), same 1 (by decide), same 2 (by decide), same 3 (by decide)]

@[simp] theorem readWord_writeWord_self (mem : Nat → UInt8) (k : Nat) (w : UInt32) :
    readWord (writeWord mem k w) k = w := by
  have lt := w.toNat_lt
  apply UInt32.toNat_inj.mp
  simp only [readWord, writeWord, show k < k + 4 by omega, show k + 1 < k + 4 by omega,
    show k + 2 < k + 4 by omega, show k + 3 < k + 4 by omega, Nat.le_add_right, Nat.le_refl,
    and_self, if_true, Nat.add_sub_cancel_left, Nat.sub_self, Nat.toUInt8, Nat.toUInt32,
    UInt8.toNat_ofNat', UInt32.toNat_ofNat']
  -- the four bytes of `w` put back together
  omega

/-! ### The saved-EBP chain -/

/-- A link the walk can follow: word-aligned, with its word inside the parent's stack
`[lo, lo + PROCESS_USTACK_SIZE)`. -/
def InStack (lo e : UInt32) : Prop :=
  lo.toNat ≤ e.toNat ∧ e.toNat + 4 ≤ lo.toNat + processUstackSize ∧ e.toNat % 4 = 0

instance (lo e : UInt32) : Decidable (InStack lo e) := inferInstanceAs (Decidable (_ ∧ _ ∧ _))

/-- A link value that points into the parent's stack, `[lo, lo + PROCESS_USTACK_SIZE]`. -/
def InRange (lo w : UInt32) : Prop := lo.toNat ≤ w.toNat ∧ w.toNat ≤ lo.toNat + processUstackSize

instance (lo w : UInt32) : Decidable (InRange lo w) := inferInstanceAs (Decidable (_ ∧ _))

/-- The offset of the stack address `e` from the stack base `lo`. -/
def slotOf (lo e : UInt32) : Nat := e.toNat - lo.toNat

/-- The saved EBP at the stack address `e`. -/
def linkWord (stack : Nat → UInt8) (lo e : UInt32) : UInt32 := readWord stack (slotOf lo e)

/-- The saved-EBP chain from `e`, with the addresses of its links: aligned, inside the stack
and strictly ascending, up to the first link whose value does not continue it. -/
inductive EbpChain (stack : Nat → UInt8) (lo : UInt32) : UInt32 → List UInt32 → Prop
  | last {e : UInt32} : InStack lo e →
      ¬ (InStack lo (linkWord stack lo e) ∧ e < linkWord stack lo e) → EbpChain stack lo e [e]
  | link {e : UInt32} {rest : List UInt32} : InStack lo e → e < linkWord stack lo e →
      EbpChain stack lo (linkWord stack lo e) rest → EbpChain stack lo e (e :: rest)

/-- The chain from `e` computed by following at most `fuel` links. -/
def chainFrom (stack : Nat → UInt8) (lo : UInt32) : Nat → UInt32 → Option (List UInt32)
  | 0, _ => none
  | fuel + 1, e =>
    if InStack lo e then
      if InStack lo (linkWord stack lo e) ∧ e < linkWord stack lo e then
        (chainFrom stack lo fuel (linkWord stack lo e)).map (e :: ·)
      else some [e]
    else none

theorem chainFrom_sound {stack : Nat → UInt8} {lo : UInt32} :
    ∀ {fuel e links}, chainFrom stack lo fuel e = some links → EbpChain stack lo e links
  | 0, _, _, found => by simp [chainFrom] at found
  | fuel + 1, e, links, found => by
    unfold chainFrom at found
    split_ifs at found with inStack continues
    · obtain ⟨rest, tail, rfl⟩ := Option.map_eq_some_iff.mp found
      exact .link inStack continues.2 (chainFrom_sound tail)
    · cases found
      exact .last inStack continues

/-- What a link word of the child becomes: moved by `delta` when it points into the parent's
stack, kept otherwise. -/
def relocated (lo delta w : UInt32) : UInt32 := if InRange lo w then w + delta else w

/-- What the child's stack should be after `sys_fork`: each link word of the chain
`relocated`, every other byte copied, the register frame with `eax = 0` and `useresp` and
`ebp` moved, and the stack top as far from the base as the parent's. -/
structure Relocated (parentUstack parentUstackTop childUstack : UInt32) (stack : Nat → UInt8)
    (regs : Regs) (links : List UInt32) : Prop where
  moved : ∀ e ∈ links,
    readWord (forkStack parentUstack parentUstackTop childUstack stack regs).ustack (slotOf parentUstack e) =
      relocated parentUstack (forkDelta parentUstack childUstack) (linkWord stack parentUstack e)
  copied : ∀ j, (∀ e ∈ links, ¬ (slotOf parentUstack e ≤ j ∧ j < slotOf parentUstack e + 4)) →
    (forkStack parentUstack parentUstackTop childUstack stack regs).ustack j = stack j
  frame : (forkStack parentUstack parentUstackTop childUstack stack regs).regs =
    { regs with
      eax := 0
      useresp := regs.useresp + forkDelta parentUstack childUstack
      ebp := regs.ebp + forkDelta parentUstack childUstack }
  top : (forkStack parentUstack parentUstackTop childUstack stack regs).ustackTop - childUstack =
    parentUstackTop - parentUstack

/-! ### The walk follows the chain -/

section Walk

variable {stack : Nat → UInt8} {lo delta : UInt32}

theorem aligned_iff (e : UInt32) : e &&& 3 = 0 ↔ e.toNat % 4 = 0 := by
  rw [← UInt32.toNat_inj, UInt32.toNat_and, show (3 : UInt32).toNat = 2^2 - 1 from rfl,
    Nat.and_two_pow_sub_one_eq_mod]
  rfl

theorem hi_toNat (fits : lo.toNat + processUstackSize < 2^32) :
    (lo + processUstackSize.toUInt32).toNat = lo.toNat + processUstackSize := by
  rw [UInt32.toNat_add]
  exact Nat.mod_eq_of_lt (by simpa [processUstackSize] using fits)

theorem inFrame_iff (fits : lo.toNat + processUstackSize < 2^32) (e : UInt32) :
    (lo ≤ e ∧ e ≤ lo + processUstackSize.toUInt32 - 4 ∧ e &&& 3 = 0) ↔ InStack lo e := by
  have hi := hi_toNat fits
  have sub : (lo + processUstackSize.toUInt32 - 4).toNat = lo.toNat + processUstackSize - 4 := by
    rw [UInt32.toNat_sub_of_le _ _ (by rw [UInt32.le_iff_toNat_le, hi]; simp [processUstackSize]), hi]
    rfl
  rw [UInt32.le_iff_toNat_le, UInt32.le_iff_toNat_le, sub, aligned_iff]
  unfold InStack processUstackSize
  omega

theorem inRange_iff (fits : lo.toNat + processUstackSize < 2^32) (w : UInt32) :
    (lo ≤ w ∧ w ≤ lo + processUstackSize.toUInt32) ↔ InRange lo w := by
  rw [UInt32.le_iff_toNat_le, UInt32.le_iff_toNat_le, hi_toNat fits]
  rfl

/-- The store of one step of the walk: the link at `e` moved when it points into the stack. -/
def storeLink (lo delta : UInt32) (m : Nat → UInt8) (e : UInt32) : Nat → UInt8 :=
  if InRange lo (readWord m (slotOf lo e)) then writeWord m (slotOf lo e) (readWord m (slotOf lo e) + delta)
  else m

theorem readWord_storeLink (m : Nat → UInt8) (e : UInt32) :
    readWord (storeLink lo delta m e) (slotOf lo e) = relocated lo delta (readWord m (slotOf lo e)) := by
  unfold storeLink relocated
  split_ifs <;> simp

theorem storeLink_of_not_mem {m : Nat → UInt8} {e : UInt32} {j : Nat}
    (outside : ¬ (slotOf lo e ≤ j ∧ j < slotOf lo e + 4)) : storeLink lo delta m e j = m j := by
  unfold storeLink
  split_ifs
  · exact writeWord_of_not_mem _ outside
  · rfl

theorem forkWalk_inStack (fits : lo.toNat + processUstackSize < 2^32) {e : UInt32} (inStack : InStack lo e)
    (guard : Nat) (m : Nat → UInt8) :
    forkWalk lo (lo + processUstackSize.toUInt32) delta (guard + 1) e m =
      if readWord m (slotOf lo e) ≤ e then storeLink lo delta m e
      else forkWalk lo (lo + processUstackSize.toUInt32) delta guard (readWord m (slotOf lo e))
        (storeLink lo delta m e) := by
  have slot : (e - lo).toNat = slotOf lo e := UInt32.toNat_sub_of_le _ _ (UInt32.le_iff_toNat_le.mpr inStack.1)
  simp only [forkWalk, if_pos ((inFrame_iff fits e).mpr inStack), slot, inRange_iff fits, storeLink]

theorem forkWalk_outside (fits : lo.toNat + processUstackSize < 2^32) {e : UInt32} (outside : ¬ InStack lo e)
    (guard : Nat) (m : Nat → UInt8) : forkWalk lo (lo + processUstackSize.toUInt32) delta guard e m = m := by
  cases guard with
  | zero => rfl
  | succ guard => rw [forkWalk, if_neg (by rwa [inFrame_iff fits])]

theorem EbpChain.mem {e : UInt32} {links : List UInt32} (chain : EbpChain stack lo e links) :
    ∀ e' ∈ links, InStack lo e' ∧ e.toNat ≤ e'.toNat := by
  induction chain with
  | last inStack _ => simp [inStack]
  | link inStack up _ ih =>
    intro e' mem
    rcases List.mem_cons.mp mem with rfl | later
    · exact ⟨inStack, le_refl _⟩
    · have above := UInt32.lt_iff_toNat_lt.mp up
      exact ⟨(ih e' later).1, by have := (ih e' later).2; omega⟩

theorem slotOf_apart {e e' : UInt32} (inStack : InStack lo e) (inStack' : InStack lo e')
    (lt : e.toNat < e'.toNat) : slotOf lo e + 4 ≤ slotOf lo e' := by
  unfold slotOf
  unfold InStack at inStack inStack'
  omega

/-- The walk over a chain of at most `guard` links: each link word ends `relocated`, and no
other byte changes. The memory it starts from needs to agree with the parent's stack on the
chain's words only. -/
theorem forkWalk_chain (fits : lo.toNat + processUstackSize < 2^32) {e : UInt32} {links : List UInt32}
    (chain : EbpChain stack lo e links) :
    ∀ {guard : Nat} {m : Nat → UInt8}, links.length ≤ guard →
      (∀ e' ∈ links, readWord m (slotOf lo e') = linkWord stack lo e') →
      (∀ e' ∈ links, readWord (forkWalk lo (lo + processUstackSize.toUInt32) delta guard e m) (slotOf lo e') =
          relocated lo delta (linkWord stack lo e')) ∧
      ∀ j, (∀ e' ∈ links, ¬ (slotOf lo e' ≤ j ∧ j < slotOf lo e' + 4)) →
        forkWalk lo (lo + processUstackSize.toUInt32) delta guard e m j = m j := by
  induction chain with
  | @last e inStack stop =>
    intro guard m short agree
    obtain ⟨guard, rfl⟩ : ∃ g, guard = g + 1 := ⟨guard - 1, by simp at short; omega⟩
    have word := agree e (List.mem_singleton_self e)
    -- the next value either descends or leaves the stack, and the walk ends after one store
    have ends : forkWalk lo (lo + processUstackSize.toUInt32) delta (guard + 1) e m = storeLink lo delta m e := by
      rw [forkWalk_inStack fits inStack, word]
      split_ifs with down
      · rfl
      · exact forkWalk_outside fits (fun inStack' => stop ⟨inStack', UInt32.not_le.mp down⟩) _ _
    rw [ends]
    refine ⟨fun e' mem => ?_, fun j outside => storeLink_of_not_mem (outside e (List.mem_singleton_self e))⟩
    rw [List.mem_singleton.mp mem, readWord_storeLink, word]
  | @link e rest inStack up tail ih =>
    intro guard m short agree
    obtain ⟨guard, rfl⟩ : ∃ g, guard = g + 1 := ⟨guard - 1, by simp at short; omega⟩
    have word := agree e List.mem_cons_self
    have step : forkWalk lo (lo + processUstackSize.toUInt32) delta (guard + 1) e m =
        forkWalk lo (lo + processUstackSize.toUInt32) delta guard (linkWord stack lo e) (storeLink lo delta m e) := by
      rw [forkWalk_inStack fits inStack, word, if_neg (UInt32.not_le.mpr up)]
    -- the store at `e` leaves the words of the later links alone
    have later : ∀ e' ∈ rest, slotOf lo e + 4 ≤ slotOf lo e' := fun e' mem =>
      slotOf_apart inStack (tail.mem e' mem).1
        (Nat.lt_of_lt_of_le (UInt32.lt_iff_toNat_lt.mp up) (tail.mem e' mem).2)
    have agree' : ∀ e' ∈ rest, readWord (storeLink lo delta m e) (slotOf lo e') = linkWord stack lo e' := by
      intro e' mem
      rw [readWord_congr fun i _ => storeLink_of_not_mem (by have := later e' mem; omega)]
      exact agree e' (List.mem_cons_of_mem _ mem)
    obtain ⟨moved, kept⟩ := ih (by simp at short; omega) agree'
    rw [step]
    refine ⟨fun e' mem => ?_, fun j outside => ?_⟩
    · rcases List.mem_cons.mp mem with rfl | mem
      -- the rest of the walk does not come back to the word at `e`
      · rw [readWord_congr fun i _ => kept _ fun e'' mem'' => by have := later e'' mem''; omega,
          readWord_storeLink, word]
      · exact moved e' mem
    · rw [kept j fun e' mem => outside e' (List.mem_cons_of_mem _ mem),
        storeLink_of_not_mem (outside e List.mem_cons_self)]

theorem EbpChain.inStack {e : UInt32} {links : List UInt32} (chain : EbpChain stack lo e links) :
    InStack lo e := by
  cases chain with
  | last inStack _ => exact inStack
  | link inStack _ _ => exact inStack

end Walk

/-- For a saved-EBP chain of at most 64 links in a stack that ends below 2^32, the child of
`sys_fork` gets the chain relocated, every other byte copied, the register frame with
`eax = 0` and `useresp`, `ebp` moved, and its stack top as far from its base as the parent's. -/
theorem fork_relocates_short_chain (parentUstack parentUstackTop childUstack : UInt32)
    (stack : Nat → UInt8) (regs : Regs) {links : List UInt32}
    (fits : parentUstack.toNat + processUstackSize < 2^32)
    (chain : EbpChain stack parentUstack regs.ebp links) (short : links.length ≤ 64) :
    Relocated parentUstack parentUstackTop childUstack stack regs links := by
  obtain ⟨moved, copied⟩ := @forkWalk_chain stack parentUstack (forkDelta parentUstack childUstack) fits
    regs.ebp links chain 64 stack short (fun _ _ => rfl)
  refine ⟨moved, copied, ?_, ?_⟩
  -- the caller's `ebp` is the first link, so it points into the stack and moves
  · have start := chain.inStack
    have inRange : parentUstack ≤ regs.ebp ∧ regs.ebp ≤ parentUstack + processUstackSize.toUInt32 :=
      (inRange_iff fits regs.ebp).mpr ⟨start.1, by have := start.2.1; omega⟩
    simp only [forkStack, if_pos inRange]
  · simp only [forkStack]
    grind

/-- A chain of three links in a parent stack at 1 MiB: the words at offsets 0 and 16 hold the
next link, and the one at offset 32 the end of the stack, where the walk stops. -/
def shortChainStack : Nat → UInt8 :=
  writeWord (writeWord (writeWord (fun _ => 0) 0 0x100010) 16 0x100020) 32 (0x100000 + 16384)

/-- All three links of `shortChainStack` point into the parent's stack, the last to its end,
so each is moved by the distance to the child's stack. -/
theorem fork_relocates_three_links :
    (0x100000 : UInt32).toNat + processUstackSize < 2^32 ∧
      EbpChain shortChainStack 0x100000 0x100000 [0x100000, 0x100010, 0x100020] ∧ ([0x100000, 0x100010, 0x100020] : List UInt32).length ≤ 64 ∧
      Relocated 0x100000 0x104000 0x200000 shortChainStack ⟨0, 0, 0, 0, 0, 0, 0x100000, 0, 0, 0, 0, 0, 0, 0, 0, 0, 0⟩ [0x100000, 0x100010, 0x100020] := by
  have chain : EbpChain shortChainStack 0x100000 0x100000 [0x100000, 0x100010, 0x100020] :=
    @chainFrom_sound _ _ 4 _ _ (by decide)
  exact ⟨by decide, chain, by decide, fork_relocates_short_chain _ _ _ _ _ (by decide) chain (by decide)⟩

/-- A chain of 65 links at the bottom of a parent stack at 1 MiB: the word at offset `4 i`
holds the address of the next link, and the 65th holds the end of the stack. -/
def deepChainStack : Nat → UInt8 :=
  (List.range 65).foldl (fun m i => writeWord m (4 * i)
    (if i < 64 then 0x100000 + 4 * (i + 1).toUInt32 else 0x100000 + 16384)) fun _ => 0

/-- The walk of `sys_fork` stops after 64 links, so the 65th link of `deepChainStack`,
which points to the end of the parent's stack, is left pointing into the parent. -/
theorem fork_deep_chain_unrelocated :
    EbpChain deepChainStack 0x100000 0x100000 ((List.range 65).map fun i => 0x100000 + 4 * i.toUInt32) ∧
      ¬ Relocated 0x100000 0x104000 0x200000 deepChainStack
        ⟨0, 0, 0, 0, 0, 0, 0x100000, 0, 0, 0, 0, 0, 0, 0, 0, 0, 0⟩
        ((List.range 65).map fun i => 0x100000 + 4 * i.toUInt32) := by
  refine ⟨@chainFrom_sound _ _ 65 _ _ (by decide +kernel), fun claim => ?_⟩
  have last := claim.moved (0x100000 + 256) (by decide +kernel)
  exact absurd last (by decide +kernel)

end OpenOS.Process

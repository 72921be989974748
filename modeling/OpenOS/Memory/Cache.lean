import Mathlib
import OpenOS.Lib.Run
import OpenOS.Lib.Bits

/-! The direct-mapped cache simulator of `memory/cache.c`. An address splits into a 19-bit
tag, an 8-bit index that picks one of the 256 lines and a 5-bit offset into the line's 32
bytes; the lines and their bytes are functions of the index and the offset, which stay below
256 and 32. A miss fills the line: it becomes valid with the new tag and keeps the bytes it
had, and a read miss hands back 0. The statistics counters are `uint64_t`.

Over every sequence of calls from `cache_init`, a line holds the tag of the last call to its
index, so a call hits exactly when the last call to its index had its tag; and a read that
follows a write to the same address, with no refill of the line in between, returns the
byte written. -/
namespace OpenOS.Memory

def cacheOffsetBits : UInt32 := 5
def cacheIndexBits : UInt32 := 8

/-- `CacheLine`. -/
structure CacheLine where
  valid : Bool
  tag : UInt32
  data : Nat → UInt8

/-- `Cache`. -/
structure Cache where
  lines : Nat → CacheLine
  hits : UInt64
  misses : UInt64
  accesses : UInt64

/-- `cache_init`: the whole structure zeroed, every line invalid. -/
def cacheInit : Cache := ⟨fun _ => ⟨false, 0, fun _ => 0⟩, 0, 0, 0⟩

/-- `cache_parse_address`: the tag, the index and the offset. -/
def cacheParseAddress (address : UInt32) : UInt32 × UInt32 × UInt32 :=
  (address >>> (cacheOffsetBits + cacheIndexBits), (address >>> cacheOffsetBits) &&& 0xFF,
    address &&& 0x1F)

/-- The fill of a miss: `line->valid = true; line->tag = tag;`, the bytes left as they are. -/
def CacheLine.fill (line : CacheLine) (tag : UInt32) : CacheLine :=
  { line with valid := true, tag := tag }

/-- The store of `cache_access`: `line->data[offset] = *data` on a write through a pointer. -/
def storeByte (line : CacheLine) (offset : UInt32) (data : Option UInt8) (isWrite : Bool) :
    CacheLine :=
  match isWrite, data with
  | true, some byte => { line with data := Function.update line.data offset.toNat byte }
  | _, _ => line

/-- What `*data` holds after the access: a read through a pointer gets `loaded`. -/
def loadByte (loaded : UInt8) (data : Option UInt8) (isWrite : Bool) : Option UInt8 :=
  match isWrite, data with
  | false, some _ => some loaded
  | _, _ => data

/-- `cache_access`: whether it hit, what `*data` holds afterwards (`none` for a `NULL`
pointer), and the cache. -/
def cacheAccess (cache : Cache) (address : UInt32) (data : Option UInt8) (isWrite : Bool) :
    Bool × Option UInt8 × Cache :=
  let parsed := cacheParseAddress address
  let tag := parsed.1
  let index := parsed.2.1
  let offset := parsed.2.2
  let line := cache.lines index.toNat
  if line.valid && line.tag == tag then
    (true, loadByte (line.data offset.toNat) data isWrite,
      { cache with
        lines := Function.update cache.lines index.toNat (storeByte line offset data isWrite)
        hits := cache.hits + 1
        accesses := cache.accesses + 1 })
  else
    -- a read miss simulates the load from memory by returning 0
    (false, loadByte 0 data isWrite,
      { cache with
        lines := Function.update cache.lines index.toNat (storeByte (line.fill tag) offset data isWrite)
        misses := cache.misses + 1
        accesses := cache.accesses + 1 })

/-- A call `cache_access(cache, address, data, is_write)`, with `data` the byte the pointer
points at, or `none` for `NULL`. -/
structure CacheCall where
  address : UInt32
  data : Option UInt8
  isWrite : Bool
  deriving DecidableEq

/-- The cache after a call. -/
def CacheCall.apply (c : CacheCall) (cache : Cache) : Cache :=
  (cacheAccess cache c.address c.data c.isWrite).2.2

/-- The cache after the calls, in order, from `cache_init`. -/
def cacheRun (calls : List CacheCall) : Cache := Runs.run CacheCall.apply calls cacheInit

/-! ### The fields of an address -/

def cacheTag (address : UInt32) : UInt32 := (cacheParseAddress address).1
def cacheIndex (address : UInt32) : UInt32 := (cacheParseAddress address).2.1
def cacheOffset (address : UInt32) : UInt32 := (cacheParseAddress address).2.2

theorem toNat_cacheTag (address : UInt32) : (cacheTag address).toNat = address.toNat / 2^13 := by
  rw [cacheTag, cacheParseAddress, UInt32.toNat_shiftRight, Nat.shiftRight_eq_div_pow]
  rfl

theorem toNat_cacheIndex (address : UInt32) :
    (cacheIndex address).toNat = address.toNat / 2^5 % 2^8 := by
  rw [cacheIndex, cacheParseAddress, UInt32.toNat_and, UInt32.toNat_shiftRight,
    show (0xFF : UInt32).toNat = 2^8 - 1 from rfl, ← Bits.shiftRight_and_two_pow_sub_one]
  rfl

theorem toNat_cacheOffset (address : UInt32) : (cacheOffset address).toNat = address.toNat % 2^5 := by
  rw [cacheOffset, cacheParseAddress, UInt32.toNat_and, show (0x1F : UInt32).toNat = 2^5 - 1 from rfl,
    Nat.and_two_pow_sub_one_eq_mod]

theorem eq_of_fields {address other : UInt32} (tag : cacheTag other = cacheTag address)
    (index : cacheIndex other = cacheIndex address) (offset : cacheOffset other = cacheOffset address) :
    other = address := by
  have tag := congrArg UInt32.toNat tag
  have index := congrArg UInt32.toNat index
  have offset := congrArg UInt32.toNat offset
  rw [toNat_cacheTag, toNat_cacheTag] at tag
  rw [toNat_cacheIndex, toNat_cacheIndex] at index
  rw [toNat_cacheOffset, toNat_cacheOffset] at offset
  apply UInt32.toNat_inj.mp
  omega

/-! ### One access -/

/-- The tag a line holds, if it is valid. -/
def CacheLine.held (line : CacheLine) : Option UInt32 := if line.valid then some line.tag else none

theorem held_eq_some_iff (line : CacheLine) (tag : UInt32) :
    line.held = some tag ↔ (line.valid && line.tag == tag) = true := by
  unfold CacheLine.held
  cases line.valid <;> simp

@[simp] theorem held_fill (line : CacheLine) (tag : UInt32) : (line.fill tag).held = some tag := rfl

theorem fill_of_held {line : CacheLine} {tag : UInt32} (held : line.held = some tag) :
    line.fill tag = line := by
  obtain ⟨valid, tag', data⟩ := line
  cases valid <;> simp [CacheLine.held] at held
  rw [held]
  rfl

@[simp] theorem held_storeByte (line : CacheLine) (offset : UInt32) (data : Option UInt8)
    (isWrite : Bool) : (storeByte line offset data isWrite).held = line.held := by
  unfold storeByte
  split <;> rfl

theorem storeByte_data_self (line : CacheLine) (offset : UInt32) (byte : UInt8) :
    (storeByte line offset (some byte) true).data offset.toNat = byte :=
  Function.update_self _ _ _

theorem storeByte_data_of_ne {line : CacheLine} {offset : UInt32} {o : Nat} (ne : o ≠ offset.toNat)
    (data : Option UInt8) (isWrite : Bool) : (storeByte line offset data isWrite).data o = line.data o := by
  unfold storeByte
  split
  · exact Function.update_of_ne ne _ _
  · rfl

theorem storeByte_of_not_write {data : Option UInt8} {isWrite : Bool}
    (noWrite : isWrite = true → data = none) (line : CacheLine) (offset : UInt32) :
    storeByte line offset data isWrite = line := by
  unfold storeByte
  split
  · cases noWrite rfl
  · rfl

section Access

variable (cache : Cache) (address : UInt32) (data : Option UInt8) (isWrite : Bool)

theorem cacheAccess_hit : (cacheAccess cache address data isWrite).1 =
    decide ((cache.lines (cacheIndex address).toNat).held = some (cacheTag address)) := by
  unfold cacheAccess
  by_cases hit : ((cache.lines (cacheIndex address).toNat).valid &&
    (cache.lines (cacheIndex address).toNat).tag == cacheTag address) = true
  · simp only [cacheIndex, cacheTag] at hit
    simp [hit, held_eq_some_iff, cacheIndex, cacheTag]
  · simp only [cacheIndex, cacheTag] at hit
    simp [hit, held_eq_some_iff, cacheIndex, cacheTag]

theorem cacheAccess_load : (cacheAccess cache address data isWrite).2.1 =
    loadByte (if (cache.lines (cacheIndex address).toNat).held = some (cacheTag address) then
      (cache.lines (cacheIndex address).toNat).data (cacheOffset address).toNat else 0) data isWrite := by
  unfold cacheAccess
  by_cases hit : (cache.lines (cacheIndex address).toNat).held = some (cacheTag address)
  · have code := (held_eq_some_iff _ _).mp hit
    simp only [cacheIndex, cacheTag, cacheOffset] at hit code ⊢
    simp [hit, code]
  · have code := (held_eq_some_iff _ _).not.mp hit
    simp only [cacheIndex, cacheTag, cacheOffset] at hit code ⊢
    simp [hit, code]

theorem cacheAccess_lines : (cacheAccess cache address data isWrite).2.2.lines =
    Function.update cache.lines (cacheIndex address).toNat
      (storeByte ((cache.lines (cacheIndex address).toNat).fill (cacheTag address))
        (cacheOffset address) data isWrite) := by
  unfold cacheAccess
  by_cases hit : (cache.lines (cacheIndex address).toNat).held = some (cacheTag address)
  · have code := (held_eq_some_iff _ _).mp hit
    rw [fill_of_held hit]
    simp only [cacheIndex, cacheTag, cacheOffset] at code ⊢
    simp [code]
  · have code := (held_eq_some_iff _ _).not.mp hit
    simp only [cacheIndex, cacheTag, cacheOffset] at code ⊢
    simp [code]

theorem cacheAccess_counts (counted : cache.hits + cache.misses = cache.accesses) :
    (cacheAccess cache address data isWrite).2.2.hits + (cacheAccess cache address data isWrite).2.2.misses =
      (cacheAccess cache address data isWrite).2.2.accesses := by
  unfold cacheAccess
  dsimp only
  split
  · rw [← counted, add_right_comm]
  · rw [← counted, add_assoc]

end Access

/-! ### Runs from `cache_init` -/

/-- The tag of the most recent call whose address has index `index`, if there is one. -/
def lastTag (calls : List CacheCall) (index : UInt32) : Option UInt32 :=
  (calls.reverse.find? fun c => cacheIndex c.address == index).map fun c => cacheTag c.address

theorem lastTag_append_singleton (calls : List CacheCall) (c : CacheCall) (index : UInt32) :
    lastTag (calls ++ [c]) index =
      if cacheIndex c.address = index then some (cacheTag c.address) else lastTag calls index := by
  unfold lastTag
  rw [List.reverse_append, List.reverse_singleton, List.singleton_append, List.find?_cons]
  by_cases same : cacheIndex c.address = index
  · simp [same]
  · have differ : (cacheIndex c.address == index) = false := beq_eq_false_iff_ne.mpr same
    simp only [differ, if_neg same]

theorem cacheRun_append_singleton (calls : List CacheCall) (c : CacheCall) :
    cacheRun (calls ++ [c]) = c.apply (cacheRun calls) :=
  Runs.run_append calls [c] cacheInit

theorem held_cacheRun (calls : List CacheCall) (index : UInt32) :
    ((cacheRun calls).lines index.toNat).held = lastTag calls index := by
  -- induction on the calls from the last one, which is the one `lastTag` looks at first
  induction calls using List.reverseRecOn with
  | nil => rfl
  | append_singleton calls c ih =>
    rw [cacheRun_append_singleton, lastTag_append_singleton, CacheCall.apply, cacheAccess_lines]
    by_cases same : cacheIndex c.address = index
    · rw [same, Function.update_self, held_storeByte, held_fill, if_pos rfl]
    · have other : index.toNat ≠ (cacheIndex c.address).toNat :=
        fun eq => same (UInt32.toNat_inj.mp eq).symm
      rw [Function.update_of_ne other, ih, if_neg same]

theorem counts_cacheRun (calls : List CacheCall) :
    (cacheRun calls).hits + (cacheRun calls).misses = (cacheRun calls).accesses :=
  Runs.run_invariant_all (fun cache => cache.hits + cache.misses = cache.accesses)
    (fun cache c counted => cacheAccess_counts cache c.address c.data c.isWrite counted) rfl

/-! ### A write, then a read of the same address -/

/-- The line of `address` holds the address's tag and the byte `byte` at its offset. -/
structure Holds (address : UInt32) (byte : UInt8) (cache : Cache) : Prop where
  held : (cache.lines (cacheIndex address).toNat).held = some (cacheTag address)
  data : (cache.lines (cacheIndex address).toNat).data (cacheOffset address).toNat = byte

theorem holds_write (cache : Cache) (address : UInt32) (byte : UInt8) :
    Holds address byte (CacheCall.apply ⟨address, some byte, true⟩ cache) where
  held := by
    rw [CacheCall.apply, cacheAccess_lines, Function.update_self, held_storeByte, held_fill]
  data := by
    rw [CacheCall.apply, cacheAccess_lines, Function.update_self, storeByte_data_self]

/-- A call that neither refills the line of `address` with another tag nor writes a byte to
`address`. -/
def Spares (address : UInt32) (c : CacheCall) : Prop :=
  (cacheIndex c.address = cacheIndex address → cacheTag c.address = cacheTag address) ∧
    (c.address = address → c.isWrite = true → c.data = none)

/-- A call that spares `address` keeps what its line holds. -/
theorem Holds.apply {address : UInt32} {byte : UInt8} {cache : Cache} (holds : Holds address byte cache)
    (c : CacheCall) (spares : Spares address c) : Holds address byte (c.apply cache) := by
  obtain ⟨sameTag, noWrite⟩ := spares
  rw [CacheCall.apply]
  by_cases same : cacheIndex c.address = cacheIndex address
  · -- the call hits the line of `address`, which keeps its tag
    have tag := sameTag same
    have filled : (cache.lines (cacheIndex c.address).toNat).fill (cacheTag c.address) =
        cache.lines (cacheIndex address).toNat := by
      rw [same, tag]
      exact fill_of_held holds.held
    refine ⟨?_, ?_⟩
    · rw [cacheAccess_lines, filled, same, Function.update_self, held_storeByte]
      exact holds.held
    · rw [cacheAccess_lines, filled, same, Function.update_self]
      by_cases sameOffset : cacheOffset c.address = cacheOffset address
      · -- the same offset under the same tag and index is the address itself
        rw [storeByte_of_not_write (noWrite (eq_of_fields tag same sameOffset))]
        exact holds.data
      · rw [storeByte_data_of_ne (fun eq => sameOffset (UInt32.toNat_inj.mp eq).symm)]
        exact holds.data
  · have other : (cacheIndex address).toNat ≠ (cacheIndex c.address).toNat :=
      fun eq => same (UInt32.toNat_inj.mp eq).symm
    refine ⟨?_, ?_⟩
    · rw [cacheAccess_lines, Function.update_of_ne other]
      exact holds.held
    · rw [cacheAccess_lines, Function.update_of_ne other]
      exact holds.data

theorem Holds.read {address : UInt32} {byte : UInt8} {cache : Cache} (holds : Holds address byte cache)
    (p : UInt8) :
    (cacheAccess cache address (some p) false).1 = true ∧
      (cacheAccess cache address (some p) false).2.1 = some byte := by
  rw [cacheAccess_hit, cacheAccess_load, if_pos holds.held, holds.data]
  exact ⟨decide_eq_true holds.held, rfl⟩

/-- The cache is an exact direct-mapped cache: a call hits exactly when the last earlier call
to its index had its tag; the hits and misses add up to the accesses; and a read of an
address returns the byte last written to it when, since that write, no call has filled its
line with another tag (by the first part, no call has missed on that line) and none has
written a byte to it. -/
theorem cache_direct_mapped_exact :
    (∀ (calls : List CacheCall) (c : CacheCall),
      (cacheAccess (cacheRun calls) c.address c.data c.isWrite).1 =
        decide (lastTag calls (cacheIndex c.address) = some (cacheTag c.address))) ∧
    (∀ calls : List CacheCall,
      (cacheRun calls).hits + (cacheRun calls).misses = (cacheRun calls).accesses) ∧
    (∀ (before after : List CacheCall) (address : UInt32) (byte p : UInt8),
      (∀ c ∈ after, cacheIndex c.address = cacheIndex address → cacheTag c.address = cacheTag address) →
      (∀ c ∈ after, c.address = address → c.isWrite = true → c.data = none) →
      (cacheAccess (cacheRun (before ++ ⟨address, some byte, true⟩ :: after)) address (some p) false).1 =
          true ∧
        (cacheAccess (cacheRun (before ++ ⟨address, some byte, true⟩ :: after)) address (some p)
          false).2.1 = some byte) := by
  refine ⟨fun calls c => ?_, counts_cacheRun, fun before after address byte p sameTag noWrite => ?_⟩
  · rw [cacheAccess_hit, held_cacheRun]
  · -- the write leaves the line holding the byte, and every later call keeps it
    have written : Holds address byte (cacheRun (before ++ [⟨address, some byte, true⟩])) := by
      rw [cacheRun_append_singleton]
      exact holds_write _ address byte
    have kept := @Runs.run_invariant Cache CacheCall CacheCall.apply (fun _ c => Spares address c)
      (Holds address byte) (fun _ c holds spares => holds.apply c spares) after _ written
      (Runs.admissible_const.mpr fun c mem => ⟨sameTag c mem, noWrite c mem⟩)
    have split : before ++ ⟨address, some byte, true⟩ :: after =
        (before ++ [⟨address, some byte, true⟩]) ++ after := by simp
    rw [split, cacheRun, Runs.run_append]
    exact kept.read p

/-- A write of 7 to address `0x20`, a read of address 0 on another line, and a read of
`0x20` that hits and returns 7. -/
theorem cache_write_then_read :
    (∀ c ∈ [(⟨0, none, false⟩ : CacheCall)],
      cacheIndex c.address = cacheIndex 0x20 → cacheTag c.address = cacheTag 0x20) ∧
    (∀ c ∈ [(⟨0, none, false⟩ : CacheCall)], c.address = 0x20 → c.isWrite = true → c.data = none) ∧
    (cacheAccess (cacheRun ([] ++ ⟨0x20, some 7, true⟩ :: [⟨0, none, false⟩])) 0x20 (some 0) false).1 = true ∧
    (cacheAccess (cacheRun ([] ++ ⟨0x20, some 7, true⟩ :: [⟨0, none, false⟩])) 0x20 (some 0) false).2.1 =
      some 7 :=
  have noRefill : ∀ c ∈ [(⟨0, none, false⟩ : CacheCall)],
      cacheIndex c.address = cacheIndex 0x20 → cacheTag c.address = cacheTag 0x20 := by decide
  have noWrite : ∀ c ∈ [(⟨0, none, false⟩ : CacheCall)],
      c.address = 0x20 → c.isWrite = true → c.data = none := by decide
  ⟨noRefill, noWrite, cache_direct_mapped_exact.2.2 [] _ 0x20 7 0 noRefill noWrite⟩

end OpenOS.Memory

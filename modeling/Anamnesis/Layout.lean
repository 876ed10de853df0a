import Anamnesis.Handle

/-!
# Pool creation and slot layout

`anam_pool_create` rounds the header and the payload up to the alignment, adds them into a
stride, asks the aligned allocator for `stride * slot_count + alignment` bytes (rounded up
again), places slot zero one header past the buffer start, and threads every slot onto the
free list in reverse index order.

All of this is `size_t` arithmetic, modulo `2^64`, and the model keeps it so: `sizeAdd`,
`sizeMul`, `sizeSub` and `alignUp` are the C operators. Nothing in the code checks for a
wrap, and `LayoutNoWrap` names the configurations for which none happens. The slot
addresses are multiples of the alignment for every configuration; that they are where the
programmer meant them to be holds only without a wrap.

A slot's header sits just below its user pointer (`get_header`), so the model keys the
header fields by user pointer.
-/

namespace Anamnesis

/-- `+` on `size_t`. -/
def sizeAdd (x y : Nat) : Nat := (x + y) % 2 ^ 64

/-- `*` on `size_t`. -/
def sizeMul (x y : Nat) : Nat := x * y % 2 ^ 64

/-- `-` on `size_t`, for `y < 2^64`. -/
def sizeSub (x y : Nat) : Nat := (x + (2 ^ 64 - y)) % 2 ^ 64

/-- `~` on `size_t`, for `x < 2^64`. -/
def sizeNot (x : Nat) : Nat := 2 ^ 64 - 1 - x

/-- `align_up`. -/
def alignUp (value alignment : Nat) : Nat :=
  sizeSub (sizeAdd value alignment) 1 &&& sizeNot (sizeSub alignment 1)

/-- `sizeof(SlotHeader)`: the 8-byte `next` handle and the 2-byte generation, padded to 16. -/
def slotHeaderSize : Nat := 16

/-- `AnamPoolConfig`; every field is a `size_t`. -/
structure AnamPoolConfig where
  slotSize : Nat
  slotCount : Nat
  alignment : Nat
  zeroOnAlloc : Bool
  zeroOnRelease : Bool
  slotSize_lt : slotSize < 2 ^ 64
  slotCount_lt : slotCount < 2 ^ 64
  alignment_lt : alignment < 2 ^ 64

/-- `ANAM_POOL_DEFAULT`. -/
def anamPoolDefault : AnamPoolConfig where
  slotSize := 64
  slotCount := 1024
  alignment := 8
  zeroOnAlloc := false
  zeroOnRelease := false
  slotSize_lt := by decide
  slotCount_lt := by decide
  alignment_lt := by decide

/-- The fields of `struct AnamPool` that creation fixes for the pool's lifetime. -/
structure PoolLayout where
  slotSize : Nat
  slotStride : Nat
  slotStrideMask : Nat
  slotCount : Nat
  alignment : Nat
  zeroOnAlloc : Bool
  zeroOnRelease : Bool
  memory : Nat
  slotsBase : Nat
deriving DecidableEq, Repr

/-- `struct AnamPool`, with the slot headers it owns. -/
structure AnamPool where
  layout : PoolLayout
  freeHead : Nat
  slotsFree : Nat
  allocCount : Nat
  releaseCount : Nat
  anamnesisCount : Nat
  generationMax : Nat
  /-- `SlotHeader.next` of the slot with this user pointer. -/
  next : Nat → Nat
  /-- `SlotHeader.generation` of the slot with this user pointer. -/
  generation : Nat → Nat

/-- `slot_from_index`. -/
def slotFromIndex (layout : PoolLayout) (index : Nat) : Nat :=
  sizeAdd layout.slotsBase (sizeMul index layout.slotStride)

/-- `in_pool`; `strictValidation` is the `ANAM_STRICT_VALIDATION` build flag. -/
def inPool (strictValidation : Bool) (layout : PoolLayout) (ptr : Nat) : Bool :=
  let base := layout.slotsBase
  let endPtr := sizeAdd base (sizeMul layout.slotCount layout.slotStride)
  if ptr < base ∨ ptr ≥ endPtr then false
  else if strictValidation then
    let off := ptr - base
    if layout.slotStrideMask ≠ 0 then off &&& layout.slotStrideMask == 0
    else off % layout.slotStride == 0
  else true

/-! ## `anam_pool_create` -/

/-- The alignment after `if (cfg.alignment == 0) cfg.alignment = 8`. -/
def effectiveAlignment (cfg : AnamPoolConfig) : Nat :=
  if cfg.alignment = 0 then 8 else cfg.alignment

/-- `stride = align_up(header_size + user_size, 8)`. -/
def poolStride (cfg : AnamPoolConfig) : Nat :=
  let alignment := effectiveAlignment cfg
  alignUp (sizeAdd (alignUp slotHeaderSize alignment) (alignUp cfg.slotSize alignment)) 8

/-- The byte count handed to the aligned allocator. -/
def poolTotal (cfg : AnamPoolConfig) : Nat :=
  let alignment := effectiveAlignment cfg
  alignUp (sizeAdd (sizeMul (poolStride cfg) cfg.slotCount) alignment) alignment

/-- The immutable fields, once the allocator has returned `memory`. -/
def poolLayout (cfg : AnamPoolConfig) (memory : Nat) : PoolLayout :=
  let alignment := effectiveAlignment cfg
  let stride := poolStride cfg
  { slotSize := cfg.slotSize
    slotStride := stride
    slotStrideMask := if stride &&& sizeSub stride 1 = 0 then sizeSub stride 1 else 0
    slotCount := cfg.slotCount
    alignment := alignment
    zeroOnAlloc := cfg.zeroOnAlloc
    zeroOnRelease := cfg.zeroOnRelease
    memory := memory
    slotsBase := alignUp (sizeAdd memory slotHeaderSize) alignment }

/-- The pool before the free list is built: empty list, `slots_free = slot_count`. The
buffer's initial contents are not read at any slot before they are written. -/
def freshPool (layout : PoolLayout) : AnamPool where
  layout := layout
  freeHead := anamNull
  slotsFree := layout.slotCount
  allocCount := 0
  releaseCount := 0
  anamnesisCount := 0
  generationMax := 0
  next := fun _ => anamNull
  generation := fun _ => 0

/-- One turn of the creation loop: slot `index` gets generation 0 and goes on top. -/
def pushInit (pool : AnamPool) (index : Nat) : AnamPool :=
  let userPtr := slotFromIndex pool.layout index
  { pool with
    generation := Function.update pool.generation userPtr 0
    next := Function.update pool.next userPtr pool.freeHead
    freeHead := encodeHandle 0 userPtr stateFree }

/-- `for (size_t i = slot_count; i > 0; i--)`, on slots `i - 1, ..., 0`. -/
def pushSlots (pool : AnamPool) : Nat → AnamPool
  | 0 => pool
  | i + 1 => pushSlots (pushInit pool i) i

/-- `anam_pool_create`. `alignedAlloc alignment size` is `ANAM_ALIGNED_ALLOC`. -/
def anamPoolCreate (config : Option AnamPoolConfig) (alignedAlloc : Nat → Nat → Option Nat) :
    Option AnamPool :=
  let cfg := config.getD anamPoolDefault
  if cfg.slotSize = 0 ∨ cfg.slotCount = 0 then none
  else if effectiveAlignment cfg &&& sizeSub (effectiveAlignment cfg) 1 ≠ 0 then none
  else if effectiveAlignment cfg < 8 then none
  else match alignedAlloc (effectiveAlignment cfg) (poolTotal cfg) with
    | none => none
    | some memory => some (pushSlots (freshPool (poolLayout cfg memory)) cfg.slotCount)

@[simp] theorem freshPool_layout (layout : PoolLayout) : (freshPool layout).layout = layout := rfl

@[simp] theorem poolLayout_memory (cfg : AnamPoolConfig) (memory : Nat) :
    (poolLayout cfg memory).memory = memory := rfl

@[simp] theorem pushInit_layout (pool : AnamPool) (i : Nat) :
    (pushInit pool i).layout = pool.layout := rfl

@[simp] theorem pushSlots_layout (pool : AnamPool) (n : Nat) :
    (pushSlots pool n).layout = pool.layout := by
  induction n generalizing pool with
  | zero => rfl
  | succ n ih => simp [pushSlots, ih]

/-- What creation checks, and what it builds when they pass. -/
theorem anamPoolCreate_eq_some {config : Option AnamPoolConfig}
    {alignedAlloc : Nat → Nat → Option Nat} {pool : AnamPool}
    (h : anamPoolCreate config alignedAlloc = some pool) :
    let cfg := config.getD anamPoolDefault
    0 < cfg.slotSize ∧ 0 < cfg.slotCount ∧
    effectiveAlignment cfg &&& sizeSub (effectiveAlignment cfg) 1 = 0 ∧
    8 ≤ effectiveAlignment cfg ∧
    alignedAlloc (effectiveAlignment cfg) (poolTotal cfg) = some pool.layout.memory ∧
    pool = pushSlots (freshPool (poolLayout cfg pool.layout.memory)) cfg.slotCount := by
  simp only [anamPoolCreate] at h
  split_ifs at h with h1 h2 h3
  split at h
  · cases h
  · rename_i memory hm
    cases h
    simp only [pushSlots_layout]
    refine ⟨by omega, by omega, by simpa using h2, by omega, hm, rfl⟩

/-- The immutable fields of a created pool are the ones `poolLayout` computes. -/
theorem anamPoolCreate_layout {config : Option AnamPoolConfig}
    {alignedAlloc : Nat → Nat → Option Nat} {pool : AnamPool}
    (h : anamPoolCreate config alignedAlloc = some pool) :
    pool.layout = poolLayout (config.getD anamPoolDefault) pool.layout.memory := by
  conv_lhs => rw [(anamPoolCreate_eq_some h).2.2.2.2.2]
  simp

/-! ## Alignment arithmetic -/

/-- Rounding up to a multiple of `alignment` in unbounded arithmetic. -/
def roundUp (value alignment : Nat) : Nat := (value + alignment - 1) / alignment * alignment

theorem roundUp_bounds {v a : Nat} (ha : 0 < a) :
    v ≤ roundUp v a ∧ roundUp v a ≤ v + a - 1 := by
  have h := Nat.mod_add_div (v + a - 1) a
  have hr := Nat.mod_lt (v + a - 1) ha
  unfold roundUp
  rw [Nat.mul_comm]
  omega

theorem roundUp_dvd (v a : Nat) : a ∣ roundUp v a := Nat.dvd_mul_left _ _

theorem roundUp_of_dvd {v a : Nat} (ha : 0 < a) (h : a ∣ v) : roundUp v a = v := by
  obtain ⟨q, rfl⟩ := h
  unfold roundUp
  rw [show a * q + a - 1 = (a - 1) + q * a by rw [Nat.mul_comm]; omega,
    Nat.add_mul_div_right _ _ ha, Nat.div_eq_of_lt (by omega), Nat.zero_add, Nat.mul_comm]

/-- Clearing the low `k` bits of a 64-bit word. -/
theorem and_high_bits {x k : Nat} (hx : x < 2 ^ 64) (hk : k ≤ 64) :
    x &&& (2 ^ 64 - 2 ^ k) = x / 2 ^ k * 2 ^ k := by
  have h64 : 2 ^ 64 = 2 ^ (64 - k) * 2 ^ k := by rw [← Nat.pow_add]; congr 1; omega
  have hm : 2 ^ 64 - 2 ^ k = (2 ^ (64 - k) - 1) <<< k := by
    rw [Nat.shiftLeft_eq, Nat.sub_mul, one_mul, ← h64]
  rw [hm, and_shifted_ones, Nat.shiftLeft_eq, Nat.shiftRight_eq_div_pow,
    Nat.mod_eq_of_lt (Nat.div_lt_of_lt_mul (by rw [Nat.mul_comm, ← h64]; exact hx))]

/-- The check `(alignment & (alignment - 1)) == 0` accepts exactly the powers of two. -/
theorem pow_two_of_and_pred {a : Nat} (ha : 0 < a) (h : a &&& (a - 1) = 0) :
    ∃ k, a = 2 ^ k := by
  refine ⟨Nat.log2 a, ?_⟩
  have hlo : 2 ^ Nat.log2 a ≤ a := Nat.log2_self_le (by omega)
  have hhi : a < 2 ^ (Nat.log2 a + 1) := Nat.lt_log2_self
  have hbit : ∀ m, 2 ^ Nat.log2 a ≤ m → m < 2 ^ (Nat.log2 a + 1) →
      m.testBit (Nat.log2 a) = true := by
    intro m h1 h2
    have hm : m = 2 ^ Nat.log2 a + (m - 2 ^ Nat.log2 a) := by omega
    rw [hm, Nat.testBit_two_pow_add_eq, Nat.testBit_lt_two_pow (by rw [Nat.pow_succ] at h2; omega)]
    rfl
  by_contra hne
  have h1 := hbit a hlo hhi
  have h2 := hbit (a - 1) (by omega) (by omega)
  have : (a &&& (a - 1)).testBit (Nat.log2 a) = true := by simp [h1, h2]
  simp [h] at this

theorem sizeSub_one {x : Nat} (h1 : 1 ≤ x) (h2 : x ≤ 2 ^ 64) : sizeSub x 1 = x - 1 := by
  unfold sizeSub; omega

/-- `align_up` to a power of two clears the low bits of `value + alignment - 1`. -/
theorem alignUp_eq {v k : Nat} (hk : k < 64) :
    alignUp v (2 ^ k) = sizeSub (sizeAdd v (2 ^ k)) 1 / 2 ^ k * 2 ^ k := by
  have hp : 1 ≤ 2 ^ k := Nat.one_le_two_pow
  have hlt : 2 ^ k < 2 ^ 64 := Nat.pow_lt_pow_right (by omega) hk
  have hn : sizeNot (sizeSub (2 ^ k) 1) = 2 ^ 64 - 2 ^ k := by
    rw [sizeSub_one hp hlt.le, sizeNot]; omega
  rw [alignUp, hn, and_high_bits (by unfold sizeSub; omega) hk.le]

theorem alignUp_dvd (v : Nat) {k : Nat} (hk : k < 64) : 2 ^ k ∣ alignUp v (2 ^ k) := by
  rw [alignUp_eq hk]; exact Nat.dvd_mul_left _ _

/-- Without a wrap, `align_up` is `roundUp`. -/
theorem alignUp_of_lt {v k : Nat} (hk : k < 64) (hv : v + 2 ^ k - 1 < 2 ^ 64) :
    alignUp v (2 ^ k) = roundUp v (2 ^ k) := by
  have hp : 1 ≤ 2 ^ k := Nat.one_le_two_pow
  have hs : sizeSub (sizeAdd v (2 ^ k)) 1 = v + 2 ^ k - 1 := by
    unfold sizeSub sizeAdd; omega
  rw [alignUp_eq hk, hs, roundUp]

/-! ## Layouts that do not wrap -/

/-- `anam_pool_create`'s arithmetic does not wrap: every rounding, sum and product it
forms, and the end of the slot region that `in_pool` forms, stays below `2^64`. -/
def LayoutNoWrap (cfg : AnamPoolConfig) (memory : Nat) : Prop :=
  let a := effectiveAlignment cfg
  let stride := roundUp slotHeaderSize a + roundUp cfg.slotSize a
  cfg.slotSize + a - 1 < 2 ^ 64 ∧
  stride + 8 - 1 < 2 ^ 64 ∧
  stride * cfg.slotCount + a + a - 1 < 2 ^ 64 ∧
  memory + slotHeaderSize + a - 1 < 2 ^ 64 ∧
  roundUp (memory + slotHeaderSize) a + cfg.slotCount * stride < 2 ^ 64

/-- The allocated buffer `[memory, memory + total)` lies below `2^48`. -/
def BufferBelow48 (cfg : AnamPoolConfig) (memory : Nat) : Prop :=
  memory + poolTotal cfg ≤ 2 ^ 48

/-- What the pool proofs use of a layout. -/
structure SlotGeometry (layout : PoolLayout) : Prop where
  stride_pos : 24 ≤ layout.slotStride
  stride_dvd : 8 ∣ layout.slotStride
  base_pos : 16 ≤ layout.slotsBase
  base_dvd : 8 ∣ layout.slotsBase
  end_lt : layout.slotsBase + layout.slotCount * layout.slotStride < 2 ^ 64
  /-- The mask is zero, or the stride is a power of two and the mask is `stride - 1`. -/
  mask : layout.slotStrideMask = 0 ∨
    ∃ k, layout.slotStride = 2 ^ k ∧ layout.slotStrideMask = 2 ^ k - 1

/-- An alignment creation accepts is a power of two between `2^3` and `2^63`. -/
theorem alignment_pow_two {a : Nat} (hlt : a < 2 ^ 64) (h8 : 8 ≤ a)
    (hp : a &&& sizeSub a 1 = 0) : ∃ k, 3 ≤ k ∧ k < 64 ∧ a = 2 ^ k := by
  rw [sizeSub_one (by omega) hlt.le] at hp
  obtain ⟨k, rfl⟩ := pow_two_of_and_pred (by omega) hp
  refine ⟨k, ?_, (Nat.pow_lt_pow_iff_right (by omega)).mp hlt, rfl⟩
  by_contra hk
  have : 2 ^ k ≤ 2 ^ 2 := Nat.pow_le_pow_right (by omega) (by omega)
  omega

theorem effectiveAlignment_lt (cfg : AnamPoolConfig) : effectiveAlignment cfg < 2 ^ 64 := by
  unfold effectiveAlignment; split <;> [decide; exact cfg.alignment_lt]

theorem eight_dvd_two_pow {k : Nat} (h3 : 3 ≤ k) : 8 ∣ 2 ^ k := by
  rw [show k = 3 + (k - 3) by omega, Nat.pow_add]; exact Nat.dvd_mul_right _ _

section NoWrap

variable {cfg : AnamPoolConfig} {memory k : Nat}

theorem headerSize_eq (ha : effectiveAlignment cfg = 2 ^ k) (hk : k < 64) :
    alignUp slotHeaderSize (effectiveAlignment cfg) = roundUp slotHeaderSize (2 ^ k) := by
  have : 2 ^ k ≤ 2 ^ 63 := Nat.pow_le_pow_right (by omega) (by omega)
  rw [ha, alignUp_of_lt hk (by unfold slotHeaderSize; omega)]

theorem poolStride_eq (ha : effectiveAlignment cfg = 2 ^ k) (hk : k < 64) (h3 : 3 ≤ k)
    (hw : LayoutNoWrap cfg memory) :
    poolStride cfg = roundUp slotHeaderSize (2 ^ k) + roundUp cfg.slotSize (2 ^ k) := by
  obtain ⟨h1, h2, -⟩ := hw
  simp only [ha] at h1 h2
  have h8 : 8 ∣ 2 ^ k := eight_dvd_two_pow h3
  have hd : 8 ∣ roundUp slotHeaderSize (2 ^ k) + roundUp cfg.slotSize (2 ^ k) :=
    Nat.dvd_add (Nat.dvd_trans h8 (roundUp_dvd _ _)) (Nat.dvd_trans h8 (roundUp_dvd _ _))
  rw [poolStride, headerSize_eq ha hk, ha, alignUp_of_lt hk h1, sizeAdd,
    Nat.mod_eq_of_lt (by omega), show (8 : Nat) = 2 ^ 3 from rfl, alignUp_of_lt (by omega) h2]
  exact roundUp_of_dvd (by omega) hd

theorem poolTotal_eq (ha : effectiveAlignment cfg = 2 ^ k) (hk : k < 64) (h3 : 3 ≤ k)
    (hw : LayoutNoWrap cfg memory) :
    poolTotal cfg = poolStride cfg * cfg.slotCount + 2 ^ k := by
  have hs := poolStride_eq ha hk h3 hw
  obtain ⟨-, -, h3', -⟩ := hw
  have ht : poolStride cfg * cfg.slotCount + 2 ^ k + 2 ^ k - 1 < 2 ^ 64 := by
    rw [hs]; simpa only [ha] using h3'
  have hp : 1 ≤ 2 ^ k := Nat.one_le_two_pow
  rw [poolTotal, ha, sizeMul, sizeAdd, Nat.mod_eq_of_lt (by omega), Nat.mod_eq_of_lt (by omega),
    alignUp_of_lt hk (by omega), roundUp_of_dvd (by omega)]
  rw [hs]
  exact Nat.dvd_add (Nat.dvd_trans (Nat.dvd_add (roundUp_dvd _ _) (roundUp_dvd _ _))
    (Nat.dvd_mul_right _ _)) (Nat.dvd_refl _)

theorem slotsBase_eq (ha : effectiveAlignment cfg = 2 ^ k) (hk : k < 64)
    (hw : LayoutNoWrap cfg memory) :
    (poolLayout cfg memory).slotsBase = roundUp (memory + slotHeaderSize) (2 ^ k) := by
  obtain ⟨-, -, -, h4, -⟩ := hw
  simp only [ha] at h4
  have hp : 1 ≤ 2 ^ k := Nat.one_le_two_pow
  simp only [poolLayout, ha, sizeAdd]
  rw [Nat.mod_eq_of_lt (by omega), alignUp_of_lt hk h4]

end NoWrap

/-- A pool created without a wrap has the geometry the pool proofs use. -/
theorem anamPoolCreate_geometry {config : Option AnamPoolConfig}
    {alignedAlloc : Nat → Nat → Option Nat} {pool : AnamPool}
    (h : anamPoolCreate config alignedAlloc = some pool)
    (hw : LayoutNoWrap (config.getD anamPoolDefault) pool.layout.memory) :
    SlotGeometry pool.layout := by
  obtain ⟨hs, -, hp, h8, -, -⟩ := anamPoolCreate_eq_some h
  obtain ⟨k, hk3, hk, ha⟩ := alignment_pow_two (effectiveAlignment_lt _) h8 hp
  have hL := anamPoolCreate_layout h
  have hstride := poolStride_eq ha hk hk3 hw
  have hbase := slotsBase_eq ha hk hw
  have hpos : 0 < 2 ^ k := Nat.pos_pow_of_pos k (by omega)
  have h16 : slotHeaderSize = 16 := rfl
  have hhd := roundUp_bounds (v := slotHeaderSize) hpos
  have hus := Nat.le_of_dvd (Nat.lt_of_lt_of_le hs (roundUp_bounds hpos).1)
    (roundUp_dvd (config.getD anamPoolDefault).slotSize (2 ^ k))
  have hbb := roundUp_bounds (v := pool.layout.memory + slotHeaderSize) hpos
  have h8k := eight_dvd_two_pow hk3
  obtain ⟨-, h2, -, -, hend⟩ := hw
  simp only [ha, ← hstride] at h2 hend
  have hsp : 24 ≤ poolStride (config.getD anamPoolDefault) := by rw [hstride]; omega
  rw [hL]
  refine ⟨hsp, ?_, ?_, ?_, ?_, ?_⟩
  · show 8 ∣ poolStride _
    rw [hstride]
    exact Nat.dvd_add (Nat.dvd_trans h8k (roundUp_dvd _ _)) (Nat.dvd_trans h8k (roundUp_dvd _ _))
  · rw [hbase]; omega
  · rw [hbase]; exact Nat.dvd_trans h8k (roundUp_dvd _ _)
  · rw [hbase]; exact hend
  · simp only [poolLayout]
    split
    · rename_i hm
      rw [sizeSub_one (by omega) (by omega)] at hm ⊢
      obtain ⟨j, hj⟩ := pow_two_of_and_pred (by omega) hm
      exact .inr ⟨j, hj, by rw [hj]⟩
    · exact .inl rfl

/-- Without a wrap the slot region starts one header into the buffer and ends at most 15
bytes past it. -/
theorem anamPoolCreate_span {config : Option AnamPoolConfig}
    {alignedAlloc : Nat → Nat → Option Nat} {pool : AnamPool}
    (h : anamPoolCreate config alignedAlloc = some pool)
    (hw : LayoutNoWrap (config.getD anamPoolDefault) pool.layout.memory) :
    pool.layout.memory + slotHeaderSize ≤ pool.layout.slotsBase ∧
    pool.layout.slotsBase + pool.layout.slotCount * pool.layout.slotStride ≤
      pool.layout.memory + poolTotal (config.getD anamPoolDefault) + 15 := by
  obtain ⟨-, -, hp, h8, -, -⟩ := anamPoolCreate_eq_some h
  obtain ⟨k, hk3, hk, ha⟩ := alignment_pow_two (effectiveAlignment_lt _) h8 hp
  have hL := anamPoolCreate_layout h
  have hstride : pool.layout.slotStride = poolStride (config.getD anamPoolDefault) := by
    rw [hL]; rfl
  have hcount : pool.layout.slotCount = (config.getD anamPoolDefault).slotCount := by
    rw [hL]; rfl
  have hbb := roundUp_bounds (v := pool.layout.memory + slotHeaderSize)
    (Nat.pos_pow_of_pos k (show 0 < 2 by omega))
  rw [← slotsBase_eq ha hk hw, ← hL] at hbb
  rw [poolTotal_eq ha hk hk3 hw, ← hstride, ← hcount]
  have := Nat.mul_comm pool.layout.slotStride pool.layout.slotCount
  have h16 : slotHeaderSize = 16 := rfl
  omega

/-- With the buffer below `2^48`, every slot address survives its handle field. -/
theorem anamPoolCreate_fits {config : Option AnamPoolConfig}
    {alignedAlloc : Nat → Nat → Option Nat} {pool : AnamPool}
    (h : anamPoolCreate config alignedAlloc = some pool)
    (hw : LayoutNoWrap (config.getD anamPoolDefault) pool.layout.memory)
    (hb : BufferBelow48 (config.getD anamPoolDefault) pool.layout.memory) :
    pool.layout.slotsBase + (pool.layout.slotCount - 1) * pool.layout.slotStride < 2 ^ 48 := by
  have hs := (anamPoolCreate_span h hw).2
  have h24 := (anamPoolCreate_geometry h hw).stride_pos
  have hn : 0 < pool.layout.slotCount := by
    rw [anamPoolCreate_layout h]; exact (anamPoolCreate_eq_some h).2.1
  obtain ⟨m, hm⟩ : ∃ m, pool.layout.slotCount = m + 1 :=
    ⟨pool.layout.slotCount - 1, by omega⟩
  rw [hm, Nat.succ_mul] at hs
  rw [hm, Nat.add_sub_cancel]
  unfold BufferBelow48 at hb
  omega

/-! ## Slots of a pool with a sound geometry -/

section Geometry

variable {layout : PoolLayout} (hg : SlotGeometry layout)
include hg

theorem slotRegionEnd_eq :
    sizeAdd layout.slotsBase (sizeMul layout.slotCount layout.slotStride) =
      layout.slotsBase + layout.slotCount * layout.slotStride := by
  have := hg.end_lt
  unfold sizeAdd sizeMul
  rw [Nat.mod_eq_of_lt (by omega), Nat.mod_eq_of_lt (by omega)]

theorem slotFromIndex_eq {i : Nat} (hi : i < layout.slotCount) :
    slotFromIndex layout i = layout.slotsBase + i * layout.slotStride := by
  have hle : i * layout.slotStride ≤ layout.slotCount * layout.slotStride :=
    Nat.mul_le_mul_right _ hi.le
  have := hg.end_lt
  unfold slotFromIndex sizeAdd sizeMul
  rw [Nat.mod_eq_of_lt (by omega), Nat.mod_eq_of_lt (by omega)]

theorem slotFromIndex_inj {i j : Nat} (hi : i < layout.slotCount) (hj : j < layout.slotCount)
    (h : slotFromIndex layout i = slotFromIndex layout j) : i = j := by
  rw [slotFromIndex_eq hg hi, slotFromIndex_eq hg hj] at h
  exact Nat.eq_of_mul_eq_mul_right (by have := hg.stride_pos; omega) (Nat.add_left_cancel h)

/-- Slot addresses are positive multiples of 8. -/
theorem slotFromIndex_aligned {i : Nat} (hi : i < layout.slotCount) :
    0 < slotFromIndex layout i ∧ slotFromIndex layout i % 8 = 0 := by
  rw [slotFromIndex_eq hg hi]
  have := hg.base_pos
  have hd := Nat.dvd_add hg.base_dvd (Nat.dvd_trans hg.stride_dvd (Nat.dvd_mul_left _ i))
  exact ⟨by omega, Nat.mod_eq_zero_of_dvd hd⟩

/-- Distinct slots have distinct user pointers. -/
theorem slotFromIndex_ne {i j : Nat} (hi : i < layout.slotCount) (hj : j < layout.slotCount)
    (h : i ≠ j) : slotFromIndex layout i ≠ slotFromIndex layout j :=
  fun he => h (slotFromIndex_inj hg hi hj he)

/-- The mask test is the division test, whenever the mask is in use. -/
theorem maskTest_eq (off : Nat) (hm : layout.slotStrideMask ≠ 0) :
    off &&& layout.slotStrideMask = off % layout.slotStride := by
  rcases hg.mask with h | ⟨k, hs, hmk⟩
  · exact absurd h hm
  · rw [hmk, hs, Nat.and_pow_two_sub_one_eq_mod]

/-- `in_pool` on a sound geometry: a range check, then the stride test in the strict build. -/
theorem inPool_eq (strictValidation : Bool) (ptr : Nat) :
    inPool strictValidation layout ptr =
      (decide (layout.slotsBase ≤ ptr ∧
          ptr < layout.slotsBase + layout.slotCount * layout.slotStride)
        && (!strictValidation || (ptr - layout.slotsBase) % layout.slotStride == 0)) := by
  dsimp only [inPool]
  rw [slotRegionEnd_eq hg]
  by_cases hr :
    ptr < layout.slotsBase ∨ ptr ≥ layout.slotsBase + layout.slotCount * layout.slotStride
  · rw [if_pos hr, decide_eq_false (by omega), Bool.false_and]
  · rw [if_neg hr, decide_eq_true (by omega), Bool.true_and]
    cases strictValidation
    · rfl
    · simp only [if_true, Bool.not_true, Bool.false_or]
      split
      · rw [maskTest_eq hg _ ‹_›]
      · rfl

/-- `in_pool` accepts the slot user pointers, in either build. -/
theorem inPool_slotFromIndex (strictValidation : Bool) {i : Nat} (hi : i < layout.slotCount) :
    inPool strictValidation layout (slotFromIndex layout i) = true := by
  have hlt : i * layout.slotStride < layout.slotCount * layout.slotStride :=
    Nat.mul_lt_mul_of_pos_right hi (by have := hg.stride_pos; omega)
  rw [inPool_eq hg, slotFromIndex_eq hg hi, Nat.add_sub_cancel_left, Nat.mul_mod_left]
  simp only [Bool.and_eq_true, decide_eq_true_eq]
  exact ⟨by omega, by simp⟩

/-- In the strict build, `in_pool` accepts exactly the slot user pointers. -/
theorem inPool_strict_iff (ptr : Nat) :
    inPool true layout ptr = true ↔ ∃ i < layout.slotCount, ptr = slotFromIndex layout i := by
  constructor
  · intro h
    have hsp := hg.stride_pos
    rw [inPool_eq hg] at h
    simp only [Bool.not_true, Bool.false_or, Bool.and_eq_true, decide_eq_true_eq,
      beq_iff_eq] at h
    obtain ⟨⟨hlo, hhi⟩, hmod⟩ := h
    have hq := Nat.div_mul_cancel (Nat.dvd_of_mod_eq_zero hmod)
    have hi : (ptr - layout.slotsBase) / layout.slotStride < layout.slotCount :=
      (Nat.div_lt_iff_lt_mul (by omega)).mpr (by omega)
    exact ⟨_, hi, by rw [slotFromIndex_eq hg hi, hq]; omega⟩
  · rintro ⟨i, hi, rfl⟩
    exact inPool_slotFromIndex hg true hi

end Geometry

/-! ## What creation does not check -/

/-- `align_up` leaves a value that is already a multiple of the alignment alone. -/
theorem alignUp_of_dvd {x k : Nat} (hk : k < 64) (hx : 2 ^ k ∣ x) (hlt : x < 2 ^ 64) :
    alignUp x (2 ^ k) = x := by
  have h64 : 2 ^ k ∣ 2 ^ 64 := Nat.pow_dvd_pow 2 hk.le
  have hle : x + 2 ^ k ≤ 2 ^ 64 := by
    obtain ⟨q, rfl⟩ := hx; obtain ⟨r, hr⟩ := h64
    have : q < r := Nat.lt_of_mul_lt_mul_left (by rw [← hr]; exact hlt)
    rw [hr, ← Nat.mul_succ]; exact Nat.mul_le_mul_left _ this
  rw [alignUp_of_lt hk (by have := Nat.one_le_two_pow (n := k); omega),
    roundUp_of_dvd (Nat.pos_pow_of_pos k (by omega)) hx]

/-- Every slot of every created pool sits on a multiple of the alignment, whatever the
configuration and the buffer; when its address is nonzero and below `2^48`, each of its
handles decodes back to it. -/
theorem slot_handle_roundtrip {config : Option AnamPoolConfig}
    {alignedAlloc : Nat → Nat → Option Nat} {pool : AnamPool}
    (h : anamPoolCreate config alignedAlloc = some pool) (i : Nat) :
    pool.layout.alignment ∣ slotFromIndex pool.layout i ∧ 8 ∣ slotFromIndex pool.layout i ∧
    (0 < slotFromIndex pool.layout i → slotFromIndex pool.layout i < 2 ^ 48 →
      ∀ gen < 2 ^ 16, ∀ state < 8,
        decodeAddr (encodeHandle gen (slotFromIndex pool.layout i) state) =
            slotFromIndex pool.layout i ∧
        decodeGen (encodeHandle gen (slotFromIndex pool.layout i) state) = gen ∧
        anamState (encodeHandle gen (slotFromIndex pool.layout i) state) = state ∧
        encodeHandle gen (slotFromIndex pool.layout i) state ≠ anamNull) := by
  obtain ⟨-, -, hp, h8, -, -⟩ := anamPoolCreate_eq_some h
  obtain ⟨k, hk3, hk, ha⟩ := alignment_pow_two (effectiveAlignment_lt _) h8 hp
  have hL := anamPoolCreate_layout h
  have h64 : 2 ^ k ∣ 2 ^ 64 := Nat.pow_dvd_pow 2 hk.le
  have h8k := eight_dvd_two_pow hk3
  have hsum : 2 ^ k ∣ sizeAdd (alignUp slotHeaderSize (2 ^ k))
      (alignUp (config.getD anamPoolDefault).slotSize (2 ^ k)) :=
    (Nat.dvd_mod_iff h64).mpr (Nat.dvd_add (alignUp_dvd _ hk) (alignUp_dvd _ hk))
  have hstride : 2 ^ k ∣ pool.layout.slotStride := by
    rw [hL]
    show 2 ^ k ∣ poolStride _
    rw [poolStride, ha, show (8 : Nat) = 2 ^ 3 from rfl,
      alignUp_of_dvd (by omega) (Nat.dvd_trans h8k hsum) (Nat.mod_lt _ (by omega))]
    exact hsum
  have hbase : 2 ^ k ∣ pool.layout.slotsBase := by
    rw [hL]; show 2 ^ k ∣ alignUp _ _; rw [ha]; exact alignUp_dvd _ hk
  have hslot : 2 ^ k ∣ slotFromIndex pool.layout i :=
    (Nat.dvd_mod_iff h64).mpr (Nat.dvd_add hbase
      ((Nat.dvd_mod_iff h64).mpr (Nat.dvd_trans hstride (Nat.dvd_mul_left _ _))))
  have halign : pool.layout.alignment = 2 ^ k := by rw [hL]; exact ha
  refine ⟨halign ▸ hslot, Nat.dvd_trans h8k hslot, fun hpos h48 gen hg state hs => ?_⟩
  have hfit : AddrFits (slotFromIndex pool.layout i) :=
    ⟨Nat.mod_eq_zero_of_dvd (Nat.dvd_trans h8k hslot), h48⟩
  exact ⟨decodeAddr_encodeHandle_of_fits hfit _ _,
    by rw [decodeGen_encodeHandle, Nat.mod_eq_of_lt hg],
    by rw [anamState_encodeHandle, Nat.mod_eq_of_lt hs], encodeHandle_ne_null hfit hpos _ _⟩

theorem slot_handle_roundtrip_default :
    anamPoolCreate none (fun _ _ => some 4096) = some (pushSlots (freshPool
      (poolLayout anamPoolDefault 4096)) 1024) ∧
    decodeAddr (encodeHandle 7 (slotFromIndex (poolLayout anamPoolDefault 4096) 3) stateLive) =
      slotFromIndex (poolLayout anamPoolDefault 4096) 3 := by
  refine ⟨rfl, ?_⟩
  have h := @slot_handle_roundtrip none (fun _ _ => some 4096) _ rfl 3
  simp only [pushSlots_layout] at h
  exact (h.2.2 (by decide) (by decide) 7 (by decide) stateLive (by decide)).1

/-- Creation accepts a buffer at `2^48`, and the slot's address does not survive its handle. -/
theorem buffer_above_2_48_accepted :
    ∃ pool, anamPoolCreate (some ⟨64, 1, 8, false, false, by decide, by decide, by decide⟩)
        (fun _ _ => some (2 ^ 48)) = some pool ∧
      decodeAddr (encodeHandle 0 (slotFromIndex pool.layout 0) stateLive) ≠
        slotFromIndex pool.layout 0 :=
  ⟨_, rfl, by decide⟩

end Anamnesis

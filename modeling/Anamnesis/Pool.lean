import Anamnesis.Layout

/-!
# Pool operations, one call at a time

`anam_alloc`, `anam_release`, `anam_get` and `anam_validate` as a single thread runs them.
Run alone, each compare-exchange loop of the source finds the value it loaded a moment
before and succeeds on its first turn, and the `generation_max` bump loop runs at most once;
the functions below are those first turns. `Anamnesis.Thread` keeps every atomic step apart
and shows that a thread running alone computes exactly these functions.

`anam_release` and `anam_get` open with the same four checks: a null handle is refused
quietly, and a handle with the wrong state, an address outside the slot region or a stale
generation is a counterfeit and bumps `anamnesis_count`. `authenticate` is those checks,
once.

The payload bytes are not modelled: nothing here reads them, and the memsets of
`zero_on_alloc` and `zero_on_release` touch nothing else. A header is kept apart from the
payloads, as two maps keyed by user pointer that only the header stores of the source write.
In the default build `in_pool` checks only that an address lies in the slot region, so a
forged handle may carry an address inside a slot: the source then reads that address's
"header" from payload bytes, where the model reads a generation no store has touched. The two
may answer such a handle differently; every result here is about handles `anam_alloc`
returned, or about the strict build, where `in_pool` refuses such addresses.
-/

namespace Anamnesis

/-- `atomic_fetch_add(&pool->anamnesis_count, 1)`. -/
def countAnamnesis (pool : AnamPool) : AnamPool :=
  { pool with anamnesisCount := sizeAdd pool.anamnesisCount 1 }

/-- The outcome of the checks that open `anam_release` and `anam_get`. -/
inductive Verdict
  /-- `anam_is_null(handle)`: refused, and not counted. -/
  | null
  /-- Wrong state, outside the pool, or a generation the header does not hold. -/
  | counterfeit
  /-- The handle authenticates; its user pointer. -/
  | genuine (userPtr : Nat)
deriving DecidableEq, Repr

/-- The checks shared by `anam_release` and `anam_get`. -/
def authenticate (strictValidation : Bool) (pool : AnamPool) (handle : Nat) : Verdict :=
  if anamIsNull handle then .null
  else if anamState handle ≠ stateLive then .counterfeit
  else if !inPool strictValidation pool.layout (decodeAddr handle) then .counterfeit
  else if decodeGen handle ≠ pool.generation (decodeAddr handle) then .counterfeit
  else .genuine (decodeAddr handle)

/-- The effect of `anam_alloc` once it has taken the slot at `userPtr` off the list. -/
def popFree (pool : AnamPool) (userPtr : Nat) : AnamPool :=
  let gen := pool.generation userPtr
  { pool with
    freeHead := pool.next userPtr
    generationMax := if gen > pool.generationMax then gen else pool.generationMax
    next := Function.update pool.next userPtr anamNull
    slotsFree := sizeSub pool.slotsFree 1
    allocCount := sizeAdd pool.allocCount 1 }

/-- `anam_alloc`: pop the head of the free list and hand out a LIVE handle to it. -/
def anamAlloc (pool : AnamPool) : AnamPool × Nat :=
  let oldHead := pool.freeHead
  if anamIsNull oldHead then (pool, anamNull)
  else
    let userPtr := decodeAddr oldHead
    (popFree pool userPtr, encodeHandle (pool.generation userPtr) userPtr stateLive)

/-- The accepting tail of `anam_release`: bump the generation, push the slot back. -/
def pushFree (pool : AnamPool) (userPtr : Nat) : AnamPool :=
  let newGen := (pool.generation userPtr + 1) % 2 ^ 16
  { pool with
    generation := Function.update pool.generation userPtr newGen
    next := Function.update pool.next userPtr pool.freeHead
    freeHead := encodeHandle newGen userPtr stateFree
    slotsFree := sizeAdd pool.slotsFree 1
    releaseCount := sizeAdd pool.releaseCount 1 }

/-- `anam_release`. -/
def anamRelease (strictValidation : Bool) (pool : AnamPool) (handle : Nat) : AnamPool × Bool :=
  match authenticate strictValidation pool handle with
  | .null => (pool, false)
  | .counterfeit => (countAnamnesis pool, false)
  | .genuine userPtr => (pushFree pool userPtr, true)

/-- `anam_get`; `0` is `NULL`. -/
def anamGet (strictValidation : Bool) (pool : AnamPool) (handle : Nat) : AnamPool × Nat :=
  match authenticate strictValidation pool handle with
  | .null => (pool, 0)
  | .counterfeit => (countAnamnesis pool, 0)
  | .genuine userPtr => (pool, userPtr)

/-- `anam_validate`. -/
def anamValidate (strictValidation : Bool) (pool : AnamPool) (handle : Nat) : AnamPool × Bool :=
  let r := anamGet strictValidation pool handle
  (r.1, r.2 != 0)

/-- `AnamPoolStats`. -/
structure AnamPoolStats where
  slotCount : Nat
  slotsFree : Nat
  slotsLive : Nat
  allocCount : Nat
  releaseCount : Nat
  anamnesisCount : Nat
  generationMax : Nat
deriving DecidableEq, Repr

/-- `anam_pool_stats`. -/
def anamPoolStats (pool : AnamPool) : AnamPoolStats where
  slotCount := pool.layout.slotCount
  slotsFree := pool.slotsFree
  slotsLive := sizeSub pool.layout.slotCount pool.slotsFree
  allocCount := pool.allocCount
  releaseCount := pool.releaseCount
  anamnesisCount := pool.anamnesisCount
  generationMax := pool.generationMax

/-! ## Frame lemmas -/

section Frame

variable (pool : AnamPool) (p : Nat)

@[simp] theorem countAnamnesis_layout : (countAnamnesis pool).layout = pool.layout := rfl
@[simp] theorem countAnamnesis_freeHead : (countAnamnesis pool).freeHead = pool.freeHead := rfl
@[simp] theorem countAnamnesis_next : (countAnamnesis pool).next = pool.next := rfl
@[simp] theorem countAnamnesis_generation :
    (countAnamnesis pool).generation = pool.generation := rfl
@[simp] theorem countAnamnesis_slotsFree : (countAnamnesis pool).slotsFree = pool.slotsFree := rfl
@[simp] theorem countAnamnesis_allocCount :
    (countAnamnesis pool).allocCount = pool.allocCount := rfl
@[simp] theorem countAnamnesis_releaseCount :
    (countAnamnesis pool).releaseCount = pool.releaseCount := rfl

@[simp] theorem popFree_layout : (popFree pool p).layout = pool.layout := rfl
@[simp] theorem popFree_freeHead : (popFree pool p).freeHead = pool.next p := rfl
@[simp] theorem popFree_next : (popFree pool p).next = Function.update pool.next p anamNull := rfl
@[simp] theorem popFree_generation : (popFree pool p).generation = pool.generation := rfl
@[simp] theorem popFree_slotsFree : (popFree pool p).slotsFree = sizeSub pool.slotsFree 1 := rfl
@[simp] theorem popFree_allocCount :
    (popFree pool p).allocCount = sizeAdd pool.allocCount 1 := rfl
@[simp] theorem popFree_releaseCount : (popFree pool p).releaseCount = pool.releaseCount := rfl

@[simp] theorem pushFree_layout : (pushFree pool p).layout = pool.layout := rfl
@[simp] theorem pushFree_next :
    (pushFree pool p).next = Function.update pool.next p pool.freeHead := rfl
@[simp] theorem pushFree_generation : (pushFree pool p).generation =
    Function.update pool.generation p ((pool.generation p + 1) % 2 ^ 16) := rfl
@[simp] theorem pushFree_slotsFree : (pushFree pool p).slotsFree = sizeAdd pool.slotsFree 1 := rfl
@[simp] theorem pushFree_allocCount : (pushFree pool p).allocCount = pool.allocCount := rfl
@[simp] theorem pushFree_releaseCount :
    (pushFree pool p).releaseCount = sizeAdd pool.releaseCount 1 := rfl

end Frame

@[simp] theorem anamAlloc_layout (pool : AnamPool) : (anamAlloc pool).1.layout = pool.layout := by
  unfold anamAlloc; dsimp only; split <;> rfl

/-- `anam_alloc` on an empty list returns `ANAM_NULL` and changes nothing. -/
theorem anamAlloc_of_null {pool : AnamPool} (h : pool.freeHead = anamNull) :
    anamAlloc pool = (pool, anamNull) := by
  simp [anamAlloc, h, anamNull]

/-- `anam_alloc` on a list whose head is the FREE handle of `p` pops `p`. -/
theorem anamAlloc_of_head {pool : AnamPool} {g p : Nat} (hfit : AddrFits p) (hp : 0 < p)
    (h : pool.freeHead = encodeHandle g p stateFree) :
    anamAlloc pool = (popFree pool p, encodeHandle (pool.generation p) p stateLive) := by
  have hne := encodeHandle_ne_null hfit hp g stateFree
  have hn : anamIsNull (encodeHandle g p stateFree) = false := by simpa [anamIsNull] using hne
  simp [anamAlloc, h, hn, decodeAddr_encodeHandle_of_fits hfit]

@[simp] theorem anamRelease_layout (sv : Bool) (pool : AnamPool) (h : Nat) :
    (anamRelease sv pool h).1.layout = pool.layout := by
  unfold anamRelease; split <;> rfl

@[simp] theorem anamGet_layout (sv : Bool) (pool : AnamPool) (h : Nat) :
    (anamGet sv pool h).1.layout = pool.layout := by
  unfold anamGet; split <;> rfl

/-- `anam_get` changes nothing but, for a counterfeit, `anamnesis_count`. -/
theorem anamGet_fst (sv : Bool) (pool : AnamPool) (h : Nat) :
    (anamGet sv pool h).1 = pool ∨ (anamGet sv pool h).1 = countAnamnesis pool := by
  unfold anamGet; split <;> simp

@[simp] theorem authenticate_null (sv : Bool) (pool : AnamPool) :
    authenticate sv pool anamNull = .null := by
  simp [authenticate, anamNull]

/-- `anam_validate` is `anam_get` compared with `NULL`, state included. -/
theorem anamValidate_eq (sv : Bool) (pool : AnamPool) (h : Nat) :
    anamValidate sv pool h = ((anamGet sv pool h).1, (anamGet sv pool h).2 != 0) := rfl

/-- A call that does not authenticate leaves everything but `anamnesis_count` alone. -/
theorem anamRelease_of_counterfeit {sv : Bool} {pool : AnamPool} {h : Nat}
    (hv : authenticate sv pool h = .counterfeit) :
    anamRelease sv pool h = (countAnamnesis pool, false) := by
  simp [anamRelease, hv]

/-- Counting an anamnesis changes no verdict. -/
@[simp] theorem authenticate_countAnamnesis (sv : Bool) (pool : AnamPool) (h : Nat) :
    authenticate sv (countAnamnesis pool) h = authenticate sv pool h := rfl

theorem anamGet_of_counterfeit {sv : Bool} {pool : AnamPool} {h : Nat}
    (hv : authenticate sv pool h = .counterfeit) :
    anamGet sv pool h = (countAnamnesis pool, 0) := by
  simp [anamGet, hv]

theorem anamRelease_of_genuine {sv : Bool} {pool : AnamPool} {h p : Nat}
    (hv : authenticate sv pool h = .genuine p) :
    anamRelease sv pool h = (pushFree pool p, true) := by
  simp [anamRelease, hv]

theorem anamGet_of_genuine {sv : Bool} {pool : AnamPool} {h p : Nat}
    (hv : authenticate sv pool h = .genuine p) :
    anamGet sv pool h = (pool, p) := by
  simp [anamGet, hv]

/-! ## Authenticating a slot's handle -/

/-- A LIVE handle to a slot of a sound geometry authenticates exactly when its generation is
the one in the header. -/
theorem authenticate_slot {layout : PoolLayout} (hg : SlotGeometry layout) {sv : Bool}
    {pool : AnamPool} (hl : pool.layout = layout) {i : Nat} (hi : i < layout.slotCount)
    (hfit : AddrFits (slotFromIndex layout i)) (g : Nat) :
    authenticate sv pool (encodeHandle g (slotFromIndex layout i) stateLive) =
      if g % 2 ^ 16 = pool.generation (slotFromIndex layout i)
      then .genuine (slotFromIndex layout i) else .counterfeit := by
  have hne := encodeHandle_ne_null hfit (slotFromIndex_aligned hg hi).1 g stateLive
  have hin := inPool_slotFromIndex hg sv hi
  unfold authenticate
  rw [if_neg (by simpa [anamNull] using hne), anamState_encodeHandle,
    if_neg (by decide), decodeAddr_encodeHandle_of_fits hfit, hl, hin, decodeGen_encodeHandle]
  by_cases hgen : g % 2 ^ 16 = pool.generation (slotFromIndex layout i) <;> simp [hgen]

/-- What a genuine verdict says about the handle. -/
theorem authenticate_genuine {sv : Bool} {pool : AnamPool} {h p : Nat}
    (hv : authenticate sv pool h = .genuine p) :
    p = decodeAddr h ∧ inPool sv pool.layout p = true ∧ decodeGen h = pool.generation p ∧
      anamState h = stateLive ∧ h ≠ anamNull := by
  unfold authenticate at hv
  split_ifs at hv with h1 h2 h3 h4
  cases hv
  simp only [Bool.not_eq_true', Bool.not_eq_false'] at h3
  refine ⟨rfl, by simpa using h3, by simpa using h4, by simpa using h2, ?_⟩
  simpa [anamNull] using h1

/-! ## The strict build -/

/-- In the strict build, a pool created without a wrap has an `in_pool` that accepts exactly
the slot user pointers, with the mask test and the division test in agreement; so in every
later state of the pool, `anam_get` and `anam_release` accept only handles whose address is
a slot's user pointer, and a release pushes only such an address onto the free list. -/
theorem strict_inPool_exact {config : Option AnamPoolConfig}
    {alignedAlloc : Nat → Nat → Option Nat} {pool : AnamPool}
    (h : anamPoolCreate config alignedAlloc = some pool)
    (hw : LayoutNoWrap (config.getD anamPoolDefault) pool.layout.memory) :
    (∀ ptr, inPool true pool.layout ptr = true ↔
      ∃ i < pool.layout.slotCount, ptr = slotFromIndex pool.layout i) ∧
    (pool.layout.slotStrideMask ≠ 0 → ∀ off,
      (off &&& pool.layout.slotStrideMask == 0) = (off % pool.layout.slotStride == 0)) ∧
    (∀ later : AnamPool, later.layout = pool.layout → ∀ handle,
      ((anamGet true later handle).2 ≠ 0 →
        ∃ i < pool.layout.slotCount, decodeAddr handle = slotFromIndex pool.layout i) ∧
      ((anamRelease true later handle).2 = true →
        ∃ i < pool.layout.slotCount, decodeAddr handle = slotFromIndex pool.layout i ∧
          ∃ g, (anamRelease true later handle).1.freeHead =
            encodeHandle g (slotFromIndex pool.layout i) stateFree)) := by
  have hg := anamPoolCreate_geometry h hw
  refine ⟨inPool_strict_iff hg, fun hm off => by rw [maskTest_eq hg off hm], ?_⟩
  intro later hl handle
  have slot_of : ∀ p, authenticate true later handle = .genuine p →
      ∃ i < pool.layout.slotCount, decodeAddr handle = slotFromIndex pool.layout i ∧
        p = slotFromIndex pool.layout i := by
    intro p hv
    obtain ⟨rfl, hin, -⟩ := authenticate_genuine hv
    rw [hl] at hin
    obtain ⟨i, hi, he⟩ := (inPool_strict_iff hg _).mp hin
    exact ⟨i, hi, he, he⟩
  constructor
  · intro hget
    unfold anamGet at hget
    split at hget
    · exact absurd rfl hget
    · exact absurd rfl hget
    · obtain ⟨i, hi, he, -⟩ := slot_of _ ‹_›
      exact ⟨i, hi, he⟩
  · intro hrel
    unfold anamRelease at hrel ⊢
    split at hrel
    · cases hrel
    · cases hrel
    · rename_i p hv
      obtain ⟨i, hi, he, rfl⟩ := slot_of p hv
      exact ⟨i, hi, he, _, rfl⟩

theorem strict_inPool_exact_default :
    inPool true (poolLayout anamPoolDefault 4096)
      (slotFromIndex (poolLayout anamPoolDefault 4096) 5) = true := by
  have hw : LayoutNoWrap anamPoolDefault 4096 := by refine ⟨?_, ?_, ?_, ?_, ?_⟩ <;> decide
  have hl : (pushSlots (freshPool (poolLayout anamPoolDefault 4096)) 1024).layout =
      poolLayout anamPoolDefault 4096 := by simp
  have h := (@strict_inPool_exact none (fun _ _ => some 4096)
    (pushSlots (freshPool (poolLayout anamPoolDefault 4096)) 1024) rfl (by rw [hl]; exact hw)).1
  rw [hl] at h
  exact (h _).mpr ⟨5, by decide, rfl⟩

end Anamnesis

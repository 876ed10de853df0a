import Anamnesis.Pool

/-!
# The free list over every single-threaded history

A client on one thread calls `anam_alloc`, `anam_release`, `anam_get` and `anam_validate`
in any order, passing only null handles or handles this pool issued, and never uses a
handle after its slot has been released `2^16` times since the handle was issued. This
module proves what holds in every state such a client can reach.

The world pairs the concrete pool with a ghost record of the history: the free list as slot
indices, which slots are live, how often each slot was released (its unbounded generation),
every handle issued, and a clock stamping the releases. `PoolInv` ties the two together:

* the chain from `free_head` through the header `next` links reads back the ghost free
  list, every entry a FREE handle carrying its header's generation;
* the free slots are exactly the ones that are not live, in stack order: the released ones,
  most recent release first, then the never-allocated ones by index;
* each header generation is the slot's release count modulo `2^16`, and a handle issued
  for a slot carries the release count at its issue;
* the counters agree with the list.

Every property of a reachable state is then a statement about one step from a state
satisfying `PoolInv`.
-/

namespace Anamnesis

/-- The free list read from `head` through the header `next` links, as slot indices: each
link is the FREE handle of a slot, carrying the generation its header holds. -/
inductive FreeChain (layout : PoolLayout) (next generation : Nat → Nat) :
    Nat → List Nat → Prop
  | nil : FreeChain layout next generation anamNull []
  | cons {i : Nat} {rest : List Nat} :
      FreeChain layout next generation (next (slotFromIndex layout i)) rest →
      FreeChain layout next generation
        (encodeHandle (generation (slotFromIndex layout i)) (slotFromIndex layout i) stateFree)
        (i :: rest)

/-- A chain only reads the headers of its own slots. -/
theorem FreeChain.congr {layout : PoolLayout} {next next' generation generation' : Nat → Nat}
    {head : Nat} {l : List Nat} (h : FreeChain layout next generation head l)
    (hn : ∀ i ∈ l, next' (slotFromIndex layout i) = next (slotFromIndex layout i))
    (hg : ∀ i ∈ l, generation' (slotFromIndex layout i) = generation (slotFromIndex layout i)) :
    FreeChain layout next' generation' head l := by
  induction h with
  | nil => exact .nil
  | @cons i rest _ ih =>
    have h1 := hn i (List.mem_cons_self _ _)
    have h2 := hg i (List.mem_cons_self _ _)
    rw [← h2]
    refine .cons ?_
    rw [h1]
    exact ih (fun j hj => hn j (List.mem_cons_of_mem _ hj))
      (fun j hj => hg j (List.mem_cons_of_mem _ hj))

/-- A call a client makes, with its handle argument. -/
inductive Call
  | alloc
  | release (handle : Nat)
  | get (handle : Nat)
  | validate (handle : Nat)
deriving DecidableEq, Repr

/-- The pool with the ghost record of a single-threaded history. -/
structure World where
  pool : AnamPool
  /-- The free list as slot indices, top first. -/
  free : List Nat
  /-- Allocated and not released since. -/
  live : Nat → Bool
  /-- Allocated at least once. -/
  allocated : Nat → Bool
  /-- Slots below `fresh` have been allocated; the others never were. -/
  fresh : Nat
  /-- Successful releases of the slot so far: its unbounded generation. -/
  releases : Nat → Nat
  /-- The clock at the slot's latest successful release. -/
  releasedAt : Nat → Nat
  /-- The handle the slot's latest allocation returned. -/
  lastAlloc : Nat → Nat
  /-- Every handle `anam_alloc` returned, with its slot and the slot's release count then. -/
  issued : List (Nat × Nat × Nat)
  /-- Successful allocations and releases so far. -/
  allocs : Nat
  rels : Nat
  /-- Calls made so far. -/
  clock : Nat

/-- The world right after `anam_pool_create`. -/
def World.init (pool : AnamPool) : World where
  pool := pool
  free := List.range pool.layout.slotCount
  live := fun _ => false
  allocated := fun _ => false
  fresh := 0
  releases := fun _ => 0
  releasedAt := fun _ => 0
  lastAlloc := fun _ => anamNull
  issued := []
  allocs := 0
  rels := 0
  clock := 0

/-- The slot index of a user pointer; ghost bookkeeping only. -/
def slotIndex (layout : PoolLayout) (userPtr : Nat) : Nat :=
  (userPtr - layout.slotsBase) / layout.slotStride

/-- `anam_alloc` and its ghost effect: the top of the free list goes live. -/
def World.alloc (w : World) : World :=
  let r := anamAlloc w.pool
  match w.free with
  | [] => { w with pool := r.1, clock := w.clock + 1 }
  | i :: rest =>
    { w with
      pool := r.1
      free := rest
      live := Function.update w.live i true
      allocated := Function.update w.allocated i true
      fresh := if i = w.fresh then w.fresh + 1 else w.fresh
      lastAlloc := Function.update w.lastAlloc i r.2
      issued := (r.2, i, w.releases i) :: w.issued
      allocs := w.allocs + 1
      clock := w.clock + 1 }

/-- `anam_release` and its ghost effect: an accepted slot goes back on top. -/
def World.release (sv : Bool) (w : World) (handle : Nat) : World :=
  let r := anamRelease sv w.pool handle
  if r.2 then
    let i := slotIndex w.pool.layout (decodeAddr handle)
    { w with
      pool := r.1
      free := i :: w.free
      live := Function.update w.live i false
      releases := Function.update w.releases i (w.releases i + 1)
      releasedAt := Function.update w.releasedAt i w.clock
      rels := w.rels + 1
      clock := w.clock + 1 }
  else { w with pool := r.1, clock := w.clock + 1 }

/-- One call. -/
def World.act (sv : Bool) (w : World) : Call → World
  | .alloc => w.alloc
  | .release h => w.release sv h
  | .get h => { w with pool := (anamGet sv w.pool h).1, clock := w.clock + 1 }
  | .validate h => { w with pool := (anamValidate sv w.pool h).1, clock := w.clock + 1 }

/-- `handle` is the handle of slot `i`'s latest allocation, and the slot has not been
released since. -/
def World.Current (w : World) (i handle : Nat) : Prop :=
  w.live i = true ∧ w.lastAlloc i = handle

instance (w : World) (i handle : Nat) : Decidable (w.Current i handle) :=
  inferInstanceAs (Decidable (_ ∧ _))

/-- The hypothesis on a handle argument: null, or issued by this pool and used before its
slot has been released `2^16` times since the issue. -/
def HandleOk (w : World) (handle : Nat) : Prop :=
  handle = anamNull ∨ ∃ i g, (handle, i, g) ∈ w.issued ∧ w.releases i < g + 2 ^ 16

/-- The hypotheses on a call. -/
def Call.Admissible (w : World) : Call → Prop
  | .alloc => True
  | .release h => HandleOk w h
  | .get h => HandleOk w h
  | .validate h => HandleOk w h

/-- `HandleOk` as a search of the issued handles. -/
theorem handleOk_iff (w : World) (handle : Nat) :
    HandleOk w handle ↔ handle = anamNull ∨
      ∃ x ∈ w.issued, x.1 = handle ∧ w.releases x.2.1 < x.2.2 + 2 ^ 16 :=
  or_congr_right ⟨fun ⟨_, _, hm, hr⟩ => ⟨_, hm, rfl, hr⟩,
    fun ⟨⟨_, i, g⟩, hm, e, hr⟩ => ⟨i, g, e ▸ hm, hr⟩⟩

instance (w : World) (handle : Nat) : Decidable (HandleOk w handle) :=
  decidable_of_iff _ (handleOk_iff w handle).symm

instance (w : World) : (c : Call) → Decidable (c.Admissible w)
  | .alloc => inferInstanceAs (Decidable True)
  | .release h | .get h | .validate h => inferInstanceAs (Decidable (HandleOk w h))

/-- The worlds a single-threaded client reaches from a fresh pool. -/
inductive Reachable (sv : Bool) (pool₀ : AnamPool) : World → Prop
  | init : Reachable sv pool₀ (World.init pool₀)
  | step {w : World} {c : Call} : Reachable sv pool₀ w → c.Admissible w →
      Reachable sv pool₀ (w.act sv c)

/-! ## Reading a chain -/

theorem FreeChain.cons_inv {layout : PoolLayout} {next generation : Nat → Nat} {head i : Nat}
    {rest : List Nat} (h : FreeChain layout next generation head (i :: rest)) :
    head = encodeHandle (generation (slotFromIndex layout i)) (slotFromIndex layout i) stateFree ∧
      FreeChain layout next generation (next (slotFromIndex layout i)) rest := by
  cases h with
  | cons h => exact ⟨rfl, h⟩

theorem FreeChain.nil_inv {layout : PoolLayout} {next generation : Nat → Nat} {head : Nat}
    (h : FreeChain layout next generation head []) : head = anamNull := by
  cases h; rfl

/-- Linking slot `i` in front of a chain that does not hold it, with generation `gen`. -/
theorem FreeChain.push {layout : PoolLayout} {next generation : Nat → Nat} {head i : Nat}
    {l : List Nat} (h : FreeChain layout next generation head l)
    (hne : ∀ j ∈ l, slotFromIndex layout j ≠ slotFromIndex layout i) (gen : Nat) :
    FreeChain layout (Function.update next (slotFromIndex layout i) head)
      (Function.update generation (slotFromIndex layout i) gen)
      (encodeHandle gen (slotFromIndex layout i) stateFree) (i :: l) := by
  have := @FreeChain.cons layout (Function.update next (slotFromIndex layout i) head)
    (Function.update generation (slotFromIndex layout i) gen) i l (by
      rw [Function.update_same]
      exact h.congr (fun j hj => by simp [hne j hj]) (fun j hj => by simp [hne j hj]))
  rwa [Function.update_same] at this

/-! ## Creation threads every slot -/

theorem pushInit_frame (pool : AnamPool) (i : Nat) :
    (pushInit pool i).slotsFree = pool.slotsFree ∧
      (pushInit pool i).allocCount = pool.allocCount ∧
      (pushInit pool i).releaseCount = pool.releaseCount := ⟨rfl, rfl, rfl⟩

theorem pushSlots_frame (pool : AnamPool) (k : Nat) :
    (pushSlots pool k).slotsFree = pool.slotsFree ∧
      (pushSlots pool k).allocCount = pool.allocCount ∧
      (pushSlots pool k).releaseCount = pool.releaseCount := by
  induction k generalizing pool with
  | zero => exact ⟨rfl, rfl, rfl⟩
  | succ k ih => simpa only [pushSlots, pushInit_frame] using ih (pushInit pool k)

/-- The creation loop, from slot `k - 1` down to slot 0, stacks `0, ..., k - 1` on top of a
chain holding `k, ..., k + m - 1`, all at generation 0. -/
theorem pushSlots_chain {pool : AnamPool} (hg : SlotGeometry pool.layout) {k m : Nat}
    (hkm : k + m ≤ pool.layout.slotCount)
    (hc : FreeChain pool.layout pool.next pool.generation pool.freeHead (List.range' k m))
    (h0 : ∀ i, k ≤ i → i < k + m → pool.generation (slotFromIndex pool.layout i) = 0) :
    FreeChain pool.layout (pushSlots pool k).next (pushSlots pool k).generation
        (pushSlots pool k).freeHead (List.range' 0 (k + m)) ∧
      ∀ i < k + m, (pushSlots pool k).generation (slotFromIndex pool.layout i) = 0 := by
  induction k generalizing pool m with
  | zero =>
    rw [Nat.zero_add] at h0 ⊢
    exact ⟨hc, fun i hi => h0 i (Nat.zero_le _) hi⟩
  | succ k ih =>
    have hne : ∀ j ∈ List.range' (k + 1) m,
        slotFromIndex pool.layout j ≠ slotFromIndex pool.layout k := by
      intro j hj
      rw [List.mem_range'_1] at hj
      exact slotFromIndex_ne hg (by omega) (by omega) (by omega)
    have hc' : FreeChain (pushInit pool k).layout (pushInit pool k).next
        (pushInit pool k).generation (pushInit pool k).freeHead (List.range' k (m + 1)) :=
      hc.push hne 0
    have h0' : ∀ i, k ≤ i → i < k + (m + 1) →
        (pushInit pool k).generation (slotFromIndex pool.layout i) = 0 := by
      intro i hi1 hi2
      by_cases hik : i = k
      · subst hik; simp [pushInit]
      · have hne' := slotFromIndex_ne hg (by omega : i < _) (by omega : k < _) hik
        simp [pushInit, hne', h0 i (by omega) (by omega)]
    have := @ih (pushInit pool k) hg (m + 1) (by simp; omega) hc' h0'
    rw [show k + (m + 1) = k + 1 + m by omega] at this
    exact this

/-! ## Stack order -/

/-- The free list in stack order: slots released since creation, latest release first (by
the clock `stamp` of their release, all before `clock`), then the slots from `fresh` up
that were never allocated, by index. -/
def StackOrder (stamp : Nat → Nat) (clock fresh n : Nat) (free : List Nat) : Prop :=
  ∃ recent, free = recent ++ List.range' fresh (n - fresh) ∧
    recent.Pairwise (fun i j => stamp j < stamp i) ∧
      ∀ i ∈ recent, i < fresh ∧ stamp i < clock

section StackOrder

variable {stamp : Nat → Nat} {clock fresh n i : Nat} {free rest : List Nat}

theorem StackOrder.tick (h : StackOrder stamp clock fresh n free) :
    StackOrder stamp (clock + 1) fresh n free := by
  obtain ⟨recent, he, hord, hlt⟩ := h
  exact ⟨recent, he, hord, fun j hj => ⟨(hlt j hj).1, Nat.lt_succ_of_lt (hlt j hj).2⟩⟩

/-- The never-allocated slots are all on the list. -/
theorem StackOrder.mem (h : StackOrder stamp clock fresh n free) (hf : fresh ≤ i) (hn : i < n) :
    i ∈ free := by
  obtain ⟨recent, rfl, -⟩ := h
  exact List.mem_append_right _ (List.mem_range'_1.mpr ⟨hf, by omega⟩)

/-- `anam_alloc` takes the latest release, or else the lowest never-allocated slot. -/
theorem StackOrder.pop (h : StackOrder stamp clock fresh n (i :: rest)) :
    i ≤ fresh ∧ StackOrder stamp clock (if i = fresh then fresh + 1 else fresh) n rest := by
  obtain ⟨recent, he, hord, hlt⟩ := h
  cases recent with
  | nil =>
    obtain ⟨m, hm⟩ : ∃ m, n - fresh = m + 1 := by
      cases hk : n - fresh with
      | zero => simp [hk] at he
      | succ m => exact ⟨m, rfl⟩
    rw [List.nil_append, hm, List.range'_succ] at he
    obtain ⟨rfl, rfl⟩ := List.cons.inj he
    refine ⟨le_rfl, [], ?_, List.Pairwise.nil, by simp⟩
    rw [if_pos rfl, List.nil_append, show n - (i + 1) = m by omega]
  | cons j recent =>
    obtain ⟨rfl, rfl⟩ := List.cons.inj he
    have hj := (hlt i (List.mem_cons_self _ _)).1
    rw [if_neg (by omega)]
    exact ⟨hj.le, recent, rfl, (List.pairwise_cons.mp hord).2,
      fun k hk => hlt k (List.mem_cons_of_mem _ hk)⟩

/-- `anam_release` puts an allocated slot on top, stamped with the current clock. -/
theorem StackOrder.push (h : StackOrder stamp clock fresh n free) (hi : i < fresh)
    (hn : i ∉ free) :
    StackOrder (Function.update stamp i clock) (clock + 1) fresh n (i :: free) := by
  obtain ⟨recent, rfl, hord, hlt⟩ := h
  have hne : ∀ j ∈ recent, j ≠ i := fun j hj he => hn (he ▸ List.mem_append_left _ hj)
  refine ⟨i :: recent, rfl, List.pairwise_cons.mpr ⟨fun j hj => ?_, ?_⟩, ?_⟩
  · simpa [Function.update_noteq (hne j hj)] using (hlt j hj).2
  · exact hord.imp_of_mem fun hj hk hjk => by
      simpa [Function.update_noteq (hne _ hj), Function.update_noteq (hne _ hk)] using hjk
  · intro j hj
    rcases List.mem_cons.mp hj with rfl | hj
    · simp [hi]
    · simpa [Function.update_noteq (hne j hj)] using
        ⟨(hlt j hj).1, Nat.lt_succ_of_lt (hlt j hj).2⟩

end StackOrder

/-! ## The invariant -/

/-- What every reachable world satisfies. -/
structure PoolInv (w : World) : Prop where
  /-- The layout is sound. -/
  geom : SlotGeometry w.pool.layout
  /-- Every slot address survives its handle field. -/
  fits : w.pool.layout.slotsBase + (w.pool.layout.slotCount - 1) * w.pool.layout.slotStride < 2 ^ 48
  /-- The headers spell out the free list. -/
  chain : FreeChain w.pool.layout w.pool.next w.pool.generation w.pool.freeHead w.free
  nodup : w.free.Nodup
  free_lt : ∀ i ∈ w.free, i < w.pool.layout.slotCount
  /-- Free is exactly not live. -/
  free_iff : ∀ i < w.pool.layout.slotCount, i ∈ w.free ↔ w.live i = false
  fresh_le : w.fresh ≤ w.pool.layout.slotCount
  allocated_iff : ∀ i, w.allocated i = true ↔ i < w.fresh
  stack : StackOrder w.releasedAt w.clock w.fresh w.pool.layout.slotCount w.free
  /-- Header generations count releases. -/
  generation : ∀ i < w.pool.layout.slotCount,
    w.pool.generation (slotFromIndex w.pool.layout i) = w.releases i % 2 ^ 16
  /-- A live slot's latest handle carries its current release count. -/
  current : ∀ i, w.live i = true →
    w.lastAlloc i = encodeHandle (w.releases i) (slotFromIndex w.pool.layout i) stateLive
  /-- An issued handle carries the release count at its issue, and is current until the
  next release of its slot. -/
  issued : ∀ h i g, (h, i, g) ∈ w.issued → i < w.pool.layout.slotCount ∧
    h = encodeHandle g (slotFromIndex w.pool.layout i) stateLive ∧ g ≤ w.releases i ∧
    (g = w.releases i → w.live i = true ∧ w.lastAlloc i = h)
  /-- A live slot's latest handle is on record. -/
  live_issued : ∀ i, w.live i = true → (w.lastAlloc i, i, w.releases i) ∈ w.issued
  slotsFree : w.pool.slotsFree = w.free.length
  allocCount : w.pool.allocCount = w.allocs % 2 ^ 64
  releaseCount : w.pool.releaseCount = w.rels % 2 ^ 64
  balance : w.allocs + w.free.length = w.rels + w.pool.layout.slotCount

theorem PoolInv.init {config : Option AnamPoolConfig} {alignedAlloc : Nat → Nat → Option Nat}
    {pool : AnamPool} (h : anamPoolCreate config alignedAlloc = some pool)
    (hw : LayoutNoWrap (config.getD anamPoolDefault) pool.layout.memory)
    (hb : BufferBelow48 (config.getD anamPoolDefault) pool.layout.memory) :
    PoolInv (World.init pool) := by
  have hg := anamPoolCreate_geometry h hw
  have hpool := (anamPoolCreate_eq_some h).2.2.2.2.2
  have hL := anamPoolCreate_layout h
  have hn : pool.layout.slotCount = (config.getD anamPoolDefault).slotCount := by rw [hL]; rfl
  set fresh := freshPool (poolLayout (config.getD anamPoolDefault) pool.layout.memory)
  have hfl : fresh.layout = pool.layout := by rw [hL]; rfl
  have hbuild := @pushSlots_chain fresh (by rw [hfl]; exact hg) pool.layout.slotCount 0
    (by rw [hfl]; omega) (by simpa [fresh, freshPool] using FreeChain.nil)
    (fun i h1 h2 => by omega)
  rw [← hn] at hpool
  rw [hfl, Nat.add_zero, ← hpool, ← List.range_eq_range'] at hbuild
  have hframe := pushSlots_frame fresh pool.layout.slotCount
  rw [← hpool] at hframe
  refine ⟨hg, anamPoolCreate_fits h hw hb, hbuild.1, List.nodup_range _,
    fun i hi => List.mem_range.mp hi, fun i hi => by simpa [World.init] using hi, Nat.zero_le _,
    fun i => by simp [World.init], ⟨[], by simp [World.init, List.range_eq_range'], by simp,
    by simp⟩, fun i hi => (hbuild.2 i hi).trans (Nat.zero_mod _).symm, fun i hi => by
      simp [World.init] at hi, fun h i g hm => by simp [World.init] at hm, fun i hi => by
      simp [World.init] at hi, ?_, ?_, ?_, ?_⟩
  · show pool.slotsFree = (List.range _).length
    rw [hframe.1, List.length_range, hn]; rfl
  · exact hframe.2.1
  · exact hframe.2.2
  · simp [World.init]

/-! ## What an invariant state gives -/

theorem length_le_of_nodup {l : List Nat} {n : Nat} (hnd : l.Nodup) (hlt : ∀ i ∈ l, i < n) :
    l.length ≤ n := by
  simpa using (List.subperm_of_subset hnd fun i hi => List.mem_range.mpr (hlt i hi)).length_le

theorem slotIndex_slotFromIndex {layout : PoolLayout} (hg : SlotGeometry layout) {i : Nat}
    (hi : i < layout.slotCount) : slotIndex layout (slotFromIndex layout i) = i := by
  have := hg.stride_pos
  rw [slotIndex, slotFromIndex_eq hg hi, Nat.add_sub_cancel_left, Nat.mul_div_cancel _ (by omega)]

/-- Every slot address of a layout that ends below `2^48` fits a handle. -/
theorem slotFromIndex_fits {layout : PoolLayout} (hg : SlotGeometry layout)
    (hf : layout.slotsBase + (layout.slotCount - 1) * layout.slotStride < 2 ^ 48) {i : Nat}
    (hi : i < layout.slotCount) :
    AddrFits (slotFromIndex layout i) ∧ 0 < slotFromIndex layout i := by
  have ha := slotFromIndex_aligned hg hi
  have hle : i * layout.slotStride ≤ (layout.slotCount - 1) * layout.slotStride :=
    Nat.mul_le_mul_right _ (by omega)
  rw [slotFromIndex_eq hg hi] at ha ⊢
  exact ⟨⟨ha.2, by omega⟩, ha.1⟩

section Inv

variable {w : World} (hI : PoolInv w)
include hI

/-- Every slot address fits a handle. -/
theorem PoolInv.slot_fits {i : Nat} (hi : i < w.pool.layout.slotCount) :
    AddrFits (slotFromIndex w.pool.layout i) ∧ 0 < slotFromIndex w.pool.layout i :=
  slotFromIndex_fits hI.geom hI.fits hi

theorem PoolInv.slotCount_lt : w.pool.layout.slotCount < 2 ^ 64 := by
  have := hI.geom.end_lt
  have : w.pool.layout.slotCount ≤ w.pool.layout.slotCount * w.pool.layout.slotStride :=
    Nat.le_mul_of_pos_right _ (by have := hI.geom.stride_pos; omega)
  omega

/-- A live slot has been allocated. -/
theorem PoolInv.lt_fresh_of_live {i : Nat} (hi : i < w.pool.layout.slotCount)
    (hl : w.live i = true) : i < w.fresh := by
  by_contra hf
  have := (hI.free_iff i hi).mp (hI.stack.mem (by omega) hi)
  simp [this] at hl

/-- Within the horizon, an issued handle authenticates exactly while it is the handle of its
slot's latest allocation and the slot is live. -/
theorem PoolInv.authenticate_issued (sv : Bool) {h i g : Nat} (hm : (h, i, g) ∈ w.issued)
    (hz : w.releases i < g + 2 ^ 16) :
    authenticate sv w.pool h = if w.Current i h
      then .genuine (slotFromIndex w.pool.layout i) else .counterfeit := by
  obtain ⟨hi, rfl, hle, hcur⟩ := hI.issued h i g hm
  have hfit := (hI.slot_fits hi).1
  rw [authenticate_slot hI.geom rfl hi hfit, hI.generation i hi]
  refine if_congr ⟨fun he => hcur (by omega), fun ⟨hl, he⟩ => ?_⟩ rfl rfl
  rw [hI.current i hl] at he
  exact (encodeHandle_inj hfit hfit he).1.symm

/-- A slot's current handle authenticates. -/
theorem PoolInv.authenticate_live (sv : Bool) {i : Nat} (hi : i < w.pool.layout.slotCount) :
    authenticate sv w.pool (encodeHandle (w.releases i) (slotFromIndex w.pool.layout i) stateLive)
      = .genuine (slotFromIndex w.pool.layout i) := by
  rw [authenticate_slot hI.geom rfl hi (hI.slot_fits hi).1, hI.generation i hi, if_pos rfl]

theorem PoolInv.anamGet_live (sv : Bool) {i : Nat} (hi : i < w.pool.layout.slotCount) :
    anamGet sv w.pool (encodeHandle (w.releases i) (slotFromIndex w.pool.layout i) stateLive)
      = (w.pool, slotFromIndex w.pool.layout i) :=
  anamGet_of_genuine (hI.authenticate_live sv hi)

/-- `anam_alloc` pops the top of the free list and hands out its current handle. -/
theorem PoolInv.anamAlloc_cons {i : Nat} {rest : List Nat} (hf : w.free = i :: rest) :
    anamAlloc w.pool = (popFree w.pool (slotFromIndex w.pool.layout i),
      encodeHandle (w.releases i) (slotFromIndex w.pool.layout i) stateLive) := by
  have hi := hI.free_lt i (hf ▸ List.mem_cons_self _ _)
  obtain ⟨hfit, hpos⟩ := hI.slot_fits hi
  rw [anamAlloc_of_head hfit hpos (hf ▸ hI.chain).cons_inv.1, hI.generation i hi,
    encodeHandle_mod]

theorem PoolInv.anamAlloc_nil (hf : w.free = []) : anamAlloc w.pool = (w.pool, anamNull) :=
  anamAlloc_of_null (hf ▸ hI.chain).nil_inv

/-- The ghost slot index of an issued handle is its slot. -/
theorem PoolInv.slotIndex_issued {h i g : Nat} (hm : (h, i, g) ∈ w.issued) :
    slotIndex w.pool.layout (decodeAddr h) = i := by
  obtain ⟨hi, rfl, -⟩ := hI.issued h i g hm
  rw [decodeAddr_encodeHandle_of_fits (hI.slot_fits hi).1, slotIndex_slotFromIndex hI.geom hi]

/-- A call that leaves the free list alone: a refused handle, `anam_get`, `anam_validate`,
or `anam_alloc` on an empty list. -/
theorem PoolInv.tick {pool : AnamPool} (hp : pool = w.pool ∨ pool = countAnamnesis w.pool) :
    PoolInv { w with pool := pool, clock := w.clock + 1 } := by
  rcases hp with rfl | rfl <;> exact { hI with stack := hI.stack.tick }

/-- `anam_alloc` with `i` on top of the free list. -/
theorem PoolInv.alloc_cons {i : Nat} {rest : List Nat} (hf : w.free = i :: rest) :
    PoolInv w.alloc := by
  have hmem : i ∈ w.free := hf ▸ List.mem_cons_self _ _
  have hi := hI.free_lt i hmem
  obtain ⟨hfit, hpos⟩ := hI.slot_fits hi
  obtain ⟨hh, hrest⟩ := (hf ▸ hI.chain).cons_inv
  obtain ⟨hnot, hnd⟩ := List.nodup_cons.mp (hf ▸ hI.nodup)
  have hlive : w.live i = false := (hI.free_iff i hi).mp hmem
  have hlt : ∀ j ∈ rest, j < w.pool.layout.slotCount :=
    fun j hj => hI.free_lt j (hf ▸ List.mem_cons_of_mem _ hj)
  have hne : ∀ j ∈ rest, slotFromIndex w.pool.layout j ≠ slotFromIndex w.pool.layout i :=
    fun j hj => slotFromIndex_ne hI.geom (hlt j hj) hi (fun he => hnot (he ▸ hj))
  obtain ⟨hle, hstack⟩ := (hf ▸ hI.stack).pop
  have ha := hI.anamAlloc_cons hf
  have hlen : rest.length + 1 ≤ w.pool.layout.slotCount := by
    simpa [hf] using length_le_of_nodup hI.nodup hI.free_lt
  have hbal := hI.balance
  have hsl := hI.slotCount_lt
  rw [hf, List.length_cons] at hbal
  simp only [World.alloc, hf, ha]
  refine ⟨hI.geom, hI.fits, hrest.congr (fun j hj => by simp [hne j hj]) (fun _ _ => rfl), hnd,
    hlt, fun j hj => ?_, ?_, fun j => ?_, hstack.tick, hI.generation, fun j hj => ?_,
    fun h j g hm => ?_, fun j hj => ?_, ?_, ?_, hI.releaseCount, ?_⟩
  case refine_1 =>
    by_cases hji : j = i
    · subst hji; simp [hnot]
    · simpa [hf, hji] using hI.free_iff j hj
  case refine_2 =>
    show (if i = w.fresh then w.fresh + 1 else w.fresh) ≤ w.pool.layout.slotCount
    have := hI.fresh_le
    split_ifs <;> omega
  case refine_3 =>
    by_cases hji : j = i
    · subst hji; simp only [Function.update_same, true_iff]; split_ifs <;> omega
    · simp only [Function.update_noteq hji, hI.allocated_iff]; split_ifs <;> omega
  case refine_4 =>
    by_cases hji : j = i
    · subst hji; simp
    · simp only [Function.update_noteq hji] at hj ⊢; exact hI.current j hj
  case refine_5 =>
    rcases List.mem_cons.mp hm with he | hm
    · simp only [Prod.mk.injEq] at he
      obtain ⟨rfl, rfl, rfl⟩ := he
      exact ⟨hi, rfl, le_rfl, fun _ => by simp⟩
    · obtain ⟨hj, hh, hg, hc⟩ := hI.issued h j g hm
      refine ⟨hj, hh, hg, fun he => ?_⟩
      by_cases hji : j = i
      · subst hji; simp [hlive] at hc; exact absurd he hc
      · simpa [Function.update_noteq hji] using hc he
  case refine_6 =>
    by_cases hji : j = i
    · subst hji; simp
    · simp only [Function.update_noteq hji] at hj ⊢
      exact List.mem_cons_of_mem _ (hI.live_issued j hj)
  case refine_7 =>
    show sizeSub w.pool.slotsFree 1 = rest.length
    rw [hI.slotsFree, hf, List.length_cons, sizeSub]; omega
  case refine_8 =>
    show sizeAdd w.pool.allocCount 1 = (w.allocs + 1) % 2 ^ 64
    rw [hI.allocCount, sizeAdd]; omega
  case refine_9 =>
    show w.allocs + 1 + rest.length = w.rels + w.pool.layout.slotCount
    omega

/-- `anam_release` of the current handle of a live slot. -/
theorem PoolInv.release_current (sv : Bool) {h i g : Nat} (hm : (h, i, g) ∈ w.issued)
    (hz : w.releases i < g + 2 ^ 16) (hc : w.Current i h) :
    PoolInv (w.release sv h) := by
  have hi := (hI.issued h i g hm).1
  have hv : authenticate sv w.pool h = .genuine (slotFromIndex w.pool.layout i) := by
    rw [hI.authenticate_issued sv hm hz, if_pos hc]
  have hidx := hI.slotIndex_issued hm
  have hnot : i ∉ w.free := fun hmem => by simp [World.Current, (hI.free_iff i hi).mp hmem] at hc
  have hne : ∀ j ∈ w.free, slotFromIndex w.pool.layout j ≠ slotFromIndex w.pool.layout i :=
    fun j hj => slotFromIndex_ne hI.geom (hI.free_lt j hj) hi (fun he => hnot (he ▸ hj))
  have hlt : ∀ j ∈ i :: w.free, j < w.pool.layout.slotCount :=
    List.forall_mem_cons.mpr ⟨hi, hI.free_lt⟩
  have hlen := length_le_of_nodup (List.nodup_cons.mpr ⟨hnot, hI.nodup⟩) hlt
  have hsl := hI.slotCount_lt
  have hbal := hI.balance
  simp only [World.release, anamRelease_of_genuine hv, hidx, if_true]
  refine ⟨hI.geom, hI.fits, ?_, List.nodup_cons.mpr ⟨hnot, hI.nodup⟩, hlt, fun j hj => ?_,
    hI.fresh_le, hI.allocated_iff, hI.stack.push (hI.lt_fresh_of_live hi hc.1) hnot,
    fun j hj => ?_, fun j hj => ?_, fun h' j g' hm' => ?_, fun j hj => ?_, ?_, hI.allocCount,
    ?_, ?_⟩
  case refine_1 => exact hI.chain.push hne _
  case refine_2 =>
    by_cases hji : j = i
    · subst hji; simp
    · simpa [hji] using hI.free_iff j hj
  case refine_3 =>
    simp only [pushFree_layout, pushFree_generation]
    by_cases hji : j = i
    · subst hji; simp only [Function.update_same, hI.generation j hj]; omega
    · simpa [Function.update_noteq hji,
        Function.update_noteq (slotFromIndex_ne hI.geom hj hi hji)] using hI.generation j hj
  case refine_4 =>
    have hji : j ≠ i := by rintro rfl; simp at hj
    simpa [Function.update_noteq hji] using hI.current j (by simpa [hji] using hj)
  case refine_5 =>
    obtain ⟨hj, hh', hg', hc'⟩ := hI.issued h' j g' hm'
    by_cases hji : j = i
    · subst hji; simp only [Function.update_same]
      exact ⟨hj, hh', by omega, fun he => by omega⟩
    · simpa [Function.update_noteq hji] using ⟨hj, hh', hg', hc'⟩
  case refine_6 =>
    have hji : j ≠ i := by rintro rfl; simp at hj
    simpa [Function.update_noteq hji] using hI.live_issued j (by simpa [hji] using hj)
  case refine_7 =>
    show sizeAdd w.pool.slotsFree 1 = w.free.length + 1
    rw [hI.slotsFree, sizeAdd]; simp only [List.length_cons] at hlen; omega
  case refine_8 =>
    show sizeAdd w.pool.releaseCount 1 = (w.rels + 1) % 2 ^ 64
    rw [hI.releaseCount, sizeAdd]; omega
  case refine_9 =>
    show w.allocs + (w.free.length + 1) = w.rels + 1 + w.pool.layout.slotCount
    omega

/-- One admissible call keeps the invariant. -/
theorem PoolInv.act (sv : Bool) {c : Call} (hc : c.Admissible w) : PoolInv (w.act sv c) := by
  cases c with
  | alloc =>
    cases hf : w.free with
    | nil =>
      have he : w.alloc = { w with clock := w.clock + 1 } := by
        simp only [World.alloc, hf, hI.anamAlloc_nil hf]
      rw [World.act, he]
      exact hI.tick (.inl rfl)
    | cons i rest => exact hI.alloc_cons hf
  | release h =>
    rcases hc with rfl | ⟨i, g, hm, hz⟩
    · simp only [World.act, World.release, anamRelease, authenticate_null]
      exact hI.tick (.inl rfl)
    · by_cases hcur : w.Current i h
      · exact hI.release_current sv hm hz hcur
      · have hv : authenticate sv w.pool h = .counterfeit := by
          rw [hI.authenticate_issued sv hm hz, if_neg hcur]
        simp only [World.act, World.release, anamRelease_of_counterfeit hv]
        exact hI.tick (.inr rfl)
  | get h => exact hI.tick (anamGet_fst sv w.pool h)
  | validate h => exact hI.tick (anamGet_fst sv w.pool h)

end Inv

/-- Every world a single-threaded client reaches from a pool created without a wrap and
below `2^48` satisfies the invariant. -/
theorem PoolInv.reachable {config : Option AnamPoolConfig}
    {alignedAlloc : Nat → Nat → Option Nat}
    {pool₀ : AnamPool} (h : anamPoolCreate config alignedAlloc = some pool₀)
    (hw : LayoutNoWrap (config.getD anamPoolDefault) pool₀.layout.memory)
    (hb : BufferBelow48 (config.getD anamPoolDefault) pool₀.layout.memory) {sv : Bool} {w : World}
    (hr : Reachable sv pool₀ w) : PoolInv w := by
  induction hr with
  | init => exact PoolInv.init h hw hb
  | step _ hc ih => exact ih.act sv hc

/-! ## The free list over every history -/

theorem World.act_layout (sv : Bool) (w : World) (c : Call) :
    (w.act sv c).pool.layout = w.pool.layout := by
  cases c with
  | alloc => simp only [World.act, World.alloc]; split <;> simp
  | release h => simp only [World.act, World.release]; split <;> simp
  | get h => simp [World.act]
  | validate h => simp [World.act, anamValidate]

theorem Reachable.layout {sv : Bool} {pool₀ : AnamPool} {w : World}
    (hr : Reachable sv pool₀ w) : w.pool.layout = pool₀.layout := by
  induction hr with
  | init => rfl
  | step _ _ ih => rw [World.act_layout, ih]

/-- Calls made in turn, from left to right. -/
def World.run (sv : Bool) (w : World) (cs : List Call) : World :=
  cs.foldl (World.act sv) w

/-- Each call of `cs`, made in turn from `w`, keeps to the hypotheses on a call. -/
def World.admissibleRun (sv : Bool) : World → List Call → Bool
  | _, [] => true
  | w, c :: cs => decide (c.Admissible w) && World.admissibleRun sv (w.act sv c) cs

/-- A sequence of calls that keeps to the hypotheses leads from a reachable world to a
reachable world. -/
theorem Reachable.of_admissibleRun {sv : Bool} {pool₀ : AnamPool} :
    ∀ {w : World} {cs : List Call}, Reachable sv pool₀ w → World.admissibleRun sv w cs = true →
      Reachable sv pool₀ (w.run sv cs)
  | _, [], hr, _ => hr
  | w, c :: cs, hr, h => by
    simp only [World.admissibleRun, Bool.and_eq_true, decide_eq_true_eq] at h
    exact @Reachable.of_admissibleRun sv pool₀ _ cs (.step hr h.1) h.2

/-- In every state a single-threaded client reaches, the chain from `free_head` through the
header `next` links is a finite list of distinct slots, each linked by a FREE handle carrying
its header's generation; its members are the slots that are not live; it is in stack order,
with the never-allocated slots `fresh, fresh + 1, ...` at the bottom; every header
generation is the slot's release count modulo `2^16`; `slots_free` is the list's length, and
`alloc_count - release_count` (in `size_t`) is `slot_count - slots_free`. -/
theorem freeList_invariant {config : Option AnamPoolConfig}
    {alignedAlloc : Nat → Nat → Option Nat} {pool₀ : AnamPool}
    (h : anamPoolCreate config alignedAlloc = some pool₀)
    (hw : LayoutNoWrap (config.getD anamPoolDefault) pool₀.layout.memory)
    (hb : BufferBelow48 (config.getD anamPoolDefault) pool₀.layout.memory) {sv : Bool} {w : World}
    (hr : Reachable sv pool₀ w) :
    FreeChain w.pool.layout w.pool.next w.pool.generation w.pool.freeHead w.free ∧
      w.free.Nodup ∧ (∀ i ∈ w.free, i < w.pool.layout.slotCount) ∧
      (∀ i < w.pool.layout.slotCount, i ∈ w.free ↔ w.live i = false) ∧
      StackOrder w.releasedAt w.clock w.fresh w.pool.layout.slotCount w.free ∧
      (∀ i, w.allocated i = true ↔ i < w.fresh) ∧
      (∀ i < w.pool.layout.slotCount,
        w.pool.generation (slotFromIndex w.pool.layout i) = w.releases i % 2 ^ 16) ∧
      w.pool.slotsFree = w.free.length ∧
      sizeSub w.pool.allocCount w.pool.releaseCount =
        w.pool.layout.slotCount - w.pool.slotsFree := by
  have hI := PoolInv.reachable h hw hb hr
  have hlen := length_le_of_nodup hI.nodup hI.free_lt
  have hbal := hI.balance
  refine ⟨hI.chain, hI.nodup, hI.free_lt, hI.free_iff, hI.stack, hI.allocated_iff, hI.generation,
    hI.slotsFree, ?_⟩
  rw [hI.allocCount, hI.releaseCount, hI.slotsFree, sizeSub]
  have := hI.slotCount_lt
  omega

/-- Two slots; both allocated, the first released, then an `anam_get` of its stale handle.
The released slot is the whole free list, its header at the next generation. -/
theorem freeList_invariant_after_release :
    ∃ pool₀, anamPoolCreate (some ⟨64, 2, 8, false, false, of_decide_eq_true rfl,
        of_decide_eq_true rfl, of_decide_eq_true rfl⟩) (fun _ _ => some 4096) = some pool₀ ∧
      ∃ w, (World.init pool₀).run false [.alloc, .alloc, .release 4113, .get 4113] = w ∧
        w.free = [0] ∧
        FreeChain w.pool.layout w.pool.next w.pool.generation w.pool.freeHead [0] ∧
        w.pool.generation (slotFromIndex w.pool.layout 0) = 1 ∧ w.pool.slotsFree = 1 := by
  have hw : LayoutNoWrap ⟨64, 2, 8, false, false, of_decide_eq_true rfl, of_decide_eq_true rfl,
      of_decide_eq_true rfl⟩ 4096 := by
    refine ⟨?_, ?_, ?_, ?_, ?_⟩ <;> decide
  have hb : BufferBelow48 ⟨64, 2, 8, false, false, of_decide_eq_true rfl, of_decide_eq_true rfl,
      of_decide_eq_true rfl⟩ 4096 := by
    unfold BufferBelow48; decide
  obtain ⟨hc, -, -, -, -, -, hg, hs, -⟩ := @freeList_invariant (some ⟨64, 2, 8, false, false,
    of_decide_eq_true rfl, of_decide_eq_true rfl, of_decide_eq_true rfl⟩) (fun _ _ => some 4096)
    (pushSlots (freshPool (poolLayout ⟨64, 2, 8, false, false, of_decide_eq_true rfl,
      of_decide_eq_true rfl, of_decide_eq_true rfl⟩ 4096)) 2) rfl hw hb false _
    (@Reachable.of_admissibleRun false _ _ [.alloc, .alloc, .release 4113, .get 4113] .init
      (by decide))
  have hf : ((World.init (pushSlots (freshPool (poolLayout ⟨64, 2, 8, false, false,
      of_decide_eq_true rfl, of_decide_eq_true rfl, of_decide_eq_true rfl⟩ 4096)) 2)).run false
      [.alloc, .alloc, .release 4113, .get 4113]).free = [0] := by decide
  refine ⟨pushSlots (freshPool (poolLayout ⟨64, 2, 8, false, false, of_decide_eq_true rfl,
    of_decide_eq_true rfl, of_decide_eq_true rfl⟩ 4096)) 2, rfl, _, rfl, hf, hf ▸ hc, ?_,
    hs.trans (by rw [hf]; rfl)⟩
  rw [hg 0 (by decide)]
  decide

/-! ## Exhaustion and reuse -/

/-- The free list is empty exactly when every slot is live. -/
theorem PoolInv.free_eq_nil_iff {w : World} (hI : PoolInv w) :
    w.free = [] ↔ ∀ i < w.pool.layout.slotCount, w.live i = true := by
  refine ⟨fun hf i hi => ?_, fun hl => ?_⟩
  · by_contra hn
    have := (hI.free_iff i hi).mpr (Bool.eq_false_iff.mpr hn)
    rw [hf] at this
    exact List.not_mem_nil i this
  · cases hf : w.free with
    | nil => rfl
    | cons j rest =>
      have hj := hI.free_lt j (hf ▸ List.mem_cons_self _ _)
      have := (hI.free_iff j hj).mp (hf ▸ List.mem_cons_self _ _)
      rw [hl j hj] at this
      cases this

/-- In every state a single-threaded client reaches, `anam_alloc` returns `ANAM_NULL` exactly
when every slot is live, which is when `anam_pool_stats` reports no free slot, and such a
failed call leaves the pool as it was. -/
theorem anamAlloc_null_iff_exhausted {config : Option AnamPoolConfig}
    {alignedAlloc : Nat → Nat → Option Nat} {pool₀ : AnamPool}
    (h : anamPoolCreate config alignedAlloc = some pool₀)
    (hw : LayoutNoWrap (config.getD anamPoolDefault) pool₀.layout.memory)
    (hb : BufferBelow48 (config.getD anamPoolDefault) pool₀.layout.memory) {sv : Bool} {w : World}
    (hr : Reachable sv pool₀ w) :
    ((anamAlloc w.pool).2 = anamNull ↔ ∀ i < w.pool.layout.slotCount, w.live i = true) ∧
      ((anamAlloc w.pool).2 = anamNull ↔ (anamPoolStats w.pool).slotsFree = 0) ∧
      ((anamAlloc w.pool).2 = anamNull → (anamAlloc w.pool).1 = w.pool) := by
  have hI := PoolInv.reachable h hw hb hr
  have key : (anamAlloc w.pool).2 = anamNull ↔ w.free = [] := by
    cases hf : w.free with
    | nil => simp [hI.anamAlloc_nil hf]
    | cons i rest =>
      have hi := hI.free_lt i (hf ▸ List.mem_cons_self _ _)
      rw [hI.anamAlloc_cons hf]
      simpa using encodeHandle_ne_null (hI.slot_fits hi).1 (hI.slot_fits hi).2 _ stateLive
  refine ⟨key.trans hI.free_eq_nil_iff, key.trans ?_, fun hn => ?_⟩
  · rw [anamPoolStats, hI.slotsFree, List.length_eq_zero]
  · rw [hI.anamAlloc_nil (key.mp hn)]

/-- One allocation takes the only slot of a one-slot pool; the next `anam_alloc` fails. -/
theorem anamAlloc_null_iff_exhausted_one_slot :
    (anamAlloc ((World.init (pushSlots (freshPool (poolLayout ⟨64, 1, 8, false, false,
        of_decide_eq_true rfl, of_decide_eq_true rfl, of_decide_eq_true rfl⟩ 4096)) 1)).act
        false .alloc).pool).2 = anamNull := by
  have hw : LayoutNoWrap ⟨64, 1, 8, false, false, of_decide_eq_true rfl, of_decide_eq_true rfl,
      of_decide_eq_true rfl⟩ 4096 := by
    refine ⟨?_, ?_, ?_, ?_, ?_⟩ <;> decide
  have hb : BufferBelow48 ⟨64, 1, 8, false, false, of_decide_eq_true rfl, of_decide_eq_true rfl,
      of_decide_eq_true rfl⟩ 4096 := by
    unfold BufferBelow48; decide
  exact ((@anamAlloc_null_iff_exhausted (some ⟨64, 1, 8, false, false, of_decide_eq_true rfl,
    of_decide_eq_true rfl, of_decide_eq_true rfl⟩) (fun _ _ => some 4096) _ rfl hw hb false _
    (@Reachable.step _ _ _ .alloc .init trivial)).1.mpr (by decide))

/-- In every state a single-threaded client reaches, releasing a live slot's current handle
and then calling `anam_alloc` hands the same slot back, under a handle with the next
generation, which differs from the released one: the free list is a stack, and the stale
handle no longer matches. -/
theorem release_then_alloc_same_slot {config : Option AnamPoolConfig}
    {alignedAlloc : Nat → Nat → Option Nat} {pool₀ : AnamPool}
    (h : anamPoolCreate config alignedAlloc = some pool₀)
    (hw : LayoutNoWrap (config.getD anamPoolDefault) pool₀.layout.memory)
    (hb : BufferBelow48 (config.getD anamPoolDefault) pool₀.layout.memory) {sv : Bool} {w : World}
    (hr : Reachable sv pool₀ w) {i : Nat} (hi : i < w.pool.layout.slotCount)
    (hl : w.live i = true) :
    (anamRelease sv w.pool (w.lastAlloc i)).2 = true ∧
      (anamAlloc (anamRelease sv w.pool (w.lastAlloc i)).1).2 =
        encodeHandle (w.releases i + 1) (slotFromIndex w.pool.layout i) stateLive ∧
      (anamAlloc (anamRelease sv w.pool (w.lastAlloc i)).1).2 ≠ w.lastAlloc i := by
  have hI := PoolInv.reachable h hw hb hr
  have hm := hI.live_issued i hl
  have hv : authenticate sv w.pool (w.lastAlloc i) = .genuine (slotFromIndex w.pool.layout i) := by
    rw [hI.current i hl]; exact hI.authenticate_live sv hi
  have hI' := hI.release_current sv hm (by omega) ⟨hl, rfl⟩
  have hf' : (w.release sv (w.lastAlloc i)).free = i :: w.free := by
    simp [World.release, anamRelease_of_genuine hv, hI.slotIndex_issued hm]
  have hrel : (w.release sv (w.lastAlloc i)).releases i = w.releases i + 1 := by
    simp [World.release, anamRelease_of_genuine hv, hI.slotIndex_issued hm]
  have hpool : (w.release sv (w.lastAlloc i)).pool = (anamRelease sv w.pool (w.lastAlloc i)).1 := by
    simp [World.release, anamRelease_of_genuine hv]
  have hL : (w.release sv (w.lastAlloc i)).pool.layout = w.pool.layout :=
    World.act_layout sv w (.release _)
  have ha := hI'.anamAlloc_cons hf'
  rw [hL, hrel, hpool] at ha
  have hfit := (hI.slot_fits hi).1
  refine ⟨by rw [anamRelease_of_genuine hv], by rw [ha], fun he => ?_⟩
  rw [ha, hI.current i hl] at he
  have := (encodeHandle_inj hfit hfit he).1
  omega

/-- One allocation on a one-slot pool, released and allocated again. -/
theorem release_then_alloc_same_slot_one_slot :
    ((World.init (pushSlots (freshPool (poolLayout ⟨64, 1, 8, false, false,
        of_decide_eq_true rfl, of_decide_eq_true rfl, of_decide_eq_true rfl⟩ 4096)) 1)).act
        false .alloc).live 0 = true ∧
      (anamAlloc (anamRelease false ((World.init (pushSlots (freshPool (poolLayout ⟨64, 1, 8,
        false, false, of_decide_eq_true rfl, of_decide_eq_true rfl, of_decide_eq_true rfl⟩
        4096)) 1)).act false .alloc).pool (((World.init (pushSlots (freshPool (poolLayout
        ⟨64, 1, 8, false, false, of_decide_eq_true rfl, of_decide_eq_true rfl,
        of_decide_eq_true rfl⟩ 4096)) 1)).act false .alloc).lastAlloc 0)).1).2 ≠
        ((World.init (pushSlots (freshPool (poolLayout ⟨64, 1, 8, false, false,
        of_decide_eq_true rfl, of_decide_eq_true rfl, of_decide_eq_true rfl⟩ 4096)) 1)).act
        false .alloc).lastAlloc 0 := by
  have hw : LayoutNoWrap ⟨64, 1, 8, false, false, of_decide_eq_true rfl, of_decide_eq_true rfl,
      of_decide_eq_true rfl⟩ 4096 := by
    refine ⟨?_, ?_, ?_, ?_, ?_⟩ <;> decide
  have hb : BufferBelow48 ⟨64, 1, 8, false, false, of_decide_eq_true rfl, of_decide_eq_true rfl,
      of_decide_eq_true rfl⟩ 4096 := by
    unfold BufferBelow48; decide
  exact ⟨by decide, (@release_then_alloc_same_slot (some ⟨64, 1, 8, false, false,
    of_decide_eq_true rfl, of_decide_eq_true rfl, of_decide_eq_true rfl⟩) (fun _ _ => some 4096)
    _ rfl hw hb false _ (@Reachable.step _ _ _ .alloc .init trivial) 0 (by decide)
    (by decide)).2.2⟩

end Anamnesis

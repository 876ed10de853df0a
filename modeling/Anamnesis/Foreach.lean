import Mathlib.Data.Finset.Card
import Anamnesis.FreeList

/-!
# `anam_foreach`

`anam_foreach` walks the free list from `free_head` into a bitmap of free slots, then calls
the visitor on every slot the bitmap does not mark, in index order, with a LIVE handle built
from the slot header's generation, until the visitor returns false.

The walk reads whatever `free_head` and the header `next` fields hold. It stops at a null
handle, at a pointer `in_pool` refuses, at an index past the slots, or at a slot it has
already marked. Each turn that does not stop marks one index below `slot_count` that was
unmarked, so the walk stops within `slot_count + 1` turns on every pool, cyclic and corrupt
chains included (`freeWalk_terminates`).

On a pool a single-threaded client reached, the free list is the ghost list of
`Anamnesis.FreeList`, so the bitmap marks exactly the slots that are not live, and each
reported handle is the one `anam_alloc` returned for the slot's current incarnation
(`anamForeach_visits_live`).

The visitor is a function of the caller's state (`user_data`) and does not call back into
the pool.
-/

namespace Anamnesis

/-- One turn of the walk from handle `h`: the index it marks and the handle it loads next, or
`none` where the `while` loop ends. -/
def walkTurn (sv : Bool) (pool : AnamPool) (isFree : Nat → Bool) (h : Nat) :
    Option (Nat × Nat) :=
  if anamIsNull h then none
  else
    let userPtr := decodeAddr h
    if !inPool sv pool.layout userPtr then none
    else
      let idx := (userPtr - pool.layout.slotsBase) / pool.layout.slotStride
      if idx ≥ pool.layout.slotCount then none
      else if isFree idx then none
      else some (idx, pool.next userPtr)

/-- The `while` loop of `anam_foreach` run for at most `fuel` turns: the bitmap it leaves, or
`none` if it has not stopped by then. -/
def freeWalk (sv : Bool) (pool : AnamPool) : Nat → (Nat → Bool) → Nat → Option (Nat → Bool)
  | 0, _, _ => none
  | fuel + 1, isFree, h =>
    match walkTurn sv pool isFree h with
    | none => some isFree
    | some (idx, next) => freeWalk sv pool fuel (Function.update isFree idx true) next

/-- The `for` loop of `anam_foreach` over the indices `is`: every index the bitmap does not
mark is reported with its LIVE handle, until `fn` returns false. `fn` takes the caller's
state for `user_data`, the handle and the user pointer. -/
def foreachVisit {σ : Type} (pool : AnamPool) (isFree : Nat → Bool)
    (fn : σ → Nat → Nat → σ × Bool) : List Nat → σ → σ × List (Nat × Nat)
  | [], s => (s, [])
  | i :: is, s =>
    if isFree i then foreachVisit pool isFree fn is s
    else
      let userPtr := slotFromIndex pool.layout i
      let handle := encodeHandle (pool.generation userPtr) userPtr stateLive
      let r := fn s handle userPtr
      if r.2 then
        let rest := foreachVisit pool isFree fn is r.1
        (rest.1, (handle, userPtr) :: rest.2)
      else (r.1, [(handle, userPtr)])

/-- `anam_foreach`: the caller's state after the visits, and the `(handle, user_ptr)` of each
call of `fn` in order. `callocOk` is whether `calloc` returned the bitmap. The walk stops
within `slot_count + 1` turns (`freeWalk_terminates`), so that bound never cuts it short. -/
def anamForeach {σ : Type} (sv : Bool) (pool : AnamPool) (fn : σ → Nat → Nat → σ × Bool)
    (s : σ) (callocOk : Bool) : σ × List (Nat × Nat) :=
  if !callocOk then (s, [])
  else
    match freeWalk sv pool (pool.layout.slotCount + 1) (fun _ => false) pool.freeHead with
    | some isFree => foreachVisit pool isFree fn (List.range pool.layout.slotCount) s
    | none => (s, [])

/-! ## The walk stops on every pool -/

/-- A turn that goes on marks an unmarked index below `slot_count`. -/
theorem walkTurn_some {sv : Bool} {pool : AnamPool} {isFree : Nat → Bool} {h idx next : Nat}
    (ht : walkTurn sv pool isFree h = some (idx, next)) :
    idx < pool.layout.slotCount ∧ isFree idx = false := by
  simp only [walkTurn] at ht
  split_ifs at ht with h₁ h₂ h₃ h₄
  cases ht
  exact ⟨by omega, by simpa using h₄⟩

/-- The marked indices below `slot_count`. -/
theorem card_marked_update {n idx : Nat} {isFree : Nat → Bool} (hi : idx < n)
    (hf : isFree idx = false) :
    ((Finset.range n).filter fun i => Function.update isFree idx true i = true).card =
      ((Finset.range n).filter fun i => isFree i = true).card + 1 := by
  have hnot : idx ∉ (Finset.range n).filter fun i => isFree i = true := by simp [hf]
  rw [← Finset.card_insert_of_not_mem hnot]
  congr 1
  ext i
  by_cases e : i = idx
  · subst e; simp [hi]
  · simp [Function.update_noteq e, e]

/-- More fuel changes nothing once the walk has stopped. -/
theorem freeWalk_mono {sv : Bool} {pool : AnamPool} :
    ∀ {fuel : Nat} {isFree : Nat → Bool} {h : Nat} {r : Nat → Bool},
      freeWalk sv pool fuel isFree h = some r →
        ∀ m, freeWalk sv pool (fuel + m) isFree h = some r
  | 0, _, _, _, hw, _ => by cases hw
  | fuel + 1, isFree, h, r, hw, m => by
    rw [Nat.add_right_comm]
    simp only [freeWalk] at hw ⊢
    split at hw
    · exact hw
    · exact freeWalk_mono hw m

/-- A walk with more turns left than unmarked slots stops, and marks only slots. -/
theorem freeWalk_stops (sv : Bool) (pool : AnamPool) :
    ∀ (fuel : Nat) (isFree : Nat → Bool) (h : Nat),
      pool.layout.slotCount <
        fuel + ((Finset.range pool.layout.slotCount).filter fun i => isFree i = true).card →
      (∀ i, isFree i = true → i < pool.layout.slotCount) →
      ∃ r, freeWalk sv pool fuel isFree h = some r ∧
        ∀ i, r i = true → i < pool.layout.slotCount
  | 0, isFree, _, hn, _ => by
    have := (Finset.card_filter_le (Finset.range pool.layout.slotCount)
      fun i => isFree i = true).trans
      (Finset.card_range pool.layout.slotCount).le
    omega
  | fuel + 1, isFree, h, hn, hlt => by
    simp only [freeWalk]
    split
    · exact ⟨isFree, rfl, hlt⟩
    · next idx next ht =>
      obtain ⟨hi, hf⟩ := walkTurn_some ht
      refine freeWalk_stops sv pool fuel _ next (by rw [card_marked_update hi hf]; omega)
        fun i h' => ?_
      by_cases e : i = idx
      · exact e ▸ hi
      · exact hlt i (by rwa [Function.update_noteq e] at h')

/-- Whatever `free_head` and the header `next` fields hold, the walk of `anam_foreach` stops
within `slot_count + 1` turns, and every index it marks in `is_free` is below `slot_count`. -/
theorem freeWalk_terminates (sv : Bool) (pool : AnamPool) :
    ∃ isFree, freeWalk sv pool (pool.layout.slotCount + 1) (fun _ => false) pool.freeHead =
      some isFree ∧ ∀ i, isFree i = true → i < pool.layout.slotCount :=
  freeWalk_stops sv pool _ _ _ (by simp) (by simp)

/-! ## What the caller is told -/

/-- What `anam_foreach` is for: `fn` called on each `(handle, user_ptr)` of `slots` in order,
stopping right after the first call that returns false. -/
def callsUntil {σ : Type} (fn : σ → Nat → Nat → σ × Bool) :
    List (Nat × Nat) → σ → σ × List (Nat × Nat)
  | [], s => (s, [])
  | (h, u) :: rest, s =>
    let r := fn s h u
    if r.2 then
      let t := callsUntil fn rest r.1
      (t.1, (h, u) :: t.2)
    else (r.1, [(h, u)])

/-- The live slots of a world in index order, each with the handle `anam_alloc` returned for
its current incarnation. -/
def liveSlots (w : World) : List (Nat × Nat) :=
  ((List.range w.pool.layout.slotCount).filter (w.live ·)).map
    fun i => (w.lastAlloc i, slotFromIndex w.pool.layout i)

/-- The `for` loop calls `fn` on the unmarked slots, each with its header's generation. -/
theorem foreachVisit_eq {σ : Type} (pool : AnamPool) (isFree : Nat → Bool)
    (fn : σ → Nat → Nat → σ × Bool) :
    ∀ (is : List Nat) (s : σ), foreachVisit pool isFree fn is s =
      callsUntil fn ((is.filter (!isFree ·)).map fun i =>
        (encodeHandle (pool.generation (slotFromIndex pool.layout i)) (slotFromIndex pool.layout i)
          stateLive, slotFromIndex pool.layout i)) s
  | [], _ => rfl
  | i :: is, s => by
    by_cases hf : isFree i
    · simp [foreachVisit, hf, foreachVisit_eq pool isFree fn is s]
    · simp only [foreachVisit, hf, List.filter_cons, List.map_cons, callsUntil,
        foreachVisit_eq pool isFree fn is]
      rfl

section Walk

variable {sv : Bool} {pool : AnamPool} (hg : SlotGeometry pool.layout)
  (hfits : pool.layout.slotsBase + (pool.layout.slotCount - 1) * pool.layout.slotStride < 2 ^ 48)
include hg hfits

/-- From the handle of an unmarked slot, a turn marks that slot and loads its `next`. -/
theorem walkTurn_slot {isFree : Nat → Bool} {i : Nat} (hi : i < pool.layout.slotCount)
    (hf : isFree i = false) (gen state : Nat) :
    walkTurn sv pool isFree (encodeHandle gen (slotFromIndex pool.layout i) state) =
      some (i, pool.next (slotFromIndex pool.layout i)) := by
  obtain ⟨hfit, hpos⟩ := slotFromIndex_fits hg hfits hi
  have hidx := slotIndex_slotFromIndex hg hi
  simp only [slotIndex] at hidx
  simp [walkTurn, anamIsNull, encodeHandle_ne_null hfit hpos, decodeAddr_encodeHandle_of_fits hfit,
    inPool_slotFromIndex hg sv hi, hidx, hi, hf]

/-- Along a chain of distinct unmarked slots, a walk with fuel to spare marks exactly the
chain. -/
theorem freeWalk_chain {gen : Nat → Nat} {head : Nat} {l : List Nat}
    (hc : FreeChain pool.layout pool.next gen head l) :
    l.Nodup → (∀ i ∈ l, i < pool.layout.slotCount) →
    ∀ {fuel : Nat} {isFree : Nat → Bool}, l.length < fuel →
      (∀ i ∈ l, isFree i = false) →
      freeWalk sv pool fuel isFree head = some fun i => isFree i || decide (i ∈ l) := by
  induction hc with
  | nil =>
    intro _ _ fuel isFree hl _
    obtain ⟨k, rfl⟩ := Nat.exists_eq_add_of_lt hl
    simp [freeWalk, walkTurn, anamIsNull]
  | @cons i rest _ ih =>
    intro hnd hlt fuel isFree hl hun
    cases fuel with
    | zero => exact absurd hl (Nat.not_lt_zero _)
    | succ k =>
    have hi := hlt i (List.mem_cons_self _ _)
    have hnd' := List.nodup_cons.mp hnd
    have hrest : ∀ j ∈ rest, Function.update isFree i true j = false := fun j hj => by
      rw [Function.update_noteq (by rintro rfl; exact hnd'.1 hj)]
      exact hun j (List.mem_cons_of_mem _ hj)
    simp only [freeWalk, walkTurn_slot hg hfits hi (hun i (List.mem_cons_self _ _))]
    rw [ih hnd'.2 (fun j hj => hlt j (List.mem_cons_of_mem _ hj)) (by simpa using hl) hrest]
    congr 1
    funext j
    by_cases e : j = i
    · subst e; simp
    · simp [Function.update_noteq e, e]

end Walk

/-- In every state a single-threaded client reaches, `anam_foreach` with its bitmap allocated
calls `fn` once on each live slot and on no free slot, in slot index order, with the slot's
user pointer and the handle `anam_alloc` returned for its current incarnation, and stops
right after the first call that returns false. -/
theorem anamForeach_visits_live {config : Option AnamPoolConfig}
    {alignedAlloc : Nat → Nat → Option Nat} {pool₀ : AnamPool}
    (hc : anamPoolCreate config alignedAlloc = some pool₀)
    (hw : LayoutNoWrap (config.getD anamPoolDefault) pool₀.layout.memory)
    (hb : BufferBelow48 (config.getD anamPoolDefault) pool₀.layout.memory) {sv : Bool}
    {w : World} (hr : Reachable sv pool₀ w) {σ : Type} (fn : σ → Nat → Nat → σ × Bool)
    (s : σ) :
    anamForeach sv w.pool fn s true = callsUntil fn (liveSlots w) s := by
  have hI := PoolInv.reachable hc hw hb hr
  have hwalk := @freeWalk_chain sv w.pool hI.geom hI.fits _ _ _ hI.chain hI.nodup hI.free_lt
    (w.pool.layout.slotCount + 1) (fun _ => false)
    (Nat.lt_succ_of_le (length_le_of_nodup hI.nodup hI.free_lt)) fun _ _ => rfl
  have hfil : (List.range w.pool.layout.slotCount).filter (fun i => !decide (i ∈ w.free)) =
      (List.range w.pool.layout.slotCount).filter (w.live ·) :=
    List.filter_congr fun i hi => by
      have := hI.free_iff i (List.mem_range.mp hi)
      cases hl : w.live i <;> simp_all
  simp only [anamForeach, Bool.not_true, Bool.false_eq_true, ite_false, hwalk, foreachVisit_eq,
    liveSlots, Bool.false_or, hfil]
  congr 1
  refine List.map_congr_left fun i hi => ?_
  obtain ⟨hi, hl⟩ := List.mem_filter.mp hi
  rw [hI.generation i (List.mem_range.mp hi), encodeHandle_mod, hI.current i hl]

/-- After one `anam_alloc` on a fresh two-slot pool, a counting visitor is called once. -/
theorem anamForeach_visits_live_one_alloc :
    ∃ pool₀, anamPoolCreate (some ⟨64, 2, 8, false, false, of_decide_eq_true rfl,
        of_decide_eq_true rfl, of_decide_eq_true rfl⟩) (fun _ _ => some 4096) = some pool₀ ∧
      (anamForeach false ((World.init pool₀).act false .alloc).pool
        (fun (k : Nat) _ _ => (k + 1, true)) 0 true).1 = 1 :=
  ⟨_, rfl, (congrArg Prod.fst (@anamForeach_visits_live (some ⟨64, 2, 8, false, false,
    of_decide_eq_true rfl, of_decide_eq_true rfl, of_decide_eq_true rfl⟩) (fun _ _ => some 4096) _
    rfl (by refine ⟨?_, ?_, ?_, ?_, ?_⟩ <;> decide) (by unfold BufferBelow48; decide) false _
    (@Reachable.step false _ _ .alloc .init trivial) Nat (fun (k : Nat) _ _ => (k + 1, true))
    0)).trans (by decide)⟩

end Anamnesis

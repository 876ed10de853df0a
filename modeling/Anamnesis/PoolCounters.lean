import Mathlib.Algebra.BigOperators.Group.Finset
import Anamnesis.GenerationMax
import Anamnesis.ThreadFreeList

/-!
# The pool's counters under any interleaving

`anam_alloc` and `anam_release` update `slots_free`, `alloc_count` and `release_count` with
fetch-adds of their own, after the compare-exchange that moves a slot. Between the two, each
counter is off by one for that thread, and by nothing else. `CountInv` states this exact
accounting: a thread still between its compare-exchange and a counter's update contributes
a correction (`Pc.freeOwed`, `Pc.freeDue`, `Pc.allocOwed`, `Pc.releaseOwed`), summed over any
finite set of threads outside which every thread is idle (`Covers`).

Each atomic step moves a counter, the ghost free list and the moving thread's corrections
together (`RInv.exec_balance`); the sums over the other threads do not change
(`sum_update`). Whenever no thread is inside `anam_alloc` or `anam_release`, every correction
is zero, and what `anam_pool_stats` reports is exact (`poolStats_quiescent`).
-/

namespace Anamnesis

open Finset

/-- The thread has taken a slot off the free list and not yet decremented `slots_free`. -/
def Pc.freeOwed : Pc → Nat
  | .allocLoadGen _ | .allocLoadMax _ _ | .allocBumpMax _ _ _ | .allocClearNext _ _
  | .allocSlotsFree _ _ => 1
  | _ => 0

/-- The thread has pushed a slot and not yet incremented `slots_free`. -/
def Pc.freeDue : Pc → Nat
  | .releaseSlotsFree => 1
  | _ => 0

/-- The thread has taken a slot off the free list and not yet incremented `alloc_count`. -/
def Pc.allocOwed : Pc → Nat
  | .allocLoadGen _ | .allocLoadMax _ _ | .allocBumpMax _ _ _ | .allocClearNext _ _
  | .allocSlotsFree _ _ | .allocCount _ _ => 1
  | _ => 0

/-- The thread has pushed a slot and not yet incremented `release_count`. -/
def Pc.releaseOwed : Pc → Nat
  | .releaseSlotsFree | .releaseCount => 1
  | _ => 0

/-- The thread is inside `anam_release`. -/
def Pc.inRelease : Pc → Bool
  | .releaseLoadGen _ | .releaseStoreGen _ _ | .releaseLoadHead _ _ | .releaseLink _ _ _
  | .releaseCas _ _ _ | .releaseSlotsFree | .releaseCount => true
  | _ => false

/-- Every thread outside `T` is idle. -/
def Covers (pc : Nat → Pc) (T : Finset Nat) : Prop :=
  ∀ t ∉ T, pc t = .idle

/-- The four corrections, as one family. -/
def Pc.corrections (p : Pc) : List Nat :=
  [p.freeOwed, p.freeDue, p.allocOwed, p.releaseOwed]

/-- Outside `anam_alloc` and `anam_release` a thread owes no counter anything. -/
theorem Pc.corrections_quiet {p : Pc} (ha : p.inAlloc = false) (hr : p.inRelease = false) :
    p.corrections = [0, 0, 0, 0] := by
  cases p <;> first | rfl | (simp [Pc.inAlloc, Pc.inRelease] at ha hr)

/-- Where a call starts, the thread owes nothing yet. -/
theorem Call.entry_corrections (sv : Bool) (layout : PoolLayout) (c : Call) :
    (Call.entry sv layout c).corrections = [0, 0, 0, 0] := by
  cases c <;> simp only [Call.entry, Pc.screen] <;> (try split_ifs) <;> rfl

/-! ## Sums over threads -/

section Sums

/-! The lemmas hold for any type of program counters with an idle value `i`, so that the
queue's threads share them. -/

variable {α : Type} {i : α} {T : Finset Nat} {pc : Nat → α} (c : α → Nat)

/-- Moving thread `t ∈ T` from `pc t` to `p` changes a sum over `T` by the difference at
`t`. -/
theorem sum_update {t : Nat} (ht : t ∈ T) (p : α) :
    ∑ s ∈ T, c (Function.update pc t p s) + c (pc t) = ∑ s ∈ T, c (pc s) + c p := by
  rw [← add_sum_erase T _ ht, ← add_sum_erase T _ ht, Function.update_same,
    sum_congr rfl fun s hs => by rw [Function.update_noteq (ne_of_mem_erase hs)]]
  omega

/-- An idle thread adds nothing to a sum over threads. -/
theorem sum_insert_idle (hT : ∀ s ∉ T, pc s = i) (hc : c i = 0) (t : Nat) :
    ∑ s ∈ insert t T, c (pc s) = ∑ s ∈ T, c (pc s) := by
  by_cases ht : t ∈ T
  · rw [insert_eq_of_mem ht]
  · rw [sum_insert ht, hT t ht, hc, Nat.zero_add]

/-- After thread `t` moves to `p`, a sum over threads covering the new state, with the old
summand of `t`, is the sum over the old state with `t` covered, with the new summand. -/
theorem sum_after {t : Nat} {p : α} (hT : ∀ s ∉ T, Function.update pc t p s = i)
    (hc : c i = 0) :
    ∑ s ∈ T, c (Function.update pc t p s) + c (pc t) = ∑ s ∈ insert t T, c (pc s) + c p := by
  rw [← sum_insert_idle c hT hc t, sum_update c (mem_insert_self t T)]

/-- A thread that owes nothing before and after its move leaves a sum over threads as it
was. -/
theorem sum_move {t : Nat} {p : α} (hT : ∀ s ∉ T, Function.update pc t p s = i)
    (hc : c i = 0) (h₀ : c (pc t) = 0) (h₁ : c p = 0) :
    ∑ s ∈ T, c (Function.update pc t p s) = ∑ s ∈ insert t T, c (pc s) := by
  simpa [h₀, h₁] using sum_after c hT hc

/-- Threads other than `t` keep their program counters, so a set covering the threads after
`t` moves, with `t` added, covers them before. -/
theorem idle_of_update {t : Nat} {p : α} (hT : ∀ s ∉ T, Function.update pc t p s = i) :
    ∀ s ∉ insert t T, pc s = i := fun s hs => by
  rw [mem_insert, not_or] at hs
  rw [← Function.update_noteq hs.1 p pc]; exact hT s hs.2

end Sums

theorem Covers.of_update {pc : Nat → Pc} {T : Finset Nat} {t : Nat} {p : Pc}
    (hT : Covers (Function.update pc t p) T) : Covers pc (insert t T) :=
  idle_of_update hT

/-! ## The invariant -/

/-- The exact accounting of the three counters. -/
structure CountInv (g : GSys) : Prop where
  slotsFree_lt : g.sys.pool.slotsFree < 2 ^ 64
  allocCount_lt : g.sys.pool.allocCount < 2 ^ 64
  releaseCount_lt : g.sys.pool.releaseCount < 2 ^ 64
  /-- `slots_free` is the free list's length, corrected by the threads in flight. -/
  slotsFree : ∀ T, Covers g.sys.pc T →
    (g.sys.pool.slotsFree + ∑ t ∈ T, (g.sys.pc t).freeDue) % 2 ^ 64 =
      (g.free.length + ∑ t ∈ T, (g.sys.pc t).freeOwed) % 2 ^ 64
  /-- `alloc_count - release_count` is the number of slots off the list, likewise. -/
  counts : ∀ T, Covers g.sys.pc T →
    (g.sys.pool.allocCount + ∑ t ∈ T, (g.sys.pc t).allocOwed + g.free.length) % 2 ^ 64 =
      (g.sys.pool.releaseCount + ∑ t ∈ T, (g.sys.pc t).releaseOwed +
        g.sys.pool.layout.slotCount) % 2 ^ 64

/-- `GSys.exec` moves the threads as `tstep` does. -/
theorem GSys.exec_sys (g : GSys) (t : Nat) :
    (g.exec t).sys = ⟨(tstep g.sys.pool (g.sys.pc t)).1,
      Function.update g.sys.pc t (tstep g.sys.pool (g.sys.pc t)).2⟩ :=
  GSys.act_sys false g (.exec t)

/-- A step never changes the layout. -/
theorem tstep_layout (pool : AnamPool) (p : Pc) : (tstep pool p).1.layout = pool.layout := by
  cases p
  case allocSlotsFree u g => rw [tstep_allocSlotsFree]
  all_goals simp only [tstep]
  all_goals (try split_ifs) <;> rfl

/-- The counters stay `size_t` values. -/
theorem tstep_counters_lt {pool : AnamPool} (h₁ : pool.slotsFree < 2 ^ 64)
    (h₂ : pool.allocCount < 2 ^ 64) (h₃ : pool.releaseCount < 2 ^ 64) (p : Pc) :
    (tstep pool p).1.slotsFree < 2 ^ 64 ∧ (tstep pool p).1.allocCount < 2 ^ 64 ∧
      (tstep pool p).1.releaseCount < 2 ^ 64 := by
  have hm : ∀ x, x % 2 ^ 64 < 2 ^ 64 := fun x => Nat.mod_lt x (Nat.two_pow_pos 64)
  cases p
  case allocSlotsFree u g => rw [tstep_allocSlotsFree]; exact ⟨hm _, h₂, h₃⟩
  all_goals simp only [tstep]
  all_goals (try split_ifs) <;> refine ⟨?_, ?_, ?_⟩ <;>
    (try simp only [sizeAdd, countAnamnesis_slotsFree, countAnamnesis_allocCount,
      countAnamnesis_releaseCount]) <;> first | assumption | exact hm _

section Step

variable {g : GSys} (hI : RInv g)
include hI

/-- A compare-exchange of `anam_alloc` that succeeds finds the list non-empty. -/
theorem RInv.free_ne_nil_of_cas {t oh nh : Nat} (hp : g.sys.pc t = .allocCas oh nh)
    (he : g.sys.pool.freeHead = oh) : g.free ≠ [] := by
  intro hf
  have hok := hI.thread t
  simp only [ThreadOk, hp] at hok
  obtain ⟨hfit, hpos⟩ := hI.slot_fits (hI.cap t).1
  exact encodeHandle_ne_null hfit hpos _ _ (hok.1 ▸ he ▸ (hf ▸ hI.chain).nil_inv)

/-- One atomic step moves each counter, the free list and the moving thread's corrections
together. -/
theorem RInv.exec_balance (t : Nat) :
    ((g.exec t).sys.pool.slotsFree + ((g.exec t).sys.pc t).freeDue + g.free.length +
        (g.sys.pc t).freeOwed) % 2 ^ 64 =
      (g.sys.pool.slotsFree + (g.sys.pc t).freeDue + (g.exec t).free.length +
        ((g.exec t).sys.pc t).freeOwed) % 2 ^ 64 ∧
    ((g.exec t).sys.pool.allocCount + ((g.exec t).sys.pc t).allocOwed + (g.exec t).free.length +
        g.sys.pool.releaseCount + (g.sys.pc t).releaseOwed) % 2 ^ 64 =
      (g.sys.pool.allocCount + (g.sys.pc t).allocOwed + g.free.length +
        (g.exec t).sys.pool.releaseCount + ((g.exec t).sys.pc t).releaseOwed) % 2 ^ 64 := by
  cases hp : g.sys.pc t
  case allocLoadHead =>
    have hf : (g.exec t).free = g.free := by cases hf : g.free <;> simp only [GSys.exec, hp, hf]
    rw [GSys.exec_sys, hp, hf]
    simp only [tstep]
    split_ifs <;> simp only [Function.update_same] <;> exact ⟨rfl, rfl⟩
  case allocCas oh nh =>
    by_cases he : g.sys.pool.freeHead = oh
    · have hL := List.length_pos.mpr (hI.free_ne_nil_of_cas hp he)
      simp only [GSys.exec, hp, tstep, if_pos he, Function.update_same, List.length_tail,
        Pc.freeDue, Pc.freeOwed, Pc.allocOwed, Pc.releaseOwed]
      omega
    · simp [GSys.exec, hp, tstep, if_neg he, Pc.freeDue, Pc.freeOwed, Pc.allocOwed,
        Pc.releaseOwed]
  case allocSlotsFree u gen =>
    have hpool : (g.exec t).sys.pool = { g.sys.pool with slotsFree := sizeSub g.sys.pool.slotsFree 1 } := by
      rw [GSys.exec_sys, hp, tstep_allocSlotsFree]
    have hpc : (g.exec t).sys.pc t = .allocCount u gen := by
      rw [GSys.exec_sys, hp]; exact Function.update_same _ _ _
    have hf : (g.exec t).free = g.free := by simp only [GSys.exec, hp]
    rw [hpool, hpc, hf]
    simp only [Pc.freeDue, Pc.freeOwed, Pc.allocOwed, Pc.releaseOwed, and_true]
    unfold sizeSub; omega
  case allocCount | releaseSlotsFree | releaseCount =>
    simp only [GSys.exec, hp, tstep, Function.update_same, Pc.freeDue, Pc.freeOwed,
      Pc.allocOwed, Pc.releaseOwed, true_and, and_true]
    unfold sizeAdd; omega
  case releaseCas u gen oh =>
    by_cases he : g.sys.pool.freeHead = oh
    · simp only [GSys.exec, hp, tstep, if_pos he, Function.update_same, List.length_cons,
        Pc.freeDue, Pc.freeOwed, Pc.allocOwed, Pc.releaseOwed]
      omega
    · simp [GSys.exec, hp, tstep, if_neg he, Pc.freeDue, Pc.freeOwed, Pc.allocOwed,
        Pc.releaseOwed]
  all_goals
    have hf : (g.exec t).free = g.free := by simp only [GSys.exec, hp]
    rw [GSys.exec_sys, hp, hf]
    simp only [tstep, Function.update_same]
    try split_ifs
    all_goals first
      | exact ⟨rfl, rfl⟩
      | simp only [countAnamnesis_slotsFree, countAnamnesis_allocCount,
          countAnamnesis_releaseCount, and_self]

end Step

section Inv

variable {g : GSys}

/-- Starting a call or returning moves an idle or finished thread, which owes nothing. -/
theorem CountInv.move (hC : CountInv g) {t : Nat} {p : Pc} (hp : (g.sys.pc t).corrections = [0, 0, 0, 0])
    (hp' : p.corrections = [0, 0, 0, 0]) {call : Nat → Call} :
    CountInv { g with sys := { g.sys with pc := Function.update g.sys.pc t p }, call := call } := by
  simp only [Pc.corrections, List.cons.injEq, and_true] at hp hp'
  refine ⟨hC.slotsFree_lt, hC.allocCount_lt, hC.releaseCount_lt, fun T hT => ?_, fun T hT => ?_⟩
  all_goals dsimp only at hT ⊢
  · rw [sum_move Pc.freeDue hT rfl hp.2.1 hp'.2.1, sum_move Pc.freeOwed hT rfl hp.1 hp'.1]
    exact hC.slotsFree _ hT.of_update
  · rw [sum_move Pc.allocOwed hT rfl hp.2.2.1 hp'.2.2.1,
      sum_move Pc.releaseOwed hT rfl hp.2.2.2 hp'.2.2.2]
    exact hC.counts _ hT.of_update

/-- Every atomic step keeps the accounting. -/
theorem CountInv.exec (hC : CountInv g) (hI : RInv g) (t : Nat) : CountInv (g.exec t) := by
  have hsys := GSys.exec_sys g t
  have hpc : (g.exec t).sys.pc = Function.update g.sys.pc t (tstep g.sys.pool (g.sys.pc t)).2 :=
    congrArg Sys.pc hsys
  have hpt : (g.exec t).sys.pc t = (tstep g.sys.pool (g.sys.pc t)).2 := by
    rw [hpc, Function.update_same]
  obtain ⟨hb₁, hb₂⟩ := hI.exec_balance t
  rw [hpt] at hb₁ hb₂
  have hpool : (g.exec t).sys.pool = (tstep g.sys.pool (g.sys.pc t)).1 := congrArg Sys.pool hsys
  have hlt := tstep_counters_lt hC.slotsFree_lt hC.allocCount_lt hC.releaseCount_lt (g.sys.pc t)
  rw [← hpool] at hlt
  have hL : (g.exec t).sys.pool.layout = g.sys.pool.layout := by
    rw [hpool]; exact tstep_layout _ _
  refine ⟨hlt.1, hlt.2.1, hlt.2.2, fun T hT => ?_, fun T hT => ?_⟩
  · rw [hpc] at hT ⊢
    have e₁ := sum_after Pc.freeDue hT rfl
    have e₂ := sum_after Pc.freeOwed hT rfl
    have h := hC.slotsFree _ hT.of_update
    omega
  · rw [hpc] at hT ⊢
    rw [hL]
    have e₁ := sum_after Pc.allocOwed hT rfl
    have e₂ := sum_after Pc.releaseOwed hT rfl
    have h := hC.counts _ hT.of_update
    omega

theorem CountInv.act (hC : CountInv g) (hI : RInv g) (sv : Bool) (e : Event) :
    CountInv (g.act sv e) := by
  cases e with
  | call t c =>
    simp only [GSys.act]
    split
    · next hp =>
      simp only [Sys.act, hp]
      exact hC.move (by rw [hp]; rfl) (Call.entry_corrections sv _ c)
    · exact hC
  | exec t => exact hC.exec hI t
  | ret t =>
    simp only [GSys.act, Sys.act]
    split
    · next hp => exact hC.move (by rw [hp]; rfl) (show Pc.idle.corrections = [0, 0, 0, 0] from rfl)
    · exact hC

end Inv

theorem CountInv.start {config : Option AnamPoolConfig} {alignedAlloc : Nat → Nat → Option Nat}
    {pool₀ : AnamPool} (h : anamPoolCreate config alignedAlloc = some pool₀)
    (hw : LayoutNoWrap (config.getD anamPoolDefault) pool₀.layout.memory)
    (hb : BufferBelow48 (config.getD anamPoolDefault) pool₀.layout.memory) :
    CountInv (GSys.start pool₀) := by
  have hP := PoolInv.init h hw hb
  have hn : pool₀.layout.slotCount < 2 ^ 64 := hP.slotCount_lt
  have hs : pool₀.slotsFree = pool₀.layout.slotCount := by simpa [World.init] using hP.slotsFree
  have ha : pool₀.allocCount = 0 := by simpa [World.init] using hP.allocCount
  have hr : pool₀.releaseCount = 0 := by simpa [World.init] using hP.releaseCount
  refine ⟨?_, ?_, ?_, fun T _ => ?_, fun T _ => ?_⟩
  all_goals simp [GSys.start, Sys.start, Pc.freeDue, Pc.freeOwed, Pc.allocOwed, Pc.releaseOwed,
    hs, ha, hr]
  omega

/-- Only the threads a schedule names ever leave `idle`. -/
theorem GReach.covers {sv : Bool} {pool₀ : AnamPool} {g : GSys} (hr : GReach sv pool₀ g) :
    ∃ T, Covers g.sys.pc T := by
  induction hr with
  | init => exact ⟨∅, fun _ _ => rfl⟩
  | @step g e _ _ ih =>
    obtain ⟨T, hT⟩ := ih
    refine ⟨insert e.thread T, fun s hs => ?_⟩
    rw [mem_insert, not_or] at hs
    rw [GSys.act_sys, Sys.act_pc_of_ne sv g.sys (Ne.symm hs.1)]
    exact hT s hs.2

theorem CountInv.reach {config : Option AnamPoolConfig} {alignedAlloc : Nat → Nat → Option Nat}
    {pool₀ : AnamPool} (h : anamPoolCreate config alignedAlloc = some pool₀)
    (hw : LayoutNoWrap (config.getD anamPoolDefault) pool₀.layout.memory)
    (hb : BufferBelow48 (config.getD anamPoolDefault) pool₀.layout.memory) {sv : Bool}
    {g : GSys} (hr : GReach sv pool₀ g) : CountInv g := by
  induction hr with
  | init => exact CountInv.start h hw hb
  | step hr' _ ih => exact ih.act (RInv.reach h hw hb hr') sv _

/-! ## What `anam_pool_stats` reports -/

/-- Under any interleaving the contract allows, at every point of the run, `anam_pool_stats`
is off only by the threads in flight: `slots_free`, with the releases that have pushed their
slot and not yet counted it, is the length of the free list read from `free_head` through the
header `next` fields, with the allocations that have taken a slot off and not yet counted it;
and `alloc_count - release_count` is the number of slots off the list, corrected by the same
threads. Whenever no thread is inside `anam_alloc` or `anam_release`, every correction is zero
and the report is exact: `slots_free` is the list's length, and `slots_live` is both
`slot_count - slots_free` and `alloc_count - release_count`. -/
theorem poolStats_quiescent {config : Option AnamPoolConfig}
    {alignedAlloc : Nat → Nat → Option Nat} {pool₀ : AnamPool}
    (hc : anamPoolCreate config alignedAlloc = some pool₀)
    (hw : LayoutNoWrap (config.getD anamPoolDefault) pool₀.layout.memory)
    (hb : BufferBelow48 (config.getD anamPoolDefault) pool₀.layout.memory) {sv : Bool}
    {g : GSys} (hr : GReach sv pool₀ g) :
    (∀ T, Covers g.sys.pc T →
      ((anamPoolStats g.sys.pool).slotsFree + ∑ t ∈ T, (g.sys.pc t).freeDue) % 2 ^ 64 =
          (g.free.length + ∑ t ∈ T, (g.sys.pc t).freeOwed) % 2 ^ 64 ∧
        ((anamPoolStats g.sys.pool).allocCount + ∑ t ∈ T, (g.sys.pc t).allocOwed +
            g.free.length) % 2 ^ 64 =
          ((anamPoolStats g.sys.pool).releaseCount + ∑ t ∈ T, (g.sys.pc t).releaseOwed +
            (anamPoolStats g.sys.pool).slotCount) % 2 ^ 64) ∧
    ((∀ t, (g.sys.pc t).inAlloc = false ∧ (g.sys.pc t).inRelease = false) →
      FreeChain g.sys.pool.layout g.sys.pool.next g.sys.pool.generation g.sys.pool.freeHead
          g.free ∧
        (anamPoolStats g.sys.pool).slotsFree = g.free.length ∧
        (anamPoolStats g.sys.pool).slotsLive = g.sys.pool.layout.slotCount - g.free.length ∧
        sizeSub (anamPoolStats g.sys.pool).allocCount (anamPoolStats g.sys.pool).releaseCount =
          (anamPoolStats g.sys.pool).slotsLive) := by
  have hI := RInv.reach hc hw hb hr
  have hC := CountInv.reach hc hw hb hr
  refine ⟨fun T hT => ⟨hC.slotsFree T hT, hC.counts T hT⟩, fun hq => ?_⟩
  obtain ⟨T, hT⟩ := hr.covers
  have hz : ∀ s ∈ T, (g.sys.pc s).corrections = [0, 0, 0, 0] := fun s _ =>
    Pc.corrections_quiet (hq s).1 (hq s).2
  simp only [Pc.corrections, List.cons.injEq, and_true] at hz
  have h₁ := hC.slotsFree T hT
  have h₂ := hC.counts T hT
  rw [sum_eq_zero fun s hs => (hz s hs).2.1, sum_eq_zero fun s hs => (hz s hs).1] at h₁
  rw [sum_eq_zero fun s hs => (hz s hs).2.2.1, sum_eq_zero fun s hs => (hz s hs).2.2.2] at h₂
  have hL := length_le_of_nodup hI.nodup hI.free_lt
  have hn : g.sys.pool.layout.slotCount < 2 ^ 64 := by
    have := hI.geom.end_lt
    have := Nat.le_mul_of_pos_right g.sys.pool.layout.slotCount
      (show 0 < g.sys.pool.layout.slotStride by have := hI.geom.stride_pos; omega)
    omega
  have hf := hC.slotsFree_lt
  have ha := hC.allocCount_lt
  have hr' := hC.releaseCount_lt
  have hs : g.sys.pool.slotsFree = g.free.length := by omega
  refine ⟨hI.chain, hs, ?_, ?_⟩ <;> simp only [anamPoolStats, sizeSub, hs] <;> omega

/-- Midway through `allocRace`, thread 1 has taken slot 0 off the list and not yet counted
it: `slots_free` still says 2 with one slot on the list, and thread 1's correction makes up
the difference. At the end, with both threads idle, the report is exact. -/
theorem poolStats_quiescent_alloc_race :
    ∃ pool₀, anamPoolCreate (some ⟨64, 2, 8, false, false, of_decide_eq_true rfl,
        of_decide_eq_true rfl, of_decide_eq_true rfl⟩) (fun _ _ => some 4096) = some pool₀ ∧
      (∃ g, (GSys.start pool₀).run false (allocRace.take 10) = g ∧
        (anamPoolStats g.sys.pool).slotsFree = 2 ∧ g.free.length = 1 ∧
        (g.sys.pc 1).freeOwed = 1 ∧
        ((anamPoolStats g.sys.pool).slotsFree + ∑ t ∈ {0, 1}, (g.sys.pc t).freeDue) % 2 ^ 64 =
          (g.free.length + ∑ t ∈ {0, 1}, (g.sys.pc t).freeOwed) % 2 ^ 64) ∧
      ∃ g, (GSys.start pool₀).run false allocRace = g ∧
        (anamPoolStats g.sys.pool).slotsFree = g.free.length ∧
        (anamPoolStats g.sys.pool).slotsLive = 1 := by
  have hw : LayoutNoWrap ⟨64, 2, 8, false, false, of_decide_eq_true rfl, of_decide_eq_true rfl,
      of_decide_eq_true rfl⟩ 4096 := by
    refine ⟨?_, ?_, ?_, ?_, ?_⟩ <;> decide
  have hb : BufferBelow48 ⟨64, 2, 8, false, false, of_decide_eq_true rfl, of_decide_eq_true rfl,
      of_decide_eq_true rfl⟩ 4096 := by
    unfold BufferBelow48; decide
  have hth : ∀ e ∈ allocRace, e.thread = 0 ∨ e.thread = 1 := by decide
  have hidle : ∀ n t, t ≠ 0 → t ≠ 1 → ((GSys.start (pushSlots (freshPool (poolLayout
      ⟨64, 2, 8, false, false, of_decide_eq_true rfl, of_decide_eq_true rfl,
        of_decide_eq_true rfl⟩ 4096)) 2)).run false (allocRace.take n)).sys.pc t = .idle :=
    fun n t h0 h1 => GSys.run_pc_of_not_mem _ _ fun e he het => by
      rcases hth e (List.mem_of_mem_take he) with h | h <;> omega
  have hmid := (@poolStats_quiescent (some ⟨64, 2, 8, false, false, of_decide_eq_true rfl,
    of_decide_eq_true rfl, of_decide_eq_true rfl⟩) (fun _ _ => some 4096) _ rfl hw hb false _
    (@GReach.of_allowedRun false _ [0, 1] _ (allocRace.take 10) .init (fun _ _ => rfl)
      (by decide))).1 {0, 1} fun t ht => by
        simp only [Finset.mem_insert, Finset.mem_singleton, not_or] at ht
        exact hidle 10 t ht.1 ht.2
  have hend := (@poolStats_quiescent (some ⟨64, 2, 8, false, false, of_decide_eq_true rfl,
    of_decide_eq_true rfl, of_decide_eq_true rfl⟩) (fun _ _ => some 4096) _ rfl hw hb false _
    allocRace_reach).2 fun t => by
      by_cases h0 : t = 0
      · subst h0; decide
      by_cases h1 : t = 1
      · subst h1; decide
      rw [← List.take_length allocRace, hidle _ t h0 h1]
      exact ⟨rfl, rfl⟩
  exact ⟨pushSlots (freshPool (poolLayout ⟨64, 2, 8, false, false, of_decide_eq_true rfl,
    of_decide_eq_true rfl, of_decide_eq_true rfl⟩ 4096)) 2, rfl,
    ⟨_, rfl, by decide, by decide, by decide, hmid.1⟩, _, rfl, hend.2.1, by rw [hend.2.2.1]; decide⟩

end Anamnesis

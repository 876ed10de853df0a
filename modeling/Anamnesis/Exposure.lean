import Anamnesis.FreeList

/-!
# Counterfeit exposure

What `anam_get`, `anam_validate` and `anam_release` answer, in a state a single-threaded
client reaches, for a handle this pool issued. The handle is accepted exactly while it is its
slot's current handle: the slot's latest allocation returned it and the slot has not been
released since. The reason is `PoolInv`: the header holds the slot's release count modulo
`2^16` and the handle the count at its issue, and within the horizon (fewer than `2^16`
releases of the slot since the issue) the two agree only when no release came in between.
A call that rejects the handle changes nothing but `anamnesis_count`.

A handle issued by another pool whose buffer does not overlap this one's names an address
outside this pool's slot region, so `in_pool` refuses it, in either build.

Past the horizon the check still compares counts modulo `2^16` only: an issued handle is
accepted exactly when its slot has been released a multiple of `2^16` times since the issue
(`issued_handle_generation_mod`), so a handle stale by `2^16` releases is accepted again,
whether its slot is live under a later allocation or free.
-/

namespace Anamnesis

/-- An issued handle authenticates exactly when its slot's release count agrees, modulo `2^16`,
with the count at its issue. -/
theorem PoolInv.authenticate_issued_mod {w : World} (hI : PoolInv w) (sv : Bool) {h i g : Nat}
    (hm : (h, i, g) ∈ w.issued) :
    authenticate sv w.pool h = if w.releases i % 2 ^ 16 = g % 2 ^ 16
      then .genuine (slotFromIndex w.pool.layout i) else .counterfeit := by
  obtain ⟨hi, rfl, -, -⟩ := hI.issued h i g hm
  rw [authenticate_slot hI.geom rfl hi (hI.slot_fits hi).1, hI.generation i hi]
  exact if_congr eq_comm rfl rfl

/-- In every state a single-threaded client reaches, `anam_get`, `anam_validate` and
`anam_release` judge an issued handle by its slot's release count modulo `2^16` alone: they
accept it exactly when the slot has been released a multiple of `2^16` times since the issue,
live or free, current or not. -/
theorem issued_handle_generation_mod {config : Option AnamPoolConfig}
    {alignedAlloc : Nat → Nat → Option Nat} {pool₀ : AnamPool}
    (h : anamPoolCreate config alignedAlloc = some pool₀)
    (hw : LayoutNoWrap (config.getD anamPoolDefault) pool₀.layout.memory)
    (hb : BufferBelow48 (config.getD anamPoolDefault) pool₀.layout.memory) {sv : Bool} {w : World}
    (hr : Reachable sv pool₀ w) {handle i g : Nat} (hm : (handle, i, g) ∈ w.issued) :
    (anamGet sv w.pool handle).2 =
        (if w.releases i % 2 ^ 16 = g % 2 ^ 16 then slotFromIndex w.pool.layout i else 0) ∧
      (anamValidate sv w.pool handle).2 = decide (w.releases i % 2 ^ 16 = g % 2 ^ 16) ∧
      (anamRelease sv w.pool handle).2 = decide (w.releases i % 2 ^ 16 = g % 2 ^ 16) := by
  have hI := PoolInv.reachable h hw hb hr
  have ha := hI.authenticate_issued_mod sv hm
  have hne : slotFromIndex w.pool.layout i ≠ 0 :=
    Nat.pos_iff_ne_zero.mp (hI.slot_fits (hI.issued handle i g hm).1).2
  by_cases hc : w.releases i % 2 ^ 16 = g % 2 ^ 16
  · rw [if_pos hc] at ha
    rw [anamValidate_eq, anamGet_of_genuine ha, anamRelease_of_genuine ha, if_pos hc,
      decide_eq_true hc]
    exact ⟨rfl, bne_iff_ne.mpr hne, rfl⟩
  · rw [if_neg hc] at ha
    rw [anamValidate_eq, anamGet_of_counterfeit ha, anamRelease_of_counterfeit ha, if_neg hc,
      decide_eq_false hc]
    exact ⟨rfl, rfl, rfl⟩

/-- The handle of a one-slot pool's first allocation is accepted. -/
theorem issued_handle_generation_mod_first :
    (anamValidate false
      (anamAlloc (pushSlots (freshPool (poolLayout ⟨64, 1, 8, false, false,
        of_decide_eq_true rfl, of_decide_eq_true rfl, of_decide_eq_true rfl⟩ 4096)) 1)).1
      (anamAlloc (pushSlots (freshPool (poolLayout ⟨64, 1, 8, false, false,
        of_decide_eq_true rfl, of_decide_eq_true rfl, of_decide_eq_true rfl⟩ 4096)) 1)).2).2 =
      decide (0 % 2 ^ 16 = 0 % 2 ^ 16) := by
  have hw : LayoutNoWrap ⟨64, 1, 8, false, false, of_decide_eq_true rfl, of_decide_eq_true rfl,
      of_decide_eq_true rfl⟩ 4096 := by
    refine ⟨?_, ?_, ?_, ?_, ?_⟩ <;> decide
  have hb : BufferBelow48 ⟨64, 1, 8, false, false, of_decide_eq_true rfl, of_decide_eq_true rfl,
      of_decide_eq_true rfl⟩ 4096 := by
    unfold BufferBelow48; decide
  exact (@issued_handle_generation_mod (some ⟨64, 1, 8, false, false, of_decide_eq_true rfl,
    of_decide_eq_true rfl, of_decide_eq_true rfl⟩) (fun _ _ => some 4096) _ rfl hw hb false _
    (@Reachable.step _ _ _ .alloc .init trivial) _ 0 0 (List.mem_cons_self _ _)).2.1

end Anamnesis

import Anamnesis.Thread

/-!
# `generation_max` under any interleaving

`anam_alloc` raises `pool->generation_max` to the generation it loaded, with a
compare-exchange loop that only ever stores a larger value:

    uint16_t max_gen = atomic_load(&pool->generation_max);
    while (gen > max_gen) {
        if (atomic_compare_exchange_weak(&pool->generation_max, &max_gen, gen)) break;
    }

No other step writes the field, so along every schedule of any threads calling anything on
one pool, `generation_max` never decreases (`Sys.run_generationMax_le`). Whenever no
`anam_alloc` is in progress it is the largest generation of the handles `anam_alloc` has
returned, `0` before any (`generationMax_tracks_allocs`).

The proof keeps one invariant (`GenMaxInv`) over the pool, every thread's locals and the
handles returned so far: every header generation is a `uint16_t`; a thread between the loop
and its return holds a generation at most `generation_max`; and `generation_max` is `0`,
the generation of a returned handle, or the generation such a thread holds. No hypothesis
on the callers is needed.
-/

namespace Anamnesis

/-- The thread is inside `anam_alloc`. -/
def Pc.inAlloc : Pc → Bool
  | .allocLoadHead | .allocLoadNext _ | .allocCas _ _ | .allocLoadGen _ | .allocLoadMax _ _
  | .allocBumpMax _ _ _ | .allocClearNext _ _ | .allocSlotsFree _ _ | .allocCount _ _ => true
  | _ => false

/-- The generation an allocating thread holds after the `generation_max` loop, before it
returns. -/
def Pc.pendingGen : Pc → Option Nat
  | .allocClearNext _ g | .allocSlotsFree _ g | .allocCount _ g => some g
  | _ => none

/-- What a thread's locals say about generations: those loaded from a header or computed
for one are `uint16_t` values, the `max_gen` of the loop is at most `generation_max`, and a
generation past the loop is at most `generation_max`. -/
def Pc.GenOk (gmax : Nat) : Pc → Prop
  | .allocLoadMax _ g => g < 2 ^ 16
  | .allocBumpMax _ g m => g < 2 ^ 16 ∧ m ≤ gmax
  | .allocClearNext _ g | .allocSlotsFree _ g | .allocCount _ g => g < 2 ^ 16 ∧ g ≤ gmax
  | .releaseStoreGen _ g => g < 2 ^ 16
  | _ => True

/-- The handle a step returns from `anam_alloc`: `p` is inside the call and `p'` has
returned. -/
def allocReturn (p p' : Pc) : List Nat :=
  match p' with
  | .done h => if p.inAlloc then [h] else []
  | _ => []

/-- The handles `anam_alloc` returns at one scheduling decision. -/
def Sys.stepReturns (s : Sys) : Event → List Nat
  | .exec t => allocReturn (s.pc t) (tstep s.pool (s.pc t)).2
  | _ => []

/-- The handles `anam_alloc` returns along a schedule, in order. -/
def Sys.allocReturns (sv : Bool) : Sys → List Event → List Nat
  | _, [] => []
  | s, e :: es => s.stepReturns e ++ Sys.allocReturns sv (s.act sv e) es

/-- The largest generation a list of handles carries, `0` for none. -/
def maxGeneration : List Nat → Nat
  | [] => 0
  | h :: hs => max (decodeGen h) (maxGeneration hs)

theorem le_maxGeneration {h : Nat} :
    ∀ {hs : List Nat}, h ∈ hs → decodeGen h ≤ maxGeneration hs
  | _ :: _, .head _ => Nat.le_max_left _ _
  | _ :: _, .tail _ hm => (le_maxGeneration hm).trans (Nat.le_max_right _ _)

theorem maxGeneration_le {m : Nat} :
    ∀ {hs : List Nat}, (∀ h ∈ hs, decodeGen h ≤ m) → maxGeneration hs ≤ m
  | [], _ => Nat.zero_le _
  | _ :: _, hle => Nat.max_le.mpr ⟨hle _ (.head _),
      maxGeneration_le fun h hm => hle h (.tail _ hm)⟩

/-- A bound on every generation that is `0` or attained is the largest. -/
theorem maxGeneration_eq {m : Nat} {hs : List Nat} (hle : ∀ h ∈ hs, decodeGen h ≤ m)
    (hm : m = 0 ∨ ∃ h ∈ hs, decodeGen h = m) : maxGeneration hs = m := by
  refine Nat.le_antisymm (maxGeneration_le hle) ?_
  rcases hm with rfl | ⟨h, hh, rfl⟩
  · exact Nat.zero_le _
  · exact le_maxGeneration hh

theorem Pc.inAlloc_of_pendingGen {p : Pc} {g : Nat} (h : p.pendingGen = some g) :
    p.inAlloc = true := by
  cases p <;> simp_all [Pc.pendingGen, Pc.inAlloc]

theorem Pc.GenOk.mono {p : Pc} {gmax gmax' : Nat} (h : p.GenOk gmax) (hle : gmax ≤ gmax') :
    p.GenOk gmax' := by
  cases p <;> simp only [Pc.GenOk] at h ⊢ <;> first | trivial | omega

/-! ## One atomic step -/

section Step

variable (pool : AnamPool) (p : Pc)

/-- The `slots_free` step as a structure update: its fields are read off this form, never by
unfolding `sizeSub`. -/
theorem tstep_allocSlotsFree (u g : Nat) :
    (tstep pool (.allocSlotsFree u g)).1 = { pool with slotsFree := sizeSub pool.slotsFree 1 } :=
  rfl

/-- A step raises `generation_max`, if at all, to the generation its thread then holds past
the loop. -/
theorem tstep_generationMax :
    pool.generationMax ≤ (tstep pool p).1.generationMax ∧
      ((tstep pool p).1.generationMax = pool.generationMax ∨
        (tstep pool p).2.pendingGen = some (tstep pool p).1.generationMax) := by
  cases p with
  | allocLoadHead => simp only [tstep]; split <;> simp
  | allocCas oh nh => simp only [tstep]; split <;> simp
  | allocBumpMax u g m =>
    simp only [tstep]
    split_ifs with h₁ h₂
    · exact ⟨by simp only; omega, .inr rfl⟩
    all_goals simp
  | releaseLoadGen h => simp only [tstep]; split <;> simp
  | releaseCas u g oh => simp only [tstep]; split <;> simp
  | getLoadGen h => simp only [tstep]; split <;> simp
  | allocSlotsFree u g => rw [tstep_allocSlotsFree]; exact ⟨le_rfl, .inl rfl⟩
  | _ => simp [tstep, countAnamnesis]

variable {pool p}

/-- Header generations stay `uint16_t` values. -/
theorem tstep_generation_lt (hgen : ∀ a, pool.generation a < 2 ^ 16)
    (hok : p.GenOk pool.generationMax) (a : Nat) : (tstep pool p).1.generation a < 2 ^ 16 := by
  cases p with
  | releaseStoreGen u g =>
    simp only [tstep, Function.update_apply]
    split
    · exact hok
    · exact hgen a
  | allocLoadHead => simp only [tstep]; split <;> exact hgen a
  | allocCas oh nh => simp only [tstep]; split <;> exact hgen a
  | allocBumpMax u g m => simp only [tstep]; split_ifs <;> exact hgen a
  | releaseLoadGen h => simp only [tstep]; split <;> exact hgen a
  | releaseCas u g oh => simp only [tstep]; split <;> exact hgen a
  | getLoadGen h => simp only [tstep]; split <;> exact hgen a
  | allocSlotsFree u g => rw [tstep_allocSlotsFree]; exact hgen a
  | _ => exact hgen a

/-- The stepping thread's locals stay in order. -/
theorem tstep_genOk (hgen : ∀ a, pool.generation a < 2 ^ 16) (hok : p.GenOk pool.generationMax) :
    (tstep pool p).2.GenOk (tstep pool p).1.generationMax := by
  cases p with
  | allocLoadHead => simp only [tstep]; split <;> trivial
  | allocCas oh nh => simp only [tstep]; split <;> trivial
  | allocLoadGen u => exact hgen u
  | allocLoadMax u g => exact ⟨hok, le_rfl⟩
  | allocBumpMax u g m =>
    simp only [Pc.GenOk] at hok
    simp only [tstep]
    split_ifs with h₁ h₂
    · exact ⟨hok.1, le_rfl⟩
    · exact ⟨hok.1, le_rfl⟩
    · exact ⟨hok.1, by simp only; omega⟩
  | allocSlotsFree u g => rw [tstep_allocSlotsFree]; exact hok
  | allocClearNext u g => exact hok
  | releaseLoadGen h =>
    simp only [tstep]
    split
    · trivial
    · exact Nat.mod_lt _ (Nat.two_pow_pos 16)
  | releaseCas u g oh => simp only [tstep]; split <;> trivial
  | getLoadGen h => simp only [tstep]; split <;> trivial
  | _ => trivial

/-- A generation held past the loop is held on, or returned in the handle. -/
theorem tstep_pendingGen (hok : p.GenOk pool.generationMax) {g : Nat}
    (hg : p.pendingGen = some g) :
    (tstep pool p).2.pendingGen = some g ∨
      ∃ h ∈ allocReturn p (tstep pool p).2, decodeGen h = g := by
  cases p with
  | allocClearNext u g' | allocSlotsFree u g' => exact .inl hg
  | allocCount u g' =>
    cases hg
    simp only [Pc.GenOk] at hok
    refine .inr ⟨encodeHandle g u stateLive, by simp [tstep, allocReturn, Pc.inAlloc], ?_⟩
    rw [decodeGen_encodeHandle, Nat.mod_eq_of_lt hok.1]
  | _ => simp [Pc.pendingGen] at hg

/-- A handle `anam_alloc` returns carries at most `generation_max`. -/
theorem tstep_returned_le (hok : p.GenOk pool.generationMax) :
    ∀ h ∈ allocReturn p (tstep pool p).2, decodeGen h ≤ (tstep pool p).1.generationMax := by
  cases p with
  | allocLoadHead =>
    simp only [tstep]
    split <;> simp [allocReturn, Pc.inAlloc, anamNull, decodeGen]
  | allocCount u g =>
    simp only [Pc.GenOk] at hok
    simp only [tstep, allocReturn, Pc.inAlloc, if_true, List.mem_singleton, forall_eq,
      decodeGen_encodeHandle]
    exact (Nat.mod_le _ _).trans hok.2
  | allocCas oh nh => simp only [tstep]; split <;> simp [allocReturn]
  | allocBumpMax u g m => simp only [tstep]; split_ifs <;> simp [allocReturn]
  | releaseLoadGen h => simp only [tstep]; split <;> simp [allocReturn]
  | releaseCas u g oh => simp only [tstep]; split <;> simp [allocReturn]
  | getLoadGen h => simp only [tstep]; split <;> simp [allocReturn, Pc.inAlloc]
  | allocSlotsFree u g => rw [tstep_allocSlotsFree]; simp [tstep, allocReturn]
  | _ => simp [tstep, allocReturn, Pc.inAlloc]

end Step

theorem Sys.act_generationMax_le (sv : Bool) (s : Sys) (e : Event) :
    s.pool.generationMax ≤ (s.act sv e).pool.generationMax := by
  cases e with
  | call t c => simp only [Sys.act]; split <;> exact le_rfl
  | exec t => exact (tstep_generationMax s.pool (s.pc t)).1
  | ret t => simp only [Sys.act]; split <;> exact le_rfl

/-- Along every schedule, `generation_max` never decreases. -/
theorem Sys.run_generationMax_le (sv : Bool) :
    ∀ (s : Sys) (es : List Event), s.pool.generationMax ≤ (s.run sv es).pool.generationMax
  | _, [] => le_rfl
  | s, e :: es => (s.act_generationMax_le sv e).trans (Sys.run_generationMax_le sv _ es)

/-! ## The invariant -/

/-- What every reachable state satisfies, with the handles `anam_alloc` has returned. -/
structure GenMaxInv (s : Sys) (returned : List Nat) : Prop where
  generation_lt : ∀ a, s.pool.generation a < 2 ^ 16
  locals : ∀ t, (s.pc t).GenOk s.pool.generationMax
  returned_le : ∀ h ∈ returned, decodeGen h ≤ s.pool.generationMax
  /-- `generation_max` is `0`, or some returned handle's generation, or the generation a
  thread past the loop holds. -/
  attained : s.pool.generationMax = 0 ∨ (∃ h ∈ returned, decodeGen h = s.pool.generationMax) ∨
    ∃ t, (s.pc t).pendingGen = some s.pool.generationMax

section Inv

variable {s : Sys} {returned : List Nat} (hI : GenMaxInv s returned)
include hI

/-- Moving a thread that holds no generation past the loop. -/
theorem GenMaxInv.move {t : Nat} {p : Pc} (ht : (s.pc t).pendingGen = none)
    (hok : p.GenOk s.pool.generationMax) :
    GenMaxInv { s with pc := Function.update s.pc t p } returned := by
  refine ⟨hI.generation_lt, fun t' => ?_, hI.returned_le, ?_⟩
  · by_cases e : t' = t
    · subst e; simpa using hok
    · simpa [Function.update_noteq e] using hI.locals t'
  · rcases hI.attained with h | h | ⟨t', ht'⟩
    · exact .inl h
    · exact .inr (.inl h)
    · have e : t' ≠ t := by rintro rfl; simp [ht] at ht'
      exact .inr (.inr ⟨t', by simpa [Function.update_noteq e] using ht'⟩)

theorem GenMaxInv.exec (sv : Bool) (t : Nat) :
    GenMaxInv (s.act sv (.exec t)) (returned ++ s.stepReturns (.exec t)) := by
  obtain ⟨hgen, hloc, hret, hatt⟩ := hI
  have hok := hloc t
  have hmax := tstep_generationMax s.pool (s.pc t)
  simp only [Sys.act, Sys.stepReturns]
  refine ⟨tstep_generation_lt hgen hok, fun t' => ?_, fun h hh => ?_, ?_⟩
  · by_cases e : t' = t
    · subst e; simpa using tstep_genOk hgen hok
    · simpa [Function.update_noteq e] using (hloc t').mono hmax.1
  · rcases List.mem_append.mp hh with hh | hh
    · exact (hret h hh).trans hmax.1
    · exact tstep_returned_le hok h hh
  · rcases hmax.2 with hm | hm
    · rw [hm]
      rcases hatt with h | ⟨h, hh, hg⟩ | ⟨t', ht'⟩
      · exact .inl h
      · exact .inr (.inl ⟨h, List.mem_append_left _ hh, hg⟩)
      · by_cases e : t' = t
        · subst e
          rcases tstep_pendingGen hok ht' with hp | ⟨h, hh, hg⟩
          · exact .inr (.inr ⟨t', by simpa using hp⟩)
          · exact .inr (.inl ⟨h, List.mem_append_right _ hh, hg⟩)
        · exact .inr (.inr ⟨t', by simpa [Function.update_noteq e] using ht'⟩)
    · exact .inr (.inr ⟨t, by simpa using hm⟩)

theorem GenMaxInv.act (sv : Bool) (e : Event) :
    GenMaxInv (s.act sv e) (returned ++ s.stepReturns e) := by
  cases e with
  | call t c =>
    simp only [Sys.act, Sys.stepReturns, List.append_nil]
    split
    · next hp =>
      refine hI.move (by rw [hp]; rfl) ?_
      cases c <;> simp only [Call.entry, Pc.screen] <;> (try split_ifs) <;> trivial
    · exact hI
  | exec t => exact hI.exec sv t
  | ret t =>
    simp only [Sys.act, Sys.stepReturns, List.append_nil]
    split
    · next hp => exact hI.move (by rw [hp]; rfl) trivial
    · exact hI

end Inv

theorem GenMaxInv.run (sv : Bool) :
    ∀ {s : Sys} {returned : List Nat} (es : List Event), GenMaxInv s returned →
      GenMaxInv (s.run sv es) (returned ++ s.allocReturns sv es)
  | _, _, [], hI => by simpa [Sys.run, Sys.allocReturns] using hI
  | s, returned, e :: es, hI => by
    rw [Sys.run_cons, Sys.allocReturns, ← List.append_assoc]
    exact GenMaxInv.run sv es (hI.act sv e)

theorem pushSlots_generation (pool : AnamPool) (hgen : ∀ a, pool.generation a = 0) :
    ∀ k, (pushSlots pool k).generationMax = pool.generationMax ∧
      ∀ a, (pushSlots pool k).generation a = 0
  | 0 => ⟨rfl, hgen⟩
  | k + 1 => pushSlots_generation (pushInit pool k)
      (fun a => by simp [pushInit, Function.update_apply, hgen]) k

theorem GenMaxInv.start {config : Option AnamPoolConfig} {alignedAlloc : Nat → Nat → Option Nat}
    {pool₀ : AnamPool} (hc : anamPoolCreate config alignedAlloc = some pool₀) :
    GenMaxInv (Sys.start pool₀) [] := by
  rw [(anamPoolCreate_eq_some hc).2.2.2.2.2]
  obtain ⟨hmax, hgen⟩ := pushSlots_generation
    (freshPool (poolLayout (config.getD anamPoolDefault) pool₀.layout.memory)) (fun _ => rfl)
    (config.getD anamPoolDefault).slotCount
  refine ⟨fun a => by simp [Sys.start, hgen], fun _ => trivial, nofun, .inl ?_⟩
  simpa [Sys.start] using hmax

/-- Over every schedule of any threads on a pool `anam_pool_create` returned,
`generation_max` never decreases, and whenever no `anam_alloc` is in progress it equals the
largest generation carried by a handle `anam_alloc` has returned so far, `0` if none. -/
theorem generationMax_tracks_allocs {config : Option AnamPoolConfig}
    {alignedAlloc : Nat → Nat → Option Nat} {pool₀ : AnamPool}
    (hc : anamPoolCreate config alignedAlloc = some pool₀) (sv : Bool) (events : List Event) :
    (∀ more, ((Sys.start pool₀).run sv events).pool.generationMax ≤
        ((Sys.start pool₀).run sv (events ++ more)).pool.generationMax) ∧
      ((∀ t, (((Sys.start pool₀).run sv events).pc t).inAlloc = false) →
        ((Sys.start pool₀).run sv events).pool.generationMax =
          maxGeneration ((Sys.start pool₀).allocReturns sv events)) := by
  refine ⟨fun more => by rw [Sys.run_append]; exact Sys.run_generationMax_le sv _ more,
    fun hq => ?_⟩
  have hI := GenMaxInv.run sv events (GenMaxInv.start hc)
  rw [List.nil_append] at hI
  refine (maxGeneration_eq hI.returned_le ?_).symm
  rcases hI.attained with h | h | ⟨t, ht⟩
  · exact .inl h
  · exact .inr h
  · exact absurd (hq t) (by rw [Pc.inAlloc_of_pendingGen ht]; decide)

/-- On a one-slot pool, thread 0 allocates, threads 0 and 1 both release the handle
(`releaseRace`), and each allocates again (`allocTwice`): no `anam_alloc` is then in progress,
and `generation_max` is 1, the largest generation returned. -/
theorem generationMax_tracks_allocs_race :
    ∃ pool₀, anamPoolCreate (some ⟨64, 1, 8, false, false, of_decide_eq_true rfl,
        of_decide_eq_true rfl, of_decide_eq_true rfl⟩) (fun _ _ => some 4096) = some pool₀ ∧
      let events := [.call 0 .alloc] ++ List.replicate 9 (.exec 0) ++
        releaseRace (anamAlloc pool₀).2 ++ allocTwice
      ((Sys.start pool₀).run false events).pool.generationMax =
          maxGeneration ((Sys.start pool₀).allocReturns false events) ∧
        ((Sys.start pool₀).run false events).pool.generationMax = 1 := by
  refine ⟨_, rfl, (@generationMax_tracks_allocs (some ⟨64, 1, 8, false, false,
    of_decide_eq_true rfl, of_decide_eq_true rfl, of_decide_eq_true rfl⟩) (fun _ _ => some 4096)
    _ rfl false _).2 fun t => ?_, by decide⟩
  have hthreads : ∀ e ∈ [.call 0 .alloc] ++ List.replicate 9 (.exec 0) ++
      releaseRace (anamAlloc (pushSlots (freshPool (poolLayout ⟨64, 1, 8, false, false,
        of_decide_eq_true rfl, of_decide_eq_true rfl, of_decide_eq_true rfl⟩ 4096)) 1)).2 ++
      allocTwice, Event.thread e < 2 := by decide
  match t with
  | 0 | 1 => decide
  | t + 2 => rw [Sys.run_pc_of_not_mem _ _ _ fun e he => by have := hthreads e he; omega]; rfl

end Anamnesis

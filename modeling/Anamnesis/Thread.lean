import Anamnesis.FreeList

/-!
# The pool under any interleaving

Each thread is a program counter inside one call, with the locals the source keeps in
registers. `tstep` is one atomic step: one `atomic_load`, `atomic_store`,
compare-exchange or fetch-add of the source, together with the local computation that
follows it up to the next atomic access. A compare-exchange fails only when the value
differs from the expected one. The checks a call makes before its first atomic access read
only the pool's immutable fields and are taken when the call starts (`Call.entry`).

`anam_validate` runs `anam_get` and compares the pointer with `NULL`, so it is the same
program here.

Run alone, a thread computes the functions of `Anamnesis.Pool` (`solo_call`), so calls one
thread makes one after another leave the pool the sequential world leaves and return what
its calls return (`serial_calls_compute_sequential`). Interleaved, two releases of one
handle both pass the generation check before either stores the next generation: both
return true and push the slot twice (`release_race_double_push`).
-/

namespace Anamnesis

/-- Where a thread stands: the atomic step it takes next, with the locals it holds. -/
inductive Pc
  | idle
  /-- `anam_alloc`: `old_head = atomic_load(&pool->free_head)`. -/
  | allocLoadHead
  /-- `new_head = atomic_load(&header->next)`. -/
  | allocLoadNext (oldHead : Nat)
  /-- `atomic_compare_exchange_weak(&pool->free_head, &old_head, new_head)`. -/
  | allocCas (oldHead newHead : Nat)
  /-- `gen = atomic_load(&header->generation)`. -/
  | allocLoadGen (userPtr : Nat)
  /-- `max_gen = atomic_load(&pool->generation_max)`. -/
  | allocLoadMax (userPtr gen : Nat)
  /-- One turn of `while (gen > max_gen) CAS(&pool->generation_max, &max_gen, gen)`. -/
  | allocBumpMax (userPtr gen maxGen : Nat)
  /-- `atomic_store(&header->next, ANAM_NULL)`. -/
  | allocClearNext (userPtr gen : Nat)
  /-- `atomic_fetch_sub(&pool->slots_free, 1)`. -/
  | allocSlotsFree (userPtr gen : Nat)
  /-- `atomic_fetch_add(&pool->alloc_count, 1)`, then return the LIVE handle. -/
  | allocCount (userPtr gen : Nat)
  /-- `anam_release`: `true_gen = atomic_load(&header->generation)` and the comparison. -/
  | releaseLoadGen (handle : Nat)
  /-- `atomic_store(&header->generation, new_gen)`. -/
  | releaseStoreGen (userPtr newGen : Nat)
  /-- `old_head = atomic_load(&pool->free_head)`. -/
  | releaseLoadHead (userPtr newGen : Nat)
  /-- `atomic_store(&header->next, old_head)`. -/
  | releaseLink (userPtr newGen oldHead : Nat)
  /-- `atomic_compare_exchange_weak(&pool->free_head, &old_head, new_handle)`. -/
  | releaseCas (userPtr newGen oldHead : Nat)
  /-- `atomic_fetch_add(&pool->slots_free, 1)`. -/
  | releaseSlotsFree
  /-- `atomic_fetch_add(&pool->release_count, 1)`, then return true. -/
  | releaseCount
  /-- `anam_get`: `true_gen = atomic_load(&header->generation)` and the comparison. -/
  | getLoadGen (handle : Nat)
  /-- `atomic_fetch_add(&pool->anamnesis_count, 1)`, then return `ret`. -/
  | anamnesis (ret : Nat)
  /-- The call has returned `ret`: a handle, a pointer, or `0`/`1` for a `bool`. -/
  | done (ret : Nat)
deriving DecidableEq, Repr

/-- The checks before the first atomic access of `anam_release` and `anam_get`: a null
handle returns at once, a wrong state or an address outside the slot region is counted. -/
def Pc.screen (sv : Bool) (layout : PoolLayout) (handle : Nat) (next : Pc) : Pc :=
  if anamIsNull handle then .done 0
  else if anamState handle ≠ stateLive ∨ !inPool sv layout (decodeAddr handle) then .anamnesis 0
  else next

/-- Where a call starts. -/
def Call.entry (sv : Bool) (layout : PoolLayout) : Call → Pc
  | .alloc => .allocLoadHead
  | .release h => Pc.screen sv layout h (.releaseLoadGen h)
  | .get h => Pc.screen sv layout h (.getLoadGen h)
  | .validate h => Pc.screen sv layout h (.getLoadGen h)

/-- One atomic step of a thread at `pc`. -/
def tstep (pool : AnamPool) : Pc → AnamPool × Pc
  | .idle => (pool, .idle)
  | .allocLoadHead =>
    if anamIsNull pool.freeHead then (pool, .done anamNull)
    else (pool, .allocLoadNext pool.freeHead)
  | .allocLoadNext oldHead => (pool, .allocCas oldHead (pool.next (decodeAddr oldHead)))
  | .allocCas oldHead newHead =>
    if pool.freeHead = oldHead then
      ({ pool with freeHead := newHead }, .allocLoadGen (decodeAddr oldHead))
    else (pool, .allocLoadHead)
  | .allocLoadGen u => (pool, .allocLoadMax u (pool.generation u))
  | .allocLoadMax u gen => (pool, .allocBumpMax u gen pool.generationMax)
  | .allocBumpMax u gen maxGen =>
    if gen > maxGen then
      if pool.generationMax = maxGen then
        ({ pool with generationMax := gen }, .allocClearNext u gen)
      else (pool, .allocBumpMax u gen pool.generationMax)
    else (pool, .allocClearNext u gen)
  | .allocClearNext u gen =>
    ({ pool with next := Function.update pool.next u anamNull }, .allocSlotsFree u gen)
  | .allocSlotsFree u gen =>
    ({ pool with slotsFree := sizeSub pool.slotsFree 1 }, .allocCount u gen)
  | .allocCount u gen =>
    ({ pool with allocCount := sizeAdd pool.allocCount 1 }, .done (encodeHandle gen u stateLive))
  | .releaseLoadGen h =>
    let trueGen := pool.generation (decodeAddr h)
    if decodeGen h ≠ trueGen then (pool, .anamnesis 0)
    else (pool, .releaseStoreGen (decodeAddr h) ((trueGen + 1) % 2 ^ 16))
  | .releaseStoreGen u newGen =>
    ({ pool with generation := Function.update pool.generation u newGen },
      .releaseLoadHead u newGen)
  | .releaseLoadHead u newGen => (pool, .releaseLink u newGen pool.freeHead)
  | .releaseLink u newGen oldHead =>
    ({ pool with next := Function.update pool.next u oldHead }, .releaseCas u newGen oldHead)
  | .releaseCas u newGen oldHead =>
    if pool.freeHead = oldHead then
      ({ pool with freeHead := encodeHandle newGen u stateFree }, .releaseSlotsFree)
    else (pool, .releaseLoadHead u newGen)
  | .releaseSlotsFree => ({ pool with slotsFree := sizeAdd pool.slotsFree 1 }, .releaseCount)
  | .releaseCount => ({ pool with releaseCount := sizeAdd pool.releaseCount 1 }, .done 1)
  | .getLoadGen h =>
    if decodeGen h ≠ pool.generation (decodeAddr h) then (pool, .anamnesis 0)
    else (pool, .done (decodeAddr h))
  | .anamnesis r => (countAnamnesis pool, .done r)
  | .done r => (pool, .done r)

/-- The shared pool and every thread's program counter. -/
structure Sys where
  pool : AnamPool
  pc : Nat → Pc

/-- What the scheduler does next: thread `t` starts a call, takes one atomic step, or
returns from a finished call. -/
inductive Event
  | call (t : Nat) (c : Call)
  | exec (t : Nat)
  | ret (t : Nat)
deriving DecidableEq, Repr

/-- One scheduling decision. Starting a call needs an idle thread and returning needs a
finished one; otherwise nothing happens. -/
def Sys.act (sv : Bool) (s : Sys) : Event → Sys
  | .call t c =>
    match s.pc t with
    | .idle => { s with pc := Function.update s.pc t (Call.entry sv s.pool.layout c) }
    | _ => s
  | .exec t =>
    let r := tstep s.pool (s.pc t)
    { pool := r.1, pc := Function.update s.pc t r.2 }
  | .ret t =>
    match s.pc t with
    | .done _ => { s with pc := Function.update s.pc t .idle }
    | _ => s

/-- Every thread idle. -/
def Sys.start (pool : AnamPool) : Sys := ⟨pool, fun _ => .idle⟩

/-- A schedule, run from left to right. -/
def Sys.run (sv : Bool) (s : Sys) (events : List Event) : Sys :=
  events.foldl (Sys.act sv) s

theorem Sys.run_cons (sv : Bool) (s : Sys) (e : Event) (es : List Event) :
    s.run sv (e :: es) = (s.act sv e).run sv es := rfl

theorem Sys.run_append (sv : Bool) (s : Sys) (es es' : List Event) :
    s.run sv (es ++ es') = (s.run sv es).run sv es' := List.foldl_append _ _ _ _

/-- The thread a scheduling decision is about. -/
def Event.thread : Event → Nat
  | .call t _ | .exec t | .ret t => t

/-- A decision about one thread leaves every other thread where it is. -/
theorem Sys.act_pc_of_ne (sv : Bool) (s : Sys) {e : Event} {t : Nat} (h : e.thread ≠ t) :
    (s.act sv e).pc t = s.pc t := by
  cases e with
  | call t' c =>
    simp only [Sys.act]; split <;> simp [Function.update_noteq (Ne.symm h : t ≠ t')]
  | exec t' => simp [Sys.act, Function.update_noteq (Ne.symm h : t ≠ t')]
  | ret t' => simp only [Sys.act]; split <;> simp [Function.update_noteq (Ne.symm h : t ≠ t')]

/-- A schedule that never names a thread leaves it where it is. -/
theorem Sys.run_pc_of_not_mem (sv : Bool) {t : Nat} :
    ∀ (s : Sys) (events : List Event), (∀ e ∈ events, e.thread ≠ t) →
      (s.run sv events).pc t = s.pc t
  | _, [], _ => rfl
  | s, e :: es, h => (Sys.run_pc_of_not_mem sv (s.act sv e) es fun e' he => h e' (.tail _ he)).trans
      (s.act_pc_of_ne sv (h e (.head _)))

/-! ## A thread alone -/

/-- `n` atomic steps of one thread while no other thread is scheduled. -/
def solo : Nat → AnamPool × Pc → AnamPool × Pc
  | 0, x => x
  | n + 1, (pool, pc) => solo n (tstep pool pc)

theorem solo_done (pool : AnamPool) (r : Nat) : ∀ n, solo n (pool, .done r) = (pool, .done r)
  | 0 => rfl
  | n + 1 => solo_done pool r n

@[simp] theorem solo_succ (n : Nat) (pool : AnamPool) (pc : Pc) :
    solo (n + 1) (pool, pc) = solo n (tstep pool pc) := rfl

@[simp] theorem solo_zero (x : AnamPool × Pc) : solo 0 x = x := rfl

/-- Alone, `anam_alloc` takes nine atomic steps and computes `anamAlloc`. -/
theorem solo_alloc (pool : AnamPool) :
    solo 9 (pool, .allocLoadHead) = ((anamAlloc pool).1, .done (anamAlloc pool).2) := by
  by_cases hn : anamIsNull pool.freeHead
  · rw [solo_succ, tstep, if_pos hn, anamAlloc, if_pos hn]; exact solo_done _ _ 8
  · rw [anamAlloc, if_neg hn]
    by_cases hb : pool.generation (decodeAddr pool.freeHead) > pool.generationMax
    all_goals simp only [solo_succ, tstep, hn, hb, if_true, if_false, Bool.false_eq_true,
      solo_zero, popFree]

/-- Alone, `anam_release` computes `anamRelease`, returning `1` for true. -/
theorem solo_release (sv : Bool) (pool : AnamPool) (h : Nat) :
    solo 7 (pool, Call.entry sv pool.layout (.release h)) =
      ((anamRelease sv pool h).1, .done (if (anamRelease sv pool h).2 then 1 else 0)) := by
  simp only [Call.entry, Pc.screen, anamRelease, authenticate]
  by_cases h1 : anamIsNull h
  · simp only [h1, if_true]; exact solo_done _ _ 7
  by_cases h2 : anamState h = stateLive
  · by_cases h3 : inPool sv pool.layout (decodeAddr h)
    · by_cases h4 : decodeGen h = pool.generation (decodeAddr h)
      · simp [h1, h2, h3, h4, tstep, pushFree]
      · simp [h1, h2, h3, h4, tstep, solo_done]
    · simp [h1, h2, h3, tstep, solo_done]
  · simp [h1, h2, tstep, solo_done]

/-- Alone, `anam_get` computes `anamGet`. -/
theorem solo_get (sv : Bool) (pool : AnamPool) (h : Nat) :
    solo 2 (pool, Call.entry sv pool.layout (.get h)) =
      ((anamGet sv pool h).1, .done (anamGet sv pool h).2) := by
  simp only [Call.entry, Pc.screen, anamGet, authenticate]
  by_cases h1 : anamIsNull h
  · simp only [h1, if_true]; exact solo_done _ _ 2
  by_cases h2 : anamState h = stateLive
  · by_cases h3 : inPool sv pool.layout (decodeAddr h)
    · by_cases h4 : decodeGen h = pool.generation (decodeAddr h)
      · simp [h1, h2, h3, h4, tstep]
      · simp [h1, h2, h3, h4, tstep]
    · simp [h1, h2, h3, tstep]
  · simp [h1, h2, tstep]

/-! ## Calls one after another

A thread that makes its calls one after another, each run alone to its end, refines the
single-threaded model: the pool follows `World.act`, whatever ghost record rides along, and
each call returns what its function of `Anamnesis.Pool` returns. `anam_validate` runs
`anam_get`, so its thread ends holding the pointer, of which the function keeps `!= NULL`. -/

/-- What the function of `Anamnesis.Pool` computes for a call: the pool after it, and what it
returns (`1`/`0` for a `bool`, the pointer for `anam_get` and `anam_validate`). -/
def Call.seq (sv : Bool) (pool : AnamPool) : Call → AnamPool × Nat
  | .alloc => anamAlloc pool
  | .release h => ((anamRelease sv pool h).1, if (anamRelease sv pool h).2 then 1 else 0)
  | .get h | .validate h => anamGet sv pool h

/-- The atomic steps a call takes alone, at most. -/
def Call.steps : Call → Nat
  | .alloc => 9
  | .release _ => 7
  | .get _ | .validate _ => 2

/-- Thread `t` makes the calls `cs` one after another, each run alone to its end and
returned from. -/
def serial (t : Nat) : List Call → List Event
  | [] => []
  | c :: cs => .call t c :: List.replicate c.steps (.exec t) ++ .ret t :: serial t cs

theorem World.act_pool_seq (sv : Bool) (w : World) (c : Call) :
    (w.act sv c).pool = (c.seq sv w.pool).1 := by
  cases c with
  | alloc => simp only [World.act, World.alloc]; split <;> rfl
  | release h => simp only [World.act, World.release]; split <;> rfl
  | get h => rfl
  | validate h => rfl

/-- Alone, each call computes its function. -/
theorem solo_call (sv : Bool) (pool : AnamPool) (c : Call) :
    solo c.steps (pool, Call.entry sv pool.layout c) =
      ((c.seq sv pool).1, .done (c.seq sv pool).2) := by
  cases c with
  | alloc => exact solo_alloc pool
  | release h => exact solo_release sv pool h
  | get h => exact solo_get sv pool h
  | validate h => exact solo_get sv pool h

/-- Steps of one thread, with no other thread scheduled, are the steps of `solo`. -/
theorem Sys.run_exec (sv : Bool) (t : Nat) : ∀ (n : Nat) (s : Sys),
    s.run sv (List.replicate n (.exec t)) =
      ⟨(solo n (s.pool, s.pc t)).1, Function.update s.pc t (solo n (s.pool, s.pc t)).2⟩
  | 0, s => by simp [Sys.run]
  | n + 1, s => by
    rw [List.replicate_succ, Sys.run_cons, Sys.run_exec sv t n]
    simp [Sys.act, Function.update_idem]

/-- An idle thread that makes one call and runs it alone ends holding its result. -/
theorem Sys.run_call (sv : Bool) {s : Sys} {t : Nat} (hs : s.pc t = .idle) (c : Call) :
    s.run sv (.call t c :: List.replicate c.steps (.exec t)) =
      ⟨(c.seq sv s.pool).1, Function.update s.pc t (.done (c.seq sv s.pool).2)⟩ := by
  rw [Sys.run_cons, Sys.run_exec]
  simp only [Sys.act, hs, Function.update_same, Function.update_idem, solo_call]

/-- The first call of a serial schedule, returned from, leaves the pool its function computes
and every thread where it was. -/
theorem Sys.run_serial_cons (sv : Bool) {s : Sys} {t : Nat} (hs : s.pc t = .idle) (c : Call)
    (cs : List Call) (rest : List Event) :
    s.run sv (serial t (c :: cs) ++ rest) =
      (⟨(c.seq sv s.pool).1, s.pc⟩ : Sys).run sv (serial t cs ++ rest) := by
  have he : serial t (c :: cs) ++ rest =
      (.call t c :: List.replicate c.steps (.exec t)) ++ .ret t :: (serial t cs ++ rest) := by
    simp [serial]
  rw [he, Sys.run_append, Sys.run_call sv hs, Sys.run_cons]
  simp only [Sys.act, Function.update_same, Function.update_idem, ← hs, Function.update_eq_self]

/-- One thread making its calls one after another, each run alone to its end, computes the
single-threaded model: the pool is the one `World.act` reaches by the same calls, every thread
is back where it was, and the next call returns what its function returns on that pool. -/
theorem serial_calls_compute_sequential (sv : Bool) {s : Sys} {t : Nat} (hs : s.pc t = .idle)
    {w : World} (hw : w.pool = s.pool) (cs : List Call) (c : Call) :
    (s.run sv (serial t cs)).pool = (w.run sv cs).pool ∧ (s.run sv (serial t cs)).pc = s.pc ∧
      (s.run sv (serial t cs ++ .call t c :: List.replicate c.steps (.exec t))).pc t =
        .done (c.seq sv (w.run sv cs).pool).2 := by
  induction cs generalizing s w with
  | nil =>
    refine ⟨hw.symm, rfl, ?_⟩
    rw [serial, List.nil_append, Sys.run_call sv hs]
    simp [World.run, hw]
  | cons c' cs ih =>
    have hw' : (w.act sv c').pool = (⟨(c'.seq sv s.pool).1, s.pc⟩ : Sys).pool := by
      rw [World.act_pool_seq, hw]
    obtain ⟨h₁, h₂, h₃⟩ := @ih ⟨(c'.seq sv s.pool).1, s.pc⟩ hs _ hw'
    have hnil := Sys.run_serial_cons sv hs c' cs []
    rw [List.append_nil, List.append_nil] at hnil
    exact ⟨by rw [hnil, h₁]; rfl, by rw [hnil, h₂], by rw [Sys.run_serial_cons sv hs, h₃]; rfl⟩

/-- Thread 0 allocates both slots of a two-slot pool, releases the first, and then calls
`anam_get` with the released handle: like the function, it is refused. -/
theorem serial_calls_compute_sequential_stale_get :
    ∃ pool₀, anamPoolCreate (some ⟨64, 2, 8, false, false, of_decide_eq_true rfl,
        of_decide_eq_true rfl, of_decide_eq_true rfl⟩) (fun _ _ => some 4096) = some pool₀ ∧
      (Sys.start pool₀).pc 0 = .idle ∧ (World.init pool₀).pool = (Sys.start pool₀).pool ∧
      ((Sys.start pool₀).run false (serial 0 [.alloc, .alloc, .release 4113] ++
          .call 0 (.get 4113) :: List.replicate (Call.get 4113).steps (.exec 0))).pc 0 =
        .done ((Call.get 4113).seq false
          ((World.init pool₀).run false [.alloc, .alloc, .release 4113]).pool).2 ∧
      ((Call.get 4113).seq false
          ((World.init pool₀).run false [.alloc, .alloc, .release 4113]).pool).2 = 0 :=
  ⟨_, rfl, rfl, rfl, (@serial_calls_compute_sequential false (Sys.start (pushSlots (freshPool
    (poolLayout ⟨64, 2, 8, false, false, of_decide_eq_true rfl, of_decide_eq_true rfl,
      of_decide_eq_true rfl⟩ 4096)) 2)) 0 rfl (World.init (pushSlots (freshPool (poolLayout
    ⟨64, 2, 8, false, false, of_decide_eq_true rfl, of_decide_eq_true rfl,
      of_decide_eq_true rfl⟩ 4096)) 2)) rfl [.alloc, .alloc, .release 4113] (.get 4113)).2.2,
    by decide⟩

/-! ## Two releases of one handle -/

/-- Threads 0 and 1 release `h`; both load the generation before either stores it, then each
runs to the end. -/
def releaseRace (h : Nat) : List Event :=
  [.call 0 (.release h), .call 1 (.release h), .exec 0, .exec 1] ++
    List.replicate 6 (.exec 0) ++ List.replicate 6 (.exec 1)

/-- Both threads return, then each allocates, one after the other. -/
def allocTwice : List Event :=
  [.ret 0, .ret 1, .call 0 .alloc] ++ List.replicate 9 (.exec 0) ++ [.call 1 .alloc] ++
    List.replicate 9 (.exec 1)

/-- A one-slot pool hands out `h`; two threads release `h` at once. Both releases return
true, the generation advances only once, the slot is pushed twice (`slots_free` reaches 2
in a one-slot pool, and the slot's `next` names the slot itself), and the next two
`anam_alloc` calls, with no release between them, return the same handle. -/
theorem release_race_double_push :
    ∃ pool₀, anamPoolCreate (some ⟨64, 1, 8, false, false, of_decide_eq_true rfl,
        of_decide_eq_true rfl, of_decide_eq_true rfl⟩) (fun _ _ => some 4096) = some pool₀ ∧
      ∀ h s, h = (anamAlloc pool₀).2 →
        s = (Sys.start (anamAlloc pool₀).1).run false (releaseRace h) →
        s.pc 0 = .done 1 ∧ s.pc 1 = .done 1 ∧ s.pool.generation (decodeAddr h) = 1 ∧
        s.pool.slotsFree = 2 ∧ s.pool.next (decodeAddr h) = s.pool.freeHead ∧
        (s.run false allocTwice).pc 0 = .done (encodeHandle 1 (decodeAddr h) stateLive) ∧
        (s.run false allocTwice).pc 1 = .done (encodeHandle 1 (decodeAddr h) stateLive) := by
  refine ⟨_, rfl, ?_⟩
  rintro h s rfl rfl
  decide

end Anamnesis

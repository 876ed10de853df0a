import Mathlib.Algebra.BigOperators.Group.Finset
import Anamnesis.PoolCounters
import Anamnesis.QueueSpsc

/-!
# The queue's counters under any interleaving

`anam_queue_push` increments `length` and `push_count` with fetch-adds of their own after the
compare-exchange that links its node, and `anam_queue_pop` decrements `length` and increments
`pop_count` after the compare-exchange that moves `q->head`. Between the two, each counter is
off by one for that thread, and by nothing else. `CounterInv` states this exact accounting
against the links and pops of the schedule (`QSys.linked`, `QSys.popped`): a thread still
between its compare-exchange and a counter's update contributes a correction
(`QPc.lengthOwed`, `QPc.lengthDue`, `QPc.pushOwed`, `QPc.popOwed`), summed over any finite
set of threads outside which every thread is idle.

The accounting reads nothing of the pool or of the chain, so it holds for any number of
threads and any schedule, those of `Anamnesis.QueueThread` that lose items included: whenever
no thread is inside a push or a pop, `push_count` is the number of links, `pop_count` the
number of pops, and `anam_queue_length` their difference (`queue_counters_quiescent`). With
one producer and one consumer the links less the pops are the items on the chain, so
`anam_queue_length` is then the number of items queued (`spsc_queue_length_exact`).
-/

namespace Anamnesis

open Finset

/-- `anam_queue_length`. -/
def anamQueueLength (q : AnamQueue) : Nat := q.length

/-- `AnamQueueStats`. -/
structure AnamQueueStats where
  capacity : Nat
  pushCount : Nat
  popCount : Nat
  pushFails : Nat
  popFails : Nat
  abaPrevented : Nat
deriving DecidableEq, Repr

/-- `anam_queue_stats`, filling the record it is given. -/
def anamQueueStats (q : AnamQueue) : AnamQueueStats :=
  ⟨q.capacity, q.pushCount, q.popCount, q.pushFails, q.popFails, q.abaPrevented⟩

/-! ## What a thread in flight owes the counters -/

/-- The thread has linked its node and not yet incremented `length`. -/
def QPc.lengthOwed : QPc → Nat
  | .pushReloadTail _ | .pushSwingCas _ _ | .pushLength _ => 1
  | _ => 0

/-- The thread has moved `q->head` and not yet decremented `length`. -/
def QPc.lengthDue : QPc → Nat
  | .popRelease _ | .popLength => 1
  | _ => 0

/-- The thread has linked its node and not yet incremented `push_count`. -/
def QPc.pushOwed : QPc → Nat
  | .pushReloadTail _ | .pushSwingCas _ _ | .pushLength _ | .pushCount _ => 1
  | _ => 0

/-- The thread has moved `q->head` and not yet incremented `pop_count`. -/
def QPc.popOwed : QPc → Nat
  | .popRelease _ | .popLength | .popCount => 1
  | _ => 0

/-- The four corrections, as one family. -/
def QPc.corrections (p : QPc) : List Nat :=
  [p.lengthOwed, p.lengthDue, p.pushOwed, p.popOwed]

/-- Idle, or returned from a call: the thread owes nothing. -/
theorem QPc.corrections_quiet {p : QPc} (hp : p = .idle ∨ ∃ r, p = .done r) :
    p.corrections = [0, 0, 0, 0] := by
  rcases hp with rfl | ⟨r, rfl⟩ <;> rfl

/-- Where a call starts, the thread owes nothing yet. -/
theorem QueueCall.entry_corrections (c : QueueCall) : c.entry.corrections = [0, 0, 0, 0] := by
  cases c <;> simp only [QueueCall.entry] <;> (try split_ifs) <;> rfl

/-! ## One step -/

/-- The queue after `atomic_fetch_sub(&q->length, 1)`. Proofs rewrite with it rather than
simplify: as a `simp` lemma its `rfl` proof would leave the kernel to compare the `size_t`
subtraction with the old `length` by evaluation. -/
theorem qstep_popLength_queue (sv : Bool) (q : AnamQueue) (mem : Nat → UInt8) :
    (qstep sv q mem .popLength).1 = { q with length := sizeSub q.length 1 } := rfl

theorem qstep_popLength_pc (sv : Bool) (q : AnamQueue) (mem : Nat → UInt8) :
    (qstep sv q mem .popLength).2.2 = .popCount := rfl

/-- The counters stay `size_t` values. -/
theorem qstep_counters_lt (sv : Bool) {q : AnamQueue} (mem : Nat → UInt8)
    (h₁ : q.length < 2 ^ 64) (h₂ : q.pushCount < 2 ^ 64) (h₃ : q.popCount < 2 ^ 64) (p : QPc) :
    (qstep sv q mem p).1.length < 2 ^ 64 ∧ (qstep sv q mem p).1.pushCount < 2 ^ 64 ∧
      (qstep sv q mem p).1.popCount < 2 ^ 64 := by
  have hm : ∀ x, x % 2 ^ 64 < 2 ^ 64 := fun x => Nat.mod_lt x (Nat.two_pow_pos 64)
  cases p
  case popLength => rw [qstep_popLength_queue]; exact ⟨hm _, h₂, h₃⟩
  all_goals simp only [qstep, AnamQueue.retry]
  all_goals (try split_ifs) <;> refine ⟨?_, ?_, ?_⟩ <;> first | exact hm _ | assumption

/-- One atomic step of thread `t` moves each counter, the thread's corrections and the links
and pops it makes together. -/
theorem QSys.exec_balance (sv : Bool) (s : QSys) (t : Nat) :
    ((qstep sv s.q s.mem (s.pc t)).1.length + (qstep sv s.q s.mem (s.pc t)).2.2.lengthOwed +
        (s.stepPopped (.exec t)).length + (s.pc t).lengthDue) % 2 ^ 64 =
      (s.q.length + (s.pc t).lengthOwed + (s.stepLinked (.exec t)).length +
        (qstep sv s.q s.mem (s.pc t)).2.2.lengthDue) % 2 ^ 64 ∧
    ((qstep sv s.q s.mem (s.pc t)).1.pushCount + (qstep sv s.q s.mem (s.pc t)).2.2.pushOwed) %
        2 ^ 64 =
      (s.q.pushCount + (s.pc t).pushOwed + (s.stepLinked (.exec t)).length) % 2 ^ 64 ∧
    ((qstep sv s.q s.mem (s.pc t)).1.popCount + (qstep sv s.q s.mem (s.pc t)).2.2.popOwed) %
        2 ^ 64 =
      (s.q.popCount + (s.pc t).popOwed + (s.stepPopped (.exec t)).length) % 2 ^ 64 := by
  simp only [QSys.stepLinked, QSys.stepPopped]
  cases s.pc t
  case popLength =>
    rw [qstep_popLength_queue, qstep_popLength_pc]
    simp only [QPc.lengthOwed, QPc.lengthDue, QPc.pushOwed, QPc.popOwed, List.length_nil,
      and_true]
    unfold sizeSub; omega
  all_goals simp only [qstep, AnamQueue.retry]
  all_goals (try split_ifs) <;>
    simp only [QPc.lengthOwed, QPc.lengthDue, QPc.pushOwed, QPc.popOwed, List.length_cons,
      List.length_nil, sizeAdd, and_self, and_true, true_and] <;> omega

/-! ## The invariant -/

/-- The exact accounting of the three counters, `linked` links and `popped` pops after a
queue `q₀`. -/
structure CounterInv (q₀ : AnamQueue) (s : QSys) (linked popped : Nat) : Prop where
  length_lt : s.q.length < 2 ^ 64
  pushCount_lt : s.q.pushCount < 2 ^ 64
  popCount_lt : s.q.popCount < 2 ^ 64
  /-- `length` counts the links less the pops, corrected by the threads in flight. -/
  length : ∀ T : Finset Nat, (∀ t ∉ T, s.pc t = .idle) →
    (s.q.length + ∑ t ∈ T, (s.pc t).lengthOwed + popped) % 2 ^ 64 =
      (q₀.length + linked + ∑ t ∈ T, (s.pc t).lengthDue) % 2 ^ 64
  /-- `push_count` counts the links, likewise. -/
  pushCount : ∀ T : Finset Nat, (∀ t ∉ T, s.pc t = .idle) →
    (s.q.pushCount + ∑ t ∈ T, (s.pc t).pushOwed) % 2 ^ 64 = (q₀.pushCount + linked) % 2 ^ 64
  /-- `pop_count` counts the pops, likewise. -/
  popCount : ∀ T : Finset Nat, (∀ t ∉ T, s.pc t = .idle) →
    (s.q.popCount + ∑ t ∈ T, (s.pc t).popOwed) % 2 ^ 64 = (q₀.popCount + popped) % 2 ^ 64

section Inv

variable {q₀ : AnamQueue} {s : QSys} {L P : Nat}

/-- Nothing has run yet. -/
theorem CounterInv.start (mem : Nat → UInt8) (h₁ : q₀.length < 2 ^ 64)
    (h₂ : q₀.pushCount < 2 ^ 64) (h₃ : q₀.popCount < 2 ^ 64) :
    CounterInv q₀ (QSys.start q₀ mem) 0 0 :=
  ⟨h₁, h₂, h₃, fun _ _ => by simp [QSys.start, QPc.lengthOwed, QPc.lengthDue],
    fun _ _ => by simp [QSys.start, QPc.pushOwed], fun _ _ => by simp [QSys.start, QPc.popOwed]⟩

/-- Starting a call or returning moves a thread that owes nothing, before and after. -/
theorem CounterInv.move (hC : CounterInv q₀ s L P) {t : Nat} {p : QPc}
    (hp : (s.pc t).corrections = [0, 0, 0, 0]) (hp' : p.corrections = [0, 0, 0, 0])
    {call : Nat → QueueCall} {returned : List (Nat × QueueCall × Nat)} :
    CounterInv q₀ { s with pc := Function.update s.pc t p, call := call, returned := returned }
      L P := by
  simp only [QPc.corrections, List.cons.injEq, and_true] at hp hp'
  refine ⟨hC.length_lt, hC.pushCount_lt, hC.popCount_lt, fun T hT => ?_, fun T hT => ?_,
    fun T hT => ?_⟩
  all_goals dsimp only at hT ⊢
  · rw [sum_move QPc.lengthOwed hT rfl hp.1 hp'.1, sum_move QPc.lengthDue hT rfl hp.2.1 hp'.2.1]
    exact hC.length _ (idle_of_update hT)
  · rw [sum_move QPc.pushOwed hT rfl hp.2.2.1 hp'.2.2.1]
    exact hC.pushCount _ (idle_of_update hT)
  · rw [sum_move QPc.popOwed hT rfl hp.2.2.2 hp'.2.2.2]
    exact hC.popCount _ (idle_of_update hT)

/-- Every atomic step keeps the accounting, counting the link or pop it makes. -/
theorem CounterInv.exec (hC : CounterInv q₀ s L P) (sv : Bool) (t : Nat) :
    CounterInv q₀ (s.act sv (.exec t)) (L + (s.stepLinked (.exec t)).length)
      (P + (s.stepPopped (.exec t)).length) := by
  obtain ⟨hb₁, hb₂, hb₃⟩ := s.exec_balance sv t
  obtain ⟨hl₁, hl₂, hl₃⟩ := qstep_counters_lt sv s.mem hC.length_lt hC.pushCount_lt
    hC.popCount_lt (s.pc t)
  refine ⟨hl₁, hl₂, hl₃, fun T hT => ?_, fun T hT => ?_, fun T hT => ?_⟩
  all_goals dsimp only [QSys.act] at hT ⊢
  · have e₁ := sum_after QPc.lengthOwed hT rfl
    have e₂ := sum_after QPc.lengthDue hT rfl
    have h := hC.length _ (idle_of_update hT)
    omega
  · have e := sum_after QPc.pushOwed hT rfl
    have h := hC.pushCount _ (idle_of_update hT)
    omega
  · have e := sum_after QPc.popOwed hT rfl
    have h := hC.popCount _ (idle_of_update hT)
    omega

theorem CounterInv.act (hC : CounterInv q₀ s L P) (sv : Bool) (e : QEvent) :
    CounterInv q₀ (s.act sv e) (L + (s.stepLinked e).length) (P + (s.stepPopped e).length) := by
  cases e with
  | exec t => exact hC.exec sv t
  | call t c =>
    simp only [QSys.stepLinked, QSys.stepPopped, List.length_nil, Nat.add_zero, QSys.act]
    split
    · next hp => exact hC.move (by rw [hp]; rfl) c.entry_corrections
    · exact hC
  | ret t =>
    simp only [QSys.stepLinked, QSys.stepPopped, List.length_nil, Nat.add_zero, QSys.act]
    split
    · next hp => exact hC.move (by rw [hp]; rfl) (show QPc.idle.corrections = [0, 0, 0, 0] from rfl)
    · exact hC

theorem CounterInv.run (sv : Bool) : ∀ (events : List QEvent) {s : QSys} {L P : Nat},
    CounterInv q₀ s L P →
      CounterInv q₀ (s.run sv events) (L + (QSys.linked sv s events).length)
        (P + (QSys.popped sv s events).length)
  | [], _, _, _, h => by simpa [QSys.run, QSys.linked, QSys.popped] using h
  | e :: es, s, _, _, h => by
    have := CounterInv.run sv es (h.act sv e)
    simpa [QSys.run, QSys.linked, QSys.popped, Nat.add_assoc] using this

/-- With every thread idle or returned, the corrections vanish and the counters are exact. -/
theorem CounterInv.quiescent (hC : CounterInv q₀ s L P) {T : Finset Nat}
    (hT : ∀ t ∉ T, s.pc t = .idle) (hq : ∀ t, s.pc t = .idle ∨ ∃ r, s.pc t = .done r) :
    (s.q.length + P) % 2 ^ 64 = (q₀.length + L) % 2 ^ 64 ∧
      s.q.pushCount = (q₀.pushCount + L) % 2 ^ 64 ∧ s.q.popCount = (q₀.popCount + P) % 2 ^ 64 := by
  have hz : ∀ t ∈ T, (s.pc t).corrections = [0, 0, 0, 0] := fun t _ =>
    QPc.corrections_quiet (hq t)
  simp only [QPc.corrections, List.cons.injEq, and_true] at hz
  have h₁ := hC.length T hT
  have h₂ := hC.pushCount T hT
  have h₃ := hC.popCount T hT
  rw [sum_eq_zero fun t ht => (hz t ht).1, sum_eq_zero fun t ht => (hz t ht).2.1] at h₁
  rw [sum_eq_zero fun t ht => (hz t ht).2.2.1] at h₂
  rw [sum_eq_zero fun t ht => (hz t ht).2.2.2] at h₃
  have := hC.pushCount_lt
  have := hC.popCount_lt
  refine ⟨by simpa using h₁, ?_, ?_⟩ <;> omega

end Inv

/-- The thread a scheduling decision moves. -/
def QEvent.thread : QEvent → Nat
  | .call t _ | .exec t | .ret t => t

theorem QSys.act_pc_of_ne (sv : Bool) (s : QSys) {e : QEvent} {t : Nat} (h : e.thread ≠ t) :
    (s.act sv e).pc t = s.pc t := by
  cases e <;> simp only [QEvent.thread] at h <;> simp only [QSys.act] <;> (try split) <;>
    simp only [Function.update_noteq (Ne.symm h)]

/-- A thread that no scheduling decision names keeps its program counter. -/
theorem QSys.run_pc_of_ne (sv : Bool) (t : Nat) : ∀ (events : List QEvent) (s : QSys),
    (∀ e ∈ events, e.thread ≠ t) → (s.run sv events).pc t = s.pc t
  | [], _, _ => rfl
  | e :: es, s, h =>
    (QSys.run_pc_of_ne sv t es (s.act sv e) fun e' he' => h e' (List.mem_cons_of_mem _ he')).trans
      (QSys.act_pc_of_ne sv s (h e (List.mem_cons_self _ _)))

/-- Only the threads a schedule names ever leave `idle`. -/
theorem QSys.run_covers (sv : Bool) (events : List QEvent) {s : QSys} {T : Finset Nat}
    (hT : ∀ t ∉ T, s.pc t = .idle) :
    ∀ t ∉ T ∪ (events.map QEvent.thread).toFinset, (s.run sv events).pc t = .idle := by
  intro t ht
  rw [mem_union, not_or, List.mem_toFinset, List.mem_map, not_exists] at ht
  rw [QSys.run_pc_of_ne sv t events s fun e he h => ht.2 e ⟨he, h⟩]
  exact hT t ht.1

/-- A fresh queue has counted nothing. -/
theorem anamQueueCreate_counters {sv : Bool} {config : Option AnamQueueConfig}
    {alignedAlloc : Nat → Nat → Option Nat} {q : AnamQueue}
    (h : anamQueueCreate sv config alignedAlloc = some q) :
    q.length = 0 ∧ q.pushCount = 0 ∧ q.popCount = 0 := by
  simp only [anamQueueCreate] at h
  split_ifs at h
  split at h
  · cases h
  · split_ifs at h
    rw [← Option.some.inj h]
    simp only [allocNode]
    split <;> exact ⟨rfl, rfl, rfl⟩

/-- A fresh queue's run keeps the accounting. -/
theorem CounterInv.reach {sv : Bool} {config : Option AnamQueueConfig}
    {alignedAlloc : Nat → Nat → Option Nat} {q₀ : AnamQueue}
    (h : anamQueueCreate sv config alignedAlloc = some q₀) (mem : Nat → UInt8)
    (events : List QEvent) :
    CounterInv q₀ ((QSys.start q₀ mem).run sv events)
      (QSys.linked sv (QSys.start q₀ mem) events).length
      (QSys.popped sv (QSys.start q₀ mem) events).length := by
  obtain ⟨h₁, h₂, h₃⟩ := anamQueueCreate_counters h
  simpa using CounterInv.run sv events
    (CounterInv.start mem (by rw [h₁]; decide) (by rw [h₂]; decide) (by rw [h₃]; decide))

/-! ## What `anam_queue_length` and `anam_queue_stats` report -/

/-- Under any interleaving of any number of threads pushing and popping on a fresh queue,
whenever no thread is inside `anam_queue_push` or `anam_queue_pop`, `anam_queue_stats`
reports as `push_count` the number of successful links and as `pop_count` the number of
successful head moves so far (modulo `2^64`), and `anam_queue_length` is `push_count -
pop_count` in `size_t` arithmetic. -/
theorem queue_counters_quiescent {sv : Bool} {config : Option AnamQueueConfig}
    {alignedAlloc : Nat → Nat → Option Nat} {q₀ : AnamQueue}
    (h : anamQueueCreate sv config alignedAlloc = some q₀) (mem : Nat → UInt8)
    (events : List QEvent) {s : QSys} (hs : (QSys.start q₀ mem).run sv events = s)
    (hq : ∀ t, s.pc t = .idle ∨ ∃ r, s.pc t = .done r) :
    (anamQueueStats s.q).pushCount = (QSys.linked sv (QSys.start q₀ mem) events).length % 2 ^ 64 ∧
      (anamQueueStats s.q).popCount =
        (QSys.popped sv (QSys.start q₀ mem) events).length % 2 ^ 64 ∧
      anamQueueLength s.q = sizeSub (anamQueueStats s.q).pushCount (anamQueueStats s.q).popCount := by
  have hC := CounterInv.reach h mem events
  have hT := QSys.run_covers sv events (s := QSys.start q₀ mem) (T := ∅) fun _ _ => rfl
  rw [hs] at hC hT
  obtain ⟨h₁, h₂, h₃⟩ := anamQueueCreate_counters h
  obtain ⟨hl, hpu, hpo⟩ := hC.quiescent hT hq
  have := hC.length_lt
  simp only [anamQueueStats, anamQueueLength, sizeSub, hpu, hpo, h₁, h₂, h₃, Nat.zero_add,
    true_and] at hl ⊢
  omega

/-- The producer-consumer schedule run to its end: one item linked and one taken out. -/
theorem queue_counters_quiescent_spscRun :
    ∃ q₀, anamQueueCreate false (some ⟨8, 1, of_decide_eq_true rfl, of_decide_eq_true rfl⟩)
        (fun _ _ => some 4096) = some q₀ ∧
      ∃ s, (QSys.start q₀ fun a => a.toUInt8).run false spscRun = s ∧
        (∀ t, s.pc t = .idle ∨ ∃ r, s.pc t = .done r) ∧
        (anamQueueStats s.q).pushCount =
          (QSys.linked false (QSys.start q₀ fun a => a.toUInt8) spscRun).length % 2 ^ 64 ∧
        (anamQueueStats s.q).popCount =
          (QSys.popped false (QSys.start q₀ fun a => a.toUInt8) spscRun).length % 2 ^ 64 ∧
        anamQueueLength s.q =
          sizeSub (anamQueueStats s.q).pushCount (anamQueueStats s.q).popCount := by
  refine ⟨_, rfl, _, rfl, (fun hq => ⟨hq, @queue_counters_quiescent false
    (some ⟨8, 1, of_decide_eq_true rfl, of_decide_eq_true rfl⟩) (fun _ _ => some 4096) _ rfl _
    spscRun _ rfl hq⟩) ?_⟩
  intro t
  left
  by_cases h₁ : t = 1
  · subst h₁; decide
  by_cases h₂ : t = 2
  · subst h₂; decide
  have hth : ∀ e ∈ spscRun, e.thread = 1 ∨ e.thread = 2 := by decide
  rw [QSys.run_pc_of_ne false t spscRun _ fun e he h => by rcases hth e he with h' | h' <;> omega]
  rfl

section Spsc

variable {p c : Nat} {s : QSys} {L Pp : List (List UInt8)} {w : World} {i₀ t : Nat}
  {rest : List Nat} {items : List (List UInt8)} {pk cd : Option Nat}
  (hS : SpscAt p c s L Pp w i₀ rest t items pk cd)
include hS

/-- When the producer and the consumer are outside their calls, so is every thread. -/
theorem SpscAt.quiet (hp : s.pc p = .idle ∨ ∃ r, s.pc p = .done r)
    (hc : s.pc c = .idle ∨ ∃ r, s.pc c = .done r) (m : Nat) :
    s.pc m = .idle ∨ ∃ r, s.pc m = .done r := by
  by_cases h₁ : m = p
  · exact h₁ ▸ hp
  by_cases h₂ : m = c
  · exact h₂ ▸ hc
  exact .inl (hS.idle m h₁ h₂)

/-- The queued items, at most `capacity`, are fewer than `2^64`. -/
theorem SpscAt.items_length_lt : items.length < 2 ^ 64 := by
  have := hS.chain.length_eq
  have := hS.length_lt
  have := hS.capacity
  have := hS.inv.slotCount_lt
  omega

end Spsc

/-- With one thread that only pushes and one that only pops, whenever neither is inside a
call, `anam_queue_length` is exactly the number of items on the chain after the dummy node,
and so is `push_count - pop_count` as `anam_queue_stats` reports them. -/
theorem spsc_queue_length_exact {sv : Bool} {cfg : AnamQueueConfig}
    {alignedAlloc : Nat → Nat → Option Nat} {q₀ : AnamQueue}
    (h : anamQueueCreate sv (some cfg) alignedAlloc = some q₀)
    (hnode : 8 + cfg.itemSize + 7 < 2 ^ 64)
    (hw : LayoutNoWrap (queuePoolConfig cfg) q₀.pool.layout.memory)
    (hb : BufferBelow48 (queuePoolConfig cfg) q₀.pool.layout.memory) {p c : Nat} (hpc : p ≠ c)
    (mem : Nat → UInt8) (events : List QEvent) (he : ∀ e ∈ events, e.Spsc p c) {s : QSys}
    (hs : (QSys.start q₀ mem).run sv events = s)
    (hp : s.pc p = .idle ∨ ∃ r, s.pc p = .done r) (hc : s.pc c = .idle ∨ ∃ r, s.pc c = .done r) :
    anamQueueLength s.q = s.q.queued.length ∧
      sizeSub (anamQueueStats s.q).pushCount (anamQueueStats s.q).popCount =
        s.q.queued.length := by
  have hC := CounterInv.reach h mem events
  have hR := Spsc.run sv hpc events he (Spsc.start h hnode hw hb p c mem)
  have hT := QSys.run_covers sv events (s := QSys.start q₀ mem) (T := ∅) fun _ _ => rfl
  rw [hs] at hC hR hT
  obtain ⟨w, i₀, rest, t, items, pk, cd, hS⟩ := hR
  obtain ⟨hl, hpu, hpo⟩ := hC.quiescent hT (hS.quiet hp hc)
  obtain ⟨h₁, h₂, h₃⟩ := anamQueueCreate_counters h
  have hf := congrArg List.length hS.fifo
  simp only [List.nil_append, List.length_append] at hf
  have := hS.items_length_lt
  have := hC.length_lt
  rw [hS.queued]
  simp only [anamQueueLength, anamQueueStats, sizeSub, hpu, hpo, h₁, h₂, h₃, Nat.zero_add] at hl ⊢
  omega

/-- The producer-consumer schedule run to its end leaves nothing queued and a length of 0. -/
theorem spsc_queue_length_exact_spscRun :
    ∃ q₀, anamQueueCreate false (some ⟨8, 1, of_decide_eq_true rfl, of_decide_eq_true rfl⟩)
        (fun _ _ => some 4096) = some q₀ ∧
      ∃ s, (QSys.start q₀ fun a => a.toUInt8).run false spscRun = s ∧
        s.pc 1 = .idle ∧ s.pc 2 = .idle ∧
        anamQueueLength s.q = s.q.queued.length ∧
        sizeSub (anamQueueStats s.q).pushCount (anamQueueStats s.q).popCount =
          s.q.queued.length :=
  ⟨_, rfl, _, rfl, by decide, by decide, @spsc_queue_length_exact false
    ⟨8, 1, of_decide_eq_true rfl, of_decide_eq_true rfl⟩ (fun _ _ => some 4096) _ rfl (by decide)
    (by refine ⟨?_, ?_, ?_, ?_, ?_⟩ <;> decide) (by unfold BufferBelow48; decide) 1 2 (by decide)
    _ spscRun (by decide) _ rfl (.inl (by decide)) (.inl (by decide))⟩

end Anamnesis

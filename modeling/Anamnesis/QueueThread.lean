import Anamnesis.Queue

/-!
# The queue under any interleaving

Each thread is a program counter inside `anam_queue_push` or `anam_queue_pop`, with the
locals the source keeps. `qstep` is one atomic step: one pool call (`anam_alloc`,
`anam_get`, `anam_release`, each atomic as in `Anamnesis.Pool`), or one `atomic_load`,
`atomic_store`, compare-exchange or fetch-add on `q->head`, `q->tail`, a node's `next`
field or a counter, together with the local computation that follows it up to the next
atomic access. A compare-exchange fails only when the value differs from the expected one.
The copy of an item into a node that no other thread has reached yet, and the `memcpy` out
of a node, are one step each.

A thread alone computes the functions of `Anamnesis.Queue`, so pushes and pops one thread
makes one after another leave the queue and the client memory the sequential calls leave
and return what they return (`queue_serial_calls_compute_sequential`).

Two schedules break the queue.

* A pusher checks that the tail node's `next` is `ANAM_NULL` and pauses before its
  compare-exchange. Meanwhile the tail node is popped, released and allocated again by
  another pusher, whose `alloc_node` stores `ANAM_NULL` into the same field. The expected
  value `ANAM_NULL` carries no generation, so the paused compare-exchange succeeds and
  links its node after a node outside the chain: two pushed items are lost, and the two
  recycled nodes point at each other (`queue_push_lost_items`).
* The final tail swing of `anam_queue_push` reloads `q->tail` and compare-exchanges from
  the value it finds, not from the tail it linked after. A pusher paused just before it,
  while another pusher moves the tail past its node and two pops release that node, swings
  the tail back to the released node: `anam_get` then refuses `q->tail`, and every later
  push retries forever (`queue_tail_released`).
-/

namespace Anamnesis

/-- Where a queue thread stands: the atomic step it takes next, with its locals. -/
inductive QPc
  | idle
  /-- `alloc_node`: `h = anam_alloc(q->pool)`. -/
  | pushAlloc (data : Nat)
  /-- `node = anam_get(q->pool, h)`. -/
  | pushGetNode (data newH : Nat)
  /-- `atomic_store(&node->next, ANAM_NULL)`, then the copy of the item into the node. -/
  | pushClearNext (data newH node : Nat)
  /-- `atomic_fetch_add(&q->push_fails, 1)`, then return `ANAM_NULL`. -/
  | pushFail
  /-- `tail_h = atomic_load_explicit(&q->tail, ...)`. -/
  | pushLoadTail (newH : Nat)
  /-- `tail = anam_get(q->pool, tail_h)`. -/
  | pushGetTail (newH tailH : Nat)
  /-- `atomic_fetch_add(&q->aba_prevented, 1)`, then `continue`. -/
  | pushRetry (newH : Nat)
  /-- `next_h = atomic_load_explicit(&tail->next, ...)`. -/
  | pushLoadNext (newH tailH tail : Nat)
  /-- `tail_h != atomic_load(&q->tail)`. -/
  | pushCheckTail (newH tailH tail nextH : Nat)
  /-- `atomic_compare_exchange_weak_explicit(&tail->next, &next_h, new_h, ...)`. -/
  | pushLinkCas (newH tail nextH : Nat)
  /-- `atomic_compare_exchange_weak(&q->tail, &tail_h, encode(gen, addr, LIVE))` for `next_h`. -/
  | pushHelpCas (newH tailH nextH : Nat)
  /-- `tail_h = atomic_load(&q->tail)` after the loop. -/
  | pushReloadTail (newH : Nat)
  /-- `atomic_compare_exchange_strong(&q->tail, &tail_h, encode(gen, addr, LIVE))` for
  `new_h`. -/
  | pushSwingCas (newH tailH : Nat)
  /-- `atomic_fetch_add(&q->length, 1)`. -/
  | pushLength (newH : Nat)
  /-- `atomic_fetch_add(&q->push_count, 1)`, then return `new_h`. -/
  | pushCount (newH : Nat)
  /-- `anam_queue_pop`: `head_h = atomic_load_explicit(&q->head, ...)`. -/
  | popLoadHead (out : Nat)
  /-- `tail_h = atomic_load_explicit(&q->tail, ...)`. -/
  | popLoadTail (out headH : Nat)
  /-- `head = anam_get(q->pool, head_h)`. -/
  | popGetHead (out headH tailH : Nat)
  /-- `atomic_fetch_add(&q->aba_prevented, 1)`, then `continue`. -/
  | popRetry (out : Nat)
  /-- `next_h = atomic_load_explicit(&head->next, ...)`. -/
  | popLoadNext (out headH tailH head : Nat)
  /-- `head_h != atomic_load(&q->head)`, then the comparisons of `head_h`, `tail_h` and
  `next_h`. -/
  | popCheckHead (out headH tailH nextH : Nat)
  /-- `atomic_fetch_add(&q->pop_fails, 1)`, then return false. -/
  | popFail
  /-- `atomic_compare_exchange_weak(&q->tail, &tail_h, encode(gen, addr, LIVE))`. -/
  | popHelpCas (out tailH nextH : Nat)
  /-- `next = anam_get(q->pool, next_h)`. -/
  | popGetNext (out headH nextH : Nat)
  /-- `if (data_out) memcpy(data_out, node_data(next), q->item_size)`. -/
  | popCopy (out headH nextH next : Nat)
  /-- `atomic_compare_exchange_weak_explicit(&q->head, &head_h, encode(gen, addr, LIVE), ...)`. -/
  | popHeadCas (out headH nextH : Nat)
  /-- `anam_release(q->pool, head_h)`. -/
  | popRelease (headH : Nat)
  /-- `atomic_fetch_sub(&q->length, 1)`. -/
  | popLength
  /-- `atomic_fetch_add(&q->pop_count, 1)`, then return true. -/
  | popCount
  /-- The call has returned `ret`: a handle, or `0`/`1` for a `bool`. -/
  | done (ret : Nat)
deriving DecidableEq, Repr

/-- One atomic step of a queue thread at `pc`, on the queue and the client memory. -/
def qstep (sv : Bool) (q : AnamQueue) (mem : Nat → UInt8) :
    QPc → AnamQueue × (Nat → UInt8) × QPc
  | .idle => (q, mem, .idle)
  | .pushAlloc d =>
    let a := anamAlloc q.pool
    if anamIsNull a.2 then ({ q with pool := a.1 }, mem, .pushFail)
    else ({ q with pool := a.1 }, mem, .pushGetNode d a.2)
  | .pushGetNode d newH =>
    let g := anamGet sv q.pool newH
    ({ q with pool := g.1 }, mem, .pushClearNext d newH g.2)
  | .pushClearNext d newH node =>
    ({ q with
        next := Function.update q.next node anamNull
        data := Function.update q.data node (readBytes mem d q.itemSize) }, mem,
      .pushLoadTail newH)
  | .pushFail => ({ q with pushFails := sizeAdd q.pushFails 1 }, mem, .done anamNull)
  | .pushLoadTail newH => (q, mem, .pushGetTail newH q.tail)
  | .pushGetTail newH tailH =>
    let g := anamGet sv q.pool tailH
    if g.2 = 0 then ({ q with pool := g.1 }, mem, .pushRetry newH)
    else ({ q with pool := g.1 }, mem, .pushLoadNext newH tailH g.2)
  | .pushRetry newH => (q.retry, mem, .pushLoadTail newH)
  | .pushLoadNext newH tailH tail => (q, mem, .pushCheckTail newH tailH tail (q.next tail))
  | .pushCheckTail newH tailH tail nextH =>
    if tailH ≠ q.tail then (q, mem, .pushRetry newH)
    else if anamIsNull nextH then (q, mem, .pushLinkCas newH tail nextH)
    else (q, mem, .pushHelpCas newH tailH nextH)
  | .pushLinkCas newH tail nextH =>
    if q.next tail = nextH then
      ({ q with next := Function.update q.next tail newH }, mem, .pushReloadTail newH)
    else (q, mem, .pushLoadTail newH)
  | .pushHelpCas newH tailH nextH =>
    (if q.tail = tailH then { q with tail := relive nextH } else q, mem, .pushLoadTail newH)
  | .pushReloadTail newH => (q, mem, .pushSwingCas newH q.tail)
  | .pushSwingCas newH tailH =>
    (if q.tail = tailH then { q with tail := relive newH } else q, mem, .pushLength newH)
  | .pushLength newH => ({ q with length := sizeAdd q.length 1 }, mem, .pushCount newH)
  | .pushCount newH => ({ q with pushCount := sizeAdd q.pushCount 1 }, mem, .done newH)
  | .popLoadHead out => (q, mem, .popLoadTail out q.head)
  | .popLoadTail out headH => (q, mem, .popGetHead out headH q.tail)
  | .popGetHead out headH tailH =>
    let g := anamGet sv q.pool headH
    if g.2 = 0 then ({ q with pool := g.1 }, mem, .popRetry out)
    else ({ q with pool := g.1 }, mem, .popLoadNext out headH tailH g.2)
  | .popRetry out => (q.retry, mem, .popLoadHead out)
  | .popLoadNext out headH tailH head => (q, mem, .popCheckHead out headH tailH (q.next head))
  | .popCheckHead out headH tailH nextH =>
    if headH ≠ q.head then (q, mem, .popRetry out)
    else if headH = tailH then
      if anamIsNull nextH then (q, mem, .popFail) else (q, mem, .popHelpCas out tailH nextH)
    else (q, mem, .popGetNext out headH nextH)
  | .popFail => ({ q with popFails := sizeAdd q.popFails 1 }, mem, .done 0)
  | .popHelpCas out tailH nextH =>
    (if q.tail = tailH then { q with tail := relive nextH } else q, mem, .popLoadHead out)
  | .popGetNext out headH nextH =>
    let g := anamGet sv q.pool nextH
    if g.2 = 0 then ({ q with pool := g.1 }, mem, .popRetry out)
    else ({ q with pool := g.1 }, mem, .popCopy out headH nextH g.2)
  | .popCopy out headH nextH next =>
    (q, if out ≠ 0 then writeBytes mem out (q.data next) else mem, .popHeadCas out headH nextH)
  | .popHeadCas out headH nextH =>
    if q.head = headH then ({ q with head := relive nextH }, mem, .popRelease headH)
    else (q, mem, .popLoadHead out)
  | .popRelease headH => ({ q with pool := (anamRelease sv q.pool headH).1 }, mem, .popLength)
  | .popLength => ({ q with length := sizeSub q.length 1 }, mem, .popCount)
  | .popCount => ({ q with popCount := sizeAdd q.popCount 1 }, mem, .done 1)
  | .done r => (q, mem, .done r)

/-- The shared queue, the client memory, every thread's program counter, and the calls that
have returned, oldest first: the thread, its call and what it returned. -/
structure QSys where
  q : AnamQueue
  mem : Nat → UInt8
  pc : Nat → QPc
  call : Nat → QueueCall
  returned : List (Nat × QueueCall × Nat)

/-- Where a call starts: `anam_queue_push(q, NULL)` returns `ANAM_NULL` at once. The other
calls have no concurrent model here. -/
def QueueCall.entry : QueueCall → QPc
  | .push d => if d = 0 then .done anamNull else .pushAlloc d
  | .pop out => .popLoadHead out
  | _ => .idle

/-- What the scheduler does next: thread `t` starts a call, takes one atomic step, or
returns from a finished call. -/
inductive QEvent
  | call (t : Nat) (c : QueueCall)
  | exec (t : Nat)
  | ret (t : Nat)
deriving DecidableEq, Repr

/-- One scheduling decision. Starting a call needs an idle thread and returning needs a
finished one; otherwise nothing happens. -/
def QSys.act (sv : Bool) (s : QSys) : QEvent → QSys
  | .call t c =>
    match s.pc t with
    | .idle =>
      { s with pc := Function.update s.pc t c.entry, call := Function.update s.call t c }
    | _ => s
  | .exec t =>
    let r := qstep sv s.q s.mem (s.pc t)
    { s with q := r.1, mem := r.2.1, pc := Function.update s.pc t r.2.2 }
  | .ret t =>
    match s.pc t with
    | .done r =>
      { s with pc := Function.update s.pc t .idle, returned := s.returned ++ [(t, s.call t, r)] }
    | _ => s

/-- Every thread idle, over a queue and the client memory. -/
def QSys.start (q : AnamQueue) (mem : Nat → UInt8) : QSys :=
  ⟨q, mem, fun _ => .idle, fun _ => .length, []⟩

/-- A schedule, run from left to right. -/
def QSys.run (sv : Bool) (s : QSys) (events : List QEvent) : QSys :=
  events.foldl (QSys.act sv) s

/-- The items on the chain of `next` handles from `h` on, at most `fuel` nodes of it. -/
def chainItems (q : AnamQueue) : Nat → Nat → List (List UInt8)
  | 0, _ => []
  | fuel + 1, h =>
    if anamIsNull h then [] else q.data (decodeAddr h) :: chainItems q fuel (q.next (decodeAddr h))

/-! ## What a step touches -/

/-- Only the `memcpy` of `anam_queue_pop` writes client memory. -/
theorem qstep_mem (sv : Bool) (q : AnamQueue) (mem : Nat → UInt8) {pc : QPc}
    (h : ∀ out headH nextH next, pc ≠ .popCopy out headH nextH next) :
    (qstep sv q mem pc).2.1 = mem := by
  cases pc
  case popCopy out headH nextH next => exact absurd rfl (h out headH nextH next)
  case popLength => rfl
  all_goals simp only [qstep]
  all_goals (try split_ifs) <;> rfl

/-- Only the copy of a pushed item into its fresh node writes an item. -/
theorem qstep_data (sv : Bool) (q : AnamQueue) (mem : Nat → UInt8) {pc : QPc}
    (h : ∀ d newH node, pc ≠ .pushClearNext d newH node) :
    (qstep sv q mem pc).1.data = q.data := by
  cases pc
  case pushClearNext d newH node => exact absurd rfl (h d newH node)
  case popLength =>
    rw [show (qstep sv q mem .popLength).1 = { q with length := sizeSub q.length 1 } from rfl]
  all_goals simp only [qstep]
  all_goals (try split_ifs) <;> rfl

/-- A thread reaches its compare-exchange on `q->head` only from its `memcpy`. -/
theorem qstep_eq_popHeadCas {sv : Bool} {q : AnamQueue} {mem : Nat → UInt8} {pc : QPc}
    {out headH nextH : Nat} (h : (qstep sv q mem pc).2.2 = .popHeadCas out headH nextH) :
    ∃ next, pc = .popCopy out headH nextH next := by
  cases pc
  case popCopy out' headH' nextH' next => cases h; exact ⟨next, rfl⟩
  case popLength => cases h
  all_goals simp only [qstep] at h; (try split_ifs at h) <;> cases h

/-! ## A thread alone -/

/-- `n` atomic steps of one queue thread while no other thread is scheduled. -/
def qsolo (sv : Bool) :
    Nat → AnamQueue × (Nat → UInt8) × QPc → AnamQueue × (Nat → UInt8) × QPc
  | 0, x => x
  | n + 1, (q, mem, pc) => qsolo sv n (qstep sv q mem pc)

@[simp] theorem qsolo_zero (sv : Bool) (x : AnamQueue × (Nat → UInt8) × QPc) :
    qsolo sv 0 x = x := rfl

@[simp] theorem qsolo_succ (sv : Bool) (n : Nat) (q : AnamQueue) (mem : Nat → UInt8) (pc : QPc) :
    qsolo sv (n + 1) (q, mem, pc) = qsolo sv n (qstep sv q mem pc) := rfl

theorem qsolo_add (sv : Bool) (m n : Nat) (x : AnamQueue × (Nat → UInt8) × QPc) :
    qsolo sv (m + n) x = qsolo sv n (qsolo sv m x) := by
  induction m generalizing x with
  | zero => rw [Nat.zero_add]; rfl
  | succ m ih =>
    obtain ⟨q, mem, pc⟩ := x
    rw [Nat.add_right_comm, qsolo_succ, qsolo_succ, ih]

/-- Alone, the retry loop of `anam_queue_push` computes `pushLink`. -/
theorem qsolo_pushLink (sv : Bool) (newH : Nat) (mem : Nat → UInt8) :
    ∀ fuel q q', pushLink sv newH fuel q = some q' →
      ∃ n, qsolo sv n (q, mem, .pushLoadTail newH) = (q', mem, .pushReloadTail newH)
  | 0, _, _, h => by simp [pushLink] at h
  | fuel + 1, q, q', h => by
    have loop := qsolo_pushLink sv newH mem fuel
    simp only [pushLink] at h
    by_cases hg : (anamGet sv q.pool q.tail).2 = 0
    · rw [if_pos hg] at h
      obtain ⟨n, hn⟩ := loop _ _ h
      exact ⟨3 + n, by rw [qsolo_add]; simpa [qstep, hg] using hn⟩
    rw [if_neg hg] at h
    by_cases hn : anamIsNull (q.next (anamGet sv q.pool q.tail).2)
    · simp only [ne_eq, not_true_eq_false, if_false, hn, if_true] at h
      cases h
      exact ⟨5, by simp [qstep, hg, hn]⟩
    · simp only [ne_eq, not_true_eq_false, if_false, hn, if_true] at h
      obtain ⟨n, hm⟩ := loop _ _ h
      exact ⟨5 + n, by rw [qsolo_add]; simpa [qstep, hg, hn] using hm⟩

/-- Alone, `anam_queue_push` computes `anamQueuePush`. -/
theorem qsolo_push (sv : Bool) (fuel : Nat) (q : AnamQueue) (mem : Nat → UInt8) (d : Nat)
    {q' : AnamQueue} {r : Nat} (h : anamQueuePush sv fuel q mem d = some (q', r)) :
    ∃ n, qsolo sv n (q, mem, (QueueCall.push d).entry) = (q', mem, .done r) := by
  simp only [anamQueuePush] at h
  by_cases hd : d = 0
  · rw [if_pos hd] at h
    cases h
    exact ⟨0, by simp [QueueCall.entry, hd]⟩
  rw [if_neg hd] at h
  by_cases ha : anamIsNull (anamAlloc q.pool).2
  · have hn : anamIsNull (allocNode sv q (some (readBytes mem d q.itemSize))).2 = true := by
      simp only [allocNode, ha, if_true]; rfl
    rw [if_pos hn] at h
    cases h
    exact ⟨2, by simp [QueueCall.entry, hd, qstep, ha, allocNode]⟩
  · have hn : anamIsNull (allocNode sv q (some (readBytes mem d q.itemSize))).2 = false := by
      simp [allocNode, ha]
    rw [if_neg (by rw [hn]; decide)] at h
    split at h
    · cases h
    · rename_i q₂ hp
      cases h
      obtain ⟨n, hn⟩ := qsolo_pushLink sv _ mem fuel _ _ hp
      refine ⟨3 + (n + 4), ?_⟩
      rw [qsolo_add, qsolo_add]
      simp only [QueueCall.entry, hd, if_false, qsolo_succ, qstep, ha, qsolo_zero,
        Bool.false_eq_true]
      simp only [allocNode, ha, if_false, Bool.false_eq_true] at hn
      rw [hn]
      have h2 : (allocNode sv q (some (readBytes mem d q.itemSize))).2 = (anamAlloc q.pool).2 := by
        simp [allocNode, ha]
      simp [qstep, h2]

/-- Alone, the retry loop of `anam_queue_pop` computes `popLoop`. -/
theorem qsolo_popLoop (sv : Bool) (out : Nat) :
    ∀ fuel q mem q' mem' b, popLoop sv out fuel q mem = some (q', mem', b) →
      ∃ n, qsolo sv n (q, mem, .popLoadHead out) = (q', mem', .done (if b then 1 else 0))
  | 0, _, _, _, _, _, h => by simp [popLoop] at h
  | fuel + 1, q, mem, q', mem', b, h => by
    have loop := qsolo_popLoop sv out fuel
    simp only [popLoop] at h
    by_cases hg : (anamGet sv q.pool q.head).2 = 0
    · rw [if_pos hg] at h
      obtain ⟨n, hn⟩ := loop _ _ _ _ _ h
      exact ⟨4 + n, by rw [qsolo_add]; simpa [qstep, hg] using hn⟩
    rw [if_neg hg] at h
    by_cases hht : q.head = q.tail
    · have ht : (q.head = q.tail) = True := eq_true hht
      by_cases hnull : anamIsNull (q.next (anamGet sv q.pool q.head).2)
      · simp only [ne_eq, not_true_eq_false, if_false, ht, if_true, hnull, Option.some.injEq,
          Prod.mk.injEq] at h
        obtain ⟨rfl, rfl, rfl⟩ := h
        exact ⟨6, by simp [qstep, hg, ht, hnull]⟩
      · simp only [ne_eq, not_true_eq_false, if_false, ht, if_true, hnull, Bool.false_eq_true] at h
        obtain ⟨n, hn⟩ := loop _ _ _ _ _ h
        exact ⟨6 + n, by rw [qsolo_add]; simpa [qstep, hg, ht, hnull] using hn⟩
    · have ht : (q.head = q.tail) = False := eq_false hht
      simp only [ne_eq, not_true_eq_false, if_false, ht] at h
      by_cases hgn :
        (anamGet sv (anamGet sv q.pool q.head).1 (q.next (anamGet sv q.pool q.head).2)).2 = 0
      · rw [if_pos hgn] at h
        obtain ⟨n, hn⟩ := loop _ _ _ _ _ h
        exact ⟨7 + n, by rw [qsolo_add]; simpa [qstep, hg, ht, hgn] using hn⟩
      · simp only [hgn, if_false, if_true, Option.some.injEq, Prod.mk.injEq] at h
        obtain ⟨rfl, rfl, rfl⟩ := h
        exact ⟨11, by simp [qstep, hg, ht, hgn]⟩

/-- While `anam_get` refuses `q->tail`, a pusher alone goes round its retry loop forever:
every three steps it is back at `tail_h = atomic_load(&q->tail)`, with the tail unchanged and
still refused. -/
theorem qsolo_push_refused (sv : Bool) (newH : Nat) (mem : Nat → UInt8) :
    ∀ n q, authenticate sv q.pool q.tail = .counterfeit →
      ∃ q', qsolo sv (3 * n) (q, mem, .pushLoadTail newH) = (q', mem, .pushLoadTail newH) ∧
        q'.tail = q.tail ∧ authenticate sv q'.pool q'.tail = .counterfeit
  | 0, q, hv => ⟨q, rfl, rfl, hv⟩
  | n + 1, q, hv => by
    obtain ⟨q', hq, ht, hv'⟩ := qsolo_push_refused sv newH mem n
      ({ q with pool := countAnamnesis q.pool }.retry) (by simpa [AnamQueue.retry] using hv)
    refine ⟨q', ?_, ht, hv'⟩
    rw [show 3 * (n + 1) = 3 + 3 * n by omega, qsolo_add]
    simpa [qstep, anamGet_of_counterfeit hv] using hq

/-! ## Calls one after another

A thread that makes pushes and pops one after another, each run alone to its end, refines
the single-threaded functions of `Anamnesis.Queue`: whatever `anamQueueRun` computes, some
such schedule computes too, with the same queue, client memory and results. -/

/-- What a thread holds when its call is done: the handle, `1`/`0` for a `bool`, the count. -/
def QueueOut.ret : QueueOut → Nat
  | .handle h => h
  | .flag b => if b then 1 else 0
  | .count n => n

/-- The calls with an atomic-step model. -/
def QueueCall.Threaded : QueueCall → Prop
  | .push _ | .pop _ => True
  | _ => False

instance : DecidablePred QueueCall.Threaded
  | .push _ | .pop _ => isTrue trivial
  | .peek _ | .empty | .length => isFalse id

/-- Thread `t` makes each call `c` of the list, takes `n` steps of it, and returns. -/
def qserial (t : Nat) : List (QueueCall × Nat) → List QEvent
  | [] => []
  | (c, n) :: cs => .call t c :: List.replicate n (.exec t) ++ .ret t :: qserial t cs

theorem QSys.run_cons (sv : Bool) (s : QSys) (e : QEvent) (es : List QEvent) :
    s.run sv (e :: es) = (s.act sv e).run sv es := rfl

theorem QSys.run_append (sv : Bool) (s : QSys) (es es' : List QEvent) :
    s.run sv (es ++ es') = (s.run sv es).run sv es' := List.foldl_append _ _ _ _

/-- Steps of one thread, with no other thread scheduled, are the steps of `qsolo`. -/
theorem QSys.run_exec (sv : Bool) (t : Nat) : ∀ (n : Nat) (s : QSys),
    s.run sv (List.replicate n (.exec t)) =
      { s with
        q := (qsolo sv n (s.q, s.mem, s.pc t)).1
        mem := (qsolo sv n (s.q, s.mem, s.pc t)).2.1
        pc := Function.update s.pc t (qsolo sv n (s.q, s.mem, s.pc t)).2.2 }
  | 0, s => by simp [QSys.run]
  | n + 1, s => by
    rw [List.replicate_succ, QSys.run_cons, QSys.run_exec sv t n]
    simp [QSys.act, Function.update_idem]

/-- An idle thread makes a push or a pop that the function completes: run alone for long
enough and returned from, it leaves the queue and memory the function leaves, and records
what the function returns. -/
theorem QSys.run_call (sv : Bool) (fuel : Nat) {s : QSys} {t : Nat} (hs : s.pc t = .idle)
    {c : QueueCall} (hc : c.Threaded) {q' : AnamQueue} {mem' : Nat → UInt8} {o : QueueOut}
    (h : anamQueueCall sv fuel s.q s.mem c = some (q', mem', o)) :
    ∃ n, s.run sv (qserial t [(c, n)]) =
      { s with
        q := q'
        mem := mem'
        call := Function.update s.call t c
        returned := s.returned ++ [(t, c, o.ret)] } := by
  suffices ∃ n r, qsolo sv n (s.q, s.mem, c.entry) = (q', mem', .done r) ∧ o.ret = r by
    obtain ⟨n, r, hn, ho⟩ := this
    refine ⟨n, ?_⟩
    rw [qserial, qserial, QSys.run_append, QSys.run_cons sv s, QSys.run_exec]
    simp only [QSys.run, List.foldl_cons, List.foldl_nil, QSys.act, hs, Function.update_same,
      hn, Function.update_idem, ho]
    simp only [← hs, Function.update_eq_self]
  cases c with
  | push d =>
    simp only [anamQueueCall, Option.map_eq_some', Prod.mk.injEq] at h
    obtain ⟨⟨q'', r⟩, hp, rfl, rfl, rfl⟩ := h
    exact (qsolo_push sv fuel s.q s.mem d hp).imp fun n hn => ⟨r, hn, rfl⟩
  | pop out =>
    simp only [anamQueueCall, Option.map_eq_some', Prod.mk.injEq] at h
    obtain ⟨⟨q'', mem'', b⟩, hp, rfl, rfl, rfl⟩ := h
    exact (qsolo_popLoop sv out fuel _ _ _ _ _ hp).imp fun n hn => ⟨_, hn, rfl⟩
  | _ => exact hc.elim

/-- One thread making pushes and pops one after another, each run alone to its end, computes
what `anamQueueRun` computes: for every sequence the functions complete, there are step
counts with which the thread leaves the same queue and client memory, is idle again, and has
returned, call by call, what the functions return. -/
theorem queue_serial_calls_compute_sequential (sv : Bool) (fuel : Nat) {t : Nat} :
    ∀ (cs : List QueueCall) {s : QSys}, s.pc t = .idle → (∀ c ∈ cs, c.Threaded) →
      ∀ {q' : AnamQueue} {mem' : Nat → UInt8} {outs : List QueueOut},
      anamQueueRun sv fuel s.q s.mem cs = some (q', mem', outs) →
      ∃ ns : List Nat, ns.length = cs.length ∧
        (s.run sv (qserial t (cs.zip ns))).q = q' ∧
        (s.run sv (qserial t (cs.zip ns))).mem = mem' ∧
        (s.run sv (qserial t (cs.zip ns))).pc = s.pc ∧
        (s.run sv (qserial t (cs.zip ns))).returned =
          s.returned ++ (cs.zip outs).map fun x => (t, x.1, x.2.ret)
  | [], s, _, _, _, _, _, h => by
    simp only [anamQueueRun, Option.some.injEq, Prod.mk.injEq] at h
    obtain ⟨rfl, rfl, rfl⟩ := h
    exact ⟨[], rfl, rfl, rfl, rfl, by simp [qserial, QSys.run]⟩
  | c :: cs, s, hs, hcs, _, _, _, h => by
    simp only [anamQueueRun] at h
    split at h
    · cases h
    · rename_i q₁ mem₁ o hcall
      simp only [Option.map_eq_some', Prod.mk.injEq] at h
      obtain ⟨⟨q₂, mem₂, outs₂⟩, h₂, rfl, rfl, rfl⟩ := h
      obtain ⟨n, hn⟩ := QSys.run_call sv fuel hs (hcs c (List.mem_cons_self _ _)) hcall
      obtain ⟨ns, hlen, hq, hmem, hpc, hret⟩ :=
        queue_serial_calls_compute_sequential sv fuel cs
          (s := { s with
            q := q₁
            mem := mem₁
            call := Function.update s.call t c
            returned := s.returned ++ [(t, c, o.ret)] })
          hs (fun c' h' => hcs c' (List.mem_cons_of_mem _ h')) h₂
      have hsplit : qserial t ((c :: cs).zip (n :: ns)) =
          qserial t [(c, n)] ++ qserial t (cs.zip ns) := by
        simp [qserial]; rfl
      refine ⟨n :: ns, by simp [hlen], ?_⟩
      rw [hsplit, QSys.run_append, hn]
      exact ⟨hq, hmem, hpc, by rw [hret]; simp⟩

/-- On a queue of one item, one thread pushes, pushes again into the full queue and pops: its
step runs return the handle, then null, then 1, as the sequential calls do. -/
theorem queue_serial_calls_compute_sequential_full_queue :
    ∃ q₀, anamQueueCreate false (some ⟨8, 1, of_decide_eq_true rfl, of_decide_eq_true rfl⟩)
        (fun _ _ => some 4096) = some q₀ ∧
      ∃ q' mem', anamQueueRun false 1 q₀ (fun _ => 7) [.push 100, .push 100, .pop 200] =
          some (q', mem', [.handle 4145, .handle 0, .flag true]) ∧
        ∃ ns : List Nat, ns.length = 3 ∧
          ((QSys.start q₀ fun _ => 7).run false
            (qserial 0 ([.push 100, .push 100, .pop 200].zip ns))).q = q' ∧
          ((QSys.start q₀ fun _ => 7).run false
            (qserial 0 ([.push 100, .push 100, .pop 200].zip ns))).returned =
            [(0, .push 100, 4145), (0, .push 100, 0), (0, .pop 200, 1)] := by
  obtain ⟨q₀, h₀, q', mem', hrun⟩ : ∃ q₀, anamQueueCreate false
      (some ⟨8, 1, of_decide_eq_true rfl, of_decide_eq_true rfl⟩) (fun _ _ => some 4096) = some q₀ ∧
      ∃ q' mem', anamQueueRun false 1 q₀ (fun _ => 7) [.push 100, .push 100, .pop 200] =
        some (q', mem', [.handle 4145, .handle 0, .flag true]) := ⟨_, rfl, _, _, rfl⟩
  obtain ⟨ns, hlen, hq, -, -, hret⟩ := @queue_serial_calls_compute_sequential false 1 0
    [.push 100, .push 100, .pop 200] (QSys.start q₀ fun _ => 7) rfl (by decide) _ _ _ hrun
  exact ⟨q₀, h₀, q', mem', hrun, ns, hlen, hq, by rw [hret]; rfl⟩

/-! ## A recycled tail node -/

/-- Thread 1 pushes `a` and stops before linking it after the dummy. Thread 2 pushes `b`,
thread 3 pops `b`, releasing the dummy, and thread 4 starts to push `c`: its `alloc_node`
takes the dummy's slot again and stores `ANAM_NULL` into its `next`. Thread 1's
compare-exchange then succeeds on that field and swings `q->tail` to `a`'s node, and thread
4 links `c` after `a`. -/
def lostItemsRun : List QEvent :=
  [.call 1 (.push 1)] ++ List.replicate 7 (.exec 1) ++
  [.call 2 (.push 2)] ++ List.replicate 12 (.exec 2) ++ [.ret 2] ++
  [.call 3 (.pop 100)] ++ List.replicate 11 (.exec 3) ++ [.ret 3] ++
  [.call 4 (.push 3)] ++ List.replicate 3 (.exec 4) ++
  List.replicate 5 (.exec 1) ++ [.ret 1] ++
  List.replicate 9 (.exec 4) ++ [.ret 4]

set_option maxRecDepth 4000 in
/-- A queue of one-byte items and capacity 3, over client memory holding byte `a` at
address `a`. After `lostItemsRun` every call has returned: three pushes of the distinct items
`1`, `2`, `3` returned non-null handles and one pop returned true, having copied out `2`.
Yet the chain after `q->head` is empty, so the pushed items are not the popped ones plus the
chain's: `1` and `3` are lost, in two nodes that point at each other. -/
theorem queue_push_lost_items (sv : Bool) :
    ∃ q₀, anamQueueCreate sv (some ⟨1, 3, of_decide_eq_true rfl, of_decide_eq_true rfl⟩)
        (fun _ _ => some 4096) = some q₀ ∧
      ∀ s, s = (QSys.start q₀ (fun a => a.toUInt8)).run sv lostItemsRun →
        (∀ t < 5, s.pc t = .idle) ∧
        s.returned.map (fun r => (r.1, r.2.1)) =
          [(2, .push 2), (3, .pop 100), (1, .push 1), (4, .push 3)] ∧
        (∀ r ∈ s.returned, r.2.2 ≠ 0) ∧
        ¬ List.Perm [readBytes (fun a => a.toUInt8) 1 1, readBytes (fun a => a.toUInt8) 2 1,
            readBytes (fun a => a.toUInt8) 3 1]
          (readBytes s.mem 100 1 :: chainItems s.q 4 (s.q.next (decodeAddr s.q.head))) ∧
        s.q.next (decodeAddr (s.q.next (decodeAddr s.q.tail))) = s.q.tail := by
  cases sv <;> exact ⟨_, rfl, by rintro s rfl; decide⟩

/-! ## A tail swung back -/

/-- Thread 1 links `a` after the dummy and stops before its final tail swing. Thread 2
helps the tail to `a`, pushes `b` and swings the tail to `b`; thread 3 pops `a` and `b`,
releasing the dummy and `a`'s node. Thread 1 then reloads `q->tail`, finds `b`, and swings
it to `a`'s released node. -/
def tailReleasedRun : List QEvent :=
  [.call 1 (.push 1)] ++ List.replicate 8 (.exec 1) ++
  [.call 2 (.push 2)] ++ List.replicate 17 (.exec 2) ++ [.ret 2] ++
  [.call 3 (.pop 100)] ++ List.replicate 11 (.exec 3) ++ [.ret 3] ++
  [.call 3 (.pop 101)] ++ List.replicate 11 (.exec 3) ++ [.ret 3] ++
  List.replicate 4 (.exec 1) ++ [.ret 1]

set_option maxRecDepth 4000 in
/-- After `tailReleasedRun` every call has returned, and `q->head` holds a node that
`anam_get` accepts and whose `next` is `ANAM_NULL`; but `q->tail` holds another handle, of a
released node, which `anam_get` refuses. A push started now allocates its node and then goes
round its retry loop for ever. -/
theorem queue_tail_released (sv : Bool) :
    ∃ q₀, anamQueueCreate sv (some ⟨1, 3, of_decide_eq_true rfl, of_decide_eq_true rfl⟩)
        (fun _ _ => some 4096) = some q₀ ∧
      ∀ s, s = (QSys.start q₀ (fun a => a.toUInt8)).run sv tailReleasedRun →
        (∀ t < 4, s.pc t = .idle) ∧
        s.returned.map (fun r => (r.1, r.2.1)) =
          [(2, .push 2), (3, .pop 100), (3, .pop 101), (1, .push 1)] ∧
        (∀ r ∈ s.returned, r.2.2 ≠ 0) ∧
        authenticate sv s.q.pool s.q.head = .genuine (decodeAddr s.q.head) ∧
        s.q.next (decodeAddr s.q.head) = anamNull ∧ s.q.tail ≠ s.q.head ∧
        authenticate sv s.q.pool s.q.tail = .counterfeit ∧
        ∃ h, (s.run sv [.call 2 (.push 3), .exec 2, .exec 2, .exec 2]).pc 2 = .pushLoadTail h ∧
          ∀ n, (qsolo sv (3 * n) ((s.run sv [.call 2 (.push 3), .exec 2, .exec 2, .exec 2]).q,
            (s.run sv [.call 2 (.push 3), .exec 2, .exec 2, .exec 2]).mem, .pushLoadTail h)).2.2 =
            .pushLoadTail h := by
  cases sv <;> refine ⟨_, rfl, ?_⟩ <;> rintro s rfl <;>
    exact ⟨by decide, by decide, by decide, by decide, by decide, by decide, by decide, _, rfl,
      fun n => (qsolo_push_refused _ _ _ n _ (by decide)).elim fun _ hq =>
        congrArg (fun x => x.2.2) hq.1⟩

end Anamnesis

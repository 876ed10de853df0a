import Mathlib.Data.List.Nodup
import Anamnesis.QueueFifo
import Anamnesis.QueueThread

/-!
# One producer and one consumer

The two schedules of `Anamnesis.QueueThread` that break the queue both need two pushers. With
one thread that only pushes and one that only pops, every interleaving of their atomic steps
keeps the queue a FIFO: the items taken out, in order, followed by the items still on the
chain after the dummy node, are exactly the items linked in, in order (`spsc_queue_fifo`).

An item enters the queue at the compare-exchange that links its node (`QSys.stepLinked`) and
leaves it at the compare-exchange that moves `q->head` to its node (`QSys.stepPopped`).

The proof keeps the pool on the ghost world of `Anamnesis.FreeList`, as the single-threaded
refinement does, and adds what each thread's locals say (`ProducerOk`, `ConsumerOk`):

* the producer's node, between its `alloc_node` and its link, is live and off the chain;
  while it runs, `q->tail` names the last node, since only its own link makes the tail's
  `next` non-null, so its retry loop leaves on the first turn;
* the consumer's loaded `q->head` is always current, since no one else moves the head; a
  `q->tail` it loaded names a node of the chain, and once off the dummy the tail stays off it,
  since the tail only moves forward; so the node it detaches is never the tail, and its
  `anam_release` frees a node no one reads again.

`q->tail` lags behind the last node only between the producer's link and its tail swing
(`SpscAt.tail`). No `anam_get` is ever refused, so `aba_prevented` stays 0.
-/

namespace Anamnesis

/-! ## What the clients observe -/

/-- The item a scheduling decision links into the queue: the successful compare-exchange on a
node's `next` in `anam_queue_push` links the node of `new_h`. -/
def QSys.stepLinked (s : QSys) : QEvent → List (List UInt8)
  | .exec t =>
    match s.pc t with
    | .pushLinkCas newH tail nextH =>
      if s.q.next tail = nextH then [s.q.data (decodeAddr newH)] else []
    | _ => []
  | _ => []

/-- The item a scheduling decision takes out of the queue: the successful compare-exchange on
`q->head` in `anam_queue_pop` makes the node of `next_h`, with its item, the new dummy. -/
def QSys.stepPopped (s : QSys) : QEvent → List (List UInt8)
  | .exec t =>
    match s.pc t with
    | .popHeadCas _ headH nextH => if s.q.head = headH then [s.q.data (decodeAddr nextH)] else []
    | _ => []
  | _ => []

/-- The items linked along a schedule, in order. -/
def QSys.linked (sv : Bool) : QSys → List QEvent → List (List UInt8)
  | _, [] => []
  | s, e :: es => s.stepLinked e ++ QSys.linked sv (s.act sv e) es

/-- The items taken out along a schedule, in order. -/
def QSys.popped (sv : Bool) : QSys → List QEvent → List (List UInt8)
  | _, [] => []
  | s, e :: es => s.stepPopped e ++ QSys.popped sv (s.act sv e) es

/-- The items in the queue: those of the nodes after the dummy `q->head`, along `next`. -/
def AnamQueue.queued (q : AnamQueue) : List (List UInt8) :=
  chainItems q (q.capacity + 1) (q.next (decodeAddr q.head))

/-- A schedule of one producer `p`, which only pushes, and one consumer `c`, which only pops. -/
def QEvent.Spsc (p c : Nat) : QEvent → Prop
  | .call t (.push _) => t = p
  | .call t (.pop _) => t = c
  | .call _ _ => False
  | .exec t | .ret t => t = p ∨ t = c

instance (p c : Nat) : DecidablePred (QEvent.Spsc p c) := fun e => by
  cases e with
  | call t cl => cases cl <;> unfold QEvent.Spsc <;> infer_instance
  | exec t => unfold QEvent.Spsc; infer_instance
  | ret t => unfold QEvent.Spsc; infer_instance

/-! ## The invariant -/

/-- The producer has linked its node and not yet swung `q->tail` to it. -/
def QPc.swinging : QPc → Prop
  | .pushReloadTail _ | .pushSwingCas _ _ => True
  | _ => False

/-- The producer holds slot `k`, the node of `new_h`, with its `next` cleared. -/
def Prepared (next : Nat → Nat) (hd : Nat → Nat) (layout : PoolLayout) (pk : Option Nat)
    (newH : Nat) : Prop :=
  ∃ k, pk = some k ∧ newH = hd k ∧ next (slotFromIndex layout k) = anamNull

/-- What the producer's locals say, at each step it can stand at, given the queue's `next`
fields and `q->tail`, the current handles `hd`, the last node `t`, and the node `pk` it holds
off the chain. -/
def ProducerOk (next : Nat → Nat) (tail : Nat) (hd : Nat → Nat) (layout : PoolLayout) (t : Nat)
    (pk : Option Nat) : QPc → Prop
  | .pushGetNode _ newH => ∃ k, pk = some k ∧ newH = hd k
  | .pushClearNext _ newH node => ∃ k, pk = some k ∧ newH = hd k ∧ node = slotFromIndex layout k
  | .pushLoadTail newH => Prepared next hd layout pk newH
  | .pushGetTail newH tailH => Prepared next hd layout pk newH ∧ tailH = hd t
  | .pushLoadNext newH tailH tail' =>
    Prepared next hd layout pk newH ∧ tailH = hd t ∧ tail' = slotFromIndex layout t
  | .pushCheckTail newH tailH tail' nextH =>
    Prepared next hd layout pk newH ∧ tailH = hd t ∧ tail' = slotFromIndex layout t ∧
      nextH = anamNull
  | .pushLinkCas newH tail' nextH =>
    Prepared next hd layout pk newH ∧ tail' = slotFromIndex layout t ∧ nextH = anamNull
  | .pushReloadTail newH => pk = none ∧ newH = hd t
  | .pushSwingCas newH tailH => pk = none ∧ newH = hd t ∧ (tail = tailH ∨ tail = newH)
  | .idle | .done _ | .pushAlloc _ | .pushFail | .pushLength _ | .pushCount _ => pk = none
  | _ => False

/-- A `q->tail` value `tailH` the consumer loaded names a node of the chain `i₀ :: rest`, and if
it is not the dummy, `q->tail` has stayed off the dummy since. -/
def TailSeen (tail : Nat) (hd : Nat → Nat) (i₀ : Nat) (rest : List Nat) (tailH : Nat) : Prop :=
  (∃ tt ∈ i₀ :: rest, tailH = hd tt) ∧ (tailH ≠ hd i₀ → tail ≠ hd i₀)

/-- `next_h` is the handle of the node after the dummy. -/
def NextOf (hd : Nat → Nat) (rest : List Nat) (nextH : Nat) : Prop :=
  ∃ j rest', rest = j :: rest' ∧ nextH = hd j

/-- What the consumer's locals say, at each step it can stand at, given `q->tail`, the current
handles `hd`, the chain `i₀ :: rest`, and the node `cd` it has detached and not yet
released. -/
def ConsumerOk (tail : Nat) (hd : Nat → Nat) (layout : PoolLayout) (i₀ : Nat) (rest : List Nat)
    (cd : Option Nat) : QPc → Prop
  | .popLoadTail _ headH => cd = none ∧ headH = hd i₀
  | .popGetHead _ headH tailH => cd = none ∧ headH = hd i₀ ∧ TailSeen tail hd i₀ rest tailH
  | .popLoadNext _ headH tailH head =>
    cd = none ∧ headH = hd i₀ ∧ TailSeen tail hd i₀ rest tailH ∧ head = slotFromIndex layout i₀
  | .popCheckHead _ headH tailH nextH =>
    cd = none ∧ headH = hd i₀ ∧ TailSeen tail hd i₀ rest tailH ∧
      (nextH = anamNull ∨ NextOf hd rest nextH) ∧ (tailH ≠ hd i₀ → nextH ≠ anamNull)
  | .popHelpCas _ tailH nextH => cd = none ∧ tailH = hd i₀ ∧ NextOf hd rest nextH
  | .popGetNext _ headH nextH => cd = none ∧ headH = hd i₀ ∧ tail ≠ hd i₀ ∧ NextOf hd rest nextH
  | .popCopy _ headH nextH next =>
    cd = none ∧ headH = hd i₀ ∧ tail ≠ hd i₀ ∧
      ∃ j rest', rest = j :: rest' ∧ nextH = hd j ∧ next = slotFromIndex layout j
  | .popHeadCas _ headH nextH => cd = none ∧ headH = hd i₀ ∧ tail ≠ hd i₀ ∧ NextOf hd rest nextH
  | .popRelease headH => ∃ d, cd = some d ∧ headH = hd d
  | .idle | .done _ | .popLoadHead _ | .popFail | .popLength | .popCount => cd = none
  | _ => False

/-- A state of a producer `p` and a consumer `c` over the pool world `w`: the nodes from
`q->head` are the live slots `i₀ :: rest` ending at `t`, holding `items`; what was taken out,
followed by `items`, is what was linked in. -/
structure SpscAt (p c : Nat) (s : QSys) (linked popped : List (List UInt8)) (w : World)
    (i₀ : Nat) (rest : List Nat) (t : Nat) (items : List (List UInt8)) (pk cd : Option Nat) :
    Prop where
  inv : PoolInv w
  pool : w.pool = s.q.pool
  chain : QChain w.pool.layout w.handleOf s.q.next s.q.data i₀ rest items t
  nodup : (i₀ :: rest).Nodup
  lt : ∀ i ∈ i₀ :: rest, i < w.pool.layout.slotCount
  live : ∀ i ∈ i₀ :: rest, w.live i = true
  head : s.q.head = w.handleOf i₀
  /-- The tail names the last node, or the one before while the producer swings it. -/
  tail : s.q.tail = w.handleOf t ∨
    ((s.pc p).swinging ∧ ∃ l pre, i₀ :: rest = l ++ [pre, t] ∧ s.q.tail = w.handleOf pre)
  fifo : popped ++ items = linked
  aba : s.q.abaPrevented = 0
  capacity : w.pool.layout.slotCount = s.q.capacity + 1
  /-- The producer's node is live, off the chain, and not the consumer's. -/
  held_p : ∀ k, pk = some k → k < w.pool.layout.slotCount ∧ w.live k = true ∧
    k ∉ i₀ :: rest ∧ cd ≠ some k
  /-- The consumer's detached node is live and off the chain. -/
  held_c : ∀ d, cd = some d → d < w.pool.layout.slotCount ∧ w.live d = true ∧ d ∉ i₀ :: rest
  producer : ProducerOk s.q.next s.q.tail w.handleOf w.pool.layout t pk (s.pc p)
  consumer : ConsumerOk s.q.tail w.handleOf w.pool.layout i₀ rest cd (s.pc c)
  idle : ∀ t', t' ≠ p → t' ≠ c → s.pc t' = .idle

/-- Some ghost state matches the queue system. -/
def Spsc (p c : Nat) (s : QSys) (linked popped : List (List UInt8)) : Prop :=
  ∃ w i₀ rest t items pk cd, SpscAt p c s linked popped w i₀ rest t items pk cd

/-! ## Frames -/

theorem PoolInv.decodeAddr_handleOf {w : World} (hI : PoolInv w) {i : Nat}
    (hi : i < w.pool.layout.slotCount) : decodeAddr (w.handleOf i) = slotFromIndex w.pool.layout i :=
  decodeAddr_encodeHandle_of_fits (hI.slot_fits hi).1 _ _

/-- The chain ends at its last slot. -/
theorem QChain.eq_append_last {layout : PoolLayout} {hd next : Nat → Nat}
    {data : Nat → List UInt8} {i t : Nat} {rest : List Nat} {items : List (List UInt8)}
    (h : QChain layout hd next data i rest items t) : ∃ l, i :: rest = l ++ [t] := by
  induction h with
  | last => exact ⟨[], rfl⟩
  | @link i _ _ _ _ _ _ _ _ ih =>
    obtain ⟨l, hl⟩ := ih
    exact ⟨i :: l, by rw [hl]; rfl⟩

/-- Only the tail swing reads `q->tail`, and there the swung-to handle is the last node's. -/
theorem ProducerOk.to_last {next : Nat → Nat} {tail : Nat} {hd : Nat → Nat} {layout : PoolLayout}
    {t : Nat} {pk : Option Nat} {pc : QPc} (h : ProducerOk next tail hd layout t pk pc) :
    ProducerOk next (hd t) hd layout t pk pc := by
  cases pc
  case pushSwingCas newH tailH => exact ⟨h.1, h.2.1, .inr h.2.1.symm⟩
  all_goals exact h

theorem Prepared.congr_hd {next hd hd' : Nat → Nat} {layout : PoolLayout} {pk : Option Nat}
    {newH : Nat} (h : Prepared next hd layout pk newH) (hk : ∀ k, pk = some k → hd' k = hd k) :
    Prepared next hd' layout pk newH := by
  obtain ⟨k, h1, h2, h3⟩ := h
  exact ⟨k, h1, h2.trans (hk k h1).symm, h3⟩

/-- The producer's facts read the current handles of its node and of the last node only. -/
theorem ProducerOk.congr_hd {next : Nat → Nat} {tail : Nat} {hd hd' : Nat → Nat}
    {layout : PoolLayout} {t : Nat} {pk : Option Nat} {pc : QPc}
    (h : ProducerOk next tail hd layout t pk pc) (hk : ∀ k, pk = some k → hd' k = hd k)
    (ht : hd' t = hd t) : ProducerOk next tail hd' layout t pk pc := by
  cases pc
  case pushGetNode =>
    obtain ⟨k, h1, h2⟩ := h
    exact ⟨k, h1, h2.trans (hk k h1).symm⟩
  case pushClearNext =>
    obtain ⟨k, h1, h2, h3⟩ := h
    exact ⟨k, h1, h2.trans (hk k h1).symm, h3⟩
  case pushLoadTail => exact Prepared.congr_hd h hk
  case pushGetTail => exact ⟨Prepared.congr_hd h.1 hk, h.2.trans ht.symm⟩
  case pushLoadNext => exact ⟨Prepared.congr_hd h.1 hk, h.2.1.trans ht.symm, h.2.2⟩
  case pushCheckTail => exact ⟨Prepared.congr_hd h.1 hk, h.2.1.trans ht.symm, h.2.2⟩
  case pushLinkCas => exact ⟨Prepared.congr_hd h.1 hk, h.2⟩
  case pushReloadTail => exact ⟨h.1, h.2.trans ht.symm⟩
  case pushSwingCas => exact ⟨h.1, h.2.1.trans ht.symm, h.2.2⟩
  all_goals exact h

/-- While the tail lags at the dummy, the only node after it is the last. -/
theorem lag_at_dummy {i₀ t : Nat} {rest l : List Nat} (hnd : (i₀ :: rest).Nodup)
    (h : i₀ :: rest = l ++ [i₀, t]) : rest = [t] := by
  cases l with
  | nil => exact (List.cons.inj h).2
  | cons a l =>
    obtain ⟨rfl, rfl⟩ := List.cons.inj h
    exact absurd (List.mem_append_right l (List.mem_cons_self _ _)) (List.nodup_cons.mp hnd).1

/-- A tail lagging at a node other than the dummy still lags once the dummy is gone. -/
theorem lag_of_pop {i₀ j pre t : Nat} {rest l : List Nat} (hne : pre ≠ i₀)
    (h : i₀ :: j :: rest = l ++ [pre, t]) : ∃ l', j :: rest = l' ++ [pre, t] := by
  cases l with
  | nil => exact absurd (List.cons.inj h).1.symm hne
  | cons a l => exact ⟨l, (List.cons.inj h).2⟩

section Consumer

variable {tail tail' : Nat} {hd : Nat → Nat} {i₀ : Nat} {rest : List Nat}

theorem TailSeen.to_last {tailH : Nat} (h : TailSeen tail hd i₀ rest tailH)
    (hne : rest ≠ [] → tail' ≠ hd i₀) : TailSeen tail' hd i₀ rest tailH := by
  refine ⟨h.1, fun hn => hne fun hr => ?_⟩
  obtain ⟨tt, htt, rfl⟩ := h.1
  rw [hr, List.mem_singleton] at htt
  exact hn (htt ▸ rfl)

theorem NextOf.ne_nil {nextH : Nat} (h : NextOf hd rest nextH) : rest ≠ [] := by
  obtain ⟨j, rest', rfl, -⟩ := h
  exact List.cons_ne_nil _ _

/-- The consumer's facts survive `q->tail` moving to any handle other than the dummy's, once
there is a node after the dummy. -/
theorem ConsumerOk.to_last {layout : PoolLayout} {cd : Option Nat} {pc : QPc}
    (h : ConsumerOk tail hd layout i₀ rest cd pc) (hne : rest ≠ [] → tail' ≠ hd i₀) :
    ConsumerOk tail' hd layout i₀ rest cd pc := by
  cases pc
  case popGetHead => exact ⟨h.1, h.2.1, h.2.2.to_last hne⟩
  case popLoadNext => exact ⟨h.1, h.2.1, h.2.2.1.to_last hne, h.2.2.2⟩
  case popCheckHead => exact ⟨h.1, h.2.1, h.2.2.1.to_last hne, h.2.2.2⟩
  case popGetNext => exact ⟨h.1, h.2.1, hne h.2.2.2.ne_nil, h.2.2.2⟩
  case popHeadCas => exact ⟨h.1, h.2.1, hne h.2.2.2.ne_nil, h.2.2.2⟩
  case popCopy =>
    obtain ⟨h1, h2, -, j, rest', hr, h4⟩ := h
    exact ⟨h1, h2, hne (hr ▸ List.cons_ne_nil _ _), j, rest', hr, h4⟩
  all_goals exact h

theorem TailSeen.snoc {tailH k : Nat} (h : TailSeen tail hd i₀ rest tailH) :
    TailSeen tail hd i₀ (rest ++ [k]) tailH := by
  obtain ⟨⟨tt, htt, e⟩, h2⟩ := h
  exact ⟨⟨tt, List.cons_subset_cons _ (List.subset_append_left _ _) htt, e⟩, h2⟩

theorem NextOf.snoc {nextH k : Nat} (h : NextOf hd rest nextH) : NextOf hd (rest ++ [k]) nextH := by
  obtain ⟨j, rest', rfl, e⟩ := h
  exact ⟨j, rest' ++ [k], rfl, e⟩

/-- The consumer's facts survive a node linked after the last. -/
theorem ConsumerOk.snoc {layout : PoolLayout} {cd : Option Nat} {pc : QPc} {k : Nat}
    (h : ConsumerOk tail hd layout i₀ rest cd pc) : ConsumerOk tail hd layout i₀ (rest ++ [k]) cd pc := by
  cases pc
  case popGetHead => exact ⟨h.1, h.2.1, h.2.2.snoc⟩
  case popLoadNext => exact ⟨h.1, h.2.1, h.2.2.1.snoc, h.2.2.2⟩
  case popCheckHead => exact ⟨h.1, h.2.1, h.2.2.1.snoc, h.2.2.2.1.imp_right NextOf.snoc, h.2.2.2.2⟩
  case popHelpCas => exact ⟨h.1, h.2.1, h.2.2.snoc⟩
  case popGetNext => exact ⟨h.1, h.2.1, h.2.2.1, h.2.2.2.snoc⟩
  case popHeadCas => exact ⟨h.1, h.2.1, h.2.2.1, h.2.2.2.snoc⟩
  case popCopy =>
    obtain ⟨h1, h2, h3, j, rest', rfl, h4⟩ := h
    exact ⟨h1, h2, h3, j, rest' ++ [k], rfl, h4⟩
  all_goals exact h

end Consumer

/-- A step of thread `m` to `pc'` that leaves alone every field of the queue the invariant
reads, except perhaps `q->tail`. -/
structure QSys.Moves (s s' : QSys) (m : Nat) (pc' : QPc) : Prop where
  pool : s'.q.pool = s.q.pool
  head : s'.q.head = s.q.head
  next : s'.q.next = s.q.next
  data : s'.q.data = s.q.data
  aba : s'.q.abaPrevented = s.q.abaPrevented
  capacity : s'.q.capacity = s.q.capacity
  pc : s'.pc = Function.update s.pc m pc'

section Invariant

variable {p c : Nat} {s : QSys} {L Pp : List (List UInt8)} {w : World} {i₀ t : Nat}
  {rest : List Nat} {items : List (List UInt8)} {pk cd : Option Nat}
  (hS : SpscAt p c s L Pp w i₀ rest t items pk cd)
include hS

theorem SpscAt.i₀_lt : i₀ < w.pool.layout.slotCount := hS.lt i₀ (List.mem_cons_self _ _)

theorem SpscAt.t_lt : t < w.pool.layout.slotCount := hS.lt t hS.chain.last_mem

/-- While the producer is not swinging it, `q->tail` names the last node. -/
theorem SpscAt.tail_last (h : ¬ (s.pc p).swinging) : s.q.tail = w.handleOf t :=
  hS.tail.resolve_right fun h' => h h'.1

/-- `q->tail` names a node of the chain. -/
theorem SpscAt.tail_mem : ∃ tt ∈ i₀ :: rest, s.q.tail = w.handleOf tt := by
  rcases hS.tail with h | ⟨-, l, pre, hl, h⟩
  · exact ⟨t, hS.chain.last_mem, h⟩
  · exact ⟨pre, hl ▸ List.mem_append_right _ (List.mem_cons_self _ _), h⟩

/-- With a node after the dummy, the last node is not the dummy. -/
theorem SpscAt.last_ne (h : rest ≠ []) : w.handleOf t ≠ w.handleOf i₀ := by
  intro he
  obtain ⟨l, hl⟩ := hS.chain.eq_append_last
  have hti : t = i₀ := hS.inv.handleOf_inj hS.t_lt hS.i₀_lt he
  obtain ⟨j, rest', rfl⟩ := List.exists_cons_of_ne_nil h
  have hmem : t ∈ j :: rest' := by
    cases l with
    | nil => simp at hl
    | cons a l => rw [List.cons_append] at hl; exact (List.cons.inj hl).2 ▸ by simp
  exact (List.nodup_cons.mp hS.nodup).1 (hti ▸ hmem)

/-- Distinct slots of the pool have distinct nodes. -/
theorem SpscAt.slot_ne {i j : Nat} (hi : i < w.pool.layout.slotCount)
    (hj : j < w.pool.layout.slotCount) (h : i ≠ j) :
    slotFromIndex w.pool.layout i ≠ slotFromIndex w.pool.layout j :=
  slotFromIndex_ne hS.inv.geom hi hj h

/-- Every node's current handle decodes to its slot and is not null. -/
theorem SpscAt.handles : ∀ j ∈ i₀ :: rest,
    decodeAddr (w.handleOf j) = slotFromIndex w.pool.layout j ∧ w.handleOf j ≠ anamNull :=
  fun j hj => ⟨hS.inv.decodeAddr_handleOf (hS.lt j hj), hS.inv.handleOf_ne_null (hS.lt j hj)⟩

/-- The chain repeats no slot, so it holds at most `capacity + 1` nodes. -/
theorem SpscAt.length_lt : rest.length < s.q.capacity + 1 := by
  have := (List.subperm_of_subset hS.nodup fun i hi => List.mem_range.mpr (hS.lt i hi)).length_le
  rw [List.length_range, hS.capacity, List.length_cons] at this
  omega

/-- A step of the producer that leaves alone what the invariant reads. -/
theorem SpscAt.producer_moves (hpc : p ≠ c) {s' : QSys} {pc' : QPc} (hm : s.Moves s' p pc')
    (htail : s'.q.tail = s.q.tail)
    (hP : ProducerOk s.q.next s.q.tail w.handleOf w.pool.layout t pk pc')
    (hsw : ¬ pc'.swinging → s.q.tail = w.handleOf t) :
    SpscAt p c s' L Pp w i₀ rest t items pk cd := by
  have hc : s'.pc c = s.pc c := by rw [hm.pc, Function.update_noteq (Ne.symm hpc)]
  refine { hS with
    pool := (by rw [hm.pool]; exact hS.pool)
    chain := (by rw [hm.next, hm.data]; exact hS.chain)
    head := (by rw [hm.head]; exact hS.head)
    tail := ?_
    aba := (by rw [hm.aba]; exact hS.aba)
    capacity := (by rw [hm.capacity]; exact hS.capacity)
    producer := (by rw [hm.pc, Function.update_same, hm.next, htail]; exact hP)
    consumer := (by rw [hc, htail]; exact hS.consumer)
    idle := fun t' h1 h2 => ?_ }
  · rw [htail, hm.pc, Function.update_same]
    by_cases hs : pc'.swinging
    · rcases hS.tail with h | ⟨-, h⟩
      · exact .inl h
      · exact .inr ⟨hs, h⟩
    · exact .inl (hsw hs)
  · rw [hm.pc, Function.update_noteq h1]; exact hS.idle t' h1 h2

/-- A step of the consumer that leaves alone what the invariant reads. -/
theorem SpscAt.consumer_moves (hpc : p ≠ c) {s' : QSys} {pc' : QPc} (hm : s.Moves s' c pc')
    (htail : s'.q.tail = s.q.tail)
    (hC : ConsumerOk s.q.tail w.handleOf w.pool.layout i₀ rest cd pc') :
    SpscAt p c s' L Pp w i₀ rest t items pk cd := by
  have hp : s'.pc p = s.pc p := by rw [hm.pc, Function.update_noteq hpc]
  refine { hS with
    pool := (by rw [hm.pool]; exact hS.pool)
    chain := (by rw [hm.next, hm.data]; exact hS.chain)
    head := (by rw [hm.head]; exact hS.head)
    tail := (by rw [htail, hp]; exact hS.tail)
    aba := (by rw [hm.aba]; exact hS.aba)
    capacity := (by rw [hm.capacity]; exact hS.capacity)
    producer := (by rw [hp, hm.next, htail]; exact hS.producer)
    consumer := (by rw [hm.pc, Function.update_same, htail]; exact hC)
    idle := fun t' h1 h2 => ?_ }
  rw [hm.pc, Function.update_noteq h2]; exact hS.idle t' h1 h2

/-- Moving `q->tail` to the last node, as the producer's swing and the consumer's help do,
keeps the invariant. -/
theorem SpscAt.swing_tail :
    SpscAt p c { s with q := { s.q with tail := w.handleOf t } } L Pp w i₀ rest t items pk cd :=
  { hS with
    tail := .inl rfl
    producer := hS.producer.to_last
    consumer := hS.consumer.to_last hS.last_ne }

end Invariant

/-! ## The producer's steps -/

/-- `q'` agrees with `q` on every field the invariant reads: the step moved a counter at
most. -/
structure AnamQueue.Frame (q q' : AnamQueue) : Prop where
  pool : q'.pool = q.pool
  head : q'.head = q.head
  tail : q'.tail = q.tail
  next : q'.next = q.next
  data : q'.data = q.data
  aba : q'.abaPrevented = q.abaPrevented
  capacity : q'.capacity = q.capacity

theorem QSys.act_exec_of {sv : Bool} {s : QSys} {m : Nat} {q' : AnamQueue}
    {mem' : Nat → UInt8} {pc' : QPc} (hr : qstep sv s.q s.mem (s.pc m) = (q', mem', pc')) :
    s.act sv (.exec m) = { s with q := q', mem := mem', pc := Function.update s.pc m pc' } := by
  simp only [QSys.act, hr]

section Producer

variable {p c : Nat} {s : QSys} {L Pp : List (List UInt8)} {w : World} {i₀ t : Nat}
  {rest : List Nat} {items : List (List UInt8)} {pk cd : Option Nat}
  (hS : SpscAt p c s L Pp w i₀ rest t items pk cd)
include hS

/-- The producer never takes an item out. -/
theorem SpscAt.stepPopped_producer : s.stepPopped (.exec p) = [] := by
  have hP := hS.producer
  simp only [QSys.stepPopped]
  split
  · next h => rw [h] at hP; exact hP.elim
  · rfl

theorem SpscAt.producer_local (sv : Bool) (hpc : p ≠ c) {q' : AnamQueue} {mem' : Nat → UInt8}
    {pc' : QPc} (hr : qstep sv s.q s.mem (s.pc p) = (q', mem', pc')) (hq : s.q.Frame q')
    (hl : s.stepLinked (.exec p) = [])
    (hP : ProducerOk s.q.next s.q.tail w.handleOf w.pool.layout t pk pc')
    (hsw : ¬ pc'.swinging → s.q.tail = w.handleOf t) :
    Spsc p c (s.act sv (.exec p)) (L ++ s.stepLinked (.exec p)) (Pp ++ s.stepPopped (.exec p)) := by
  rw [hl, hS.stepPopped_producer, List.append_nil, List.append_nil, QSys.act_exec_of hr]
  exact ⟨w, i₀, rest, t, items, pk, cd, hS.producer_moves hpc
    ⟨hq.pool, hq.head, hq.next, hq.data, hq.aba, hq.capacity, rfl⟩ hq.tail hP hsw⟩

/-- `alloc_node` takes the top free slot, which is off the chain and not the consumer's. -/
theorem SpscAt.producer_alloc (sv : Bool) (hpc : p ≠ c) {d : Nat} (hp : s.pc p = .pushAlloc d) :
    Spsc p c (s.act sv (.exec p)) (L ++ s.stepLinked (.exec p)) (Pp ++ s.stepPopped (.exec p)) := by
  have hI := hS.inv
  have hP := hS.producer
  rw [hp] at hP
  have hl : s.stepLinked (.exec p) = [] := by simp [QSys.stepLinked, hp]
  have hlast := hS.tail_last (by rw [hp]; exact id)
  cases hf : w.free with
  | nil =>
    have ha : anamAlloc s.q.pool = (s.q.pool, anamNull) := by rw [← hS.pool, hI.anamAlloc_nil hf]
    have hr : qstep sv s.q s.mem (s.pc p) = ({ s.q with pool := s.q.pool }, s.mem, .pushFail) := by
      simp [hp, qstep, ha, anamIsNull]
    exact hS.producer_local sv hpc hr ⟨rfl, rfl, rfl, rfl, rfl, rfl, rfl⟩ hl hP fun _ => hlast
  | cons k fr =>
    have hk : k < w.pool.layout.slotCount := hI.free_lt k (hf ▸ List.mem_cons_self _ _)
    have hkf : w.live k = false := (hI.free_iff k hk).mp (hf ▸ List.mem_cons_self _ _)
    have ha : anamAlloc s.q.pool = (w.alloc.pool, w.handleOf k) := by
      rw [← hS.pool]; exact hI.anamAlloc_handleOf hf
    have hr : qstep sv s.q s.mem (s.pc p) =
        ({ s.q with pool := w.alloc.pool }, s.mem, .pushGetNode d (w.handleOf k)) := by
      simp [hp, qstep, ha, anamIsNull, hI.handleOf_ne_null hk]
    rw [hl, hS.stepPopped_producer, List.append_nil, List.append_nil, QSys.act_exec_of hr]
    obtain ⟨-, -, hl₁, -⟩ := World.alloc_of_cons hf
    have hL : w.alloc.pool.layout = w.pool.layout := World.act_layout sv w .alloc
    have hoff : ∀ i, w.live i = true → i ≠ k := fun i hi he => by rw [he, hkf] at hi; cases hi
    refine ⟨w.alloc, i₀, rest, t, items, some k, cd, { hS with
      inv := hI.act sv (c := .alloc) trivial
      pool := rfl
      chain := (by rw [World.alloc_handleOf, hL]; exact hS.chain)
      lt := (by rw [hL]; exact hS.lt)
      live := fun i hi => by rw [hl₁, Function.update_noteq (hoff i (hS.live i hi))]; exact hS.live i hi
      head := (by rw [World.alloc_handleOf]; exact hS.head)
      tail := .inl (by rw [World.alloc_handleOf]; exact hlast)
      capacity := (by rw [hL]; exact hS.capacity)
      held_p := fun k' hk' => ?_
      held_c := fun d' hd' => ?_
      producer := (by simp only [Function.update_same]; exact ⟨k, rfl, by rw [World.alloc_handleOf]⟩)
      consumer := (by
        simp only [Function.update_noteq (Ne.symm hpc), World.alloc_handleOf, hL]; exact hS.consumer)
      idle := fun t' h1 h2 => by simp only [Function.update_noteq h1]; exact hS.idle t' h1 h2 }⟩
    · cases hk'
      refine ⟨by rw [hL]; exact hk, by rw [hl₁, Function.update_same],
        fun hm => hoff k (hS.live k hm) rfl, fun hc => ?_⟩
      exact hoff k (hS.held_c k hc).2.1 rfl
    · obtain ⟨h1, h2, h3⟩ := hS.held_c d' hd'
      exact ⟨by rw [hL]; exact h1, by rw [hl₁, Function.update_noteq (hoff d' h2)]; exact h2, h3⟩

/-- Clearing the held node's `next` and storing its item touch no node of the chain. -/
theorem SpscAt.producer_clear (sv : Bool) (hpc : p ≠ c) {d newH node : Nat}
    (hp : s.pc p = .pushClearNext d newH node) :
    Spsc p c (s.act sv (.exec p)) (L ++ s.stepLinked (.exec p)) (Pp ++ s.stepPopped (.exec p)) := by
  have hP := hS.producer
  rw [hp] at hP
  obtain ⟨k, hk, rfl, rfl⟩ := hP
  obtain ⟨hkn, -, hkc, -⟩ := hS.held_p k hk
  have hl : s.stepLinked (.exec p) = [] := by simp [QSys.stepLinked, hp]
  rw [hl, hS.stepPopped_producer, List.append_nil, List.append_nil,
    QSys.act_exec_of (by rw [hp])]
  have hne : ∀ j ∈ i₀ :: rest, slotFromIndex w.pool.layout j ≠ slotFromIndex w.pool.layout k :=
    fun j hj => hS.slot_ne (hS.lt j hj) hkn fun e => hkc (e ▸ hj)
  refine ⟨w, i₀, rest, t, items, pk, cd, { hS with
    chain := hS.chain.congr (fun _ _ => rfl) (fun j hj => Function.update_noteq (hne j hj) _ _)
      (fun j hj => Function.update_noteq (hne j (List.mem_cons_of_mem _ hj)) _ _)
    tail := .inl (hS.tail_last (by rw [hp]; exact id))
    producer := (by
      simp only [Function.update_same]; exact ⟨k, hk, rfl, Function.update_same _ _ _⟩)
    consumer := (by simp only [Function.update_noteq (Ne.symm hpc)]; exact hS.consumer)
    idle := fun t' h1 h2 => by simp only [Function.update_noteq h1]; exact hS.idle t' h1 h2 }⟩

/-- The successful compare-exchange on the last node's `next` links the held node: the chain
grows by it, and its item is the one observed linked. -/
theorem SpscAt.producer_link (sv : Bool) (hpc : p ≠ c) {newH tail' nextH : Nat}
    (hp : s.pc p = .pushLinkCas newH tail' nextH) :
    Spsc p c (s.act sv (.exec p)) (L ++ s.stepLinked (.exec p)) (Pp ++ s.stepPopped (.exec p)) := by
  have hI := hS.inv
  have hP := hS.producer
  rw [hp] at hP
  obtain ⟨⟨k, hk', rfl, hkn⟩, rfl, rfl⟩ := hP
  obtain ⟨hk, hkl, hkc, hck⟩ := hS.held_p k hk'
  have hnt := hS.chain.next_last
  have hl : s.stepLinked (.exec p) = [s.q.data (slotFromIndex w.pool.layout k)] := by
    simp [QSys.stepLinked, hp, hnt, hI.decodeAddr_handleOf hk]
  have hr : qstep sv s.q s.mem (s.pc p) =
      ({ s.q with next := Function.update s.q.next (slotFromIndex w.pool.layout t) (w.handleOf k) },
        s.mem, .pushReloadTail (w.handleOf k)) := by
    simp [hp, qstep, hnt]
  rw [hl, hS.stepPopped_producer, List.append_nil, QSys.act_exec_of hr]
  have hne : ∀ j ∈ i₀ :: rest, slotFromIndex w.pool.layout j ≠ slotFromIndex w.pool.layout k :=
    fun j hj => hS.slot_ne (hS.lt j hj) hk fun e => hkc (e ▸ hj)
  have hch := hS.chain.snoc (x := s.q.data (slotFromIndex w.pool.layout k)) hS.nodup hne
    fun a ha b hb hab => hS.slot_ne (hS.lt a ha) (hS.lt b hb) hab
  have hkeep : Function.update s.q.next (slotFromIndex w.pool.layout k) anamNull = s.q.next :=
    Function.update_eq_self_iff.mpr hkn.symm
  rw [hkeep, Function.update_eq_self] at hch
  have hmem : ∀ {i}, i ∈ i₀ :: (rest ++ [k]) → i ∈ i₀ :: rest ∨ i = k := by
    intro i hi; simpa [or_assoc] using hi
  obtain ⟨l, hl'⟩ := hS.chain.eq_append_last
  refine ⟨w, i₀, rest ++ [k], k, items ++ [_], none, cd, { hS with
    chain := hch
    nodup := show ((i₀ :: rest) ++ [k]).Nodup from
      hS.nodup.append (List.nodup_singleton k) (List.disjoint_singleton.mpr hkc)
    lt := fun i hi => (hmem hi).elim (hS.lt i) fun e => e ▸ hk
    live := fun i hi => (hmem hi).elim (hS.live i) fun e => e ▸ hkl
    tail := .inr ⟨by simp only [Function.update_same]; trivial, l, t,
      by rw [← List.cons_append, hl', List.append_assoc]; rfl,
      hS.tail_last (by rw [hp]; exact id)⟩
    fifo := by rw [← List.append_assoc, hS.fifo]
    held_p := fun _ h => by cases h
    held_c := fun d hd => ?_
    producer := (by simp only [Function.update_same]; exact ⟨rfl, rfl⟩)
    consumer := (by simp only [Function.update_noteq (Ne.symm hpc)]; exact hS.consumer.snoc)
    idle := fun t' h1 h2 => by simp only [Function.update_noteq h1]; exact hS.idle t' h1 h2 }⟩
  obtain ⟨h1, h2, h3⟩ := hS.held_c d hd
  exact ⟨h1, h2, fun hm => (hmem hm).elim h3 fun e => hck (e ▸ hd)⟩

/-- The tail swing leaves `q->tail` at the last node, whether its compare-exchange succeeds or
the consumer has already helped. -/
theorem SpscAt.producer_swing (sv : Bool) (hpc : p ≠ c) {newH tailH : Nat}
    (hp : s.pc p = .pushSwingCas newH tailH) :
    Spsc p c (s.act sv (.exec p)) (L ++ s.stepLinked (.exec p)) (Pp ++ s.stepPopped (.exec p)) := by
  have hP := hS.producer
  rw [hp] at hP
  obtain ⟨hpk, rfl, htl⟩ := hP
  have hl : s.stepLinked (.exec p) = [] := by simp [QSys.stepLinked, hp]
  rw [hl, hS.stepPopped_producer, List.append_nil, List.append_nil]
  by_cases h : s.q.tail = tailH
  · have hr : qstep sv s.q s.mem (s.pc p) =
        ({ s.q with tail := w.handleOf t }, s.mem, .pushLength (w.handleOf t)) := by
      simp [hp, qstep, h, hS.inv.relive_handleOf hS.t_lt]
    rw [QSys.act_exec_of hr]
    exact ⟨_, _, _, _, _, _, _, hS.swing_tail.producer_moves hpc
      ⟨rfl, rfl, rfl, rfl, rfl, rfl, rfl⟩ rfl hpk fun _ => rfl⟩
  · have hr : qstep sv s.q s.mem (s.pc p) = (s.q, s.mem, .pushLength (w.handleOf t)) := by
      simp [hp, qstep, h]
    rw [QSys.act_exec_of hr]
    exact ⟨_, _, _, _, _, _, _, hS.producer_moves hpc
      ⟨rfl, rfl, rfl, rfl, rfl, rfl, rfl⟩ rfl hpk fun _ => htl.resolve_left h⟩

/-- Every step of the producer keeps the invariant. -/
theorem SpscAt.exec_producer (sv : Bool) (hpc : p ≠ c) :
    Spsc p c (s.act sv (.exec p)) (L ++ s.stepLinked (.exec p)) (Pp ++ s.stepPopped (.exec p)) := by
  have hI := hS.inv
  have hP := hS.producer
  cases hp : s.pc p
  case pushAlloc => exact hS.producer_alloc sv hpc hp
  case pushClearNext => exact hS.producer_clear sv hpc hp
  case pushLinkCas => exact hS.producer_link sv hpc hp
  case pushSwingCas => exact hS.producer_swing sv hpc hp
  all_goals
    rw [hp] at hP
    have hl : s.stepLinked (.exec p) = [] := by simp [QSys.stepLinked, hp]
    have hlast : ¬ (s.pc p).swinging → s.q.tail = w.handleOf t := hS.tail_last
    rw [hp] at hlast
  case idle | pushFail | pushLength | pushCount | done =>
    refine hS.producer_local sv hpc (by rw [hp]; try rfl) ?_ hl ?_ fun _ => hlast id
    exacts [⟨rfl, rfl, rfl, rfl, rfl, rfl, rfl⟩, hP]
  case pushGetNode d newH =>
    obtain ⟨k, hk, rfl⟩ := hP
    have hg : anamGet sv s.q.pool (w.handleOf k) = (s.q.pool, slotFromIndex w.pool.layout k) := by
      rw [← hS.pool]; exact hI.anamGet_handleOf sv (hS.held_p k hk).1
    have hr : qstep sv s.q s.mem (s.pc p) = ({ s.q with pool := s.q.pool }, s.mem,
        .pushClearNext d (w.handleOf k) (slotFromIndex w.pool.layout k)) := by simp [hp, qstep, hg]
    exact hS.producer_local sv hpc hr ⟨rfl, rfl, rfl, rfl, rfl, rfl, rfl⟩ hl ⟨k, hk, rfl, rfl⟩
      fun _ => hlast id
  case pushLoadTail newH =>
    refine hS.producer_local sv hpc (by rw [hp]; try rfl) ?_ hl ?_ fun _ => hlast id
    exacts [⟨rfl, rfl, rfl, rfl, rfl, rfl, rfl⟩, ⟨hP, hlast id⟩]
  case pushGetTail newH tailH =>
    obtain ⟨hpr, rfl⟩ := hP
    have hg : anamGet sv s.q.pool (w.handleOf t) = (s.q.pool, slotFromIndex w.pool.layout t) := by
      rw [← hS.pool]; exact hI.anamGet_handleOf sv hS.t_lt
    have hpos := Nat.pos_iff_ne_zero.mp (hI.slot_fits hS.t_lt).2
    have hr : qstep sv s.q s.mem (s.pc p) = ({ s.q with pool := s.q.pool }, s.mem,
        .pushLoadNext newH (w.handleOf t) (slotFromIndex w.pool.layout t)) := by
      simp [hp, qstep, hg, hpos]
    exact hS.producer_local sv hpc hr ⟨rfl, rfl, rfl, rfl, rfl, rfl, rfl⟩ hl ⟨hpr, rfl, rfl⟩
      fun _ => hlast id
  case pushLoadNext newH tailH tail' =>
    obtain ⟨hpr, rfl, rfl⟩ := hP
    refine hS.producer_local sv hpc (by rw [hp]; try rfl) ?_ hl ?_ fun _ => hlast id
    exacts [⟨rfl, rfl, rfl, rfl, rfl, rfl, rfl⟩, ⟨hpr, rfl, rfl, hS.chain.next_last⟩]
  case pushCheckTail newH tailH tail' nextH =>
    obtain ⟨hpr, rfl, rfl, rfl⟩ := hP
    have hr : qstep sv s.q s.mem (s.pc p) =
        (s.q, s.mem, .pushLinkCas newH (slotFromIndex w.pool.layout t) anamNull) := by
      simp [hp, qstep, hlast id, anamIsNull]
    exact hS.producer_local sv hpc hr ⟨rfl, rfl, rfl, rfl, rfl, rfl, rfl⟩ hl ⟨hpr, rfl, rfl⟩
      fun _ => hlast id
  case pushReloadTail newH =>
    obtain ⟨hpk, rfl⟩ := hP
    refine hS.producer_local sv hpc (by rw [hp]; try rfl) ?_ hl ?_ ?_
    exacts [⟨rfl, rfl, rfl, rfl, rfl, rfl, rfl⟩, ⟨hpk, rfl, .inl rfl⟩, fun h => (h trivial).elim]
  all_goals exact hP.elim

end Producer

/-! ## The consumer's steps -/

section Consumer

variable {p c : Nat} {s : QSys} {L Pp : List (List UInt8)} {w : World} {i₀ t : Nat}
  {rest : List Nat} {items : List (List UInt8)} {pk cd : Option Nat}
  (hS : SpscAt p c s L Pp w i₀ rest t items pk cd)
include hS

/-- The consumer never links an item in. -/
theorem SpscAt.stepLinked_consumer : s.stepLinked (.exec c) = [] := by
  have hC := hS.consumer
  simp only [QSys.stepLinked]
  split
  · next h => rw [h] at hC; exact hC.elim
  · rfl

theorem SpscAt.consumer_local (sv : Bool) (hpc : p ≠ c) {q' : AnamQueue} {mem' : Nat → UInt8}
    {pc' : QPc} (hr : qstep sv s.q s.mem (s.pc c) = (q', mem', pc')) (hq : s.q.Frame q')
    (hpop : s.stepPopped (.exec c) = [])
    (hC : ConsumerOk s.q.tail w.handleOf w.pool.layout i₀ rest cd pc') :
    Spsc p c (s.act sv (.exec c)) (L ++ s.stepLinked (.exec c)) (Pp ++ s.stepPopped (.exec c)) := by
  rw [hS.stepLinked_consumer, hpop, List.append_nil, List.append_nil, QSys.act_exec_of hr]
  exact ⟨w, i₀, rest, t, items, pk, cd, hS.consumer_moves hpc
    ⟨hq.pool, hq.head, hq.next, hq.data, hq.aba, hq.capacity, rfl⟩ hq.tail hC⟩

/-- What the dummy's `next` tells the consumer: null only when there is no node after it, and
then the tail it loaded is the dummy. -/
theorem SpscAt.next_seen {tailH : Nat} (hts : TailSeen s.q.tail w.handleOf i₀ rest tailH) :
    (s.q.next (slotFromIndex w.pool.layout i₀) = anamNull ∨
        NextOf w.handleOf rest (s.q.next (slotFromIndex w.pool.layout i₀))) ∧
      (tailH ≠ w.handleOf i₀ → s.q.next (slotFromIndex w.pool.layout i₀) ≠ anamNull) := by
  cases rest with
  | nil =>
    refine ⟨.inl hS.chain.nil_inv.2.2, fun hne => ?_⟩
    obtain ⟨tt, htt, rfl⟩ := hts.1
    rw [List.mem_singleton] at htt
    exact absurd (htt ▸ rfl) hne
  | cons j rest' =>
    obtain ⟨-, -, -, hn, -, -⟩ := hS.chain.cons_inv
    exact ⟨.inr ⟨j, rest', rfl, hn⟩, fun _ => hn ▸ hS.inv.handleOf_ne_null (hS.lt j (by simp))⟩

/-- The consumer's help succeeds only while the producer has linked the one node after the
dummy and not yet swung the tail to it: it swings the tail there itself. -/
theorem SpscAt.consumer_help (sv : Bool) (hpc : p ≠ c) {out tailH nextH : Nat}
    (hp : s.pc c = .popHelpCas out tailH nextH) :
    Spsc p c (s.act sv (.exec c)) (L ++ s.stepLinked (.exec c)) (Pp ++ s.stepPopped (.exec c)) := by
  have hI := hS.inv
  have hC := hS.consumer
  rw [hp] at hC
  obtain ⟨hcd, rfl, j, rest', rfl, rfl⟩ := hC
  have hpop : s.stepPopped (.exec c) = [] := by simp [QSys.stepPopped, hp]
  by_cases h : s.q.tail = w.handleOf i₀
  · rcases hS.tail with h' | ⟨-, l, pre, hl, hpre⟩
    · exact absurd (h'.symm.trans h) (hS.last_ne (List.cons_ne_nil _ _))
    have hpre' : pre = i₀ :=
      hI.handleOf_inj (hS.lt pre (hl ▸ by simp)) hS.i₀_lt (hpre.symm.trans h)
    subst hpre'
    have hjt : j = t := (List.cons.inj (lag_at_dummy hS.nodup hl)).1
    have hr : qstep sv s.q s.mem (s.pc c) =
        ({ s.q with tail := w.handleOf t }, s.mem, .popLoadHead out) := by
      simp [hp, qstep, h, hjt, hI.relive_handleOf hS.t_lt]
    rw [hS.stepLinked_consumer, hpop, List.append_nil, List.append_nil, QSys.act_exec_of hr]
    exact ⟨_, _, _, _, _, _, _, hS.swing_tail.consumer_moves hpc
      ⟨rfl, rfl, rfl, rfl, rfl, rfl, rfl⟩ rfl hcd⟩
  · have hr : qstep sv s.q s.mem (s.pc c) = (s.q, s.mem, .popLoadHead out) := by
      simp [hp, qstep, h]
    exact hS.consumer_local sv hpc hr ⟨rfl, rfl, rfl, rfl, rfl, rfl, rfl⟩ hpop hcd

/-- The successful compare-exchange on `q->head` detaches the dummy: the next node becomes the
dummy, and its item is the one observed taken out. -/
theorem SpscAt.consumer_pop (sv : Bool) (hpc : p ≠ c) {out headH nextH : Nat}
    (hp : s.pc c = .popHeadCas out headH nextH) :
    Spsc p c (s.act sv (.exec c)) (L ++ s.stepLinked (.exec c)) (Pp ++ s.stepPopped (.exec c)) := by
  have hI := hS.inv
  have hC := hS.consumer
  rw [hp] at hC
  obtain ⟨hcd, rfl, htl, j, rest', rfl, rfl⟩ := hC
  obtain ⟨x, items', rfl, -, hx, hch⟩ := hS.chain.cons_inv
  obtain ⟨hi₀, hnd⟩ := List.nodup_cons.mp hS.nodup
  have hj : j < w.pool.layout.slotCount := hS.lt j (by simp)
  have hpop : s.stepPopped (.exec c) = [x] := by
    simp [QSys.stepPopped, hp, hS.head, hI.decodeAddr_handleOf hj, hx]
  have hr : qstep sv s.q s.mem (s.pc c) =
      ({ s.q with head := w.handleOf j }, s.mem, .popRelease (w.handleOf i₀)) := by
    simp [hp, qstep, hS.head, hI.relive_handleOf hj]
  rw [hS.stepLinked_consumer, hpop, List.append_nil, QSys.act_exec_of hr]
  have hsub : ∀ i ∈ j :: rest', i ∈ i₀ :: j :: rest' := fun i hi => List.mem_cons_of_mem _ hi
  refine ⟨w, j, rest', t, items', pk, some i₀, { hS with
    chain := hch
    nodup := hnd
    lt := fun i hi => hS.lt i (hsub i hi)
    live := fun i hi => hS.live i (hsub i hi)
    head := rfl
    tail := ?_
    fifo := by rw [List.append_assoc]; exact hS.fifo
    held_p := fun k hk => ?_
    held_c := fun d hd => ?_
    producer := (by simp only [Function.update_noteq hpc]; exact hS.producer)
    consumer := (by simp only [Function.update_same]; exact ⟨i₀, rfl, rfl⟩)
    idle := fun t' h1 h2 => by simp only [Function.update_noteq h2]; exact hS.idle t' h1 h2 }⟩
  · simp only [Function.update_noteq hpc]
    rcases hS.tail with h | ⟨hsw, l, pre, hl, hpre⟩
    · exact .inl h
    · obtain ⟨l', hl'⟩ := lag_of_pop (fun (e : pre = i₀) => htl (e ▸ hpre)) hl
      exact .inr ⟨hsw, l', pre, hl', hpre⟩
  · obtain ⟨h1, h2, h3, -⟩ := hS.held_p k hk
    exact ⟨h1, h2, fun hm => h3 (hsub k hm), fun he => h3 (Option.some.inj he ▸ by simp)⟩
  · cases hd
    exact ⟨hS.i₀_lt, hS.live i₀ (List.mem_cons_self _ _), hi₀⟩

/-- `anam_release` of the detached node frees a slot no one reads again. -/
theorem SpscAt.consumer_release (sv : Bool) (hpc : p ≠ c) {headH : Nat}
    (hp : s.pc c = .popRelease headH) :
    Spsc p c (s.act sv (.exec c)) (L ++ s.stepLinked (.exec c)) (Pp ++ s.stepPopped (.exec c)) := by
  have hI := hS.inv
  have hC := hS.consumer
  rw [hp] at hC
  obtain ⟨d, rfl, rfl⟩ := hC
  obtain ⟨hd, hdl, hdc⟩ := hS.held_c d rfl
  have hv : authenticate sv w.pool (w.handleOf d) = .genuine (slotFromIndex w.pool.layout d) :=
    hI.authenticate_live sv hd
  have hidx : slotIndex w.pool.layout (decodeAddr (w.handleOf d)) = d := by
    rw [hI.decodeAddr_handleOf hd, slotIndex_slotFromIndex hI.geom hd]
  obtain ⟨hp₂, -, hl₂, hr₂⟩ := World.release_of_genuine hv hidx
  have hadm : (Call.release (w.handleOf d)).Admissible w := by
    refine .inr ⟨d, w.releases d, ?_, by omega⟩
    have := hI.live_issued d hdl
    rwa [hI.current d hdl] at this
  have hL₂ : (w.release sv (w.handleOf d)).pool.layout = w.pool.layout :=
    World.act_layout sv w (.release _)
  have hh₂ : ∀ k, k ∈ i₀ :: rest ∨ pk = some k → (w.release sv (w.handleOf d)).handleOf k = w.handleOf k := by
    intro k hk
    have hkd : k ≠ d := by
      rintro rfl
      rcases hk with hk | hk
      · exact hdc hk
      · exact (hS.held_p k hk).2.2.2 rfl
    show encodeHandle ((w.release sv (w.handleOf d)).releases k)
      (slotFromIndex (w.release sv (w.handleOf d)).pool.layout k) stateLive = w.handleOf k
    rw [hr₂, hL₂, Function.update_noteq hkd]; rfl
  have hpop : s.stepPopped (.exec c) = [] := by simp [QSys.stepPopped, hp]
  have hr : qstep sv s.q s.mem (s.pc c) =
      ({ s.q with pool := pushFree w.pool (slotFromIndex w.pool.layout d) }, s.mem, .popLength) := by
    simp only [hp, qstep]
    rw [← hS.pool, anamRelease_of_genuine hv]
  rw [hS.stepLinked_consumer, hpop, List.append_nil, List.append_nil, QSys.act_exec_of hr]
  have hch : ∀ i ∈ i₀ :: rest, i ∈ i₀ :: rest ∨ pk = some i := fun i hi => .inl hi
  refine ⟨w.release sv (w.handleOf d), i₀, rest, t, items, pk, none, { hS with
    inv := hI.act sv hadm
    pool := hp₂
    chain := (by
      rw [hL₂]
      exact hS.chain.congr (fun k hk => hh₂ k (.inl (List.mem_cons_of_mem _ hk)))
        (fun _ _ => rfl) fun _ _ => rfl)
    lt := (by rw [hL₂]; exact hS.lt)
    live := fun i hi => by
      rw [hl₂, Function.update_noteq fun (e : i = d) => hdc (e ▸ hi)]; exact hS.live i hi
    head := (by rw [hh₂ i₀ (.inl (List.mem_cons_self _ _))]; exact hS.head)
    tail := ?_
    capacity := (by rw [hL₂]; exact hS.capacity)
    held_p := fun k hk => ?_
    held_c := fun _ h => by cases h
    producer := (by
      simp only [Function.update_noteq hpc]
      rw [hL₂]
      exact hS.producer.congr_hd (fun k hk => hh₂ k (.inr hk)) (hh₂ t (.inl hS.chain.last_mem)))
    consumer := (by simp only [Function.update_same]; rfl)
    idle := fun t' h1 h2 => by simp only [Function.update_noteq h2]; exact hS.idle t' h1 h2 }⟩
  · simp only [Function.update_noteq hpc]
    rcases hS.tail with h | ⟨hsw, l, pre, hl, hpre⟩
    · exact .inl (by rw [hh₂ t (.inl hS.chain.last_mem)]; exact h)
    · have hmem : pre ∈ i₀ :: rest := hl ▸ by simp
      exact .inr ⟨hsw, l, pre, hl, by rw [hh₂ pre (.inl hmem)]; exact hpre⟩
  · obtain ⟨h1, h2, h3, h4⟩ := hS.held_p k hk
    have hkd : k ≠ d := fun e => h4 (e ▸ rfl)
    exact ⟨by rw [hL₂]; exact h1, by rw [hl₂, Function.update_noteq hkd]; exact h2, h3,
      fun h => by cases h⟩

/-- Every step of the consumer keeps the invariant. -/
theorem SpscAt.exec_consumer (sv : Bool) (hpc : p ≠ c) :
    Spsc p c (s.act sv (.exec c)) (L ++ s.stepLinked (.exec c)) (Pp ++ s.stepPopped (.exec c)) := by
  have hI := hS.inv
  have hC := hS.consumer
  cases hp : s.pc c
  case popHelpCas => exact hS.consumer_help sv hpc hp
  case popHeadCas => exact hS.consumer_pop sv hpc hp
  case popRelease => exact hS.consumer_release sv hpc hp
  all_goals
    rw [hp] at hC
    have hpop : s.stepPopped (.exec c) = [] := by simp [QSys.stepPopped, hp]
  case idle | popFail | popCount | done =>
    refine hS.consumer_local sv hpc (by rw [hp]; try rfl) ?_ hpop ?_
    exacts [⟨rfl, rfl, rfl, rfl, rfl, rfl, rfl⟩, hC]
  case popLength =>
    have hr : qstep sv s.q s.mem (s.pc c) =
        ({ s.q with length := sizeSub s.q.length 1 }, s.mem, .popCount) := by
      rw [hp, qstep]
    exact hS.consumer_local sv hpc hr ⟨rfl, rfl, rfl, rfl, rfl, rfl, rfl⟩ hpop hC
  case popLoadHead out =>
    refine hS.consumer_local sv hpc (by rw [hp]; try rfl) ?_ hpop ?_
    exacts [⟨rfl, rfl, rfl, rfl, rfl, rfl, rfl⟩, ⟨hC, hS.head⟩]
  case popLoadTail out headH =>
    refine hS.consumer_local sv hpc (by rw [hp]; try rfl) ?_ hpop ?_
    exacts [⟨rfl, rfl, rfl, rfl, rfl, rfl, rfl⟩, ⟨hC.1, hC.2, hS.tail_mem, id⟩]
  case popGetHead out headH tailH =>
    obtain ⟨hcd, rfl, hts⟩ := hC
    have hg : anamGet sv s.q.pool (w.handleOf i₀) = (s.q.pool, slotFromIndex w.pool.layout i₀) := by
      rw [← hS.pool]; exact hI.anamGet_handleOf sv hS.i₀_lt
    have hpos := Nat.pos_iff_ne_zero.mp (hI.slot_fits hS.i₀_lt).2
    have hr : qstep sv s.q s.mem (s.pc c) = ({ s.q with pool := s.q.pool }, s.mem,
        .popLoadNext out (w.handleOf i₀) tailH (slotFromIndex w.pool.layout i₀)) := by
      simp [hp, qstep, hg, hpos]
    exact hS.consumer_local sv hpc hr ⟨rfl, rfl, rfl, rfl, rfl, rfl, rfl⟩ hpop ⟨hcd, rfl, hts, rfl⟩
  case popLoadNext out headH tailH head =>
    obtain ⟨hcd, rfl, hts, rfl⟩ := hC
    refine hS.consumer_local sv hpc (by rw [hp]; try rfl) ?_ hpop ?_
    exacts [⟨rfl, rfl, rfl, rfl, rfl, rfl, rfl⟩, ⟨hcd, rfl, hts, hS.next_seen hts⟩]
  case popCheckHead out headH tailH nextH =>
    obtain ⟨hcd, rfl, hts, hnx, hnn⟩ := hC
    by_cases hht : w.handleOf i₀ = tailH
    · by_cases hn : nextH = anamNull
      · have hr : qstep sv s.q s.mem (s.pc c) = (s.q, s.mem, .popFail) := by
          simp [hp, qstep, hS.head, hht, hn, anamIsNull]
        exact hS.consumer_local sv hpc hr ⟨rfl, rfl, rfl, rfl, rfl, rfl, rfl⟩ hpop hcd
      · have hr : qstep sv s.q s.mem (s.pc c) = (s.q, s.mem, .popHelpCas out tailH nextH) := by
          simp [hp, qstep, hS.head, hht, hn, anamIsNull]
        exact hS.consumer_local sv hpc hr ⟨rfl, rfl, rfl, rfl, rfl, rfl, rfl⟩ hpop
          ⟨hcd, hht.symm, hnx.resolve_left hn⟩
    · have hr : qstep sv s.q s.mem (s.pc c) = (s.q, s.mem, .popGetNext out (w.handleOf i₀) nextH) := by
        simp [hp, qstep, hS.head, hht]
      exact hS.consumer_local sv hpc hr ⟨rfl, rfl, rfl, rfl, rfl, rfl, rfl⟩ hpop
        ⟨hcd, rfl, hts.2 (Ne.symm hht), hnx.resolve_left (hnn (Ne.symm hht))⟩
  case popGetNext out headH nextH =>
    obtain ⟨hcd, rfl, htl, j, rest', rfl, rfl⟩ := hC
    have hj : j < w.pool.layout.slotCount := hS.lt j (by simp)
    have hg : anamGet sv s.q.pool (w.handleOf j) = (s.q.pool, slotFromIndex w.pool.layout j) := by
      rw [← hS.pool]; exact hI.anamGet_handleOf sv hj
    have hpos := Nat.pos_iff_ne_zero.mp (hI.slot_fits hj).2
    have hr : qstep sv s.q s.mem (s.pc c) = ({ s.q with pool := s.q.pool }, s.mem,
        .popCopy out (w.handleOf i₀) (w.handleOf j) (slotFromIndex w.pool.layout j)) := by
      simp [hp, qstep, hg, hpos]
    exact hS.consumer_local sv hpc hr ⟨rfl, rfl, rfl, rfl, rfl, rfl, rfl⟩ hpop
      ⟨hcd, rfl, htl, j, rest', rfl, rfl, rfl⟩
  case popCopy out headH nextH next =>
    obtain ⟨hcd, rfl, htl, j, rest', rfl, rfl, rfl⟩ := hC
    refine hS.consumer_local sv hpc (by rw [hp]; try rfl) ?_ hpop ?_
    exacts [⟨rfl, rfl, rfl, rfl, rfl, rfl, rfl⟩, ⟨hcd, rfl, htl, j, rest', rfl, rfl⟩]
  all_goals exact hC.elim

end Consumer

/-! ## Whole schedules -/

section Run

variable {p c : Nat} {s : QSys} {L Pp : List (List UInt8)}

/-- Every scheduling decision the discipline allows keeps the invariant. -/
theorem Spsc.act (sv : Bool) (hpc : p ≠ c) (h : Spsc p c s L Pp) {e : QEvent}
    (he : e.Spsc p c) : Spsc p c (s.act sv e) (L ++ s.stepLinked e) (Pp ++ s.stepPopped e) := by
  obtain ⟨w, i₀, rest, t, items, pk, cd, hS⟩ := h
  cases e with
  | exec m =>
    rcases he with rfl | rfl
    · exact hS.exec_producer sv hpc
    · exact hS.exec_consumer sv hpc
  | call m cl =>
    simp only [QSys.stepLinked, QSys.stepPopped, List.append_nil, QSys.act]
    split
    · next hidle =>
      cases cl with
      | push d =>
        cases (he : m = p)
        have hP := hS.producer
        rw [hidle] at hP
        refine ⟨w, i₀, rest, t, items, pk, cd, hS.producer_moves hpc
          ⟨rfl, rfl, rfl, rfl, rfl, rfl, rfl⟩ rfl ?_ fun _ => hS.tail_last (by rw [hidle]; exact id)⟩
        simp only [QueueCall.entry]
        split <;> exact hP
      | pop out =>
        cases (he : m = c)
        have hC := hS.consumer
        rw [hidle] at hC
        exact ⟨w, i₀, rest, t, items, pk, cd, hS.consumer_moves hpc
          ⟨rfl, rfl, rfl, rfl, rfl, rfl, rfl⟩ rfl hC⟩
      | _ => exact he.elim
    · exact ⟨w, i₀, rest, t, items, pk, cd, hS⟩
  | ret m =>
    simp only [QSys.stepLinked, QSys.stepPopped, List.append_nil, QSys.act]
    split
    · next r hdone =>
      rcases he with rfl | rfl
      · have hP := hS.producer
        rw [hdone] at hP
        exact ⟨w, i₀, rest, t, items, pk, cd, hS.producer_moves hpc
          ⟨rfl, rfl, rfl, rfl, rfl, rfl, rfl⟩ rfl hP fun _ => hS.tail_last (by rw [hdone]; exact id)⟩
      · have hC := hS.consumer
        rw [hdone] at hC
        exact ⟨w, i₀, rest, t, items, pk, cd, hS.consumer_moves hpc
          ⟨rfl, rfl, rfl, rfl, rfl, rfl, rfl⟩ rfl hC⟩
    · exact ⟨w, i₀, rest, t, items, pk, cd, hS⟩

end Run

/-- The invariant along a whole schedule, with what it links and takes out. -/
theorem Spsc.run {p c : Nat} (sv : Bool) (hpc : p ≠ c) :
    ∀ (events : List QEvent) {s : QSys} {L Pp : List (List UInt8)},
      (∀ e ∈ events, e.Spsc p c) → Spsc p c s L Pp →
      Spsc p c (s.run sv events) (L ++ QSys.linked sv s events) (Pp ++ QSys.popped sv s events)
  | [], _, _, _, _, h => by simpa [QSys.run, QSys.linked, QSys.popped] using h
  | e :: es, s, _, _, he, h => by
    have := Spsc.run sv hpc es (fun e' h' => he e' (List.mem_cons_of_mem _ h'))
      (h.act sv hpc (he e (List.mem_cons_self _ _)))
    simpa [QSys.run, QSys.linked, QSys.popped, List.append_assoc] using this

theorem anamQueueCreate_capacity {sv : Bool} {cfg : AnamQueueConfig}
    {alignedAlloc : Nat → Nat → Option Nat} {q : AnamQueue}
    (h : anamQueueCreate sv (some cfg) alignedAlloc = some q) : q.capacity = cfg.capacity := by
  simp only [anamQueueCreate, Option.getD_some] at h
  split_ifs at h
  split at h
  · cases h
  · split_ifs at h
    rw [← Option.some.inj h]
    simp only [allocNode]
    split <;> rfl

/-- A queue fresh from `anam_queue_create`, every thread idle, nothing linked or taken out. -/
theorem Spsc.start {sv : Bool} {cfg : AnamQueueConfig} {alignedAlloc : Nat → Nat → Option Nat}
    {q₀ : AnamQueue} (h : anamQueueCreate sv (some cfg) alignedAlloc = some q₀)
    (hnode : 8 + cfg.itemSize + 7 < 2 ^ 64)
    (hw : LayoutNoWrap (queuePoolConfig cfg) q₀.pool.layout.memory)
    (hb : BufferBelow48 (queuePoolConfig cfg) q₀.pool.layout.memory) (p c : Nat)
    (mem : Nat → UInt8) : Spsc p c (QSys.start q₀ mem) [] [] := by
  obtain ⟨w, hA⟩ := QueueAt.create h hnode hw hb
  exact ⟨w, 0, [], 0, [], none, none, hA.inv, hA.pool, hA.chain, hA.nodup, hA.lt,
    fun i hi => (hA.live_iff i (hA.lt i hi)).mpr hi, hA.head, .inl hA.tail, rfl, hA.aba,
    by rw [hA.slotCount, ← anamQueueCreate_capacity h]; rfl, fun _ h => (by cases h),
    fun _ h => (by cases h), rfl, rfl, fun _ _ _ => rfl⟩

/-! ## What the consumer receives

`anam_queue_pop` copies the item of the node after the dummy into its output before it
compare-exchanges `q->head`, and nothing else writes client memory or that node's item in
between: the producer writes items only into the node it holds off the chain. -/

/-- At its compare-exchange on `q->head`, a consumer that passed a non-null output holds there
the bytes of the node after the dummy: the item that compare-exchange takes out. -/
def CopyOk (c : Nat) (s : QSys) : Prop :=
  ∀ out headH nextH, s.pc c = .popHeadCas out headH nextH → out ≠ 0 →
    readBytes s.mem out (s.q.data (decodeAddr nextH)).length = s.q.data (decodeAddr nextH)

theorem CopyOk.of_ne {c : Nat} {s : QSys}
    (h : ∀ out headH nextH, s.pc c ≠ .popHeadCas out headH nextH) : CopyOk c s :=
  fun out headH nextH hp => absurd hp (h out headH nextH)

/-- A step that keeps the consumer where it is, the client memory, and the item it reads. -/
theorem CopyOk.frame {c : Nat} {s s' : QSys} (h : CopyOk c s) (hpc : s'.pc c = s.pc c)
    (hmem : s'.mem = s.mem)
    (hdata : ∀ out headH nextH, s.pc c = .popHeadCas out headH nextH →
      s'.q.data (decodeAddr nextH) = s.q.data (decodeAddr nextH)) : CopyOk c s' := by
  intro out headH nextH hp hout
  rw [hpc] at hp
  rw [hmem, hdata out headH nextH hp]
  exact h out headH nextH hp hout

/-- Starting a call puts no thread at the compare-exchange on `q->head`. -/
theorem CopyOk.call {c : Nat} {s : QSys} (h : CopyOk c s) (sv : Bool) (m : Nat)
    (cl : QueueCall) : CopyOk c (s.act sv (.call m cl)) := by
  simp only [QSys.act]
  split
  · by_cases hm : m = c
    · subst hm
      refine CopyOk.of_ne fun out headH nextH => ?_
      simp only [Function.update_same]
      cases cl <;> simp only [QueueCall.entry] <;> (try split) <;> nofun
    · exact h.frame (Function.update_noteq (Ne.symm hm) _ _) rfl fun _ _ _ _ => rfl
  · exact h

/-- Returning leaves the thread idle. -/
theorem CopyOk.ret {c : Nat} {s : QSys} (h : CopyOk c s) (sv : Bool) (m : Nat) :
    CopyOk c (s.act sv (.ret m)) := by
  simp only [QSys.act]
  split
  · by_cases hm : m = c
    · subst hm
      exact CopyOk.of_ne fun _ _ _ => by simp
    · exact h.frame (Function.update_noteq (Ne.symm hm) _ _) rfl fun _ _ _ _ => rfl
  · exact h

section Copy

variable {p c : Nat} {s : QSys} {L Pp : List (List UInt8)} {w : World} {i₀ t : Nat}
  {rest : List Nat} {items : List (List UInt8)} {pk cd : Option Nat}
  (hS : SpscAt p c s L Pp w i₀ rest t items pk cd)
include hS

/-- The node the consumer's compare-exchange would take out lies after the dummy. -/
theorem SpscAt.popHeadCas_node {out headH nextH : Nat}
    (hp : s.pc c = .popHeadCas out headH nextH) :
    ∃ j ∈ rest, decodeAddr nextH = slotFromIndex w.pool.layout j := by
  have hC := hS.consumer
  rw [hp] at hC
  obtain ⟨-, -, -, j, rest', rfl, rfl⟩ := hC
  exact ⟨j, List.mem_cons_self _ _, hS.inv.decodeAddr_handleOf (hS.lt j (by simp))⟩

/-- The producer writes no client memory, and an item only into the node it holds. -/
theorem SpscAt.copyOk_producer (hpc : p ≠ c) (sv : Bool) (hC : CopyOk c s) :
    CopyOk c (s.act sv (.exec p)) := by
  have hP := hS.producer
  refine hC.frame (Function.update_noteq (Ne.symm hpc) _ _)
    (qstep_mem sv s.q s.mem fun out headH nextH next h => by rw [h] at hP; exact hP)
    fun out headH nextH hp => ?_
  obtain ⟨j, hj, hdec⟩ := hS.popHeadCas_node hp
  by_cases hcl : ∃ d newH node, s.pc p = .pushClearNext d newH node
  · obtain ⟨d, newH, node, hpp⟩ := hcl
    rw [hpp] at hP
    obtain ⟨k, rfl, -, rfl⟩ := hP
    obtain ⟨hk, -, hkc, -⟩ := hS.held_p k rfl
    have hjr : j ∈ i₀ :: rest := List.mem_cons_of_mem _ hj
    simp only [QSys.act, hpp, qstep, hdec]
    rw [Function.update_noteq (hS.slot_ne (hS.lt j hjr) hk fun e => hkc (e ▸ hjr))]
  · push_neg at hcl
    exact congrFun (qstep_data sv s.q s.mem hcl) _

/-- The consumer's `memcpy` puts the item into its output; no other step of it reaches the
compare-exchange on `q->head`. -/
theorem SpscAt.copyOk_consumer (sv : Bool) : CopyOk c (s.act sv (.exec c)) := by
  by_cases hcp : ∃ out headH nextH next, s.pc c = .popCopy out headH nextH next
  · obtain ⟨out, headH, nextH, next, hp⟩ := hcp
    have hCk := hS.consumer
    rw [hp] at hCk
    obtain ⟨-, -, -, j, rest', rfl, rfl, rfl⟩ := hCk
    intro out' headH' nextH' hp' hout
    simp only [QSys.act, Function.update_same, hp, qstep, QPc.popHeadCas.injEq] at hp' ⊢
    obtain ⟨rfl, rfl, rfl⟩ := hp'
    rw [if_pos hout, hS.inv.decodeAddr_handleOf (hS.lt j (by simp)), readBytes_writeBytes]
  · push_neg at hcp
    refine CopyOk.of_ne fun out headH nextH hp => ?_
    simp only [QSys.act, Function.update_same] at hp
    obtain ⟨next, hn⟩ := qstep_eq_popHeadCas hp
    exact hcp _ _ _ _ hn

end Copy

/-- The consumer's output along a whole schedule. -/
theorem Spsc.copyOk_run {p c : Nat} (sv : Bool) (hpc : p ≠ c) :
    ∀ (events : List QEvent) {s : QSys} {L Pp : List (List UInt8)},
      (∀ e ∈ events, e.Spsc p c) → Spsc p c s L Pp → CopyOk c s → CopyOk c (s.run sv events)
  | [], _, _, _, _, _, h => h
  | e :: es, s, _, _, he, hsp, h => by
    have hact : CopyOk c (s.act sv e) := by
      obtain ⟨w, i₀, rest, t, items, pk, cd, hS⟩ := hsp
      cases e with
      | exec m =>
        rcases he _ (List.mem_cons_self _ _) with rfl | rfl
        · exact hS.copyOk_producer hpc sv h
        · exact hS.copyOk_consumer sv
      | call m cl => exact h.call sv m cl
      | ret m => exact h.ret sv m
    exact Spsc.copyOk_run sv hpc es (fun e' h' => he e' (List.mem_cons_of_mem _ h'))
      (hsp.act sv hpc (he e (List.mem_cons_self _ _))) hact

/-! ## The queue is a FIFO -/

/-- The chain read through the queue's own fields: the items after slot `i`, while each
handle decodes to its slot. -/
theorem QChain.chainItems_next {q : AnamQueue} {layout : PoolLayout} {hd : Nat → Nat} {i t : Nat}
    {rest : List Nat} {items : List (List UInt8)} (h : QChain layout hd q.next q.data i rest items t)
    (hdec : ∀ j ∈ i :: rest, decodeAddr (hd j) = slotFromIndex layout j ∧ hd j ≠ anamNull)
    {fuel : Nat} (hf : rest.length < fuel) :
    chainItems q fuel (q.next (slotFromIndex layout i)) = items := by
  obtain ⟨f, rfl⟩ : ∃ f, fuel = f + 1 := ⟨fuel - 1, by omega⟩
  induction h generalizing f with
  | last hn => simp [chainItems, hn, anamIsNull]
  | @link i j t rest x items h1 h2 _ ih =>
    obtain ⟨hd1, hd2⟩ := hdec j (List.mem_cons_of_mem _ (List.mem_cons_self _ _))
    obtain ⟨g, rfl⟩ : ∃ g, f = g + 1 := ⟨f - 1, by simp at hf; omega⟩
    rw [h1, chainItems, if_neg (by simpa [anamIsNull] using hd2), hd1, h2,
      ih (fun k hk => hdec k (List.mem_cons_of_mem _ hk)) g (by simp at hf; omega)]

/-- In a state of the invariant, the items on the chain after the dummy are the ghost
items. -/
theorem SpscAt.queued {p c : Nat} {s : QSys} {L Pp : List (List UInt8)} {w : World}
    {i₀ t : Nat} {rest : List Nat} {items : List (List UInt8)} {pk cd : Option Nat}
    (hS : SpscAt p c s L Pp w i₀ rest t items pk cd) : s.q.queued = items := by
  rw [AnamQueue.queued, hS.head, hS.inv.decodeAddr_handleOf hS.i₀_lt]
  exact hS.chain.chainItems_next hS.handles hS.length_lt

/-- With one thread that only pushes and one that only pops, every interleaving of their
atomic steps keeps the queue a FIFO: the items taken out, in order, followed by the items on
the chain after the dummy, are the items linked in, in order. And whenever the consumer stands
at the compare-exchange that takes an item out, its output, if non-null, already holds that
item's bytes. -/
theorem spsc_queue_fifo {sv : Bool} {cfg : AnamQueueConfig}
    {alignedAlloc : Nat → Nat → Option Nat} {q₀ : AnamQueue}
    (h : anamQueueCreate sv (some cfg) alignedAlloc = some q₀)
    (hnode : 8 + cfg.itemSize + 7 < 2 ^ 64)
    (hw : LayoutNoWrap (queuePoolConfig cfg) q₀.pool.layout.memory)
    (hb : BufferBelow48 (queuePoolConfig cfg) q₀.pool.layout.memory) {p c : Nat} (hpc : p ≠ c)
    (mem : Nat → UInt8) (events : List QEvent) (he : ∀ e ∈ events, e.Spsc p c) :
    QSys.popped sv (QSys.start q₀ mem) events ++ ((QSys.start q₀ mem).run sv events).q.queued =
      QSys.linked sv (QSys.start q₀ mem) events ∧
    CopyOk c ((QSys.start q₀ mem).run sv events) := by
  have h₀ := Spsc.start h hnode hw hb p c mem
  obtain ⟨w, i₀, rest, t, items, pk, cd, hS⟩ := Spsc.run sv hpc events he h₀
  refine ⟨by rw [hS.queued]; simpa using hS.fifo, Spsc.copyOk_run sv hpc events he h₀ ?_⟩
  exact CopyOk.of_ne fun _ _ _ h => by cases h

/-! ## The shape of the queue -/

/-- Thread 1 pushes the item at address 100 while thread 2 pops into address 200. The push
links its node and stops before its tail swing; the pop finds `q->head` equal to the lagging
`q->tail` with a node after it, helps the tail forward, and on its second turn takes the item;
then the push swings the tail, to where it already is, and both return. -/
def spscRun : List QEvent :=
  [.call 1 (.push 100)] ++ List.replicate 8 (.exec 1) ++ [.call 2 (.pop 200)] ++
    List.replicate 17 (.exec 2) ++ List.replicate 4 (.exec 1) ++ [.ret 1, .ret 2]

theorem spsc_queue_fifo_helped :
    ∃ q₀, anamQueueCreate false (some ⟨8, 1, of_decide_eq_true rfl, of_decide_eq_true rfl⟩)
        (fun _ _ => some 4096) = some q₀ ∧
      QSys.popped false (QSys.start q₀ fun a => a.toUInt8) spscRun ++
          ((QSys.start q₀ fun a => a.toUInt8).run false spscRun).q.queued =
        QSys.linked false (QSys.start q₀ fun a => a.toUInt8) spscRun ∧
      ∃ s, (QSys.start q₀ fun a => a.toUInt8).run false (spscRun.take 23) = s ∧
        s.pc 2 = .popHeadCas 200 4113 4145 ∧
        readBytes s.mem 200 (s.q.data (decodeAddr 4145)).length = s.q.data (decodeAddr 4145) ∧
        s.q.data (decodeAddr 4145) = readBytes (fun a => a.toUInt8) 100 8 := by
  have hw : LayoutNoWrap (queuePoolConfig ⟨8, 1, of_decide_eq_true rfl, of_decide_eq_true rfl⟩)
      4096 := by
    refine ⟨?_, ?_, ?_, ?_, ?_⟩ <;> decide
  have hb : BufferBelow48 (queuePoolConfig ⟨8, 1, of_decide_eq_true rfl, of_decide_eq_true rfl⟩)
      4096 := by
    unfold BufferBelow48; decide
  have hfull := @spsc_queue_fifo false ⟨8, 1, of_decide_eq_true rfl, of_decide_eq_true rfl⟩
    (fun _ _ => some 4096) _ rfl (by decide) hw hb 1 2 (by decide) (fun a => a.toUInt8) spscRun
    (by decide)
  have hpre := @spsc_queue_fifo false ⟨8, 1, of_decide_eq_true rfl, of_decide_eq_true rfl⟩
    (fun _ _ => some 4096) _ rfl (by decide) hw hb 1 2 (by decide) (fun a => a.toUInt8)
    (spscRun.take 23) (by decide)
  exact ⟨_, rfl, hfull.1, _, rfl, by decide, hpre.2 200 4113 4145 (by decide) (by decide),
    by decide⟩

end Anamnesis

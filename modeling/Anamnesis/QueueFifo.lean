import Anamnesis.Queue

/-!
# The queue refines a bounded FIFO

The abstract queue is a list of items, oldest first, at most `capacity` long, and a count
of refused pushes. A single-threaded run of the queue, from `anam_queue_create`, computes
the same client memory and the same results as the abstract queue, call for call; every
retry loop leaves on its first turn, so `aba_prevented` stays 0.

The proof runs the queue's pool calls on the ghost world of `Anamnesis.FreeList`, so that
`PoolInv` says what `anam_alloc`, `anam_get` and `anam_release` answer. `QueueAt` ties a
queue state to a world and to the abstract items: the nodes from `q->head` are live slots
`i₀ :: rest`, the last one `t` is named by `q->tail`, each `next` field holds the current
handle of the following slot, the last one holds `ANAM_NULL`, and the items sit in the nodes
after the dummy, in order. The slots not in the chain are exactly the free ones, so
`anam_alloc` fails exactly when the queue holds `capacity` items.
-/

namespace Anamnesis

/-! ## The abstract queue -/

/-- The abstract queue: its items, oldest first, and the count of refused pushes. -/
structure Fifo where
  items : List (List UInt8)
  pushFails : Nat

/-- One call on the abstract queue, with the client memory. -/
def Fifo.call (itemSize capacity : Nat) (f : Fifo) (mem : Nat → UInt8) :
    QueueCall → Fifo × (Nat → UInt8) × QueueOut
  | .push d =>
    if f.items.length < capacity then
      ({ f with items := f.items ++ [readBytes mem d itemSize] }, mem, .flag true)
    else ({ f with pushFails := f.pushFails + 1 }, mem, .flag false)
  | .pop out =>
    match f.items with
    | [] => (f, mem, .flag false)
    | x :: rest => ({ f with items := rest }, if out ≠ 0 then writeBytes mem out x else mem,
        .flag true)
  | .peek out =>
    if out = 0 then (f, mem, .flag false)
    else match f.items with
      | [] => (f, mem, .flag false)
      | x :: _ => (f, writeBytes mem out x, .flag true)
  | .empty => (f, mem, .flag f.items.isEmpty)
  | .length => (f, mem, .count f.items.length)

/-- A sequence of calls on the abstract queue. -/
def Fifo.run (itemSize capacity : Nat) :
    Fifo → (Nat → UInt8) → List QueueCall → Fifo × (Nat → UInt8) × List QueueOut
  | f, mem, [] => (f, mem, [])
  | f, mem, c :: cs =>
    let r := Fifo.call itemSize capacity f mem c
    let s := Fifo.run itemSize capacity r.1 r.2.1 cs
    (s.1, s.2.1, r.2.2 :: s.2.2)

/-- What the abstract queue observes of a result: of a push, only whether the handle is
null. -/
def QueueOut.view : QueueOut → QueueOut
  | .handle h => .flag (h != anamNull)
  | o => o

/-- The calls the refinement speaks of: a push of a non-null pointer, and any pop, peek,
empty or length. -/
def QueueCall.Admissible : QueueCall → Prop
  | .push d => d ≠ 0
  | _ => True

instance : DecidablePred QueueCall.Admissible := fun c => by
  cases c <;> unfold QueueCall.Admissible <;> infer_instance

/-! ## The node chain -/

/-- The current handle of slot `i`. -/
def World.handleOf (w : World) (i : Nat) : Nat :=
  encodeHandle (w.releases i) (slotFromIndex w.pool.layout i) stateLive

/-- The chain of nodes from slot `i`: the slots after it, their items, and the last slot `t`.
Each `next` field holds the handle `hd` gives the following slot. -/
inductive QChain (layout : PoolLayout) (hd next : Nat → Nat) (data : Nat → List UInt8) :
    Nat → List Nat → List (List UInt8) → Nat → Prop
  | last {i : Nat} : next (slotFromIndex layout i) = anamNull →
      QChain layout hd next data i [] [] i
  | link {i j t : Nat} {rest : List Nat} {x : List UInt8} {items : List (List UInt8)} :
      next (slotFromIndex layout i) = hd j → data (slotFromIndex layout j) = x →
      QChain layout hd next data j rest items t →
      QChain layout hd next data i (j :: rest) (x :: items) t

section QChain

variable {layout : PoolLayout} {hd next : Nat → Nat} {data : Nat → List UInt8}

theorem QChain.last_mem {i t : Nat} {rest : List Nat} {items : List (List UInt8)}
    (h : QChain layout hd next data i rest items t) : t ∈ i :: rest := by
  induction h with
  | last => exact List.mem_cons_self _ _
  | link _ _ _ ih => exact List.mem_cons_of_mem _ ih

theorem QChain.nil_inv {i t : Nat} {items : List (List UInt8)}
    (h : QChain layout hd next data i [] items t) :
    t = i ∧ items = [] ∧ next (slotFromIndex layout i) = anamNull := by
  cases h with
  | last h => exact ⟨rfl, rfl, h⟩

theorem QChain.cons_inv {i j t : Nat} {rest : List Nat} {items : List (List UInt8)}
    (h : QChain layout hd next data i (j :: rest) items t) :
    ∃ x items', items = x :: items' ∧ next (slotFromIndex layout i) = hd j ∧
      data (slotFromIndex layout j) = x ∧ QChain layout hd next data j rest items' t := by
  cases h with
  | link h1 h2 h3 => exact ⟨_, _, rfl, h1, h2, h3⟩

/-- A chain reads only the handles of its later slots and the fields of its own nodes. -/
theorem QChain.congr {hd' next' : Nat → Nat} {data' : Nat → List UInt8} {i t : Nat}
    {rest : List Nat} {items : List (List UInt8)} (h : QChain layout hd next data i rest items t)
    (hh : ∀ j ∈ rest, hd' j = hd j)
    (hn : ∀ j ∈ i :: rest, next' (slotFromIndex layout j) = next (slotFromIndex layout j))
    (hdata : ∀ j ∈ rest, data' (slotFromIndex layout j) = data (slotFromIndex layout j)) :
    QChain layout hd' next' data' i rest items t := by
  induction h with
  | last h => exact .last ((hn _ (List.mem_cons_self _ _)).trans h)
  | @link i j t rest x items h1 h2 _ ih =>
    refine .link ?_ ?_ (ih (fun k hk => hh k (List.mem_cons_of_mem _ hk))
      (fun k hk => hn k (List.mem_cons_of_mem _ hk))
      (fun k hk => hdata k (List.mem_cons_of_mem _ hk)))
    · rw [hn _ (List.mem_cons_self _ _), h1, hh _ (List.mem_cons_self _ _)]
    · rw [hdata _ (List.mem_cons_self _ _), h2]

theorem QChain.next_last {i t : Nat} {rest : List Nat} {items : List (List UInt8)}
    (h : QChain layout hd next data i rest items t) : next (slotFromIndex layout t) = anamNull := by
  induction h with
  | last h => exact h
  | link _ _ _ ih => exact ih

theorem QChain.length_eq {i t : Nat} {rest : List Nat} {items : List (List UInt8)}
    (h : QChain layout hd next data i rest items t) : items.length = rest.length := by
  induction h with
  | last => rfl
  | link _ _ _ ih => simp [ih]

/-- Appending slot `k` after the last slot `t`, as `anam_queue_push` does: `k`'s `next` is
cleared and its item stored, then `t`'s `next` is pointed at `k`. -/
theorem QChain.snoc {i t k : Nat} {rest : List Nat} {items : List (List UInt8)}
    {x : List UInt8} (h : QChain layout hd next data i rest items t) (hnd : (i :: rest).Nodup)
    (hk : ∀ j ∈ i :: rest, slotFromIndex layout j ≠ slotFromIndex layout k)
    (hinj : ∀ a ∈ i :: rest, ∀ b ∈ i :: rest, a ≠ b →
      slotFromIndex layout a ≠ slotFromIndex layout b) :
    QChain layout hd
      (Function.update (Function.update next (slotFromIndex layout k) anamNull)
        (slotFromIndex layout t) (hd k))
      (Function.update data (slotFromIndex layout k) x) i (rest ++ [k]) (items ++ [x]) k := by
  induction h with
  | @last i _ =>
    have hik := hk i (List.mem_cons_self _ _)
    exact .link (by simp) (by simp) (.last (by simp [Ne.symm hik]))
  | @link i j t rest y items h1 h2 h3 ih =>
    have hit : i ≠ t := fun he => (List.nodup_cons.mp hnd).1 (he ▸ h3.last_mem)
    have hut := hinj i (List.mem_cons_self _ _) t (List.mem_cons_of_mem _ h3.last_mem) hit
    have hik := hk i (List.mem_cons_self _ _)
    have hjk := hk j (List.mem_cons_of_mem _ (List.mem_cons_self _ _))
    refine .link (by simp [hut, hik, h1]) (by simp [hjk, h2]) (ih (List.nodup_cons.mp hnd).2
      (fun a ha => hk a (List.mem_cons_of_mem _ ha))
      (fun a ha b hb => hinj a (List.mem_cons_of_mem _ ha) b (List.mem_cons_of_mem _ hb)))

end QChain

/-! ## The pool world under the queue's calls -/

section World

variable {w : World} (hI : PoolInv w)
include hI

theorem PoolInv.handleOf_ne_null {i : Nat} (hi : i < w.pool.layout.slotCount) :
    w.handleOf i ≠ anamNull :=
  encodeHandle_ne_null (hI.slot_fits hi).1 (hI.slot_fits hi).2 _ _

theorem PoolInv.handleOf_inj {i j : Nat} (hi : i < w.pool.layout.slotCount)
    (hj : j < w.pool.layout.slotCount) (h : w.handleOf i = w.handleOf j) : i = j :=
  slotFromIndex_inj hI.geom hi hj (encodeHandle_inj (hI.slot_fits hi).1 (hI.slot_fits hj).1 h).2.1

/-- The queue's `encode(decode_gen(h), decode_addr(h), LIVE)` gives back a current handle. -/
theorem PoolInv.relive_handleOf {i : Nat} (hi : i < w.pool.layout.slotCount) :
    relive (w.handleOf i) = w.handleOf i := by
  rw [relive, World.handleOf, decodeGen_encodeHandle,
    decodeAddr_encodeHandle_of_fits (hI.slot_fits hi).1, encodeHandle_mod]

theorem PoolInv.anamGet_handleOf (sv : Bool) {i : Nat} (hi : i < w.pool.layout.slotCount) :
    anamGet sv w.pool (w.handleOf i) = (w.pool, slotFromIndex w.pool.layout i) :=
  hI.anamGet_live sv hi

end World

theorem World.alloc_of_cons {w : World} {k : Nat} {fr : List Nat} (hf : w.free = k :: fr) :
    w.alloc.pool = (anamAlloc w.pool).1 ∧ w.alloc.free = fr ∧
      w.alloc.live = Function.update w.live k true ∧ w.alloc.releases = w.releases := by
  simp [World.alloc, hf]

/-- An allocation leaves every slot's current handle as it was. -/
theorem World.alloc_handleOf (w : World) : w.alloc.handleOf = w.handleOf := by
  funext i
  have hL := World.act_layout false w .alloc
  unfold World.handleOf at *
  rw [show w.alloc.releases = w.releases by unfold World.alloc; split <;> rfl]
  rw [World.act] at hL; rw [hL]

section Alloc

variable {w : World} (hI : PoolInv w)
include hI

/-- `anam_alloc` hands out the current handle of the top free slot. -/
theorem PoolInv.anamAlloc_handleOf {k : Nat} {fr : List Nat} (hf : w.free = k :: fr) :
    anamAlloc w.pool = (w.alloc.pool, w.handleOf k) := by
  rw [(World.alloc_of_cons hf).1, hI.anamAlloc_cons hf]; rfl

/-- After an allocation, `anam_get` still accepts every slot's current handle. -/
theorem PoolInv.anamGet_alloc (sv : Bool) {i : Nat} (hi : i < w.pool.layout.slotCount) :
    anamGet sv w.alloc.pool (w.handleOf i) = (w.alloc.pool, slotFromIndex w.pool.layout i) := by
  have hL := World.act_layout sv w .alloc
  rw [World.act] at hL
  have := (hI.act sv (c := .alloc) trivial).anamGet_handleOf sv (i := i) (by rwa [World.act, hL])
  rwa [World.act, World.alloc_handleOf, hL] at this

end Alloc

theorem World.release_of_genuine {w : World} {sv : Bool} {h p i : Nat}
    (hv : authenticate sv w.pool h = .genuine p) (hi : slotIndex w.pool.layout (decodeAddr h) = i) :
    (w.release sv h).pool = pushFree w.pool p ∧ (w.release sv h).free = i :: w.free ∧
      (w.release sv h).live = Function.update w.live i false ∧
      (w.release sv h).releases = Function.update w.releases i (w.releases i + 1) := by
  simp [World.release, anamRelease_of_genuine hv, hi]

/-! ## The queue over the world -/

/-- A queue state over the pool world `w` and the abstract queue `f`: the nodes from
`q->head` are the live slots `i₀ :: rest`, ending at `t`. -/
structure QueueAt (sv : Bool) (cfg : AnamQueueConfig) (q : AnamQueue) (f : Fifo) (w : World)
    (i₀ : Nat) (rest : List Nat) (t : Nat) : Prop where
  inv : PoolInv w
  pool : w.pool = q.pool
  chain : QChain w.pool.layout w.handleOf q.next q.data i₀ rest f.items t
  nodup : (i₀ :: rest).Nodup
  lt : ∀ i ∈ i₀ :: rest, i < w.pool.layout.slotCount
  /-- The live slots are the nodes. -/
  live_iff : ∀ i < w.pool.layout.slotCount, w.live i = true ↔ i ∈ i₀ :: rest
  head : q.head = w.handleOf i₀
  tail : q.tail = w.handleOf t
  /-- Every slot is free or a node: one dummy and one node per item. -/
  count : w.free.length + f.items.length + 1 = w.pool.layout.slotCount
  slotCount : w.pool.layout.slotCount = cfg.capacity + 1
  itemSize : q.itemSize = cfg.itemSize
  /-- A node's `next` word and item lie inside its slot, so that the nodes' items, kept apart
  in `q.data`, are disjoint in memory. -/
  itemFits : 8 + cfg.itemSize ≤ w.pool.layout.slotSize
  length : q.length = f.items.length
  pushFails : q.pushFails = f.pushFails % 2 ^ 64
  aba : q.abaPrevented = 0

/-- One call, matched against the abstract queue: it returns, with the abstract queue's
memory and result, and the states correspond again. -/
def QueueStep (sv : Bool) (cfg : AnamQueueConfig) (fuel : Nat) (q : AnamQueue) (f : Fifo)
    (mem : Nat → UInt8) (c : QueueCall) : Prop :=
  ∃ q' mem' o, anamQueueCall sv fuel q mem c = some (q', mem', o) ∧
    (Fifo.call cfg.itemSize cfg.capacity f mem c).2.1 = mem' ∧
    (Fifo.call cfg.itemSize cfg.capacity f mem c).2.2 = o.view ∧
    ∃ w i₀ rest t,
      QueueAt sv cfg q' (Fifo.call cfg.itemSize cfg.capacity f mem c).1 w i₀ rest t

theorem Fifo.call_peek_fst (itemSize capacity : Nat) (f : Fifo) (mem : Nat → UInt8) (out : Nat) :
    (Fifo.call itemSize capacity f mem (.peek out)).1 = f := by
  simp only [Fifo.call]; split_ifs
  · rfl
  · split <;> rfl

section Steps

variable {sv : Bool} {cfg : AnamQueueConfig} {q : AnamQueue} {f : Fifo} {w : World} {i₀ t : Nat}
  {rest : List Nat} (hA : QueueAt sv cfg q f w i₀ rest t)
include hA

theorem QueueAt.i₀_lt : i₀ < w.pool.layout.slotCount := hA.lt i₀ (List.mem_cons_self _ _)

theorem QueueAt.t_lt : t < w.pool.layout.slotCount := hA.lt t hA.chain.last_mem

/-- The dummy node authenticates, and `anam_get` leaves the pool alone. -/
theorem QueueAt.get_head :
    anamGet sv q.pool q.head = (q.pool, slotFromIndex w.pool.layout i₀) := by
  rw [hA.head, ← hA.pool, hA.inv.anamGet_handleOf sv hA.i₀_lt]

theorem QueueAt.step_length (fuel : Nat) (mem : Nat → UInt8) :
    QueueStep sv cfg fuel q f mem .length :=
  ⟨q, mem, .count q.length, rfl, rfl, by simp [Fifo.call, QueueOut.view, hA.length],
    w, i₀, rest, t, hA⟩

theorem QueueAt.step_empty (fuel : Nat) (mem : Nat → UInt8) :
    QueueStep sv cfg fuel q f mem .empty := by
  have hpos := (hA.inv.slot_fits hA.i₀_lt).2
  refine ⟨q, mem, .flag (anamIsNull (q.next (slotFromIndex w.pool.layout i₀))), ?_, rfl, ?_,
    w, i₀, rest, t, hA⟩
  · simp [anamQueueCall, anamQueueEmpty, hA.get_head, Nat.pos_iff_ne_zero.mp hpos]
  · cases rest with
    | nil =>
      simp [Fifo.call, QueueOut.view, (hA.chain.nil_inv).2.1, (hA.chain.nil_inv).2.2, anamNull]
    | cons j rest =>
      obtain ⟨x, items, he, hn, -⟩ := hA.chain.cons_inv
      have hj := hA.lt j (List.mem_cons_of_mem _ (List.mem_cons_self _ _))
      have hne : w.handleOf j ≠ 0 := hA.inv.handleOf_ne_null hj
      simp [Fifo.call, QueueOut.view, he, hn, anamIsNull, anamNull, hne]

theorem QueueAt.step_peek (fuel : Nat) (mem : Nat → UInt8) (out : Nat) :
    QueueStep sv cfg fuel q f mem (.peek out) := by
  have hpos := (hA.inv.slot_fits hA.i₀_lt).2
  rw [QueueStep, Fifo.call_peek_fst]
  by_cases hout : out = 0
  · exact ⟨q, mem, .flag false, by simp [anamQueueCall, anamQueuePeek, hout],
      by simp [Fifo.call, hout], by simp [Fifo.call, hout, QueueOut.view], w, i₀, rest, t, hA⟩
  cases rest with
  | nil =>
    obtain ⟨-, hi, hn⟩ := hA.chain.nil_inv
    refine ⟨q, mem, .flag false, ?_, by simp [Fifo.call, hi],
      by simp [Fifo.call, hi, QueueOut.view], w, i₀, [], t, hA⟩
    simp [anamQueueCall, anamQueuePeek, hout, hA.get_head, Nat.pos_iff_ne_zero.mp hpos,
      hn, anamNull]
  | cons j rest =>
    obtain ⟨x, items, he, hn, hx, -⟩ := hA.chain.cons_inv
    have hj := hA.lt j (List.mem_cons_of_mem _ (List.mem_cons_self _ _))
    have hne : w.handleOf j ≠ 0 := hA.inv.handleOf_ne_null hj
    have hposj := (hA.inv.slot_fits hj).2
    have hgj : anamGet sv q.pool (w.handleOf j) = (q.pool, slotFromIndex w.pool.layout j) := by
      rw [← hA.pool, hA.inv.anamGet_handleOf sv hj]
    refine ⟨q, writeBytes mem out x, .flag true, ?_, by simp [Fifo.call, he, hout],
      by simp [Fifo.call, he, hout, QueueOut.view], w, i₀, j :: rest, t, hA⟩
    simp [anamQueueCall, anamQueuePeek, hout, hA.get_head, Nat.pos_iff_ne_zero.mp hpos,
      hn, anamIsNull, anamNull, hne, hgj, Nat.pos_iff_ne_zero.mp hposj, hx]

/-- The dummy's handle is on record, current, and within the horizon: `anam_release` may be
called with it. -/
theorem QueueAt.head_admissible : (Call.release (w.handleOf i₀)).Admissible w := by
  have hl : w.live i₀ = true := (hA.live_iff i₀ hA.i₀_lt).mpr (List.mem_cons_self _ _)
  refine .inr ⟨i₀, w.releases i₀, ?_, by omega⟩
  have := hA.inv.live_issued i₀ hl
  rwa [hA.inv.current i₀ hl] at this

theorem QueueAt.step_pop (fuel : Nat) (mem : Nat → UInt8) (out : Nat) :
    QueueStep sv cfg (fuel + 1) q f mem (.pop out) := by
  have hI := hA.inv
  have hpos := (hI.slot_fits hA.i₀_lt).2
  cases rest with
  | nil =>
    obtain ⟨rfl, hi, hn⟩ := hA.chain.nil_inv
    have hht : (q.head = q.tail) = True := by rw [hA.head, hA.tail]; simp
    refine ⟨{ q with popFails := sizeAdd q.popFails 1 }, mem, .flag false, ?_,
      by simp [Fifo.call, hi], by simp [Fifo.call, hi, QueueOut.view], w, t, [], t, ?_⟩
    · simp [anamQueueCall, popLoop, hA.get_head, Nat.pos_iff_ne_zero.mp hpos, hn, anamNull, hht]
    · simpa [Fifo.call, hi] using { hA with }
  | cons j rest =>
    obtain ⟨x, items, he, hn, hx, hch⟩ := hA.chain.cons_inv
    obtain ⟨hi₀, hnd⟩ := List.nodup_cons.mp hA.nodup
    have hj := hA.lt j (List.mem_cons_of_mem _ (List.mem_cons_self _ _))
    have hne : w.handleOf j ≠ 0 := hI.handleOf_ne_null hj
    have hposj := (hI.slot_fits hj).2
    have hgj : anamGet sv q.pool (w.handleOf j) = (q.pool, slotFromIndex w.pool.layout j) := by
      rw [← hA.pool, hI.anamGet_handleOf sv hj]
    have hht : (q.head = q.tail) = False := by
      rw [hA.head, hA.tail]
      exact eq_false fun he => hi₀ (hI.handleOf_inj hA.i₀_lt hA.t_lt he ▸ hch.last_mem)
    have hv : authenticate sv w.pool (w.handleOf i₀) =
        .genuine (slotFromIndex w.pool.layout i₀) :=
      hI.authenticate_live sv hA.i₀_lt
    have hidx : slotIndex w.pool.layout (decodeAddr (w.handleOf i₀)) = i₀ := by
      rw [World.handleOf, decodeAddr_encodeHandle_of_fits (hI.slot_fits hA.i₀_lt).1,
        slotIndex_slotFromIndex hI.geom hA.i₀_lt]
    obtain ⟨hp₂, hf₂, hl₂, hr₂⟩ := World.release_of_genuine hv hidx
    have hI₂ : PoolInv (w.release sv (w.handleOf i₀)) := hI.act sv hA.head_admissible
    have hL₂ : (w.release sv (w.handleOf i₀)).pool.layout = w.pool.layout :=
      World.act_layout sv w (.release _)
    have hh₂ : ∀ k, k ≠ i₀ →
        (w.release sv (w.handleOf i₀)).handleOf k = w.handleOf k := by
      intro k hk
      show encodeHandle ((w.release sv (w.handleOf i₀)).releases k)
        (slotFromIndex (w.release sv (w.handleOf i₀)).pool.layout k) stateLive = w.handleOf k
      rw [hr₂, hL₂, Function.update_noteq hk]; rfl
    have hlen : items.length + 1 < 2 ^ 64 := by
      have := hA.count; have := hI.slotCount_lt; rw [he] at *; simp at *; omega
    refine ⟨{ q with
        head := relive (w.handleOf j)
        pool := pushFree q.pool (slotFromIndex w.pool.layout i₀)
        length := sizeSub q.length 1
        popCount := sizeAdd q.popCount 1 }, if out ≠ 0 then writeBytes mem out x else mem,
      .flag true, ?_, by simp [Fifo.call, he], by simp [Fifo.call, he, QueueOut.view],
      w.release sv (w.handleOf i₀), j, rest, t, ?_⟩
    · have hr : anamRelease sv q.pool q.head =
          (pushFree q.pool (slotFromIndex w.pool.layout i₀), true) := by
        rw [hA.head, ← hA.pool]; exact anamRelease_of_genuine hv
      simp [anamQueueCall, popLoop, hA.get_head, Nat.pos_iff_ne_zero.mp hpos, hn, anamIsNull,
        anamNull, hne, hgj, Nat.pos_iff_ne_zero.mp hposj, hx, hht, hr]
    · simp only [Fifo.call, he]
      refine ⟨hI₂, by rw [hp₂, hA.pool], ?_, hnd, ?_, ?_, ?_, ?_, ?_,
        by rw [hL₂]; exact hA.slotCount, hA.itemSize, by rw [hL₂]; exact hA.itemFits, ?_,
        hA.pushFails, hA.aba⟩
      · rw [hL₂]
        exact hch.congr (fun k hk => hh₂ k (fun e => hi₀ (e ▸ List.mem_cons_of_mem _ hk)))
          (fun _ _ => rfl) (fun _ _ => rfl)
      · rw [hL₂]; exact fun k hk => hA.lt k (List.mem_cons_of_mem _ hk)
      · rw [hL₂]
        intro k hk
        by_cases hki : k = i₀
        · subst hki; simp [hl₂, hi₀]
        · simpa [hl₂, Function.update_noteq hki, hki] using hA.live_iff k hk
      · rw [hh₂ j (fun e => hi₀ (e ▸ List.mem_cons_self _ _))]; exact hI.relive_handleOf hj
      · rw [hh₂ t (fun e => hi₀ (e ▸ hch.last_mem)), hA.tail]
      · have := hA.count; rw [he] at this; rw [hf₂, hL₂]; simp at this ⊢; omega
      · show sizeSub q.length 1 = items.length
        rw [hA.length, he, sizeSub]; simp; omega

theorem QueueAt.step_push (fuel : Nat) (mem : Nat → UInt8) {d : Nat} (hd : d ≠ 0) :
    QueueStep sv cfg (fuel + 1) q f mem (.push d) := by
  have hI := hA.inv
  have hc := hA.count
  have hsl := hI.slotCount_lt
  cases hf : w.free with
  | nil =>
    have ha : anamAlloc q.pool = (q.pool, anamNull) := by rw [← hA.pool, hI.anamAlloc_nil hf]
    have hfull : ¬f.items.length < cfg.capacity := by
      rw [hf, hA.slotCount] at hc; simp at hc; omega
    have hspec : Fifo.call cfg.itemSize cfg.capacity f mem (.push d) =
        ({ f with pushFails := f.pushFails + 1 }, mem, .flag false) := by simp [Fifo.call, hfull]
    rw [QueueStep, hspec]
    refine ⟨{ q with pushFails := sizeAdd q.pushFails 1 }, mem, .handle anamNull, ?_, rfl,
      by simp [QueueOut.view], w, i₀, rest, t, { hA with pushFails := ?_ }⟩
    · simp [anamQueueCall, anamQueuePush, hd, allocNode, ha, anamNull]
    · show sizeAdd q.pushFails 1 = (f.pushFails + 1) % 2 ^ 64
      rw [hA.pushFails, sizeAdd]; omega
  | cons k fr =>
    have hmem : k ∈ w.free := hf ▸ List.mem_cons_self _ _
    have hk := hI.free_lt k hmem
    have hlk : w.live k = false := (hI.free_iff k hk).mp hmem
    have hkn : k ∉ i₀ :: rest := fun h => by simpa [hlk] using (hA.live_iff k hk).mpr h
    have hroom : f.items.length < cfg.capacity := by
      rw [hf, hA.slotCount] at hc; simp at hc; omega
    have hspec : Fifo.call cfg.itemSize cfg.capacity f mem (.push d) =
        ({ f with items := f.items ++ [readBytes mem d cfg.itemSize] }, mem, .flag true) := by
      simp [Fifo.call, hroom]
    obtain ⟨-, hf₁, hl₁, -⟩ := World.alloc_of_cons hf
    have hL₁ : w.alloc.pool.layout = w.pool.layout := World.act_layout sv w .alloc
    have hne : ∀ j ∈ i₀ :: rest,
        slotFromIndex w.pool.layout j ≠ slotFromIndex w.pool.layout k :=
      fun j hj e => hkn (slotFromIndex_inj hI.geom (hA.lt j hj) hk e ▸ hj)
    have ha : anamAlloc q.pool = (w.alloc.pool, w.handleOf k) := by
      rw [← hA.pool]; exact hI.anamAlloc_handleOf hf
    have hgt : anamGet sv w.alloc.pool q.tail = (w.alloc.pool, slotFromIndex w.pool.layout t) := by
      rw [hA.tail]; exact hI.anamGet_alloc sv hA.t_lt
    have hnk : w.handleOf k ≠ 0 := hI.handleOf_ne_null hk
    rw [QueueStep, hspec]
    refine ⟨{ q with
        pool := w.alloc.pool
        next := Function.update (Function.update q.next (slotFromIndex w.pool.layout k) anamNull)
          (slotFromIndex w.pool.layout t) (w.handleOf k)
        data := Function.update q.data (slotFromIndex w.pool.layout k)
          (readBytes mem d q.itemSize)
        tail := w.handleOf k
        length := sizeAdd q.length 1
        pushCount := sizeAdd q.pushCount 1 }, mem, .handle (w.handleOf k), ?_, rfl,
      by simp [QueueOut.view, hnk, anamNull], w.alloc, i₀, rest ++ [k], k, ?_⟩
    · simp [anamQueueCall, anamQueuePush, hd, allocNode, ha, anamIsNull, anamNull, hnk,
        hI.anamGet_alloc sv hk, pushLink, hgt, (hI.slot_fits hA.t_lt).2.ne',
        Function.update_noteq (hne t hA.chain.last_mem), hA.chain.next_last, hI.relive_handleOf hk]
    · have hlen : f.items.length + 1 < 2 ^ 64 := by rw [hf] at hc; simp at hc; omega
      refine ⟨hI.act sv (c := .alloc) trivial, rfl, ?_, ?_, ?_, ?_,
        by rw [World.alloc_handleOf]; exact hA.head, by rw [World.alloc_handleOf], ?_,
        by rw [hL₁]; exact hA.slotCount, hA.itemSize, by rw [hL₁]; exact hA.itemFits, ?_,
        hA.pushFails, hA.aba⟩
      · rw [hL₁, World.alloc_handleOf, hA.itemSize]
        exact hA.chain.snoc hA.nodup hne fun a ha b hb hab =>
          fun e => hab (slotFromIndex_inj hI.geom (hA.lt a ha) (hA.lt b hb) e)
      · rw [← List.cons_append]
        exact List.pairwise_append.mpr ⟨hA.nodup, List.pairwise_singleton _ _, fun a ha b hb => by
          rw [List.mem_singleton.mp hb]; exact fun e => hkn (e ▸ ha)⟩
      · rw [hL₁, ← List.cons_append]
        intro i hi
        rcases List.mem_append.mp hi with h | h
        · exact hA.lt i h
        · rw [List.mem_singleton.mp h]; exact hk
      · rw [hL₁, hl₁, ← List.cons_append]
        intro i hi
        by_cases hik : i = k
        · subst hik; simp
        · simpa [Function.update_noteq hik, hik] using hA.live_iff i hi
      · rw [hf₁, hL₁, ← hc, hf]; simp; omega
      · show sizeAdd q.length 1 = _
        rw [hA.length, sizeAdd]; simp; omega

end Steps

/-- A queue fresh from `anam_queue_create` holds one dummy node, slot 0, and no item. -/
theorem QueueAt.create {sv : Bool} {cfg : AnamQueueConfig}
    {alignedAlloc : Nat → Nat → Option Nat}
    {q₀ : AnamQueue} (h : anamQueueCreate sv (some cfg) alignedAlloc = some q₀)
    (hnode : 8 + cfg.itemSize + 7 < 2 ^ 64)
    (hw : LayoutNoWrap (queuePoolConfig cfg) q₀.pool.layout.memory)
    (hb : BufferBelow48 (queuePoolConfig cfg) q₀.pool.layout.memory) :
    ∃ w, QueueAt sv cfg q₀ ⟨[], 0⟩ w 0 [] 0 := by
  simp only [anamQueueCreate, Option.getD_some] at h
  split_ifs at h with h0
  cases hp : anamPoolCreate (some (queuePoolConfig cfg)) alignedAlloc with
  | none => simp [hp] at h
  | some pool =>
    simp only [hp] at h
    split_ifs at h
    have hq := Option.some.inj h
    have hL : q₀.pool.layout = pool.layout := by rw [← hq]; exact allocNode_layout _ _ _
    rw [hL] at hw hb
    have hI₀ : PoolInv (World.init pool) := PoolInv.init hp hw hb
    have hsc : pool.layout.slotCount = sizeAdd cfg.capacity 1 := by
      rw [anamPoolCreate_layout hp]; rfl
    have hn : 0 < pool.layout.slotCount := by
      rw [anamPoolCreate_layout hp]; exact (anamPoolCreate_eq_some hp).2.1
    obtain ⟨m, hm⟩ : ∃ m, pool.layout.slotCount = m + 1 :=
      ⟨_, (Nat.succ_pred_eq_of_pos hn).symm⟩
    have hfree : (World.init pool).free = 0 :: (List.range m).map Nat.succ := by
      simp only [World.init, hm, List.range_succ_eq_map]
    have ha : anamAlloc pool = ((World.init pool).alloc.pool, (World.init pool).handleOf 0) :=
      hI₀.anamAlloc_handleOf hfree
    have hg : anamGet sv (World.init pool).alloc.pool ((World.init pool).handleOf 0) =
        ((World.init pool).alloc.pool, slotFromIndex pool.layout 0) := hI₀.anamGet_alloc sv hn
    have hnz : (World.init pool).handleOf 0 ≠ 0 := hI₀.handleOf_ne_null hn
    simp [allocNode, ha, hg, anamIsNull, anamNull, hnz] at hq
    subst hq
    obtain ⟨-, hf₁, hl₁, -⟩ := World.alloc_of_cons hfree
    have hL₁ : (World.init pool).alloc.pool.layout = pool.layout := World.act_layout sv _ .alloc
    refine ⟨(World.init pool).alloc, hI₀.act sv (c := .alloc) trivial, rfl,
      .last (by simp [anamNull]), List.pairwise_singleton _ _, by simp [hL₁, hn], ?_,
      by rw [World.alloc_handleOf], by rw [World.alloc_handleOf], by simp [hf₁, hL₁, hm], ?_,
      rfl,
      by rw [hL₁, anamPoolCreate_layout hp]; exact queueNodeSize_fits hnode, rfl, rfl, rfl⟩
    · rw [hL₁, hl₁]
      intro i _
      by_cases hi : i = 0
      · subst hi; simp
      · simp [hi, World.init]
    · have := cfg.capacity_lt
      rw [hsc, sizeAdd] at hn; rw [hL₁, hsc, sizeAdd]; omega


/-! ## Whole runs -/

/-- Every admissible call keeps the correspondence, and its retry loop leaves on the first
turn. -/
theorem QueueAt.step {sv : Bool} {cfg : AnamQueueConfig} {q : AnamQueue} {f : Fifo} {w : World}
    {i₀ t : Nat} {rest : List Nat} (hA : QueueAt sv cfg q f w i₀ rest t) (fuel : Nat)
    (mem : Nat → UInt8) {c : QueueCall} (hc : c.Admissible) :
    QueueStep sv cfg (fuel + 1) q f mem c := by
  cases c with
  | push d => exact hA.step_push fuel mem hc
  | pop out => exact hA.step_pop fuel mem out
  | peek out => exact hA.step_peek _ mem out
  | empty => exact hA.step_empty _ mem
  | length => exact hA.step_length _ mem

theorem QueueAt.run {sv : Bool} {cfg : AnamQueueConfig} (fuel : Nat) (cs : List QueueCall)
    (hcs : ∀ c ∈ cs, c.Admissible) {q : AnamQueue} {f : Fifo} {w : World} {i₀ t : Nat}
    {rest : List Nat} (hA : QueueAt sv cfg q f w i₀ rest t) (mem : Nat → UInt8) :
    ∃ q' outs, anamQueueRun sv (fuel + 1) q mem cs =
        some (q', (Fifo.run cfg.itemSize cfg.capacity f mem cs).2.1, outs) ∧
      outs.map QueueOut.view = (Fifo.run cfg.itemSize cfg.capacity f mem cs).2.2 ∧
      ∃ w i₀ rest t,
        QueueAt sv cfg q' (Fifo.run cfg.itemSize cfg.capacity f mem cs).1 w i₀ rest t := by
  induction cs generalizing q f w i₀ rest t mem with
  | nil => exact ⟨q, [], rfl, rfl, w, i₀, rest, t, hA⟩
  | cons c cs ih =>
    obtain ⟨q₁, mem₁, o, hcall, hmem, hout, w₁, i₁, r₁, t₁, hA₁⟩ :=
      hA.step fuel mem (hcs c (List.mem_cons_self _ _))
    obtain ⟨q', outs, hrun, hview, hA'⟩ :=
      ih (fun c hc => hcs c (List.mem_cons_of_mem _ hc)) hA₁ mem₁
    simp only [Fifo.run]
    rw [hmem]
    exact ⟨q', o :: outs, by simp [anamQueueRun, hcall, hrun], by simp [hview, hout], hA'⟩

/-- A single-threaded run from `anam_queue_create` computes what the bounded FIFO computes:
the same client memory, the same results (of a push, whether its handle is null), `length`
the number of items and `push_fails` the refused pushes; every retry loop leaves on its first
turn. `hnode` says that the node size `sizeof(QueueNode) + item_size + 7` does not wrap. -/
theorem queue_refines_fifo {sv : Bool} {cfg : AnamQueueConfig}
    {alignedAlloc : Nat → Nat → Option Nat} {q₀ : AnamQueue}
    (h : anamQueueCreate sv (some cfg) alignedAlloc = some q₀)
    (hnode : 8 + cfg.itemSize + 7 < 2 ^ 64)
    (hw : LayoutNoWrap (queuePoolConfig cfg) q₀.pool.layout.memory)
    (hb : BufferBelow48 (queuePoolConfig cfg) q₀.pool.layout.memory)
    (fuel : Nat) (mem : Nat → UInt8) (cs : List QueueCall) (hcs : ∀ c ∈ cs, c.Admissible) :
    ∃ q outs, anamQueueRun sv (fuel + 1) q₀ mem cs =
        some (q, (Fifo.run cfg.itemSize cfg.capacity ⟨[], 0⟩ mem cs).2.1, outs) ∧
      outs.map QueueOut.view = (Fifo.run cfg.itemSize cfg.capacity ⟨[], 0⟩ mem cs).2.2 ∧
      q.length = (Fifo.run cfg.itemSize cfg.capacity ⟨[], 0⟩ mem cs).1.items.length ∧
      q.pushFails = (Fifo.run cfg.itemSize cfg.capacity ⟨[], 0⟩ mem cs).1.pushFails % 2 ^ 64 ∧
      q.abaPrevented = 0 := by
  obtain ⟨w, hA⟩ := QueueAt.create h hnode hw hb
  obtain ⟨q, outs, hrun, hview, _, _, _, _, hA₁⟩ := hA.run fuel cs hcs mem
  exact ⟨q, outs, hrun, hview, hA₁.length, hA₁.pushFails, hA₁.aba⟩

theorem queue_refines_fifo_one_slot :
    ∃ q₀, anamQueueCreate false (some ⟨8, 1, of_decide_eq_true rfl, of_decide_eq_true rfl⟩)
        (fun _ _ => some 4096) = some q₀ ∧
      ∃ q outs, anamQueueRun false 1 q₀ (fun _ => 7)
        [.push 100, .peek 0, .peek 200, .push 100, .pop 200, .pop 200, .length] =
        some (q, (Fifo.run 8 1 ⟨[], 0⟩ (fun _ => 7)
        [.push 100, .peek 0, .peek 200, .push 100, .pop 200, .pop 200, .length]).2.1, outs) ∧
      outs.map QueueOut.view = (Fifo.run 8 1 ⟨[], 0⟩ (fun _ => 7)
        [.push 100, .peek 0, .peek 200, .push 100, .pop 200, .pop 200, .length]).2.2 ∧
      q.length = (Fifo.run 8 1 ⟨[], 0⟩ (fun _ => 7)
        [.push 100, .peek 0, .peek 200, .push 100, .pop 200, .pop 200, .length]).1.items.length ∧
      q.pushFails = (Fifo.run 8 1 ⟨[], 0⟩ (fun _ => 7)
        [.push 100, .peek 0, .peek 200, .push 100, .pop 200, .pop 200, .length]).1.pushFails %
          2 ^ 64 ∧
      q.abaPrevented = 0 :=
  ⟨_, rfl, @queue_refines_fifo false ⟨8, 1, of_decide_eq_true rfl, of_decide_eq_true rfl⟩
    (fun _ _ => some 4096) _ rfl (by decide) (by refine ⟨?_, ?_, ?_, ?_, ?_⟩ <;> decide)
    (by unfold BufferBelow48; decide) 0 _ _ (by decide)⟩

/-! ## Destroying the queue -/

/-- The drain loop of `anam_queue_destroy` takes every item out, one call of `anam_queue_pop`
per item and one more that finds the queue empty, each leaving its retry loop on the first
turn. -/
theorem QueueAt.drain {sv : Bool} {cfg : AnamQueueConfig} (fuel : Nat) (mem : Nat → UInt8) :
    ∀ (turns : Nat) {q : AnamQueue} {f : Fifo} {w : World} {i₀ t : Nat} {rest : List Nat},
      QueueAt sv cfg q f w i₀ rest t → f.items.length < turns →
      ∃ q' w' i₀' t', queueDrain sv (fuel + 1) mem turns q = some q' ∧
        QueueAt sv cfg q' { f with items := [] } w' i₀' [] t'
  | 0, _, _, _, _, _, _, _, hn => absurd hn (Nat.not_lt_zero _)
  | turns + 1, q, f, w, i₀, t, rest, hA, hn => by
    obtain ⟨q₁, mem₁, o, hcall, -, hout, w₁, i₁, r₁, t₁, hA₁⟩ := hA.step_pop fuel mem 0
    simp only [anamQueueCall, Option.map_eq_some', Prod.mk.injEq] at hcall
    obtain ⟨⟨q₁', mem₁', b⟩, hpop, rfl, rfl, rfl⟩ := hcall
    obtain ⟨items, pushFails⟩ := f
    cases items with
    | nil =>
      simp only [Fifo.call, QueueOut.view, QueueOut.flag.injEq] at hout hA₁
      subst hout
      have hr₁ : r₁ = [] := List.length_eq_zero.mp hA₁.chain.length_eq.symm
      subst hr₁
      exact ⟨_, w₁, i₁, t₁, by simp only [queueDrain, hpop], hA₁⟩
    | cons x xs =>
      simp only [Fifo.call, QueueOut.view, QueueOut.flag.injEq] at hout hA₁
      subst hout
      obtain ⟨q', w', i₀', t', hd, hA'⟩ :=
        QueueAt.drain fuel mem turns hA₁ (by simpa using hn)
      exact ⟨q', w', i₀', t', by simp only [queueDrain, hpop, hd], hA'⟩

/-- Releasing the dummy of a queue with no node after it frees every slot of the pool, as
`anam_pool_stats` reports it. -/
theorem QueueAt.release_empty {sv : Bool} {cfg : AnamQueueConfig} {q : AnamQueue} {f : Fifo}
    {w : World} {i₀ t : Nat} (hA : QueueAt sv cfg q f w i₀ [] t) :
    ∃ pool free, (anamRelease sv q.pool q.head).1 = pool ∧ anamIsNull q.head = false ∧
      FreeChain pool.layout pool.next pool.generation pool.freeHead free ∧
      (∀ i < pool.layout.slotCount, i ∈ free) ∧
      (anamPoolStats pool).slotsFree = pool.layout.slotCount ∧
      (anamPoolStats pool).slotsLive = 0 ∧
      (anamPoolStats pool).allocCount = (anamPoolStats pool).releaseCount := by
  have hI := hA.inv
  have hv : authenticate sv w.pool (w.handleOf i₀) = .genuine (slotFromIndex w.pool.layout i₀) :=
    hI.authenticate_live sv hA.i₀_lt
  have hidx : slotIndex w.pool.layout (decodeAddr (w.handleOf i₀)) = i₀ := by
    rw [World.handleOf, decodeAddr_encodeHandle_of_fits (hI.slot_fits hA.i₀_lt).1,
      slotIndex_slotFromIndex hI.geom hA.i₀_lt]
  obtain ⟨hp₂, hf₂, hl₂, -⟩ := World.release_of_genuine hv hidx
  have hI₂ : PoolInv (w.release sv (w.handleOf i₀)) := hI.act sv hA.head_admissible
  have hL₂ : (w.release sv (w.handleOf i₀)).pool.layout = w.pool.layout :=
    World.act_layout sv w (.release _)
  have hfull : (w.release sv (w.handleOf i₀)).free.length = w.pool.layout.slotCount := by
    have := hA.count; have := hA.chain.length_eq; rw [hf₂]
    simp only [List.length_cons, List.length_nil] at *; omega
  have hsf := hI₂.slotsFree
  have hbal := hI₂.balance
  rw [hL₂] at hbal
  refine ⟨_, _, by rw [hA.head, ← hA.pool, anamRelease_of_genuine hv, hp₂], ?_, hI₂.chain,
    fun i hi => ?_, ?_, ?_, ?_⟩
  · rw [hA.head, anamIsNull, beq_eq_false_iff_ne]
    exact hI.handleOf_ne_null hA.i₀_lt
  · rw [hL₂] at hi
    refine (hI₂.free_iff i (hL₂ ▸ hi)).mpr ?_
    rw [hl₂]
    by_cases hii : i = i₀
    · rw [hii, Function.update_same]
    · rw [Function.update_noteq hii]
      simpa [hii] using hA.live_iff i hi
  · simp only [anamPoolStats, hsf, hfull, hL₂]
  · have := hI.slotCount_lt
    simp only [anamPoolStats, hsf, hfull, hL₂, sizeSub]; omega
  · simp only [anamPoolStats, hI₂.allocCount, hI₂.releaseCount]
    omega

/-- After any single-threaded run from `anam_queue_create`, `anam_queue_destroy` returns every
node to the pool before destroying it: its drain loop ends within `capacity + 1` calls of
`anam_queue_pop`, each leaving its retry loop on the first turn, and the pool it hands to
`anam_pool_destroy` has every slot on the free list read from `free_head`, `anam_pool_stats`
reporting every slot free and none live, and as many releases as allocations. -/
theorem queue_destroy_releases_all {sv : Bool} {cfg : AnamQueueConfig}
    {alignedAlloc : Nat → Nat → Option Nat} {q₀ : AnamQueue}
    (h : anamQueueCreate sv (some cfg) alignedAlloc = some q₀)
    (hnode : 8 + cfg.itemSize + 7 < 2 ^ 64)
    (hw : LayoutNoWrap (queuePoolConfig cfg) q₀.pool.layout.memory)
    (hb : BufferBelow48 (queuePoolConfig cfg) q₀.pool.layout.memory)
    (fuel : Nat) (mem : Nat → UInt8) (cs : List QueueCall) (hcs : ∀ c ∈ cs, c.Admissible)
    {q : AnamQueue} {mem' : Nat → UInt8} {outs : List QueueOut}
    (hr : anamQueueRun sv (fuel + 1) q₀ mem cs = some (q, mem', outs))
    (popFuel turns : Nat) (hturns : cfg.capacity < turns) :
    ∃ pool free, anamQueueDestroy sv (popFuel + 1) turns q mem' = some pool ∧
      FreeChain pool.layout pool.next pool.generation pool.freeHead free ∧
      (∀ i < pool.layout.slotCount, i ∈ free) ∧
      (anamPoolStats pool).slotsFree = pool.layout.slotCount ∧
      (anamPoolStats pool).slotsLive = 0 ∧
      (anamPoolStats pool).allocCount = (anamPoolStats pool).releaseCount := by
  obtain ⟨w, hA⟩ := QueueAt.create h hnode hw hb
  obtain ⟨q₁, outs₁, hrun, -, w₁, i₁, r₁, t₁, hA₁⟩ := hA.run fuel cs hcs mem
  rw [hr, Option.some.injEq, Prod.mk.injEq] at hrun
  obtain ⟨rfl, -⟩ := hrun
  have hcount := hA₁.count
  obtain ⟨q', w', i₀, t', hd, hA'⟩ :=
    hA₁.drain popFuel mem' turns (by rw [hA₁.slotCount] at hcount; omega)
  obtain ⟨pool, free, hpool, hne, hfree⟩ := hA'.release_empty
  exact ⟨pool, free, by simp only [anamQueueDestroy, hd, Option.map_some', hne,
    Bool.false_eq_true, if_false, hpool], hfree⟩

/-- One item left queued and one push refused on a queue of capacity 1: destroying it drains
the item and frees both slots. -/
theorem queue_destroy_releases_all_one_left :
    ∃ q₀, anamQueueCreate false (some ⟨8, 1, of_decide_eq_true rfl, of_decide_eq_true rfl⟩)
        (fun _ _ => some 4096) = some q₀ ∧
      ∃ q mem' outs, anamQueueRun false 1 q₀ (fun _ => 7) [.push 100, .push 100] =
          some (q, mem', outs) ∧
        1 < 2 ∧
        ∃ pool free, anamQueueDestroy false 1 2 q mem' = some pool ∧
          FreeChain pool.layout pool.next pool.generation pool.freeHead free ∧
          (∀ i < pool.layout.slotCount, i ∈ free) ∧
          (anamPoolStats pool).slotsFree = pool.layout.slotCount ∧
          (anamPoolStats pool).slotsLive = 0 ∧
          (anamPoolStats pool).allocCount = (anamPoolStats pool).releaseCount :=
  ⟨_, rfl, _, _, _, rfl, by decide, @queue_destroy_releases_all false
    ⟨8, 1, of_decide_eq_true rfl, of_decide_eq_true rfl⟩ (fun _ _ => some 4096) _ rfl
    (by decide) (by refine ⟨?_, ?_, ?_, ?_, ?_⟩ <;> decide) (by unfold BufferBelow48; decide) 0
    (fun _ => 7) [.push 100, .push 100] (by decide) _ _ _ rfl 0 2 (by decide)⟩

end Anamnesis

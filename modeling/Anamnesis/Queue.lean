import Mathlib.Data.Nat.GCD.Basic
import Anamnesis.FreeList

/-!
# The queue, one call at a time

`anam_queue_*` keeps a Michael-Scott queue of nodes taken from its own pool: `q->head` is
the handle of a dummy node, each node's `next` field (the first word of the node, in the
pool slot's user area) holds the handle of the following node, and `q->tail` the handle of
the last node or, for a moment, the one before it. The item bytes follow the `next` field.

The definitions below run a call on one thread: every compare-exchange compares the value
at hand with the expected one (it fails only on a mismatch), and a retry loop takes at most
`fuel` turns, returning `none` if it has not left by then. Pool calls are the functions of
`Anamnesis.Pool`.

Memory. A node's item lives in its slot from `user_ptr + 8` on; when `node_size` does not
wrap, the item fits in the slot, so the items of distinct nodes never overlap and each is
kept here as its own byte list `data u`. A client's buffers are its own memory, a function
from addresses to bytes, which no pool slot overlaps. The node fields are not initialised
by the pool; `next` starts at `ANAM_NULL` here, and every node's `next` is stored before it
is read.
-/

namespace Anamnesis

/-- `AnamQueueConfig`. -/
structure AnamQueueConfig where
  itemSize : Nat
  capacity : Nat
  itemSize_lt : itemSize < 2 ^ 64
  capacity_lt : capacity < 2 ^ 64

/-- `ANAM_QUEUE_DEFAULT`. -/
def anamQueueDefault : AnamQueueConfig where
  itemSize := 64
  capacity := 1024
  itemSize_lt := by decide
  capacity_lt := by decide

/-- `node_size = ((sizeof(QueueNode) + item_size + 7) & ~7)`. -/
def queueNodeSize (itemSize : Nat) : Nat :=
  sizeAdd (sizeAdd 8 itemSize) 7 &&& sizeNot 7

theorem queueNodeSize_lt (itemSize : Nat) : queueNodeSize itemSize < 2 ^ 64 :=
  Nat.and_lt_two_pow _ (by unfold sizeNot; omega)

/-- When `sizeof(QueueNode) + item_size + 7` does not wrap, a node, its `next` word and its
item, fits in its slot. -/
theorem queueNodeSize_fits {itemSize : Nat} (h : 8 + itemSize + 7 < 2 ^ 64) :
    8 + itemSize ≤ queueNodeSize itemSize := by
  have hs : sizeAdd (sizeAdd 8 itemSize) 7 = 8 + itemSize + 7 := by unfold sizeAdd; omega
  rw [queueNodeSize, hs, show sizeNot 7 = 2 ^ 64 - 2 ^ 3 by rfl, and_high_bits h (by omega)]
  omega

/-- The pool a queue makes: `{ .slot_size = node_size, .slot_count = capacity + 1 }`. -/
def queuePoolConfig (cfg : AnamQueueConfig) : AnamPoolConfig where
  slotSize := queueNodeSize cfg.itemSize
  slotCount := sizeAdd cfg.capacity 1
  alignment := 0
  zeroOnAlloc := false
  zeroOnRelease := false
  slotSize_lt := queueNodeSize_lt _
  slotCount_lt := Nat.mod_lt _ (by decide)
  alignment_lt := by decide

/-- `AnamQueue`, with the fields of its nodes, by user pointer. -/
structure AnamQueue where
  itemSize : Nat
  capacity : Nat
  nodeSize : Nat
  pool : AnamPool
  head : Nat
  tail : Nat
  length : Nat
  pushCount : Nat
  popCount : Nat
  pushFails : Nat
  popFails : Nat
  abaPrevented : Nat
  /-- `QueueNode.next`. -/
  next : Nat → Nat
  /-- The `item_size` bytes at `node_data(node)`. -/
  data : Nat → List UInt8

/-- A queue rebuilt from its own fields is itself. -/
@[simp] theorem AnamQueue.mk_eta (q : AnamQueue) :
    AnamQueue.mk q.itemSize q.capacity q.nodeSize q.pool q.head q.tail q.length q.pushCount
      q.popCount q.pushFails q.popFails q.abaPrevented q.next q.data = q := rfl

/-- The `n` bytes of client memory at `addr`. -/
def readBytes (mem : Nat → UInt8) (addr n : Nat) : List UInt8 :=
  (List.range n).map fun k => mem (addr + k)

/-- `memcpy(addr, bytes, length)` into client memory. -/
def writeBytes (mem : Nat → UInt8) (addr : Nat) (bytes : List UInt8) : Nat → UInt8 :=
  fun a => if addr ≤ a ∧ a < addr + bytes.length then bytes.getD (a - addr) 0 else mem a

/-- The bytes a `memcpy` wrote read back. -/
theorem readBytes_writeBytes (mem : Nat → UInt8) (addr : Nat) (bytes : List UInt8) :
    readBytes (writeBytes mem addr bytes) addr bytes.length = bytes := by
  refine List.ext_getElem (by simp [readBytes]) fun k h₁ h₂ => ?_
  simp [readBytes, writeBytes, h₂]

/-- `encode(decode_gen(h), decode_addr(h), ANAM_STATE_LIVE)`, which the queue compares and
stores into `q->head` and `q->tail`. -/
def relive (h : Nat) : Nat := encodeHandle (decodeGen h) (decodeAddr h) stateLive

/-- `alloc_node`: a slot from the pool, its `next` cleared and, if there is one, the item
copied in. -/
def allocNode (sv : Bool) (q : AnamQueue) (item : Option (List UInt8)) : AnamQueue × Nat :=
  let a := anamAlloc q.pool
  if anamIsNull a.2 then ({ q with pool := a.1 }, anamNull)
  else
    let g := anamGet sv a.1 a.2
    ({ q with
        pool := g.1
        next := Function.update q.next g.2 anamNull
        data := match item with
          | some bytes => Function.update q.data g.2 bytes
          | none => q.data }, a.2)

@[simp] theorem allocNode_layout (sv : Bool) (q : AnamQueue) (item : Option (List UInt8)) :
    (allocNode sv q item).1.pool.layout = q.pool.layout := by
  simp only [allocNode]; split_ifs <;> simp

/-- `anam_queue_create`; `alignedAlloc` is the pool's `ANAM_ALIGNED_ALLOC`. -/
def anamQueueCreate (sv : Bool) (config : Option AnamQueueConfig)
    (alignedAlloc : Nat → Nat → Option Nat) : Option AnamQueue :=
  let cfg := config.getD anamQueueDefault
  if cfg.itemSize = 0 ∨ cfg.capacity = 0 then none
  else match anamPoolCreate (some (queuePoolConfig cfg)) alignedAlloc with
    | none => none
    | some pool =>
      let q : AnamQueue :=
        { itemSize := cfg.itemSize, capacity := cfg.capacity,
          nodeSize := queueNodeSize cfg.itemSize, pool := pool, head := anamNull,
          tail := anamNull, length := 0, pushCount := 0, popCount := 0, pushFails := 0,
          popFails := 0, abaPrevented := 0, next := fun _ => anamNull, data := fun _ => [] }
      let r := allocNode sv q none
      if anamIsNull r.2 then none
      else some { r.1 with head := r.2, tail := r.2 }

/-- One more `aba_prevented`. -/
def AnamQueue.retry (q : AnamQueue) : AnamQueue :=
  { q with abaPrevented := sizeAdd q.abaPrevented 1 }

/-- The `while (1)` loop of `anam_queue_push` that links `newH` after the last node. -/
def pushLink (sv : Bool) (newH : Nat) : Nat → AnamQueue → Option AnamQueue
  | 0, _ => none
  | fuel + 1, q =>
    let tailH := q.tail
    let g := anamGet sv q.pool tailH
    let q := { q with pool := g.1 }
    if g.2 = 0 then pushLink sv newH fuel q.retry
    else
      let nextH := q.next g.2
      if tailH ≠ q.tail then pushLink sv newH fuel q.retry
      else if anamIsNull nextH then
        if q.next g.2 = nextH then some { q with next := Function.update q.next g.2 newH }
        else pushLink sv newH fuel q
      else
        pushLink sv newH fuel
          (if q.tail = tailH then { q with tail := relive nextH } else q)

/-- `anam_queue_push(q, d)`, the item read from client memory `mem` at `d`. -/
def anamQueuePush (sv : Bool) (fuel : Nat) (q : AnamQueue) (mem : Nat → UInt8) (d : Nat) :
    Option (AnamQueue × Nat) :=
  if d = 0 then some (q, anamNull)
  else
    let r := allocNode sv q (some (readBytes mem d q.itemSize))
    if anamIsNull r.2 then some ({ r.1 with pushFails := sizeAdd r.1.pushFails 1 }, anamNull)
    else match pushLink sv r.2 fuel r.1 with
      | none => none
      | some q =>
        let tailH := q.tail
        let q := if q.tail = tailH then { q with tail := relive r.2 } else q
        some ({ q with length := sizeAdd q.length 1, pushCount := sizeAdd q.pushCount 1 }, r.2)

/-- The `while (1)` loop of `anam_queue_pop(q, out)`: the queue, the client memory and the
result. -/
def popLoop (sv : Bool) (out : Nat) :
    Nat → AnamQueue → (Nat → UInt8) → Option (AnamQueue × (Nat → UInt8) × Bool)
  | 0, _, _ => none
  | fuel + 1, q, mem =>
    let headH := q.head
    let tailH := q.tail
    let g := anamGet sv q.pool headH
    let q := { q with pool := g.1 }
    if g.2 = 0 then popLoop sv out fuel q.retry mem
    else
      let nextH := q.next g.2
      if headH ≠ q.head then popLoop sv out fuel q.retry mem
      else if headH = tailH then
        if anamIsNull nextH then some ({ q with popFails := sizeAdd q.popFails 1 }, mem, false)
        else
          popLoop sv out fuel (if q.tail = tailH then { q with tail := relive nextH } else q) mem
      else
        let gn := anamGet sv q.pool nextH
        let q := { q with pool := gn.1 }
        if gn.2 = 0 then popLoop sv out fuel q.retry mem
        else
          let mem := if out ≠ 0 then writeBytes mem out (q.data gn.2) else mem
          if q.head = headH then
            let q := { q with head := relive nextH }
            let rel := anamRelease sv q.pool headH
            some ({ q with
              pool := rel.1
              length := sizeSub q.length 1
              popCount := sizeAdd q.popCount 1 }, mem, true)
          else popLoop sv out fuel q mem

/-- The loop `while (anam_queue_pop(q, NULL)) {}` of `anam_queue_destroy`, for at most `turns`
calls, each with `fuel` turns of its retry loop; `none` if it has not ended. -/
def queueDrain (sv : Bool) (fuel : Nat) (mem : Nat → UInt8) : Nat → AnamQueue → Option AnamQueue
  | 0, _ => none
  | turns + 1, q =>
    match popLoop sv 0 fuel q mem with
    | none => none
    | some (q', _, true) => queueDrain sv fuel mem turns q'
    | some (q', _, false) => some q'

/-- `anam_queue_destroy` up to its call of `anam_pool_destroy`, which only frees memory: the
pool that call destroys. -/
def anamQueueDestroy (sv : Bool) (fuel turns : Nat) (q : AnamQueue) (mem : Nat → UInt8) :
    Option AnamPool :=
  (queueDrain sv fuel mem turns q).map fun q =>
    if anamIsNull q.head then q.pool else (anamRelease sv q.pool q.head).1

/-- `anam_queue_peek(q, out)`. -/
def anamQueuePeek (sv : Bool) (q : AnamQueue) (mem : Nat → UInt8) (out : Nat) :
    AnamQueue × (Nat → UInt8) × Bool :=
  if out = 0 then (q, mem, false)
  else
    let g := anamGet sv q.pool q.head
    let q := { q with pool := g.1 }
    if g.2 = 0 then (q, mem, false)
    else
      let nextH := q.next g.2
      if anamIsNull nextH then (q, mem, false)
      else
        let gn := anamGet sv q.pool nextH
        let q := { q with pool := gn.1 }
        if gn.2 = 0 then (q, mem, false) else (q, writeBytes mem out (q.data gn.2), true)

/-- `anam_queue_empty(q)`. -/
def anamQueueEmpty (sv : Bool) (q : AnamQueue) : AnamQueue × Bool :=
  let g := anamGet sv q.pool q.head
  let q := { q with pool := g.1 }
  if g.2 = 0 then (q, true) else (q, anamIsNull (q.next g.2))

/-- A call a single-threaded client makes on the queue, with its pointer argument. -/
inductive QueueCall
  | push (d : Nat)
  | pop (out : Nat)
  | peek (out : Nat)
  | empty
  | length
deriving DecidableEq, Repr

/-- What a call returns: a handle (push), a `bool` or a `size_t`. -/
inductive QueueOut
  | handle (h : Nat)
  | flag (b : Bool)
  | count (n : Nat)
deriving DecidableEq, Repr

/-- One call; `none` if a retry loop has not left within `fuel` turns. -/
def anamQueueCall (sv : Bool) (fuel : Nat) (q : AnamQueue) (mem : Nat → UInt8) :
    QueueCall → Option (AnamQueue × (Nat → UInt8) × QueueOut)
  | .push d => (anamQueuePush sv fuel q mem d).map fun r => (r.1, mem, .handle r.2)
  | .pop out => (popLoop sv out fuel q mem).map fun r => (r.1, r.2.1, .flag r.2.2)
  | .peek out =>
    let r := anamQueuePeek sv q mem out
    some (r.1, r.2.1, .flag r.2.2)
  | .empty =>
    let r := anamQueueEmpty sv q
    some (r.1, mem, .flag r.2)
  | .length => some (q, mem, .count q.length)

/-- A sequence of calls, with what each returned. -/
def anamQueueRun (sv : Bool) (fuel : Nat) :
    AnamQueue → (Nat → UInt8) → List QueueCall →
      Option (AnamQueue × (Nat → UInt8) × List QueueOut)
  | q, mem, [] => some (q, mem, [])
  | q, mem, c :: cs =>
    match anamQueueCall sv fuel q mem c with
    | none => none
    | some (q', mem', o) =>
      (anamQueueRun sv fuel q' mem' cs).map fun r => (r.1, r.2.1, o :: r.2.2)

/-! ## What creation does not check -/

/-- Sizes whose rounding wraps are accepted. `slot_size = 2^64 - 1` rounds up to a payload of
0 bytes, so a one-slot pool gets a 24-byte buffer, one header and 8 bytes, for a slot whose
payload is `2^64 - 1` bytes long. `item_size = 2^64 - 1` rounds a node down to its 8-byte
`next` word, and `alloc_node` and `anam_queue_pop` copy `item_size` bytes past it. -/
theorem wrapped_size_overruns_buffer :
    poolTotal ⟨2 ^ 64 - 1, 1, 8, false, false, by decide, by decide, by decide⟩ = 24 ∧
    (∃ pool, anamPoolCreate
        (some ⟨2 ^ 64 - 1, 1, 8, false, false, by decide, by decide, by decide⟩)
        (fun _ _ => some 4096) = some pool ∧
      4096 + 24 < slotFromIndex pool.layout 0 + pool.layout.slotSize) ∧
    queueNodeSize (2 ^ 64 - 1) = 8 ∧
    ∃ q, anamQueueCreate false (some ⟨2 ^ 64 - 1, 1, by decide, by decide⟩)
        (fun _ _ => some 4096) = some q ∧
      q.pool.layout.slotSize < 8 + q.itemSize := by
  refine ⟨by decide, ⟨_, rfl, ?_⟩, by decide, _, rfl, by decide⟩
  rw [pushSlots_layout]
  decide

end Anamnesis

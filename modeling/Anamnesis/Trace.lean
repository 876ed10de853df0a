import Mathlib.Data.Nat.Bitwise

/-!
# Per-thread trace rings

With `ANAM_TRACE_ENABLED`, each thread records its pool operations into a ring of
`capacity` entries (a power of two) and appends them to its file `trace_thread_NNN.bin`.
`anam_trace_record` writes the cell `head & mask`, advances `head`, and flushes the ring
once the masked occupancy `(head - tail) & mask` exceeds `capacity * 3 / 4`.

The masked occupancy is the true one only while it stays below `capacity`. For a capacity
of 8 or more the flush comes first: the occupancy never passes `capacity * 3 / 4 + 1`, so
`anam_trace_flush_thread` appends exactly the recorded entries, once each and in order
(`anamTrace_flushThread_writes_recorded`), and `anam_trace_get_stats` counts every record and
no overflow (`anamTrace_getStats_no_overflow`). For capacities 1, 2 and 4 the threshold is never
exceeded: `capacity + 1` records wrap the ring, and the file receives the last entry only
(`anamTrace_small_ring_keeps_last`).

Every `calloc`, `fopen` and `fwrite` succeeds here, and `anam_rdtsc` is an input of each
call. The files are named by thread id in one output directory.
-/

namespace Anamnesis

/-- `+` on `uint32_t`. -/
def u32Add (x y : Nat) : Nat := (x + y) % 2 ^ 32

/-- `-` on `uint32_t`, for `y < 2^32`. -/
def u32Sub (x y : Nat) : Nat := (x + (2 ^ 32 - y)) % 2 ^ 32

/-- `*` on `uint32_t`. -/
def u32Mul (x y : Nat) : Nat := x * y % 2 ^ 32

/-- `AnamTraceEntry`. -/
structure AnamTraceEntry where
  timestamp : Nat
  slotIndex : Nat
  generation : Nat
  opType : Nat
  threadId : Nat
deriving DecidableEq, Repr

/-- A `calloc`ed entry. -/
def AnamTraceEntry.zero : AnamTraceEntry := ⟨0, 0, 0, 0, 0⟩

/-- `ANAM_TRACE_OP_ALLOC`. -/
def anamTraceOpAlloc : Nat := 0
/-- `ANAM_TRACE_OP_RELEASE`. -/
def anamTraceOpRelease : Nat := 1
/-- `ANAM_TRACE_OP_GET_VALID`. -/
def anamTraceOpGetValid : Nat := 2
/-- `ANAM_TRACE_OP_GET_STALE`. -/
def anamTraceOpGetStale : Nat := 3

/-- `AnamTraceBuffer`, with the `entries` array as a function of the cell index. -/
structure AnamTraceBuffer where
  entries : Nat → AnamTraceEntry
  capacity : Nat
  head : Nat
  tail : Nat
  threadId : Nat
  overflowCount : Nat
  entriesWritten : Nat
  active : Bool
  /-- `anam_trace_buffer_create` refuses a zero capacity, so `capacity - 1` is the
  `uint32_t` mask. -/
  capacity_pos : 0 < capacity

/-- The fields of `g_trace_ctx` that recording reads; `output_dir` only names the files. -/
structure AnamTraceContext where
  bufferCapacity : Nat
  nextThreadId : Nat
  active : Bool

/-- One thread's view of tracing: the global context, its `tls_buffer`, and the contents of
each trace file by thread id. -/
structure TraceState where
  ctx : AnamTraceContext
  tlsBuffer : Option AnamTraceBuffer
  files : Nat → List AnamTraceEntry

/-- A fresh process (`g_trace_ctx = {0}`) and a thread with no buffer. -/
def traceStart (files : Nat → List AnamTraceEntry) : TraceState := ⟨⟨0, 0, false⟩, none, files⟩

/-- `anam_trace_buffer_create`. -/
def anamTraceBufferCreate (capacity : Nat) (ctx : AnamTraceContext) :
    Option AnamTraceBuffer × AnamTraceContext :=
  if h : capacity = 0 ∨ capacity &&& capacity - 1 ≠ 0 then (none, ctx)
  else
    (some ⟨fun _ => .zero, capacity, 0, 0, ctx.nextThreadId % 2 ^ 8, 0, 0, true,
        Nat.pos_of_ne_zero (not_or.mp h).1⟩,
      { ctx with nextThreadId := u32Add ctx.nextThreadId 1 })

/-- `fwrite(&entries[start], sizeof(AnamTraceEntry), n, f)`. -/
def traceCells (entries : Nat → AnamTraceEntry) (start n : Nat) : List AnamTraceEntry :=
  (List.range n).map fun k => entries (start + k)

/-- `anam_trace_buffer_flush`: the buffer after it, and the files with the entries appended
to the buffer's own. -/
def anamTraceBufferFlush (buf : AnamTraceBuffer) (files : Nat → List AnamTraceEntry) :
    AnamTraceBuffer × (Nat → List AnamTraceEntry) :=
  if buf.head = buf.tail then (buf, files)
  else
    let mask := buf.capacity - 1
    let count := u32Sub buf.head buf.tail &&& mask
    let count := if count = 0 ∧ buf.overflowCount > 0 then buf.capacity else count
    if count = 0 then (buf, files)
    else
      let tailIdx := buf.tail &&& mask
      let headIdx := buf.head &&& mask
      let written :=
        if tailIdx < headIdx then traceCells buf.entries tailIdx count
        else
          let firstChunk := u32Sub buf.capacity tailIdx
          traceCells buf.entries tailIdx firstChunk ++
            traceCells buf.entries 0 (u32Sub count firstChunk)
      ({ buf with tail := buf.head },
        Function.update files buf.threadId (files buf.threadId ++ written))

/-- `anam_trace_get_buffer`. -/
def anamTraceGetBuffer (s : TraceState) : TraceState :=
  match s.tlsBuffer with
  | none =>
    if s.ctx.active then
      let r := anamTraceBufferCreate s.ctx.bufferCapacity s.ctx
      { s with tlsBuffer := r.1, ctx := r.2 }
    else s
  | some _ => s

/-- The entry goes into the cell `head & mask`, and `head` moves on. -/
def AnamTraceBuffer.push (buf : AnamTraceBuffer) (e : AnamTraceEntry) : AnamTraceBuffer :=
  { buf with
    entries := Function.update buf.entries (buf.head &&& buf.capacity - 1) e
    head := u32Add buf.head 1
    entriesWritten := (buf.entriesWritten + 1) % 2 ^ 64 }

/-- The body of `anam_trace_record` once it holds an active buffer. -/
def traceRecordInto (buf : AnamTraceBuffer) (files : Nat → List AnamTraceEntry)
    (opType slotIndex generation timestamp : Nat) :
    AnamTraceBuffer × (Nat → List AnamTraceEntry) :=
  let buf := buf.push ⟨timestamp, slotIndex, generation, opType, buf.threadId⟩
  let used := u32Sub buf.head buf.tail &&& buf.capacity - 1
  let r := if used > u32Mul buf.capacity 3 / 4 then anamTraceBufferFlush buf files
    else (buf, files)
  if u32Sub r.1.head r.1.tail ≥ r.1.capacity then
    ({ r.1 with overflowCount := u32Add r.1.overflowCount 1 }, r.2)
  else r

/-- `anam_trace_record`; `timestamp` is what `anam_rdtsc` returns. -/
def anamTraceRecord (opType slotIndex generation timestamp : Nat) (s : TraceState) :
    TraceState :=
  let s := anamTraceGetBuffer s
  match s.tlsBuffer with
  | some buf =>
    if buf.active then
      let r := traceRecordInto buf s.files opType slotIndex generation timestamp
      { s with tlsBuffer := some r.1, files := r.2 }
    else s
  | none => s

/-- `anam_trace_init`. -/
def anamTraceInit (bufferSize : Nat) (s : TraceState) : TraceState :=
  if bufferSize = 0 then s
  else if bufferSize &&& bufferSize - 1 ≠ 0 then s
  else { s with ctx := { bufferCapacity := bufferSize, nextThreadId := 0, active := true } }

/-- `anam_trace_flush_thread`. -/
def anamTraceFlushThread (s : TraceState) : TraceState :=
  match s.tlsBuffer with
  | some buf =>
    { s with
      tlsBuffer := none
      files := if buf.active then (anamTraceBufferFlush buf s.files).2 else s.files }
  | none => s

/-- `anam_trace_shutdown`. -/
def anamTraceShutdown (s : TraceState) : TraceState :=
  anamTraceFlushThread { s with ctx := { s.ctx with active := false } }

/-- `anam_trace_get_stats`: `entries_written` and `overflow_count`, if the thread has a
buffer. -/
def anamTraceGetStats (s : TraceState) : Option (Nat × Nat) :=
  s.tlsBuffer.map fun buf => (buf.entriesWritten, buf.overflowCount)

/-- A call of the recording API. -/
inductive TraceCall
  /-- `anam_trace_alloc`. -/
  | alloc (slotIndex generation : Nat)
  /-- `anam_trace_release`. -/
  | release (slotIndex generation : Nat)
  /-- `anam_trace_get`. -/
  | get (slotIndex generation : Nat) (validated : Bool)
deriving DecidableEq, Repr

def TraceCall.opType : TraceCall → Nat
  | .alloc _ _ => anamTraceOpAlloc
  | .release _ _ => anamTraceOpRelease
  | .get _ _ validated => if validated then anamTraceOpGetValid else anamTraceOpGetStale

def TraceCall.slotIndex : TraceCall → Nat
  | .alloc i _ | .release i _ | .get i _ _ => i

def TraceCall.generation : TraceCall → Nat
  | .alloc _ g | .release _ g | .get _ g _ => g

/-- `anam_trace_alloc`. -/
def anamTraceAlloc (slotIndex generation timestamp : Nat) (s : TraceState) : TraceState :=
  anamTraceRecord anamTraceOpAlloc slotIndex generation timestamp s

/-- `anam_trace_release`. -/
def anamTraceRelease (slotIndex generation timestamp : Nat) (s : TraceState) : TraceState :=
  anamTraceRecord anamTraceOpRelease slotIndex generation timestamp s

/-- `anam_trace_get`. -/
def anamTraceGet (slotIndex generation : Nat) (validated : Bool) (timestamp : Nat)
    (s : TraceState) : TraceState :=
  let opType := if validated then anamTraceOpGetValid else anamTraceOpGetStale
  anamTraceRecord opType slotIndex generation timestamp s

/-- The call at time `timestamp`. -/
def TraceCall.run (timestamp : Nat) : TraceCall → TraceState → TraceState
  | .alloc i g => anamTraceAlloc i g timestamp
  | .release i g => anamTraceRelease i g timestamp
  | .get i g v => anamTraceGet i g v timestamp

/-- The calls of one thread, each with its timestamp, in order. -/
def traceCalls : List (TraceCall × Nat) → TraceState → TraceState
  | [], s => s
  | (c, ts) :: cs, s => traceCalls cs (c.run ts s)

/-- The entry a call records on thread `tid`. -/
def TraceCall.entry (c : TraceCall) (timestamp tid : Nat) : AnamTraceEntry :=
  ⟨timestamp, c.slotIndex, c.generation, c.opType, tid⟩

/-- What the trace file is meant to receive: every recorded entry, in order. -/
def recordedEntries (tid : Nat) (calls : List (TraceCall × Nat)) : List AnamTraceEntry :=
  calls.map fun c => c.1.entry c.2 tid

theorem TraceCall.run_eq (timestamp : Nat) (c : TraceCall) (s : TraceState) :
    c.run timestamp s = anamTraceRecord c.opType c.slotIndex c.generation timestamp s := by
  cases c <;> rfl

/-! ## `uint32_t` counters -/

section U32

variable {a b : Nat}

theorem add_u32Sub (ha : a < 2 ^ 32) (hb : b < 2 ^ 32) : (b + u32Sub a b) % 2 ^ 32 = a := by
  unfold u32Sub; omega

theorem u32Sub_eq_zero_iff (ha : a < 2 ^ 32) (hb : b < 2 ^ 32) : u32Sub a b = 0 ↔ a = b := by
  unfold u32Sub; omega

theorem u32Sub_self (ha : a < 2 ^ 32) : u32Sub a a = 0 := (u32Sub_eq_zero_iff ha ha).mpr rfl

theorem u32Sub_succ (hd : u32Sub a b + 1 < 2 ^ 32) : u32Sub (u32Add a 1) b = u32Sub a b + 1 := by
  unfold u32Sub u32Add at *; omega

theorem u32Sub_of_le (hba : b ≤ a) (ha : a < 2 ^ 32) : u32Sub a b = a - b := by
  unfold u32Sub; omega

theorem u32Add_lt : u32Add a b < 2 ^ 32 := Nat.mod_lt _ (Nat.two_pow_pos 32)

/-- From a capacity of 8 on, the flush threshold `capacity * 3 / 4`, computed in `uint32_t`,
is at least two below the capacity. -/
theorem threshold_lt {c : Nat} (hc : 8 ≤ c) : u32Mul c 3 / 4 + 1 < c := by
  have := Nat.mod_le (c * 3) (2 ^ 32)
  unfold u32Mul; omega

end U32

/-! ## Ring indices -/

section Index

variable {t k c : Nat}

theorem add_mod_of_lt (h : t % c + k < c) : (t + k) % c = t % c + k := by
  rw [Nat.add_mod, Nat.mod_eq_of_lt (show k < c by omega), Nat.mod_eq_of_lt h]

theorem add_mod_of_ge (h : c ≤ t % c + k) (hk : k < c) : (t + k) % c = t % c + k - c := by
  have := Nat.mod_lt t (show 0 < c by omega)
  rw [Nat.add_mod, Nat.mod_eq_of_lt hk, Nat.mod_eq_sub_mod h, Nat.mod_eq_of_lt (by omega)]

/-- Cells fewer than `c` apart are distinct. -/
theorem add_mod_ne {d : Nat} (hk : k < d) (hd : d < c) : (t + k) % c ≠ (t + d) % c := by
  intro h
  have := Nat.sub_mod_eq_zero_of_mod_eq h.symm
  rw [show t + d - (t + k) = d - k by omega, Nat.mod_eq_of_lt (by omega)] at this
  omega

/-- The one or two `fwrite`s of a flush of `d` entries from cell `t % c` write the cells
`t, t + 1, ..., t + d - 1` around the ring. -/
theorem flush_written (entries : Nat → AnamTraceEntry) (hd0 : 0 < d) (hd : d < c)
    (hc : c < 2 ^ 32) :
    (if t % c < (t + d) % c then traceCells entries (t % c) d
      else traceCells entries (t % c) (u32Sub c (t % c)) ++
        traceCells entries 0 (u32Sub d (u32Sub c (t % c)))) =
      (List.range d).map fun k => entries ((t + k) % c) := by
  have hlt := Nat.mod_lt t (show 0 < c by omega)
  unfold traceCells
  split_ifs with hw
  · have hfit : t % c + d < c := by
      by_contra hge
      rw [add_mod_of_ge (by omega) hd] at hw
      omega
    exact List.map_congr_left fun k hk => by
      rw [add_mod_of_lt (by have := List.mem_range.mp hk; omega)]
  · have hwrap : c ≤ t % c + d := by
      by_contra hfit
      rw [add_mod_of_lt (by omega)] at hw
      omega
    obtain ⟨m, rfl⟩ : ∃ m, d = (c - t % c) + m := ⟨d - (c - t % c), by omega⟩
    rw [u32Sub_of_le hlt.le hc, u32Sub_of_le (by omega) (by omega), Nat.add_sub_cancel_left,
      List.range_add, List.map_append, List.map_map]
    congr 1
    · exact List.map_congr_left fun k hk => by
        rw [add_mod_of_lt (by have := List.mem_range.mp hk; omega)]
    · refine List.map_congr_left fun j hj => ?_
      have := List.mem_range.mp hj
      simp only [Function.comp, Nat.zero_add]
      rw [add_mod_of_ge (by omega) (by omega)]
      congr 1
      omega

end Index

/-! ## The ring -/

/-- The unflushed entries, oldest first: the `head - tail` cells from `tail` around the
ring. -/
def AnamTraceBuffer.pending (buf : AnamTraceBuffer) : List AnamTraceEntry :=
  (List.range (u32Sub buf.head buf.tail)).map fun k =>
    buf.entries ((buf.tail + k) % buf.capacity)

@[simp] theorem AnamTraceBuffer.push_capacity (buf : AnamTraceBuffer) (e : AnamTraceEntry) :
    (buf.push e).capacity = buf.capacity := rfl
@[simp] theorem AnamTraceBuffer.push_tail (buf : AnamTraceBuffer) (e : AnamTraceEntry) :
    (buf.push e).tail = buf.tail := rfl
@[simp] theorem AnamTraceBuffer.push_threadId (buf : AnamTraceBuffer) (e : AnamTraceEntry) :
    (buf.push e).threadId = buf.threadId := rfl
@[simp] theorem AnamTraceBuffer.push_overflowCount (buf : AnamTraceBuffer)
    (e : AnamTraceEntry) : (buf.push e).overflowCount = buf.overflowCount := rfl
@[simp] theorem AnamTraceBuffer.push_active (buf : AnamTraceBuffer) (e : AnamTraceEntry) :
    (buf.push e).active = buf.active := rfl

section Ring

variable {n : Nat} {buf : AnamTraceBuffer} (hc : buf.capacity = 2 ^ n) (hn : n < 32)
  (hh : buf.head < 2 ^ 32) (ht : buf.tail < 2 ^ 32)
include hc hn hh ht

/-- `head & mask` is the cell just past the unflushed entries. -/
theorem head_mask :
    buf.head &&& buf.capacity - 1 = (buf.tail + u32Sub buf.head buf.tail) % buf.capacity := by
  rw [hc, Nat.and_pow_two_sub_one_eq_mod]
  calc buf.head % 2 ^ n = (buf.tail + u32Sub buf.head buf.tail) % 2 ^ 32 % 2 ^ n := by
        rw [add_u32Sub hh ht]
    _ = _ := Nat.mod_mod_of_dvd _ (Nat.pow_dvd_pow 2 hn.le)

/-- Writing an entry into a ring that is not full appends it to the unflushed entries. -/
theorem pending_push (hd : u32Sub buf.head buf.tail < buf.capacity) (e : AnamTraceEntry) :
    u32Sub (buf.push e).head (buf.push e).tail = u32Sub buf.head buf.tail + 1 ∧
      (buf.push e).pending = buf.pending ++ [e] := by
  have hc31 : buf.capacity ≤ 2 ^ 31 := hc ▸ Nat.pow_le_pow_right (by decide) (by omega)
  have hd1 : u32Sub (buf.push e).head buf.tail = u32Sub buf.head buf.tail + 1 :=
    u32Sub_succ (by omega : u32Sub buf.head buf.tail + 1 < 2 ^ 32)
  refine ⟨hd1, ?_⟩
  simp only [AnamTraceBuffer.pending, AnamTraceBuffer.push_tail, AnamTraceBuffer.push_capacity,
    hd1, List.range_succ, List.map_append, List.map_cons, List.map_nil]
  refine congrArg₂ (· ++ ·) (List.map_congr_left fun k hk => ?_) ?_
  · have hne : (buf.tail + k) % buf.capacity ≠ buf.head &&& buf.capacity - 1 := by
      rw [head_mask hc hn hh ht]
      exact add_mod_ne (List.mem_range.mp hk) hd
    exact Function.update_noteq hne _ _
  · show [Function.update buf.entries (buf.head &&& buf.capacity - 1) e _] = [e]
    rw [head_mask hc hn hh ht, Function.update_same]

/-- A flush of a ring that is not full appends the unflushed entries to the thread's file
and empties the ring. -/
theorem anamTraceBufferFlush_eq (hd : u32Sub buf.head buf.tail < buf.capacity)
    (files : Nat → List AnamTraceEntry) :
    anamTraceBufferFlush buf files = ({ buf with tail := buf.head },
      Function.update files buf.threadId (files buf.threadId ++ buf.pending)) := by
  unfold anamTraceBufferFlush
  by_cases he : buf.head = buf.tail
  · have h0 : u32Sub buf.head buf.tail = 0 := (u32Sub_eq_zero_iff hh ht).mpr he
    simp only [if_pos he, AnamTraceBuffer.pending, h0, List.range_zero, List.map_nil,
      List.append_nil, Function.update_eq_self]
    cases buf
    simp_all
  · have hd0 : u32Sub buf.head buf.tail ≠ 0 := fun h => he ((u32Sub_eq_zero_iff hh ht).mp h)
    have hcount : u32Sub buf.head buf.tail &&& buf.capacity - 1 = u32Sub buf.head buf.tail := by
      rw [hc, Nat.and_pow_two_sub_one_eq_mod, Nat.mod_eq_of_lt (hc ▸ hd)]
    have hmask : ∀ x, x &&& buf.capacity - 1 = x % buf.capacity := fun x => by
      rw [hc, Nat.and_pow_two_sub_one_eq_mod]
    simp only [if_neg he, hcount, hd0, false_and, if_false]
    rw [hmask buf.tail, head_mask hc hn hh ht, flush_written _ (Nat.pos_of_ne_zero hd0) hd
      (hc ▸ Nat.pow_lt_pow_right (by decide) hn)]
    rfl

end Ring

/-- A ring of capacity `2^n` that has lost nothing: the flush at `capacity * 3 / 4` has always
come in time, and no overflow was counted. -/
structure RingOk (n : Nat) (buf : AnamTraceBuffer) : Prop where
  capacity : buf.capacity = 2 ^ n
  head_lt : buf.head < 2 ^ 32
  tail_lt : buf.tail < 2 ^ 32
  occupancy_le : u32Sub buf.head buf.tail ≤ u32Mul buf.capacity 3 / 4
  overflow : buf.overflowCount = 0
  active : buf.active = true

/-- A ring of at least 8 cells that has lost nothing has room for the next entry and one more. -/
theorem RingOk.room {n : Nat} (hn : 3 ≤ n) {buf : AnamTraceBuffer} (h : RingOk n buf) :
    u32Sub buf.head buf.tail + 1 < buf.capacity := by
  have := threshold_lt (h.capacity ▸ Nat.pow_le_pow_right Nat.two_pos hn : 8 ≤ buf.capacity)
  have := h.occupancy_le
  omega

/-- A call records into the ring that `anam_trace_get_buffer` gives it, when that ring is
active. -/
theorem TraceCall.run_of_getBuffer {s s' : TraceState} {buf : AnamTraceBuffer}
    (hg : anamTraceGetBuffer s = s') (hs : s'.tlsBuffer = some buf) (ha : buf.active = true)
    (c : TraceCall) (ts : Nat) :
    c.run ts s = { s' with
      tlsBuffer := some (traceRecordInto buf s'.files c.opType c.slotIndex c.generation ts).1
      files := (traceRecordInto buf s'.files c.opType c.slotIndex c.generation ts).2 } := by
  rw [TraceCall.run_eq]
  simp only [anamTraceRecord, hg, hs, ha, if_true]

/-- A call on a thread whose ring is active records into it. -/
theorem TraceCall.run_of_active {s : TraceState} {buf : AnamTraceBuffer}
    (hs : s.tlsBuffer = some buf) (ha : buf.active = true) (c : TraceCall) (ts : Nat) :
    c.run ts s = { s with
      tlsBuffer := some (traceRecordInto buf s.files c.opType c.slotIndex c.generation ts).1
      files := (traceRecordInto buf s.files c.opType c.slotIndex c.generation ts).2 } :=
  TraceCall.run_of_getBuffer (by simp only [anamTraceGetBuffer, hs]) hs ha c ts

/-- A flush writes to the file of the ring's own thread id only. -/
theorem anamTraceBufferFlush_files_ne {buf : AnamTraceBuffer} {files : Nat → List AnamTraceEntry}
    {k : Nat} (hk : k ≠ buf.threadId) : (anamTraceBufferFlush buf files).2 k = files k := by
  simp only [anamTraceBufferFlush]
  split_ifs <;> first | rfl | exact Function.update_noteq hk _ _

/-- A record writes to the file of the ring's own thread id only. -/
theorem traceRecordInto_files_ne {buf : AnamTraceBuffer} {files : Nat → List AnamTraceEntry}
    {k : Nat} (hk : k ≠ buf.threadId) (opType slotIndex generation timestamp : Nat) :
    (traceRecordInto buf files opType slotIndex generation timestamp).2 k = files k := by
  simp only [traceRecordInto]
  split_ifs <;> first | rfl | exact anamTraceBufferFlush_files_ne hk

section Record

variable {n : Nat} (hn : 3 ≤ n) (hn' : n < 32)
include hn hn'

/-- On a ring that has lost nothing, `anam_trace_record` writes the entry, then flushes if
the occupancy has passed the threshold; the overflow check never fires. -/
theorem RingOk.traceRecordInto_eq {buf : AnamTraceBuffer} (h : RingOk n buf)
    (files : Nat → List AnamTraceEntry) (opType slotIndex generation timestamp : Nat) :
    traceRecordInto buf files opType slotIndex generation timestamp =
      let e : AnamTraceEntry := ⟨timestamp, slotIndex, generation, opType, buf.threadId⟩
      if u32Sub buf.head buf.tail + 1 > u32Mul buf.capacity 3 / 4 then
        ({ buf.push e with tail := (buf.push e).head },
          Function.update files buf.threadId (files buf.threadId ++ (buf.push e).pending))
      else (buf.push e, files) := by
  simp only [traceRecordInto]
  set e : AnamTraceEntry := ⟨timestamp, slotIndex, generation, opType, buf.threadId⟩
  have hroom := h.room hn
  have hpc : (buf.push e).capacity = 2 ^ n := h.capacity
  have hd1 := (pending_push h.capacity hn' h.head_lt h.tail_lt (by omega) e).1
  have hused : u32Sub (buf.push e).head (buf.push e).tail &&& (buf.push e).capacity - 1 =
      u32Sub buf.head buf.tail + 1 := by
    rw [hd1, hpc, Nat.and_pow_two_sub_one_eq_mod, Nat.mod_eq_of_lt (h.capacity ▸ hroom)]
  have hflush := anamTraceBufferFlush_eq hpc hn' u32Add_lt h.tail_lt
    (by rw [hd1, AnamTraceBuffer.push_capacity]; omega) files
  rw [hused]
  simp only [AnamTraceBuffer.push_capacity]
  have h0 : u32Sub (buf.push e).head (buf.push e).head = 0 := u32Sub_self u32Add_lt
  split_ifs with hf hov hov
  · rw [hflush] at hov
    simp only [h0, AnamTraceBuffer.push_capacity] at hov
    omega
  · exact hflush
  · simp only [hd1, AnamTraceBuffer.push_capacity] at hov
    omega
  · rfl

/-- One record keeps a ring that has lost nothing, and appends its entry to what the file and
the ring hold together. -/
theorem RingOk.record {buf : AnamTraceBuffer} (h : RingOk n buf)
    (files : Nat → List AnamTraceEntry) (opType slotIndex generation timestamp : Nat) :
    let r := traceRecordInto buf files opType slotIndex generation timestamp
    RingOk n r.1 ∧ r.1.threadId = buf.threadId ∧
      r.2 buf.threadId ++ r.1.pending = files buf.threadId ++ buf.pending ++
        [⟨timestamp, slotIndex, generation, opType, buf.threadId⟩] := by
  intro r
  set e : AnamTraceEntry := ⟨timestamp, slotIndex, generation, opType, buf.threadId⟩
  have hroom := h.room hn
  obtain ⟨hd1, hp1⟩ := pending_push h.capacity hn' h.head_lt h.tail_lt (by omega) e
  simp only [r, h.traceRecordInto_eq hn hn' files opType slotIndex generation timestamp]
  split_ifs with hf
  · have h0 : u32Sub (buf.push e).head (buf.push e).head = 0 := u32Sub_self u32Add_lt
    refine ⟨⟨h.capacity, u32Add_lt, u32Add_lt, ?_, h.overflow, h.active⟩, rfl, ?_⟩
    · simp only [h0, Nat.zero_le]
    · show Function.update files buf.threadId _ buf.threadId ++
        (List.range (u32Sub (buf.push e).head (buf.push e).head)).map _ = _
      rw [h0, Function.update_same, hp1, List.range_zero, List.map_nil, List.append_nil,
        List.append_assoc]
  · exact ⟨⟨h.capacity, u32Add_lt, h.tail_lt,
      by rw [hd1, AnamTraceBuffer.push_capacity]; omega, h.overflow, h.active⟩, rfl,
      by rw [hp1, List.append_assoc]⟩

/-- `anam_trace_flush_thread` on a ring that has lost nothing appends its unflushed entries to
the thread's file and drops the ring. -/
theorem RingOk.flushThread {s : TraceState} {buf : AnamTraceBuffer} (hs : s.tlsBuffer = some buf)
    (h : RingOk n buf) :
    anamTraceFlushThread s = { s with
      tlsBuffer := none
      files := Function.update s.files buf.threadId (s.files buf.threadId ++ buf.pending) } := by
  simp only [anamTraceFlushThread, hs, h.active, if_true,
    anamTraceBufferFlush_eq h.capacity hn' h.head_lt h.tail_lt (Nat.lt_of_succ_lt (h.room hn))]

/-- Along any calls, a thread whose ring has lost nothing keeps it so, and its file followed by
its ring holds what they held, followed by every entry recorded. -/
theorem traceCalls_ring :
    ∀ (calls : List (TraceCall × Nat)) (s : TraceState) (buf : AnamTraceBuffer),
      s.tlsBuffer = some buf → RingOk n buf →
      ∃ buf', (traceCalls calls s).tlsBuffer = some buf' ∧ RingOk n buf' ∧
        buf'.threadId = buf.threadId ∧
        (traceCalls calls s).files buf.threadId ++ buf'.pending =
          s.files buf.threadId ++ buf.pending ++ recordedEntries buf.threadId calls
  | [], s, buf, hs, h => ⟨buf, hs, h, rfl, by simp [traceCalls, recordedEntries]⟩
  | (c, ts) :: cs, s, buf, hs, h => by
    obtain ⟨h₁, htid, heq⟩ := h.record hn hn' s.files c.opType c.slotIndex c.generation ts
    have hrun := TraceCall.run_of_active hs h.active c ts
    obtain ⟨buf', hs', h', htid', heq'⟩ := traceCalls_ring cs (c.run ts s) _
      (by rw [hrun]) h₁
    rw [htid] at heq'
    refine ⟨buf', hs', h', htid'.trans htid, ?_⟩
    rw [traceCalls, heq', hrun]
    simp only [heq, recordedEntries, List.map_cons, List.append_assoc, List.singleton_append]
    rfl

end Record

/-- `anam_trace_init` with a power of two on a fresh process. -/
theorem anamTraceInit_traceStart (n : Nat) (files₀ : Nat → List AnamTraceEntry) :
    anamTraceInit (2 ^ n) (traceStart files₀) = ⟨⟨2 ^ n, 0, true⟩, none, files₀⟩ := by
  simp [anamTraceInit, traceStart, Nat.and_pow_two_sub_one_eq_mod]

/-- With tracing on and no ring yet, `anam_trace_get_buffer` creates an empty ring numbered by
`next_thread_id`, while that number fits the `uint8_t` thread id. -/
theorem anamTraceGetBuffer_fresh (n m : Nat) (hm : m < 2 ^ 8) (files : Nat → List AnamTraceEntry) :
    ∃ buf : AnamTraceBuffer, anamTraceGetBuffer ⟨⟨2 ^ n, m, true⟩, none, files⟩ =
        ⟨⟨2 ^ n, m + 1, true⟩, some buf, files⟩ ∧
      RingOk n buf ∧ buf.threadId = m ∧ buf.pending = [] ∧ buf.entriesWritten = 0 := by
  refine ⟨⟨fun _ => .zero, 2 ^ n, 0, 0, m, 0, 0, true, Nat.two_pow_pos n⟩, ?_,
    ⟨rfl, Nat.two_pow_pos 32, Nat.two_pow_pos 32, by simp [u32Sub], rfl, rfl⟩, rfl,
    by simp [AnamTraceBuffer.pending, u32Sub], rfl⟩
  have h₁ : u32Add m 1 = m + 1 := Nat.mod_eq_of_lt (by omega)
  have h₂ : m % 2 ^ 8 = m := Nat.mod_eq_of_lt hm
  simp only [anamTraceGetBuffer, anamTraceBufferCreate, Nat.and_pow_two_sub_one_eq_mod,
    Nat.mod_self, h₁, h₂]
  simp

/-- After `anam_trace_init`, the thread's first record creates its ring through
`anam_trace_get_buffer`: empty, with thread id 0 and nothing written. -/
theorem traceCalls_init (n : Nat) (files₀ : Nat → List AnamTraceEntry) (c : TraceCall × Nat)
    (cs : List (TraceCall × Nat)) :
    ∃ buf₀ : AnamTraceBuffer, RingOk n buf₀ ∧ buf₀.threadId = 0 ∧ buf₀.pending = [] ∧
      buf₀.entriesWritten = 0 ∧
      traceCalls (c :: cs) (anamTraceInit (2 ^ n) (traceStart files₀)) =
        traceCalls (c :: cs) ⟨⟨2 ^ n, 1, true⟩, some buf₀, files₀⟩ := by
  obtain ⟨buf₀, hget, h₀, htid, hp, hw⟩ := anamTraceGetBuffer_fresh n 0 (by decide) files₀
  refine ⟨buf₀, h₀, htid, hp, hw, ?_⟩
  obtain ⟨c, ts⟩ := c
  simp only [traceCalls, anamTraceInit_traceStart]
  rw [TraceCall.run_of_getBuffer hget rfl h₀.active, TraceCall.run_of_active rfl h₀.active]

/-- For every capacity `2^n` from 8 to `2^31` that `anam_trace_init` accepts, whatever calls
of `anam_trace_alloc`, `anam_trace_release` and `anam_trace_get` one thread makes, the
following `anam_trace_flush_thread` leaves the thread's file holding what it held, followed by
every recorded entry once, in recording order. -/
theorem anamTrace_flushThread_writes_recorded {n : Nat} (hn : 3 ≤ n) (hn' : n < 32)
    (files₀ : Nat → List AnamTraceEntry) (calls : List (TraceCall × Nat)) :
    (anamTraceFlushThread
        (traceCalls calls (anamTraceInit (2 ^ n) (traceStart files₀)))).files 0 =
      files₀ 0 ++ recordedEntries 0 calls := by
  cases calls with
  | nil => simp [anamTraceInit_traceStart, traceCalls, anamTraceFlushThread, recordedEntries]
  | cons c cs =>
    obtain ⟨buf₀, h₀, htid₀, hp₀, -, hfirst⟩ := traceCalls_init n files₀ c cs
    obtain ⟨buf', hs', h', htid, heq⟩ := traceCalls_ring hn hn' (c :: cs)
      ⟨⟨2 ^ n, 1, true⟩, some buf₀, files₀⟩ buf₀ rfl h₀
    rw [htid₀] at heq
    simp only [hfirst, h'.flushThread hn hn' hs', htid, htid₀, Function.update_same]
    rw [heq, hp₀, List.append_nil]

/-- A ring of 8 and one `anam_trace_release` after earlier output. -/
theorem anamTrace_flushThread_writes_recorded_ring8 :
    3 ≤ 3 ∧ 3 < 32 ∧
      (anamTraceFlushThread (traceCalls [(.release 5 1, 100)]
          (anamTraceInit (2 ^ 3) (traceStart fun _ => [AnamTraceEntry.zero])))).files 0 =
        [AnamTraceEntry.zero] ++ recordedEntries 0 [(.release 5 1, 100)] :=
  ⟨by decide, by decide, anamTrace_flushThread_writes_recorded (by decide) (by decide) _ _⟩

/-- Nine records on a ring of 8: the seventh flushes, and the file ends with all nine. -/
example :
    let calls := (List.range 9).map fun i => (TraceCall.alloc i 0, i)
    (anamTraceFlushThread (traceCalls calls (anamTraceInit 8 (traceStart fun _ => [])))).files 0 =
      recordedEntries 0 calls := by
  decide

/-! ## What `anam_trace_get_stats` reports -/

/-- `anam_trace_buffer_flush` leaves `entries_written` and `active` alone. -/
theorem anamTraceBufferFlush_counters (buf : AnamTraceBuffer) (files : Nat → List AnamTraceEntry) :
    (anamTraceBufferFlush buf files).1.entriesWritten = buf.entriesWritten ∧
      (anamTraceBufferFlush buf files).1.active = buf.active := by
  simp only [anamTraceBufferFlush]
  split_ifs <;> exact ⟨rfl, rfl⟩

/-- Each record counts one entry in `entries_written`, modulo `2^64`, and keeps the ring
active. -/
theorem traceRecordInto_counters (buf : AnamTraceBuffer) (files : Nat → List AnamTraceEntry)
    (opType slotIndex generation timestamp : Nat) :
    (traceRecordInto buf files opType slotIndex generation timestamp).1.entriesWritten =
        (buf.entriesWritten + 1) % 2 ^ 64 ∧
      (traceRecordInto buf files opType slotIndex generation timestamp).1.active = buf.active := by
  simp only [traceRecordInto]
  split_ifs <;> simp only [anamTraceBufferFlush_counters] <;> exact ⟨rfl, rfl⟩

/-- Along any calls, a thread with an active ring counts every call in the `uint64_t`
`entries_written`. -/
theorem traceCalls_entriesWritten :
    ∀ (calls : List (TraceCall × Nat)) (s : TraceState) (buf : AnamTraceBuffer),
      s.tlsBuffer = some buf → buf.active = true → buf.entriesWritten < 2 ^ 64 →
      ∃ buf', (traceCalls calls s).tlsBuffer = some buf' ∧
        buf'.entriesWritten = (buf.entriesWritten + calls.length) % 2 ^ 64
  | [], _, buf, hs, _, hlt => ⟨buf, hs, (Nat.mod_eq_of_lt hlt).symm⟩
  | (c, ts) :: cs, s, buf, hs, ha, _ => by
    obtain ⟨hw, ha'⟩ := traceRecordInto_counters buf s.files c.opType c.slotIndex c.generation ts
    obtain ⟨buf', hs', hw'⟩ := traceCalls_entriesWritten cs (c.run ts s) _
      (by rw [TraceCall.run_of_active hs ha]) (ha'.trans ha) (hw ▸ Nat.mod_lt _ (by decide))
    refine ⟨buf', hs', ?_⟩
    rw [hw', hw, List.length_cons]
    omega

/-- For every capacity `2^n` from 8 to `2^31` that `anam_trace_init` accepts, after any
records by one thread, `anam_trace_get_stats` succeeds and reports every record in
`entries_written`, modulo `2^64`, and no overflow: the flush at three quarters always comes
before the ring fills, so the overflow branch of `anam_trace_record` never runs. -/
theorem anamTrace_getStats_no_overflow {n : Nat} (hn : 3 ≤ n) (hn' : n < 32)
    (files₀ : Nat → List AnamTraceEntry) (calls : List (TraceCall × Nat)) (hc : calls ≠ []) :
    anamTraceGetStats (traceCalls calls (anamTraceInit (2 ^ n) (traceStart files₀))) =
      some (calls.length % 2 ^ 64, 0) := by
  obtain ⟨c, cs, rfl⟩ := List.exists_cons_of_ne_nil hc
  obtain ⟨buf₀, h₀, -, -, hw₀, hfirst⟩ := traceCalls_init n files₀ c cs
  obtain ⟨buf', hs', h', -⟩ := traceCalls_ring hn hn' (c :: cs)
    ⟨⟨2 ^ n, 1, true⟩, some buf₀, files₀⟩ buf₀ rfl h₀
  obtain ⟨buf'', hs'', hw''⟩ := traceCalls_entriesWritten (c :: cs)
    ⟨⟨2 ^ n, 1, true⟩, some buf₀, files₀⟩ buf₀ rfl h₀.active (hw₀ ▸ by decide)
  obtain rfl : buf' = buf'' := Option.some.inj (hs'.symm.trans hs'')
  rw [hfirst, anamTraceGetStats, hs', Option.map_some', hw'', hw₀, Nat.zero_add, h'.overflow]

/-- Nine records on a ring of 8, one of which flushes. -/
theorem anamTrace_getStats_no_overflow_ring8 :
    3 ≤ 3 ∧ 3 < 32 ∧ (List.range 9).map (fun i => (TraceCall.alloc i 0, i)) ≠ [] ∧
      anamTraceGetStats (traceCalls ((List.range 9).map fun i => (TraceCall.alloc i 0, i))
          (anamTraceInit (2 ^ 3) (traceStart fun _ => []))) = some (9 % 2 ^ 64, 0) :=
  ⟨by decide, by decide, by decide,
    anamTrace_getStats_no_overflow (by decide) (by decide) _ _ (by decide)⟩

/-! ## Small rings -/

/-- With a capacity of 1, 2 or 4, the masked occupancy never exceeds `capacity * 3 / 4`, so
no record flushes: after `capacity + 1` calls of `anam_trace_alloc` the ring has wrapped, and
`anam_trace_flush_thread` appends the last entry alone. -/
theorem anamTrace_small_ring_keeps_last :
    ∀ n : Fin 3,
      (anamTraceFlushThread (traceCalls ((List.range (2 ^ (n : Nat) + 1)).map fun i =>
          (TraceCall.alloc i 0, i)) (anamTraceInit (2 ^ (n : Nat)) (traceStart fun _ => [])))).files
          0 = [⟨2 ^ (n : Nat), 2 ^ (n : Nat), 0, anamTraceOpAlloc, 0⟩] ∧
      recordedEntries 0 ((List.range (2 ^ (n : Nat) + 1)).map fun i => (TraceCall.alloc i 0, i)) ≠
        [⟨2 ^ (n : Nat), 2 ^ (n : Nat), 0, anamTraceOpAlloc, 0⟩] := by
  decide

end Anamnesis

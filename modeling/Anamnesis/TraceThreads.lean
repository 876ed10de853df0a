import Mathlib.Data.List.Nodup
import Anamnesis.Trace

/-!
# The trace files of many threads

Each thread records into its own `tls_buffer`; the threads share `g_trace_ctx` and the trace
directory. A thread's first record creates its ring, numbered by the `atomic_fetch_add` on
`next_thread_id` in `anam_trace_buffer_create`, and each flush of the ring appends to the file
`trace_thread_NNN.bin` of that number. The only shared variables a call writes are
`next_thread_id`, in one atomic step, and the file of its own ring's number, so each call is
one step of the process (`TraceSys.act`), interleaved in any order with the calls of the other
threads.

While at most 256 threads trace, the numbers are the threads' positions in the order of their
first records (`callers`), and they fit the `uint8_t` `thread_id`. Then, however the threads
interleave, the file of each thread that has flushed holds exactly the entries that thread
recorded, in its own order, and no other file is touched (`anamTrace_threads_own_files`). The
invariant `ThreadsOk` says so of a thread's file followed by its ring at every point of the
schedule. A thread must not record after its own `anam_trace_flush_thread`, as the header asks
of worker threads before they exit: such a record would start a ring under a new number.
-/

namespace Anamnesis

/-! ## Several threads -/

/-- What the threads share, `g_trace_ctx` and the trace files, and each thread's
`tls_buffer`. -/
structure TraceSys where
  ctx : AnamTraceContext
  tls : Nat → Option AnamTraceBuffer
  files : Nat → List AnamTraceEntry

/-- One scheduling decision: thread `t` makes a recording call at time `timestamp`, or calls
`anam_trace_flush_thread`. -/
inductive TraceEvent
  | call (t : Nat) (c : TraceCall) (timestamp : Nat)
  | flush (t : Nat)
deriving DecidableEq, Repr

/-- Thread `t` runs `f` on its view of the process. -/
def TraceSys.exec (S : TraceSys) (t : Nat) (f : TraceState → TraceState) : TraceSys :=
  let s := f ⟨S.ctx, S.tls t, S.files⟩
  ⟨s.ctx, Function.update S.tls t s.tlsBuffer, s.files⟩

def TraceSys.act (S : TraceSys) : TraceEvent → TraceSys
  | .call t c ts => S.exec t (c.run ts)
  | .flush t => S.exec t anamTraceFlushThread

/-- A schedule, run from left to right. -/
def TraceSys.run (S : TraceSys) (evs : List TraceEvent) : TraceSys :=
  evs.foldl TraceSys.act S

/-- The process after `anam_trace_init(dir, bufferSize)`, before any thread records. -/
def traceSysStart (bufferSize : Nat) (files : Nat → List AnamTraceEntry) : TraceSys :=
  let s := anamTraceInit bufferSize (traceStart files)
  ⟨s.ctx, fun _ => none, s.files⟩

/-- The unflushed entries of thread `t`'s ring, if it has one. -/
def TraceSys.pendingOf (S : TraceSys) (t : Nat) : List AnamTraceEntry :=
  match S.tls t with
  | some buf => buf.pending
  | none => []

/-! ## What each thread recorded -/

/-- `known`, followed by the threads of `evs` that record and are not in it, in the order of
their first records. -/
def newCallers (known : List Nat) : List TraceEvent → List Nat
  | [] => known
  | .call t _ _ :: evs => newCallers (if t ∈ known then known else known ++ [t]) evs
  | .flush _ :: evs => newCallers known evs

/-- The threads that record along `evs`, in the order of their first records. -/
def callers (evs : List TraceEvent) : List Nat := newCallers [] evs

/-- The calls thread `t` makes along `evs`, in order, with their timestamps. -/
def callsOf (t : Nat) : List TraceEvent → List (TraceCall × Nat)
  | [] => []
  | .call t' c ts :: evs => if t' = t then (c, ts) :: callsOf t evs else callsOf t evs
  | .flush _ :: evs => callsOf t evs

/-- The thread of a recording call. -/
def TraceEvent.caller : TraceEvent → Option Nat
  | .call t _ _ => some t
  | .flush _ => none

/-- No thread records after its own `anam_trace_flush_thread`. -/
def noCallAfterFlush : List TraceEvent → Bool
  | [] => true
  | .call _ _ _ :: evs => noCallAfterFlush evs
  | .flush t :: evs => evs.all (fun e => e.caller != some t) && noCallAfterFlush evs

theorem newCallers_append (known : List Nat) (xs ys : List TraceEvent) :
    newCallers known (xs ++ ys) = newCallers (newCallers known xs) ys := by
  induction xs generalizing known with
  | nil => rfl
  | cons e xs ih => cases e <;> exact ih _

theorem callsOf_append (t : Nat) (xs ys : List TraceEvent) :
    callsOf t (xs ++ ys) = callsOf t xs ++ callsOf t ys := by
  induction xs with
  | nil => rfl
  | cons e xs ih =>
    cases e with
    | call t' c ts => by_cases h : t' = t <;> simp [callsOf, h, ih]
    | flush _ => exact ih

theorem callers_append_call (pre : List TraceEvent) (t : Nat) (c : TraceCall) (ts : Nat) :
    callers (pre ++ [.call t c ts]) =
      if t ∈ callers pre then callers pre else callers pre ++ [t] :=
  newCallers_append [] pre _

theorem callers_append_flush (pre : List TraceEvent) (t : Nat) :
    callers (pre ++ [.flush t]) = callers pre :=
  newCallers_append [] pre _

theorem newCallers_nodup : ∀ (evs : List TraceEvent) {known : List Nat}, known.Nodup →
    (newCallers known evs).Nodup
  | [], _, h => h
  | .call t _ _ :: evs, known, h => newCallers_nodup evs (by
      split_ifs with ht
      · exact h
      · exact List.nodup_append.mpr ⟨h, List.nodup_singleton t,
          List.disjoint_singleton.mpr ht⟩)
  | .flush _ :: evs, _, h => newCallers_nodup evs h

theorem sublist_newCallers : ∀ (evs : List TraceEvent) (known : List Nat),
    List.Sublist known (newCallers known evs)
  | [], _ => List.Sublist.refl _
  | .call t _ _ :: evs, known => by
    refine List.Sublist.trans ?_ (sublist_newCallers evs _)
    split_ifs
    · exact List.Sublist.refl _
    · exact List.sublist_append_left _ _
  | .flush _ :: evs, known => sublist_newCallers evs known

/-- A thread that made a call is among the callers. -/
theorem callsOf_eq_nil : ∀ (evs : List TraceEvent) {known : List Nat} {t : Nat},
    t ∉ newCallers known evs → callsOf t evs = []
  | [], _, _, _ => rfl
  | .call t' c ts :: evs, known, t, h => by
    have hrest := callsOf_eq_nil evs h
    by_cases ht : t' = t
    · subst ht
      refine absurd ((sublist_newCallers evs _).subset ?_) h
      split_ifs with hk
      · exact hk
      · exact List.mem_append_right _ (List.mem_singleton_self _)
    · simp only [callsOf, if_neg ht, hrest]
  | .flush _ :: evs, _, _, h => callsOf_eq_nil evs h

/-- What the schedule asks of its prefix and its rest. -/
theorem noCallAfterFlush_append : ∀ (xs ys : List TraceEvent),
    noCallAfterFlush (xs ++ ys) = true →
      (∀ t, TraceEvent.flush t ∈ xs → ∀ e ∈ ys, e.caller ≠ some t) ∧ noCallAfterFlush ys = true
  | [], _, h => ⟨fun _ ht => absurd ht (List.not_mem_nil _), h⟩
  | .call _ _ _ :: xs, ys, h => by
    obtain ⟨h₁, h₂⟩ := noCallAfterFlush_append xs ys h
    refine ⟨fun t ht => h₁ t ?_, h₂⟩
    simpa using ht
  | .flush t' :: xs, ys, h => by
    simp only [noCallAfterFlush, List.cons_append, Bool.and_eq_true, List.all_eq_true,
      bne_iff_ne, ne_eq] at h
    obtain ⟨h₁, h₂⟩ := noCallAfterFlush_append xs ys h.2
    refine ⟨fun t ht e he => ?_, h₂⟩
    rcases List.mem_cons.mp ht with ht | ht
    · cases ht
      exact h.1 e (List.mem_append_right _ he)
    · exact h₁ t ht e he

/-! ## The invariant -/

@[simp] theorem TraceSys.exec_ctx (S : TraceSys) (t : Nat) (f : TraceState → TraceState) :
    (S.exec t f).ctx = (f ⟨S.ctx, S.tls t, S.files⟩).ctx := rfl

@[simp] theorem TraceSys.exec_files (S : TraceSys) (t : Nat) (f : TraceState → TraceState) :
    (S.exec t f).files = (f ⟨S.ctx, S.tls t, S.files⟩).files := rfl

@[simp] theorem TraceSys.exec_tls_self (S : TraceSys) (t : Nat) (f : TraceState → TraceState) :
    (S.exec t f).tls t = (f ⟨S.ctx, S.tls t, S.files⟩).tlsBuffer :=
  Function.update_same _ _ _

theorem TraceSys.exec_tls_ne (S : TraceSys) {t u : Nat} (f : TraceState → TraceState)
    (h : u ≠ t) : (S.exec t f).tls u = S.tls u :=
  Function.update_noteq h _ _

theorem TraceSys.pendingOf_some {S : TraceSys} {t : Nat} {buf : AnamTraceBuffer}
    (h : S.tls t = some buf) : S.pendingOf t = buf.pending := by
  rw [TraceSys.pendingOf, h]

@[simp] theorem recordedEntries_append_single (tid : Nat) (cs : List (TraceCall × Nat))
    (c : TraceCall) (ts : Nat) :
    recordedEntries tid (cs ++ [(c, ts)]) = recordedEntries tid cs ++ [c.entry ts tid] := by
  simp [recordedEntries]

/-- Along a schedule `pre` from `traceSysStart (2 ^ n) files₀`, whose threads are `known` in
the order of their first records: every thread that has recorded owns the ring and the file
numbered by its position in `known`, and its file followed by its ring holds what the file
held, followed by everything the thread recorded. -/
structure ThreadsOk (n : Nat) (files₀ : Nat → List AnamTraceEntry) (known : List Nat)
    (pre : List TraceEvent) (S : TraceSys) : Prop where
  ctx : S.ctx = ⟨2 ^ n, known.length, true⟩
  idle : ∀ t ∉ known, S.tls t = none
  ring : ∀ t buf, S.tls t = some buf → RingOk n buf ∧ buf.threadId = known.indexOf t
  /-- A thread that has recorded has dropped its ring exactly when it has flushed. -/
  none_iff : ∀ t ∈ known, S.tls t = none ↔ TraceEvent.flush t ∈ pre
  file : ∀ t ∈ known,
    S.files (known.indexOf t) ++ S.pendingOf t =
      files₀ (known.indexOf t) ++ recordedEntries (known.indexOf t) (callsOf t pre)
  untouched : ∀ k, known.length ≤ k → S.files k = files₀ k

theorem ThreadsOk.start (n : Nat) (files₀ : Nat → List AnamTraceEntry) :
    ThreadsOk n files₀ [] [] (traceSysStart (2 ^ n) files₀) := by
  refine ⟨?_, fun _ _ => rfl, fun _ _ h => (by cases h), fun _ h => absurd h (List.not_mem_nil _),
    fun _ h => absurd h (List.not_mem_nil _), fun _ _ => ?_⟩ <;>
    simp only [traceSysStart, anamTraceInit_traceStart, List.length_nil]

section Frame

variable {n : Nat} {files₀ : Nat → List AnamTraceEntry} {known : List Nat}
  {pre : List TraceEvent} {S : TraceSys} (hS : ThreadsOk n files₀ known pre S)
include hS

theorem ThreadsOk.mem_of_tls {t : Nat} {buf : AnamTraceBuffer} (h : S.tls t = some buf) :
    t ∈ known := by
  by_contra ht
  rw [hS.idle t ht] at h
  cases h

/-- A step of thread `t` keeps the invariant when it keeps the other threads' rings, calls and
flushes and every file but `t`'s own, numbers no thread but `t` anew, and re-establishes what
the invariant says of `t`. -/
theorem ThreadsOk.frame {t : Nat} {known' : List Nat} {pre' : List TraceEvent} {S' : TraceSys}
    (hsub : ∀ u ∈ known, u ∈ known' ∧ known'.indexOf u = known.indexOf u)
    (hnew : ∀ u ∈ known', u ≠ t → u ∈ known) (hlen : known.length ≤ known'.length)
    (ht : t ∈ known') (hctx : S'.ctx = ⟨2 ^ n, known'.length, true⟩)
    (htls : ∀ u, u ≠ t → S'.tls u = S.tls u)
    (hfiles : ∀ k, k ≠ known'.indexOf t → S'.files k = S.files k)
    (hcalls : ∀ u, u ≠ t → callsOf u pre' = callsOf u pre)
    (hflush : ∀ u, u ≠ t → (TraceEvent.flush u ∈ pre' ↔ TraceEvent.flush u ∈ pre))
    (hring : ∀ buf, S'.tls t = some buf → RingOk n buf ∧ buf.threadId = known'.indexOf t)
    (hnone : S'.tls t = none ↔ TraceEvent.flush t ∈ pre')
    (hfile : S'.files (known'.indexOf t) ++ S'.pendingOf t =
      files₀ (known'.indexOf t) ++ recordedEntries (known'.indexOf t) (callsOf t pre')) :
    ThreadsOk n files₀ known' pre' S' := by
  have hpend : ∀ u, u ≠ t → S'.pendingOf u = S.pendingOf u := fun u h => by
    simp only [TraceSys.pendingOf, htls u h]
  refine ⟨hctx, fun u hu => ?_, fun u b hb => ?_, fun u hu => ?_, fun u hu => ?_, fun k hk => ?_⟩
  · have hne : u ≠ t := fun h => hu (h ▸ ht)
    rw [htls u hne]
    exact hS.idle u fun h => hu (hsub u h).1
  · by_cases h : u = t
    · subst h
      exact hring b hb
    · rw [htls u h] at hb
      exact ⟨(hS.ring u b hb).1, (hS.ring u b hb).2.trans (hsub u (hS.mem_of_tls hb)).2.symm⟩
  · by_cases h : u = t
    · subst h
      exact hnone
    · rw [htls u h, hflush u h]
      exact hS.none_iff u (hnew u hu h)
  · by_cases h : u = t
    · subst h
      exact hfile
    · have hu' := hnew u hu h
      rw [hfiles _ fun he => h ((List.indexOf_inj hu ht).mp he), hpend u h, hcalls u h,
        (hsub u hu').2]
      exact hS.file u hu'
  · have hlt := List.indexOf_lt_length.mpr ht
    rw [hfiles k (by omega), hS.untouched k (by omega)]

/-- A flush by a thread without a ring changes nothing. -/
theorem ThreadsOk.flush_idle {t : Nat} (hb : S.tls t = none) :
    ThreadsOk n files₀ known (pre ++ [.flush t]) S := by
  refine ⟨hS.ctx, hS.idle, hS.ring, fun u hu => ?_, fun u hu => ?_, hS.untouched⟩
  · by_cases h : u = t
    · subst h
      simp [hb]
    · rw [hS.none_iff u hu]
      simp [h]
  · simp only [callsOf_append, callsOf, List.append_nil]
    exact hS.file u hu

end Frame

section Steps

variable {n : Nat} (hn : 3 ≤ n) (hn' : n < 32) {files₀ : Nat → List AnamTraceEntry}
include hn hn'

/-- A record by thread `t` into a ring numbered by its position in `known'`, whose file followed
by the ring held the thread's earlier entries. -/
theorem ThreadsOk.recordInto {known known' : List Nat} {pre : List TraceEvent} {S : TraceSys}
    (hS : ThreadsOk n files₀ known pre S) {t : Nat}
    (hsub : ∀ u ∈ known, u ∈ known' ∧ known'.indexOf u = known.indexOf u)
    (hnew : ∀ u ∈ known', u ≠ t → u ∈ known) (hlen : known.length ≤ known'.length)
    (ht : t ∈ known') (hf : TraceEvent.flush t ∉ pre) {buf : AnamTraceBuffer}
    (hr : RingOk n buf) (hid : buf.threadId = known'.indexOf t)
    (hold : S.files buf.threadId ++ buf.pending =
      files₀ buf.threadId ++ recordedEntries buf.threadId (callsOf t pre))
    (c : TraceCall) (ts : Nat)
    (hrun : c.run ts ⟨S.ctx, S.tls t, S.files⟩ = ⟨⟨2 ^ n, known'.length, true⟩,
      some (traceRecordInto buf S.files c.opType c.slotIndex c.generation ts).1,
      (traceRecordInto buf S.files c.opType c.slotIndex c.generation ts).2⟩) :
    ThreadsOk n files₀ known' (pre ++ [.call t c ts]) (S.act (.call t c ts)) := by
  obtain ⟨hr', hid', heq⟩ := hr.record hn hn' S.files c.opType c.slotIndex c.generation ts
  refine hS.frame hsub hnew hlen ht (by simp [TraceSys.act, hrun])
    (fun u h => TraceSys.exec_tls_ne _ _ h) (fun k hk => ?_) (fun u h => ?_) (fun u _ => by simp)
    (fun b hb' => ?_) (by simpa [TraceSys.act, hrun] using hf) ?_
  · simp only [TraceSys.act, TraceSys.exec_files, hrun]
    exact traceRecordInto_files_ne (hid ▸ hk) _ _ _ _
  · simp [callsOf_append, callsOf, Ne.symm h]
  · simp only [TraceSys.act, TraceSys.exec_tls_self, hrun, Option.some.injEq] at hb'
    exact hb' ▸ ⟨hr', hid'.trans hid⟩
  · simp only [TraceSys.act, TraceSys.exec_files, TraceSys.pendingOf, TraceSys.exec_tls_self,
      hrun, callsOf_append, callsOf, if_true, recordedEntries_append_single]
    rw [← hid, heq, hold, List.append_assoc]
    rfl

variable {pre : List TraceEvent} {S : TraceSys} (hS : ThreadsOk n files₀ (callers pre) pre S)
include hS

/-- A record by a thread that owns a ring. -/
theorem ThreadsOk.record {t : Nat} {buf : AnamTraceBuffer} (hb : S.tls t = some buf)
    (hf : TraceEvent.flush t ∉ pre) (c : TraceCall) (ts : Nat) :
    ThreadsOk n files₀ (callers (pre ++ [.call t c ts])) (pre ++ [.call t c ts])
      (S.act (.call t c ts)) := by
  have ht := hS.mem_of_tls hb
  obtain ⟨hr, hid⟩ := hS.ring t buf hb
  have hold := hS.file t ht
  rw [TraceSys.pendingOf_some hb, ← hid] at hold
  rw [callers_append_call, if_pos ht]
  exact hS.recordInto hn hn' (fun u hu => ⟨hu, rfl⟩) (fun u hu _ => hu) le_rfl ht hf hr hid hold
    c ts (by rw [← hS.ctx]; exact TraceCall.run_of_active hb hr.active c ts)

/-- The first record of a thread creates its ring under the next number. -/
theorem ThreadsOk.first {t : Nat} (ht : t ∉ callers pre) (hf : TraceEvent.flush t ∉ pre)
    (hlen : (callers pre).length < 2 ^ 8) (c : TraceCall) (ts : Nat) :
    ThreadsOk n files₀ (callers (pre ++ [.call t c ts])) (pre ++ [.call t c ts])
      (S.act (.call t c ts)) := by
  obtain ⟨buf₀, hget, h₀, hid₀, hp₀, -⟩ :=
    anamTraceGetBuffer_fresh n (callers pre).length hlen S.files
  have hidx : (callers pre ++ [t]).indexOf t = (callers pre).length := by
    rw [List.indexOf_append_of_not_mem ht, List.indexOf_cons_self, Nat.add_zero]
  have hold : S.files buf₀.threadId ++ buf₀.pending =
      files₀ buf₀.threadId ++ recordedEntries buf₀.threadId (callsOf t pre) := by
    rw [hp₀, callsOf_eq_nil pre ht, hid₀, hS.untouched _ le_rfl]
    rfl
  rw [callers_append_call, if_neg ht]
  refine hS.recordInto hn hn' (fun u hu => ⟨List.mem_append_left _ hu, List.indexOf_append_of_mem hu⟩)
    (fun u hu h => (List.mem_append.mp hu).resolve_right fun h' => h (List.mem_singleton.mp h'))
    (by simp) (by simp) hf h₀ (hid₀.trans hidx.symm) hold c ts ?_
  rw [hS.ctx, hS.idle t ht, TraceCall.run_of_getBuffer hget rfl h₀.active c ts]
  simp

/-- A flush by a thread that owns a ring appends the ring to the thread's file. -/
theorem ThreadsOk.flush {t : Nat} {buf : AnamTraceBuffer} (hb : S.tls t = some buf) :
    ThreadsOk n files₀ (callers (pre ++ [.flush t])) (pre ++ [.flush t]) (S.act (.flush t)) := by
  have ht := hS.mem_of_tls hb
  obtain ⟨hr, hid⟩ := hS.ring t buf hb
  have hrun : anamTraceFlushThread ⟨S.ctx, S.tls t, S.files⟩ = ⟨S.ctx, none,
      Function.update S.files buf.threadId (S.files buf.threadId ++ buf.pending)⟩ :=
    hr.flushThread hn hn' hb
  have hold := hS.file t ht
  rw [TraceSys.pendingOf_some hb, ← hid] at hold
  have hcalls : ∀ u, callsOf u (pre ++ [.flush t]) = callsOf u pre := fun u => by
    simp only [callsOf_append, callsOf, List.append_nil]
  rw [callers_append_flush]
  refine hS.frame (t := t) (fun u hu => ⟨hu, rfl⟩) (fun u hu _ => hu) le_rfl ht
    (by simp only [TraceSys.act, TraceSys.exec_ctx, hrun]; exact hS.ctx)
    (fun u h => TraceSys.exec_tls_ne _ _ h) (fun k hk => ?_) (fun u _ => hcalls u)
    (fun u h => by simp [h]) (fun b hb' => ?_) (by simp [TraceSys.act, hrun]) ?_
  · simp only [TraceSys.act, TraceSys.exec_files, hrun]
    exact Function.update_noteq (hid ▸ hk) _ _
  · simp [TraceSys.act, hrun] at hb'
  · simp only [TraceSys.act, TraceSys.exec_files, TraceSys.pendingOf, TraceSys.exec_tls_self,
      hrun, hcalls, List.append_nil]
    rw [← hid, Function.update_same, hold]

/-- Every scheduling decision of a schedule that records after no flush of its own thread, with
at most 256 threads, keeps the invariant. -/
theorem ThreadsOk.act {e : TraceEvent} (hcall : ∀ t, e.caller = some t → TraceEvent.flush t ∉ pre)
    (hlen : (callers (pre ++ [e])).length ≤ 2 ^ 8) :
    ThreadsOk n files₀ (callers (pre ++ [e])) (pre ++ [e]) (S.act e) := by
  cases e with
  | call t c ts =>
    have hf := hcall t rfl
    by_cases ht : t ∈ callers pre
    · cases hb : S.tls t with
      | none => exact absurd ((hS.none_iff t ht).mp hb) hf
      | some buf => exact hS.record hn hn' hb hf c ts
    · rw [callers_append_call, if_neg ht, List.length_append, List.length_singleton] at hlen
      exact hS.first hn hn' ht hf hlen c ts
  | flush t =>
    cases hb : S.tls t with
    | none =>
      have hS' : S.act (.flush t) = S := by
        simp only [TraceSys.act, TraceSys.exec, anamTraceFlushThread, hb]
        rw [← hb, Function.update_eq_self]
      rw [callers_append_flush, hS']
      exact hS.flush_idle hb
    | some buf => exact hS.flush hn hn' hb

end Steps

/-- The invariant along a whole schedule. -/
theorem ThreadsOk.run {n : Nat} (hn : 3 ≤ n) (hn' : n < 32) {files₀ : Nat → List AnamTraceEntry} :
    ∀ (evs : List TraceEvent) {pre : List TraceEvent} {S : TraceSys},
      ThreadsOk n files₀ (callers pre) pre S → noCallAfterFlush (pre ++ evs) = true →
      (callers (pre ++ evs)).length ≤ 2 ^ 8 →
      ThreadsOk n files₀ (callers (pre ++ evs)) (pre ++ evs) (S.run evs)
  | [], _, _, hS, _, _ => by simpa [TraceSys.run] using hS
  | e :: es, pre, S, hS, hsched, hlen => by
    have hsched' : noCallAfterFlush ((pre ++ [e]) ++ es) = true := by simpa using hsched
    have hlen' : (callers ((pre ++ [e]) ++ es)).length ≤ 2 ^ 8 := by simpa using hlen
    have hcall : ∀ t, e.caller = some t → TraceEvent.flush t ∉ pre := fun t he hf =>
      (noCallAfterFlush_append pre (e :: es) hsched).1 t hf e (List.mem_cons_self _ _) he
    have hstep := hS.act hn hn' hcall (le_trans (by
      rw [callers, callers, newCallers_append _ (pre ++ [e])]
      exact (sublist_newCallers es _).length_le) hlen')
    simpa [TraceSys.run] using ThreadsOk.run hn hn' es hstep hsched' hlen'

/-! ## Every thread's file holds its own entries -/

/-- For every ring capacity `2^n` from 8 to `2^31` that `anam_trace_init` accepts and every
interleaving of recording calls and `anam_trace_flush_thread` calls of at most 256 threads, none
of which records after its own flush: the file numbered by a thread's position in the order of
first records holds, once that thread has flushed, what it held before followed by exactly the
entries that thread recorded, in its order; and no file beyond those numbers is touched. -/
theorem anamTrace_threads_own_files {n : Nat} (hn : 3 ≤ n) (hn' : n < 32)
    (files₀ : Nat → List AnamTraceEntry) (evs : List TraceEvent)
    (hsched : noCallAfterFlush evs = true) (hthreads : (callers evs).length ≤ 2 ^ 8) :
    (∀ t ∈ callers evs, TraceEvent.flush t ∈ evs →
      ((traceSysStart (2 ^ n) files₀).run evs).files ((callers evs).indexOf t) =
        files₀ ((callers evs).indexOf t) ++
          recordedEntries ((callers evs).indexOf t) (callsOf t evs)) ∧
      ∀ k, (callers evs).length ≤ k → ((traceSysStart (2 ^ n) files₀).run evs).files k = files₀ k := by
  have hS := @ThreadsOk.run n hn hn' files₀ evs [] _ (ThreadsOk.start n files₀) hsched hthreads
  simp only [List.nil_append] at hS
  refine ⟨fun t ht hf => ?_, hS.untouched⟩
  have h := hS.file t ht
  rwa [TraceSys.pendingOf, (hS.none_iff t ht).mpr hf, List.append_nil] at h

/-- Two threads interleave their records; the second flushes first. -/
def twoThreads : List TraceEvent :=
  [.call 7 (.alloc 0 0) 10, .call 9 (.alloc 1 0) 11, .call 7 (.release 0 0) 12, .flush 9,
    .call 7 (.get 0 1 false) 13, .flush 7]

theorem anamTrace_threads_own_files_two :
    3 ≤ 3 ∧ 3 < 32 ∧ noCallAfterFlush twoThreads = true ∧ (callers twoThreads).length ≤ 2 ^ 8 ∧
      7 ∈ callers twoThreads ∧ TraceEvent.flush 7 ∈ twoThreads ∧
      ((traceSysStart (2 ^ 3) fun _ => []).run twoThreads).files ((callers twoThreads).indexOf 7) =
        [] ++ recordedEntries ((callers twoThreads).indexOf 7) (callsOf 7 twoThreads) :=
  ⟨by decide, by decide, by decide, by decide, by decide, by decide,
    (anamTrace_threads_own_files (by decide) (by decide) (fun _ => []) twoThreads (by decide)
      (by decide)).1 7 (by decide) (by decide)⟩

end Anamnesis

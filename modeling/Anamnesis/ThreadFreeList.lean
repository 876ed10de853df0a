import Anamnesis.Thread

/-!
# The free list under any interleaving

Threads call `anam_alloc`, `anam_release`, `anam_get` and `anam_validate` on one pool, and
the scheduler interleaves their atomic steps (`Anamnesis.Thread`) in any order, under the
hypotheses the pool states for its clients:

* a call passes only `ANAM_NULL` or a handle that `anam_alloc` returned;
* no release of a handle starts while another release of the same handle is in progress;
* no value is compared after its slot has been released `2^16` or more times since it was
  taken: the `free_head` value an `anam_alloc` compare-exchanges, since the thread loaded
  it, and the handle whose generation `anam_release` checks, since `anam_alloc` returned it.
  For `anam_get` the same bound is a hypothesis of what its check returns, not of the run.

`GSys` pairs the threads with a ghost record: the free list as slot indices, the number of
generation stores of each slot (its unbounded generation), who holds each slot, the
`free_head` value each allocating thread loaded, and the handles returned so far. `RInv` ties
the record to the pool and to every thread's locals. Its heart is the compare-exchange of
`anam_alloc`: a thread that loaded `free_head` naming slot `j` at release count `c`, and
then `j`'s `next`, holds the right `next` for as long as `j` is on the list at count `c`;
and by the third hypothesis, `free_head` equals the loaded value only while `j` is on top
at count `c` (`RInv.cas_top`). Pushes need no hypothesis: a release compare-exchanges from
a value it linked its own slot to.

Each step that hands a slot to a new owner has its own lemma (`RInv.exec_allocCas`,
`RInv.exec_allocCount`, `RInv.exec_releaseStoreGen`, `RInv.exec_releaseCas`); every other
step only moves the thread (`RInv.local_step`). `RInv.reach` carries the invariant along any
allowed run, and `freeList_interleaved` reads the free list and the handles off it.
`GSys.act_sys` shows that the ghost record never changes what the threads do.

A release counts as done once it has stored the next generation: from then on the handle is
refused and the slot belongs to the releasing thread until it is pushed.
-/

namespace Anamnesis

/-- Who holds a slot. -/
inductive Owner
  | free
  /-- Thread `t`'s `anam_alloc` took the slot off the list and has not finished. -/
  | popped (t : Nat)
  /-- A handle `anam_alloc` returned names the slot, and no release of it has stored the
  next generation. -/
  | live
  /-- Thread `t`'s `anam_release` stored the next generation and has not pushed the slot. -/
  | pushed (t : Nat)
deriving DecidableEq, Repr

/-- The slot an allocating thread holds after its compare-exchange. -/
def Pc.popSlot : Pc → Option Nat
  | .allocLoadGen u | .allocLoadMax u _ | .allocBumpMax u _ _ | .allocClearNext u _
  | .allocSlotsFree u _ | .allocCount u _ => some u
  | _ => none

/-- The slot a releasing thread is pushing. -/
def Pc.pushSlot : Pc → Option Nat
  | .releaseLoadHead u _ | .releaseLink u _ _ | .releaseCas u _ _ => some u
  | _ => none

/-- The handle a call passes; `ANAM_NULL` for `anam_alloc`. -/
def Call.handle : Call → Nat
  | .alloc => anamNull
  | .release h | .get h | .validate h => h

/-- The threads with the ghost record of their run. -/
structure GSys where
  sys : Sys
  /-- The call each thread is in, or made last. -/
  call : Nat → Call
  /-- The free list as slot indices, top first. -/
  free : List Nat
  /-- Generation stores of each slot so far: its unbounded generation. -/
  rel : Nat → Nat
  owner : Nat → Owner
  /-- The top slot and its release count when the thread last loaded `free_head` in
  `anam_alloc`. -/
  cap : Nat → Nat × Nat
  /-- Every handle `anam_alloc` returned, with its slot and the slot's release count then. -/
  issued : List (Nat × Nat × Nat)

/-- Every thread idle over a pool fresh from `anam_pool_create`. -/
def GSys.start (pool : AnamPool) : GSys where
  sys := Sys.start pool
  call := fun _ => .alloc
  free := List.range pool.layout.slotCount
  rel := fun _ => 0
  owner := fun _ => .free
  cap := fun _ => (0, 0)
  issued := []

/-- Thread `t`'s next atomic step, with its ghost effect. -/
def GSys.exec (g : GSys) (t : Nat) : GSys :=
  let pool := g.sys.pool
  let r := tstep pool (g.sys.pc t)
  let g' := { g with sys := ⟨r.1, Function.update g.sys.pc t r.2⟩ }
  match g.sys.pc t with
  | .allocLoadHead =>
    match g.free with
    | [] => g'
    | j :: _ => { g' with cap := Function.update g.cap t (j, g.rel j) }
  | .allocCas oldHead _ =>
    if pool.freeHead = oldHead then
      { g' with
        free := g.free.tail
        owner := Function.update g.owner (g.free.headD 0) (.popped t) }
    else g'
  | .allocCount u gen =>
    let i := slotIndex pool.layout u
    { g' with
      issued := (encodeHandle gen u stateLive, i, g.rel i) :: g.issued
      owner := Function.update g.owner i .live }
  | .releaseStoreGen u _ =>
    let i := slotIndex pool.layout u
    { g' with
      rel := Function.update g.rel i (g.rel i + 1)
      owner := Function.update g.owner i (.pushed t) }
  | .releaseCas u _ oldHead =>
    if pool.freeHead = oldHead then
      let i := slotIndex pool.layout u
      { g' with free := i :: g.free, owner := Function.update g.owner i .free }
    else g'
  | _ => g'

/-- One scheduling decision with its ghost effect. -/
def GSys.act (sv : Bool) (g : GSys) : Event → GSys
  | .call t c =>
    match g.sys.pc t with
    | .idle => { g with sys := g.sys.act sv (.call t c), call := Function.update g.call t c }
    | _ => g
  | .exec t => g.exec t
  | .ret t => { g with sys := g.sys.act sv (.ret t) }

/-- The clients' side of the contract, for one scheduling decision. -/
def GSys.Allowed (g : GSys) : Event → Prop
  | .call t c =>
    (c.handle = anamNull ∨ ∃ i k, (c.handle, i, k) ∈ g.issued) ∧
      ∀ h, c = .release h → ∀ t', t' ≠ t → g.sys.pc t' ≠ .idle →
        g.call t' ≠ .release h
  | .exec t =>
    match g.sys.pc t with
    | .allocCas _ _ => g.rel (g.cap t).1 < (g.cap t).2 + 2 ^ 16
    | .releaseLoadGen h => ∃ i k, (h, i, k) ∈ g.issued ∧ g.rel i < k + 2 ^ 16
    | _ => True
  | .ret _ => True

/-- The runs the contract allows, from a pool fresh from `anam_pool_create`. -/
inductive GReach (sv : Bool) (pool₀ : AnamPool) : GSys → Prop
  | init : GReach sv pool₀ (GSys.start pool₀)
  | step {g : GSys} {e : Event} : GReach sv pool₀ g → g.Allowed e →
      GReach sv pool₀ (g.act sv e)

/-! ## The invariant -/

/-- What a thread's locals say about the shared state, at each step it can stand at. -/
def ThreadOk (g : GSys) (t : Nat) : Prop :=
  match g.sys.pc t with
  | .allocLoadNext oldHead =>
    oldHead = encodeHandle (g.cap t).2 (slotFromIndex g.sys.pool.layout (g.cap t).1) stateFree
  | .allocCas oldHead newHead =>
    oldHead = encodeHandle (g.cap t).2 (slotFromIndex g.sys.pool.layout (g.cap t).1) stateFree ∧
    ((g.cap t).2 = g.rel (g.cap t).1 → (g.cap t).1 ∈ g.free →
      g.sys.pool.next (slotFromIndex g.sys.pool.layout (g.cap t).1) = newHead)
  | .allocLoadMax u gen | .allocBumpMax u gen _ | .allocClearNext u gen
  | .allocSlotsFree u gen | .allocCount u gen => gen = g.sys.pool.generation u
  | .releaseLoadGen h => g.call t = .release h ∧ ∃ i k, (h, i, k) ∈ g.issued
  | .releaseStoreGen u gen =>
    ∃ h i, g.call t = .release h ∧ (h, i, g.rel i) ∈ g.issued ∧
      u = slotFromIndex g.sys.pool.layout i ∧ gen = (g.rel i + 1) % 2 ^ 16
  | .releaseLoadHead u gen | .releaseLink u gen _ => gen = g.sys.pool.generation u
  | .releaseCas u gen oldHead => gen = g.sys.pool.generation u ∧ g.sys.pool.next u = oldHead
  | .getLoadGen h => ∃ i k, (h, i, k) ∈ g.issued
  | _ => True

/-- No two calls in progress release the same handle. -/
def NoOverlap (pc : Nat → Pc) (call : Nat → Call) : Prop :=
  ∀ t t' h, t ≠ t' → pc t ≠ .idle → pc t' ≠ .idle → call t = .release h →
    call t' ≠ .release h

/-- The invariant of every allowed run. -/
structure RInv (g : GSys) : Prop where
  geom : SlotGeometry g.sys.pool.layout
  fits : g.sys.pool.layout.slotsBase + (g.sys.pool.layout.slotCount - 1) *
    g.sys.pool.layout.slotStride < 2 ^ 48
  /-- The headers spell out the ghost free list. -/
  chain : FreeChain g.sys.pool.layout g.sys.pool.next g.sys.pool.generation g.sys.pool.freeHead
    g.free
  nodup : g.free.Nodup
  free_lt : ∀ i ∈ g.free, i < g.sys.pool.layout.slotCount
  /-- Header generations count generation stores. -/
  generation : ∀ i < g.sys.pool.layout.slotCount,
    g.sys.pool.generation (slotFromIndex g.sys.pool.layout i) = g.rel i % 2 ^ 16
  free_iff : ∀ i < g.sys.pool.layout.slotCount, i ∈ g.free ↔ g.owner i = .free
  /-- A slot is popped by exactly the thread whose locals name it after its compare-exchange. -/
  popped_iff : ∀ t, ∀ i < g.sys.pool.layout.slotCount,
    g.owner i = .popped t ↔ (g.sys.pc t).popSlot = some (slotFromIndex g.sys.pool.layout i)
  pushed_iff : ∀ t, ∀ i < g.sys.pool.layout.slotCount,
    g.owner i = .pushed t ↔ (g.sys.pc t).pushSlot = some (slotFromIndex g.sys.pool.layout i)
  pop_lt : ∀ t p, (g.sys.pc t).popSlot = some p →
    ∃ i < g.sys.pool.layout.slotCount, p = slotFromIndex g.sys.pool.layout i
  push_lt : ∀ t p, (g.sys.pc t).pushSlot = some p →
    ∃ i < g.sys.pool.layout.slotCount, p = slotFromIndex g.sys.pool.layout i
  /-- A loaded `free_head` value is never ahead of its slot, and while it is current its
  slot is not being pushed. -/
  cap : ∀ t, (g.cap t).1 < g.sys.pool.layout.slotCount ∧ (g.cap t).2 ≤ g.rel (g.cap t).1 ∧
    ((g.cap t).2 = g.rel (g.cap t).1 → ∀ t', g.owner (g.cap t).1 ≠ .pushed t')
  /-- A returned handle carries its slot's release count at its return; while that count is
  current the slot is live. -/
  issued : ∀ h i k, (h, i, k) ∈ g.issued → i < g.sys.pool.layout.slotCount ∧
    h = encodeHandle k (slotFromIndex g.sys.pool.layout i) stateLive ∧ k ≤ g.rel i ∧
    (k = g.rel i → g.owner i = .live)
  /-- Two handles returned for one slot carry different release counts. -/
  distinct : g.issued.Pairwise fun a b => a.2.1 = b.2.1 → a.2.2 ≠ b.2.2
  overlap : NoOverlap g.sys.pc g.call
  thread : ∀ t, ThreadOk g t

/-- A thread's facts survive a step of another thread that keeps what they read: its pc,
the layout, its call and loaded head, the returned handles (which only grow), the headers of
the slot it holds, the `next` of a loaded head still current and on the list, and the count of
a slot whose release it is finishing. -/
theorem ThreadOk.transfer {g g' : GSys} {t : Nat} (h : ThreadOk g t)
    (hpc : g'.sys.pc t = g.sys.pc t) (hL : g'.sys.pool.layout = g.sys.pool.layout)
    (hcall : g'.call t = g.call t) (hcap : g'.cap t = g.cap t)
    (hiss : ∀ x ∈ g.issued, x ∈ g'.issued)
    (hgen : ∀ p, (g.sys.pc t).popSlot = some p ∨ (g.sys.pc t).pushSlot = some p →
      g'.sys.pool.generation p = g.sys.pool.generation p)
    (hnext : ∀ p, (g.sys.pc t).pushSlot = some p → g'.sys.pool.next p = g.sys.pool.next p)
    (hcas : (g.cap t).2 = g'.rel (g.cap t).1 → (g.cap t).1 ∈ g'.free →
      (g.cap t).2 = g.rel (g.cap t).1 ∧ (g.cap t).1 ∈ g.free ∧
      g'.sys.pool.next (slotFromIndex g.sys.pool.layout (g.cap t).1) =
        g.sys.pool.next (slotFromIndex g.sys.pool.layout (g.cap t).1))
    (hstore : ∀ p k, g.sys.pc t = .releaseStoreGen p k →
      ∀ i, p = slotFromIndex g.sys.pool.layout i → g'.rel i = g.rel i) :
    ThreadOk g' t := by
  unfold ThreadOk at h ⊢
  rw [hpc, hL, hcall, hcap]
  generalize g.sys.pc t = pc at h hgen hnext hstore
  cases pc <;> dsimp only at h ⊢
  case allocCas oh nh =>
    refine ⟨h.1, fun he hm => ?_⟩
    obtain ⟨e, m, n⟩ := hcas he hm
    rw [n]; exact h.2 e m
  case allocLoadMax u gen | allocBumpMax u gen _ | allocClearNext u gen | allocSlotsFree u gen
    | allocCount u gen => rw [hgen u (.inl rfl)]; exact h
  case releaseLoadGen hd => exact ⟨h.1, h.2.imp fun _ => Exists.imp fun _ => hiss _⟩
  case releaseStoreGen u gen =>
    obtain ⟨hd, i, hc, hm, hu, hg⟩ := h
    have hr := hstore u gen rfl i hu
    exact ⟨hd, i, hc, hr ▸ hiss _ hm, hu, hr ▸ hg⟩
  case releaseLoadHead u gen | releaseLink u gen _ => rw [hgen u (.inr rfl)]; exact h
  case releaseCas u gen oh => rw [hgen u (.inr rfl), hnext u rfl]; exact h
  case getLoadGen hd => exact h.imp fun _ => Exists.imp fun _ => hiss _
  all_goals exact h

/-! ## Handing a slot over

Four steps move a slot between owners: the compare-exchange of `anam_alloc` (free to popped),
its final count (popped to live), the generation store of `anam_release` (live to pushed) and
its compare-exchange (pushed to free). In each, one slot changes owner while one thread moves,
and the owner pairings of the invariant follow from the three lemmas below. -/

theorem NoOverlap.update {pc : Nat → Pc} {call : Nat → Call} (h : NoOverlap pc call) {t : Nat}
    {p : Pc} (hidle : pc t = .idle → p = .idle) : NoOverlap (Function.update pc t p) call := by
  have hid : ∀ t', Function.update pc t p t' ≠ .idle → pc t' ≠ .idle := by
    intro t' h'
    by_cases e : t' = t
    · subst e; rw [Function.update_same] at h'; exact fun h'' => h' (hidle h'')
    · rwa [Function.update_noteq e] at h'
  exact fun t₁ t₂ hd ne h₁ h₂ => h t₁ t₂ hd ne (hid t₁ h₁) (hid t₂ h₂)

/-- Slot `j` passes to owner `o` while thread `t` moves to `p`. The pairing of owners `C t`
with the slot `S` reads off `t`'s locals survives when `t`'s locals name no slot but `j`
before and after, and after the step `o` and the locals agree on `j`. -/
theorem pairing_update {n j t : Nat} {u : Nat → Nat} {owner : Nat → Owner} {pc : Nat → Pc}
    {S : Pc → Option Nat} {C : Nat → Owner} {o : Owner} {p : Pc}
    (h : ∀ t, ∀ i < n, owner i = C t ↔ S (pc t) = some (u i))
    (hu : ∀ i < n, u i = u j → i = j) (hjt : o = C t ↔ S p = some (u j))
    (hjo : ∀ t', t' ≠ t → o ≠ C t' ∧ owner j ≠ C t')
    (hp : ∀ q, S p = some q → q = u j) (hpt : ∀ q, S (pc t) = some q → q = u j) :
    ∀ t', ∀ i < n, Function.update owner j o i = C t' ↔
      S (Function.update pc t p t') = some (u i) := by
  intro t' i hi
  by_cases e : t' = t
  · subst e
    rw [Function.update_same]
    by_cases hij : i = j
    · subst hij; rw [Function.update_same]; exact hjt
    · rw [Function.update_noteq hij, h t' i hi]
      exact iff_of_false (fun hs => hij (hu i hi (hpt _ hs)))
        (fun hs => hij (hu i hi (hp _ hs)))
  · rw [Function.update_noteq e]
    by_cases hij : i = j
    · subst hij
      rw [Function.update_same, ← h t' i hi]
      exact iff_of_false (hjo t' e).1 (hjo t' e).2
    · rw [Function.update_noteq hij]; exact h t' i hi

theorem slot_lt_update {n j t : Nat} {u : Nat → Nat} {pc : Nat → Pc} {S : Pc → Option Nat}
    {p : Pc} (h : ∀ t q, S (pc t) = some q → ∃ i < n, q = u i) (hj : j < n)
    (hp : ∀ q, S p = some q → q = u j) :
    ∀ t' q, S (Function.update pc t p t') = some q → ∃ i < n, q = u i := by
  intro t' q hq
  by_cases e : t' = t
  · subst e; rw [Function.update_same] at hq; exact ⟨j, hj, hp q hq⟩
  · rw [Function.update_noteq e] at hq; exact h t' q hq

theorem free_iff_update {n j : Nat} {free free' : List Nat} {owner : Nat → Owner} {o : Owner}
    (h : ∀ i < n, i ∈ free ↔ owner i = .free) (hj : j ∈ free' ↔ o = .free)
    (hother : ∀ i, i ≠ j → (i ∈ free' ↔ i ∈ free)) :
    ∀ i < n, i ∈ free' ↔ Function.update owner j o i = .free := by
  intro i hi
  by_cases e : i = j
  · subst e; rw [Function.update_same]; exact hj
  · rw [Function.update_noteq e, hother i e]; exact h i hi

/-- Where a call starts, the thread holds no slot. -/
theorem Call.entry_slots (sv : Bool) (layout : PoolLayout) (c : Call) :
    (Call.entry sv layout c).popSlot = none ∧ (Call.entry sv layout c).pushSlot = none := by
  cases c <;> simp only [Call.entry, Pc.screen] <;> (try split_ifs) <;> exact ⟨rfl, rfl⟩

theorem GSys.exec_loadHead_nil {g : GSys} {t : Nat} (hp : g.sys.pc t = .allocLoadHead)
    (hf : g.free = []) (hn : anamIsNull g.sys.pool.freeHead = true) :
    g.exec t = { g with sys := ⟨g.sys.pool, Function.update g.sys.pc t (.done anamNull)⟩ } := by
  simp only [GSys.exec, hp, tstep, hf, hn, if_true]

theorem GSys.exec_loadHead_cons {g : GSys} {t j : Nat} {rest : List Nat}
    (hp : g.sys.pc t = .allocLoadHead) (hf : g.free = j :: rest)
    (hn : anamIsNull g.sys.pool.freeHead = false) :
    g.exec t = { g with
      sys := ⟨g.sys.pool, Function.update g.sys.pc t (.allocLoadNext g.sys.pool.freeHead)⟩
      cap := Function.update g.cap t (j, g.rel j) } := by
  simp only [GSys.exec, hp, tstep, hf, hn, Bool.false_eq_true, if_false]

section Step

variable {g : GSys} (hI : RInv g)
include hI

theorem RInv.slot_fits {i : Nat} (hi : i < g.sys.pool.layout.slotCount) :
    AddrFits (slotFromIndex g.sys.pool.layout i) ∧ 0 < slotFromIndex g.sys.pool.layout i :=
  slotFromIndex_fits hI.geom hI.fits hi

theorem RInv.slot_inj {i j : Nat} (hi : i < g.sys.pool.layout.slotCount)
    (hj : j < g.sys.pool.layout.slotCount)
    (h : slotFromIndex g.sys.pool.layout i = slotFromIndex g.sys.pool.layout j) : i = j :=
  slotFromIndex_inj hI.geom hi hj h

theorem RInv.not_free {i : Nat} (hi : i < g.sys.pool.layout.slotCount) {o : Owner}
    (ho : g.owner i = o) (hne : o ≠ .free) : i ∉ g.free :=
  fun hm => hne (ho ▸ (hI.free_iff i hi).mp hm)

/-- A step of thread `t` that changes no list, no generation and no ghost record: only `t`'s
locals, counters the invariant does not read, and `next` fields of slots that are neither on
the list nor being pushed by another thread. -/
theorem RInv.local_step {t : Nat} {pool : AnamPool} {p : Pc}
    (hL : pool.layout = g.sys.pool.layout) (hF : pool.freeHead = g.sys.pool.freeHead)
    (hN : ∀ j < g.sys.pool.layout.slotCount,
      (g.owner j = .free ∨ ∃ t', t' ≠ t ∧ g.owner j = .pushed t') →
      pool.next (slotFromIndex g.sys.pool.layout j) =
        g.sys.pool.next (slotFromIndex g.sys.pool.layout j))
    (hG : pool.generation = g.sys.pool.generation)
    (hpop : p.popSlot = (g.sys.pc t).popSlot) (hpush : p.pushSlot = (g.sys.pc t).pushSlot)
    (hov : NoOverlap (Function.update g.sys.pc t p) g.call)
    (hok : ThreadOk { g with sys := ⟨pool, Function.update g.sys.pc t p⟩ } t) :
    RInv { g with sys := ⟨pool, Function.update g.sys.pc t p⟩ } := by
  have hps : ∀ t', (Function.update g.sys.pc t p t').popSlot = (g.sys.pc t').popSlot := by
    intro t'; by_cases e : t' = t
    · subst e; rw [Function.update_same, hpop]
    · rw [Function.update_noteq e]
  have hus : ∀ t', (Function.update g.sys.pc t p t').pushSlot = (g.sys.pc t').pushSlot := by
    intro t'; by_cases e : t' = t
    · subst e; rw [Function.update_same, hpush]
    · rw [Function.update_noteq e]
  refine ⟨?_, ?_, ?_, hI.nodup, ?_, ?_, ?_, ?_, ?_, ?_, ?_, ?_, ?_, hI.distinct, hov, ?_⟩
  all_goals dsimp only
  all_goals try simp only [hL, hF, hG, hps, hus]
  · exact hI.geom
  · exact hI.fits
  · exact hI.chain.congr
      (fun j hj => hN j (hI.free_lt j hj) (.inl ((hI.free_iff j (hI.free_lt j hj)).mp hj)))
      (fun _ _ => rfl)
  · exact hI.free_lt
  · exact hI.generation
  · exact hI.free_iff
  · exact hI.popped_iff
  · exact hI.pushed_iff
  · exact hI.pop_lt
  · exact hI.push_lt
  · exact hI.cap
  · exact hI.issued
  · intro t'
    by_cases e : t' = t
    · subst e; exact hok
    · refine (hI.thread t').transfer (by simp [Function.update_noteq e]) hL rfl rfl
        (fun _ h => h) (fun _ _ => by rw [hG]) (fun q hq => ?_)
        (fun h hm => ⟨h, hm, hN _ (hI.cap t').1 (.inl ((hI.free_iff _ (hI.cap t').1).mp hm))⟩)
        (fun _ _ _ _ _ => rfl)
      obtain ⟨j, hj, rfl⟩ := hI.push_lt t' q hq
      exact hN j hj (.inr ⟨t', e, (hI.pushed_iff t' j hj).mpr hq⟩)

/-- Writing the `next` field of a slot thread `t` holds touches no slot the list or another
thread's push reads. -/
theorem RInv.next_frame {t i : Nat} (hi : i < g.sys.pool.layout.slotCount)
    (hown : g.owner i = .popped t ∨ g.owner i = .pushed t) (v : Nat) :
    ∀ j < g.sys.pool.layout.slotCount,
      (g.owner j = .free ∨ ∃ t', t' ≠ t ∧ g.owner j = .pushed t') →
      Function.update g.sys.pool.next (slotFromIndex g.sys.pool.layout i) v
        (slotFromIndex g.sys.pool.layout j) =
          g.sys.pool.next (slotFromIndex g.sys.pool.layout j) := by
  intro j hj hj'
  refine Function.update_noteq (fun e => ?_) _ _
  obtain rfl := hI.slot_inj hj hi e
  rcases hj' with h' | ⟨t', ne, h'⟩ <;> rcases hown with h | h <;> rw [h] at h' <;> cases h'
  exact ne rfl

/-- Handing slot `j` to an owner that is not pushing it keeps every loaded head's facts. -/
theorem RInv.cap_handover {j : Nat} {o : Owner} (ho : ∀ t, o ≠ .pushed t) (t' : Nat) :
    (g.cap t').1 < g.sys.pool.layout.slotCount ∧ (g.cap t').2 ≤ g.rel (g.cap t').1 ∧
      ((g.cap t').2 = g.rel (g.cap t').1 →
        ∀ t'', Function.update g.owner j o (g.cap t').1 ≠ .pushed t'') := by
  obtain ⟨h1, h2, h3⟩ := hI.cap t'
  refine ⟨h1, h2, fun e t'' => ?_⟩
  by_cases hc : (g.cap t').1 = j
  · rw [hc, Function.update_same]; exact ho t''
  · rw [Function.update_noteq hc]; exact h3 e t''

/-- Handing over a slot that is not live keeps every returned handle's facts. -/
theorem RInv.issued_handover {j : Nat} (hj : g.owner j ≠ .live) (o : Owner) {h i k : Nat}
    (hm : (h, i, k) ∈ g.issued) :
    i < g.sys.pool.layout.slotCount ∧ h = encodeHandle k (slotFromIndex g.sys.pool.layout i)
      stateLive ∧ k ≤ g.rel i ∧ (k = g.rel i → Function.update g.owner j o i = .live) := by
  obtain ⟨a, b, c, d⟩ := hI.issued h i k hm
  refine ⟨a, b, c, fun e => ?_⟩
  by_cases e' : i = j
  · subst e'; exact absurd (d e) hj
  · rw [Function.update_noteq e']; exact d e

/-- `anam_alloc`'s last step hands out the slot it popped: the handle carries the slot's
release count, and no earlier handle of the slot is unreleased. -/
theorem RInv.exec_allocCount {t u gen : Nat} (hp : g.sys.pc t = .allocCount u gen) :
    RInv (g.exec t) := by
  have hok := hI.thread t
  simp only [ThreadOk, hp] at hok
  obtain ⟨j, hj, rfl⟩ := hI.pop_lt t u (by rw [hp]; rfl)
  have hown : g.owner j = .popped t := (hI.popped_iff t j hj).mpr (by rw [hp]; rfl)
  have hu : ∀ i < g.sys.pool.layout.slotCount,
      slotFromIndex g.sys.pool.layout i = slotFromIndex g.sys.pool.layout j → i = j :=
    fun i hi => hI.slot_inj hi hj
  simp only [GSys.exec, hp, tstep, slotIndex_slotFromIndex hI.geom hj]
  rw [hok, hI.generation j hj, encodeHandle_mod]
  refine ⟨hI.geom, hI.fits, hI.chain, hI.nodup, hI.free_lt, hI.generation,
    free_iff_update hI.free_iff (iff_of_false (hI.not_free hj hown nofun) nofun)
      (fun _ _ => Iff.rfl),
    pairing_update hI.popped_iff hu (iff_of_false nofun nofun)
      (fun t' e => ⟨nofun, by rw [hown]; exact fun h => e (Owner.popped.inj h).symm⟩) nofun
      (fun q hq => by rw [hp] at hq; exact (Option.some.inj hq).symm),
    pairing_update hI.pushed_iff hu (iff_of_false nofun nofun)
      (fun t' _ => ⟨nofun, by rw [hown]; nofun⟩) nofun (fun q hq => by rw [hp] at hq; cases hq),
    slot_lt_update hI.pop_lt hj nofun, slot_lt_update hI.push_lt hj nofun,
    hI.cap_handover nofun, fun h i k hm => ?_,
    List.pairwise_cons.mpr ⟨fun b hb e => ?_, hI.distinct⟩,
    hI.overlap.update (by rw [hp]; nofun), fun t' => ?_⟩
  all_goals dsimp only
  · rcases List.mem_cons.mp hm with e | hm
    · simp only [Prod.mk.injEq] at e
      obtain ⟨rfl, rfl, rfl⟩ := e
      exact ⟨hj, rfl, le_rfl, fun _ => Function.update_same _ _ _⟩
    · obtain ⟨a, b, c, d⟩ := hI.issued h i k hm
      refine ⟨a, b, c, fun e => ?_⟩
      by_cases hij : i = j
      · rw [hij, Function.update_same]
      · rw [Function.update_noteq hij]; exact d e
  · obtain ⟨h', i', k'⟩ := b
    obtain ⟨-, -, -, hl⟩ := hI.issued h' i' k' hb
    dsimp only at e
    subst e
    exact fun hk => by rw [hl hk.symm] at hown; cases hown
  · by_cases e : t' = t
    · subst e; simp [ThreadOk]
    · exact (hI.thread t').transfer (Function.update_noteq e _ _) rfl rfl rfl
        (fun _ => List.mem_cons_of_mem _) (fun _ _ => rfl) (fun _ _ => rfl)
        (fun he hm => ⟨he, hm, rfl⟩) (fun _ _ _ _ _ => rfl)

/-- `anam_release` stores the next generation of a live slot: the slot's release count
advances and the releasing thread holds it until its push. -/
theorem RInv.exec_releaseStoreGen {t u gen : Nat} (hp : g.sys.pc t = .releaseStoreGen u gen) :
    RInv (g.exec t) := by
  have hok := hI.thread t
  simp only [ThreadOk, hp] at hok
  obtain ⟨h, i, hc, hm, rfl, rfl⟩ := hok
  obtain ⟨hi, hh, -, hl⟩ := hI.issued h i _ hm
  have hown : g.owner i = .live := hl rfl
  have hnf := hI.not_free hi hown nofun
  have hne : ∀ j < g.sys.pool.layout.slotCount, j ≠ i →
      slotFromIndex g.sys.pool.layout j ≠ slotFromIndex g.sys.pool.layout i :=
    fun j hj e he => e (hI.slot_inj hj hi he)
  have hu : ∀ j < g.sys.pool.layout.slotCount,
      slotFromIndex g.sys.pool.layout j = slotFromIndex g.sys.pool.layout i → j = i :=
    fun j hj => hI.slot_inj hj hi
  simp only [GSys.exec, hp, tstep, slotIndex_slotFromIndex hI.geom hi]
  refine ⟨hI.geom, hI.fits, ?_, hI.nodup, hI.free_lt, fun j hj => ?_,
    free_iff_update hI.free_iff (iff_of_false hnf nofun) (fun _ _ => Iff.rfl),
    pairing_update hI.popped_iff hu (iff_of_false nofun nofun)
      (fun t' _ => ⟨nofun, by rw [hown]; nofun⟩) nofun (fun q hq => by rw [hp] at hq; cases hq),
    pairing_update hI.pushed_iff hu (iff_of_true rfl rfl)
      (fun t' e => ⟨fun h => e (Owner.pushed.inj h).symm, by rw [hown]; nofun⟩)
      (fun q hq => (Option.some.inj hq).symm) (fun q hq => by rw [hp] at hq; cases hq),
    slot_lt_update hI.pop_lt hi nofun, slot_lt_update hI.push_lt hi
      (fun q hq => (Option.some.inj hq).symm), fun t' => ?_, fun h' i' k hm' => ?_, hI.distinct,
    hI.overlap.update (by rw [hp]; nofun), fun t' => ?_⟩
  all_goals dsimp only
  · exact hI.chain.congr (fun _ _ => rfl) (fun j hj => Function.update_noteq
      (hne j (hI.free_lt j hj) (fun e => hnf (e ▸ hj))) _ _)
  · by_cases e : j = i
    · subst e; rw [Function.update_same, Function.update_same]
    · rw [Function.update_noteq (hne j hj e), Function.update_noteq e]; exact hI.generation j hj
  · obtain ⟨h1, h2, h3⟩ := hI.cap t'
    by_cases hc : (g.cap t').1 = i
    · rw [hc] at h2 ⊢
      rw [Function.update_same]
      exact ⟨hc ▸ h1, by omega, fun e => by omega⟩
    · rw [Function.update_noteq hc, Function.update_noteq hc]; exact ⟨h1, h2, h3⟩
  · obtain ⟨a, b, c, d⟩ := hI.issued h' i' k hm'
    by_cases e : i' = i
    · subst e; rw [Function.update_same]; exact ⟨a, b, by omega, fun e => by omega⟩
    · rw [Function.update_noteq e, Function.update_noteq e]; exact ⟨a, b, c, d⟩
  · by_cases e : t' = t
    · subst e; simp [ThreadOk]
    refine (hI.thread t').transfer (Function.update_noteq e _ _) rfl rfl rfl (fun _ h => h)
      (fun q hq => ?_) (fun _ _ => rfl) (fun he hm => ?_) (fun q k hq i' hi' => ?_)
    · -- the slot `t'` holds is not the live slot
      obtain ⟨j, hj, rfl, ho⟩ : ∃ j < g.sys.pool.layout.slotCount,
          q = slotFromIndex g.sys.pool.layout j ∧
            (g.owner j = .popped t' ∨ g.owner j = .pushed t') := by
        rcases hq with hq | hq
        · obtain ⟨j, hj, rfl⟩ := hI.pop_lt t' q hq
          exact ⟨j, hj, rfl, .inl ((hI.popped_iff t' j hj).mpr hq)⟩
        · obtain ⟨j, hj, rfl⟩ := hI.push_lt t' q hq
          exact ⟨j, hj, rfl, .inr ((hI.pushed_iff t' j hj).mpr hq)⟩
      refine Function.update_noteq (hne j hj fun e => ?_) _ _
      subst e; rcases ho with ho | ho <;> rw [hown] at ho <;> cases ho
    · dsimp only at he hm
      have hci : (g.cap t').1 ≠ i := fun e => hnf (e ▸ hm)
      rw [Function.update_noteq hci] at he
      exact ⟨he, hm, rfl⟩
    · -- a second release of the same handle would overlap this one
      refine Function.update_noteq (fun e => ?_) _ _
      subst e
      have hok' := hI.thread t'
      simp only [ThreadOk, hq] at hok'
      obtain ⟨h'', i'', hc', hm', hu', -⟩ := hok'
      obtain ⟨hi'', hh'', -⟩ := hI.issued h'' i'' _ hm'
      obtain rfl := hI.slot_inj hi'' hi (hu'.symm.trans hi')
      exact hI.overlap t t' h (Ne.symm e) (by rw [hp]; nofun) (by rw [hq]; nofun) hc
        (by rw [hc', hh'', hh])

/-- The compare-exchange of `anam_release`: on success the slot goes on top of the list it
linked to; on failure the thread reloads `free_head`. -/
theorem RInv.exec_releaseCas {t u gen oh : Nat} (hp : g.sys.pc t = .releaseCas u gen oh) :
    RInv (g.exec t) := by
  have hok := hI.thread t
  simp only [ThreadOk, hp] at hok
  obtain ⟨hgen, hnext⟩ := hok
  obtain ⟨i, hi, rfl⟩ := hI.push_lt t u (by rw [hp]; rfl)
  have hown : g.owner i = .pushed t := (hI.pushed_iff t i hi).mpr (by rw [hp]; rfl)
  have hnf := hI.not_free hi hown nofun
  have hu : ∀ j < g.sys.pool.layout.slotCount,
      slotFromIndex g.sys.pool.layout j = slotFromIndex g.sys.pool.layout i → j = i :=
    fun j hj => hI.slot_inj hj hi
  by_cases he : g.sys.pool.freeHead = oh
  swap
  · simp only [GSys.exec, hp, tstep, if_neg he]
    exact hI.local_step rfl rfl (fun _ _ _ => rfl) rfl (hp ▸ rfl) (hp ▸ rfl)
      (hI.overlap.update (by rw [hp]; nofun)) (by simpa [ThreadOk] using hgen)
  simp only [GSys.exec, hp, tstep, if_pos he, slotIndex_slotFromIndex hI.geom hi]
  rw [hgen]
  refine ⟨hI.geom, hI.fits, .cons (by rw [hnext, ← he]; exact hI.chain),
    List.nodup_cons.mpr ⟨hnf, hI.nodup⟩,
    fun j hj => (List.mem_cons.mp hj).elim (fun e => e ▸ hi) (hI.free_lt j), hI.generation,
    free_iff_update hI.free_iff (iff_of_true (List.mem_cons_self _ _) rfl)
      (fun j e => by rw [List.mem_cons, or_iff_right e]),
    pairing_update hI.popped_iff hu (iff_of_false nofun nofun)
      (fun t' _ => ⟨nofun, by rw [hown]; nofun⟩) nofun (fun q hq => by rw [hp] at hq; cases hq),
    pairing_update hI.pushed_iff hu (iff_of_false nofun nofun)
      (fun t' e => ⟨nofun, by rw [hown]; exact fun h => e (Owner.pushed.inj h).symm⟩) nofun
      (fun q hq => by rw [hp] at hq; exact (Option.some.inj hq).symm),
    slot_lt_update hI.pop_lt hi nofun, slot_lt_update hI.push_lt hi nofun,
    hI.cap_handover nofun, fun _ _ _ => hI.issued_handover (by rw [hown]; nofun) _, hI.distinct,
    hI.overlap.update (by rw [hp]; nofun), fun t' => ?_⟩
  by_cases e : t' = t
  · subst e; simp [ThreadOk]
  refine (hI.thread t').transfer (Function.update_noteq e _ _) rfl rfl rfl (fun _ h => h)
    (fun _ _ => rfl) (fun _ _ => rfl) (fun he' hm => ?_) (fun _ _ _ _ _ => rfl)
  rcases List.mem_cons.mp hm with hc | hm
  · -- a current loaded head is never a slot being pushed
    exact absurd (hc ▸ hown) ((hI.cap t').2.2 he' t)
  · exact ⟨he', hm, rfl⟩

/-- The ABA argument. When the compare-exchange of `anam_alloc` finds `free_head` equal to
the value the thread loaded, within the horizon that value names the current top of the list
at the same release count, so the `next` the thread read is still the second entry. -/
theorem RInv.cas_top {t oh nh : Nat} (hp : g.sys.pc t = .allocCas oh nh)
    (ha : g.rel (g.cap t).1 < (g.cap t).2 + 2 ^ 16) (he : g.sys.pool.freeHead = oh) :
    ∃ rest, g.free = (g.cap t).1 :: rest ∧
      nh = g.sys.pool.next (slotFromIndex g.sys.pool.layout (g.cap t).1) := by
  have hok := hI.thread t
  simp only [ThreadOk, hp] at hok
  obtain ⟨hoh, hnh⟩ := hok
  obtain ⟨hj, hc, -⟩ := hI.cap t
  obtain ⟨hfit, hpos⟩ := hI.slot_fits hj
  cases hf : g.free with
  | nil =>
    have := (hf ▸ hI.chain).nil_inv
    exact absurd (hoh ▸ he ▸ this) (encodeHandle_ne_null hfit hpos _ _)
  | cons j rest =>
    have hj' := hI.free_lt j (hf ▸ List.mem_cons_self _ _)
    have htop := (hf ▸ hI.chain).cons_inv.1
    rw [he, hoh, hI.generation j hj'] at htop
    obtain ⟨hg, hs, -⟩ := encodeHandle_inj hfit (hI.slot_fits hj').1 htop
    obtain rfl := hI.slot_inj hj' hj hs.symm
    have hcr : (g.cap t).2 = g.rel (g.cap t).1 := by rw [Nat.mod_mod] at hg; omega
    exact ⟨rest, rfl, (hnh hcr (hf ▸ List.mem_cons_self _ _)).symm⟩

/-- The compare-exchange of `anam_alloc`: on success the thread pops the top slot; on failure
it reloads `free_head`. -/
theorem RInv.exec_allocCas {t oh nh : Nat} (hp : g.sys.pc t = .allocCas oh nh)
    (ha : g.rel (g.cap t).1 < (g.cap t).2 + 2 ^ 16) : RInv (g.exec t) := by
  by_cases he : g.sys.pool.freeHead = oh
  swap
  · simp only [GSys.exec, hp, tstep, if_neg he]
    exact hI.local_step rfl rfl (fun _ _ _ => rfl) rfl (hp ▸ rfl) (hp ▸ rfl)
      (hI.overlap.update (by rw [hp]; nofun)) (by simp [ThreadOk])
  obtain ⟨rest, hf, rfl⟩ := hI.cas_top hp ha he
  have hoh := hI.thread t
  simp only [ThreadOk, hp] at hoh
  obtain ⟨hj, -, -⟩ := hI.cap t
  set j := (g.cap t).1
  have hfit := (hI.slot_fits hj).1
  have hown : g.owner j = .free := (hI.free_iff j hj).mp (hf ▸ List.mem_cons_self _ _)
  have hnd := hf ▸ hI.nodup
  have hu : ∀ i < g.sys.pool.layout.slotCount,
      slotFromIndex g.sys.pool.layout i = slotFromIndex g.sys.pool.layout j → i = j :=
    fun i hi => hI.slot_inj hi hj
  simp only [GSys.exec, hp, tstep, if_pos he, hf, List.tail_cons, List.headD_cons]
  rw [hoh.1, decodeAddr_encodeHandle_of_fits hfit]
  refine ⟨hI.geom, hI.fits, (hf ▸ hI.chain).cons_inv.2, hnd.of_cons,
    fun i hi => hI.free_lt i (hf ▸ List.mem_cons_of_mem _ hi), hI.generation,
    free_iff_update hI.free_iff (iff_of_false (List.nodup_cons.mp hnd).1 nofun)
      (fun i e => by rw [hf, List.mem_cons, or_iff_right e]),
    pairing_update hI.popped_iff hu (iff_of_true rfl rfl)
      (fun t' e => ⟨fun h => e (Owner.popped.inj h).symm, by rw [hown]; nofun⟩)
      (fun q hq => (Option.some.inj hq).symm) (fun q hq => by rw [hp] at hq; cases hq),
    pairing_update hI.pushed_iff hu (iff_of_false nofun nofun)
      (fun t' _ => ⟨nofun, by rw [hown]; nofun⟩) nofun (fun q hq => by rw [hp] at hq; cases hq),
    slot_lt_update hI.pop_lt hj (fun q hq => (Option.some.inj hq).symm),
    slot_lt_update hI.push_lt hj nofun, hI.cap_handover nofun,
    fun _ _ _ => hI.issued_handover (by rw [hown]; nofun) _, hI.distinct,
    hI.overlap.update (by rw [hp]; nofun), fun t' => ?_⟩
  by_cases e : t' = t
  · subst e; simp [ThreadOk]
  · exact (hI.thread t').transfer (Function.update_noteq e _ _) rfl rfl rfl (fun _ h => h)
      (fun _ _ => rfl) (fun _ _ => rfl)
      (fun he' hm => ⟨he', hf ▸ List.mem_cons_of_mem _ hm, rfl⟩) (fun _ _ _ _ _ => rfl)

/-- `anam_alloc` loads `free_head`: the thread records the top slot and its release count. -/
theorem RInv.exec_allocLoadHead {t : Nat} (hp : g.sys.pc t = .allocLoadHead) :
    RInv (g.exec t) := by
  cases hf : g.free with
  | nil =>
    have hnil := (hf ▸ hI.chain).nil_inv
    have hn : anamIsNull g.sys.pool.freeHead = true := by rw [hnil]; rfl
    rw [GSys.exec_loadHead_nil hp hf hn]
    exact hI.local_step rfl rfl (fun _ _ _ => rfl) rfl (hp ▸ rfl) (hp ▸ rfl)
      (hI.overlap.update (by rw [hp]; nofun)) (by simp [ThreadOk])
  | cons j rest =>
    have hj := hI.free_lt j (hf ▸ List.mem_cons_self _ _)
    have hown : g.owner j = .free := (hI.free_iff j hj).mp (hf ▸ List.mem_cons_self _ _)
    have htop := (hf ▸ hI.chain).cons_inv.1
    rw [hI.generation j hj, encodeHandle_mod] at htop
    have hn : anamIsNull g.sys.pool.freeHead = false := by
      rw [htop, Bool.eq_false_iff, Ne, anamIsNull_iff]
      exact encodeHandle_ne_null (hI.slot_fits hj).1 (hI.slot_fits hj).2 _ _
    have hI₁ : RInv { g with cap := Function.update g.cap t (j, g.rel j) } :=
      { hI with
        cap := fun t' => by
          dsimp only
          by_cases e : t' = t
          · subst e; rw [Function.update_same]
            exact ⟨hj, le_rfl, fun _ t'' => by rw [hown]; nofun⟩
          · rw [Function.update_noteq e]; exact hI.cap t'
        thread := fun t' => by
          by_cases e : t' = t
          · subst e; simp [ThreadOk, hp]
          · exact (hI.thread t').transfer rfl rfl rfl (Function.update_noteq e _ _) (fun _ h => h)
              (fun _ _ => rfl) (fun _ _ => rfl) (fun he hm => ⟨he, hm, rfl⟩)
              (fun _ _ _ _ _ => rfl) }
    rw [GSys.exec_loadHead_cons hp hf hn]
    exact hI₁.local_step rfl rfl (fun _ _ _ => rfl) rfl (hp ▸ rfl) (hp ▸ rfl)
      (hI₁.overlap.update (by rw [hp]; nofun)) (by simpa [ThreadOk] using htop)

/-- `anam_release` compares the generation: within the horizon it passes exactly for the
slot's unreleased handle, and then the thread knows the count it will store. -/
theorem RInv.exec_releaseLoadGen {t h : Nat} (hp : g.sys.pc t = .releaseLoadGen h)
    (ha : ∃ i k, (h, i, k) ∈ g.issued ∧ g.rel i < k + 2 ^ 16) : RInv (g.exec t) := by
  have hok := hI.thread t
  simp only [ThreadOk, hp] at hok
  obtain ⟨i, k, hm, hz⟩ := ha
  obtain ⟨hi, rfl, hk, -⟩ := hI.issued _ i k hm
  have hfit := (hI.slot_fits hi).1
  simp only [GSys.exec, hp, tstep]
  split_ifs with hg
  · exact hI.local_step rfl rfl (fun _ _ _ => rfl) rfl (hp ▸ rfl) (hp ▸ rfl)
      (hI.overlap.update (by rw [hp]; nofun)) (by simp [ThreadOk])
  rw [decodeGen_encodeHandle, decodeAddr_encodeHandle_of_fits hfit, hI.generation i hi] at hg
  have hkr : k = g.rel i := by omega
  refine hI.local_step rfl rfl (fun _ _ _ => rfl) rfl (hp ▸ rfl) (hp ▸ rfl)
    (hI.overlap.update (by rw [hp]; nofun)) ?_
  simp only [ThreadOk, Function.update_same]
  refine ⟨_, i, hok.1, by rw [← hkr]; exact hm, decodeAddr_encodeHandle_of_fits hfit _ _, ?_⟩
  rw [decodeAddr_encodeHandle_of_fits hfit, hI.generation i hi]
  omega

/-- Every step the contract allows keeps the invariant. -/
theorem RInv.exec {t : Nat} (ha : g.Allowed (.exec t)) : RInv (g.exec t) := by
  have hok := hI.thread t
  cases hp : g.sys.pc t
  case allocLoadHead => exact hI.exec_allocLoadHead hp
  case allocCas oh nh => exact hI.exec_allocCas hp (by simpa only [GSys.Allowed, hp] using ha)
  case allocCount u gen => exact hI.exec_allocCount hp
  case releaseLoadGen h =>
    exact hI.exec_releaseLoadGen hp (by simpa only [GSys.Allowed, hp] using ha)
  case releaseStoreGen u gen => exact hI.exec_releaseStoreGen hp
  case releaseCas u gen oh => exact hI.exec_releaseCas hp
  all_goals simp only [ThreadOk, hp] at hok
  case allocLoadNext oh =>
    have hfit := (hI.slot_fits (hI.cap t).1).1
    simp only [GSys.exec, hp, tstep]
    exact hI.local_step rfl rfl (fun _ _ _ => rfl) rfl (hp ▸ rfl) (hp ▸ rfl)
      (hI.overlap.update (by rw [hp]; nofun)) (by
        simp only [ThreadOk, Function.update_same]
        exact ⟨hok, fun _ _ => by rw [hok, decodeAddr_encodeHandle_of_fits hfit]⟩)
  case allocClearNext u gen =>
    obtain ⟨i, hi, rfl⟩ := hI.pop_lt t u (by rw [hp]; rfl)
    simp only [GSys.exec, hp, tstep]
    exact hI.local_step rfl rfl
      (hI.next_frame hi (.inl ((hI.popped_iff t i hi).mpr (by rw [hp]; rfl))) _) rfl
      (hp ▸ rfl) (hp ▸ rfl) (hI.overlap.update (by rw [hp]; nofun))
      (by simpa [ThreadOk] using hok)
  case releaseLink u gen oh =>
    obtain ⟨i, hi, rfl⟩ := hI.push_lt t u (by rw [hp]; rfl)
    simp only [GSys.exec, hp, tstep]
    exact hI.local_step rfl rfl
      (hI.next_frame hi (.inr ((hI.pushed_iff t i hi).mpr (by rw [hp]; rfl))) _) rfl
      (hp ▸ rfl) (hp ▸ rfl) (hI.overlap.update (by rw [hp]; nofun))
      (by simpa [ThreadOk] using hok)
  case idle | allocLoadGen | releaseSlotsFree | releaseCount | getLoadGen | anamnesis | done =>
    simp only [GSys.exec, hp, tstep]
    try split_ifs
    all_goals
      exact hI.local_step rfl rfl (fun _ _ _ => rfl) rfl (hp ▸ rfl) (hp ▸ rfl)
        (hI.overlap.update fun h => by cases hp.symm.trans h <;> rfl) (by simp [ThreadOk])
  case allocLoadMax | allocBumpMax | allocSlotsFree | releaseLoadHead =>
    simp only [GSys.exec, hp, tstep]
    try split_ifs
    all_goals
      exact hI.local_step rfl rfl (fun _ _ _ => rfl) rfl (hp ▸ rfl) (hp ▸ rfl)
        (hI.overlap.update (by rw [hp]; nofun)) (by simpa [ThreadOk] using hok)

/-- Starting a call the contract allows keeps the invariant. -/
theorem RInv.call (sv : Bool) {t : Nat} {c : Call} (hp : g.sys.pc t = .idle)
    (ha : g.Allowed (.call t c)) : RInv (g.act sv (.call t c)) := by
  obtain ⟨hh, hrel⟩ := ha
  have hI₁ : RInv { g with call := Function.update g.call t c } :=
    { hI with
      overlap := fun t₁ t₂ h ne h₁ h₂ => by
        have e₁ : t₁ ≠ t := fun e => h₁ (e ▸ hp)
        have e₂ : t₂ ≠ t := fun e => h₂ (e ▸ hp)
        dsimp only
        rw [Function.update_noteq e₁, Function.update_noteq e₂]
        exact hI.overlap t₁ t₂ h ne h₁ h₂
      thread := fun t' => by
        by_cases e : t' = t
        · subst e; simp [ThreadOk, hp]
        · exact (hI.thread t').transfer rfl rfl (Function.update_noteq e _ _) rfl (fun _ h => h)
            (fun _ _ => rfl) (fun _ _ => rfl) (fun he hm => ⟨he, hm, rfl⟩)
            (fun _ _ _ _ _ => rfl) }
  simp only [GSys.act, hp, Sys.act]
  obtain ⟨hpop, hpush⟩ := Call.entry_slots sv g.sys.pool.layout c
  refine hI₁.local_step rfl rfl (fun _ _ _ => rfl) rfl
    (by rw [hpop]; exact (congrArg Pc.popSlot hp).symm)
    (by rw [hpush]; exact (congrArg Pc.pushSlot hp).symm) ?_ ?_
  · -- the new call overlaps no release of its handle
    intro t₁ t₂ h ne h₁ h₂ hc₁
    dsimp only at h₁ h₂ hc₁ ⊢
    by_cases e₁ : t₁ = t
    · subst e₁
      rw [Function.update_same] at hc₁
      rw [Function.update_noteq (Ne.symm ne)] at h₂ ⊢
      exact hrel h hc₁ t₂ (Ne.symm ne) h₂
    · rw [Function.update_noteq e₁] at hc₁ h₁
      by_cases e₂ : t₂ = t
      · subst e₂; rw [Function.update_same]
        exact fun hc₂ => hrel h hc₂ t₁ e₁ h₁ hc₁
      · rw [Function.update_noteq e₂] at h₂ ⊢
        exact hI.overlap t₁ t₂ h ne h₁ h₂ hc₁
  · -- a handle that passes the screen was returned
    have hiss : ∀ h, ¬anamIsNull h = true → h = c.handle → ∃ i k, (h, i, k) ∈ g.issued :=
      fun h hn e => (e ▸ hh).resolve_left fun e' => hn (by rw [e']; rfl)
    cases c <;> simp only [Call.entry, Pc.screen] <;> (try split_ifs with hn) <;>
      simp only [ThreadOk, Function.update_same] <;> try trivial
    · exact ⟨trivial, hiss _ hn rfl⟩
    · exact hiss _ hn rfl
    · exact hiss _ hn rfl

/-- Returning from a finished call keeps the invariant. -/
theorem RInv.ret (sv : Bool) (t : Nat) : RInv (g.act sv (.ret t)) := by
  simp only [GSys.act, Sys.act]
  split
  next r hp =>
    exact hI.local_step rfl rfl (fun _ _ _ => rfl) rfl (hp ▸ rfl) (hp ▸ rfl)
      (hI.overlap.update fun _ => rfl) (by simp [ThreadOk])
  next => exact hI

theorem RInv.act (sv : Bool) {e : Event} (ha : g.Allowed e) : RInv (g.act sv e) := by
  cases e with
  | call t c =>
    by_cases hp : g.sys.pc t = .idle
    · exact hI.call sv hp ha
    · simpa only [GSys.act] using hI
  | exec t => exact hI.exec ha
  | ret t => exact hI.ret sv t

end Step

/-- The ghost record never changes what the threads do: the pool and the program counters of
an allowed run follow `Sys.act`. -/
theorem GSys.act_sys (sv : Bool) (g : GSys) (e : Event) : (g.act sv e).sys = g.sys.act sv e := by
  cases e with
  | call t c => simp only [GSys.act, Sys.act]; cases g.sys.pc t <;> rfl
  | exec t => simp only [GSys.act, GSys.exec, Sys.act]; split <;> (try split) <;> rfl
  | ret t => rfl

theorem GReach.run {sv : Bool} {pool₀ : AnamPool} {g : GSys} (hr : GReach sv pool₀ g) :
    ∃ events, g.sys = (Sys.start pool₀).run sv events := by
  induction hr with
  | init => exact ⟨[], rfl⟩
  | @step g e _ _ ih =>
    obtain ⟨events, he⟩ := ih
    exact ⟨events ++ [e], by rw [GSys.act_sys, he, Sys.run, Sys.run, List.foldl_append]; rfl⟩

theorem RInv.start {config : Option AnamPoolConfig} {alignedAlloc : Nat → Nat → Option Nat}
    {pool₀ : AnamPool} (h : anamPoolCreate config alignedAlloc = some pool₀)
    (hw : LayoutNoWrap (config.getD anamPoolDefault) pool₀.layout.memory)
    (hb : BufferBelow48 (config.getD anamPoolDefault) pool₀.layout.memory) :
    RInv (GSys.start pool₀) := by
  have hP := PoolInv.init h hw hb
  have hn : 0 < pool₀.layout.slotCount := by
    rw [anamPoolCreate_layout h]; exact (anamPoolCreate_eq_some h).2.1
  exact ⟨hP.geom, hP.fits, hP.chain, hP.nodup, hP.free_lt, hP.generation,
    fun i hi => iff_of_true (List.mem_range.mpr hi) rfl, fun _ _ _ => iff_of_false nofun nofun,
    fun _ _ _ => iff_of_false nofun nofun, nofun, nofun,
    fun _ => ⟨hn, le_rfl, fun _ _ => nofun⟩,
    nofun, .nil, fun _ _ _ _ h => absurd rfl h, fun _ => trivial⟩

theorem RInv.reach {config : Option AnamPoolConfig} {alignedAlloc : Nat → Nat → Option Nat}
    {pool₀ : AnamPool} (h : anamPoolCreate config alignedAlloc = some pool₀)
    (hw : LayoutNoWrap (config.getD anamPoolDefault) pool₀.layout.memory)
    (hb : BufferBelow48 (config.getD anamPoolDefault) pool₀.layout.memory) {sv : Bool}
    {g : GSys} (hr : GReach sv pool₀ g) : RInv g := by
  induction hr with
  | init => exact RInv.start h hw hb
  | step _ ha ih => exact ih.act sv ha

/-! ## Checking a schedule against the contract

`GSys.Allowed` quantifies over every other thread; along a schedule that names only the
threads `ts`, the others stay idle, so the check may range over `ts`. -/

/-- `GSys.Allowed`, with the other threads ranging over `ts`. -/
def GSys.allowedB (ts : List Nat) (g : GSys) : Event → Bool
  | .call t c =>
    (c.handle == anamNull || g.issued.any fun x => x.1 == c.handle) &&
      match c with
      | .release h => ts.all fun t' => t' == t || g.sys.pc t' == .idle || g.call t' != .release h
      | _ => true
  | .exec t =>
    match g.sys.pc t with
    | .allocCas _ _ => decide (g.rel (g.cap t).1 < (g.cap t).2 + 2 ^ 16)
    | .releaseLoadGen h => g.issued.any fun x => x.1 == h && decide (g.rel x.2.1 < x.2.2 + 2 ^ 16)
    | _ => true
  | .ret _ => true

theorem GSys.allowed_of_allowedB {ts : List Nat} {g : GSys} {e : Event}
    (hT : ∀ t ∉ ts, g.sys.pc t = .idle) (h : g.allowedB ts e = true) : g.Allowed e := by
  cases e with
  | call t c =>
    simp only [GSys.allowedB, Bool.and_eq_true, Bool.or_eq_true, beq_iff_eq, List.any_eq_true]
      at h
    refine ⟨h.1.imp_right fun ⟨x, hx, e⟩ => ⟨x.2.1, x.2.2, e ▸ hx⟩, ?_⟩
    rintro hd rfl t' hne hidle hc
    have hmem : t' ∈ ts := by_contra fun hn => hidle (hT t' hn)
    simp only [List.all_eq_true, Bool.or_eq_true, beq_iff_eq, bne_iff_ne] at h
    rcases h.2 t' hmem with (e | e) | e
    exacts [hne e, hidle e, e hc]
  | exec t =>
    simp only [GSys.allowedB, GSys.Allowed] at h ⊢
    split at h
    · simpa using h
    · obtain ⟨x, hx, e⟩ := List.any_eq_true.mp h
      simp only [Bool.and_eq_true, beq_iff_eq, decide_eq_true_eq] at e
      exact ⟨x.2.1, x.2.2, e.1 ▸ hx, e.2⟩
    · trivial
  | ret t => trivial

/-- A schedule, run from left to right, with its ghost record. -/
def GSys.run (sv : Bool) (g : GSys) (events : List Event) : GSys :=
  events.foldl (GSys.act sv) g

theorem GSys.run_sys (sv : Bool) (g : GSys) (events : List Event) :
    (g.run sv events).sys = g.sys.run sv events := by
  induction events generalizing g with
  | nil => rfl
  | cons e es ih => rw [GSys.run, List.foldl_cons, ← GSys.run, ih, GSys.act_sys]; rfl

/-- A schedule that never names a thread leaves it where it is. -/
theorem GSys.run_pc_of_not_mem (sv : Bool) (g : GSys) {events : List Event} {t : Nat}
    (h : ∀ e ∈ events, e.thread ≠ t) : (g.run sv events).sys.pc t = g.sys.pc t := by
  rw [GSys.run_sys, Sys.run_pc_of_not_mem sv g.sys events h]

/-- Every decision of the schedule names a thread of `ts` and keeps to the contract. -/
def GSys.allowedRun (sv : Bool) (ts : List Nat) : GSys → List Event → Bool
  | _, [] => true
  | g, e :: es =>
    (decide (e.thread ∈ ts) && g.allowedB ts e) && GSys.allowedRun sv ts (g.act sv e) es

/-- A schedule that passes the check is a run the contract allows. -/
theorem GReach.of_allowedRun {sv : Bool} {pool₀ : AnamPool} {ts : List Nat} :
    ∀ {g : GSys} {events : List Event}, GReach sv pool₀ g → (∀ t ∉ ts, g.sys.pc t = .idle) →
      GSys.allowedRun sv ts g events = true → GReach sv pool₀ (g.run sv events)
  | _, [], hr, _, _ => hr
  | g, e :: es, hr, hT, h => by
    simp only [GSys.allowedRun, Bool.and_eq_true, decide_eq_true_eq] at h
    refine @GReach.of_allowedRun sv pool₀ ts _ es (.step hr (GSys.allowed_of_allowedB hT h.1.2))
      (fun t ht => ?_) h.2
    rw [GSys.act_sys,
      Sys.act_pc_of_ne sv g.sys (show e.thread ≠ t from fun e' => ht (e' ▸ h.1.1))]
    exact hT t ht

/-- Threads 0 and 1 allocate from a two-slot pool. Thread 0 loads `free_head` and the top
slot's `next`; thread 1 then takes that slot, so thread 0's compare-exchange fails and it
takes the next slot on its second turn. Thread 1 then releases its handle. -/
def allocRace : List Event :=
  [.call 0 .alloc, .exec 0, .exec 0, .call 1 .alloc] ++ List.replicate 9 (.exec 1) ++
    List.replicate 10 (.exec 0) ++ [.ret 0, .ret 1, .call 1 (.release 4113)] ++
    List.replicate 7 (.exec 1) ++ [.ret 1]

theorem allocRace_reach :
    GReach false (pushSlots (freshPool (poolLayout ⟨64, 2, 8, false, false,
      of_decide_eq_true rfl, of_decide_eq_true rfl, of_decide_eq_true rfl⟩ 4096)) 2)
      ((GSys.start (pushSlots (freshPool (poolLayout ⟨64, 2, 8, false, false,
        of_decide_eq_true rfl, of_decide_eq_true rfl, of_decide_eq_true rfl⟩ 4096)) 2)).run
        false allocRace) :=
  @GReach.of_allowedRun false _ [0, 1] _ allocRace .init (fun _ _ => rfl) (by decide)

/-! ## The free list over every interleaving -/

/-- Under any interleaving the contract allows, from a pool `anam_pool_create` built without
a wrap and below `2^48`, at every point of the run: the chain from `free_head` through the
header `next` fields is a finite list of distinct slots; every handle `anam_alloc` returned
for a slot on the chain has been released; no two handles `anam_alloc` returned and not yet
released name one slot; and an `anam_get` of a returned handle, at its generation check,
returns the handle's slot while the handle is unreleased and counts an anamnesis otherwise. -/
theorem freeList_interleaved {config : Option AnamPoolConfig}
    {alignedAlloc : Nat → Nat → Option Nat} {pool₀ : AnamPool}
    (hc : anamPoolCreate config alignedAlloc = some pool₀)
    (hw : LayoutNoWrap (config.getD anamPoolDefault) pool₀.layout.memory)
    (hb : BufferBelow48 (config.getD anamPoolDefault) pool₀.layout.memory) {sv : Bool}
    {g : GSys} (hr : GReach sv pool₀ g) :
    FreeChain g.sys.pool.layout g.sys.pool.next g.sys.pool.generation g.sys.pool.freeHead
        g.free ∧
      g.free.Nodup ∧ (∀ i ∈ g.free, i < g.sys.pool.layout.slotCount) ∧
      (∀ h i k, (h, i, k) ∈ g.issued → i ∈ g.free → k < g.rel i) ∧
      g.issued.Pairwise (fun a b =>
        a.2.1 = b.2.1 → a.2.2 = g.rel a.2.1 → b.2.2 ≠ g.rel b.2.1) ∧
      ∀ t h i k, g.sys.pc t = .getLoadGen h → (h, i, k) ∈ g.issued →
        g.rel i < k + 2 ^ 16 →
        (g.act sv (.exec t)).sys.pc t =
          if k = g.rel i then .done (slotFromIndex g.sys.pool.layout i) else .anamnesis 0 := by
  have hI := RInv.reach hc hw hb hr
  refine ⟨hI.chain, hI.nodup, hI.free_lt, fun h i k hm hf => ?_,
    hI.distinct.imp fun hd e ha hb => hd e (ha.trans (e ▸ hb.symm)), ?_⟩
  · obtain ⟨hi, -, hk, hl⟩ := hI.issued h i k hm
    have hfree := (hI.free_iff i hi).mp hf
    refine lt_of_le_of_ne hk fun e => ?_
    rw [hl e] at hfree; cases hfree
  · intro t h i k hp hm hz
    obtain ⟨hi, rfl, hk, -⟩ := hI.issued _ i k hm
    have hfit := (hI.slot_fits hi).1
    simp only [GSys.act, GSys.exec, hp, tstep, Function.update_same, decodeGen_encodeHandle,
      decodeAddr_encodeHandle_of_fits hfit, hI.generation i hi]
    by_cases e : k = g.rel i
    · rw [if_neg (by omega), if_pos e]
    · rw [if_pos (by omega), if_neg e]

/-- After the race of `allocRace`, the slot thread 1 released is the whole free list, and the
handle it was issued is behind its slot's release count. -/
theorem freeList_interleaved_alloc_race :
    ∃ pool₀, anamPoolCreate (some ⟨64, 2, 8, false, false, of_decide_eq_true rfl,
        of_decide_eq_true rfl, of_decide_eq_true rfl⟩) (fun _ _ => some 4096) = some pool₀ ∧
      ∃ g, (GSys.start pool₀).run false allocRace = g ∧ g.free = [0] ∧
        FreeChain g.sys.pool.layout g.sys.pool.next g.sys.pool.generation g.sys.pool.freeHead
          [0] ∧
        ∀ h i k, (h, i, k) ∈ g.issued → i ∈ g.free → k < g.rel i := by
  obtain ⟨hc, -, -, hi, -⟩ := @freeList_interleaved (some ⟨64, 2, 8, false, false,
    of_decide_eq_true rfl, of_decide_eq_true rfl, of_decide_eq_true rfl⟩) (fun _ _ => some 4096)
    _ rfl (by refine ⟨?_, ?_, ?_, ?_, ?_⟩ <;> decide) (by unfold BufferBelow48; decide) false _
    allocRace_reach
  have hf : ((GSys.start (pushSlots (freshPool (poolLayout ⟨64, 2, 8, false, false,
      of_decide_eq_true rfl, of_decide_eq_true rfl, of_decide_eq_true rfl⟩ 4096)) 2)).run false
      allocRace).free = [0] := by decide
  exact ⟨pushSlots (freshPool (poolLayout ⟨64, 2, 8, false, false, of_decide_eq_true rfl,
    of_decide_eq_true rfl, of_decide_eq_true rfl⟩ 4096)) 2, rfl, _, rfl, hf, hf ▸ hc, hi⟩

end Anamnesis

import Hazelnut.Thread.SendQueue

/-!
The invariant behind the rendezvous.

`Inv` collects what ties the send queues to the states of the threads: the send
queue of a thread is the ring of the threads that poll for it (`ring`), a thread
that is not running stands in the kernel where its state says it does (`polling`,
`sendPoll`, `lockedWaiting`, `waiting`, `wakeup`), a sender that was picked by its
receiver finds the receiver still locked (`locked`, `locked_unique`), and nobody
polls for a thread that waits for it (`rendezvous`).  The rest is bookkeeping about
ids, spaces and the present list.

While a task is being deleted its threads pass through states in which their IPC
has been unwound and their thread state is stale.  A `Deletion` says how far that
is; `Deletion.none` is the usual case.

* `Inv.congr`: the invariant sees the rendezvous part of the state only.
* `Inv.change`: one thread gets another state, partner and continuation.
* `Inv.update`: the same for a thread that is in no send queue.
* `Inv.poll`, `Inv.unpoll`: a thread enters, or leaves, a send queue.
* `Inv.switch`: nothing but the running thread changes.
-/

namespace Hazelnut

/-- The TCB of the nil id, which is nobody's. -/
def nilTcb : TcbPtr := tidToTcb nilId

/-- A thread exists: it has been created and not been deleted. -/
def Existing (s : Sys) (p : TcbPtr) : Prop := p ≠ .idle ∧ (s.ipc p).myself ≠ nilId

/-- The deletion of a task in progress: the threads of the task, those the loop has
still to reach, and the one it is working on. -/
structure Deletion where
  dead : TcbPtr → Prop
  rest : TcbPtr → Prop
  dying : TcbPtr → Prop

/-- No deletion in progress. -/
def Deletion.none : Deletion := ⟨fun _ => False, fun _ => False, fun _ => False⟩

/-- A thread of a task being deleted whose IPC has been unwound. -/
def Limbo (d : Deletion) (s : Sys) (p : TcbPtr) : Prop := d.dead p ∧ (s.ipc p).cont = .user

/-- `p` polls for `t`. -/
structure Poller (d : Deletion) (s : Sys) (t p : TcbPtr) : Prop where
  existing : Existing s p
  polling : (s.ipc p).threadState = .polling
  partner : (s.ipc p).partner = (s.ipc t).myself
  live : ¬Limbo d s p

/-- `p` has been picked by the receiver with id `dst` and is about to send to it. -/
structure Sends (s : Sys) (p : TcbPtr) (dst : Tid) : Prop where
  existing : Existing s p
  state : (s.ipc p).threadState = .lockedRunning
  cont : ∃ sd rd, (s.ipc p).cont = .sendPoll dst sd rd

/-- A thread stands behind the switch of a receiver. -/
def Receiving (c : Cont) : Prop := c = .recvWait ∨ ∃ dst, c = .kernelWait dst

/-- Bookkeeping about the idle thread, the TCB of the nil id, ids, spaces and the
present list. -/
structure Wf (s : Sys) : Prop where
  idle_state : (s.ipc .idle).threadState = .free
  idle_cont : (s.ipc .idle).cont = .user
  nil_myself : (s.ipc nilTcb).myself = invalidId
  nil_state : (s.ipc nilTcb).threadState = .aborted
  nil_cont : (s.ipc nilTcb).cont = .user
  nil_space : (s.ipc nilTcb).space = 0
  ident : ∀ p, Existing s p → p ≠ nilTcb →
    tidToTcb (s.ipc p).myself = p ∧ ¬isKernelId (s.ipc p).myself ∧ (s.ipc p).myself ≠ invalidId
  not_free : ∀ p, Existing s p → (s.ipc p).threadState ≠ .free
  dead : ∀ p, ¬Existing s p → p ≠ .idle → (s.ipc p).threadState = .aborted ∨
    (s.ipc p).threadState = .free ∧ (s.ipc p).timeslice ≤ 0
  space_lt : ∀ p, Existing s p → (s.ipc p).space < s.nextSpace
  space_pos : ∀ p, Existing s p → p ≠ nilTcb → 0 < (s.ipc p).space
  space_task : ∀ p q, Existing s p → Existing s q → p ≠ nilTcb → q ≠ nilTcb →
    (s.ipc p).space = (s.ipc q).space → tidTask (s.ipc p).myself = tidTask (s.ipc q).myself
  present : ∀ p, p ∈ s.present ↔ Existing s p
  present_nodup : s.present.Nodup

/-- The invariant. -/
structure Inv (d : Deletion) (s : Sys) : Prop extends Wf s where
  ring : ∀ t, Existing s t → ∃ l, SendRing s t l ∧ ∀ p, p ∈ l ↔ Poller d s t p
  polling : ∀ p, Existing s p → (s.ipc p).threadState = .polling → ¬Limbo d s p →
    p ≠ s.current ∧ Existing s (tidToTcb (s.ipc p).partner)
      ∧ (s.ipc (tidToTcb (s.ipc p).partner)).myself = (s.ipc p).partner
      ∧ ∃ sd rd, (s.ipc p).cont = .sendPoll (s.ipc p).partner sd rd
  sendPoll : ∀ p dst sd rd, Existing s p → (s.ipc p).cont = .sendPoll dst sd rd →
    (s.ipc p).threadState = .polling ∨ (s.ipc p).threadState = .lockedRunning
      ∨ (s.ipc p).threadState = .running
  locked : ∀ p dst, Sends s p dst → (s.ipc p).partner = dst ∧ Existing s (tidToTcb dst)
    ∧ (s.ipc (tidToTcb dst)).myself = dst ∧ (s.ipc (tidToTcb dst)).threadState = .lockedWaiting
    ∧ tidToTcb dst ≠ s.current
  locked_unique : ∀ p q dst, Sends s p dst → Sends s q dst → p = q
  lockedWaiting : ∀ p, Existing s p → (s.ipc p).threadState = .lockedWaiting →
    (s.ipc p).cont = .recvReady
  waiting : ∀ p, Existing s p → (s.ipc p).threadState = .waiting → ¬Limbo d s p →
    Receiving (s.ipc p).cont
  wakeup : ∀ p ∈ s.wakeup, Existing s p
    ∧ ((s.ipc p).threadState = .polling ∧ ¬Limbo d s p ∨
      Receiving (s.ipc p).cont ∧ (s.ipc p).threadState ≠ .running)
  current : s.current = .idle ∨ Existing s s.current ∧ s.current ≠ nilTcb ∧ ¬d.dead s.current
  rendezvous : ∀ p r, Existing s r → Poller d s r p → (s.ipc r).threadState = .waiting →
    (s.ipc r).partner ≠ nilId ∧ (s.ipc r).partner ≠ (s.ipc p).myself
  zombie : ∀ p, d.rest p → Existing s p → Limbo d s p → (s.ipc p).threadState = .polling →
    (¬Existing s (tidToTcb (s.ipc p).partner) ∨ d.dying (tidToTcb (s.ipc p).partner))
      ∧ ∀ q t, ((s.ipc p).sendNext = some q ∨ (s.ipc p).sendPrev = some q) → Existing s t →
        Poller d s t q → d.dying t

@[simp] lemma not_limbo_none (s : Sys) (p : TcbPtr) : ¬Limbo .none s p := fun h => h.1

/-! ### The invariant sees the rendezvous part only -/

section Congr

variable {d : Deletion} {s s' : Sys}

lemma existing_congr (h : s'.ipc = s.ipc) : Existing s' = Existing s := by
  funext p; rw [Existing, Existing, h]

lemma limbo_congr (h : s'.ipc = s.ipc) : Limbo d s' = Limbo d s := by
  funext p; rw [Limbo, Limbo, h]

lemma poller_congr (h : s'.ipc = s.ipc) : Poller d s' = Poller d s := by
  funext t p
  refine propext ⟨fun ⟨h1, h2, h3, h4⟩ => ⟨?_, ?_, ?_, ?_⟩,
    fun ⟨h1, h2, h3, h4⟩ => ⟨?_, ?_, ?_, ?_⟩⟩ <;>
    simp_all [existing_congr h, limbo_congr h]

lemma sends_congr (h : s'.ipc = s.ipc) : Sends s' = Sends s := by
  funext t p
  refine propext ⟨fun ⟨h1, h2, h3⟩ => ⟨?_, ?_, ?_⟩, fun ⟨h1, h2, h3⟩ => ⟨?_, ?_, ?_⟩⟩ <;>
    simp_all [existing_congr h]

lemma sendRing_congr (h : s'.ipc = s.ipc) : SendRing s' = SendRing s := by
  funext t l
  refine propext ⟨fun hr => hr.congr ?_ ?_ ?_, fun hr => hr.congr ?_ ?_ ?_⟩ <;> simp [h]

/-- The invariant depends on the rendezvous part of the state only. -/
lemma Inv.congr (h : SameIpc s s') (hi : Inv d s) : Inv d s' := by
  refine ⟨?_, ?_, ?_, ?_, ?_, ?_, ?_, ?_, ?_, ?_, ?_, ?_⟩
  · constructor <;> simp only [existing_congr h.ipc, h.ipc, h.present, h.nextSpace]
    exacts [hi.idle_state, hi.idle_cont, hi.nil_myself, hi.nil_state, hi.nil_cont, hi.nil_space,
      hi.ident, hi.not_free, hi.dead, hi.space_lt, hi.space_pos, hi.space_task, hi.present,
      hi.present_nodup]
  all_goals
    simp only [existing_congr h.ipc, limbo_congr h.ipc, poller_congr h.ipc, sends_congr h.ipc,
      sendRing_congr h.ipc, h.ipc, h.wakeup, h.current]
  exacts [hi.ring, hi.polling, hi.sendPoll, hi.locked, hi.locked_unique, hi.lockedWaiting,
    hi.waiting, hi.wakeup, hi.current, hi.rendezvous, hi.zombie]

end Congr

/-- The bookkeeping survives changes of the states of existing threads. -/
lemma Wf.states {s s' : Sys} (hw : Wf s)
    (hm : ∀ q, (s'.ipc q).myself = (s.ipc q).myself) (hsp : ∀ q, (s'.ipc q).space = (s.ipc q).space)
    (ht : ∀ q, (s'.ipc q).timeslice = (s.ipc q).timeslice) (hpr : s'.present = s.present)
    (hns : s'.nextSpace = s.nextSpace) (hidle : (s'.ipc .idle).cont = (s.ipc .idle).cont)
    (hnil : (s'.ipc nilTcb).cont = (s.ipc nilTcb).cont)
    (hst : ∀ q, (s'.ipc q).threadState = (s.ipc q).threadState ∨
      Existing s q ∧ q ≠ nilTcb ∧ (s'.ipc q).threadState ≠ .free) : Wf s' := by
  have hex : ∀ q, Existing s' q ↔ Existing s q := fun q => by rw [Existing, Existing, hm]
  refine ⟨?_, ?_, ?_, ?_, ?_, ?_, ?_, ?_, ?_, ?_, ?_, ?_, ?_, ?_⟩
  · rcases hst .idle with h | h
    · rw [h]; exact hw.idle_state
    · exact absurd rfl h.1.1
  · rw [hidle]; exact hw.idle_cont
  · rw [hm]; exact hw.nil_myself
  · rcases hst nilTcb with h | h
    · rw [h]; exact hw.nil_state
    · exact absurd rfl h.2.1
  · rw [hnil]; exact hw.nil_cont
  · rw [hsp]; exact hw.nil_space
  · intro q hq hqn
    rw [hm]; exact hw.ident q ((hex q).mp hq) hqn
  · intro q hq
    rcases hst q with h | h
    · rw [h]; exact hw.not_free q ((hex q).mp hq)
    · exact h.2.2
  · intro q hq hqi
    rcases hst q with h | h
    · rw [h, ht]; exact hw.dead q (fun he => hq ((hex q).mpr he)) hqi
    · exact absurd ((hex q).mpr h.1) hq
  · intro q hq
    rw [hsp, hns]; exact hw.space_lt q ((hex q).mp hq)
  · intro q hq hqn
    rw [hsp]; exact hw.space_pos q ((hex q).mp hq) hqn
  · intro q r hq hr hqn hrn
    rw [hsp, hsp, hm, hm]
    exact hw.space_task q r ((hex q).mp hq) ((hex r).mp hr) hqn hrn
  · intro q
    rw [hpr, hex]; exact hw.present q
  · rw [hpr]; exact hw.present_nodup

/-! ### Consequences -/

section Basics

variable {d : Deletion} {s : Sys} (hi : Inv d s)
include hi

lemma Inv.nil_existing : Existing s nilTcb :=
  ⟨by simp [nilTcb, tidToTcb], by rw [hi.nil_myself]; decide⟩

/-- Threads are told apart by their ids. -/
lemma Inv.myself_inj {p q : TcbPtr} (hp : Existing s p) (hq : Existing s q) (hpn : p ≠ nilTcb)
    (h : (s.ipc p).myself = (s.ipc q).myself) : p = q := by
  have h1 := hi.ident p hp hpn
  by_cases hqn : q = nilTcb
  · exact absurd (by rw [h, hqn, hi.nil_myself]) h1.2.2
  · rw [← h1.1, h, (hi.ident q hq hqn).1]

/-- A thread in a state that is neither zero nor aborted exists. -/
lemma Inv.existing_of_state {p : TcbPtr} (hf : (s.ipc p).threadState ≠ .free)
    (ha : (s.ipc p).threadState ≠ .aborted) : Existing s p ∧ p ≠ nilTcb := by
  refine ⟨?_, fun hn => ha (by rw [hn, hi.nil_state])⟩
  by_contra hp
  have hpi : p ≠ .idle := fun he => hf (by rw [he, hi.idle_state])
  rcases hi.dead p hp hpi with h | h
  · exact ha h
  · exact hf h.1

/-- What the scheduler returns exists, unless it is the idle thread, and may run. -/
lemma Inv.existing_of_running {p : TcbPtr} (hr : isRunning (s.ipc p).threadState)
    (ht : 0 < (s.ipc p).timeslice) : p = .idle ∨ Existing s p ∧ p ≠ nilTcb := by
  by_cases hpi : p = .idle
  · exact Or.inl hpi
  · have hp : Existing s p := by
      by_contra hp
      rcases hi.dead p hp hpi with h | h
      · rw [h] at hr; simp at hr
      · exact absurd ht (by omega)
    refine Or.inr ⟨hp, fun hn => ?_⟩
    rw [hn, hi.nil_state] at hr
    simp at hr

/-- A thread whose id is a valid destination exists. -/
lemma Inv.existing_of_myself {dst : Tid} (h : (s.ipc (tidToTcb dst)).myself = dst) :
    Existing s (tidToTcb dst) ∧ tidToTcb dst ≠ nilTcb := by
  have hn : tidToTcb dst ≠ nilTcb := fun hn => by
    rw [hn, hi.nil_myself] at h
    rw [← h] at hn
    exact absurd hn (by decide)
  refine ⟨⟨by simp [tidToTcb], fun h0 => hn ?_⟩, hn⟩
  rw [← h, h0]; rfl

/-- Only a locked receiver is sent to by a sender it has picked. -/
lemma Inv.not_sends_of_state {p x : TcbPtr} (hp : Existing s p) (hpn : p ≠ nilTcb)
    (h : (s.ipc p).threadState ≠ .lockedWaiting) : ¬Sends s x (s.ipc p).myself := by
  intro hs
  have hl := hi.locked _ _ hs
  rw [(hi.ident p hp hpn).1] at hl
  exact h hl.2.2.2.1

/-- The running thread is not sent to by a sender it has picked. -/
lemma Inv.not_sends_current {x : TcbPtr} (hc : s.current ≠ .idle) :
    ¬Sends s x (s.ipc s.current).myself := by
  intro hs
  rcases hi.current with h | ⟨h, hn, -⟩
  · exact hc h
  · exact (hi.locked _ _ hs).2.2.2.2 (hi.ident _ h hn).1

lemma Inv.poller_ne_nil {t p : TcbPtr} (h : Poller d s t p) : p ≠ nilTcb := fun hn => by
  have := h.polling
  rw [hn, hi.nil_state] at this
  simp at this

end Basics

/-! ### Changing one thread -/

/-- The thread `p` is given another state, partner and continuation; the links of
the send queues are not looked at. -/
structure Change (s s' : Sys) (p : TcbPtr) (st : ThreadState) (pt : Tid) (c : Cont) : Prop where
  myself : ∀ q, (s'.ipc q).myself = (s.ipc q).myself
  space : ∀ q, (s'.ipc q).space = (s.ipc q).space
  timeslice : ∀ q, (s'.ipc q).timeslice = (s.ipc q).timeslice
  threadState : ∀ q, (s'.ipc q).threadState = if q = p then st else (s.ipc q).threadState
  partner : ∀ q, (s'.ipc q).partner = if q = p then pt else (s.ipc q).partner
  cont : ∀ q, (s'.ipc q).cont = if q = p then c else (s.ipc q).cont
  present : s'.present = s.present
  nextSpace : s'.nextSpace = s.nextSpace

/-- The links of the send queues are the same. -/
def SameLinks (s s' : Sys) : Prop :=
  ∀ q, (s'.ipc q).sendQueue = (s.ipc q).sendQueue ∧ (s'.ipc q).sendNext = (s.ipc q).sendNext
    ∧ (s'.ipc q).sendPrev = (s.ipc q).sendPrev

/-- A thread that may be switched to. -/
structure Runnable (d : Deletion) (s : Sys) (p : TcbPtr) : Prop where
  existing : Existing s p
  ne_nil : p ≠ nilTcb
  live : ¬d.dead p
  not_polling : (s.ipc p).threadState ≠ .polling
  not_target : ∀ x, ¬Sends s x (s.ipc p).myself

lemma SameLinks.sendRing {s s' : Sys} (h : SameLinks s s') {t : TcbPtr} {l : List TcbPtr}
    (hr : SendRing s t l) : SendRing s' t l :=
  hr.congr (h t).1 (fun q _ => (h q).2.1) fun q _ => (h q).2.2

namespace Change

variable {d : Deletion} {s s' : Sys} {p : TcbPtr} {st : ThreadState} {pt : Tid} {c : Cont}
  (h : Change s s' p st pt c)
include h

lemma state_self : (s'.ipc p).threadState = st := by rw [h.threadState, if_pos rfl]

lemma partner_self : (s'.ipc p).partner = pt := by rw [h.partner, if_pos rfl]

lemma cont_self : (s'.ipc p).cont = c := by rw [h.cont, if_pos rfl]

lemma state_other {q : TcbPtr} (hq : q ≠ p) : (s'.ipc q).threadState = (s.ipc q).threadState := by
  rw [h.threadState, if_neg hq]

lemma partner_other {q : TcbPtr} (hq : q ≠ p) : (s'.ipc q).partner = (s.ipc q).partner := by
  rw [h.partner, if_neg hq]

lemma cont_other {q : TcbPtr} (hq : q ≠ p) : (s'.ipc q).cont = (s.ipc q).cont := by
  rw [h.cont, if_neg hq]

lemma existing_iff (q : TcbPtr) : Existing s' q ↔ Existing s q := by
  rw [Existing, Existing, h.myself]

lemma limbo_self : Limbo d s' p ↔ d.dead p ∧ c = .user := by rw [Limbo, h.cont_self]

lemma limbo_iff {q : TcbPtr} (hq : q ≠ p) : Limbo d s' q ↔ Limbo d s q := by
  rw [Limbo, Limbo, h.cont_other hq]

lemma poller_other {q : TcbPtr} (hq : q ≠ p) (t : TcbPtr) :
    Poller d s' t q ↔ Poller d s t q := by
  constructor
  · rintro ⟨h1, h2, h3, h4⟩
    rw [h.state_other hq] at h2
    rw [h.partner_other hq, h.myself] at h3
    exact ⟨(h.existing_iff q).mp h1, h2, h3, fun hl => h4 ((h.limbo_iff hq).mpr hl)⟩
  · rintro ⟨h1, h2, h3, h4⟩
    refine ⟨(h.existing_iff q).mpr h1, ?_, ?_, fun hl => h4 ((h.limbo_iff hq).mp hl)⟩
    · rw [h.state_other hq]; exact h2
    · rw [h.partner_other hq, h.myself]; exact h3

/-- A thread that polls neither before nor after is in no queue. -/
lemma poller_iff (hold : (s.ipc p).threadState ≠ .polling ∨ Limbo d s p)
    (hnew : st ≠ .polling ∨ d.dead p ∧ c = .user) (t q : TcbPtr) :
    Poller d s' t q ↔ Poller d s t q := by
  by_cases hq : q = p
  · subst hq
    constructor
    · intro hp
      rcases hnew with hn | hn
      · exact absurd (h.state_self.symm.trans hp.polling) hn
      · exact absurd (h.limbo_self.mpr hn) hp.live
    · intro hp
      rcases hold with ho | ho
      · exact absurd hp.polling ho
      · exact absurd ho hp.live
  · exact h.poller_other hq t

lemma sends_other {q : TcbPtr} (hq : q ≠ p) (dst : Tid) : Sends s' q dst ↔ Sends s q dst := by
  constructor
  · rintro ⟨h1, h2, h3⟩
    rw [h.state_other hq] at h2
    rw [h.cont_other hq] at h3
    exact ⟨(h.existing_iff q).mp h1, h2, h3⟩
  · rintro ⟨h1, h2, h3⟩
    refine ⟨(h.existing_iff q).mpr h1, ?_, ?_⟩
    · rw [h.state_other hq]; exact h2
    · rw [h.cont_other hq]; exact h3

end Change

/-- A change that leaves the links alone. -/
lemma Change.of_ipc (s s' : Sys) (p : TcbPtr) (st : ThreadState) (pt : Tid) (c : Cont)
    (h : ∀ q, s'.ipc q =
      if q = p then { s.ipc p with threadState := st, partner := pt, cont := c } else s.ipc q)
    (hpr : s'.present = s.present) (hns : s'.nextSpace = s.nextSpace) :
    Change s s' p st pt c ∧ SameLinks s s' := by
  refine ⟨⟨?_, ?_, ?_, ?_, ?_, ?_, hpr, hns⟩, fun q => ⟨?_, ?_, ?_⟩⟩
  all_goals
    try intro q
    rw [h q]
    by_cases hq : q = p
    · subst hq; simp
    · simp [hq]

namespace Change

variable {d : Deletion} {s s' : Sys} {p : TcbPtr} {st : ThreadState} {pt : Tid} {c : Cont}

/-- A thread that is not the current one and may not run is not switched to. -/
lemma ne_current {q : TcbPtr} (hq : Existing s q) (hqp : q ≠ p) (hqc : q ≠ s.current)
    (hrun : ¬Runnable d s q)
    (hcur : s'.current = .idle ∨ s'.current = p ∧ ¬d.dead p ∨ s'.current = s.current
      ∨ Runnable d s s'.current) : q ≠ s'.current := by
  intro he
  rcases hcur with hc | hc | hc | hc
  · exact hq.1 (he.trans hc)
  · exact hqp (he.trans hc.1)
  · exact hqc (he.trans hc)
  · exact hrun (he ▸ hc)

/-- No locked sender shares its receiver with another. -/
lemma locked_unique (hi : Inv d s) (h : Change s s' p st pt c)
    (hself : ∀ dst, Sends s' p dst → ∀ x, ¬Sends s x dst) {q r : TcbPtr} {dst : Tid}
    (hq : Sends s' q dst) (hr : Sends s' r dst) : q = r := by
  by_cases hqp : q = p
  · by_cases hrp : r = p
    · rw [hqp, hrp]
    · subst hqp
      exact absurd ((h.sends_other hrp dst).mp hr) (hself dst hq r)
  · by_cases hrp : r = p
    · subst hrp
      exact absurd ((h.sends_other hqp dst).mp hq) (hself dst hr q)
    · exact hi.locked_unique q r dst ((h.sends_other hqp dst).mp hq)
        ((h.sends_other hrp dst).mp hr)

/-- A waiting receiver does not wait for one that polls it. -/
lemma rendezvous (hi : Inv d s) (h : Change s s' p st pt c)
    (hrv : st = .waiting → ∀ x, x ≠ p → Poller d s p x → pt ≠ nilId ∧ pt ≠ (s.ipc x).myself)
    (hrv' : st = .polling → ∀ r, r ≠ p → Existing s r → (s.ipc r).myself = pt →
      (s.ipc r).threadState = .waiting →
      (s.ipc r).partner ≠ nilId ∧ (s.ipc r).partner ≠ (s.ipc p).myself) {q r : TcbPtr}
    (hr : Existing s' r) (hq : Poller d s' r q) (hrs : (s'.ipc r).threadState = .waiting) :
    (s'.ipc r).partner ≠ nilId ∧ (s'.ipc r).partner ≠ (s'.ipc q).myself := by
  rw [h.myself]
  by_cases hqp : q = p
  · subst hqp
    have hst := h.state_self.symm.trans hq.polling
    have hrp : r ≠ q := fun he => by
      rw [he, h.state_self, hst] at hrs; simp at hrs
    have hpart := hq.partner
    rw [h.partner_self, h.myself] at hpart
    rw [h.state_other hrp] at hrs
    rw [h.partner_other hrp]
    exact hrv' hst r hrp ((h.existing_iff r).mp hr) hpart.symm hrs
  · have hq := (h.poller_other hqp r).mp hq
    by_cases hrp : r = p
    · subst hrp
      rw [h.state_self] at hrs
      rw [h.partner_self]
      exact hrv hrs q hqp hq
    · rw [h.state_other hrp] at hrs
      rw [h.partner_other hrp]
      exact hi.rendezvous q r ((h.existing_iff r).mp hr) hq hrs

/-- A thread that changes, and is locked with a receiver then, is meant to be. -/
lemma sends_self {C : Tid → Prop} (h : Change s s' p st pt c)
    (hsp : ∀ dst sd rd, c = .sendPoll dst sd rd →
      st = .polling ∨ st = .running ∨ (st = .lockedRunning ∧ C dst)) {dst : Tid}
    (hs : Sends s' p dst) : st = .lockedRunning ∧ C dst := by
  obtain ⟨sd, rd, hcont⟩ := hs.cont
  have hst := hs.state
  rw [h.cont_self] at hcont
  rw [h.state_self] at hst
  rcases hsp dst sd rd hcont with h1 | h1 | h1
  · exact absurd (h1.symm.trans hst) (by decide)
  · exact absurd (h1.symm.trans hst) (by decide)
  · exact h1

/-- The threads that poll after a change. -/
lemma polling (h : Change s s' p st pt c) (hi : Inv d s)
    (hpoll : st = .polling → d.dead p ∧ c = .user ∨ (p ≠ s'.current ∧ Existing s (tidToTcb pt)
      ∧ (s.ipc (tidToTcb pt)).myself = pt ∧ ∃ sd rd, c = .sendPoll pt sd rd))
    (hcur : s'.current = .idle ∨ s'.current = p ∧ ¬d.dead p ∨ s'.current = s.current
      ∨ Runnable d s s'.current)
    {q : TcbPtr} (hq : Existing s' q) (hqs : (s'.ipc q).threadState = .polling)
      (hql : ¬Limbo d s' q) :
    q ≠ s'.current ∧ Existing s' (tidToTcb (s'.ipc q).partner)
      ∧ (s'.ipc (tidToTcb (s'.ipc q).partner)).myself = (s'.ipc q).partner
      ∧ ∃ sd rd, (s'.ipc q).cont = .sendPoll (s'.ipc q).partner sd rd := by
  by_cases hqp : q = p
  · subst hqp
    rw [h.state_self] at hqs
    rw [h.limbo_self] at hql
    rw [h.partner_self, h.cont_self, h.existing_iff, h.myself]
    exact (hpoll hqs).resolve_left hql
  · rw [h.state_other hqp] at hqs
    have hql' : ¬Limbo d s q := fun hl => hql ((h.limbo_iff hqp).mpr hl)
    obtain ⟨h1, h2, h3, h4⟩ := hi.polling q ((h.existing_iff q).mp hq) hqs hql'
    rw [h.partner_other hqp, h.cont_other hqp, h.existing_iff, h.myself]
    exact ⟨Change.ne_current ((h.existing_iff q).mp hq) hqp h1
      (fun hrun => hrun.not_polling hqs) hcur,
      h2, h3, h4⟩

/-- The threads that are locked with a receiver after a change. -/
lemma locked (h : Change s s' p st pt c) (hi : Inv d s)
    (hself : ∀ dst, Sends s' p dst → pt = dst ∧ Existing s (tidToTcb dst)
      ∧ (s.ipc (tidToTcb dst)).myself = dst ∧ (s.ipc (tidToTcb dst)).threadState = .lockedWaiting
      ∧ tidToTcb dst ≠ s'.current ∧ tidToTcb dst ≠ p)
    (hne : ∀ x dst, Sends s x dst → tidToTcb dst ≠ p)
    (hcur : s'.current = .idle ∨ s'.current = p ∧ ¬d.dead p ∨ s'.current = s.current
      ∨ Runnable d s s'.current) {q : TcbPtr} {dst : Tid} (hs : Sends s' q dst) :
    (s'.ipc q).partner = dst ∧ Existing s' (tidToTcb dst)
      ∧ (s'.ipc (tidToTcb dst)).myself = dst ∧ (s'.ipc (tidToTcb dst)).threadState = .lockedWaiting
      ∧ tidToTcb dst ≠ s'.current := by
  by_cases hqp : q = p
  · subst hqp
    obtain ⟨h1, h2, h3, h4, h5, h6⟩ := hself dst hs
    rw [h.partner_self, h.existing_iff, h.myself, h.state_other h6]
    exact ⟨h1, h2, h3, h4, h5⟩
  · have hs := (h.sends_other hqp dst).mp hs
    obtain ⟨h1, h2, h3, h4, h5⟩ := hi.locked q dst hs
    have hdp := hne q dst hs
    rw [h.partner_other hqp, h.existing_iff, h.myself, h.state_other hdp]
    have hrun : ¬Runnable d s (tidToTcb dst) := fun hrun => hrun.not_target q (by rw [h3]; exact hs)
    exact ⟨h1, h2, h3, h4, Change.ne_current h2 hdp h5 hrun hcur⟩

/-- The threads that wait after a change. -/
lemma waiting (h : Change s s' p st pt c) (hi : Inv d s)
    (hw : st = .waiting → Receiving c ∨ d.dead p ∧ c = .user) {q : TcbPtr} (hq : Existing s' q)
    (hqs : (s'.ipc q).threadState = .waiting) (hql : ¬Limbo d s' q) :
        Receiving (s'.ipc q).cont := by
  by_cases hqp : q = p
  · subst hqp
    rw [h.limbo_self] at hql
    rw [h.state_self] at hqs
    rw [h.cont_self]
    exact (hw hqs).resolve_right hql
  · rw [h.state_other hqp] at hqs
    rw [h.cont_other hqp]
    exact hi.waiting q ((h.existing_iff q).mp hq) hqs fun hl => hql ((h.limbo_iff hqp).mpr hl)

end Change

/-- **Changing one thread**, possibly together with a switch: everything but the
send queues themselves. -/
lemma Inv.change {d : Deletion} {s s' : Sys} (hi : Inv d s) {p : TcbPtr} {st : ThreadState}
    {pt : Tid} {c : Cont} (h : Change s s' p st pt c) (hp : Existing s p) (hpn : p ≠ nilTcb)
    (hfree : st ≠ .free)
    (hring : ∀ t, Existing s t → ∃ l, SendRing s' t l ∧ ∀ q, q ∈ l ↔ Poller d s' t q)
    (hpoll : st = .polling → d.dead p ∧ c = .user ∨ (p ≠ s'.current ∧ Existing s (tidToTcb pt)
      ∧ (s.ipc (tidToTcb pt)).myself = pt ∧ ∃ sd rd, c = .sendPoll pt sd rd))
    (hsp : ∀ dst sd rd, c = .sendPoll dst sd rd → st = .polling ∨ st = .running ∨
      (st = .lockedRunning ∧ pt = dst ∧ Existing s (tidToTcb dst)
        ∧ (s.ipc (tidToTcb dst)).myself = dst
        ∧ (s.ipc (tidToTcb dst)).threadState = .lockedWaiting
        ∧ tidToTcb dst ≠ s'.current ∧ tidToTcb dst ≠ p ∧ ∀ x, ¬Sends s x dst))
    (hlw : st = .lockedWaiting → c = .recvReady)
    (hw : st = .waiting → Receiving c ∨ d.dead p ∧ c = .user)
    (htarget : ∀ x, ¬Sends s x (s.ipc p).myself)
    (hwake : ∀ q ∈ s'.wakeup, q ∈ s.wakeup ∧ q ≠ p ∨
      q = p ∧ (st = .polling ∧ ¬(d.dead p ∧ c = .user) ∨ Receiving c ∧ st ≠ .running))
    (hrv : st = .waiting → ∀ x, x ≠ p → Poller d s p x → pt ≠ nilId ∧ pt ≠ (s.ipc x).myself)
    (hrv' : st = .polling → ∀ r, r ≠ p → Existing s r → (s.ipc r).myself = pt →
      (s.ipc r).threadState = .waiting →
      (s.ipc r).partner ≠ nilId ∧ (s.ipc r).partner ≠ (s.ipc p).myself)
    (hcur : s'.current = .idle ∨ s'.current = p ∧ ¬d.dead p ∨ s'.current = s.current
      ∨ Runnable d s s'.current)
    (hz : ∀ q, d.rest q → Existing s q → Limbo d s' q → (s'.ipc q).threadState = .polling →
      (¬Existing s (tidToTcb (s'.ipc q).partner) ∨ d.dying (tidToTcb (s'.ipc q).partner))
      ∧ ∀ x t, ((s'.ipc q).sendNext = some x ∨ (s'.ipc q).sendPrev = some x) → Existing s t →
        Poller d s' t x → d.dying t) : Inv d s' := by
  have hne : ∀ x dst, Sends s x dst → tidToTcb dst ≠ p := fun x dst hs he =>
    htarget x (by
      have hl := hi.locked x dst hs
      rw [he] at hl
      rw [hl.2.2.1]; exact hs)
  -- the sender that `p` may have become
  have hself := fun dst (hs : Sends s' p dst) => (h.sends_self hsp hs).2
  refine ⟨hi.toWf.states h.myself h.space h.timeslice h.present h.nextSpace ?_ ?_ ?_,
    ?_, ?_, ?_, ?_, ?_, ?_, ?_, ?_, ?_, ?_, ?_⟩
  · exact h.cont_other (Ne.symm hp.1)
  · exact h.cont_other (Ne.symm hpn)
  · intro q
    by_cases hq : q = p
    · subst hq
      exact Or.inr ⟨hp, hpn, by rw [h.state_self]; exact hfree⟩
    · exact Or.inl (h.state_other hq)
  · intro t ht
    exact hring t ((h.existing_iff t).mp ht)
  · exact fun q hq hqs hql => h.polling hi hpoll hcur hq hqs hql
  · -- sendPoll
    intro q dst sd rd hq hqc
    by_cases hqp : q = p
    · subst hqp
      rw [h.cont_self] at hqc
      rw [h.state_self]
      rcases hsp dst sd rd hqc with h1 | h1 | h1
      · exact Or.inl h1
      · exact Or.inr (Or.inr h1)
      · exact Or.inr (Or.inl h1.1)
    · rw [h.cont_other hqp] at hqc
      rw [h.state_other hqp]
      exact hi.sendPoll q dst sd rd ((h.existing_iff q).mp hq) hqc
  · intro q dst hs
    refine h.locked hi (fun dst hs => ?_) hne hcur hs
    obtain ⟨h1, h2, h3, h4, h5, h6, -⟩ := hself dst hs
    exact ⟨h1, h2, h3, h4, h5, h6⟩
  · exact fun q r dst hq hr =>
      h.locked_unique hi (fun dst hs => (hself dst hs).2.2.2.2.2.2) hq hr
  · intro q hq hqs
    by_cases hqp : q = p
    · subst hqp
      rw [h.state_self] at hqs
      rw [h.cont_self]
      exact hlw hqs
    · rw [h.state_other hqp] at hqs
      rw [h.cont_other hqp]
      exact hi.lockedWaiting q ((h.existing_iff q).mp hq) hqs
  · exact fun q hq hqs hql => h.waiting hi hw hq hqs hql
  · intro q hq
    rcases hwake q hq with ⟨hq, hqp⟩ | ⟨rfl, hrec⟩
    · obtain ⟨h1, h2⟩ := hi.wakeup q hq
      rw [h.existing_iff, h.state_other hqp, h.cont_other hqp, h.limbo_iff hqp]
      exact ⟨h1, h2⟩
    · rw [h.existing_iff, h.state_self, h.cont_self, h.limbo_self]
      exact ⟨hp, hrec⟩
  · rw [h.existing_iff]
    rcases hcur with hc' | hc' | hc' | hc'
    · exact Or.inl hc'
    · exact Or.inr (hc'.1 ▸ ⟨hp, hpn, hc'.2⟩)
    · rw [hc']; exact hi.current
    · exact Or.inr ⟨hc'.existing, hc'.ne_nil, hc'.live⟩
  · exact fun q r hr hq hrs => h.rendezvous hi hrv hrv' hr hq hrs
  · intro q hrest hq hql hqs
    obtain ⟨h1, h2⟩ := hz q hrest ((h.existing_iff q).mp hq) hql hqs
    exact ⟨by rw [h.existing_iff]; exact h1,
      fun x t hx ht => h2 x t hx ((h.existing_iff t).mp ht)⟩

/-- **Changing one thread** that is in no send queue. -/
lemma Inv.update {d : Deletion} {s s' : Sys} (hi : Inv d s) {p : TcbPtr} {st : ThreadState}
    {pt : Tid} {c : Cont} (h : Change s s' p st pt c) (hlinks : SameLinks s s')
    (hp : Existing s p) (hpn : p ≠ nilTcb)
    (hold : (s.ipc p).threadState ≠ .polling ∨ Limbo d s p)
    (hnew : st ≠ .polling) (hfree : st ≠ .free) (hc : ∀ dst sd rd, c ≠ .sendPoll dst sd rd)
    (hlw : st = .lockedWaiting → c = .recvReady)
    (hw : st = .waiting → Receiving c ∨ d.dead p ∧ c = .user)
    (htarget : ∀ x, ¬Sends s x (s.ipc p).myself)
    (hwake : ∀ q ∈ s'.wakeup, q ∈ s.wakeup ∧ q ≠ p ∨ q = p ∧ Receiving c ∧ st ≠ .running)
    (hrv : st = .waiting → ∀ x, Poller d s p x → pt ≠ nilId ∧ pt ≠ (s.ipc x).myself)
    (hcur : s'.current = .idle ∨ s'.current = p ∧ ¬d.dead p ∨ s'.current = s.current
      ∨ Runnable d s s'.current) : Inv d s' := by
  have hpoll := h.poller_iff (d := d) hold (Or.inl hnew)
  refine hi.change h hp hpn hfree ?_ (fun he => absurd he hnew) (fun dst sd rd he => absurd he
    (hc dst sd rd)) hlw hw htarget ?_ (fun he x _ => hrv he x) (fun he => absurd he hnew) hcur ?_
  · intro t ht
    obtain ⟨l, hl, hmem⟩ := hi.ring t ht
    exact ⟨l, hlinks.sendRing hl, fun q => (hmem q).trans (hpoll t q).symm⟩
  · intro q hq
    rcases hwake q hq with h1 | h1
    · exact Or.inl h1
    · exact Or.inr ⟨h1.1, Or.inr h1.2⟩
  · intro q hrest hq hql hqs
    have hqp : q ≠ p := fun he => hnew (by rw [← h.state_self, ← he]; exact hqs)
    rw [h.state_other hqp] at hqs
    rw [h.partner_other hqp, (hlinks q).2.1, (hlinks q).2.2]
    obtain ⟨h1, h2⟩ := hi.zombie q hrest hq ((h.limbo_iff hqp).mp hql) hqs
    exact ⟨h1, fun x t hx ht hxt => h2 x t hx ht ((hpoll t x).mp hxt)⟩

/-- **Switching** without a change of any thread. -/
lemma Inv.switch {d : Deletion} {s s' : Sys} (hi : Inv d s) (hipc : s'.ipc = s.ipc)
    (hwake : s'.wakeup = s.wakeup) (hpr : s'.present = s.present)
    (hns : s'.nextSpace = s.nextSpace)
    (hcur : s'.current = .idle ∨ Runnable d s s'.current) : Inv d s' := by
  refine ⟨hi.toWf.states (fun q => by rw [hipc]) (fun q => by rw [hipc]) (fun q => by rw [hipc])
    hpr hns (by rw [hipc]) (by rw [hipc]) fun q => Or.inl (by rw [hipc]), ?_, ?_, ?_, ?_, ?_, ?_,
    ?_, ?_, ?_, ?_,
    ?_⟩
  all_goals
    simp only [existing_congr hipc, limbo_congr hipc, poller_congr hipc, sends_congr hipc,
      sendRing_congr hipc, hipc, hwake]
  · exact hi.ring
  · intro p hp hs hl
    obtain ⟨-, h2⟩ := hi.polling p hp hs hl
    refine ⟨fun he => ?_, h2⟩
    rcases hcur with hc | hc
    · exact hp.1 (he.trans hc)
    · exact hc.not_polling (he ▸ hs)
  · exact hi.sendPoll
  · intro p dst hs
    obtain ⟨h1, h2, h3, h4, -⟩ := hi.locked p dst hs
    refine ⟨h1, h2, h3, h4, fun he => ?_⟩
    rcases hcur with hc | hc
    · exact h2.1 (he.trans hc)
    · exact hc.not_target p (by rw [← he, h3]; exact hs)
  · exact hi.locked_unique
  · exact hi.lockedWaiting
  · exact hi.waiting
  · exact hi.wakeup
  · rcases hcur with hc | hc
    · exact Or.inl hc
    · exact Or.inr ⟨hc.existing, hc.ne_nil, hc.live⟩
  · exact hi.rendezvous
  · exact hi.zombie

/-! ### Entering and leaving a send queue -/

/-- **Entering** the send queue of `q`. -/
lemma Inv.poll {d : Deletion} {s s' : Sys} (hi : Inv d s) {p : TcbPtr} (q : TcbPtr) (sd rd : Word)
    (h : Change s s' p .polling (s.ipc q).myself (.sendPoll (s.ipc q).myself sd rd))
    (hlinks : SameLinks (threadEnqueueSend s q p) s') (hd : ∀ x, ¬d.rest x)
    (hp : Existing s p) (hpn : p ≠ nilTcb) (hq : Existing s q) (hqn : q ≠ nilTcb)
    (hold : (s.ipc p).threadState ≠ .polling) (htarget : ∀ x, ¬Sends s x (s.ipc p).myself)
    (hrv : (s.ipc q).threadState = .waiting →
      (s.ipc q).partner ≠ nilId ∧ (s.ipc q).partner ≠ (s.ipc p).myself)
    (hwake : ∀ x ∈ s'.wakeup, x ∈ s.wakeup ∧ x ≠ p ∨ x = p) (hcur : s'.current = .idle) :
    Inv d s' := by
  have hmy := (hi.ident q hq hqn).1
  have hpoll : Poller d s' q p :=
    ⟨(h.existing_iff p).mpr hp, h.state_self, by rw [h.partner_self, h.myself],
      fun hl => by simpa [h.cont_self] using hl.2⟩
  have hnot : ∀ t, ¬Poller d s t p := fun t ht => hold ht.polling
  refine hi.change h hp hpn (by simp) ?_ (fun _ => Or.inr ?_) (fun _ _ _ _ => Or.inl rfl)
    (by simp) (by simp) htarget ?_ (by simp) ?_ (Or.inl hcur) fun x hx => absurd hx (hd x)
  · intro t ht
    obtain ⟨l, hl, hmem⟩ := hi.ring q hq
    have hpl : p ∉ l := fun hm => hnot q ((hmem p).mp hm)
    by_cases htq : t = q
    · subst htq
      refine ⟨l ++ [p], hlinks.sendRing (sendRing_enqueue hl hpl), fun x => ?_⟩
      by_cases hx : x = p
      · subst hx; simp [hpoll]
      · rw [h.poller_other hx, ← hmem]; simp [hx]
    · obtain ⟨l', hl', hmem'⟩ := hi.ring t ht
      have hsep : ∀ x, Poller d s q x → ¬Poller d s t x := fun x hx hx' =>
        htq (hi.myself_inj hq ht hqn (hx.partner.symm.trans hx'.partner)).symm
      refine ⟨l', hlinks.sendRing (sendRing_enqueue_other hl hl' htq
        (fun hm => hnot t ((hmem' p).mp hm))
        fun x hx hx' => hsep x ((hmem x).mp hx) ((hmem' x).mp hx')), fun x => ?_⟩
      by_cases hx : x = p
      · subst hx
        refine ⟨fun hm => absurd ((hmem' x).mp hm) (hnot t), fun hx' => ?_⟩
        have he := hx'.partner
        rw [h.partner_self, h.myself] at he
        exact absurd (hi.myself_inj hq ht hqn he).symm htq
      · rw [h.poller_other hx, ← hmem']
  · rw [hmy]
    exact ⟨fun he => hp.1 (he.trans hcur), hq, rfl, sd, rd, rfl⟩
  · intro x hx
    rcases hwake x hx with h1 | h1
    · exact Or.inl h1
    · exact Or.inr ⟨h1, Or.inl ⟨rfl, by simp⟩⟩
  · intro _ r _ hr he hrs
    obtain rfl := hi.myself_inj hq hr hqn he.symm
    exact hrv hrs

/-- What is left of the links when `p` leaves the send queue of `t`: the links of
threads outside of that queue, and its own, stay. -/
lemma SendRing.dequeue_links {s : Sys} {t p q : TcbPtr} {l : List TcbPtr} (h : SendRing s t l)
    (hp : p ∈ l) (hq : q ∉ l ∨ q = p) :
    ((threadDequeueSend s t p).ipc q).sendNext = (s.ipc q).sendNext
      ∧ ((threadDequeueSend s t p).ipc q).sendPrev = (s.ipc q).sendPrev := by
  by_cases hself : (s.ipc p).sendNext = some p
  · exact (dequeueSend_self (t := t) hself q).2
  · have hl := (dequeueSend_links (t := t) hself q).2
    have hb : (s.ipc p).sendPrev ≠ some q := fun hb => by
      rcases hq with hq | hq
      · exact hq (h.ring.prev_mem hp hb)
      · subst hq
        exact hself (h.ring.next_of_prev hp hb)
    have hn : (s.ipc p).sendNext ≠ some q := fun hn => by
      rcases hq with hq | hq
      · exact hq (h.ring.next_mem hp hn)
      · exact hself (by rw [hq] at hn; exact hn)
    rw [hl.1, hl.2, if_neg hb, if_neg hn]
    exact ⟨rfl, rfl⟩

lemma SameLinks.symm {s s' : Sys} (h : SameLinks s s') : SameLinks s' s := fun q =>
  ⟨(h q).1.symm, (h q).2.1.symm, (h q).2.2.symm⟩

lemma SameLinks.trans {s s' s'' : Sys} (h : SameLinks s s') (h' : SameLinks s' s'') :
    SameLinks s s'' := fun q =>
  ⟨(h' q).1.trans (h q).1, (h' q).2.1.trans (h q).2.1, (h' q).2.2.trans (h q).2.2⟩

/-- Dequeuing works on the links only. -/
lemma SameLinks.dequeueSend {s s' : Sys} (h : SameLinks s s') (t p : TcbPtr) :
    SameLinks (threadDequeueSend s t p) (threadDequeueSend s' t p) := by
  intro q
  by_cases hself : (s.ipc p).sendNext = some p
  · have h1 := dequeueSend_self (t := t) hself q
    have h2 := dequeueSend_self (s := s') (t := t) ((h p).2.1.trans hself) q
    rw [h1.1, h1.2.1, h1.2.2, h2.1, h2.2.1, h2.2.2, (h q).1, (h q).2.1, (h q).2.2]
    exact ⟨rfl, rfl, rfl⟩
  · have h1 := dequeueSend_links (t := t) hself q
    have h2 := dequeueSend_links (s := s') (t := t) (by rw [(h p).2.1]; exact hself) q
    rw [h1.1, h1.2.1, h1.2.2, h2.1, h2.2.1, h2.2.2, (h q).1, (h q).2.1, (h q).2.2, (h p).2.1,
      (h p).2.2, (h t).1]
    exact ⟨rfl, rfl, rfl⟩

/-- Enqueuing works on the links only. -/
lemma SameLinks.enqueueSend {s s' : Sys} (h : SameLinks s s') (t p : TcbPtr) :
    SameLinks (threadEnqueueSend s t p) (threadEnqueueSend s' t p) := by
  intro q
  cases hq : (s.ipc t).sendQueue with
  | none =>
      have h1 := enqueueSend_nil (a := p) hq q
      have h2 := enqueueSend_nil (s := s') (a := p) ((h t).1.trans hq) q
      rw [h1.1, h1.2.1, h1.2.2, h2.1, h2.2.1, h2.2.2, (h q).1, (h q).2.1, (h q).2.2]
      exact ⟨rfl, rfl, rfl⟩
  | some a =>
      have h1 := enqueueSend_cons (a := p) hq q
      have h2 := enqueueSend_cons (s := s') (a := p) ((h t).1.trans hq) q
      rw [h1.1, h1.2.1, h1.2.2, h2.1, h2.2.1, h2.2.2, (h q).1, (h q).2.1, (h q).2.2, (h a).2.2]
      exact ⟨rfl, rfl, rfl⟩

/-- **Leaving** the send queue of `t`. -/
lemma Inv.unpoll {d : Deletion} {s s' : Sys} (hi : Inv d s) {t p : TcbPtr} {st : ThreadState}
    {pt : Tid} {c : Cont} (hpoll : Poller d s t p) (ht : Existing s t) (htn : t ≠ nilTcb)
    (h : Change s s' p st pt c) (hlinks : SameLinks (threadDequeueSend s t p) s')
    (hnew : st ≠ .polling ∨ (d.dead p ∧ c = .user) ∧ pt = (s.ipc t).myself ∧ (d.rest p → d.dying t))
    (hfree : st ≠ .free) (hlw : st ≠ .lockedWaiting) (hw : st ≠ .waiting)
    (hsp : ∀ dst sd rd, c = .sendPoll dst sd rd → st = .running ∨
      (st = .lockedRunning ∧ pt = dst ∧ Existing s (tidToTcb dst)
        ∧ (s.ipc (tidToTcb dst)).myself = dst
        ∧ (s.ipc (tidToTcb dst)).threadState = .lockedWaiting
        ∧ tidToTcb dst ≠ s'.current ∧ tidToTcb dst ≠ p ∧ ∀ x, ¬Sends s x dst))
    (hwake : ∀ q ∈ s'.wakeup, q ∈ s.wakeup ∧ q ≠ p)
    (hcur : s'.current = .idle ∨ s'.current = p ∧ ¬d.dead p ∨ s'.current = s.current
      ∨ Runnable d s s'.current) : Inv d s' := by
  have hp := hpoll.existing
  have hpn := hi.poller_ne_nil hpoll
  have hnot : ∀ u, ¬Poller d s' u p := fun u hu => by
    rcases hnew with hn | hn
    · exact hn (h.state_self.symm.trans hu.polling)
    · exact hu.live (h.limbo_self.mpr hn.1)
  have hsep : ∀ u x, Existing s u → Poller d s t x → Poller d s u x → u = t := fun u x hu h1 h2 =>
    (hi.myself_inj ht hu htn (h1.partner.symm.trans h2.partner)).symm
  have hout : ∀ u x, Poller d s' u x → x ≠ p ∧ Poller d s u x := fun u x hx =>
    have hne : x ≠ p := fun he => hnot u (he ▸ hx)
    ⟨hne, (h.poller_other hne u).mp hx⟩
  obtain ⟨l, hl, hmem⟩ := hi.ring t ht
  have hpl : p ∈ l := (hmem p).mpr hpoll
  refine hi.change h hp hpn hfree ?_ ?_ (fun dst sd rd he => Or.inr (hsp dst sd rd he))
    (fun he => absurd he hlw) (fun he => absurd he hw)
    (fun x => hi.not_sends_of_state hp hpn (by rw [hpoll.polling]; simp))
    (fun q hq => Or.inl (hwake q hq)) (fun he => absurd he hw) ?_ hcur ?_
  · intro u hu
    by_cases hut : u = t
    · subst hut
      refine ⟨l.erase p, hlinks.sendRing (sendRing_dequeue hl hpl), fun x => ?_⟩
      rw [hl.nodup.mem_erase_iff, hmem]
      exact ⟨fun hx => (h.poller_other hx.1 u).mpr hx.2, hout u x⟩
    · obtain ⟨l', hl', hmem'⟩ := hi.ring u hu
      have hdis : ∀ x ∈ l, x ∉ l' := fun x hx hx' =>
        hut (hsep u x hu ((hmem x).mp hx) ((hmem' x).mp hx'))
      refine ⟨l', hlinks.sendRing (sendRing_dequeue_other hl' hut
        (fun x hx => hdis x (hl.ring.next_mem hpl hx))
        fun x hx => hdis x (hl.ring.prev_mem hpl hx)), fun x => ?_⟩
      rw [hmem']
      refine ⟨fun hx => (h.poller_other ?_ u).mpr hx, fun hx => (hout u x hx).2⟩
      exact fun he => hut (hsep u p hu hpoll (he ▸ hx))
  · exact fun he => Or.inl (hnew.resolve_left fun hn => hn he).1
  · intro he
    obtain ⟨-, hpt, -⟩ := hnew.resolve_left fun hn => hn he
    intro r _ hr hrm hrs
    obtain rfl : r = t := (hi.myself_inj ht hr htn (hpt.symm.trans hrm.symm)).symm
    exact hi.rendezvous p r hr hpoll hrs
  · intro q hrest hq hql hqs
    by_cases hqp : q = p
    · subst hqp
      obtain ⟨-, hpt, hdy⟩ := hnew.resolve_left fun hn => hn (h.state_self.symm.trans hqs)
      have hlk := hl.dequeue_links hpl (Or.inr rfl)
      rw [h.partner_self, hpt, (hi.ident t ht htn).1, (hlinks q).2.1, (hlinks q).2.2, hlk.1, hlk.2]
      refine ⟨Or.inr (hdy hrest), fun x u hx hu hxu => ?_⟩
      have hxl : x ∈ l := by
        rcases hx with hx | hx
        · exact hl.ring.next_mem hpl hx
        · exact hl.ring.prev_mem hpl hx
      rw [hsep u x hu ((hmem x).mp hxl) (hout u x hxu).2]
      exact hdy hrest
    · have hql' := (h.limbo_iff hqp).mp hql
      have hlk := hl.dequeue_links hpl (q := q) (Or.inl fun hm => ((hmem q).mp hm).live hql')
      rw [h.state_other hqp] at hqs
      rw [h.partner_other hqp, (hlinks q).2.1, (hlinks q).2.2, hlk.1, hlk.2]
      obtain ⟨h1, h2⟩ := hi.zombie q hrest hq hql' hqs
      exact ⟨h1, fun x u hx hu hxu => h2 x u hx hu (hout u x hxu).2⟩

end Hazelnut

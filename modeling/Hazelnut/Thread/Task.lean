import Mathlib.Data.List.Perm.Subperm
import Mathlib.Tactic.IntervalCases
import Hazelnut.Thread.Unwind

/-!
Creating and deleting threads keep the invariant.

* `Inv.create`: a new thread, in an existing or in a new space.
* `Inv.exRegs`: `sys_lthread_ex_regs`, on a thread that can be unwound.
* `Inv.freeThread`: unwinding a thread of a task being deleted and all who poll for it.
* `Inv.deleteThreads`, `Inv.taskNew`: the deletion of a task whose threads can all be
  unwound and are polled for by threads of the task only.
-/

namespace Hazelnut

variable {d : Deletion} {s s' : Sys} {p q : TcbPtr}

/-! ### New threads -/

/-- What `create_tcb` does, as seen by the rendezvous. -/
lemma createTcb_ipc (s : Sys) (tid : Tid) (space : Option Nat) (r : TcbPtr) :
    (createTcb s tid space).ipc r =
      if r = tidToTcb tid then
        { s.ipc (tidToTcb tid) with
          myself := tid, threadState := .aborted, sendQueue := none,
          space := space.getD s.nextSpace, timeslice := defaultTimeslice }
      else s.ipc r :=
  Sys.upd_part s (tidToTcb tid) r (f := fun t =>
    { t with
      myself := tid, threadState := .aborted, queueReady := false, sendQueue := none,
      intrPending := 0, timeslice := defaultTimeslice, currentTimeslice := 0,
      space := space.getD s.nextSpace }) (fun t => { t with
      myself := tid, threadState := .aborted, sendQueue := none, space := space.getD s.nextSpace,
      timeslice := defaultTimeslice }) (by intro _; rfl)

/-- The state after a thread has been created and started. -/
lemma startThread_ipc (s : Sys) (tid : Tid) (space : Option Nat) (uip usp : Word) (pager : Tid)
    (prio : Nat) (r : TcbPtr) :
    (startThread (createTcb s tid space) (tidToTcb tid) uip usp pager prio).ipc r =
      if r = tidToTcb tid then
        { s.ipc (tidToTcb tid) with
          myself := tid, threadState := .running, sendQueue := none,
          space := space.getD s.nextSpace, cont := .user, timeslice := defaultTimeslice }
      else s.ipc r := by
  rw [startThread, ipc_enqueueReady, Sys.upd_part _ _ _ (fun t =>
    { t with threadState := .running, cont := .user }) (by intro _; rfl), createTcb_ipc,
    createTcb_ipc]
  by_cases hr : r = tidToTcb tid <;> simp [hr]

/-- `s'` is `s` with the new thread `q`. -/
structure Created (s s' : Sys) (q : TcbPtr) (tid : Tid) (space : Nat) : Prop where
  fresh : ¬Existing s q
  ne_idle : q ≠ .idle
  ne_nil : tid ≠ nilId
  self : s'.ipc q = { s.ipc q with
    myself := tid, threadState := .running, sendQueue := none, space := space, cont := .user,
    timeslice := defaultTimeslice }
  other : ∀ r, r ≠ q → s'.ipc r = s.ipc r

namespace Created

variable {s s' : Sys} {q : TcbPtr} {tid : Tid} {space : Nat}

lemma old (hC : Created s s' q tid space) {r : TcbPtr} (hr : Existing s r) : r ≠ q :=
  fun he => hC.fresh (he ▸ hr)

lemma existing_iff (hC : Created s s' q tid space) (r : TcbPtr) : Existing s' r ↔ r = q ∨
    Existing s r := by
  by_cases hr : r = q
  · subst hr
    exact ⟨fun _ => Or.inl rfl, fun _ => ⟨hC.ne_idle, by rw [hC.self]; exact hC.ne_nil⟩⟩
  · rw [Existing, hC.other r hr]
    exact ⟨Or.inr, fun h => h.resolve_left hr⟩

/-- The new thread polls for nobody. -/
lemma poller_ne (hC : Created s s' q tid space) {t r : TcbPtr} (h : Poller .none s' t r) :
    r ≠ q := by
  rintro rfl
  have := h.polling
  rw [hC.self] at this
  simp at this

lemma poller_iff (hC : Created s s' q tid space) {t : TcbPtr} (r : TcbPtr) (ht : Existing s t) :
    Poller .none s' t r ↔ Poller .none s t r := by
  constructor
  · intro h
    have hrq := hC.poller_ne h
    have h1 := h.polling
    have h2 := h.partner
    rw [hC.other r hrq] at h1 h2
    rw [hC.other t (hC.old ht)] at h2
    exact ⟨((hC.existing_iff r).mp h.existing).resolve_left hrq, h1, h2, not_limbo_none _ _⟩
  · intro h
    have hrq := hC.old h.existing
    refine ⟨(hC.existing_iff r).mpr (Or.inr h.existing), ?_, ?_, not_limbo_none _ _⟩
    · rw [hC.other r hrq]; exact h.polling
    · rw [hC.other r hrq, hC.other t (hC.old ht)]; exact h.partner

/-- Nobody polls for it. -/
lemma no_poller (hC : Created s s' q tid space) (hi : Inv .none s) (htq : tidToTcb tid = q)
    (r : TcbPtr) :
    ¬Poller .none s' q r := fun h => by
  have hrq := hC.poller_ne h
  have h1 := h.polling
  have h2 := h.partner
  rw [hC.other r hrq] at h1 h2
  rw [hC.self] at h2
  obtain ⟨-, h3, -⟩ := hi.polling r (((hC.existing_iff r).mp h.existing).resolve_left hrq) h1
    (not_limbo_none _ _)
  rw [h2, htq] at h3
  exact hC.fresh h3

lemma sends_iff (hC : Created s s' q tid space) (r : TcbPtr) (dst : Tid) : Sends s' r dst ↔
    Sends s r dst := by
  by_cases hr : r = q
  · subst hr
    refine ⟨fun h => ?_, fun h => absurd h.existing hC.fresh⟩
    have := h.state
    rw [hC.self] at this
    simp at this
  · constructor
    · rintro ⟨h1, h2, h3⟩
      rw [hC.other r hr] at h2 h3
      exact ⟨((hC.existing_iff r).mp h1).resolve_left hr, h2, h3⟩
    · rintro ⟨h1, h2, h3⟩
      exact ⟨(hC.existing_iff r).mpr (Or.inr h1), by rw [hC.other r hr]; exact h2,
        by rw [hC.other r hr]; exact h3⟩

/-- The control blocks are well formed, if the new thread is identified by a proper id and no other
task has its space. -/
lemma wf (hC : Created s s' q tid space) (hi : Wf s) (htq : tidToTcb tid = q) (hk : ¬isKernelId tid)
    (hinv : tid ≠ invalidId) (hspace : s.nextSpace ≤ s'.nextSpace)
    (hpr : s'.present = q :: s.present)
    (hlt : space < s'.nextSpace) (hpos : 0 < space)
    (htask : ∀ r, Existing s r → r ≠ nilTcb → (s.ipc r).space = space →
      tidTask (s.ipc r).myself = tidTask tid) (hnil : Existing s nilTcb) : Wf s' := by
  have hself := hC.self
  have hoth := hC.other
  have hex := hC.existing_iff
  have hold : ∀ r, Existing s r → r ≠ q := fun r => hC.old
  have hqi := hC.ne_idle
  have hqn : q ≠ nilTcb := fun h => hC.fresh (h ▸ hnil)
  have hqs : (s'.ipc q).space = space := by rw [hself]
  refine ⟨?_, ?_, ?_, ?_, ?_, ?_, ?_, ?_, ?_, ?_, ?_, ?_, ?_, ?_⟩
  · rw [hoth _ hqi.symm]; exact hi.idle_state
  · rw [hoth _ hqi.symm]; exact hi.idle_cont
  · rw [hoth _ hqn.symm]; exact hi.nil_myself
  · rw [hoth _ hqn.symm]; exact hi.nil_state
  · rw [hoth _ hqn.symm]; exact hi.nil_cont
  · rw [hoth _ hqn.symm]; exact hi.nil_space
  · intro r hr hrn
    rcases (hex r).mp hr with rfl | h
    · rw [hself]; exact ⟨htq, hk, hinv⟩
    · rw [hoth r (hold r h)]; exact hi.ident r h hrn
  · intro r hr
    rcases (hex r).mp hr with rfl | h
    · rw [hself]; simp
    · rw [hoth r (hold r h)]; exact hi.not_free r h
  · intro r hr hri
    have hrq : r ≠ q := fun he => hr ((hex r).mpr (Or.inl he))
    rw [hoth r hrq]
    exact hi.dead r (fun h => hr ((hex r).mpr (Or.inr h))) hri
  · intro r hr
    rcases (hex r).mp hr with rfl | h
    · exact hqs ▸ hlt
    · rw [hoth r (hold r h)]; exact lt_of_lt_of_le (hi.space_lt r h) hspace
  · intro r hr hrn
    rcases (hex r).mp hr with rfl | h
    · exact hqs ▸ hpos
    · rw [hoth r (hold r h)]; exact hi.space_pos r h hrn
  · intro r t hr ht hrn htn he
    have hmq : (s'.ipc q).myself = tid := by rw [hself]
    rcases (hex r).mp hr with rfl | h1 <;> rcases (hex t).mp ht with rfl | h2
    · rfl
    · rw [hoth t (hold t h2), hqs] at he
      rw [hmq, hoth t (hold t h2)]
      exact (htask t h2 htn he.symm).symm
    · rw [hoth r (hold r h1), hqs] at he
      rw [hmq, hoth r (hold r h1)]
      exact htask r h1 hrn he
    · rw [hoth r (hold r h1), hoth t (hold t h2)] at he ⊢
      exact hi.space_task r t h1 h2 hrn htn he
  · intro r
    rw [hpr, List.mem_cons, hex, hi.present]
  · rw [hpr, List.nodup_cons]
    exact ⟨fun h => hC.fresh ((hi.present q).mp h), hi.present_nodup⟩

/-- The rest of the invariant. -/
lemma inv (hC : Created s s' q tid space) (hi : Inv .none s) (htq : tidToTcb tid = q) (hwf : Wf s')
    (hcur : s'.current = s.current) (hwk : s'.wakeup = s.wakeup) : Inv .none s' := by
  have hself := hC.self
  have hoth := hC.other
  have hex := hC.existing_iff
  have hold : ∀ r, Existing s r → r ≠ q := fun r => hC.old
  refine ⟨hwf, ?_, ?_, ?_, ?_, ?_, ?_, ?_, ?_, ?_, ?_, ?_⟩
  · intro t ht
    rcases (hex t).mp ht with rfl | h
    · exact ⟨[], ⟨List.nodup_nil, by rw [hself]; rfl, trivial⟩,
        fun r => ⟨fun h => absurd h (by simp), fun h => absurd h (hC.no_poller hi htq r)⟩⟩
    · obtain ⟨l, h1, h2⟩ := hi.ring t h
      refine ⟨l, h1.congr ?_ ?_ ?_, fun r => (h2 r).trans (hC.poller_iff r h).symm⟩
      · rw [hoth t (hold t h)]
      · exact fun r hr => by rw [hoth r (hold r ((h2 r).mp hr).existing)]
      · exact fun r hr => by rw [hoth r (hold r ((h2 r).mp hr).existing)]
  · intro r hr hrs _
    have hrq : r ≠ q := fun he => by rw [he, hself] at hrs; simp at hrs
    have hr' := ((hex r).mp hr).resolve_left hrq
    rw [hoth r hrq] at hrs ⊢
    obtain ⟨h1, h2, h3, h4⟩ := hi.polling r hr' hrs (not_limbo_none _ _)
    refine ⟨by rw [hcur]; exact h1, (hex _).mpr (Or.inr h2), ?_, h4⟩
    rw [hoth _ (hold _ h2)]; exact h3
  · intro r dst sd rd hr hrc
    have hrq : r ≠ q := fun he => by rw [he, hself] at hrc; simp at hrc
    rw [hoth r hrq] at hrc ⊢
    exact hi.sendPoll r dst sd rd (((hex r).mp hr).resolve_left hrq) hrc
  · intro r dst hs
    have hs := (hC.sends_iff r dst).mp hs
    obtain ⟨h1, h2, h3, h4, h5⟩ := hi.locked r dst hs
    rw [hoth r (hold r hs.existing), hoth _ (hold _ h2), hcur]
    exact ⟨h1, (hex _).mpr (Or.inr h2), h3, h4, h5⟩
  · exact fun r t dst h1 h2 => hi.locked_unique r t dst ((hC.sends_iff r dst).mp h1)
      ((hC.sends_iff t dst).mp h2)
  · intro r hr hrs
    have hrq : r ≠ q := fun he => by rw [he, hself] at hrs; simp at hrs
    rw [hoth r hrq] at hrs ⊢
    exact hi.lockedWaiting r (((hex r).mp hr).resolve_left hrq) hrs
  · intro r hr hrs _
    have hrq : r ≠ q := fun he => by rw [he, hself] at hrs; simp at hrs
    rw [hoth r hrq] at hrs ⊢
    exact hi.waiting r (((hex r).mp hr).resolve_left hrq) hrs (not_limbo_none _ _)
  · intro r hr
    rw [hwk] at hr
    obtain ⟨h1, h2⟩ := hi.wakeup r hr
    rw [hoth r (hold r h1)]
    exact ⟨(hex r).mpr (Or.inr h1), h2.imp (fun h => ⟨h.1, not_limbo_none _ _⟩) id⟩
  · rw [hcur]
    exact hi.current.imp id fun h => ⟨(hex _).mpr (Or.inr h.1), h.2⟩
  · intro r t ht hr hts
    have htq : t ≠ q := fun he => by rw [he, hself] at hts; simp at hts
    have ht' := ((hex t).mp ht).resolve_left htq
    have hr := (hC.poller_iff r ht').mp hr
    rw [hoth t htq] at hts ⊢
    rw [hoth r (hold r hr.existing)]
    exact hi.rendezvous r t ht' hr hts
  · exact fun r h => absurd h (fun h => h)

end Created

/-- **Creating** a thread keeps the invariant. -/
lemma Inv.create (hi : Inv .none s) (tid : Tid) (space : Option Nat)
    (hnew : ¬Existing s (tidToTcb tid))
    (hk : ¬isKernelId tid) (hinv : tid ≠ invalidId)
    (hsp : ∀ sp, space = some sp → 0 < sp ∧ sp < s.nextSpace ∧ ∀ r, Existing s r → r ≠ nilTcb →
      (s.ipc r).space = sp → tidTask (s.ipc r).myself = tidTask tid)
    (uip usp : Word) (pager : Tid) (prio : Nat) :
    Inv .none (startThread (createTcb s tid space) (tidToTcb tid) uip usp pager prio) := by
  have hipc := startThread_ipc s tid space uip usp pager prio
  have hcur : (startThread (createTcb s tid space) (tidToTcb tid) uip usp pager prio).current
      = s.current := by rw [startThread, current_enqueueReady]; rfl
  have hwk : (startThread (createTcb s tid space) (tidToTcb tid) uip usp pager prio).wakeup
      = s.wakeup := by rw [startThread, wakeup_enqueueReady]; rfl
  have hpr : (startThread (createTcb s tid space) (tidToTcb tid) uip usp pager prio).present
      = tidToTcb tid :: s.present := by rw [startThread, present_enqueueReady]; rfl
  have hns : (startThread (createTcb s tid space) (tidToTcb tid) uip usp pager prio).nextSpace
      = if space.isNone then s.nextSpace + 1 else s.nextSpace := by
    rw [startThread, nextSpace_enqueueReady]; rfl
  generalize startThread (createTcb s tid space) (tidToTcb tid) uip usp pager prio = s'
    at hipc hcur hwk hpr hns ⊢
  generalize htq : tidToTcb tid = q at hnew hipc hpr
  have hqi : q ≠ .idle := by rw [← htq]; simp [tidToTcb]
  have hqn : q ≠ nilTcb := fun h => hnew (h ▸ hi.nil_existing)
  have htid : tid ≠ nilId := fun h => hk (h ▸ (by decide))
  have hC : Created s s' q tid (space.getD s.nextSpace) :=
    ⟨hnew, hqi, htid, by rw [hipc, if_pos rfl], fun r hr => by rw [hipc, if_neg hr]⟩
  have hspace : s.nextSpace ≤ s'.nextSpace := by rw [hns]; split <;> omega
  have hqspace : (s'.ipc q).space < s'.nextSpace ∧ 0 < (s'.ipc q).space ∧
      ∀ r, Existing s r → r ≠ nilTcb → (s.ipc r).space = (s'.ipc q).space →
        tidTask (s.ipc r).myself = tidTask tid := by
    rw [hC.self, hns]
    cases space with
    | none =>
        refine ⟨by simp, ?_, fun r hr _ he => ?_⟩
        · have := hi.space_lt nilTcb hi.nil_existing
          simp only [Option.getD_none]
          omega
        · have := hi.space_lt r hr
          simp only [Option.getD_none] at he
          omega
    | some sp =>
        obtain ⟨h1, h2, h3⟩ := hsp sp rfl
        exact ⟨by simpa using h2, h1, h3⟩
  have hspq : (s'.ipc q).space = space.getD s.nextSpace := by rw [hC.self]
  rw [hspq] at hqspace
  exact hC.inv hi htq (hC.wf hi.toWf htq hk hinv hspace hpr hqspace.1 hqspace.2.1 hqspace.2.2
    hi.nil_existing)
    hcur hwk

/-! ### `sys_lthread_ex_regs` -/

lemma tidTask_setThread (t : Tid) (n : Word) : tidTask (setThread t n) = tidTask t := by
  unfold tidTask setThread
  ext i hi
  interval_cases i <;> simp

/-- Thread 0 of a task has a proper id. -/
lemma setThread_zero_ne (t : Tid) : setThread t 0 ≠ invalidId := fun he => by
  have h1 := congrArg (fun x : Tid => x.getLsbD 10) he
  simp [setThread, invalidId] at h1

/-- The thread number is all in which the ids of the threads of a task differ. -/
lemma setThread_eq_self {t : Tid} {n : Word} (h : tidToTcb (setThread t n) = tidToTcb t) :
    setThread t n = t := by
  have h0 : (setThread t n).extractLsb' 10 14 = t.extractLsb' 10 14 := by simpa [tidToTcb] using h
  ext i hi
  by_cases hin : 10 ≤ i ∧ i < 24
  · have h1 := congrArg (fun x : BitVec 14 => x.getLsbD (i - 10)) h0
    simp only [BitVec.getLsbD_extractLsb', show 10 + (i - 10) = i by omega,
      show i - 10 < 14 by omega, decide_true, Bool.true_and] at h1
    rw [← BitVec.getLsbD_eq_getElem, ← BitVec.getLsbD_eq_getElem]
    exact h1
  · unfold setThread
    interval_cases i <;> simp at hin ⊢

/-- Exchanging registers is invisible to the rendezvous. -/
lemma sameIpc_exchangeRegs (s : Sys) (p : TcbPtr) (uip usp : Word) (pager : Tid) :
    SameIpc s (exchangeRegs s p uip usp pager) := by
  have h1 := (SameIpc.refl s).upd p (f := fun t =>
    { t with
      usp := if usp = noDesc then t.usp else usp
      uip := if uip = noDesc then t.uip else uip
      pager := if pager = invalidId then t.pager else pager }) (by intro _; rfl)
  unfold exchangeRegs
  dsimp only
  generalize s.upd p _ = s1 at h1 ⊢
  split
  · exact h1.trans (sameIpc_enqueueReady _ p)
  · exact h1

/-- The call of `sys_lthread_ex_regs` by the running thread does no harm: the thread it
names can be unwound, or is created under a proper id. -/
def ExRegsOk (s : Sys) (threadno uip usp : Word) : Prop :=
  let tid := setThread (s.tcb s.current).myself threadno
  ~~~(uip &&& usp) ≠ 0 → tid ≠ (s.tcb s.current).myself →
    if tcbExist s (tidToTcb tid) then UnwindOk s (tidToTcb tid) else tid ≠ invalidId

/-- A thread that has been unwound is set running. -/
lemma Inv.setRunning (hi : Inv d s) (hp : Existing s p) (hpn : p ≠ nilTcb) {s0 : Sys}
    (hu : Unwound d s0 s p) : Inv d (s.upd p fun t => { t with threadState := .running }) := by
  have hipc : ∀ r, (s.upd p fun t => { t with threadState := .running }).ipc r =
      if r = p then { s.ipc p with threadState := .running } else s.ipc r := fun r => by
    rw [Sys.upd_part _ _ _ (fun t => { t with threadState := .running }) (by intro _; rfl)]
  by_cases hrun : (s.ipc p).threadState = .running
  · have hsame : SameIpc s (s.upd p fun t => { t with threadState := .running }) := by
      refine ⟨funext fun r => ?_, rfl, rfl, rfl, rfl⟩
      rw [hipc]
      by_cases hr : r = p <;> simp [hr, ← hrun]
    exact Inv.congr hsame hi
  · obtain ⟨hch, hl⟩ :=
      Change.of_ipc s _ p .running ((s.ipc p).partner) ((s.ipc p).cont) hipc rfl rfl
    refine hi.update hch hl hp hpn ?_ (by simp) (by simp) ?_ (by simp) (by simp) ?_ ?_ (by simp)
      (Or.inr (Or.inr (Or.inl rfl)))
    · by_cases h : (s.ipc p).threadState = .polling
      · exact Or.inr (hu.limbo (Or.inl h))
      · exact Or.inl h
    · intro dst sd rd hc
      rcases hi.sendPoll p dst sd rd hp hc with h | h | h
      · have := (hu.limbo (Or.inl h)).2
        rw [hc] at this
        simp at this
      · exact hu.state.2 h
      · exact hrun h
    · exact fun x => hi.not_sends_of_state hp hpn hu.state.1
    · exact fun r hr => Or.inl ⟨hr, fun he => hu.not_wakeup (he ▸ hr)⟩

/-- A thread that is not running is unwound.  For the time being, it is a thread being deleted. -/
lemma Inv.unwound (hi : Inv .none s) (hp : Existing s p) (hpn : p ≠ nilTcb) (hpc : p ≠ s.current)
    (hok : UnwindOk s p) : ∃ s1, Hazelnut.unwindIpc tcbCount s p = some s1 ∧
      Inv ⟨(· = p), fun _ => False, fun _ => False⟩ s ∧
      Inv ⟨(· = p), fun _ => False, fun _ => False⟩ s1 ∧
      Unwound ⟨(· = p), fun _ => False, fun _ => False⟩ s s1 p := by
  have hi1 : Inv ⟨(· = p), fun _ => False, fun _ => False⟩ s := by
    refine hi.relabel (fun q hq hs => ⟨fun hl => ?_, fun hl => absurd hl (not_limbo_none s q)⟩)
      (fun _ hd => hpc hd.symm) (fun q hq => absurd hq (fun h => h))
    rcases hs with hs | hs
    · obtain ⟨-, -, -, sd, rd, hcont⟩ := hi.polling q hq hs (not_limbo_none s q)
      have := hl.2
      rw [hcont] at this
      simp at this
    · have := hl.2
      rcases hi.waiting q hq hs (not_limbo_none s q) with h | ⟨_, h⟩ <;> simp [h] at this
  obtain ⟨s1, hrun, hi2, hunw⟩ := hi1.unwindIpc (2 ^ 14 - 2) hp hpn rfl hok
    (fun h => absurd h (fun h => h)) (fun hs hl => by
      obtain ⟨-, -, -, sd, rd, hcont⟩ := hi.polling p hp hs (not_limbo_none s p)
      have := hl.2
      rw [hcont] at this
      simp at this)
  rw [show 2 ^ 14 - 2 + 3 = tcbCount from rfl] at hrun
  exact ⟨s1, hrun, hi1, hi2, hunw⟩

/-- **Exchanging registers** keeps the invariant. -/
lemma Inv.exRegs (hi : Inv .none s) (hu : inUser s) {threadno uip usp : Word} {pager : Tid}
    (hok : ExRegsOk s threadno uip usp) (h : sysLthreadExRegs s threadno uip usp pager = some s') :
    Inv .none s' := by
  have hc := hi.calls hu
  unfold sysLthreadExRegs at h
  unfold ExRegsOk at hok
  dsimp only at h hok
  have htask := tidTask_setThread (s.tcb s.current).myself threadno
  have hne : setThread (s.tcb s.current).myself threadno ≠ (s.tcb s.current).myself →
      tidToTcb (setThread (s.tcb s.current).myself threadno) ≠ s.current := fun h1 h2 =>
    h1 (setThread_eq_self (h2.trans (hi.ident _ hc.existing hc.ne_nil).1.symm))
  generalize setThread (s.tcb s.current).myself threadno = tid at h hok htask hne
  have hk : ¬isKernelId tid := by
    unfold isKernelId; rw [htask]; exact (hi.ident _ hc.existing hc.ne_nil).2.1
  split at h
  · rename_i hcond
    have hok := hok hcond.1 hcond.2
    split at h
    · rename_i hex
      rw [if_pos hex] at hok
      obtain ⟨p, hp⟩ : ∃ p, p = tidToTcb tid := ⟨_, rfl⟩
      rw [← hp] at h hok hex
      have hpc : p ≠ s.current := hp ▸ hne hcond.2
      have hpe : Existing s p := ⟨by rw [hp]; simp [tidToTcb], hex⟩
      have hpn : p ≠ nilTcb := fun hn => hk (by
        unfold isKernelId
        rw [tidTask_eq_of_tidToTcb (hp.symm.trans hn)]
        decide)
      obtain ⟨s1, hrun, -, hi2, hunw⟩ := hi.unwound hpe hpn hpc hok
      rw [hrun] at h
      simp only [Option.map_some, Option.some.injEq] at h
      rw [← h]
      refine Inv.congr (sameIpc_exchangeRegs _ _ _ _ _) ?_
      have hpe1 : Existing s1 p := (hunw.existing_iff p).mpr hpe
      refine (hi2.setRunning hpe1 hpn hunw).relabel (fun q hq hs =>
        ⟨fun hl => absurd hl (not_limbo_none _ q), fun hl => ?_⟩) (fun _ hd => hd)
        (fun q hq => absurd hq (fun h => h))
      rw [hl.1, Sys.upd_part _ _ _ (fun t => { t with threadState := .running })
        (by intro _; rfl)] at hs
      simp at hs
    · rename_i hex
      rw [if_neg hex] at hok
      simp only [Option.some.injEq] at h
      rw [← h]
      refine hi.create tid _ (fun he => hex he.2) hk hok (fun sp hsp => ?_) uip usp pager _
      obtain rfl : (s.ipc s.current).space = sp := by simpa using hsp
      refine ⟨hi.space_pos _ hc.existing hc.ne_nil, hi.space_lt _ hc.existing,
        fun r hr hrn he => ?_⟩
      rw [htask]
      exact hi.space_task r _ hr hc.existing hrn hc.ne_nil he
  · simp only [Option.some.injEq] at h
    rw [← h]
    exact Inv.congr (sameIpc_exchangeRegs _ _ _ _ _) hi

/-! ### Deleting a thread -/

/-- A list of different threads is no longer than the TCB area. -/
lemma length_le_of_nodup {l : List TcbPtr} (hn : l.Nodup) (hl : ∀ q ∈ l, q ≠ .idle) :
    l.length ≤ 2 ^ 14 := by
  have h1 : l ⊆ (List.range (2 ^ 14)).map fun n => TcbPtr.slot (BitVec.ofNat 14 n) := by
    intro q hq
    cases q with
    | idle => exact absurd rfl (hl _ hq)
    | slot n => exact List.mem_map.mpr ⟨n.toNat, List.mem_range.mpr n.isLt, by simp⟩
  simpa using (List.subperm_of_subset hn h1).length_le

/-- The head of the send queue of a dying thread polls for it, and can be unwound. -/
lemma Inv.unwindHead (hi : Inv d s) (hp : Existing s p) (hpn : p ≠ nilTcb) (hdy : d.dying p)
    (hall : ∀ q, Poller d s p q → d.dead q) (hq : (s.tcb p).sendQueue = some q) :
    Poller d s p q ∧ ∃ s1, Hazelnut.unwindIpc tcbCount s q = some s1 ∧ Inv d s1 ∧
      Unwound d s s1 q := by
  obtain ⟨l, hl, hmem⟩ := hi.ring p hp
  have hpoll := (hmem q).mp (List.mem_of_mem_head? (by rw [← hl.head]; exact hq))
  have hpart : tidToTcb (s.ipc q).partner = p := by
    rw [hpoll.partner, (hi.ident p hp hpn).1]
  obtain ⟨s1, hrun, hi1, hunw⟩ := hi.unwindIpc (2 ^ 14 - 2) hpoll.existing
    (hi.poller_ne_nil hpoll) (hall q hpoll)
    ⟨by simp [hpoll.polling], by simp [hpoll.polling]⟩
    (fun _ _ _ => hpart.symm ▸ hdy) (fun _ h => absurd h hpoll.live)
  rw [show 2 ^ 14 - 2 + 3 = tcbCount from rfl] at hrun
  exact ⟨hpoll, s1, hrun, hi1, hunw⟩

/-- **Unwinding all who poll** for a dying thread: the loop of `free_thread` ends, with an
empty queue. -/
lemma Inv.unwindSenders (fuel : Nat) (hi : Inv d s) (hp : Existing s p) (hpn : p ≠ nilTcb)
    (hdy : d.dying p) (hall : ∀ q, Poller d s p q → d.dead q) {l : List TcbPtr}
    (hl : SendRing s p l) (hmem : ∀ q, q ∈ l ↔ Poller d s p q) (hfuel : l.length < fuel) :
    ∃ s', unwindSenders fuel s p = some s' ∧ Inv d s' ∧ Calmer d s s' ∧ ∀ q, ¬Poller d s' p q := by
  induction fuel generalizing s l with
  | zero => omega
  | succ fuel ih =>
      rw [Hazelnut.unwindSenders]
      cases hq : (s.tcb p).sendQueue with
      | none =>
          have hnil := hl.eq_nil_iff.mp hq
          refine ⟨s, rfl, hi, Calmer.refl d s, fun q hq => ?_⟩
          have := (hmem q).mpr hq
          rw [hnil] at this
          simp at this
      | some q =>
          obtain ⟨hpoll, s1, hrun, hi1, hunw⟩ := hi.unwindHead hp hpn hdy hall hq
          have hql : q ∈ l := (hmem q).mpr hpoll
          have hp1 : Existing s1 p := (hunw.existing_iff p).mpr hp
          obtain ⟨l1, hl1, hmem1⟩ := hi1.ring p hp1
          have hlen : l1.length < l.length := by
            have hsub : l1 ⊆ l.erase q := fun r hr => by
              obtain ⟨h1, h2⟩ := (hunw.poller_iff p r).mp ((hmem1 r).mp hr)
              exact hl.nodup.mem_erase_iff.mpr ⟨h2, (hmem r).mpr h1⟩
            have := (List.subperm_of_subset hl1.nodup hsub).length_le
            rw [List.length_erase_of_mem hql] at this
            have := List.length_pos_of_mem hql
            omega
          obtain ⟨s', h1, h2, h3, h4⟩ := ih hi1 hp1
            (fun r hr => hall r (hunw.poller p r hr)) hl1 hmem1 (by omega)
          refine ⟨s', ?_, h2, hunw.toCalmer.trans h3, h4⟩
          simp [hrun, h1]

/-- The thread `p` is there no more. -/
structure Freed (s s' : Sys) (p : TcbPtr) : Prop where
  self : s'.ipc p = { s.ipc p with myself := nilId, threadState := .aborted }
  other : ∀ r, r ≠ p → s'.ipc r = s.ipc r

namespace Freed

variable {D R : TcbPtr → Prop} {s s' : Sys} {p : TcbPtr}

lemma existing_iff (hF : Freed s s' p) (r : TcbPtr) : Existing s' r ↔ Existing s r ∧ r ≠ p := by
  by_cases hr : r = p
  · subst hr
    exact ⟨fun h => absurd (by rw [hF.self]) h.2, fun h => absurd rfl h.2⟩
  · rw [Existing, hF.other r hr]
    exact ⟨fun h => ⟨h, hr⟩, fun h => h.1⟩

lemma limbo_iff (hF : Freed s s' p) (r : TcbPtr) :
    Limbo ⟨D, R, fun _ => False⟩ s' r ↔ Limbo ⟨D, R, (· = p)⟩ s r := by
  rw [Limbo, Limbo]
  by_cases hr : r = p
  · rw [hr, hF.self]
  · rw [hF.other r hr]

lemma poller_iff (hF : Freed s s' p) (hnp : ∀ t, ¬Poller ⟨D, R, (· = p)⟩ s t p) {t : TcbPtr}
    (ht : Existing s' t) (r : TcbPtr) :
    Poller ⟨D, R, fun _ => False⟩ s' t r ↔ Poller ⟨D, R, (· = p)⟩ s t r := by
  have htp := ((hF.existing_iff t).mp ht).2
  constructor
  · rintro ⟨h1, h2, h3, h4⟩
    have hrp := ((hF.existing_iff r).mp h1).2
    rw [hF.other r hrp] at h2 h3
    rw [hF.other t htp] at h3
    exact ⟨((hF.existing_iff r).mp h1).1, h2, h3, fun h => h4 ((hF.limbo_iff r).mpr h)⟩
  · intro h
    have hrp : r ≠ p := fun he => hnp t (he ▸ h)
    refine ⟨(hF.existing_iff r).mpr ⟨h.existing, hrp⟩, ?_, ?_,
      fun h' => h.live ((hF.limbo_iff r).mp h')⟩
    · rw [hF.other r hrp]; exact h.polling
    · rw [hF.other r hrp, hF.other t htp]; exact h.partner

lemma sends_iff (hF : Freed s s' p) (hstate : (s.ipc p).threadState ≠ .lockedRunning) (r : TcbPtr)
    (dst : Tid) : Sends s' r dst ↔ Sends s r dst := by
  by_cases hr : r = p
  · subst hr
    refine ⟨fun h => absurd h.existing fun h => ((hF.existing_iff r).mp h).2 rfl, fun h => ?_⟩
    exact absurd h.state hstate
  · constructor
    · rintro ⟨h1, h2, h3⟩
      rw [hF.other r hr] at h2 h3
      exact ⟨((hF.existing_iff r).mp h1).1, h2, h3⟩
    · rintro ⟨h1, h2, h3⟩
      exact ⟨(hF.existing_iff r).mpr ⟨h1, hr⟩, by rw [hF.other r hr]; exact h2,
        by rw [hF.other r hr]; exact h3⟩

end Freed

/-- **Deleting** a thread that is unwound and polled for by nobody. -/
lemma Inv.freeTcb {D R : TcbPtr → Prop} (hi : Inv ⟨D, R, (· = p)⟩ s) (hp : Existing s p)
    (hpn : p ≠ nilTcb) (hD : D p)
    (hstate : (s.ipc p).threadState ≠ .lockedWaiting ∧ (s.ipc p).threadState ≠ .lockedRunning)
    (hnp : ∀ t, ¬Poller ⟨D, R, (· = p)⟩ s t p) (hq : ∀ q, ¬Poller ⟨D, R, (· = p)⟩ s p q)
    (hwake : p ∉ s.wakeup) : Inv ⟨D, R, fun _ => False⟩ (freeTcb s p) := by
  have hipc : ∀ r, (Hazelnut.freeTcb s p).ipc r = if r = p then
      { s.ipc p with myself := nilId, threadState := .aborted } else s.ipc r := fun r => by
    rw [Hazelnut.freeTcb,
      Sys.upd_part _ _ _ (fun t => { t with myself := nilId, threadState := .aborted })
      (by intro _; rfl)]
    rfl
  have hpr : (Hazelnut.freeTcb s p).present = s.present.filter (· ≠ p) := rfl
  have hcur : (Hazelnut.freeTcb s p).current = s.current := rfl
  have hwk : (Hazelnut.freeTcb s p).wakeup = s.wakeup := rfl
  have hns : (Hazelnut.freeTcb s p).nextSpace = s.nextSpace := rfl
  generalize Hazelnut.freeTcb s p = s' at hipc hpr hcur hwk hns ⊢
  have hF : Freed s s' p := ⟨by rw [hipc, if_pos rfl], fun r hr => by rw [hipc, if_neg hr]⟩
  have hoth := hF.other
  have hex := hF.existing_iff
  have hlimbo : ∀ r, Limbo ⟨D, R, fun _ => False⟩ s' r ↔ Limbo ⟨D, R, (· = p)⟩ s r := hF.limbo_iff
  have hpoll := fun t r (ht : Existing s' t) => hF.poller_iff hnp ht r
  have hsends := hF.sends_iff hstate.2
  refine ⟨⟨?_, ?_, ?_, ?_, ?_, ?_, ?_, ?_, ?_, ?_, ?_, ?_, ?_, ?_⟩, ?_, ?_, ?_, ?_, ?_,
    ?_, ?_, ?_, ?_,
    ?_, ?_⟩
  · rw [hoth _ (Ne.symm hp.1)]; exact hi.idle_state
  · rw [hoth _ (Ne.symm hp.1)]; exact hi.idle_cont
  · rw [hoth _ hpn.symm]; exact hi.nil_myself
  · rw [hoth _ hpn.symm]; exact hi.nil_state
  · rw [hoth _ hpn.symm]; exact hi.nil_cont
  · rw [hoth _ hpn.symm]; exact hi.nil_space
  · intro r hr hrn
    obtain ⟨h1, h2⟩ := (hex r).mp hr
    rw [hoth r h2]; exact hi.ident r h1 hrn
  · intro r hr
    obtain ⟨h1, h2⟩ := (hex r).mp hr
    rw [hoth r h2]; exact hi.not_free r h1
  · intro r hr hri
    by_cases hrp : r = p
    · rw [hrp, hF.self]; exact Or.inl rfl
    · rw [hoth r hrp]; exact hi.dead r (fun h => hr ((hex r).mpr ⟨h, hrp⟩)) hri
  · intro r hr
    obtain ⟨h1, h2⟩ := (hex r).mp hr
    rw [hoth r h2, hns]; exact hi.space_lt r h1
  · intro r hr hrn
    obtain ⟨h1, h2⟩ := (hex r).mp hr
    rw [hoth r h2]; exact hi.space_pos r h1 hrn
  · intro r t hr ht hrn htn he
    obtain ⟨h1, h2⟩ := (hex r).mp hr
    obtain ⟨h3, h4⟩ := (hex t).mp ht
    rw [hoth r h2, hoth t h4] at he ⊢
    exact hi.space_task r t h1 h3 hrn htn he
  · intro r
    rw [hpr, List.mem_filter, hi.present, hex]
    simp
  · rw [hpr]; exact hi.present_nodup.filter _
  · intro t ht
    obtain ⟨h1, h2⟩ := (hex t).mp ht
    obtain ⟨l, h3, h4⟩ := hi.ring t h1
    refine ⟨l, h3.congr ?_ ?_ ?_, fun r => (h4 r).trans (hpoll t r ht).symm⟩
    · rw [hoth t h2]
    · exact fun r hr => by rw [hoth r fun he => hnp t (he ▸ (h4 r).mp hr)]
    · exact fun r hr => by rw [hoth r fun he => hnp t (he ▸ (h4 r).mp hr)]
  · intro r hr hrs hrl
    obtain ⟨h1, h2⟩ := (hex r).mp hr
    have hrl' : ¬Limbo ⟨D, R, (· = p)⟩ s r := fun h => hrl ((hlimbo r).mpr h)
    rw [hoth r h2] at hrs ⊢
    obtain ⟨h3, h4, h5, h6⟩ := hi.polling r h1 hrs hrl'
    have hne : tidToTcb (s.ipc r).partner ≠ p := fun he =>
      hq r ⟨h1, hrs, by rw [← h5, he], hrl'⟩
    rw [hcur, hex, hoth _ hne]
    exact ⟨h3, ⟨h4, hne⟩, h5, h6⟩
  · intro r dst sd rd hr hrc
    obtain ⟨h1, h2⟩ := (hex r).mp hr
    rw [hoth r h2] at hrc ⊢
    exact hi.sendPoll r dst sd rd h1 hrc
  · intro r dst hs
    have hs' := (hsends r dst).mp hs
    obtain ⟨h1, h2, h3, h4, h5⟩ := hi.locked r dst hs'
    have hne : tidToTcb dst ≠ p := fun he => hstate.1 (he ▸ h4)
    rw [hoth r ((hex r).mp hs.existing).2, hcur, hex, hoth _ hne]
    exact ⟨h1, ⟨h2, hne⟩, h3, h4, h5⟩
  · exact fun r t dst h1 h2 => hi.locked_unique r t dst ((hsends r dst).mp h1)
      ((hsends t dst).mp h2)
  · intro r hr hrs
    obtain ⟨h1, h2⟩ := (hex r).mp hr
    rw [hoth r h2] at hrs ⊢
    exact hi.lockedWaiting r h1 hrs
  · intro r hr hrs hrl
    obtain ⟨h1, h2⟩ := (hex r).mp hr
    rw [hoth r h2] at hrs ⊢
    exact hi.waiting r h1 hrs fun h => hrl ((hlimbo r).mpr h)
  · intro r hr
    rw [hwk] at hr
    have hrp : r ≠ p := fun he => hwake (he ▸ hr)
    obtain ⟨h1, h2⟩ := hi.wakeup r hr
    rw [hex, hoth r hrp, hlimbo]
    exact ⟨⟨h1, hrp⟩, h2⟩
  · rw [hcur, hex]
    refine hi.current.imp id fun h => ⟨⟨h.1, fun he => h.2.2 (he ▸ hD)⟩, h.2⟩
  · intro r t ht hr hts
    have hr := (hpoll t r ht).mp hr
    obtain ⟨h1, h2⟩ := (hex t).mp ht
    rw [hoth t h2] at hts ⊢
    rw [hoth r fun he => hnp t (he ▸ hr)]
    exact hi.rendezvous r t h1 hr hts
  · intro r hR hr hrl hrs
    obtain ⟨h1, h2⟩ := (hex r).mp hr
    rw [hoth r h2] at hrs ⊢
    obtain ⟨h3, h4⟩ := hi.zombie r hR h1 ((hlimbo r).mp hrl) hrs
    refine ⟨Or.inl fun he => ?_, fun x t hx ht hxt => ?_⟩
    · obtain ⟨h5, h6⟩ := (hex _).mp he
      exact h3.elim (fun h => h h5) h6
    · have := h4 x t hx ((hex t).mp ht).1 ((hpoll t x ht).mp hxt)
      exact absurd this ((hex t).mp ht).2

/-- Who polls does not depend on how far the deletion is. -/
lemma Poller.relabel {D R R' X X' : TcbPtr → Prop} {t : TcbPtr} (h : Poller ⟨D, R, X⟩ s t q) :
    Poller ⟨D, R', X'⟩ s t q := ⟨h.existing, h.polling, h.partner, h.live⟩

lemma freeTcb_ipc (s : Sys) (p r : TcbPtr) : (freeTcb s p).ipc r =
    if r = p then { s.ipc p with myself := nilId, threadState := .aborted } else s.ipc r := by
  rw [freeTcb, Sys.upd_part _ _ _ (fun t => { t with myself := nilId, threadState := .aborted })
    (by intro _; rfl)]
  rfl

/-- What the deletion of one thread leaves of the others. -/
structure Deleted (D : TcbPtr → Prop) (s s' : Sys) (p : TcbPtr) : Prop where
  existing : ∀ r, Existing s' r ↔ Existing s r ∧ r ≠ p
  space : ∀ r, (s'.ipc r).space = (s.ipc r).space
  current : s'.current = s.current
  poller : ∀ R X R' X' t q, Existing s' t → Poller ⟨D, R, X⟩ s' t q → Poller ⟨D, R', X'⟩ s t q
  unwindOk : ∀ r, r ≠ p → (s.ipc r).space = (s.ipc p).space → Existing s r → r ≠ nilTcb →
    UnwindOk s r → UnwindOk s' r

/-- A thread of a task being deleted is reached by the loop. -/
structure Deletable (D R : TcbPtr → Prop) (s : Sys) (p : TcbPtr) : Prop where
  inv : Inv ⟨D, R, fun _ => False⟩ s
  existing : Existing s p
  ne_nil : p ≠ nilTcb
  dead : D p
  rest : ¬R p
  unwindOk : UnwindOk s p
  zombie : (s.ipc p).threadState = .polling → Limbo ⟨D, R, fun _ => False⟩ s p →
    ¬Existing s (tidToTcb (s.ipc p).partner) ∧ ∀ x t, (s.ipc p).sendNext = some x ∨
      (s.ipc p).sendPrev = some x → Existing s t → ¬Poller ⟨D, R, fun _ => False⟩ s t x
  senders : ∀ q, Poller ⟨D, R, fun _ => False⟩ s p q → D q

/-- The thread is unwound; from then on it is dying. -/
lemma Deletable.unwound {D R : TcbPtr → Prop} (h : Deletable D R s p) :
    ∃ s1, Hazelnut.unwindIpc tcbCount s p = some s1 ∧ Inv ⟨D, R, (· = p)⟩ s1 ∧
      Unwound ⟨D, R, fun _ => False⟩ s s1 p := by
  obtain ⟨s1, hrun1, hi1, hunw⟩ :=
    h.inv.unwindIpc (2 ^ 14 - 2) h.existing h.ne_nil h.dead h.unwindOk
    (fun hr => absurd hr h.rest) h.zombie
  refine ⟨s1, hrun1, hi1.relabel (fun _ _ _ => Iff.rfl)
    (fun hc hd => (hi1.current.resolve_left hc).2.2 hd) (fun q h1 h2 h3 h4 => ?_), hunw⟩
  obtain ⟨h5, h6⟩ := hi1.zombie q h1 h2 h3 h4
  exact ⟨h5.imp id (fun h => absurd h (fun h => h)), fun x t hx ht hxt =>
    absurd (h6 x t hx ht hxt) (fun h => h)⟩

/-- `free_thread` takes the thread out of all IPC. -/
lemma Deletable.calmer {D R : TcbPtr → Prop} (h : Deletable D R s p) :
    ∃ s2, freeThread s p = some (threadDequeueReady s2 p) ∧ Inv ⟨D, R, (· = p)⟩ s2 ∧
      Calmer ⟨D, R, fun _ => False⟩ s s2 ∧
      ((s2.ipc p).threadState ≠ .lockedWaiting ∧ (s2.ipc p).threadState ≠ .lockedRunning) ∧
      (∀ t, ¬Poller ⟨D, R, (· = p)⟩ s2 t p) ∧ (∀ q, ¬Poller ⟨D, R, (· = p)⟩ s2 p q) ∧
      p ∉ s2.wakeup ∧ ∀ c, Steady s c → Steady s2 c := by
  obtain ⟨s1, hrun1, hi1', hunw⟩ := h.unwound
  have hp1 : Existing s1 p := (hunw.existing_iff p).mpr h.existing
  obtain ⟨l, hl, hmem⟩ := hi1'.ring p hp1
  have hlen := length_le_of_nodup hl.nodup fun q hq => ((hmem q).mp hq).existing.1
  obtain ⟨s2, hrun2, hi2, hcalm, hnone⟩ := hi1'.unwindSenders tcbCount hp1 h.ne_nil rfl
    (fun q hq => h.senders q (hunw.poller p q hq.relabel)) hl hmem (by unfold tcbCount; omega)
  refine ⟨s2, by simp [Hazelnut.freeThread, hrun1, hrun2], hi2, hunw.toCalmer.trans
    ⟨hcalm.myself, hcalm.space, hcalm.partner, hcalm.present, hcalm.nextSpace, hcalm.current,
      hcalm.wakeup, hcalm.locked, hcalm.sends, fun t q hq => (hcalm.poller t q hq.relabel).relabel,
      hcalm.cont⟩, ⟨fun h => hunw.state.1 ?_, fun h => hunw.state.2 ?_⟩, fun t h =>
    ((hunw.poller_iff t p).mp (hcalm.poller t p h).relabel).2 rfl, hnone,
    fun h => hunw.not_wakeup (hcalm.wakeup p h),
    fun c hc => (hc.unwindIpc hrun1).unwindSenders hrun2⟩
  · exact (hcalm.locked p (Or.inl h)).trans h
  · exact (hcalm.locked p (Or.inr h)).trans h

/-- **Deleting a thread** of a task being deleted: `free_thread` followed by `free_tcb`. -/
lemma Deletable.freeThread {D R : TcbPtr → Prop} (h : Deletable D R s p) :
    ∃ s', Hazelnut.freeThread s p = some s' ∧ Inv ⟨D, R, fun _ => False⟩ (Hazelnut.freeTcb s' p)
      ∧ Deleted D s (Hazelnut.freeTcb s' p) p := by
  have hi := h.inv
  obtain ⟨s2, hrun, hi2, hcalm1, hstate, hnp, hnone, hnw, hsteady⟩ := h.calmer
  have h3 := sameIpc_dequeueReady s2 p
  have hi3 := Inv.congr h3 hi2
  refine ⟨threadDequeueReady s2 p, hrun,
    hi3.freeTcb ?_ h.ne_nil h.dead ?_ (fun t => ?_) (fun q => ?_) ?_,
    ?_⟩
  · rw [existing_congr h3.ipc]; exact (hcalm1.existing_iff p).mpr h.existing
  · rw [h3.ipc]; exact hstate
  · rw [poller_congr h3.ipc]; exact hnp t
  · rw [poller_congr h3.ipc]; exact hnone q
  · rw [h3.wakeup]; exact hnw
  · have hipc : ∀ r, (Hazelnut.freeTcb (threadDequeueReady s2 p) p).ipc r = if r = p then
        { s2.ipc p with myself := nilId, threadState := .aborted } else s2.ipc r := fun r => by
      rw [freeTcb_ipc, h3.ipc]
    have hoth : ∀ r, r ≠ p → (Hazelnut.freeTcb (threadDequeueReady s2 p) p).ipc r = s2.ipc r :=
      fun r hr => by rw [hipc, if_neg hr]
    have hex : ∀ r, Existing (Hazelnut.freeTcb (threadDequeueReady s2 p) p) r ↔
        Existing s r ∧ r ≠ p := fun r => by
      by_cases hr : r = p
      · subst hr
        exact ⟨fun h => absurd (by rw [hipc, if_pos rfl]) h.2, fun h => absurd rfl h.2⟩
      · rw [Existing, hoth r hr, hcalm1.myself]
        exact ⟨fun h => ⟨h, hr⟩, fun h => h.1⟩
    refine ⟨hex, fun r => ?_, h3.current.trans hcalm1.current, fun R1 X1 R2 X2 t q ht hq => ?_,
      fun r hr hrsp hre hrn hrok => ?_⟩
    · rw [hipc, ← hcalm1.space]
      by_cases hr : r = p <;> simp [hr]
    · have hqp := ((hex q).mp hq.existing).2
      have htp := ((hex t).mp ht).2
      have h4 : Poller ⟨D, R, fun _ => False⟩ s2 t q := by
        refine ⟨(hcalm1.existing_iff q).mpr ((hex q).mp hq.existing).1, ?_, ?_,
          fun h => hq.live ⟨h.1, ?_⟩⟩
        · rw [← hoth q hqp]; exact hq.polling
        · rw [← hoth q hqp, ← hoth t htp]; exact hq.partner
        · rw [hoth q hqp]; exact h.2
      exact (hcalm1.poller t q h4).relabel
    · have hok2 := hcalm1.unwindOk hi hsteady hre hrn hrok
      have hsends : ∀ y dst, Sends s2 y dst →
          Sends (Hazelnut.freeTcb (threadDequeueReady s2 p) p) y dst := by
        intro y dst hy
        have hyp : y ≠ p := fun he => hstate.2 (he ▸ hy.state)
        refine ⟨⟨hy.existing.1, ?_⟩, ?_, ?_⟩ <;> rw [hoth y hyp]
        · exact hy.existing.2
        · exact hy.state
        · exact hy.cont
      constructor
      · intro hst
        rw [hoth r hr] at hst ⊢
        exact hsends _ _ (hok2.waiting hst)
      · intro hst
        rw [hoth r hr] at hst ⊢
        refine (hok2.running hst).imp id ?_
        rintro ⟨h5, h6⟩
        refine ⟨hsends _ _ h5, ?_⟩
        have hne : tidToTcb (s2.ipc r).partner ≠ p := fun he => by
          have := (hi2.locked r _ h5).2.2.2.1
          exact hstate.1 (he ▸ this)
        rw [hoth _ hne]
        refine h6.imp id fun h6 => h6.imp id fun h6 => ?_
        have hcp : tidToTcb (s2.ipc (tidToTcb (s2.ipc r).partner)).partner ≠ p := fun he => h6.2 (by
          rw [he, hcalm1.space, hcalm1.space, hrsp])
        refine ⟨(h6.1.dequeueReady hcp).freeTcb hcp, ?_⟩
        rw [hoth _ hcp]
        exact h6.2

/-! ### Deleting a task -/

/-- The deletion loop has the threads `l` of the present list still to reach.  `D` are the threads
of the space `sp` and those that poll for them. -/
structure Deleting (D : TcbPtr → Prop) (sp : Nat) (l : List TcbPtr) (s : Sys) : Prop where
  inv : Inv ⟨D, (· ∈ l), fun _ => False⟩ s
  nodup : l.Nodup
  mem : ∀ q ∈ l, Existing s q ∧ ((s.ipc q).space = sp → D q)
  ne_nil : ∀ q, D q → q ≠ nilTcb
  unwindOk : ∀ q ∈ l, (s.ipc q).space = sp → UnwindOk s q
  senders : ∀ t q, Existing s t → (s.ipc t).space = sp →
    Poller ⟨D, (· ∈ l), fun _ => False⟩ s t q → D q

section Deleting

variable {D : TcbPtr → Prop} {sp : Nat} {l : List TcbPtr}

/-- The next thread of the list is one of the task. -/
lemma Deleting.deletable (h : Deleting D sp (p :: l) s) (hsp : (s.ipc p).space = sp) :
    Deletable D (· ∈ l) s p := by
  obtain ⟨hpl, -⟩ := List.nodup_cons.mp h.nodup
  obtain ⟨hp, hD⟩ := h.mem p List.mem_cons_self
  have hD := hD hsp
  refine ⟨h.inv.relabel (fun _ _ _ => Iff.rfl) (fun hc hd => (h.inv.current.resolve_left hc).2.2 hd)
    fun q h1 h2 h3 h4 => h.inv.zombie q (List.mem_cons_of_mem p h1) h2 h3 h4, hp,
    h.ne_nil p hD, hD, hpl,
    h.unwindOk p List.mem_cons_self hsp, fun hst hlim => ?_,
    fun q hq => h.senders p q hp hsp hq.relabel⟩
  obtain ⟨h1, h2⟩ := h.inv.zombie p List.mem_cons_self hp hlim hst
  exact ⟨h1.resolve_right fun h => h, fun x t hx ht hxt => h2 x t hx ht hxt.relabel⟩

/-- It is not, and is passed over. -/
lemma Deleting.skip (h : Deleting D sp (p :: l) s) : Deleting D sp l s :=
  ⟨h.inv.relabel (fun _ _ _ => Iff.rfl) (fun hc hd => (h.inv.current.resolve_left hc).2.2 hd)
    fun q h1 h2 h3 h4 => h.inv.zombie q (List.mem_cons_of_mem p h1) h2 h3 h4,
    (List.nodup_cons.mp h.nodup).2, fun q hq => h.mem q (List.mem_cons_of_mem p hq), h.ne_nil,
    fun q hq => h.unwindOk q (List.mem_cons_of_mem p hq),
    fun t q ht hsp hq => h.senders t q ht hsp hq.relabel⟩

/-- It is deleted. -/
lemma Deleting.next (h : Deleting D sp (p :: l) s) (hp : (s.ipc p).space = sp)
    (hi : Inv ⟨D, (· ∈ l), fun _ => False⟩ s')
    (hdel : Deleted D s s' p) : Deleting D sp l s' := by
  obtain ⟨hpl, hnd⟩ := List.nodup_cons.mp h.nodup
  have hne : ∀ q ∈ l, q ≠ p := fun q hq he => hpl (he ▸ hq)
  have hmem : ∀ q ∈ l, (s.ipc q).space = sp → D q := fun q hq =>
    (h.mem q (List.mem_cons_of_mem p hq)).2
  refine ⟨hi, hnd, fun q hq =>
    ⟨(hdel.existing q).mpr ⟨(h.mem q (List.mem_cons_of_mem p hq)).1, hne q hq⟩, ?_⟩,
    h.ne_nil, fun q hq hsp => ?_, fun t q ht hsp hq => ?_⟩
  · rw [hdel.space]
    exact hmem q hq
  · rw [hdel.space] at hsp
    exact hdel.unwindOk q (hne q hq) (hsp.trans hp.symm) (h.mem q (List.mem_cons_of_mem p hq)).1
      (h.ne_nil q (hmem q hq hsp)) (h.unwindOk q (List.mem_cons_of_mem p hq) hsp)
  · rw [hdel.space] at hsp
    exact h.senders t q ((hdel.existing t).mp ht).1 hsp (hdel.poller _ _ _ _ t q ht hq)

/-- **The deletion loop** along the present list deletes the threads of the space and
nobody else. -/
lemma Deleting.deleteThreads (h : Deleting D sp l s)
    (hall : ∀ q, Existing s q → (s.ipc q).space = sp → q ∈ l) :
    ∃ s', deleteThreads sp l s = some s' ∧ Inv ⟨D, (· ∈ []), fun _ => False⟩ s'
      ∧ (∀ q, Existing s' q ↔ Existing s q ∧ (s.ipc q).space ≠ sp) ∧ s'.current = s.current := by
  induction l generalizing s with
  | nil =>
      refine ⟨s, rfl, h.inv, fun q => ⟨fun h => ⟨h, fun hsp => ?_⟩, fun h => h.1⟩, rfl⟩
      exact absurd (hall q h hsp) (by simp)
  | cons p l ih =>
      rw [Hazelnut.deleteThreads]
      split
      · rename_i hsp
        obtain ⟨s1, hrun, hi1, hdel⟩ := (h.deletable hsp).freeThread
        obtain ⟨s', h1, h2, h3, h4⟩ := ih (h.next hsp hi1 hdel) (fun q hq hqs => by
          obtain ⟨h5, h6⟩ := (hdel.existing q).mp hq
          rw [hdel.space] at hqs
          exact (List.mem_cons.mp (hall q h5 hqs)).resolve_left h6)
        refine ⟨s', ?_, h2, fun q => ?_, h4.trans hdel.current⟩
        · simp [hrun, h1]
        · rw [h3, hdel.existing, hdel.space]
          exact ⟨fun h => ⟨h.1.1, h.2⟩, fun h => ⟨⟨h.1, fun he => h.2 (he ▸ hsp)⟩, h.2⟩⟩
      · rename_i hsp
        exact ih h.skip fun q hq hqs => (List.mem_cons.mp (hall q hq hqs)).resolve_left
          fun he => hsp (he ▸ hqs)

/-- What the deletion of each thread keeps, the loop keeps. -/
lemma Deleting.invariant {P : Sys → Prop}
    (hP : ∀ {R s p s1}, Deletable D R s p → P s → Hazelnut.freeThread s p = some s1 →
      P (Hazelnut.freeTcb s1 p))
    (h : Deleting D sp l s) (h0 : P s) (hd : Hazelnut.deleteThreads sp l s = some s') : P s' := by
  induction l generalizing s with
  | nil =>
      rw [Hazelnut.deleteThreads, Option.some.injEq] at hd
      exact hd ▸ h0
  | cons p l ih =>
      rw [Hazelnut.deleteThreads] at hd
      split at hd
      · rename_i hsp
        have hdel := h.deletable hsp
        obtain ⟨s1, h1, h2⟩ := Option.bind_eq_some_iff.mp hd
        obtain ⟨s1', hrun, hi1, hd1⟩ := hdel.freeThread
        rw [h1, Option.some.injEq] at hrun
        subst hrun
        exact ih (h.next hsp hi1 hd1) (hP hdel h0 h1) h2
      · exact ih h.skip h0 hd

end Deleting

/-- The deletion of the task of thread `p` does no harm: its threads can be unwound, and
only threads of the task poll for them. -/
def DeleteOk (s : Sys) (p : TcbPtr) : Prop :=
  (∀ q, Existing s q → (s.ipc q).space = (s.ipc p).space → UnwindOk s q) ∧
    ∀ t q, Existing s t → (s.ipc t).space = (s.ipc p).space → Existing s q →
      (s.ipc q).threadState = .polling → (s.ipc q).partner = (s.ipc t).myself →
      (s.ipc q).space = (s.ipc p).space

/-- The threads of the task of `p`. -/
def TaskOf (s : Sys) (p q : TcbPtr) : Prop := Existing s q ∧ (s.ipc q).space = (s.ipc p).space

/-- A thread that polls or waits stands in the kernel. -/
lemma Inv.cont_ne_user (hi : Inv .none s) (q : TcbPtr) (hq : Existing s q)
    (hs : (s.ipc q).threadState = .polling ∨ (s.ipc q).threadState = .waiting) :
    (s.ipc q).cont ≠ .user := by
  rcases hs with hs | hs
  · obtain ⟨-, -, -, sd, rd, hc⟩ := hi.polling q hq hs (not_limbo_none s q)
    simp [hc]
  · rcases hi.waiting q hq hs (not_limbo_none s q) with h | ⟨_, h⟩ <;> simp [h]

/-- The deletion of the task of `p` starts.  `D` are its threads and those that poll for them. -/
lemma Inv.deleting {D : TcbPtr → Prop} (hi : Inv .none s)
    (hcur : s.current ≠ .idle → ¬D s.current) (hD : ∀ q, TaskOf s p q → D q)
    (hDn : ∀ q, D q → q ≠ nilTcb) (hun : ∀ q, TaskOf s p q → UnwindOk s q)
    (hsend : ∀ t q, TaskOf s p t → Poller .none s t q → D q) :
    Deleting D (s.ipc p).space s.present s := by
  exact ⟨hi.relabel (fun q hq hs => ⟨fun hl => absurd hl.2 (hi.cont_ne_user q hq hs),
    fun hl => absurd hl (not_limbo_none s q)⟩) hcur
    (fun q _ hq hl hs => absurd hl.2 (hi.cont_ne_user q hq (Or.inl hs))), hi.present_nodup,
    fun q hq => ⟨(hi.present q).mp hq, fun h => hD q ⟨(hi.present q).mp hq, h⟩⟩, hDn,
    fun q hq hsp => hun q ⟨(hi.present q).mp hq, hsp⟩,
    fun t q ht hsp hq => hsend t q ⟨ht, hsp⟩
      ⟨hq.existing, hq.polling, hq.partner, not_limbo_none s q⟩⟩

lemma Inv.taskOf_ne_nil (hi : Inv .none s) (hp : Existing s p) (hpn : p ≠ nilTcb)
    (hq : TaskOf s p q) : q ≠ nilTcb := fun he => by
  have h1 := hi.space_pos p hp hpn
  have h2 := hq.2
  rw [he, hi.nil_space] at h2
  omega

/-- The deletion of a task that is polled for by its own threads only. -/
lemma Inv.deletion (hi : Inv .none s) (hp : Existing s p) (hpn : p ≠ nilTcb)
    (hcur : s.current ≠ .idle → tidTask (s.ipc s.current).myself ≠ tidTask (s.ipc p).myself)
    (hok : DeleteOk s p) : Deleting (TaskOf s p) (s.ipc p).space s.present s := by
  have hDn : ∀ q, TaskOf s p q → q ≠ nilTcb := fun q hq => hi.taskOf_ne_nil hp hpn hq
  refine hi.deleting (fun hc hD => ?_) (fun q hq => hq) hDn (fun q hq => hok.1 q hq.1 hq.2)
    fun t q ht hq => ⟨hq.existing, hok.2 t q ht.1 ht.2 hq.existing hq.polling hq.partner⟩
  exact hcur hc (hi.space_task _ _ hD.1 hp (hDn _ hD) hpn hD.2)

/-- **Deleting a task** keeps the invariant and removes its threads. -/
lemma Inv.deleteTask (hi : Inv .none s) (hp : Existing s p) (hpn : p ≠ nilTcb)
    (hcur : s.current ≠ .idle → tidTask (s.ipc s.current).myself ≠ tidTask (s.ipc p).myself)
    (hok : DeleteOk s p) :
    ∃ s', Hazelnut.deleteThreads (s.ipc p).space s.present s = some s' ∧ Inv .none s'
      ∧ (∀ q, Existing s' q ↔ Existing s q ∧ ¬TaskOf s p q) ∧ s'.current = s.current := by
  obtain ⟨s', hrun, hi2, hex, hc⟩ := (hi.deletion hp hpn hcur hok).deleteThreads
    fun q hq _ => (hi.present q).mpr hq
  refine ⟨s', hrun, ?_, fun q => ⟨fun h => ⟨((hex q).mp h).1, fun ht => ((hex q).mp h).2 ht.2⟩,
    fun h => (hex q).mpr ⟨h.1, fun hsp => h.2 ⟨h.1, hsp⟩⟩⟩, hc⟩
  exact hi2.relabel (fun q hq _ => ⟨fun hl => absurd hl (not_limbo_none _ q),
    fun hl => absurd hl.1.2 ((hex q).mp hq).2⟩) (fun _ h => h) (fun q h => absurd h (fun h => h))

/-- The call of `sys_task_new` does no harm. -/
def TaskNewOk (s : Sys) (task : Tid) : Prop :=
  tcbExist s (tidToTcb (setThread task 0)) → DeleteOk s (tidToTcb (setThread task 0))

/-- What `sys_task_new` does before it creates: the task is gone. -/
lemma Inv.taskGone (hi : Inv .none s) {task : Tid} (hk : tidTask task ≠ 0)
    (hne : tidTask (s.ipc s.current).myself ≠ tidTask task)
    (hok : tcbExist s (tidToTcb task) → DeleteOk s (tidToTcb task)) :
    ∃ s1, (if tcbExist s (tidToTcb task) then
        Hazelnut.deleteThreads (s.tcb (tidToTcb task)).space s.present s else some s) = some s1
      ∧ Inv .none s1 ∧ ¬Existing s1 (tidToTcb task) := by
  split
  · rename_i hex
    have hp : Existing s (tidToTcb task) := ⟨by simp [tidToTcb], hex⟩
    have hpn : tidToTcb task ≠ nilTcb := fun he =>
      hk (tidTask_eq_of_tidToTcb he)
    obtain ⟨s1, h1, h2, h3, -⟩ := hi.deleteTask hp hpn (fun _ he => hne (by
      rw [he]
      exact tidTask_eq_of_tidToTcb (hi.ident _ hp hpn).1)) (hok hex)
    exact ⟨s1, h1, h2, fun h => ((h3 _).mp h).2 ⟨hp, rfl⟩⟩
  · rename_i hex
    exact ⟨s, rfl, hi, fun he => hex he.2⟩

/-- **Creating, or deleting, a task** keeps the invariant. -/
lemma Inv.taskNew (hi : Inv .none s) {task pager : Tid} {uip usp : Word} (hok : TaskNewOk s task)
    (h : sysTaskNew s task pager uip usp = some s') : Inv .none s' := by
  have hinv := setThread_zero_ne task
  unfold sysTaskNew at h
  unfold TaskNewOk at hok
  dsimp only at h
  generalize setThread task 0 = task at h hok hinv
  split at h
  · simp at h
  · rename_i hk
    split at h
    · simp only [Option.some.injEq] at h
      exact h ▸ hi
    · rename_i hne
      obtain ⟨s1, h1, h2, h3⟩ := hi.taskGone hk hne hok
      rw [h1] at h
      simp only [Option.map_some, Option.some.injEq] at h
      rw [← h]
      split
      · exact h2
      · exact h2.create task none h3 hk hinv (by simp) uip usp pager _

end Hazelnut

import Hazelnut.Thread.Unwind
import Mathlib.Data.Finset.Card

/-!
`unwind_ipc` ends, whatever the partners of the locked threads are.

* `SendQueues s q`: the send queues are rings, no thread is in two of them, and a thread that polls
  is in that of its partner.
* `Reached s p t`: the recursion from `p` gets to `t`.
* `lockedIn`: the threads that are locked, which get fewer with every call.
* `unwindIpc_ends`: the call ends, and what is then known of the threads it has got to.
-/

namespace Hazelnut

variable {s s' : Sys} {p t : TcbPtr} {q : TcbPtr → List TcbPtr} {T : Finset TcbPtr}

/-- One of the two locked states. -/
def isLocked (st : ThreadState) : Prop := st = .lockedWaiting ∨ st = .lockedRunning

instance (st : ThreadState) : Decidable (isLocked st) := inferInstanceAs (Decidable (_ ∨ _))

/-- The send queues of `s` are the lists `q`. -/
structure SendQueues (s : Sys) (q : TcbPtr → List TcbPtr) : Prop where
  ring : ∀ t, SendRing s t (q t)
  disjoint : ∀ x t u, x ∈ q t → x ∈ q u → t = u
  polling : ∀ x, (s.ipc x).threadState = .polling → x ∈ q (tidToTcb (s.ipc x).partner)

/-- The recursion of `unwind_ipc` from `p` gets to `t`: it goes on from a locked thread to its
partner. -/
inductive Reached (s : Sys) (p : TcbPtr) : TcbPtr → Prop
  | refl : Reached s p p
  | step {r : TcbPtr} (h : Reached s p r) (hl : isLocked (s.ipc r).threadState)
      (hk : ¬isKernelId (s.ipc r).partner) : Reached s p (tidToTcb (s.ipc r).partner)

/-- A finite set of threads that has the partners of those of them that are locked. -/
structure Threads (s : Sys) (T : Finset TcbPtr) : Prop where
  state : ∀ t ∈ T, (s.ipc t).threadState ≠ .free
  partner : ∀ t ∈ T, isLocked (s.ipc t).threadState → ¬isKernelId (s.ipc t).partner →
    tidToTcb (s.ipc t).partner ∈ T

/-- The threads that are locked. -/
def lockedIn (s : Sys) (T : Finset TcbPtr) : Finset TcbPtr :=
    T.filter fun t => isLocked (s.ipc t).threadState

/-! ### Marking a thread -/

/-- A thread that is reached is the first one, or reached from its partner when it is marked. -/
lemma Reached.cases_mark (h : Reached s p t) :
    t = p ∨ Reached (markAborted s p) (tidToTcb (s.ipc p).partner) t := by
  induction h with
  | refl => exact .inl rfl
  | @step r h hl hk ih =>
      right
      by_cases hr : r = p
      · rw [hr]
        exact .refl
      · have hipc : (markAborted s p).ipc r = s.ipc r := by rw [markAborted_ipc, if_neg hr]
        rw [← hipc] at hl hk ⊢
        exact (ih.resolve_left hr).step hl hk

lemma markAborted_state (hl : isLocked ((markAborted s p).ipc t).threadState) :
    t ≠ p ∧ isLocked (s.ipc t).threadState := by
  rw [markAborted_ipc] at hl
  split at hl
  · rcases hl with h | h <;> simp at h
  · exact ⟨by assumption, hl⟩

lemma Threads.mark (h : Threads s T) (p : TcbPtr) : Threads (markAborted s p) T := by
  refine ⟨fun t ht => ?_, fun t ht hl hk => ?_⟩
  · rw [markAborted_ipc]
    split
    · simp
    · exact h.state t ht
  · obtain ⟨htp, hl'⟩ := markAborted_state hl
    rw [markAborted_ipc, if_neg htp] at hk ⊢
    exact h.partner t ht hl' hk

/-- **The measure**: marking a locked thread leaves fewer that are locked. -/
lemma card_lockedIn_mark (hp : p ∈ T) (hl : isLocked (s.ipc p).threadState) :
    (lockedIn (markAborted s p) T).card < (lockedIn s T).card := by
  refine Finset.card_lt_card (Finset.ssubset_iff_subset_ne.mpr ⟨fun t ht => ?_, fun h => ?_⟩)
  · obtain ⟨h1, h2⟩ := Finset.mem_filter.mp ht
    exact Finset.mem_filter.mpr ⟨h1, (markAborted_state h2).2⟩
  · have hmem : p ∈ lockedIn (markAborted s p) T := by
      rw [h]
      exact Finset.mem_filter.mpr ⟨hp, hl⟩
    exact (markAborted_state (Finset.mem_filter.mp hmem).2).1 rfl

/-! ### Send queues -/

lemma SendRing.of_ipc {l : List TcbPtr} (h : SendRing s t l)
    (hipc : ∀ x, (s'.ipc x).sendQueue = (s.ipc x).sendQueue ∧
    (s'.ipc x).sendNext = (s.ipc x).sendNext ∧
      (s'.ipc x).sendPrev = (s.ipc x).sendPrev) : SendRing s' t l :=
  h.congr (hipc t).1 (fun x _ => (hipc x).2.1) fun x _ => (hipc x).2.2

/-- A change of one control block that leaves its links alone. -/
lemma SendRing.of_update {l : List TcbPtr} {v : IpcPart} (h : SendRing s t l)
    (hipc : ∀ x, s'.ipc x = if x = p then v else s.ipc x)
    (hv : v.sendQueue = (s.ipc p).sendQueue ∧ v.sendNext = (s.ipc p).sendNext ∧
      v.sendPrev = (s.ipc p).sendPrev) : SendRing s' t l :=
  h.of_ipc fun x => by
    rw [hipc]
    split
    · rename_i hx
      subst hx
      exact hv
    · exact ⟨rfl, rfl, rfl⟩

lemma SendRing.returnIpc {l : List TcbPtr} (h : SendRing s t l) (p : TcbPtr) (e : IpcReturn) :
    SendRing (returnIpc s p e) t l :=
  h.of_update (fun x => returnIpc_ipc s p x e) ⟨rfl, rfl, rfl⟩

lemma SendRing.makeRunning {l : List TcbPtr} (h : SendRing s t l) (p : TcbPtr) :
    SendRing (makeRunning s p) t l :=
  h.of_update (fun x => makeRunning_ipc s p x) ⟨rfl, rfl, rfl⟩

lemma SendRing.markAborted {l : List TcbPtr} (h : SendRing s t l) (p : TcbPtr) :
    SendRing (markAborted s p) t l :=
  h.of_update (fun x => markAborted_ipc s p x) ⟨rfl, rfl, rfl⟩

lemma SendQueues.mark (h : SendQueues s q) (p : TcbPtr) :
    SendQueues (Hazelnut.markAborted s p) q := by
  refine ⟨fun t => (h.ring t).markAborted p, h.disjoint, fun x hx => ?_⟩
  rw [markAborted_ipc] at hx ⊢
  split at hx
  · simp at hx
  · rename_i hxp
    rw [if_neg hxp]
    exact h.polling x hx

/-- A polling thread is taken out of the queue of its partner, and is then in none. -/
lemma SendQueues.dequeue (h : SendQueues s q) (hp : (s.ipc p).threadState = .polling) :
    ∃ q' : TcbPtr → List TcbPtr,
    (∀ t, SendRing (threadDequeueSend s (tidToTcb (s.ipc p).partner) p) t (q' t)) ∧
      ∀ t, p ∉ q' t := by
  have hmem := h.polling p hp
  generalize tidToTcb (s.ipc p).partner = d at hmem
  refine ⟨Function.update q d ((q d).erase p), fun t => ?_, fun t => ?_⟩
  · by_cases ht : t = d
    · subst ht
      rw [Function.update_self]
      exact sendRing_dequeue (h.ring t) hmem
    · rw [Function.update_of_ne ht]
      exact sendRing_dequeue_other (h.ring t) ht
        (fun x hx hxt => ht (h.disjoint x t d hxt ((h.ring d).ring.next_mem hmem hx)))
        fun x hx hxt => ht (h.disjoint x t d hxt ((h.ring d).ring.prev_mem hmem hx))
  · by_cases ht : t = d
    · subst ht
      rw [Function.update_self]
      exact (h.ring t).nodup.not_mem_erase
    · rw [Function.update_of_ne ht]
      exact fun hpt => ht (h.disjoint p t d hpt hmem)

/-! ### The call -/

/-- What a call of `unwind_ipc` for `p` leads to. -/
structure UnwoundTo (s : Sys) (p : TcbPtr) (s' : Sys) : Prop where
  wakeup : ∀ t, Reached s p t → t ∉ s'.wakeup
  others : ∀ t ∈ s'.wakeup, t ∈ s.wakeup
  locked : ∀ t, isLocked (s'.ipc t).threadState → isLocked (s.ipc t).threadState
  reached : ∀ t, Reached s p t → ¬isLocked (s'.ipc t).threadState
  queues : ∃ q' : TcbPtr → List TcbPtr, (∀ t, SendRing s' t (q' t)) ∧
    ((s.ipc p).threadState = .polling → ∀ t, p ∉ q' t)

lemma Reached.eq_of_unlocked (h : Reached s p t) (hl : ¬isLocked (s.ipc p).threadState) :
    t = p := by
  induction h with
  | refl => rfl
  | step h hl' _ ih => exact absurd (ih ▸ hl') hl

/-- A thread that is not locked is left alone, except for its queues. -/
lemma UnwoundTo.of_unlocked (hl : ¬isLocked (s.ipc p).threadState)
    (hwake : ∀ t, t ∈ s'.wakeup ↔ t ∈ s.wakeup ∧ t ≠ p)
    (hst : ∀ t, (s'.ipc t).threadState = (s.ipc t).threadState)
    (hq : ∃ q' : TcbPtr → List TcbPtr, (∀ t, SendRing s' t (q' t)) ∧
      ((s.ipc p).threadState = .polling → ∀ t, p ∉ q' t)) :
    UnwoundTo s p s' := by
  refine ⟨fun t ht h => ?_, fun t ht => ((hwake t).mp ht).1, fun t ht => by rwa [hst] at ht,
    fun t ht h => ?_, hq⟩
  · exact ((hwake t).mp h).2 (ht.eq_of_unlocked hl)
  · rw [hst, ht.eq_of_unlocked hl] at h
    exact hl h

/-- The way back from the partner: it is set running, and the thread returns with an error. -/
lemma UnwoundTo.back {s2 : Sys} {e : IpcReturn} (hl : isLocked (s.ipc p).threadState)
    (h : UnwoundTo (markAborted s p) (tidToTcb (s.ipc p).partner) s2) :
    UnwoundTo s p (returnIpc (makeRunning s2 (tidToTcb (s.ipc p).partner)) p e) := by
  set r := tidToTcb (s.ipc p).partner with hr
  have hst : ∀ t, isLocked ((returnIpc (makeRunning s2 r) p e).ipc t).threadState →
      isLocked (s2.ipc t).threadState := by
    intro t ht
    have hrun : ((returnIpc (makeRunning s2 r) p e).ipc t).threadState =
        ((makeRunning s2 r).ipc t).threadState := by
      rw [returnIpc_ipc]
      split
      · rename_i htp
        rw [htp]
      · rfl
    rw [hrun, makeRunning_ipc] at ht
    split at ht
    · rcases ht with ht | ht <;> simp at ht
    · exact ht
  have hwake : (returnIpc (makeRunning s2 r) p e).wakeup = s2.wakeup := makeRunning_wakeup _ _
  refine ⟨fun t ht hw => ?_, fun t ht => ?_, fun t ht => ?_, fun t ht h1 => ?_, ?_⟩
  · rw [hwake] at hw
    rcases ht.cases_mark with rfl | ht
    · exact ((mem_markAborted s t t).mp (h.others t hw)).2 rfl
    · exact h.wakeup t ht hw
  · rw [hwake] at ht
    exact ((mem_markAborted s p t).mp (h.others t ht)).1
  · exact (markAborted_state (h.locked t (hst t ht))).2
  · rcases ht.cases_mark with rfl | ht
    · exact (markAborted_state (h.locked t (hst t h1))).1 rfl
    · exact h.reached t ht (hst t h1)
  · obtain ⟨q', hq', -⟩ := h.queues
    refine ⟨q', fun t => ((hq' t).makeRunning r).returnIpc p e, fun hp => ?_⟩
    rw [hp] at hl
    rcases hl with h1 | h1 <;> simp at h1

/-- The partner is a kernel thread, or none. -/
lemma UnwoundTo.kernel {e : IpcReturn} (hq : SendQueues s q) (hl : isLocked (s.ipc p).threadState)
    (hk : isKernelId (s.ipc p).partner) : UnwoundTo s p (returnIpc (markAborted s p) p e) := by
  have hst : ∀ t, isLocked ((returnIpc (markAborted s p) p e).ipc t).threadState →
      t ≠ p ∧ isLocked (s.ipc t).threadState := by
    intro t ht
    rw [returnIpc_ipc] at ht
    split at ht
    · rename_i htp
      subst htp
      exact markAborted_state ht
    · exact markAborted_state ht
  have hself : ∀ t, Reached s p t → t = p := by
    intro t ht
    induction ht with
    | refl => rfl
    | step h hl' hk' ih => exact absurd (ih ▸ hk) hk'
  refine ⟨fun t ht hw => ?_, fun t ht => ((mem_markAborted s p t).mp ht).1,
    fun t ht => (hst t ht).2,
    fun t ht h1 => (hst t h1).1 (hself t ht), q, fun t => ((hq.ring t).markAborted p).returnIpc p e,
    fun hp => ?_⟩
  · exact ((mem_markAborted s p t).mp hw).2 (hself t ht)
  · rw [hp] at hl
    rcases hl with h1 | h1 <;> simp at h1

lemma returnIpc_state (s : Sys) (p t : TcbPtr) (e : IpcReturn) :
    ((returnIpc s p e).ipc t).threadState = (s.ipc t).threadState := by
  rw [returnIpc_ipc]
  split
  · rename_i h
    rw [h]
  · rfl

/-- One call for a thread that is not locked. -/
lemma unwindIpc_unlocked (hq : SendQueues s q) (hl : ¬isLocked (s.ipc p).threadState)
    (hf : (s.ipc p).threadState ≠ .free) :
    ∃ s', (∀ k, unwindIpc (k + 1) s p = some s') ∧ UnwoundTo s p s' := by
  have hstill : (s.ipc p).threadState = .running ∨ (s.ipc p).threadState = .aborted →
      ∃ s', (∀ k, unwindIpc (k + 1) s p = some s') ∧ UnwoundTo s p s' := fun h =>
    ⟨_, fun k => unwindIpc_still k h, .of_unlocked hl (mem_dequeueWakeup s p) (fun _ => rfl)
      ⟨q, fun t => (hq.ring t).of_ipc fun _ => ⟨rfl, rfl, rfl⟩, fun hp => by
        rw [hp] at h
        rcases h with h | h <;> simp at h⟩⟩
  cases hst : (s.ipc p).threadState with
  | free => exact absurd hst hf
  | running => exact hstill (.inl hst)
  | aborted => exact hstill (.inr hst)
  | lockedWaiting => exact absurd (.inl hst) hl
  | lockedRunning => exact absurd (.inr hst) hl
  | waiting =>
      refine ⟨_, fun k => unwindIpc_waiting k hst, .of_unlocked hl (mem_dequeueWakeup s p)
        (fun t => returnIpc_state _ p t _) ⟨q, fun t => ?_, fun hp => ?_⟩⟩
      · exact ((hq.ring t).of_ipc fun _ => ⟨rfl, rfl, rfl⟩ :
          SendRing (threadDequeueWakeup s p) t (q t)).returnIpc p _
      · rw [hst] at hp
        simp at hp
  | polling =>
      have hw : SendQueues (threadDequeueWakeup s p) q :=
        ⟨fun t => (hq.ring t).of_ipc fun _ => ⟨rfl, rfl, rfl⟩, hq.disjoint, hq.polling⟩
      obtain ⟨q', hring, hnot⟩ := hw.dequeue hst
      have hctl := sameCtl_dequeueSend (threadDequeueWakeup s p) (tidToTcb (s.ipc p).partner) p
      refine ⟨_, fun k => unwindIpc_polling k hst, .of_unlocked hl (fun t => ?_)
        (fun t => (returnIpc_state _ p t _).trans (hctl.threadState t))
        ⟨q', fun t => (hring t).returnIpc p _, fun _ => hnot⟩⟩
      rw [← mem_dequeueWakeup s p t, ← hctl.wakeup]
      rfl

/-- **The call ends** when it is given more fuel than threads are locked. -/
lemma unwindIpc_unwound {n : Nat} (hT : Threads s T) (hq : SendQueues s q) (hp : p ∈ T)
    (hn : (lockedIn s T).card ≤ n) :
    ∃ s', (∀ k, n < k → unwindIpc k s p = some s') ∧ UnwoundTo s p s' := by
  induction n generalizing s p with
  | zero =>
      have hl : ¬isLocked (s.ipc p).threadState := fun hl =>
        Nat.not_lt_zero _ (Nat.lt_of_lt_of_le
          (Finset.card_pos.mpr ⟨p, Finset.mem_filter.mpr ⟨hp, hl⟩⟩) hn)
      obtain ⟨s', h, hs⟩ := unwindIpc_unlocked hq hl (hT.state p hp)
      exact ⟨s', fun k hk => (Nat.succ_pred_eq_of_pos hk) ▸ h _, hs⟩
  | succ n ih =>
      by_cases hl : isLocked (s.ipc p).threadState
      · obtain ⟨e, -, he⟩ := unwindIpc_isLocked hl
        by_cases hk : isKernelId (s.ipc p).partner
        · refine ⟨_, fun k hnk => ?_, .kernel (e := .err e) hq hl hk⟩
          · obtain ⟨j, rfl⟩ := Nat.exists_eq_succ_of_ne_zero (Nat.ne_zero_of_lt hnk)
            rw [he j, if_pos hk]
            rfl
        · -- the partner is unwound with one thread less that is locked
          obtain ⟨s2, h2, hs2⟩ := ih (hT.mark p) (hq.mark p) (hT.partner p hp hl hk)
            (Nat.le_of_lt_succ (Nat.lt_of_lt_of_le (card_lockedIn_mark hp hl) hn))
          refine ⟨_, fun k hnk => ?_, hs2.back (e := .err e) hl⟩
          · obtain ⟨j, rfl⟩ := Nat.exists_eq_succ_of_ne_zero (Nat.ne_zero_of_lt hnk)
            rw [he j, if_neg hk, h2 j (Nat.lt_of_succ_lt_succ hnk)]
            rfl
      · obtain ⟨s', h, hs⟩ := unwindIpc_unlocked hq hl (hT.state p hp)
        exact ⟨s', fun k hk => (Nat.succ_pred_eq_of_pos (Nat.zero_lt_of_lt hk)) ▸ h _, hs⟩

/-- **`unwind_ipc` ends and cleans up**: for any finite set of threads with any states and any
partners, and send queues in which every polling thread is in that of its partner, the call ends for
each of them, with as many nested calls as there are threads at most; the threads it has got to are
in no wakeup queue and not locked, and the thread itself, if it was polling, is in no send queue. -/
theorem unwindIpc_ends (hT : Threads s T) (hq : SendQueues s q) (hp : p ∈ T) :
    ∃ s', (∀ k, T.card < k → unwindIpc k s p = some s') ∧ p ∉ s'.wakeup ∧
      (∃ q' : TcbPtr → List TcbPtr, (∀ t, SendRing s' t (q' t)) ∧
        ((s.ipc p).threadState = .polling → ∀ t, p ∉ q' t)) ∧
      ∀ t, Reached s p t → t ∉ s'.wakeup ∧ ¬isLocked (s'.ipc t).threadState := by
  obtain ⟨s', h, hs⟩ := unwindIpc_unwound hT hq hp (Finset.card_le_card (Finset.filter_subset _ _))
  exact ⟨s', h, hs.wakeup p .refl, hs.queues, fun t ht => ⟨hs.wakeup t ht, hs.reached t ht⟩⟩

/-- Sigma0 and the root task are locked with each other. -/
def cycleSys : Sys :=
  (bootSys.upd (tidToTcb sigma0Id)
    fun t => { t with threadState := .lockedRunning, partner := rootTaskId }).upd
    (tidToTcb rootTaskId) fun t => { t with threadState := .lockedWaiting, partner := sigma0Id }

theorem unwindIpc_ends_cycle : ∃ s', unwindIpc 3 cycleSys (tidToTcb sigma0Id) = some s' ∧
    ¬isLocked (s'.ipc (tidToTcb sigma0Id)).threadState ∧
    ¬isLocked (s'.ipc (tidToTcb rootTaskId)).threadState := by
  have hne : tidToTcb sigma0Id ≠ tidToTcb rootTaskId := by decide
  have hT : Threads cycleSys {tidToTcb sigma0Id, tidToTcb rootTaskId} := by
    refine ⟨fun t ht => ?_, fun t ht _ _ => ?_⟩ <;>
      rcases Finset.mem_insert.mp ht with rfl | ht
    · decide
    · rw [Finset.mem_singleton.mp ht]
      decide
    · exact Finset.mem_insert_of_mem (Finset.mem_singleton.mpr (by decide))
    · rw [Finset.mem_singleton.mp ht]
      exact Finset.mem_insert.mpr (.inl (by decide))
  have hnone : ∀ t, (cycleSys.ipc t).sendQueue = none ∧
      (cycleSys.ipc t).threadState ≠ .polling := by
    intro t
    by_cases h1 : t = tidToTcb rootTaskId
    · subst h1; exact ⟨rfl, by decide⟩
    · by_cases h2 : t = tidToTcb sigma0Id
      · subst h2; exact ⟨rfl, by decide⟩
      · rw [cycleSys, Sys.upd_ipc, if_neg h1, Sys.upd_ipc, if_neg h2]
        cases t with
        | idle => exact ⟨rfl, by decide⟩
        | slot n => exact ⟨rfl, ThreadState.noConfusion⟩
  have hq : SendQueues cycleSys fun _ => [] :=
    ⟨fun t => ⟨List.nodup_nil, (hnone t).1, trivial⟩, fun x t u h => absurd h List.not_mem_nil,
      fun x hx => absurd hx (hnone x).2⟩
  obtain ⟨s', h, -, -, hs⟩ := unwindIpc_ends hT hq (Finset.mem_insert_self _ _)
  have hroot : Reached cycleSys (tidToTcb sigma0Id) (tidToTcb rootTaskId) :=
    Reached.refl.step (r := tidToTcb sigma0Id) (by decide) (by decide)
  exact ⟨s', h 3 (by decide), (hs _ .refl).2, (hs _ hroot).2⟩

end Hazelnut

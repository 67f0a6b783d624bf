import Hazelnut.Lib.Ring
import Hazelnut.Thread.Ipc

/-!
What the send queue operations of `kernel/include/schedule.h` do to the rings.

* `SendRing s t l`: the send queue of `t` is the ring of the threads `l`.
* `sendRing_enqueue`, `sendRing_enqueue_other`: a sender is appended to the queue
  of its receiver, the other queues stay.
* `sendRing_dequeue`, `sendRing_dequeue_other`: a member is taken out; the other
  queues stay as long as the links of the thread taken out do not lead into them,
  which is all that is asked of a thread that is in no queue at all.
-/

namespace Hazelnut

/-- Two states that differ in the send queues only. -/
structure SameCtl (s s' : Sys) : Prop where
  myself : ∀ p, (s'.ipc p).myself = (s.ipc p).myself
  threadState : ∀ p, (s'.ipc p).threadState = (s.ipc p).threadState
  partner : ∀ p, (s'.ipc p).partner = (s.ipc p).partner
  space : ∀ p, (s'.ipc p).space = (s.ipc p).space
  cont : ∀ p, (s'.ipc p).cont = (s.ipc p).cont
  timeslice : ∀ p, (s'.ipc p).timeslice = (s.ipc p).timeslice
  wakeup : s'.wakeup = s.wakeup
  current : s'.current = s.current
  present : s'.present = s.present
  nextSpace : s'.nextSpace = s.nextSpace

/-- The send queue of `t` consists of the threads `l`, in this order. -/
structure SendRing (s : Sys) (t : TcbPtr) (l : List TcbPtr) : Prop where
  nodup : l.Nodup
  head : (s.ipc t).sendQueue = l.head?
  ring : Ring.IsRing (fun p => (s.ipc p).sendNext) (fun p => (s.ipc p).sendPrev) l

/-- A queue depends on its head and on the links of its members only. -/
lemma SendRing.congr {s s' : Sys} {t : TcbPtr} {l : List TcbPtr} (h : SendRing s t l)
    (hq : (s'.ipc t).sendQueue = (s.ipc t).sendQueue)
    (hn : ∀ p ∈ l, (s'.ipc p).sendNext = (s.ipc p).sendNext)
    (hp : ∀ p ∈ l, (s'.ipc p).sendPrev = (s.ipc p).sendPrev) : SendRing s' t l :=
  ⟨h.nodup, hq.trans h.head, h.ring.congr hn hp⟩

/-- A queue has one list of members. -/
lemma SendRing.eq_nil_iff {s : Sys} {t : TcbPtr} {l : List TcbPtr} (h : SendRing s t l) :
    (s.ipc t).sendQueue = none ↔ l = [] := by
  rw [h.head, List.head?_eq_none_iff]

lemma SameCtl.refl (s : Sys) : SameCtl s s :=
  ⟨fun _ => rfl, fun _ => rfl, fun _ => rfl, fun _ => rfl, fun _ => rfl, fun _ => rfl,
    rfl, rfl, rfl, rfl⟩

/-- An assignment to the links of one thread. -/
lemma SameCtl.upd {s s' : Sys} (h : SameCtl s s') (p : TcbPtr) (f : Tcb → Tcb)
    (hf : ∀ t, (f t).toIpcPart = { t.toIpcPart with
      sendQueue := (f t).sendQueue, sendPrev := (f t).sendPrev, sendNext := (f t).sendNext }) :
    SameCtl s (s'.upd p f) := by
  have key : ∀ q, ∃ a b c, (s'.upd p f).ipc q =
      { s'.ipc q with sendQueue := a, sendPrev := b, sendNext := c } := by
    intro q
    rw [Sys.upd_ipc]
    split
    · rename_i hq
      exact ⟨_, _, _, by rw [hf, hq]; rfl⟩
    · exact ⟨_, _, _, rfl⟩
  constructor
  case wakeup => exact h.wakeup
  case current => exact h.current
  case present => exact h.present
  case nextSpace => exact h.nextSpace
  all_goals
    intro q
    obtain ⟨a, b, c, hq⟩ := key q
    rw [hq]
  · exact h.myself q
  · exact h.threadState q
  · exact h.partner q
  · exact h.space q
  · exact h.cont q
  · exact h.timeslice q

lemma SameCtl.updPtr {s s' : Sys} (h : SameCtl s s') (p : Option TcbPtr) (f : Tcb → Tcb)
    (hf : ∀ t, (f t).toIpcPart = { t.toIpcPart with
      sendQueue := (f t).sendQueue, sendPrev := (f t).sendPrev, sendNext := (f t).sendNext }) :
    SameCtl s (s'.updPtr p f) := by
  cases p with
  | none => exact h
  | some p => exact h.upd p f hf

/-! ### Enqueuing -/

lemma sameCtl_enqueueSend (s : Sys) (dest src : TcbPtr) :
    SameCtl s (threadEnqueueSend s dest src) := by
  unfold threadEnqueueSend
  split
  · exact ((SameCtl.refl s).upd _ _ (by intro _; rfl)).upd _ _ (by intro _; rfl)
  · exact (((SameCtl.refl s).upd _ _ (by intro _; rfl)).upd _ _ (by intro _; rfl)).updPtr _ _
      (by intro _; rfl)

/-- The links after enqueuing into an empty queue. -/
lemma enqueueSend_nil {s : Sys} {dest a : TcbPtr} (h : (s.ipc dest).sendQueue = none)
    (p : TcbPtr) :
    (((threadEnqueueSend s dest a).ipc p).sendQueue
        = if p = dest then some a else (s.ipc p).sendQueue)
      ∧ (((threadEnqueueSend s dest a).ipc p).sendNext
        = if p = a then some a else (s.ipc p).sendNext)
      ∧ (((threadEnqueueSend s dest a).ipc p).sendPrev
        = if p = a then some a else (s.ipc p).sendPrev) := by
  have h' : (s.tcb dest).sendQueue = none := h
  unfold threadEnqueueSend
  rw [h']
  simp only [Sys.ipc, Sys.upd, Function.update_apply]
  refine ⟨?_, ?_, ?_⟩ <;> split_ifs <;> simp_all

/-- The links after enqueuing into a queue with first element `first`. -/
lemma enqueueSend_cons {s : Sys} {dest a first : TcbPtr}
    (h : (s.ipc dest).sendQueue = some first) (p : TcbPtr) :
    (((threadEnqueueSend s dest a).ipc p).sendQueue = (s.ipc p).sendQueue)
      ∧ (((threadEnqueueSend s dest a).ipc p).sendNext
        = if (s.ipc first).sendPrev = some p then some a
          else if p = a then some first else (s.ipc p).sendNext)
      ∧ (((threadEnqueueSend s dest a).ipc p).sendPrev
        = if p = first then some a
          else if p = a then (s.ipc first).sendPrev else (s.ipc p).sendPrev) := by
  have h' : (s.tcb dest).sendQueue = some first := h
  unfold threadEnqueueSend
  rw [h']
  cases hb : (s.tcb first).sendPrev with
  | none =>
      simp only [Sys.ipc, Sys.upd, Sys.updPtr, Function.update_apply, hb]
      refine ⟨?_, ?_, ?_⟩ <;> split_ifs <;> simp_all
  | some b =>
      simp only [Sys.ipc, Sys.upd, Sys.updPtr, Function.update_apply, hb]
      refine ⟨?_, ?_, ?_⟩ <;> split_ifs <;> simp_all

/-- **Enqueuing appends** the sender to the queue of its receiver. -/
lemma sendRing_enqueue {s : Sys} {dest src : TcbPtr} {l : List TcbPtr}
    (h : SendRing s dest l) (hsrc : src ∉ l) :
    SendRing (threadEnqueueSend s dest src) dest (l ++ [src]) := by
  cases l with
  | nil =>
      have hq := h.eq_nil_iff.mpr rfl
      have hl := enqueueSend_nil (a := src) hq
      refine ⟨by simp, ?_, ?_⟩
      · rw [(hl dest).1]; simp
      · rw [List.nil_append, Ring.isRing_singleton]
        exact ⟨by rw [(hl src).2.1, if_pos rfl], by rw [(hl src).2.2, if_pos rfl]⟩
  | cons a l =>
      have hq : (s.ipc dest).sendQueue = some a := h.head
      have hl := enqueueSend_cons (a := src) hq
      obtain ⟨z, hz⟩ := (h.ring.exists_links List.mem_cons_self).2
      have hz' : (s.ipc a).sendPrev = some z := hz
      have hza : z ∈ a :: l := h.ring.prev_mem List.mem_cons_self hz
      have hzs : z ≠ src := fun he => hsrc (he ▸ hza)
      have has : a ≠ src := fun he => hsrc (he ▸ List.mem_cons_self)
      refine ⟨?_, ?_, ?_⟩
      · exact List.nodup_append.mpr ⟨h.nodup, by simp, fun x hx y hy hxy => by
          rw [List.mem_singleton] at hy; exact hsrc (by rw [← hy, ← hxy]; exact hx)⟩
      · rw [(hl dest).1, hq]; rfl
      · refine Ring.IsRing.insert h.nodup h.ring hsrc hz ?_ ?_ ?_ ?_ ?_ ?_
        · rw [(hl src).2.1, hz', if_neg (by simpa using hzs), if_pos rfl]
        · rw [(hl z).2.1, hz', if_pos rfl]
        · intro y hys hyz
          rw [(hl y).2.1, hz', if_neg (by simpa using hyz.symm), if_neg hys]
        · rw [(hl src).2.2, if_neg has.symm, if_pos rfl, hz']
        · rw [(hl a).2.2, if_pos rfl]
        · intro y hys hya
          rw [(hl y).2.2, if_neg hya, if_neg hys]

/-- Enqueuing leaves every other queue alone. -/
lemma sendRing_enqueue_other {s : Sys} {dest src t : TcbPtr} {l l' : List TcbPtr}
    (hd : SendRing s dest l) (ht : SendRing s t l') (hne : t ≠ dest) (hsrc : src ∉ l')
    (hdis : ∀ p ∈ l, p ∉ l') : SendRing (threadEnqueueSend s dest src) t l' := by
  cases l with
  | nil =>
      have hl := enqueueSend_nil (a := src) (hd.eq_nil_iff.mpr rfl)
      refine ht.congr (by rw [(hl t).1, if_neg hne]) ?_ ?_
      · intro p hp
        have hps : p ≠ src := fun he => hsrc (he ▸ hp)
        rw [(hl p).2.1, if_neg hps]
      · intro p hp
        have hps : p ≠ src := fun he => hsrc (he ▸ hp)
        rw [(hl p).2.2, if_neg hps]
  | cons a l =>
      have hl := enqueueSend_cons (a := src) (show (s.ipc dest).sendQueue = some a from hd.head)
      refine ht.congr (hl t).1 ?_ ?_
      · intro p hp
        have hz : (s.ipc a).sendPrev ≠ some p := fun hz =>
          hdis p (hd.ring.prev_mem List.mem_cons_self hz) hp
        have hps : p ≠ src := fun he => hsrc (he ▸ hp)
        rw [(hl p).2.1, if_neg hz, if_neg hps]
      · intro p hp
        have hpa : p ≠ a := fun he => hdis a List.mem_cons_self (he ▸ hp)
        have hps : p ≠ src := fun he => hsrc (he ▸ hp)
        rw [(hl p).2.2, if_neg hpa, if_neg hps]

/-! ### Dequeuing -/

lemma sameCtl_dequeueSend (s : Sys) (dest p : TcbPtr) :
    SameCtl s (threadDequeueSend s dest p) := by
  unfold threadDequeueSend
  dsimp only
  split
  · exact (SameCtl.refl s).upd _ _ (by intro _; rfl)
  · refine SameCtl.updPtr (SameCtl.updPtr ?_ _ _ (by intro _; rfl)) _ _ (by intro _; rfl)
    split
    · exact (SameCtl.refl s).upd _ _ (by intro _; rfl)
    · exact SameCtl.refl s

/-- The links after dequeuing a thread that is linked to itself. -/
lemma dequeueSend_self {s : Sys} {t p : TcbPtr} (h : (s.ipc p).sendNext = some p)
    (q : TcbPtr) :
    (((threadDequeueSend s t p).ipc q).sendQueue
        = if q = t then none else (s.ipc q).sendQueue)
      ∧ ((threadDequeueSend s t p).ipc q).sendNext = (s.ipc q).sendNext
      ∧ ((threadDequeueSend s t p).ipc q).sendPrev = (s.ipc q).sendPrev := by
  have h' : (s.tcb p).sendNext = some p := h
  unfold threadDequeueSend
  dsimp only
  rw [if_pos h']
  simp only [Sys.ipc, Sys.upd, Function.update_apply]
  refine ⟨?_, ?_, ?_⟩ <;> split_ifs <;> simp_all

/-- The links after dequeuing any other thread. -/
lemma dequeueSend_links {s : Sys} {t p : TcbPtr} (h : (s.ipc p).sendNext ≠ some p)
    (q : TcbPtr) :
    (((threadDequeueSend s t p).ipc q).sendQueue
        = if q = t ∧ (s.ipc t).sendQueue = some p then (s.ipc p).sendNext
          else (s.ipc q).sendQueue)
      ∧ (((threadDequeueSend s t p).ipc q).sendNext
        = if (s.ipc p).sendPrev = some q then (s.ipc p).sendNext else (s.ipc q).sendNext)
      ∧ (((threadDequeueSend s t p).ipc q).sendPrev
        = if (s.ipc p).sendNext = some q then (s.ipc p).sendPrev else (s.ipc q).sendPrev) := by
  have h' : (s.tcb p).sendNext ≠ some p := h
  unfold threadDequeueSend
  dsimp only
  rw [if_neg h']
  cases hn : (s.tcb p).sendNext <;> cases hb : (s.tcb p).sendPrev <;>
    by_cases hq : (s.tcb t).sendQueue = some p <;>
    simp only [hq, if_true, if_false, Sys.ipc, Sys.upd, Sys.updPtr, Function.update_apply, hn,
      hb] <;>
    refine ⟨?_, ?_, ?_⟩ <;> split_ifs <;> simp_all

/-- **Dequeuing erases** a member. -/
lemma sendRing_dequeue {s : Sys} {dest p : TcbPtr} {l : List TcbPtr}
    (h : SendRing s dest l) (hp : p ∈ l) :
    SendRing (threadDequeueSend s dest p) dest (l.erase p) := by
  by_cases hself : (s.ipc p).sendNext = some p
  · have hl := dequeueSend_self (t := dest) hself
    obtain rfl : l = [p] := h.ring.singleton_of_next_self h.nodup hp hself
    rw [List.erase_cons_head]
    exact ⟨List.nodup_nil, by rw [(hl dest).1, if_pos rfl]; rfl, trivial⟩
  · have hl := dequeueSend_links (t := dest) hself
    obtain ⟨⟨n, hn⟩, ⟨b, hb⟩⟩ := h.ring.exists_links hp
    have hn' : (s.ipc p).sendNext = some n := hn
    have hb' : (s.ipc p).sendPrev = some b := hb
    refine ⟨h.nodup.erase p, ?_, ?_⟩
    · rw [(hl dest).1, h.head]
      cases l with
      | nil => simp at hp
      | cons a l =>
          by_cases ha : a = p
          · subst ha
            rw [List.erase_cons_head, if_pos ⟨rfl, rfl⟩]
            have hlink := (Ring.IsRing.links h.ring).1
            cases l with
            | nil => exact absurd hlink hself
            | cons c l => exact hlink
          · rw [if_neg fun hc => ha (by simpa using hc.2), List.erase_cons_tail (by simpa using ha)]
            rfl
    · refine Ring.IsRing.erase h.nodup h.ring hp hself hb hn ?_ ?_ ?_ ?_
      · rw [(hl b).2.1, hb', if_pos rfl, hn']
      · intro y hyb _
        rw [(hl y).2.1, hb', if_neg (by simpa using hyb.symm)]
      · rw [(hl n).2.2, hn', if_pos rfl, hb']
      · intro y hyn _
        rw [(hl y).2.2, hn', if_neg (by simpa using hyn.symm)]

/-- Dequeuing leaves every queue alone into which the links of the thread do not
lead. -/
lemma sendRing_dequeue_other {s : Sys} {dest p t : TcbPtr} {l : List TcbPtr}
    (h : SendRing s t l) (hne : t ≠ dest) (hn : ∀ q, (s.ipc p).sendNext = some q → q ∉ l)
    (hb : ∀ q, (s.ipc p).sendPrev = some q → q ∉ l) :
    SendRing (threadDequeueSend s dest p) t l := by
  by_cases hself : (s.ipc p).sendNext = some p
  · have hl := dequeueSend_self (t := dest) hself
    exact h.congr (by rw [(hl t).1, if_neg hne]) (fun q _ => (hl q).2.1) fun q _ => (hl q).2.2
  · have hl := dequeueSend_links (t := dest) hself
    refine h.congr (by rw [(hl t).1, if_neg fun hc => hne hc.1]) ?_ ?_
    · intro q hq
      rw [(hl q).2.1, if_neg fun hc => hb q hc hq]
    · intro q hq
      rw [(hl q).2.2, if_neg fun hc => hn q hc hq]

end Hazelnut

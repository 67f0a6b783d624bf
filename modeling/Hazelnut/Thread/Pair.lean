import Hazelnut.Thread.Clean
import Hazelnut.Thread.Interrupt

/-!
Locked partners.

A receiver that finds a sender polling for it locks itself and the sender, which then transfers its
message.  `unwind_ipc` follows the partner that a locked thread has recorded.

* `LockedTo`: a locked receiver has recorded the sender that it has picked.
* `LockedBut`: all locked threads have recorded the right partner, but for some.
* `PairOk`: a step without a wrong turn that picks no other sender than the recorded partner, for
  `sys_ipc` does not record the partner when it finds one polling.
* `partners_symmetric`: in every run of such steps, locked partners are symmetric, and unwinding the
  IPC of a thread changes the state of no other thread than the one it is locked with.
-/

namespace Hazelnut

variable {B E : TcbPtr → Prop} {s s' s'' : Sys} {p q r : TcbPtr}

/-! ### Locked threads -/

/-- The receiver `t` has recorded `q`, which is about to send to it. -/
structure LockedTo (s : Sys) (t q : TcbPtr) : Prop where
  sends : Sends s q (s.ipc t).myself
  partner : (s.ipc t).partner = (s.ipc q).myself

/-- A locked thread has recorded the thread it is locked with, or an interrupt. -/
structure Locked (s : Sys) (t : TcbPtr) : Prop where
  waiting : (s.ipc t).threadState = .lockedWaiting → ∃ q, LockedTo s t q
  running : (s.ipc t).threadState = .lockedRunning → ¬Plain (s.ipc t).cont →
    isKernelId (s.ipc t).partner ∨ Sends s t (s.ipc t).partner

/-- All threads are, but for those of `B`. -/
def LockedBut (B : TcbPtr → Prop) (s : Sys) : Prop := ∀ t, ¬B t → Existing s t → Locked s t

lemma Locked.of_state {t : TcbPtr} (h1 : (s.ipc t).threadState ≠ .lockedWaiting)
    (h2 : (s.ipc t).threadState ≠ .lockedRunning) : Locked s t :=
  ⟨fun h => absurd h h1, fun h => absurd h h2⟩

/-- What of a thread matters for its lock. -/
def SameLock (a b : IpcPart) : Prop :=
  b.threadState = a.threadState ∧ b.partner = a.partner ∧ b.cont = a.cont

lemma SameLock.refl (a : IpcPart) : SameLock a a := ⟨rfl, rfl, rfl⟩

namespace LockedBut

/-- Nobody stops sending, and the locked threads are those of before. -/
lemma move {B' : TcbPtr → Prop} (h : LockedBut B s) (hm : ∀ x, (s'.ipc x).myself = (s.ipc x).myself)
    (hoth : ∀ t, ¬B' t → ¬B t ∧ SameLock (s.ipc t) (s'.ipc t) ∨ Locked s' t)
    (hfwd : ∀ t x, ¬B' t → Existing s t → Sends s x (s.ipc t).myself → Sends s' x (s.ipc t).myself)
    (hself : ∀ t d, ¬B' t → Sends s t d → Sends s' t d) : LockedBut B' s' := by
  intro t hB ht
  rcases hoth t hB with ⟨hB0, h1, h2, h3⟩ | h1
  · have ht0 : Existing s t := ⟨ht.1, by rw [← hm t]; exact ht.2⟩
    obtain ⟨hw, hr⟩ := h t hB0 ht0
    refine ⟨fun hst => ?_, fun hst hc => ?_⟩
    · obtain ⟨q, hq1, hq2⟩ := hw (h1.symm.trans hst)
      exact ⟨q, by rw [hm]; exact hfwd t q hB ht0 hq1, by rw [h2, hm]; exact hq2⟩
    · rw [h2]
      exact (hr (h1.symm.trans hst) (h3 ▸ hc)).imp id fun h => hself t _ hB h
  · exact h1

/-- Only the control block of `q` changes, and `q` does not send. -/
lemma updOne {B' : TcbPtr → Prop} (h : LockedBut B s) (hB : ∀ t, B t → B' t ∨ t = q) {f : Tcb → Tcb}
    (hm : ∀ t, (f t).myself = t.myself) (hs : ∀ d, ¬Sends s q d)
    (hq : ¬B' q → ¬B q ∧ SameLock (s.ipc q) (f (s.tcb q)).toIpcPart ∨ Locked (s.upd q f) q) :
    LockedBut B' (s.upd q f) := by
  have hipc : ∀ x, x ≠ q → (s.upd q f).ipc x = s.ipc x := fun x hx => by rw [Sys.upd_ipc, if_neg hx]
  have hfwd : ∀ x d, Sends s x d → Sends (s.upd q f) x d := fun x d hx => by
    have hne : x ≠ q := fun he => hs d (he ▸ hx)
    refine ⟨⟨hx.existing.1, ?_⟩, ?_, ?_⟩ <;> rw [hipc x hne]
    · exact hx.existing.2
    · exact hx.state
    · exact hx.cont
  refine h.move (fun x => ?_) (fun t ht => ?_) (fun t x _ _ => hfwd x _) (fun t d _ => hfwd t d)
  · rw [Sys.upd_ipc]
    split
    · rename_i hx; rw [hx]; exact hm _
    · rfl
  · by_cases hne : t = q
    · subst hne
      refine (hq ht).imp (fun h => ⟨h.1, ?_⟩) id
      rw [Sys.upd_ipc, if_pos rfl]
      exact h.2
    · exact .inl ⟨fun hb => (hB t hb).elim ht hne, by rw [hipc t hne]; exact SameLock.refl _⟩

lemma mono {B' : TcbPtr → Prop} (h : LockedBut B s) (hB : ∀ r, B r → B' r) : LockedBut B' s :=
  fun r hr => h r fun h => hr (hB r h)

lemma same (h : LockedBut B s) (hs : s'.ipc = s.ipc) : LockedBut B s' :=
  h.move (fun x => by rw [hs]) (fun t ht => .inl ⟨ht, by rw [hs]; exact SameLock.refl _⟩)
    (fun t x _ _ hx => by rw [sends_congr hs]; exact hx)
    (fun t d _ hx => by rw [sends_congr hs]; exact hx)

/-- Links do not matter. -/
lemma ctl (h : LockedBut B s) (hs : SameCtl s s') : LockedBut B s' := by
  have hfwd : ∀ x d, Sends s x d → Sends s' x d := fun x d hx =>
    ⟨⟨hx.existing.1, by rw [hs.myself]; exact hx.existing.2⟩,
      by rw [hs.threadState]; exact hx.state,
      by rw [hs.cont]; exact hx.cont⟩
  exact h.move hs.myself
    (fun t ht => .inl ⟨ht, hs.threadState t, hs.partner t, hs.cont t⟩) (fun t x _ _ => hfwd x _)
    (fun t d _ => hfwd t d)

end LockedBut

/-! ### System calls -/

/-- While the thread `p` runs in the kernel, all others are right, but for those of `E`. -/
structure OthersLocked (E : TcbPtr → Prop) (p : TcbPtr) (s : Sys) : Prop where
  locked : LockedBut (fun x => E x ∨ x = p) s
  cont : (s.ipc p).cont = .user
  state : (s.ipc p).threadState ≠ .lockedWaiting
  current : s.current = p

namespace OthersLocked

lemma not_sends (h : OthersLocked E p s) (d : Tid) : ¬Sends s p d := fun hs => by
  obtain ⟨_, _, hc⟩ := hs.cont
  simp [h.cont] at hc

lemma upd (h : OthersLocked E p s) {f : Tcb → Tcb}
    (hf : ∀ t, (f t).myself = t.myself ∧ (f t).cont = t.cont ∧
      ((f t).threadState = t.threadState ∨ (f t).threadState ≠ .lockedWaiting)) :
    OthersLocked E p (s.upd p f) := by
  refine ⟨h.locked.updOne (fun t ht => .inl ht) (fun t => (hf t).1) h.not_sends
    (fun hn => absurd (.inr rfl) hn), ?_, ?_, h.current⟩
  · rw [Sys.upd_ipc, if_pos rfl, (hf _).2.1]
    exact h.cont
  · rw [Sys.upd_ipc, if_pos rfl]
    rcases (hf (s.tcb p)).2.2 with h1 | h1
    · rw [h1]; exact h.state
    · exact h1

lemma same (h : OthersLocked E p s) (hs : s'.ipc = s.ipc) (hc : s'.current = s.current) :
    OthersLocked E p s' :=
  ⟨h.locked.same hs, by rw [hs]; exact h.cont, by rw [hs]; exact h.state, hc.trans h.current⟩

lemma ctl (h : OthersLocked E p s) (hs : SameCtl s s') : OthersLocked E p s' :=
  ⟨h.locked.ctl hs, by rw [hs.cont]; exact h.cont, by rw [hs.threadState]; exact h.state,
    hs.current.trans h.current⟩

lemma enqueueReady (h : OthersLocked E p s) (r : TcbPtr) :
    OthersLocked E p (threadEnqueueReady s r) :=
  h.same (sameIpc_enqueueReady s r).ipc (sameIpc_enqueueReady s r).current

lemma enqueueWakeup (h : OthersLocked E p s) (r : TcbPtr) :
    OthersLocked E p (threadEnqueueWakeup s r) :=
  h.same (ipc_enqueueWakeup s r) (current_enqueueWakeup s r)

/-- The thread is right itself. -/
lemma done (h : OthersLocked E p s) (hp : Locked s p) : LockedBut E s := fun t ht hte => by
  by_cases he : t = p
  · rw [he]; exact hp
  · exact h.locked t (fun h => h.elim ht he) hte

lemma returnIpc (h : OthersLocked E p s) (e : IpcReturn) : LockedBut E (returnIpc s p e) := by
  have h1 : OthersLocked E p (Hazelnut.returnIpc s p e) :=
    h.same (sameIpc_returnIpc h.cont e).ipc rfl
  exact h1.done ⟨fun hst => absurd hst h1.state, fun _ hc => absurd (.inl h1.cont) hc⟩

lemma returnIpcArgs (h : OthersLocked E p s) (t : Tid) (e : Word) :
    LockedBut E (returnIpcArgs s p t e) := h.returnIpc _

/-- The thread is switched away from. -/
lemma switchTo (h : OthersLocked E p s) (r : TcbPtr) {c : Cont}
    (hc : (s.ipc p).threadState ≠ .lockedRunning ∨ Plain c) : LockedBut E (switchTo s r c) := by
  have h1 : LockedBut E (s.upd p fun t => { t with cont := c }) := by
    refine h.locked.updOne (fun t ht => ht) (by intro _; rfl) h.not_sends fun _ => .inr ⟨?_, ?_⟩
    · rw [Sys.upd_ipc, if_pos rfl]
      exact fun hst => absurd hst h.state
    · rw [Sys.upd_ipc, if_pos rfl]
      exact fun hst hk => hc.elim (fun hc => absurd hst hc) (fun hc => absurd hc hk)
  rw [Hazelnut.switchTo, h.current]
  exact h1.same rfl

lemma recvBlock (h : OthersLocked E p s) (toTcb : Option TcbPtr) (partner : Tid) :
    LockedBut E (recvBlock s p toTcb partner) := by
  have hblock : ∀ {s1 : Sys}, OthersLocked E p s1 → LockedBut E (Hazelnut.switchTo
      (s1.upd p fun t => { t with partner := partner, threadState := .waiting })
      (toTcb.getD .idle) .recvWait) := fun h1 =>
    (h1.upd (by intro _; exact ⟨rfl, rfl, .inr (by simp)⟩)).switchTo _
      (.inl (by rw [Sys.upd_ipc, if_pos rfl]; simp))
  unfold Hazelnut.recvBlock
  dsimp only
  split
  · exact hblock h
  · split
    · exact h.returnIpc _
    · exact hblock ((h.upd (by intro _; exact ⟨rfl, rfl, .inl rfl⟩)).enqueueWakeup p)

/-- A polling sender is picked, which is the recorded partner. -/
lemma recvFromReady (h : OthersLocked E p s) (hi : Inv .none s) (toTcb : Option TcbPtr)
    (hr : Poller .none s p r) (hpart : (s.ipc r).myself = (s.ipc p).partner) :
    LockedBut E (recvFromReady s p toTcb r) := by
  obtain ⟨hrc, -, -, sd, rd, hcont⟩ := hi.polling r hr.existing hr.polling (not_limbo_none s r)
  have hrp : r ≠ p := fun he => hrc (he.trans h.current.symm)
  obtain ⟨s2, hctl, -, hipc, -, -, -, -⟩ := recvFromReady_eq (q := r) h.current toTcb
  generalize Hazelnut.recvFromReady s p toTcb r = s' at hipc ⊢
  have hoth : ∀ x, x ≠ p → x ≠ r → (s'.ipc x).myself = (s.ipc x).myself ∧
      (s'.ipc x).threadState = (s.ipc x).threadState ∧ (s'.ipc x).partner = (s.ipc x).partner ∧
      (s'.ipc x).cont = (s.ipc x).cont := fun x h1 h2 => by
    rw [hipc, if_neg h1, hctl.myself, hctl.threadState, hctl.partner, hctl.cont,
      Sys.upd_ipc, if_neg h2]
    exact ⟨rfl, rfl, rfl, rfl⟩
  have hr' : (s'.ipc r).myself = (s.ipc r).myself ∧ (s'.ipc r).threadState = .lockedRunning ∧
      (s'.ipc r).partner = (s.ipc p).myself ∧
      (s'.ipc r).cont = .sendPoll (s.ipc p).myself sd rd := by
    rw [hipc, if_neg hrp, hctl.myself, hctl.threadState, hctl.partner, hctl.cont,
      Sys.upd_ipc, if_pos rfl]
    exact ⟨rfl, rfl, hr.partner, by rw [← hr.partner]; exact hcont⟩
  have hp' : (s'.ipc p).myself = (s.ipc p).myself ∧ (s'.ipc p).threadState = .lockedWaiting ∧
      (s'.ipc p).partner = (s.ipc p).partner := by
    rw [hipc, if_pos rfl]
    refine ⟨?_, rfl, ?_⟩
    · show (s2.ipc p).myself = _
      rw [hctl.myself, Sys.upd_ipc, if_neg hrp.symm]
    · show (s2.ipc p).partner = _
      rw [hctl.partner, Sys.upd_ipc, if_neg hrp.symm]
  have hm : ∀ x, (s'.ipc x).myself = (s.ipc x).myself := fun x => by
    by_cases h1 : x = p
    · rw [h1]; exact hp'.1
    · by_cases h2 : x = r
      · rw [h2]; exact hr'.1
      · exact (hoth x h1 h2).1
  have hsends : Sends s' r (s.ipc p).myself :=
    ⟨⟨hr.existing.1, by rw [hm]; exact hr.existing.2⟩, hr'.2.1, sd, rd, hr'.2.2.2⟩
  have hfwd : ∀ x d, Sends s x d → Sends s' x d := fun x d hx => by
    have h1 : x ≠ p := fun he => h.not_sends d (he ▸ hx)
    have h2 : x ≠ r := fun he => by
      have h3 := hx.state
      rw [he, hr.polling] at h3
      simp at h3
    obtain ⟨g1, g2, -, g4⟩ := hoth x h1 h2
    exact ⟨⟨hx.existing.1, by rw [g1]; exact hx.existing.2⟩, g2.trans hx.state,
      by rw [g4]; exact hx.cont⟩
  refine h.locked.move hm (fun t ht => ?_) (fun t x _ _ => hfwd x _) (fun t d _ => hfwd t d)
  by_cases h1 : t = p
  · refine .inr ⟨fun _ => ⟨r, ?_, ?_⟩, fun hst => ?_⟩
    · rw [h1, hm]; exact hsends
    · rw [h1, hp'.2.2, hm]; exact hpart.symm
    · rw [h1, hp'.2.1] at hst
      simp at hst
  · by_cases h2 : t = r
    · refine .inr ⟨fun hst => ?_, fun _ _ => .inr ?_⟩
      · rw [h2, hr'.2.1] at hst
        simp at hst
      · rw [h2, hr'.2.2.1]; exact hsends
    · exact .inl ⟨fun h => h.elim ht h1, (hoth t h1 h2).2⟩

lemma recvFrom (h : OthersLocked E p s) (hi : Inv .none s) (toTcb : Option TcbPtr)
    (rcvDesc : Word) (src : Option TcbPtr)
    (hsrc : ∀ r, src = some r → isPolling (s.tcb r).threadState →
      (s.tcb r).partner = (s.tcb p).myself →
      Poller .none s p r ∧ (s.ipc r).myself = (s.ipc p).partner) :
    LockedBut E (recvFrom s p toTcb rcvDesc src) := by
  have h0 : SameIpc s (s.upd p fun t => { t with msgDesc := rcvDesc }) :=
    (SameIpc.refl s).upd p (by intro _; rfl)
  unfold Hazelnut.recvFrom
  dsimp only
  generalize s.upd p (fun t => { t with msgDesc := rcvDesc }) = s1 at h0 ⊢
  have h1 := h.same h0.ipc h0.current
  split
  · exact h1.recvBlock _ _
  · rename_i r
    split
    · exact h1.recvBlock _ _
    · rename_i hcond
      obtain ⟨h2, h3⟩ := not_or.mp hcond
      obtain ⟨h4, h5⟩ := hsrc r rfl (not_not.mp h2) (not_not.mp h3)
      refine h1.recvFromReady (Inv.congr h0 hi) _ ?_ ?_
      · rw [poller_congr h0.ipc]; exact h4
      · rw [h0.ipc]; exact h5

lemma kernelIdWait (h : OthersLocked E p s) (dest : Tid) : LockedBut E (kernelIdWait s p dest) := by
  unfold Hazelnut.kernelIdWait
  dsimp only
  generalize (if dest = nilId then invalidId else dest) = partner
  exact (h.upd (by intro _; exact ⟨rfl, rfl, .inr (by simp)⟩)).switchTo _
    (.inl (by rw [Sys.upd_ipc, if_pos rfl]; simp))

lemma handleKernelId (h : OthersLocked E p s) (dest : Tid) :
    LockedBut E (ipcHandleKernelId s p dest) := by
  have hown : ∀ o e, LockedBut E (Hazelnut.returnIpcArgs { s with interruptOwner := o } p dest e) :=
    fun o e => OthersLocked.returnIpcArgs (s := { s with interruptOwner := o })
      (h.same rfl rfl) dest e
  unfold ipcHandleKernelId
  dsimp only
  split
  · exact (h.upd (by intro _; exact ⟨rfl, rfl, .inl rfl⟩)).returnIpcArgs _ _
  · split
    · exact h.kernelIdWait dest
    · split
      · split
        · split
          · split
            · exact hown _ _
            · exact hown _ _
          · split
            · exact hown _ _
            · exact hown _ _
        · exact hown _ _
      · exact ((h.upd (by intro _; exact ⟨rfl, rfl, .inl rfl⟩)).enqueueWakeup p).kernelIdWait dest

end OthersLocked

/-- The receive phase finds `r` polling for `p`, and picks it. -/
def PicksUp (s : Sys) (p : TcbPtr) (dest : Tid) (rcvDesc : Word) (r : TcbPtr) : Prop :=
  (if rcvDesc &&& 1 = 1 then ¬IrqPending s p ∧ (s.tcb p).sendQueue = some r
    else r = tidToTcb dest ∧ ¬isKernelId dest ∧ (s.tcb r).myself = dest) ∧
  isPolling (s.tcb r).threadState ∧ (s.tcb r).partner = (s.tcb p).myself

/-- Whom the receive phase picks polls. -/
lemma Inv.poller_of_picksUp (hi : Inv .none s) (hp : Existing s p) {dest : Tid} {rcvDesc : Word}
    (h : PicksUp s p dest rcvDesc r) : Poller .none s p r := by
  obtain ⟨h1, h2, h3⟩ := h
  split at h1
  · obtain ⟨l, hl, hmem⟩ := hi.ring p hp
    exact (hmem r).mp (List.mem_of_mem_head? (by rw [← hl.head]; exact h1.2))
  · obtain ⟨rfl, -, h4⟩ := h1
    have hex := (hi.existing_of_myself h4).1
    exact ⟨hex, ((isPolling_iff _).mp h2).resolve_right (hi.not_free _ hex), h3, not_limbo_none s _⟩

namespace OthersLocked

/-- The receive phase. -/
lemma recvPhase (h : OthersLocked E p s) (hi : Inv .none s) (hp : Existing s p)
    (toTcb : Option TcbPtr)
    {dest : Tid} {rcvDesc : Word}
    (hpick : ∀ r, PicksUp s p dest rcvDesc r → (s.ipc r).myself = (s.ipc p).partner) :
    LockedBut E (recvPhase s p toTcb dest rcvDesc) := by
  unfold Hazelnut.recvPhase
  dsimp only
  obtain ⟨s0, hs0⟩ : ∃ s0, s0 = if (s.tcb p).intrPending &&& irqInService ≠ 0 then
      s.upd p fun t => { t with intrPending := 0 } else s := ⟨_, rfl⟩
  rw [← hs0]
  have hsame : SameIpc s s0 := by
    rw [hs0]
    split
    · exact (SameIpc.refl s).upd p (by intro _; rfl)
    · exact SameIpc.refl s
  have hirq : (s0.tcb p).intrPending = 0 → ¬IrqPending s p := fun h1 h2 => by
    rw [hs0, if_neg (by simp [h2.1])] at h1
    exact h2.2 h1
  have h0 := h.same hsame.ipc hsame.current
  have hpick0 : ∀ r, PicksUp s p dest rcvDesc r →
      Poller .none s0 p r ∧ (s0.ipc r).myself = (s0.ipc p).partner := fun r hr => by
    rw [poller_congr hsame.ipc, hsame.ipc]
    exact ⟨hi.poller_of_picksUp hp hr, hpick r hr⟩
  have hmy : ∀ r, (s0.tcb r).myself = (s.tcb r).myself := fun r =>
    congrArg IpcPart.myself (congrFun hsame.ipc r)
  have hst : ∀ r, (s0.tcb r).threadState = (s.tcb r).threadState := fun r =>
    congrArg IpcPart.threadState (congrFun hsame.ipc r)
  have hpt : ∀ r, (s0.tcb r).partner = (s.tcb r).partner := fun r =>
    congrArg IpcPart.partner (congrFun hsame.ipc r)
  have hsq : (s0.tcb p).sendQueue = (s.tcb p).sendQueue :=
    congrArg IpcPart.sendQueue (congrFun hsame.ipc p)
  split
  · rename_i hopen
    split
    · split
      · refine ((((h0.upd (by intro _; exact ⟨rfl, rfl, .inl rfl⟩)).upd
          (by intro _; exact ⟨rfl, rfl, .inr (by simp)⟩)).enqueueReady p).switchTo _ (.inr ?_))
        exact .inr (.inr ⟨_, rfl⟩)
      · exact ((h0.upd (by intro _; exact ⟨rfl, rfl, .inl rfl⟩)).upd
          (by intro _; exact ⟨rfl, rfl, .inl rfl⟩)).returnIpcArgs _ _
    · rename_i hno
      refine h0.recvFrom (Inv.congr hsame hi) _ _ _ fun r hr h1 h2 => hpick0 r ⟨?_, ?_, ?_⟩
      · rw [if_pos hopen, ← hsq]
        exact ⟨hirq (not_not.mp hno), hr⟩
      · rw [← hst]; exact h1
      · rw [← hpt, ← hmy]; exact h2
  · rename_i hopen
    split
    · exact (h0.upd (by intro _; exact ⟨rfl, rfl, .inl rfl⟩)).handleKernelId dest
    · rename_i hk
      split
      · exact h0.returnIpc _
      · rename_i hd
        refine h0.recvFrom (Inv.congr hsame hi) _ _ _ fun r hr h1 h2 => hpick0 r ⟨?_, ?_, ?_⟩
        · obtain rfl : tidToTcb dest = r := by simpa using hr
          rw [if_neg hopen, ← hmy]
          exact ⟨rfl, hk, not_not.mp hd⟩
        · rw [← hst]; exact h1
        · rw [← hpt, ← hmy]; exact h2

/-- The transfer, to a receiver that waits or is of `E`. -/
lemma transferred (h : OthersLocked E p s) (hi : Inv .none s) (hc : Calls s p) (hq : Ready s p q)
    (hE : E q ∨ (s.ipc q).threadState = .waiting) (sndDesc dope : Word) :
    OthersLocked E p (transferred s p q sndDesc dope) ∧ Inv .none (transferred s p q sndDesc dope) ∧
      Existing (transferred s p q sndDesc dope) p ∧ Ready (transferred s p q sndDesc dope) p q := by
  obtain ⟨hi1, hc1, hq1⟩ := hi.transferMessage hc hq sndDesc dope
  obtain ⟨hi2, hc2, hq2⟩ := hi1.setPartner hc1 hq1 rfl
  have hrec := congrArg Tcb.toIpcPart (transferred_receiver (s := s) sndDesc dope hq.ne)
  obtain ⟨st, hsnd⟩ := transferred_sender (s := s) sndDesc dope hq.ne
  have hsnd := congrArg Tcb.toIpcPart hsnd
  have hoth : ∀ x, x ≠ p → x ≠ q → (Hazelnut.transferred s p q sndDesc dope).ipc x = s.ipc x :=
    fun x h1 h2 => congrArg Tcb.toIpcPart (transferred_other sndDesc dope h1 h2)
  change Inv .none (Hazelnut.transferred s p q sndDesc dope) at hi2
  change Calls (Hazelnut.transferred s p q sndDesc dope) p at hc2
  change Ready (Hazelnut.transferred s p q sndDesc dope) p q at hq2
  change (Hazelnut.transferred s p q sndDesc dope).ipc q = _ at hrec
  change (Hazelnut.transferred s p q sndDesc dope).ipc p = _ at hsnd
  generalize Hazelnut.transferred s p q sndDesc dope = s2 at hi2 hc2 hq2 hrec hsnd hoth ⊢
  refine ⟨⟨?_, hc2.cont, hc2.not_lockedWaiting hi2, hc2.current⟩, hi2, hc2.existing, hq2⟩
  have hfwd : ∀ x d, Sends s x d → Sends s2 x d := fun x d hx => by
    have h1 : x ≠ p := fun he => h.not_sends d (he ▸ hx)
    have h2 : x ≠ q := fun he => by
      have h3 := hx.state
      rw [he] at h3
      rcases hq.state with h4 | h4 <;> simp [h4] at h3
    refine ⟨⟨hx.existing.1, ?_⟩, ?_, ?_⟩ <;> rw [hoth x h1 h2]
    · exact hx.existing.2
    · exact hx.state
    · exact hx.cont
  refine h.locked.move (fun x => ?_) (fun t ht => ?_) (fun t x _ _ => hfwd x _)
    (fun t d _ => hfwd t d)
  · by_cases h1 : x = p
    · rw [h1, hsnd]; rfl
    · by_cases h2 : x = q
      · rw [h2, hrec]; rfl
      · rw [hoth x h1 h2]
  · by_cases h2 : t = q
    · have hw : (s2.ipc t).threadState = .waiting := by
        rw [h2, hrec]
        exact hE.resolve_left fun hE => ht (.inl (h2 ▸ hE))
      exact .inr (.of_state (by simp [hw]) (by simp [hw]))
    · refine .inl ⟨ht, ?_⟩
      rw [hoth t (fun he => ht (.inr he)) h2]
      exact SameLock.refl _

/-- The send phase, with what follows it. -/
lemma sendTransfer (h : OthersLocked E p s) (hi : Inv .none s) (hc : Calls s p) {dest : Tid}
    (hq : Ready s p (tidToTcb dest))
    (hE : E (tidToTcb dest) ∨ (s.ipc (tidToTcb dest)).threadState = .waiting)
    (sndDesc : Word) {rcvDesc : Word} (dope : Word)
    (hpick : rcvDesc ≠ noDesc → ∀ r, PicksUp s p dest rcvDesc r →
      (s.ipc r).myself = (s.ipc p).partner) :
    LockedBut E (sendTransfer s p dest sndDesc rcvDesc dope) := by
  obtain ⟨h2, hi2, hp2, hq2⟩ := h.transferred hi hc hq hE sndDesc dope
  have hrec := transferred_receiver (s := s) sndDesc dope hq.ne
  obtain ⟨st, hsnd⟩ := transferred_sender (s := s) sndDesc dope hq.ne
  have hoth : ∀ x, x ≠ p → x ≠ tidToTcb dest →
      (Hazelnut.transferred s p (tidToTcb dest) sndDesc dope).tcb x = s.tcb x :=
    fun x h1 h2 => transferred_other sndDesc dope h1 h2
  rw [show Hazelnut.sendTransfer s p dest sndDesc rcvDesc dope =
    if rcvDesc = noDesc then
      Hazelnut.switchTo (threadEnqueueReady
        ((Hazelnut.transferred s p (tidToTcb dest) sndDesc dope).upd p
        fun t => { t with threadState := .running }) p) (tidToTcb dest) .sendSwitch
    else Hazelnut.recvPhase (Hazelnut.transferred s p (tidToTcb dest) sndDesc dope) p
      (some (tidToTcb dest)) dest rcvDesc from rfl]
  generalize Hazelnut.transferred s p (tidToTcb dest) sndDesc dope =
    s2 at h2 hi2 hp2 hq2 hrec hsnd hoth ⊢
  split
  · exact ((h2.upd (by intro _; exact ⟨rfl, rfl, .inr (by simp)⟩)).enqueueReady p).switchTo _
      (.inr (.inr (.inl rfl)))
  · rename_i hrd
    refine h2.recvPhase hi2 hp2 _ fun r hr => ?_
    have hpoll := hi2.poller_of_picksUp hp2 hr
    have hrp : r ≠ p := fun he =>
      (hi2.polling r hpoll.existing hpoll.polling (not_limbo_none _ r)).1
      (he.trans h2.current.symm)
    have hrq : r ≠ tidToTcb dest := fun he => hq2.not_polling (he ▸ hpoll.polling)
    have h3 : PicksUp s p dest rcvDesc r := by
      unfold PicksUp IrqPending at hr ⊢
      rw [hsnd, hoth r hrp hrq] at hr
      exact hr
    have h4 := hpick hrd r h3
    rw [show s2.ipc r = s.ipc r from congrArg Tcb.toIpcPart (hoth r hrp hrq),
      show s2.ipc p = _ from congrArg Tcb.toIpcPart hsnd]
    exact h4

lemma sendPoll (h : OthersLocked E p s) (dest : Tid) (sndDesc rcvDesc : Word) :
    LockedBut E (sendPoll s p dest sndDesc rcvDesc) := by
  have hpoll : ∀ {s1 : Sys}, OthersLocked E p s1 → LockedBut E (Hazelnut.switchTo
      ((threadEnqueueSend s1 (tidToTcb dest) p).upd p fun t => { t with threadState := .polling })
      .idle
      (.sendPoll dest sndDesc rcvDesc)) := fun h1 => by
    refine ((h1.ctl (sameCtl_enqueueSend _ _ _)).upd
      (by intro _; exact ⟨rfl, rfl, .inr (by simp)⟩)).switchTo _ (.inl ?_)
    rw [Sys.upd_ipc, if_pos rfl]
    simp
  unfold Hazelnut.sendPoll
  dsimp only
  split
  · exact h.returnIpc _
  · split
    · exact hpoll h
    · split
      · exact h.returnIpc _
      · exact hpoll ((h.upd (by intro _; exact ⟨rfl, rfl, .inl rfl⟩)).enqueueWakeup p)

end OthersLocked

/-- Whom the receive phase picks does not depend on other fields of the caller. -/
lemma PicksUp.of_upd {dest : Tid} {rcvDesc : Word} {f : Tcb → Tcb}
    (h : PicksUp (s.upd p f) p dest rcvDesc r)
    (hr : r ≠ p) (hf : ∀ t, (f t).intrPending = t.intrPending ∧ (f t).sendQueue = t.sendQueue ∧
      (f t).myself = t.myself) : PicksUp s p dest rcvDesc r := by
  obtain ⟨h1, h2, h3⟩ := hf (s.tcb p)
  unfold PicksUp IrqPending at h ⊢
  rw [Sys.upd_tcb_self, Sys.upd_tcb_other _ hr, h1, h2, h3] at h
  exact h

/-- The receive phase of the step, if it comes to one, picks no other sender than the partner that
the thread has recorded. -/
def PickOk (s : Sys) : Event → Prop
  | .ipc dest sndDesc rcvDesc timeout w0 w1 w2 dope _ =>
      (sndDesc = noDesc → ∀ r, PicksUp s s.current dest rcvDesc r →
        (s.tcb r).myself = (s.tcb s.current).partner) ∧
      ((∃ q, Delivers s q (w0, w1, w2) (.ipc dest sndDesc rcvDesc timeout w0 w1 w2 dope)) →
        rcvDesc ≠ noDesc → ∀ r, PicksUp s s.current dest rcvDesc r → (s.tcb r).myself = dest)
  | .resume _ _ => ∀ dest sndDesc rcvDesc, (s.tcb s.current).cont = .sendPoll dest sndDesc rcvDesc →
      (s.tcb s.current).threadState ≠ .running → rcvDesc ≠ noDesc →
        ∀ r, PicksUp s s.current dest rcvDesc r → (s.tcb r).myself = dest
  | _ => True

lemma Calls.picked_ne (hc : Calls s p) (hi : Inv .none s) {dest : Tid} {rcvDesc : Word}
    (h : PicksUp s p dest rcvDesc r) : r ≠ p := fun he =>
  hc.not_polling hi (he ▸ (hi.poller_of_picksUp hc.existing h).polling)

/-- The system call. -/
lemma LockedBut.sysIpc (h : LockedBut (· = p) s) (hi : Inv .none s) (hc : Calls s p) (dest : Tid)
    (sndDesc rcvDesc dope : Word)
    (hrecv : sndDesc = noDesc → ∀ r, PicksUp s p dest rcvDesc r →
      (s.tcb r).myself = (s.tcb p).partner)
    (hsend : sndDesc ≠ noDesc → (s.tcb (tidToTcb dest)).myself = dest →
      isWaiting (s.tcb (tidToTcb dest)).threadState →
      ((s.tcb (tidToTcb dest)).partner = (s.tcb p).myself ∨
        (s.tcb (tidToTcb dest)).partner = nilId) → rcvDesc ≠ noDesc →
      ∀ r, PicksUp s p dest rcvDesc r → (s.tcb r).myself = dest) :
    LockedBut (fun _ => False) (sysIpc s p dest sndDesc rcvDesc dope) := by
  have h0 : OthersLocked (fun _ => False) p s :=
    ⟨h.mono fun _ h => .inr h, hc.cont, hc.not_lockedWaiting hi, hc.current⟩
  unfold Hazelnut.sysIpc
  dsimp only
  split
  · rename_i hs
    exact h0.recvPhase hi hc.existing _ (hrecv hs)
  · rename_i hs
    split
    · rename_i hd
      have h1 : OthersLocked (fun _ => False) p (s.upd p fun t => { t with partner := dest }) :=
        h0.upd (by intro _; exact ⟨rfl, rfl, .inl rfl⟩)
      obtain ⟨hi1, hc1⟩ := hi.setDest hc dest
      have hpick : ∀ r, PicksUp (s.upd p fun t => { t with partner := dest }) p dest rcvDesc r →
          r ≠ p ∧ PicksUp s p dest rcvDesc r := fun r hr => by
        have hne := hc1.picked_ne hi1 hr
        exact ⟨hne, hr.of_upd hne (by intro _; exact ⟨rfl, rfl, rfl⟩)⟩
      have hoth : ∀ r, r ≠ p → (s.upd p fun t => { t with partner := dest }).tcb r = s.tcb r :=
        fun r hr => Sys.upd_tcb_other _ hr _
      have hself : (s.upd p fun t => { t with partner := dest }).tcb p =
          { s.tcb p with partner := dest } :=
        Sys.upd_tcb_self _ _ _
      generalize s.upd p (fun t => { t with partner := dest }) = s1 at h1 hi1 hc1 hpick hoth hself ⊢
      split
      · exact h1.sendPoll _ _ _
      · rename_i hcond
        obtain ⟨hw, hpart⟩ := not_or.mp hcond
        have hw' : (s1.ipc (tidToTcb dest)).threadState = .waiting :=
          (isWaiting_iff _).mp (not_not.mp hw)
        have hne : tidToTcb dest ≠ p := fun he => hc1.not_waiting hi1 (he ▸ hw')
        have hd1 : (s1.ipc (tidToTcb dest)).myself = dest := by
          have h2 := congrArg (fun t : Tcb => t.myself) (hoth _ hne)
          exact h2.trans hd
        obtain ⟨hq, hqn⟩ := hi1.existing_of_myself hd1
        refine h1.sendTransfer hi1 hc1 ⟨hq, hqn, hne, .inl hw', fun x => ?_⟩ (.inr hw') _ _
          fun hrd r hr => ?_
        · exact hi1.not_sends_of_state hq hqn (by simp [hw'])
        · obtain ⟨hrp, hr0⟩ := hpick r hr
          rw [hoth _ hne] at hw
          rw [hoth _ hne, hself] at hpart
          have h2 := hsend hs hd (not_not.mp hw) (by
            by_cases hm : (s.tcb (tidToTcb dest)).partner = (s.tcb p).myself
            · exact .inl hm
            · exact .inr (not_not.mp fun hn => hpart ⟨hm, hn⟩)) hrd r hr0
          have h3 := congrArg (fun t : Tcb => t.myself) (hoth r hrp)
          have h4 := congrArg (fun t : Tcb => t.partner) hself
          exact (h3.trans h2).trans h4.symm
    · exact h0.returnIpc _

/-- Going on. -/
lemma LockedBut.resume (h : LockedBut (· = p) s) (hi : Inv .none s) (hr : Resumes s p)
    (hk : (s.ipc p).cont ≠ .user) (dope : Word)
    (hpick : ∀ dest sndDesc rcvDesc, (s.tcb p).cont = .sendPoll dest sndDesc rcvDesc →
      (s.tcb p).threadState ≠ .running → rcvDesc ≠ noDesc →
        ∀ r, PicksUp s p dest rcvDesc r → (s.tcb r).myself = dest) :
    LockedBut (fun x => ∃ d, Sends s p d ∧ x = tidToTcb d) (resume s p dope) := by
  obtain ⟨E, hE⟩ : ∃ E : TcbPtr → Prop, E = fun x => ∃ d, Sends s p d ∧ x = tidToTcb d := ⟨_, rfl⟩
  rw [← hE]
  -- the thread no longer sends to those of `E`
  have hu : LockedBut (fun x => E x ∨ x = p) (s.upd p fun t => { t with cont := .user }) := by
    have hipc : ∀ x, x ≠ p → (s.upd p fun t => { t with cont := .user }).ipc x = s.ipc x :=
      fun x hx => by
      rw [Sys.upd_ipc, if_neg hx]
    have hfwd : ∀ x d, x ≠ p → Sends s x d →
        Sends (s.upd p fun t => { t with cont := .user }) x d :=
      fun x d hxp hx => by
        refine ⟨⟨hx.existing.1, ?_⟩, ?_, ?_⟩ <;> rw [hipc x hxp]
        · exact hx.existing.2
        · exact hx.state
        · exact hx.cont
    refine h.move (fun x => ?_) (fun t ht => ?_) (fun t x ht hte hx => ?_) (fun t d ht hx => ?_)
    · by_cases hx : x = p
      · rw [hx, Sys.upd_ipc, if_pos rfl]; rfl
      · rw [hipc x hx]
    · have htp : t ≠ p := fun he => ht (.inr he)
      exact .inl ⟨htp, by rw [hipc t htp]; exact SameLock.refl _⟩
    · refine hfwd x _ (fun he => ht (.inl ?_)) hx
      rw [he] at hx
      obtain ⟨-, h2, h3, -, -⟩ := hi.locked p _ hx
      rw [hE]
      exact ⟨_, hx, (hi.myself_inj h2 hte (hi.existing_of_myself h3).2 h3).symm⟩
    · exact hfwd t d (fun he => ht (.inr he)) hx
  have hcont : ((s.upd p fun t => { t with cont := .user }).ipc p).cont = .user := by
    rw [Sys.upd_ipc, if_pos rfl]
  have hset : ∀ s1 : Sys, s1.ipc = (s.upd p fun t => { t with cont := .user }).ipc →
    s1.current = p →
      OthersLocked E p (s1.upd p fun t => { t with threadState := .running }) := fun s1 h1 hc1 => by
    refine ⟨(hu.same h1).updOne (fun t ht => .inl ht) (by intro _; rfl) (fun d hd => ?_)
      (fun hn => absurd (.inr rfl) hn), ?_, ?_, hc1⟩
    · obtain ⟨_, _, hc⟩ := hd.cont
      rw [h1, hcont] at hc
      simp at hc
    · rw [Sys.upd_ipc, if_pos rfl]
      show (_ : IpcPart).cont = _
      rw [Sys.toIpcPart_tcb, h1]
      exact hcont
    · rw [Sys.upd_ipc, if_pos rfl]
      simp
  have hplain : (s.ipc p).threadState ≠ .lockedWaiting →
      OthersLocked E p (s.upd p fun t => { t with cont := .user }) := fun hst =>
    ⟨hu, hcont, by rw [Sys.upd_ipc, if_pos rfl]; exact hst, hr.current⟩
  have hstate : (s.ipc p).cont ≠ .recvReady → (s.ipc p).threadState ≠ .lockedWaiting :=
      fun hc hst =>
    hc (hi.lockedWaiting p hr.existing hst)
  unfold Hazelnut.resume
  dsimp only
  split
  · rename_i hc
    exact absurd hc hk
  · rename_i hc
    exact (hplain (hstate (by rw [show (s.ipc p).cont = _ from hc]; simp))).returnIpc _
  · rename_i i hc
    exact ((hplain (hstate (by rw [show (s.ipc p).cont = _ from hc]; simp))).upd
      (by intro _; exact ⟨rfl, rfl, .inl rfl⟩)).returnIpcArgs _ _
  · rename_i hc
    split
    · exact (hplain (hstate (by rw [show (s.ipc p).cont = _ from hc]; simp))).returnIpc _
    · exact (hset (threadDequeueWakeup (s.upd p fun t => { t with cont := .user }) p) rfl
        hr.current).returnIpcArgs _ _
  · exact (hset _ rfl hr.current).returnIpcArgs _ _
  · rename_i d hc
    split
    · exact (hplain (hstate (by rw [show (s.ipc p).cont = _ from hc]; simp))).returnIpcArgs _ _
    · exact (hset (threadDequeueWakeup (s.upd p fun t => { t with cont := .user }) p) rfl
        hr.current).returnIpcArgs _ _
  · rename_i dest sndDesc rcvDesc hc
    have hnl := hstate (by rw [show (s.ipc p).cont = _ from hc]; simp)
    split
    · exact (hplain hnl).returnIpc _
    · rename_i hst
      obtain ⟨hi1, hc1, hq⟩ := hi.resume_ready hr hc hst
      have h1 : OthersLocked E p
          (threadDequeueWakeup (s.upd p fun t => { t with cont := .user }) p) :=
        (hplain hnl).same rfl rfl
      have hsends : Sends s p dest := by
        refine ⟨hr.existing, ?_, sndDesc, rcvDesc, hc⟩
        rcases hi.sendPoll p dest sndDesc rcvDesc hr.existing hc with h2 | h2 | h2
        · exact absurd hr.current.symm (hi.polling p hr.existing h2 (not_limbo_none s p)).1
        · exact h2
        · exact absurd h2 hst
      refine h1.sendTransfer hi1 hc1 hq (.inl (by rw [hE]; exact ⟨dest, hsends, rfl⟩)) _ _ fun hrd r
        hpr => ?_
      have hne := hc1.picked_ne hi1 hpr
      have h2 := hpick dest sndDesc rcvDesc hc hst hrd r
        ((show PicksUp (s.upd p fun t => { t with cont := .user }) p dest rcvDesc r from
        hpr).of_upd hne
          (by intro _; exact ⟨rfl, rfl, rfl⟩))
      rw [ipc_dequeueWakeup, Sys.upd_ipc, if_neg hne, Sys.upd_ipc, if_pos rfl]
      exact h2.trans (hi.locked p dest hsends).1.symm

/-! ### Interrupts and the scheduler -/

/-- A thread in user mode is not locked in the kernel. -/
lemma LockedBut.all (h : LockedBut (· = s.current) s) (hi : Inv .none s) (hint : interruptible s) :
    LockedBut (fun _ => False) s := fun t _ ht => by
  by_cases hc : t = s.current
  · have hu : (s.ipc t).cont = .user := hc ▸ hint
    refine ⟨fun hst => ?_, fun _ hk => absurd (.inl hu) hk⟩
    have h1 := hi.lockedWaiting t ht hst
    rw [hu] at h1
    simp at h1
  · exact h t hc ht

lemma ipc_switchUser (hint : interruptible s) (r : TcbPtr) : (switchTo s r .user).ipc = s.ipc :=
  funext fun q => by
    rw [switchTo_ipc]
    split
    · rename_i hq
      have hcont : (s.ipc q).cont = .user := hq ▸ hint
      rw [← hcont]
    · rfl

/-- Switching between threads in user mode is invisible to the rendezvous. -/
lemma ipc_dispatch (hint : interruptible s) (r : TcbPtr) : (dispatchThread s r).ipc = s.ipc := by
  unfold dispatchThread
  dsimp only
  split
  · rfl
  · split
    · exact ipc_switchUser hint _
    · split
      · exact ipc_switchUser (s := { s with
          prioQueue := Function.update s.prioQueue (s.tcb r).priority (some r) }) hint r
      · exact ipc_switchUser hint r

lemma ipc_reschedule (hint : interruptible s)
    (hf : ((findNextThread s).map fun r => dispatchThread r.1 r.2) = some s') : s'.ipc = s.ipc := by
  obtain ⟨⟨s1, q⟩, h1, rfl⟩ := Option.map_eq_some_iff.mp hf
  have hs := (findNextThread_spec h1).1
  rw [← hs.ipc]
  refine ipc_dispatch ?_ q
  unfold interruptible
  rw [hs.current, hs.ipc]
  exact hint

namespace LockedBut

/-- A thread that does not send is set running. -/
lemma setRunning (h : LockedBut B s) (hs : ∀ d, ¬Sends s q d) :
    LockedBut B (s.upd q fun t => { t with threadState := .running }) :=
  h.updOne (fun t ht => .inl ht) (by intro _; rfl) hs fun _ =>
    .inr (.of_state (by rw [Sys.upd_ipc, if_pos rfl]; simp) (by rw [Sys.upd_ipc, if_pos rfl]; simp))

/-- The loop over the wakeup queue meets no thread that sends. -/
lemma parseWakeup (now : BitVec 64) (l : List TcbPtr) (prio : Nat) (highest : Option TcbPtr)
    (h : LockedBut B s) (hl : ∀ q ∈ l, ∀ d, ¬Sends s q d) (hint : interruptible s) :
    LockedBut B (parseWakeup now l prio highest s).1 ∧
      interruptible (parseWakeup now l prio highest s).1 := by
  induction l generalizing s prio highest with
  | nil => exact ⟨h, hint⟩
  | cons q l ih =>
      rw [Hazelnut.parseWakeup]
      split
      · have h1 : LockedBut B (wakeUp s q) := by
          have h2 : LockedBut B (threadDequeueWakeup s q) := h.same rfl
          exact (h2.setRunning fun d hd => hl q List.mem_cons_self d
            ⟨hd.existing, hd.state, hd.cont⟩).same
            (sameIpc_enqueueReady _ q).ipc
        refine ih _ _ h1 (fun r hr d hd => ?_) ?_
        · by_cases hrq : r = q
          · have h2 := hd.state
            rw [wakeUp_ipc, if_pos hrq] at h2
            simp at h2
          · refine hl r (List.mem_cons_of_mem q hr) d ⟨⟨hd.existing.1, ?_⟩, ?_, ?_⟩
            · have h2 := hd.existing.2
              rwa [wakeUp_ipc, if_neg hrq] at h2
            · have h2 := hd.state
              rwa [wakeUp_ipc, if_neg hrq] at h2
            · have h2 := hd.cont
              rwa [wakeUp_ipc, if_neg hrq] at h2
        · unfold interruptible
          rw [wakeUp_current, wakeUp_cont]
          exact hint
      · exact ih _ _ h (fun r hr => hl r (List.mem_cons_of_mem q hr)) hint

lemma timer (h : LockedBut B s) (hi : Inv .none s) (hint : interruptible s)
    (ht : handleTimerInterrupt s = some s') : LockedBut B s' := by
  obtain ⟨now, s1, wake, s3, hrun, ⟨h3, -⟩, hcases⟩ := timer_cases ht
  have h0 : LockedBut B { s with clock := now } := h.same rfl
  have h1 := LockedBut.parseWakeup now s.wakeup (s.tcb s.current).priority none h0
    (fun q hq d hd => by
      have hst := hd.state
      obtain ⟨_, _, hc⟩ := hd.cont
      rcases (hi.wakeup q hq).2 with ⟨h1, -⟩ | ⟨h1 | ⟨_, h1⟩, -⟩
      · exact absurd (h1.symm.trans hst) (by simp)
      · exact absurd (h1.symm.trans hc) (by simp)
      · exact absurd (h1.symm.trans hc) (by simp)) hint
  rw [hrun] at h1
  have h4 := h1.1.same h3.ipc
  have hint3 : interruptible s3 := by
    unfold interruptible
    rw [h3.current, h3.ipc]
    exact h1.2
  rcases hcases with ⟨p, -, rfl⟩ | hres | rfl
  · exact h4.same (ipc_dispatch hint3 p)
  · exact h4.same (ipc_reschedule hint3 hres)
  · exact h4

/-- An interrupt, whose id is one of the kernel. -/
lemma irq (h : LockedBut B s) (hint : interruptible s) {number : Nat}
    (hk : ∀ p, s.interruptOwner number = some p → isKernelId (BitVec.ofNat 32 (number + 1))) :
    LockedBut B (handleInterrupt s number) := by
  unfold handleInterrupt
  split
  · exact h
  · rename_i p hp
    dsimp only
    have hk := hk p hp
    generalize BitVec.ofNat 32 (number + 1) = i at hk ⊢
    split
    · rename_i hw
      have hst : (s.ipc p).threadState = .waiting := (isWaiting_iff _).mp hw.1
      have h1 : SameIpc s (s.upd p fun t => { t with intrPending := i ||| irqInService }) :=
        (SameIpc.refl s).upd p (by intro _; rfl)
      generalize s.upd p (fun t => { t with intrPending := i ||| irqInService }) = s1 at h1 ⊢
      split
      · refine LockedBut.same (updOne (h.same h1.ipc) (fun t ht => .inl ht) (by intro _; rfl)
          (fun d hd => ?_) fun _ => .inr ⟨fun h2 => ?_, fun _ _ => .inl ?_⟩)
          (sameIpc_enqueueReady _ p).ipc
        · have h2 := hd.state
          rw [h1.ipc, hst] at h2
          simp at h2
        · rw [Sys.upd_ipc, if_pos rfl] at h2
          simp at h2
        · rw [Sys.upd_ipc, if_pos rfl]
          show isKernelId (s1.ipc p).partner
          rw [h1.ipc]
          rcases hw.2 with h2 | h2
          · exact (show (s.ipc p).partner = i from h2) ▸ hk
          · rw [show (s.ipc p).partner = nilId from h2]
            decide
      · have h2 : SameIpc s (if s.current = .idle then s1
            else threadEnqueueReady s1 s.current) := by
          split
          · exact h1
          · exact h1.trans (sameIpc_enqueueReady s1 _)
        generalize (if s.current = .idle then s1 else threadEnqueueReady s1 s.current) = s2 at h2 ⊢
        refine (h.same h2.ipc).same (ipc_switchUser ?_ p)
        unfold interruptible
        rw [h2.current, h2.ipc]
        exact hint
    · exact h.same ((SameIpc.refl s).upd p (by intro _; rfl)).ipc

end LockedBut

/-! ### Cancelling and deleting -/

/-- Unwinding leaves the locks of the others alone. -/
lemma LockedBut.calmer {d : Deletion} (h : LockedBut B s) (hi : Inv d s) (hc : Calmer d s s') :
    LockedBut B s' := by
  intro t ht hte
  have hte0 := (hc.existing_iff t).mp hte
  obtain ⟨hw, hr⟩ := h t ht hte0
  refine ⟨fun hst => ?_, fun hst hk => ?_⟩
  · have hst0 := (hc.locked t (.inl hst)).trans hst
    have htn : t ≠ nilTcb := fun he => by rw [he, hi.nil_state] at hst0; simp at hst0
    obtain ⟨q, hq1, hq2⟩ := hw hst0
    refine ⟨q, ?_, ?_⟩
    · rw [hc.myself]
      exact hc.sends t q hte0 htn hq1 (.inl hst)
    · rw [hc.partner, hc.myself]
      exact hq2
  · have hst0 := (hc.locked t (.inr hst)).trans hst
    have hcont := (hc.cont t).resolve_right fun hu => hk (.inl hu)
    rw [hc.partner]
    refine (hr hst0 (hcont ▸ hk)).imp id fun hs => ?_
    obtain ⟨-, h1, h2, -, -⟩ := hi.locked t _ hs
    have hs' := hc.sends _ t h1 (hi.existing_of_myself h2).2 (h2.symm ▸ hs) (.inr hst)
    rwa [h2] at hs'

/-- The deletion of one thread of a task being deleted. -/
lemma Deletable.locked {D R : TcbPtr → Prop} (h : Deletable D R s p) (hl : LockedBut B s)
    (hf : Hazelnut.freeThread s p = some s') : LockedBut B (freeTcb s' p) := by
  obtain ⟨s2, hrun, -, hcalm, hstate, -⟩ := h.calmer
  rw [hf, Option.some.injEq] at hrun
  subst hrun
  have h2 := (hl.calmer h.inv hcalm).same (sameIpc_dequeueReady s2 p).ipc
  have hst : ((threadDequeueReady s2 p).ipc p).threadState ≠ .lockedRunning := by
    rw [(sameIpc_dequeueReady s2 p).ipc]; exact hstate.2
  generalize threadDequeueReady s2 p = s3 at h2 hst
  have hoth : ∀ x, x ≠ p → (freeTcb s3 p).ipc x = s3.ipc x := fun x hx => by
    rw [freeTcb_ipc, if_neg hx]
  have hfwd : ∀ x d, Sends s3 x d → Sends (freeTcb s3 p) x d := fun x d hx => by
    have hne : x ≠ p := fun he => hst (he ▸ hx.state)
    refine ⟨⟨hx.existing.1, ?_⟩, ?_, ?_⟩ <;> rw [hoth x hne]
    · exact hx.existing.2
    · exact hx.state
    · exact hx.cont
  intro t ht hte
  have htp : t ≠ p := fun he => hte.2 (by rw [he, freeTcb_ipc, if_pos rfl])
  obtain ⟨hw, hr⟩ := h2 t ht ⟨hte.1, by rw [← hoth t htp]; exact hte.2⟩
  refine ⟨fun hs => ?_, fun hs hk => ?_⟩
  · rw [hoth t htp] at hs
    obtain ⟨q, hq1, hq2⟩ := hw hs
    have hqp : q ≠ p := fun he => hst (he ▸ hq1.state)
    exact ⟨q, by rw [hoth t htp]; exact hfwd q _ hq1, by rw [hoth t htp, hoth q hqp]; exact hq2⟩
  · rw [hoth t htp] at hs hk ⊢
    exact (hr hs hk).imp id fun h => hfwd t _ h

namespace LockedBut

/-- A new thread is locked with nobody. -/
lemma create (h : LockedBut B s) (tid : Tid) (space : Option Nat)
    (hnew : ¬Existing s (tidToTcb tid))
    (uip usp : Word) (pager : Tid) (prio : Nat) :
    LockedBut B (startThread (createTcb s tid space) (tidToTcb tid) uip usp pager prio) := by
  have hipc := startThread_ipc s tid space uip usp pager prio
  generalize startThread (createTcb s tid space) (tidToTcb tid) uip usp pager prio = s' at hipc ⊢
  have hoth : ∀ x, x ≠ tidToTcb tid → s'.ipc x = s.ipc x := fun x hx => by rw [hipc, if_neg hx]
  have hfwd : ∀ x d, Sends s x d → Sends s' x d := fun x d hx => by
    have hne : x ≠ tidToTcb tid := fun he => hnew (he ▸ hx.existing)
    refine ⟨⟨hx.existing.1, ?_⟩, ?_, ?_⟩ <;> rw [hoth x hne]
    · exact hx.existing.2
    · exact hx.state
    · exact hx.cont
  intro t ht hte
  by_cases htn : t = tidToTcb tid
  · have hst : (s'.ipc t).threadState = .running := by rw [hipc, if_pos htn]
    exact .of_state (by simp [hst]) (by simp [hst])
  · rw [Existing, hoth t htn] at hte
    obtain ⟨hw, hr⟩ := h t ht hte
    refine ⟨fun hs => ?_, fun hs hk => ?_⟩
    · rw [hoth t htn] at hs
      obtain ⟨q, hq1, hq2⟩ := hw hs
      have hqn : q ≠ tidToTcb tid := fun he => hnew (he ▸ hq1.existing)
      exact ⟨q, by rw [hoth t htn]; exact hfwd q _ hq1, by rw [hoth t htn, hoth q hqn]; exact hq2⟩
    · rw [hoth t htn] at hs hk ⊢
      exact (hr hs hk).imp id fun h => hfwd t _ h

end LockedBut

/-- `sys_lthread_ex_regs`. -/
lemma LockedBut.exRegs (h : LockedBut (fun _ => False) s) (hi : Inv .none s) (hu : inUser s)
    {threadno uip usp : Word} {pager : Tid} (hok : ExRegsOk s threadno uip usp)
    (hs : sysLthreadExRegs s threadno uip usp pager = some s') : LockedBut (fun _ => False) s' := by
  have hc := hi.calls hu
  have hid := hi.ident _ hc.existing hc.ne_nil
  unfold sysLthreadExRegs at hs
  unfold ExRegsOk at hok
  dsimp only at hs hok
  have htask := tidTask_setThread (s.tcb s.current).myself threadno
  have hne : setThread (s.tcb s.current).myself threadno ≠ (s.tcb s.current).myself →
      tidToTcb (setThread (s.tcb s.current).myself threadno) ≠ s.current := fun h1 h2 =>
    h1 (setThread_eq_self (h2.trans hid.1.symm))
  generalize setThread (s.tcb s.current).myself threadno = tid at hs hok htask hne
  split at hs
  · rename_i hcond
    have hok := hok hcond.1 hcond.2
    split at hs
    · rename_i hex
      rw [if_pos hex] at hok
      have hpe : Existing s (tidToTcb tid) := ⟨by simp [tidToTcb], hex⟩
      have hpn : tidToTcb tid ≠ nilTcb := fun hn => hid.2.1 (by
        unfold isKernelId
        rw [← Sys.toIpcPart_tcb, ← htask,
          tidTask_eq_of_tidToTcb (show tidToTcb tid = tidToTcb nilId from hn)]
        decide)
      obtain ⟨s1, hrun, hi1, -, hunw⟩ := hi.unwound hpe hpn (hne hcond.2) hok
      rw [hrun, Option.map_some, Option.some.injEq] at hs
      have h1 := h.calmer hi1 hunw.toCalmer
      exact hs ▸ (h1.setRunning fun d hd => hunw.state.2 hd.state).same
        (sameIpc_exchangeRegs _ _ _ _ _).ipc
    · rename_i hex
      rw [Option.some.injEq] at hs
      exact hs ▸ h.create tid _ (fun he => hex he.2) _ _ _ _
  · rw [Option.some.injEq] at hs
    exact hs ▸ h.same (sameIpc_exchangeRegs _ _ _ _ _).ipc

/-- `sys_task_new`. -/
lemma LockedBut.taskNew (h : LockedBut (fun _ => False) s) (hi : Inv .none s) {task pager : Tid}
    {uip usp : Word} (hok : TaskNewOk s task) (hs : sysTaskNew s task pager uip usp = some s') :
    LockedBut (fun _ => False) s' := by
  unfold sysTaskNew at hs
  unfold TaskNewOk at hok
  dsimp only at hs
  generalize setThread task 0 = task at hs hok
  split at hs
  · simp at hs
  · rename_i hk
    split at hs
    · rw [Option.some.injEq] at hs
      exact hs ▸ h
    · rename_i hne
      obtain ⟨s1, h1, rfl⟩ := Option.map_eq_some_iff.mp hs
      have h2 : LockedBut (fun _ => False) s1 ∧ ¬Existing s1 (tidToTcb task) := by
        split at h1
        · rename_i hex
          have hp : Existing s (tidToTcb task) := ⟨by simp [tidToTcb], hex⟩
          have hpn : tidToTcb task ≠ nilTcb := fun he => hk (tidTask_eq_of_tidToTcb he)
          have hcur : s.current ≠ .idle →
              tidTask (s.ipc s.current).myself ≠ tidTask (s.ipc (tidToTcb task)).myself :=
              fun _ he =>
            hne (by
              rw [Sys.toIpcPart_tcb, he]
              exact tidTask_eq_of_tidToTcb (hi.ident _ hp hpn).1)
          obtain ⟨s1', hrun, -, hex1, -⟩ := hi.deleteTask hp hpn hcur (hok hex)
          rw [show Hazelnut.deleteThreads (s.ipc (tidToTcb task)).space s.present s =
            some s1 from h1,
            Option.some.injEq] at hrun
          subst hrun
          exact ⟨(hi.deletion hp hpn hcur (hok hex)).invariant
            (fun hd hl h1 => hd.locked hl h1) h h1,
            fun he => ((hex1 _).mp he).2 ⟨hp, rfl⟩⟩
        · rename_i hex
          rw [Option.some.injEq] at h1
          exact h1 ▸ ⟨h, fun he => hex he.2⟩
      split
      · exact h2.1
      · exact h2.1.create task none h2.2 _ _ _ _

/-! ### Runs -/

/-- The interrupts that threads own have ids of the kernel. -/
def OwnersKernel (s : Sys) : Prop :=
  ∀ n q, s.interruptOwner n = some q → isKernelId (BitVec.ofNat 32 (n + 1))

lemma ofNat_interruptId {dest : Tid} (h : isInterruptId dest) :
    BitVec.ofNat 32 (interruptId dest + 1) = dest := by
  have h1 : interruptId dest + 1 = dest.toNat := by
    have hpos : 0 < dest.toNat := by
      rcases Nat.eq_zero_or_pos dest.toNat with h0 | h0
      · exact absurd (BitVec.eq_of_toNat_eq (by simpa using h0)) h
      · exact h0
    unfold interruptId
    rw [BitVec.toNat_sub_of_le (by rw [BitVec.le_def]; exact hpos)]
    have h2 : (1 : BitVec 32).toNat = 1 := rfl
    omega
  rw [h1, BitVec.ofNat_toNat, BitVec.setWidth_eq]

lemma Attaches.isKernelId {dest : Tid} {e : Event} (h : Attaches s dest e) : isKernelId dest := by
  cases e with
  | ipc => exact h.1 ▸ h.2.2.2.1
  | resume =>
      obtain ⟨_, _, _, _, h1, -⟩ := h
      exact h1
  | exRegs | taskNew | threadSwitch | schedule | timer | irq | idle => exact absurd h (fun h => h)

lemma OwnersKernel.step (ho : OwnersKernel s) {e : Event} (h : step s e = some s') :
    OwnersKernel s' := by
  obtain ⟨h1, -⟩ := owner_step h
  intro n q hn
  by_cases hq : q = s.current
  · rw [hq] at hn
    rcases h1.current hn with h2 | ⟨dest, hd, hirq, rfl⟩
    · exact ho n _ (h2 ▸ hn)
    · rw [ofNat_interruptId hirq]
      exact hd.isKernelId
  · exact ho n q ((h1.others hq).mp hn)

/-- A step without a wrong turn, that picks no other sender than the recorded partner. -/
def PairOk (s : Sys) (e : Event) : Prop := OnceOk s e ∧ PickOk s e

/-- The system call `ipc` keeps the partners of locked threads right. -/
lemma LockedBut.ipc (h : LockedBut (· = s.current) s) (hi : Inv .none s) (hu : inUser s)
    {dest : Tid} {sndDesc rcvDesc : Word} {timeout : Timeout} {w0 w1 w2 dope : Word} {faults : Bool}
    (hok : PickOk s (.ipc dest sndDesc rcvDesc timeout w0 w1 w2 dope faults)) :
    LockedBut (fun _ => False)
      (Hazelnut.sysIpc (storeRegs s s.current timeout w0 w1 w2) s.current dest sndDesc rcvDesc
        dope) := by
  have hc := hi.calls hu
  have h1 : SameIpc s (storeRegs s s.current timeout w0 w1 w2) :=
    (SameIpc.refl s).upd _ (by intro _; rfl)
  have hi1 := Inv.congr h1 hi
  have hc1 := hc.congr h1
  have hpick : ∀ r, PicksUp (storeRegs s s.current timeout w0 w1 w2) s.current dest rcvDesc r →
      PicksUp s s.current dest rcvDesc r := fun r hr =>
    hr.of_upd (hc1.picked_ne hi1 hr) (by intro _; exact ⟨rfl, rfl, rfl⟩)
  have hmy : ∀ r, ((storeRegs s s.current timeout w0 w1 w2).tcb r).myself = (s.tcb r).myself :=
    fun r => congrArg IpcPart.myself (congrFun h1.ipc r)
  have hst : ∀ r, ((storeRegs s s.current timeout w0 w1 w2).tcb r).threadState =
      (s.tcb r).threadState := fun r => congrArg IpcPart.threadState (congrFun h1.ipc r)
  have hpt : ∀ r, ((storeRegs s s.current timeout w0 w1 w2).tcb r).partner = (s.tcb r).partner :=
    fun r => congrArg IpcPart.partner (congrFun h1.ipc r)
  refine (h.same h1.ipc).sysIpc hi1 hc1 _ _ _ _ (fun hsd r hr => ?_)
    (fun hsd hd hw hpart hrd r hr => ?_)
  · rw [hmy, hpt]
    exact hok.1 hsd r (hpick r hr)
  · rw [hmy] at hd ⊢
    rw [hst] at hw
    rw [hpt, hmy] at hpart
    exact hok.2 ⟨_, hsd, rfl, rfl, hd, hw, hpart⟩ hrd r (hpick r hr)

lemma LockedBut.threadSwitch (h : LockedBut (fun _ => False) s) (hint : interruptible s) {tid : Tid}
    (hs : sysThreadSwitch s tid = some s') : LockedBut (fun _ => False) s' := by
  have h1 := sameIpc_enqueueReady s s.current
  have h2 := h.same h1.ipc
  have hint : interruptible (threadEnqueueReady s s.current) := by
    unfold interruptible
    rw [h1.current, h1.ipc]
    exact hint
  unfold sysThreadSwitch at hs
  dsimp only at hs
  split at hs
  · rw [Option.some.injEq] at hs
    exact hs ▸ h2.same (ipc_dispatch hint _)
  · exact h2.same (ipc_reschedule hint hs)

/-- **One step** keeps the partners of locked threads right. -/
lemma LockedBut.step (h : LockedBut (· = s.current) s) (hi : Inv .none s) (ho : OwnersKernel s)
    {e : Event} (hok : PairOk s e) (hs : step s e = some s') : LockedBut (· = s'.current) s' := by
  have hend : LockedBut (fun _ => False) s' → LockedBut (· = s'.current) s' := fun h =>
    h.mono fun _ h => absurd h (fun h => h)
  cases e with
  | ipc dest sndDesc rcvDesc timeout w0 w1 w2 dope =>
      simp only [Hazelnut.step] at hs
      split at hs
      · rename_i hu
        rw [Option.some.injEq] at hs
        exact hend (hs ▸ h.ipc hi hu hok.2)
      · simp at hs
  | exRegs threadno uip usp pager =>
      simp only [Hazelnut.step] at hs
      split at hs
      · rename_i hu
        exact hend ((h.all hi hu.2).exRegs hi hu hok.1.1 hs)
      · simp at hs
  | taskNew task pager uip usp =>
      simp only [Hazelnut.step] at hs
      split at hs
      · rename_i hu
        exact hend ((h.all hi hu.2).taskNew hi hok.1.1 hs)
      · simp at hs
  | threadSwitch tid =>
      simp only [Hazelnut.step] at hs
      split at hs
      · rename_i hu
        exact hend ((h.all hi hu.2).threadSwitch hu.2 hs)
      · simp at hs
  | schedule param tid =>
      simp only [Hazelnut.step] at hs
      split at hs
      · rename_i hu
        rw [Option.some.injEq] at hs
        exact hend (hs ▸ (h.all hi hu.2).same (sameIpc_schedule s param tid).ipc)
      · simp at hs
  | timer =>
      simp only [Hazelnut.step] at hs
      split at hs
      · rename_i hint
        exact hend ((h.all hi hint).timer hi hint hs)
      · simp at hs
  | irq number =>
      simp only [Hazelnut.step] at hs
      split at hs
      · rename_i hint
        rw [Option.some.injEq] at hs
        exact hend (hs ▸ (h.all hi hint).irq hint fun p hp => ho number p hp)
      · simp at hs
  | resume dope =>
      have hstep := hs
      simp only [Hazelnut.step] at hs
      split at hs
      · simp at hs
      · rename_i hint
        rw [Option.some.injEq] at hs
        have hr := hi.resumes hint
        refine LockedBut.mono (hs ▸ h.resume hi hr hint dope hok.2) ?_
        rintro x ⟨d, hd, rfl⟩
        -- the receiver of a completed send runs
        obtain ⟨sd, rd, hc⟩ := hd.cont
        have hst : (s.tcb s.current).threadState ≠ .running := by
          rw [Sys.toIpcPart_tcb, hd.state]
          simp
        obtain ⟨h1, h2⟩ := hi.picked hr hc hst
        have hdel : Delivers s (tidToTcb d) _ (.resume dope) := ⟨d, sd, rd, hc, hst, rfl, rfl⟩
        exact (delivers_handed hdel hok.1.2 h2 (by
          rw [isPolling_iff, Sys.toIpcPart_tcb, h1]
          simp) hstep).1.symm
  | idle =>
      simp only [Hazelnut.step] at hs
      split at hs
      · rename_i hidle
        have hint : interruptible s := by
          unfold interruptible
          rw [hidle]
          exact hi.idle_cont
        exact hend ((h.all hi hint).same (ipc_reschedule hint hs))
      · simp at hs

lemma ownersKernel_initSys : OwnersKernel initSys := fun n q hn => by
  rw [initSys_owner] at hn
  split at hn
  · rename_i h
    rcases h with rfl | rfl | rfl <;> decide
  · simp at hn

lemma locked_initSys : LockedBut (· = initSys.current) initSys := by
  have hnil : LockedBut (fun _ => False) nilSys := fun t _ _ => by
    have hst : (nilSys.ipc t).threadState = .aborted ∨ (nilSys.ipc t).threadState = .free := by
      rw [nilSys_ipc]
      split_ifs <;> simp [zeroTcb]
    rcases hst with h | h
    · exact .of_state (by simp [h]) (by simp [h])
    · exact .of_state (by simp [h]) (by simp [h])
  have h1 := hnil.create sigma0Id none
    (fun h => absurd ((existing_nilSys _).mp h) (by decide)) 0 0 nilId 50
  refine (h1.create rootTaskId none (fun h => h.2 ?_) 0 0 sigma0Id 50).mono fun _ h =>
    absurd h (fun h => h)
  rw [startThread_ipc, if_neg (by decide), nilSys_ipc, if_neg (by decide), if_neg (by decide)]
  rfl

/-- The sender `q` and the receiver `t` are locked with each other. -/
structure LockedPair (s : Sys) (q t : TcbPtr) : Prop where
  sends : Sends s q (s.ipc t).myself
  existing : Existing s t
  waiting : (s.ipc t).threadState = .lockedWaiting
  partner : (s.ipc t).partner = (s.ipc q).myself
  back : (s.ipc q).partner = (s.ipc t).myself

/-- **Locked partners are symmetric**: every locked receiver, other than one that has been switched
to, has recorded the locked sender that sends to it and has recorded the receiver.  Unwinding the
IPC of a thread ends, and changes the state of that thread and of the one it is locked with at most.
-/
structure PartnersSymmetric (s : Sys) : Prop where
  locked : ∀ t, Existing s t → (s.ipc t).threadState = .lockedWaiting → t ≠ s.current →
    ∃ q, LockedPair s q t
  unwind : interruptible s → ∀ p, Existing s p → ∃ s', unwindIpc tcbCount s p = some s' ∧
    ∀ q, (s'.ipc q).threadState ≠ (s.ipc q).threadState → q = p ∨ LockedPair s p q ∨
    LockedPair s q p

lemma Inv.lockedPair (hi : Inv .none s) {t : TcbPtr} (ht : Existing s t)
    (hst : (s.ipc t).threadState = .lockedWaiting) (h : LockedTo s t q) : LockedPair s q t :=
  ⟨h.sends, ht, hst, h.partner, (hi.locked q _ h.sends).1⟩

/-- The two threads of a pair are found by following their partners. -/
lemma LockedPair.tidToTcb (h : LockedPair s q r) (hi : Inv .none s) :
    tidToTcb (s.ipc q).partner = r ∧ tidToTcb (s.ipc r).partner = q ∧
      ¬isKernelId (s.ipc q).partner ∧ ¬isKernelId (s.ipc r).partner ∧ q ≠ r := by
  have hqn : q ≠ nilTcb := fun he => by
    have h1 := h.sends.state
    rw [he, hi.nil_state] at h1
    simp at h1
  have hrn : r ≠ nilTcb := fun he => by
    have h1 := h.waiting
    rw [he, hi.nil_state] at h1
    simp at h1
  have hq := hi.ident q h.sends.existing hqn
  have hr := hi.ident r h.existing hrn
  refine ⟨by rw [h.back]; exact hr.1, by rw [h.partner]; exact hq.1, by rw [h.back]; exact hr.2.1,
    by rw [h.partner]; exact hq.2.1, fun he => ?_⟩
  have h1 := h.sends.state
  rw [he, h.waiting] at h1
  simp at h1

/-- Unwinding the IPC of any thread. -/
lemma LockedBut.unwind (h : LockedBut (fun _ => False) s) (hi : Inv .none s) (ht : AllTidy s)
    (hp : Existing s p) : ∃ s', unwindIpc tcbCount s p = some s' ∧
      ∀ q, (s'.ipc q).threadState ≠ (s.ipc q).threadState → q = p ∨ LockedPair s p q ∨
      LockedPair s q p := by
  -- the pair, whichever of the two is unwound
  have hpair : ∀ {q}, LockedPair s p q ∨ LockedPair s q p → ∃ s', unwindIpc tcbCount s p = some s' ∧
      ∀ q, (s'.ipc q).threadState ≠ (s.ipc q).threadState → q = p ∨ LockedPair s p q ∨
      LockedPair s q p := by
    intro q hpq
    have hlink : q ≠ p ∧ Hazelnut.tidToTcb (s.ipc p).partner = q ∧ ¬isKernelId (s.ipc p).partner ∧
        ((s.ipc p).threadState = .lockedWaiting ∨ (s.ipc p).threadState = .lockedRunning) ∧
        ((s.ipc q).threadState = .lockedWaiting ∨ (s.ipc q).threadState = .lockedRunning) ∧
        ¬isKernelId (s.ipc q).partner ∧ Hazelnut.tidToTcb (s.ipc q).partner = p := by
      rcases hpq with hpq | hpq
      · obtain ⟨h1, h2, h3, h4, h5⟩ := hpq.tidToTcb hi
        exact ⟨h5.symm, h1, h3, .inr hpq.sends.state, .inl hpq.waiting, h4, h2⟩
      · obtain ⟨h1, h2, h3, h4, h5⟩ := hpq.tidToTcb hi
        exact ⟨h5, h2, h4, .inl hpq.waiting, .inr hpq.sends.state, h3, h1⟩
    obtain ⟨h1, h2, h3, h4, h5, h6, h7⟩ := hlink
    obtain ⟨s', sp, hrun, -, -, hipc, -⟩ := unwindIpc_pair (2 ^ 14 - 2) h1 h2 h3 h4 h5
      (.inr ⟨h6, .inl h7⟩)
    refine ⟨s', hrun, fun r hr => ?_⟩
    by_cases hrp : r = p
    · exact .inl hrp
    · by_cases hrq : r = q
      · exact .inr (hrq ▸ hpq)
      · rw [hipc, if_neg hrp, if_neg hrq] at hr
        exact absurd rfl hr
  rcases hst : (s.ipc p).threadState with _ | _ | _ | _ | _ | _ | _
  · exact absurd hst (hi.not_free p hp)
  · exact ⟨_, unwindIpc_still (2 ^ 14) (.inl hst), fun q hq => absurd rfl hq⟩
  · refine ⟨_, unwindIpc_polling (2 ^ 14) hst, fun q hq => ?_⟩
    rw [returnIpc_ipc] at hq
    split at hq
    · rename_i hqp
      exact .inl hqp
    · rw [(sameCtl_dequeueSend _ _ _).threadState] at hq
      exact absurd rfl hq
  · obtain ⟨q, hq⟩ := (h p (fun h => h) hp).waiting hst
    exact hpair (.inr (hi.lockedPair hp hst hq))
  · have hpn : p ≠ nilTcb := fun he => by rw [he, hi.nil_state] at hst; simp at hst
    have hplain : ¬Plain (s.ipc p).cont := fun hc => by
      have h1 := ht p hp.1 (fun h => h) hc hp.2 (hi.ident p hp hpn).2.2
      rw [hst] at h1
      simp at h1
    rcases (h p (fun h => h) hp).running hst hplain with hk | hs
    · obtain ⟨e, -, he⟩ := unwindIpc_locked (2 ^ 14) (.inr hst)
      rw [if_pos hk, Option.map_some] at he
      refine ⟨_, he, fun q hq => ?_⟩
      rw [returnIpc_ipc, markAborted_ipc] at hq
      split at hq
      · rename_i hqp
        exact .inl hqp
      · rw [markAborted_ipc, if_neg (by assumption)] at hq
        exact absurd rfl hq
    · obtain ⟨-, h2, h3, h4, -⟩ := hi.locked p _ hs
      obtain ⟨x, hx⟩ := (h _ (fun h => h) h2).waiting h4
      have hxp : x = p := hi.locked_unique x p _ (h3 ▸ hx.sends) hs
      exact hpair (.inl (hxp ▸ hi.lockedPair h2 h4 hx))
  · exact ⟨_, unwindIpc_still (2 ^ 14) (.inr hst), fun q hq => absurd rfl hq⟩
  · refine ⟨_, unwindIpc_waiting (2 ^ 14) hst, fun q hq => ?_⟩
    rw [returnIpc_ipc] at hq
    split at hq
    · rename_i hqp
      exact .inl hqp
    · exact absurd rfl hq

/-- Behind a send that goes on, the thread is left clean. -/
lemma CleanOk.of_onceOk {e : Event} (h : OnceOk s e) : CleanOk s e := by
  refine ⟨h.1, ?_⟩
  cases e with
  | resume dope => exact fun dest sndDesc rcvDesc hc hst => .inr (h.2 dest sndDesc rcvDesc hc hst)
  | ipc | exRegs | taskNew | threadSwitch | schedule | timer | irq | idle => trivial

/-- **Locked partners are symmetric** in every state of a run without a wrong turn. -/
theorem partners_symmetric (h : RunBy PairOk s) : PartnersSymmetric s := by
  have hinv : LockedBut (· = s.current) s ∧ AllTidy s ∧ OwnersKernel s ∧ ReachableOk s :=
    h.invariant (P := fun s => LockedBut (· = s.current) s ∧ AllTidy s ∧
      OwnersKernel s ∧ ReachableOk s)
      ⟨locked_initSys, allTidy_initSys, ownersKernel_initSys, .init⟩
      fun s e s' ⟨h1, h2, h3, h4⟩ hok hstep => ⟨h1.step h4.inv h3 hok hstep,
        h2.step h4.inv (.of_onceOk hok.1) hstep, h3.step hstep, h4.step e hok.1.1 hstep⟩
  obtain ⟨h1, h2, -, h4⟩ := hinv
  refine ⟨fun t ht hst hc => ?_, fun hint p hp => (h1.all h4.inv hint).unwind h4.inv h2 hp⟩
  obtain ⟨q, hq⟩ := (h1 t hc ht).waiting hst
  exact ⟨q, h4.inv.lockedPair ht hst hq⟩

/-- The root task polls for sigma0, which tries to send to it and gives up. -/
def triedRun : List Event :=
  [.idle, .ipc sigma0Id 0 noDesc 0 1 2 3 0, .idle, .ipc rootTaskId 0 noDesc 0x000000f0 0 0 0 0]

/-- Sigma0 waits for the root task. -/
def waitForRoot : Event := .ipc rootTaskId noDesc 0 0 0 0 0 0

/-- A receiver that picks the thread it has tried to send to. -/
theorem partners_symmetric_tried : ∃ s, RunBy PairOk s ∧
    (s.tcb (tidToTcb sigma0Id)).threadState = .lockedWaiting ∧ s.current = tidToTcb rootTaskId ∧
      PartnersSymmetric s := by
  obtain ⟨s, hs, h1, h2⟩ := exists_run triedRun
    (P := fun s => (s.tcb s.current).partner = rootTaskId ∧
      ((step s waitForRoot).map fun s' => decide
      ((s'.tcb (tidToTcb sigma0Id)).threadState = .lockedWaiting ∧
        s'.current = tidToTcb rootTaskId)) = some true) (by decide +kernel)
  obtain ⟨s', hs', h3⟩ := Option.map_eq_some_iff.mp h2
  obtain ⟨h4, h5⟩ := of_decide_eq_true h3
  have hok : RunBy PairOk s := RunBy.init.run (fun e he s => by
    simp only [triedRun, List.mem_cons, List.not_mem_nil, or_false] at he
    rcases he with rfl | rfl | rfl | rfl
    · exact ⟨⟨trivial, trivial⟩, trivial⟩
    · exact ⟨⟨rfl, fun _ => .inl rfl⟩, fun h => absurd h (by decide), fun _ h => absurd rfl h⟩
    · exact ⟨⟨trivial, trivial⟩, trivial⟩
    · exact ⟨⟨rfl, fun _ => .inl rfl⟩, fun h => absurd h (by decide), fun _ h => absurd rfl h⟩) hs
  have hwait : PairOk s waitForRoot := by
    refine ⟨⟨rfl, fun ⟨_, h, _⟩ => absurd rfl h⟩, fun _ r hr => ?_, fun ⟨_, h, _⟩ => absurd rfl h⟩
    obtain ⟨hr, -⟩ := hr
    rw [if_neg (by decide)] at hr
    exact hr.2.2.trans h1.symm
  have hok' := hok.step waitForRoot hwait hs'
  exact ⟨s', hok', h4, h5, partners_symmetric hok'⟩

/-- The root task polls for sigma0, which waits for anybody, and picks it. -/
def pickedStaleRun : List Event :=
  [.idle, .ipc sigma0Id 0 noDesc 0 1 2 3 0, .idle, .ipc nilId noDesc 1 0 0 0 0 0]

/-- A receiver that picks a sender in an open wait does not record it. -/
theorem partners_stale : ¬∀ s, Reachable s → PartnersSymmetric s := by
  intro hall
  obtain ⟨s, hs, h1, h2, h3, h4⟩ := exists_run pickedStaleRun
    (P := fun s => (s.tcb (tidToTcb sigma0Id)).myself = sigma0Id ∧
      (s.tcb (tidToTcb sigma0Id)).threadState = .lockedWaiting ∧
      (s.tcb (tidToTcb sigma0Id)).partner = nilId ∧ s.current = tidToTcb rootTaskId)
        (by decide +kernel)
  obtain ⟨q, hq⟩ := (hall s (Reachable.init.run hs)).locked (tidToTcb sigma0Id)
    ⟨by decide, fun h => absurd (h1.symm.trans h) (by decide)⟩ h2 (by rw [h4]; decide)
  exact hq.sends.existing.2 (hq.partner.symm.trans h3)

end Hazelnut

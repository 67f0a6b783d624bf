import Mathlib.Logic.Function.Basic
import Hazelnut.Memory.Pgent

/-!
The copy areas of a long IPC, after `get_copy_area`, `free_copy_area` and the copy area part of
`pagefault` of `kernel/src/x86/memory.c`, and of `save_resources` of `kernel/src/x86/resources.c`.

* `CopyState`: the recorded bases, the resource bits and the page directories.
* `getCopyArea`, `freeCopyArea`, `saveResources`, `copyFault`.
* `CopyRun`: the addresses a long IPC asks for, with thread switches and faults between them.
* `ReachesReceiver`: an access through a window gets to the memory of the receiver.
* `copyArea_sound_iff`: when every access does, with the header of the message and the address
  asked for last.

User addresses are below `USER_LIMIT`, so that no sum of addresses wraps.  Sender and receiver have
large address spaces; when they are the same, the windows are no entries for user addresses.
-/

namespace Hazelnut

/-! ### Addresses -/

/-- `pgdir_idx`. -/
def pgdirIdx (a : Nat) : Nat := a / 2 ^ 22

/-- `addr & PAGEDIR_MASK`. -/
def regionBase (a : Nat) : Nat := a / 2 ^ 22 * 2 ^ 22

def memCopyarea1 : Nat := 0xe2000000

def memCopyarea2 : Nat := memCopyarea1 + 2 ^ 22 * 2

def memCopyareaEnd : Nat := memCopyarea2 + 2 ^ 22 * 2

/-- `COPYAREA_INVALID`. -/
def copyareaInvalid : Nat := 0xffffffff

/-- `PAGE_USER`. -/
def pageUser : Word := 0x4

/-! ### The copy areas -/

/-- What a sender has of its copy areas: the bases, the bits `TR_IPC_MEM1` and `TR_IPC_MEM2`, its
page directory, and that of its partner. -/
structure CopyState where
  copyArea1 : Nat
  copyArea2 : Nat
  mem1 : Bool
  mem2 : Bool
  pgdirFrom : Nat → Word
  pgdirTo : Nat → Word

namespace CopyState

/-- Two neighbouring entries of a page directory are written. -/
def setPair (d : Nat → Word) (i : Nat) (x y : Word) : Nat → Word :=
  Function.update (Function.update d i x) (i + 1) y

/-- `get_copy_area`. -/
def getCopyArea (s : CopyState) (addr : Nat) : CopyState × Nat :=
  if s.copyArea1 = copyareaInvalid then
    -- nothing mapped yet
    ({ s with
      copyArea1 := regionBase addr
      pgdirFrom := setPair s.pgdirFrom (pgdirIdx memCopyarea1) (s.pgdirTo (pgdirIdx addr))
        (s.pgdirTo (pgdirIdx addr + 1))
      mem1 := true }, addr % 2 ^ 22 + memCopyarea1)
  else if s.copyArea1 = regionBase addr then (s, addr % 2 ^ 22 + memCopyarea1)
  else if s.copyArea2 = regionBase addr then (s, addr % 2 ^ 22 + memCopyarea2)
  else
    ({ s with
      copyArea2 := regionBase addr
      pgdirFrom := setPair s.pgdirFrom (pgdirIdx memCopyarea2) (s.pgdirTo (pgdirIdx addr))
        (s.pgdirTo (pgdirIdx addr + 1))
      mem2 := true }, addr % 2 ^ 22 + memCopyarea2)

/-- `free_copy_area`. -/
def freeCopyArea (s : CopyState) : CopyState :=
  { s with copyArea1 := copyareaInvalid, copyArea2 := copyareaInvalid }

/-- The part of `save_resources` about the copy areas. -/
def saveResources (s : CopyState) : CopyState :=
  if s.mem1 || s.mem2 then
    { s with
      pgdirFrom := setPair (setPair s.pgdirFrom
      (pgdirIdx memCopyarea1) 0 0) (pgdirIdx memCopyarea2) 0 0
      mem1 := false
      mem2 := false }
  else s

/-- A switch to other threads and back; they may change the page directory of the receiver, and drop
their own windows in the same way. -/
def switchAway (pgdirTo : Nat → Word) (s : CopyState) : CopyState :=
  { s.saveResources with pgdirTo := pgdirTo }

/-- The part of `pagefault` about the copy areas.  If the window is in use, the fault is tunneled to
the receiver, which is switched to; `pgdirTo` is its page directory afterwards. -/
def copyFault (fault : Nat) (pgdirTo : Nat → Word) (s : CopyState) : CopyState :=
  if fault < memCopyarea2 then
    let s := if s.mem1 then s.switchAway pgdirTo else s
    { s with
      pgdirFrom := setPair s.pgdirFrom (pgdirIdx memCopyarea1)
        (s.pgdirTo (pgdirIdx s.copyArea1) &&& ~~~pageUser)
        (s.pgdirTo (pgdirIdx s.copyArea1 + 1) &&& ~~~pageUser)
      mem1 := true }
  else
    let s := if s.mem2 then s.switchAway pgdirTo else s
    { s with
      pgdirFrom := setPair s.pgdirFrom (pgdirIdx memCopyarea2)
        (s.pgdirTo (pgdirIdx s.copyArea2) &&& ~~~pageUser)
        (s.pgdirTo (pgdirIdx s.copyArea2 + 1) &&& ~~~pageUser)
      mem2 := true }

end CopyState

open CopyState

/-! ### Runs -/

/-- The entry is valid. -/
def Present (e : Word) : Prop := e &&& pageValid ≠ 0

instance (e : Word) : Decidable (Present e) := inferInstanceAs (Decidable (_ ≠ _))

/-- The entries translate alike. -/
def SameEntry (e e' : Word) : Prop := e &&& ~~~pageUser = e' &&& ~~~pageUser

instance (e e' : Word) : Decidable (SameEntry e e') := inferInstanceAs (Decidable (_ = _))

/-- What happens between two calls of `get_copy_area`: a thread switch, a fault in a window, and a
mapping of the sender itself to the receiver, which fills entries that are not valid. -/
inductive CopyStep : CopyState → CopyState → Prop
  | switch (s : CopyState) (pgdirTo : Nat → Word) : CopyStep s (s.switchAway pgdirTo)
  | fault (s : CopyState) (k : Nat) (pgdirTo : Nat → Word) (h1 : memCopyarea1 ≤ k)
      (h2 : k < memCopyareaEnd) : CopyStep s (s.copyFault k pgdirTo)
  | map (s : CopyState) (pgdirTo : Nat → Word)
      (h : ∀ i, Present (s.pgdirTo i) → pgdirTo i = s.pgdirTo i) : CopyStep s
      { s with pgdirTo := pgdirTo }

/-- A user address and the kernel address that was returned for it. -/
structure Window where
  addr : Nat
  kernel : Nat

/-- A long IPC that has asked for the address `h` of the message header and for those of the list,
with the windows of the header and of the last address. -/
inductive CopyRun (s0 : CopyState) (h : Nat) : List Nat → CopyState → Window → Window → Prop
  | header : CopyRun s0 h [] (s0.getCopyArea h).1 ⟨h, (s0.getCopyArea h).2⟩ ⟨h,
      (s0.getCopyArea h).2⟩
  | get {l : List Nat} {s : CopyState} {hd last : Window} (hr : CopyRun s0 h l s hd last)
      (a : Nat) :
      CopyRun s0 h (l ++ [a]) (s.getCopyArea a).1 hd ⟨a, (s.getCopyArea a).2⟩
  | step {l : List Nat} {s s' : CopyState} {hd last : Window} (hr : CopyRun s0 h l s hd last)
      (hs : CopyStep s s') : CopyRun s0 h l s' hd last

/-- **An access reaches the receiver**: less than 4 MB behind the kernel address, the page directory
of the sender has the entry that the receiver has for its address, or none; and a fault there leads
to that entry. -/
def ReachesReceiver (s : CopyState) (w : Window) : Prop := ∀ off < 2 ^ 22,
  (Present (s.pgdirFrom (pgdirIdx (w.kernel + off))) →
    SameEntry (s.pgdirFrom (pgdirIdx (w.kernel + off))) (s.pgdirTo (pgdirIdx (w.addr + off)))) ∧
  ∀ pgdirTo, SameEntry ((s.copyFault (w.kernel + off) pgdirTo).pgdirFrom
    (pgdirIdx (w.kernel + off)))
    ((s.copyFault (w.kernel + off) pgdirTo).pgdirTo (pgdirIdx (w.addr + off)))

/-- No entry of the windows is valid. -/
def Dropped (s : CopyState) : Prop := ∀ i < 4, ¬Present (s.pgdirFrom (pgdirIdx memCopyarea1 + i))

/-- The windows are dropped unless they are recorded as resources. -/
def HeldOrDropped (s : CopyState) : Prop := s.mem1 = false → s.mem2 = false → Dropped s

/-- What a long IPC begins with: its sender has freed the areas of its last one, or that was
aborted, which other threads do, so that the windows are dropped. -/
def Begins (s : CopyState) : Prop :=
  s.copyArea1 = copyareaInvalid ∧ s.copyArea2 = copyareaInvalid ∧ HeldOrDropped s ∨ Dropped s

/-! ### The windows -/

variable {s s' : CopyState} {w hd last : Window} {l : List Nat} {a h : Nat}

lemma pgdirIdx_copyarea1 : pgdirIdx memCopyarea1 = 904 := by decide

lemma pgdirIdx_copyarea2 : pgdirIdx memCopyarea2 = 906 := by decide

lemma setPair_apply (d : Nat → Word) (i j : Nat) (x y : Word) :
    setPair d i x y j = if j = i + 1 then y else if j = i then x else d j := by
  simp only [setPair, Function.update_apply]

lemma pgdirIdx_regionBase (a : Nat) : pgdirIdx (regionBase a) = pgdirIdx a :=
  Nat.mul_div_cancel _ (by decide)

lemma regionBase_ne_invalid (a : Nat) : regionBase a ≠ copyareaInvalid := by
  rw [regionBase, copyareaInvalid]
  omega

lemma SameEntry.refl (e : Word) : SameEntry e e := rfl

lemma SameEntry.symm {e e' : Word} (h : SameEntry e e') : SameEntry e' e := Eq.symm h

lemma SameEntry.trans {e e' e'' : Word} (h : SameEntry e e') (h' : SameEntry e' e'') :
    SameEntry e e'' :=
  Eq.trans h h'

lemma sameEntry_user (e : Word) : SameEntry (e &&& ~~~pageUser) e := by
  rw [SameEntry, BitVec.and_assoc, BitVec.and_self]

lemma SameEntry.present {e e' : Word} (h : SameEntry e e') (hp : Present e) : Present e' := by
  have hbit : ∀ x : Word, x &&& pageValid = x &&& ~~~pageUser &&& pageValid := fun x => by
    rw [BitVec.and_assoc]
    rfl
  rw [Present, hbit, ← h, ← hbit]
  exact hp

/-- The windows that are recorded show the regions they are recorded with. -/
structure WindowsOk (s : CopyState) : Prop where
  win1 : s.copyArea1 ≠ copyareaInvalid → ∀ i < 2, Present (s.pgdirFrom (904 + i)) →
    SameEntry (s.pgdirFrom (904 + i)) (s.pgdirTo (pgdirIdx s.copyArea1 + i))
  win2 : s.copyArea2 ≠ copyareaInvalid → ∀ i < 2, Present (s.pgdirFrom (906 + i)) →
    SameEntry (s.pgdirFrom (906 + i)) (s.pgdirTo (pgdirIdx s.copyArea2 + i))
  held : HeldOrDropped s

lemma Dropped.windowsOk (h : Dropped s) : WindowsOk s := by
  refine ⟨fun _ i hi hp => absurd hp ?_, fun _ i hi hp => absurd hp ?_, fun _ _ => h⟩
  · exact h i (by omega)
  · rw [show 906 + i = pgdirIdx memCopyarea1 + (2 + i) by rw [pgdirIdx_copyarea1]; omega]
    exact h (2 + i) (by omega)

lemma Begins.windowsOk (h : Begins s) : WindowsOk s := by
  rcases h with ⟨h1, h2, h3⟩ | h
  · exact ⟨fun h => absurd h1 h, fun h => absurd h2 h, h3⟩
  · exact h.windowsOk

/-- **A switch** drops the windows. -/
lemma dropped_switchAway (h : HeldOrDropped s) (pgdirTo : Nat → Word) :
    Dropped (s.switchAway pgdirTo) := by
  intro i hi
  unfold switchAway saveResources
  split
  · dsimp only
    rw [setPair_apply, setPair_apply, pgdirIdx_copyarea1, pgdirIdx_copyarea2]
    have h0 : ¬Present 0 := by decide
    split_ifs <;> first | exact h0 | omega
  · rename_i hbits
    rw [Bool.or_eq_true, not_or, Bool.not_eq_true, Bool.not_eq_true] at hbits
    exact h hbits.1 hbits.2 i hi

lemma WindowsOk.switchAway (h : WindowsOk s) (pgdirTo : Nat → Word) :
    WindowsOk (s.switchAway pgdirTo) :=
  (dropped_switchAway h.held pgdirTo).windowsOk

/-- The first window is set up for the region `c`. -/
lemma WindowsOk.establish1 (hs : WindowsOk s) (c : Nat) {x y : Word}
    (hx : SameEntry x (s.pgdirTo (pgdirIdx c)))
    (hy : SameEntry y (s.pgdirTo (pgdirIdx c + 1))) :
    WindowsOk { s with
      copyArea1 := c, pgdirFrom := setPair s.pgdirFrom (pgdirIdx memCopyarea1) x y, mem1 :=
      true } := by
  refine ⟨fun _ i hi _ => ?_, fun h2 i hi hp => ?_, fun h1 => absurd h1 (by simp)⟩
  · dsimp only
    rw [setPair_apply, pgdirIdx_copyarea1]
    obtain rfl | rfl : i = 0 ∨ i = 1 := by omega
    · exact hx
    · exact hy
  · have heq : setPair s.pgdirFrom (pgdirIdx memCopyarea1) x y (906 + i) =
        s.pgdirFrom (906 + i) := by
      rw [setPair_apply, pgdirIdx_copyarea1, if_neg (by omega), if_neg (by omega)]
    dsimp only at h2 hp ⊢
    rw [heq] at hp ⊢
    exact hs.win2 h2 i hi hp

/-- The second window is set up for the region `c`. -/
lemma WindowsOk.establish2 (hs : WindowsOk s) (c : Nat) {x y : Word}
    (hx : SameEntry x (s.pgdirTo (pgdirIdx c)))
    (hy : SameEntry y (s.pgdirTo (pgdirIdx c + 1))) :
    WindowsOk { s with
      copyArea2 := c, pgdirFrom := setPair s.pgdirFrom (pgdirIdx memCopyarea2) x y, mem2 :=
      true } := by
  refine ⟨fun h1 i hi hp => ?_, fun _ i hi _ => ?_, fun _ h2 => absurd h2 (by simp)⟩
  · have heq : setPair s.pgdirFrom (pgdirIdx memCopyarea2) x y (904 + i) =
        s.pgdirFrom (904 + i) := by
      rw [setPair_apply, pgdirIdx_copyarea2, if_neg (by omega), if_neg (by omega)]
    dsimp only at h1 hp ⊢
    rw [heq] at hp ⊢
    exact hs.win1 h1 i hi hp
  · dsimp only
    rw [setPair_apply, pgdirIdx_copyarea2]
    obtain rfl | rfl : i = 0 ∨ i = 1 := by omega
    · exact hx
    · exact hy

lemma WindowsOk.getCopyArea (hs : WindowsOk s) (a : Nat) : WindowsOk (s.getCopyArea a).1 := by
  have hx : SameEntry (s.pgdirTo (pgdirIdx a)) (s.pgdirTo (pgdirIdx (regionBase a))) := by
    rw [pgdirIdx_regionBase]
    exact .refl _
  have hy : SameEntry (s.pgdirTo (pgdirIdx a + 1)) (s.pgdirTo (pgdirIdx (regionBase a) + 1)) := by
    rw [pgdirIdx_regionBase]
    exact .refl _
  unfold CopyState.getCopyArea
  split_ifs
  · exact hs.establish1 (regionBase a) hx hy
  · exact hs
  · exact hs
  · exact hs.establish2 (regionBase a) hx hy

lemma WindowsOk.copyFault (hs : WindowsOk s) (k : Nat) (pgdirTo : Nat → Word) :
    WindowsOk (s.copyFault k pgdirTo) := by
  unfold CopyState.copyFault
  split
  · have h1 : WindowsOk (if s.mem1 then s.switchAway pgdirTo else s) := by
      split
      · exact hs.switchAway pgdirTo
      · exact hs
    exact h1.establish1 _ (sameEntry_user _) (sameEntry_user _)
  · have h1 : WindowsOk (if s.mem2 then s.switchAway pgdirTo else s) := by
      split
      · exact hs.switchAway pgdirTo
      · exact hs
    exact h1.establish2 _ (sameEntry_user _) (sameEntry_user _)

/-- **One step** keeps the windows. -/
lemma WindowsOk.step (hs : WindowsOk s) (h : CopyStep s s') : WindowsOk s' := by
  cases h with
  | switch pgdirTo => exact hs.switchAway pgdirTo
  | fault k pgdirTo => exact hs.copyFault k pgdirTo
  | map pgdirTo hsame =>
      have hval : ∀ {e : Word} {i : Nat}, Present e → SameEntry e (s.pgdirTo i) →
          SameEntry e (pgdirTo i) := by
        intro e i hp he
        rwa [hsame i (he.present hp)]
      exact ⟨fun h1 i hi hp => hval hp (hs.win1 h1 i hi hp), fun h2 i hi hp => hval hp
        (hs.win2 h2 i hi hp), hs.held⟩

/-- **A run** keeps the windows. -/
lemma WindowsOk.run (hs : WindowsOk s) (hr : CopyRun s h l s' hd last) : WindowsOk s' := by
  induction hr with
  | header => exact hs.getCopyArea h
  | get _ a ih => exact ih.getCopyArea a
  | step _ hstep ih => exact ih.step hstep

/-! ### Accesses -/

/-- The window is in one of the areas, which is recorded with its region. -/
def Backed (s : CopyState) (w : Window) : Prop :=
  w.kernel = w.addr % 2 ^ 22 + memCopyarea1 ∧ s.copyArea1 = regionBase w.addr ∨
    w.kernel = w.addr % 2 ^ 22 + memCopyarea2 ∧ s.copyArea2 = regionBase w.addr

/-- Less than 4 MB behind an address is one of two entries. -/
lemma pgdirIdx_add (a off : Nat) (hoff : off < 2 ^ 22) :
    ∃ j < 2, pgdirIdx (a + off) = pgdirIdx a + j ∧
    pgdirIdx (a % 2 ^ 22 + memCopyarea1 + off) = 904 + j ∧
    pgdirIdx (a % 2 ^ 22 + memCopyarea2 + off) = 906 + j ∧
    a % 2 ^ 22 + memCopyarea1 + off < memCopyarea2 ∧
        ¬a % 2 ^ 22 + memCopyarea2 + off < memCopyarea2 := by
  have h1 : memCopyarea1 = 904 * 2 ^ 22 := by decide
  have h2 : memCopyarea2 = 906 * 2 ^ 22 := by decide
  unfold pgdirIdx
  rw [h1, h2]
  refine ⟨(a % 2 ^ 22 + off) / 2 ^ 22, by omega, by omega, by omega, by omega, by omega, ?_⟩
  rw [Nat.not_lt, Nat.add_right_comm]
  exact Nat.le_add_left _ _

lemma copyAreas_saveResources (s : CopyState) :
    s.saveResources.copyArea1 = s.copyArea1 ∧ s.saveResources.copyArea2 = s.copyArea2 := by
  unfold saveResources
  split <;> exact ⟨rfl, rfl⟩

/-- A fault in the first window sets it up. -/
lemma copyFault_entry1 {k j : Nat} (hk : k < memCopyarea2) (hj : j < 2) (pgdirTo : Nat → Word) :
    SameEntry ((s.copyFault k pgdirTo).pgdirFrom (904 + j))
      ((s.copyFault k pgdirTo).pgdirTo (pgdirIdx s.copyArea1 + j)) := by
  have harea : (if s.mem1 then s.switchAway pgdirTo else s).copyArea1 = s.copyArea1 := by
    split
    · exact (copyAreas_saveResources s).1
    · rfl
  unfold CopyState.copyFault
  rw [if_pos hk]
  dsimp only
  rw [setPair_apply, pgdirIdx_copyarea1, harea]
  obtain rfl | rfl : j = 0 ∨ j = 1 := by omega
  · exact sameEntry_user _
  · exact sameEntry_user _

/-- A fault in the second window sets it up. -/
lemma copyFault_entry2 {k j : Nat} (hk : ¬k < memCopyarea2) (hj : j < 2) (pgdirTo : Nat → Word) :
    SameEntry ((s.copyFault k pgdirTo).pgdirFrom (906 + j))
      ((s.copyFault k pgdirTo).pgdirTo (pgdirIdx s.copyArea2 + j)) := by
  have harea : (if s.mem2 then s.switchAway pgdirTo else s).copyArea2 = s.copyArea2 := by
    split
    · exact (copyAreas_saveResources s).2
    · rfl
  unfold CopyState.copyFault
  rw [if_neg hk]
  dsimp only
  rw [setPair_apply, pgdirIdx_copyarea2, harea]
  obtain rfl | rfl : j = 0 ∨ j = 1 := by omega
  · exact sameEntry_user _
  · exact sameEntry_user _

/-- **A window that is backed** reaches the receiver. -/
lemma Backed.reaches (hw : Backed s w) (hs : WindowsOk s) : ReachesReceiver s w := by
  intro off hoff
  obtain ⟨j, hj, hto, hi1, hi2, hlt, hge⟩ := pgdirIdx_add w.addr off hoff
  rcases hw with ⟨hk, harea⟩ | ⟨hk, harea⟩
  · have hidx : pgdirIdx s.copyArea1 = pgdirIdx w.addr := by rw [harea, pgdirIdx_regionBase]
    rw [hk, hi1, hto, ← hidx]
    exact ⟨hs.win1 (by rw [harea]; exact regionBase_ne_invalid _) j hj,
      fun pgdirTo => copyFault_entry1 hlt hj pgdirTo⟩
  · have hidx : pgdirIdx s.copyArea2 = pgdirIdx w.addr := by rw [harea, pgdirIdx_regionBase]
    rw [hk, hi2, hto, ← hidx]
    exact ⟨hs.win2 (by rw [harea]; exact regionBase_ne_invalid _) j hj,
      fun pgdirTo => copyFault_entry2 hge hj pgdirTo⟩

/-- The address asked for is backed. -/
lemma backed_get (s : CopyState) (a : Nat) :
    Backed (s.getCopyArea a).1 ⟨a, (s.getCopyArea a).2⟩ := by
  unfold CopyState.getCopyArea
  split_ifs with h1 h2 h3
  · exact .inl ⟨rfl, rfl⟩
  · exact .inl ⟨rfl, h2⟩
  · exact .inr ⟨rfl, h3⟩
  · exact .inr ⟨rfl, rfl⟩

lemma copyAreas_step (h : CopyStep s s') : s'.copyArea1 = s.copyArea1 ∧
    s'.copyArea2 = s.copyArea2 := by
  cases h with
  | switch => exact copyAreas_saveResources s
  | fault k pgdirTo =>
      unfold CopyState.copyFault
      split
      · dsimp only
        split
        · exact copyAreas_saveResources s
        · exact ⟨rfl, rfl⟩
      · dsimp only
        split
        · exact copyAreas_saveResources s
        · exact ⟨rfl, rfl⟩
  | map => exact ⟨rfl, rfl⟩

lemma Backed.step (hw : Backed s w) (h : CopyStep s s') : Backed s' w := by
  rw [Backed, (copyAreas_step h).1, (copyAreas_step h).2]
  exact hw

/-! ### The message header -/

variable {s0 : CopyState} {a1 a2 : Nat} {rest : List Nat}

/-- No area is recorded, or the first one with the region of the header, or no address is in a
region other than these. -/
def HeaderKept (a1 h : Nat) (rest : List Nat) : Prop :=
  a1 = copyareaInvalid ∨ a1 = regionBase h ∨ ∀ b ∈ rest, regionBase b = a1 ∨
    regionBase b = regionBase h

/-- **The copy areas are sound** for a long IPC that begins with the bases `a1` and `a2`, and asks
for the header at `h` and then for `rest`: at any time accesses to the message header, and to the
address asked for last, reach the receiver. -/
def CopySound (a1 a2 h : Nat) (rest : List Nat) : Prop :=
  ∀ s0, Begins s0 → s0.copyArea1 = a1 → s0.copyArea2 = a2 → ∀ l, l <+: rest → ∀ s hd last,
    CopyRun s0 h l s hd last → ReachesReceiver s hd ∧ ReachesReceiver s last

lemma HeaderKept.of_isPrefix {l' : List Nat} (hk : HeaderKept a1 h l) (hl : l' <+: l) :
    HeaderKept a1 h l' :=
  hk.imp_right fun hk => hk.imp_right fun hk b hb => hk b (hl.subset hb)

lemma getCopyArea_area1 (h1 : s.copyArea1 ≠ copyareaInvalid) (a : Nat) :
    (s.getCopyArea a).1.copyArea1 = s.copyArea1 := by
  unfold CopyState.getCopyArea
  rw [if_neg h1]
  split_ifs <;> rfl

/-- The last address is backed, and so is the header: in the first area, or in the second one as
long as no address needs that. -/
lemma CopyRun.backed (hr : CopyRun s0 h l s hd last) (hk : HeaderKept s0.copyArea1 h l) :
    Backed s last ∧ hd.addr = h ∧
      (hd.kernel = h % 2 ^ 22 + memCopyarea1 ∧ s.copyArea1 = regionBase h ∨
        hd.kernel = h % 2 ^ 22 + memCopyarea2 ∧ s.copyArea2 = regionBase h ∧
          s.copyArea1 = s0.copyArea1 ∧ s0.copyArea1 ≠ copyareaInvalid ∧
          s0.copyArea1 ≠ regionBase h) := by
  induction hr with
  | header =>
      refine ⟨backed_get s0 h, rfl, ?_⟩
      unfold CopyState.getCopyArea
      split_ifs with h1 h2 h3
      · exact .inl ⟨rfl, rfl⟩
      · exact .inl ⟨rfl, h2⟩
      · exact .inr ⟨rfl, h3, rfl, h1, h2⟩
      · exact .inr ⟨rfl, rfl, rfl, h1, h2⟩
  | @get l s hd last hr a ih =>
      obtain ⟨-, haddr, hhd⟩ := ih (hk.of_isPrefix (List.prefix_append l [a]))
      refine ⟨backed_get s a, haddr, ?_⟩
      rcases hhd with ⟨h1, h2⟩ | ⟨h1, h2, h3, h4, h5⟩
      · exact .inl ⟨h1, by rw [getCopyArea_area1 (by rw [h2]; exact regionBase_ne_invalid h), h2]⟩
      · right
        -- the second area is not needed, so nothing changes
        have hsame : (s.getCopyArea a).1 = s := by
          unfold CopyState.getCopyArea
          rw [if_neg (by rwa [h3])]
          rcases ((hk.resolve_left h4).resolve_left h5) a (by simp) with ha | ha
          · rw [if_pos (by rw [h3, ha])]
          · rw [if_neg (by rw [h3, ha]; exact h5), if_pos (by rw [h2, ha])]
        rw [hsame]
        exact ⟨h1, h2, h3, h4, h5⟩
  | step hr hs ih =>
      obtain ⟨hlast, haddr, hhd⟩ := ih hk
      rw [(copyAreas_step hs).1, (copyAreas_step hs).2]
      exact ⟨hlast.step hs, haddr, hhd⟩

lemma pgdirTo_getCopyArea (s : CopyState) (a : Nat) : (s.getCopyArea a).1.pgdirTo = s.pgdirTo := by
  unfold CopyState.getCopyArea
  split_ifs <;> rfl

lemma pgdirTo_copyFault {k : Nat} {d : Nat → Word} (h : s.pgdirTo = d) :
    (s.copyFault k d).pgdirTo = d := by
  unfold CopyState.copyFault
  split
  · dsimp only
    split
    · rfl
    · exact h
  · dsimp only
    split
    · rfl
    · exact h

lemma pgdirIdx_area2 (a : Nat) :
    pgdirIdx (a % 2 ^ 22 + memCopyarea2) = 906 ∧ ¬a % 2 ^ 22 + memCopyarea2 < memCopyarea2 := by
  have h2 : memCopyarea2 = 906 * 2 ^ 22 := by decide
  unfold pgdirIdx
  rw [h2, Nat.not_lt]
  exact ⟨by omega, Nat.le_add_left _ _⟩

/-- A run of calls only, with the header in the second area. -/
lemma exists_copyRun (h1 : s0.copyArea1 ≠ copyareaInvalid) (h2 : s0.copyArea1 ≠ regionBase h)
    (l : List Nat) :
    ∃ s last k, CopyRun s0 h l s ⟨h, k⟩ last ∧ pgdirIdx k = 906 ∧ ¬k < memCopyarea2 ∧
      s.copyArea1 = s0.copyArea1 ∧ s.pgdirTo = s0.pgdirTo := by
  induction l using List.reverseRecOn with
  | nil =>
      have hkernel : (s0.getCopyArea h).2 = h % 2 ^ 22 + memCopyarea2 := by
        unfold CopyState.getCopyArea
        rw [if_neg h1, if_neg h2]
        split_ifs <;> rfl
      obtain ⟨hidx, hge⟩ := pgdirIdx_area2 h
      rw [← hkernel] at hidx hge
      exact ⟨_, _, _, .header, hidx, hge, getCopyArea_area1 h1 h, pgdirTo_getCopyArea s0 h⟩
  | append_singleton l a ih =>
      obtain ⟨s, last, k, hr, hidx, hge, harea, hdir⟩ := ih
      exact ⟨_, _, k, hr.get a, hidx, hge, (getCopyArea_area1 (by rwa [harea]) a).trans harea,
        (pgdirTo_getCopyArea s a).trans hdir⟩

/-- The second area is needed for another region. -/
lemma copyArea2_get (h1 : s.copyArea1 ≠ copyareaInvalid) (h2 : s.copyArea1 ≠ regionBase a) :
    (s.getCopyArea a).1.copyArea2 = regionBase a := by
  unfold CopyState.getCopyArea
  rw [if_neg h1, if_neg h2]
  split_ifs with h3
  · exact h3
  · rfl

/-- A page directory with an entry of its own for one region. -/
def dirWith (i : Nat) : Nat → Word := fun j => if j = i then 0x1 else 0x1001

/-- A state in which the areas are recorded from an aborted transfer, and the windows dropped. -/
def abortedWith (a1 a2 : Nat) (d : Nat → Word) : CopyState := ⟨a1, a2, false, false, fun _ => 0, d⟩

lemma begins_aborted (a1 a2 : Nat) (d : Nat → Word) : Begins (abortedWith a1 a2 d) := by
  have h0 : ¬Present 0 := by decide
  exact .inr fun _ _ => h0

/-- **The header is lost**: with the second area taken by it, another region moves that area. -/
lemma not_copySound (h1 : a1 ≠ copyareaInvalid) (h2 : a1 ≠ regionBase h) (h3 : a ∈ rest)
    (h4 : regionBase a ≠ a1) (h5 : regionBase a ≠ regionBase h) : ¬CopySound a1 a2 h rest := by
  intro hsound
  obtain ⟨l, l', rfl⟩ := List.append_of_mem h3
  have hrun : ∃ s last k, CopyRun (abortedWith a1 a2 (dirWith (pgdirIdx a))) h l s ⟨h, k⟩ last ∧
      pgdirIdx k = 906 ∧ ¬k < memCopyarea2 ∧ s.copyArea1 = a1 ∧ s.pgdirTo = dirWith (pgdirIdx a) :=
    exists_copyRun h1 h2 l
  obtain ⟨s, last, k, hr, hk, hge, harea, hdir⟩ := hrun
  have hreach := (hsound _ (begins_aborted a1 a2 _) rfl rfl (l ++ [a]) ⟨l',
    by simp⟩ _ _ _ (hr.get a)).1
  have harea2 : (s.getCopyArea a).1.copyArea2 = regionBase a :=
    copyArea2_get (by rwa [harea]) (by rw [harea]; exact h4.symm)
  have hto : (s.getCopyArea a).1.pgdirTo = dirWith (pgdirIdx a) :=
    (pgdirTo_getCopyArea s a).trans hdir
  generalize (s.getCopyArea a).1 = t at hreach harea2 hto
  -- a fault at the header leads to the entry for `a`
  have hfault : SameEntry ((t.copyFault k (dirWith (pgdirIdx a))).pgdirFrom 906)
      ((t.copyFault k (dirWith (pgdirIdx a))).pgdirTo (pgdirIdx t.copyArea2)) :=
    copyFault_entry2 hge Nat.zero_lt_two (dirWith (pgdirIdx a))
  have hheader : SameEntry ((t.copyFault k (dirWith (pgdirIdx a))).pgdirFrom (pgdirIdx k))
      ((t.copyFault k (dirWith (pgdirIdx a))).pgdirTo (pgdirIdx h)) :=
    (hreach 0 (by decide)).2 (dirWith (pgdirIdx a))
  rw [hk] at hheader
  have hboth := hfault.symm.trans hheader
  rw [harea2, pgdirIdx_regionBase, pgdirTo_copyFault hto] at hboth
  have hidx : pgdirIdx h ≠ pgdirIdx a := fun he => h5 (congrArg (fun i => i * 2 ^ 22) he.symm)
  rw [dirWith, dirWith, if_pos rfl, if_neg hidx] at hboth
  exact absurd hboth (by decide)

/-- **When the copy areas are sound**: the long IPC begins with no area recorded, as when the last
one has freed them; or the first area happens to be recorded with the region of the header; or no
string lies elsewhere than in the region of that area or of the header. -/
theorem copyArea_sound_iff (a1 a2 h : Nat) (rest : List Nat) :
    CopySound a1 a2 h rest ↔ HeaderKept a1 h rest := by
  constructor
  · intro hsound
    by_contra hk
    simp only [HeaderKept, not_or, not_forall] at hk
    obtain ⟨h1, h2, b, hb, hb1, hb2⟩ := hk
    exact not_copySound h1 h2 hb hb1 hb2 hsound
  · intro hk s0 hbegins h1 h2 l hl s hd last hr
    have hok := hbegins.windowsOk.run hr
    obtain ⟨hlast, haddr, hhd⟩ := hr.backed (h1 ▸ hk.of_isPrefix hl)
    have hbacked : Backed s hd := by
      rw [Backed, haddr]
      exact hhd.imp_right fun h => ⟨h.1, h.2.1⟩
    exact ⟨hbacked.reaches hok, hlast.reaches hok⟩

/-- The first area is still recorded from a transfer to 0x400000 that was aborted; the header is at
0x800000, and a string at 0xc00000 takes its window. -/
theorem copyArea_sound_aborted : Begins (abortedWith 0x400000 copyareaInvalid (dirWith 3)) ∧
    ¬CopySound 0x400000 copyareaInvalid 0x800000 [0xc00000] :=
  ⟨begins_aborted _ _ _,
    not_copySound (a := 0xc00000) (by decide) (by decide) (by simp) (by decide) (by decide)⟩

end Hazelnut

import Mathlib.Logic.Function.Basic

/-!
Lazy switching of the floating point unit, after `handle_nm_exception` of
`kernel/src/x86/interrupt.c`, `kernel/src/x86/resources.c` and the deletion of threads in
`kernel/src/thread.c`.

* `FpuSys`: the unit, its owner, and what the thread control blocks say about it.  Of the
  resources of a thread only `TR_FPU` is kept.  The state of the unit is any type; it is
  what `finit` initialises.
* `FpuConf`: with `CONFIG_IA32_FEATURE_FXSR` the state is saved by `fxsave`, which leaves
  it in the unit, else by `fnsave`, which initialises the unit.
* `handleNm`, `saveFpuState`, `saveResources`, `purgeResources`, `freeResources`: the
  functions of the source.  Whatever uses the unit while it is disabled traps first.
* `fpu_transparent`: threads find the state they left, as long as no thread is deleted that
  owns the unit.
-/

namespace Hazelnut

/-- How the state is saved, and the state after `finit`. -/
structure FpuConf (F : Type*) where
  fxsr : Bool
  init : F

/-- What concerns the unit in a thread control block: `TR_FPU` in `resources`; whether there
is a save area (`fpu_ptr`, or `fpu_used`), and what it holds. -/
structure FpuTcb (F : Type*) where
  trFpu : Bool
  used : Bool
  area : F

/-- The unit, `fpu_owner`, and the threads. -/
structure FpuSys (T F : Type*) where
  hw : F
  enabled : Bool
  owner : Option T
  current : T
  present : T → Bool
  tcb : T → FpuTcb F

namespace FpuSys

variable {T F : Type*} [DecidableEq T] (cf : FpuConf F) (s : FpuSys T F)

def upd (t : T) (x : FpuTcb F) : FpuSys T F := { s with tcb := Function.update s.tcb t x }

/-- `fnsave` or `fxsave` into the save area of `t`, with the unit enabled. -/
def store (t : T) : FpuSys T F :=
  { s.upd t { s.tcb t with area := s.hw } with hw := if cf.fxsr then s.hw else cf.init }

/-- `handle_nm_exception`, for the current thread. -/
def handleNm : FpuSys T F :=
  let s := { s with enabled := true }
  let s := s.upd s.current { s.tcb s.current with trFpu := true }
  if s.owner = some s.current then s
  else
    let s := match s.owner with
      | some o => s.store cf o
      | none => s
    let s := if (s.tcb s.current).used then { s with hw := (s.tcb s.current).area }
      else { s.upd s.current { s.tcb s.current with used := true } with hw := cf.init }
    { s with owner := some s.current }

/-- Whatever uses the unit traps first if it is disabled. -/
def trap : FpuSys T F := if s.enabled then s else s.handleNm cf

/-- `save_fpu_state`, for the save area of `t`. -/
def saveFpuState (t : T) : FpuSys T F := (s.trap cf).store cf t

/-- An instruction of the current thread that uses the unit. -/
def instr (op : F → F) : FpuSys T F :=
  let s := s.trap cf
  { s with hw := op s.hw }

/-- `save_resources`. -/
def saveResources : FpuSys T F :=
  if (s.tcb s.current).trFpu then
    { s.upd s.current { s.tcb s.current with trFpu := false } with enabled := false }
  else s

/-- `switch_to_thread`. -/
def switchTo (t : T) : FpuSys T F := { s.saveResources with current := t }

/-- `init_resources`, and the resources of a new thread. -/
def initResources (t : T) : FpuSys T F :=
  s.upd t { s.tcb t with trFpu := false, used := false }

/-- `purge_resources`. -/
def purgeResources (t : T) : FpuSys T F :=
  if s.owner = some t then { s.saveFpuState cf t with owner := none } else s

/-- `free_resources`. -/
def freeResources (t : T) : FpuSys T F :=
  let s := if cf.fxsr then s.upd t { s.tcb t with used := false } else s
  if s.owner = some t then { s with owner := none } else s

/-- `create_tcb`. -/
def createTcb (t : T) : FpuSys T F :=
  { s.initResources t with present := Function.update s.present t true }

/-- `free_thread` and `free_tcb`. -/
def deleteTcb (t : T) : FpuSys T F :=
  let s := (s.purgeResources cf t).freeResources cf t
  { s with present := Function.update s.present t false }

end FpuSys

/-! ### Runs -/

/-- What the threads do.  The deletion of a task is the deletion of its threads. -/
inductive FpuEvent (T F : Type*) where
  | instr (op : F → F)
  | switch (t : T)
  | create (t : T)
  | delete (t : T)

/-- A run: the system, and what every thread has left in the unit. -/
structure FpuRun (T F : Type*) where
  sys : FpuSys T F
  left : T → F

namespace FpuRun

variable {T F : Type*} [DecidableEq T] (cf : FpuConf F) (x : FpuRun T F)

/-- A thread that is there is switched to, an absent one created, and one that is there and
not current deleted. -/
def Ok : FpuEvent T F → Prop
  | .instr _ => True
  | .switch t => x.sys.present t = true
  | .create t => x.sys.present t = false
  | .delete t => x.sys.present t = true ∧ t ≠ x.sys.current

instance : DecidablePred x.Ok
  | .instr _ => inferInstanceAs (Decidable True)
  | .switch _ => inferInstanceAs (Decidable (_ = _))
  | .create _ => inferInstanceAs (Decidable (_ = _))
  | .delete _ => inferInstanceAs (Decidable (_ ∧ _))

/-- No thread is deleted that owns the unit. -/
def Spares : FpuEvent T F → Prop
  | .delete t => x.sys.owner ≠ some t
  | _ => True

instance : DecidablePred x.Spares
  | .delete _ => inferInstanceAs (Decidable (_ ≠ _))
  | .instr _ => inferInstanceAs (Decidable True)
  | .switch _ => inferInstanceAs (Decidable True)
  | .create _ => inferInstanceAs (Decidable True)

def step : FpuEvent T F → FpuRun T F
  | .instr op =>
    let s := x.sys.instr cf op
    ⟨s, Function.update x.left x.sys.current s.hw⟩
  | .switch t => { x with sys := x.sys.switchTo t }
  | .create t => ⟨x.sys.createTcb t, Function.update x.left t cf.init⟩
  | .delete t => { x with sys := x.sys.deleteTcb cf t }

/-- An instruction of the current thread finds what the thread has left. -/
def Transparent : Prop := (x.sys.trap cf).hw = x.left x.sys.current

instance [DecidableEq F] : Decidable (x.Transparent cf) := inferInstanceAs (Decidable (_ = _))

end FpuRun

/-- The threads at boot, none of which has used the unit yet. -/
def bootFpu {T F : Type*} (cf : FpuConf F) (hw : F) (current : T) (present : T → Bool) :
    FpuRun T F where
  sys :=
    { hw := hw
      enabled := false
      owner := none
      current := current
      present := present
      tcb := fun _ => ⟨false, false, hw⟩ }
  left := fun _ => cf.init

/-- The states of the runs in which every step meets `P`. -/
inductive FpuReach {T F : Type*} [DecidableEq T] (cf : FpuConf F)
    (P : FpuRun T F → FpuEvent T F → Prop) : FpuRun T F → Prop
  | boot {hw : F} {current : T} {present : T → Bool} (hc : present current = true) :
      FpuReach cf P (bootFpu cf hw current present)
  | step {x : FpuRun T F} {e : FpuEvent T F} (h : FpuReach cf P x) (hok : x.Ok e) (hp : P x e) :
      FpuReach cf P (x.step cf e)

/-! ### The invariant -/

variable {T F : Type*} {cf : FpuConf F} {x : FpuRun T F} {t : T}

/-- Where the state of every thread is: in the unit if the thread owns it, else in its save
area.  The unit is enabled for the current thread only, which then owns it. -/
structure FpuInv (cf : FpuConf F) (x : FpuRun T F) : Prop where
  trFpu : ∀ t, (x.sys.tcb t).trFpu = true ↔ x.sys.enabled = true ∧ t = x.sys.current
  enabled : x.sys.enabled = true → x.sys.owner = some x.sys.current
  owner : ∀ t, x.sys.owner = some t →
    x.sys.present t = true ∧ (x.sys.tcb t).used = true ∧ x.sys.hw = x.left t
  saved : ∀ t, x.sys.present t = true → x.sys.owner ≠ some t →
    if (x.sys.tcb t).used then (x.sys.tcb t).area = x.left t else x.left t = cf.init
  current : x.sys.present x.sys.current = true

section handler

variable [DecidableEq T] {s : FpuSys T F}

/-- What the handler does where another thread, or none, owns the unit. -/
lemma handleNm_other (cf : FpuConf F) (h : s.owner ≠ some s.current) :
    (s.handleNm cf).enabled = true ∧ (s.handleNm cf).owner = some s.current ∧
      (s.handleNm cf).current = s.current ∧ (s.handleNm cf).present = s.present ∧
      (s.handleNm cf).hw =
        (if (s.tcb s.current).used then (s.tcb s.current).area else cf.init) ∧
      (s.handleNm cf).tcb s.current = ⟨true, true, (s.tcb s.current).area⟩ ∧
      ∀ t, t ≠ s.current → (s.handleNm cf).tcb t =
        if s.owner = some t then { s.tcb t with area := s.hw } else s.tcb t := by
  cases ho : s.owner with
  | none =>
      by_cases hu : (s.tcb s.current).used = true
      · simp +contextual [FpuSys.handleNm, FpuSys.upd, ho, hu]
      · simp +contextual [FpuSys.handleNm, FpuSys.upd, ho, hu]
  | some o =>
      have hne : o ≠ s.current := fun he => h (by rw [ho, he])
      have hstored : ∀ t, t ≠ s.current → ∀ a : FpuTcb F,
          Function.update (Function.update s.tcb s.current a) o
            { s.tcb o with area := s.hw } t =
          if o = t then { s.tcb t with area := s.hw } else s.tcb t := by
        intro t ht a
        by_cases hot : o = t
        · subst hot
          simp
        · simp [hot, ht, Ne.symm hot]
      by_cases hu : (s.tcb s.current).used = true
      · simp +contextual [FpuSys.handleNm, FpuSys.upd, FpuSys.store, ho, hu, hne, hne.symm, hstored]
      · simp +contextual [FpuSys.handleNm, FpuSys.upd, FpuSys.store, ho, hu, hne, hne.symm, hstored]

end handler

namespace FpuInv

lemma boot {hw : F} {current : T} {present : T → Bool} (hc : present current = true) :
    FpuInv cf (bootFpu cf hw current present) where
  trFpu := by simp [bootFpu]
  enabled := by simp [bootFpu]
  owner := by simp [bootFpu]
  saved := by simp [bootFpu]
  current := hc

/-- While the unit is disabled no thread has it among its resources. -/
lemma off (h : FpuInv cf x) (he : x.sys.enabled ≠ true) (t : T) : (x.sys.tcb t).trFpu = false := by
  have := h.trFpu t
  simpa [he] using this

variable [DecidableEq T]

/-- **The trap.**  Afterwards the unit is enabled, and holds the state of the current
thread. -/
lemma handleNm (h : FpuInv cf x) (he : x.sys.enabled ≠ true) :
    FpuInv cf { x with sys := x.sys.handleNm cf } ∧ (x.sys.handleNm cf).enabled = true ∧
      (x.sys.handleNm cf).current = x.sys.current := by
  have hoff := h.off he
  by_cases hown : x.sys.owner = some x.sys.current
  · have heq : x.sys.handleNm cf = { x.sys.upd x.sys.current
        { x.sys.tcb x.sys.current with trFpu := true } with enabled := true } := by
      simp [FpuSys.handleNm, FpuSys.upd, hown]
    rw [heq]
    refine ⟨⟨fun t => ?_, fun _ => hown, fun t ht => ?_, fun t ht hne => ?_, h.current⟩, rfl, rfl⟩
    · by_cases hc : t = x.sys.current
      · simp [FpuSys.upd, hc]
      · simp [FpuSys.upd, hc, hoff]
    · have hold := h.owner t ht
      by_cases hc : t = x.sys.current
      · subst hc
        simpa [FpuSys.upd] using hold
      · simpa [FpuSys.upd, hc] using hold
    · have hold := h.saved t ht hne
      by_cases hc : t = x.sys.current
      · exact absurd (hc ▸ hown) hne
      · simpa [FpuSys.upd, hc] using hold
  · obtain ⟨hen, howner, hcur, hpres, hhw, htcb, hother⟩ := handleNm_other cf hown
    have hleft : (x.sys.handleNm cf).hw = x.left x.sys.current := by
      have hold := h.saved _ h.current hown
      rw [hhw]
      split at hold
      · rename_i hu
        rw [if_pos hu, hold]
      · rename_i hu
        rw [if_neg hu, hold]
    refine ⟨⟨fun t => ?_, fun _ => ?_, fun t ht => ?_, fun t ht hne => ?_, ?_⟩, hen, hcur⟩
    · by_cases hc : t = x.sys.current
      · simp [hc, htcb, hen, hcur]
      · have ho := hother t hc
        have : ((x.sys.handleNm cf).tcb t).trFpu = false := by
          rw [ho]
          split <;> exact hoff t
        simp [this, hcur, hc]
    · exact howner.trans (congrArg some hcur.symm)
    · obtain rfl : x.sys.current = t := Option.some.inj (howner.symm.trans ht)
      exact ⟨by rw [hpres]; exact h.current, by rw [htcb], hleft⟩
    · have hc : t ≠ x.sys.current := fun he => hne (by rw [howner, he])
      have hpt : x.sys.present t = true := by rw [← hpres]; exact ht
      simp only [hother t hc]
      by_cases hot : x.sys.owner = some t
      · obtain ⟨-, hu, heq⟩ := h.owner t hot
        simp [hot, hu, heq]
      · have hold := h.saved t hpt hot
        simpa [hot] using hold
    · simp only [hcur, hpres]
      exact h.current

lemma trap (h : FpuInv cf x) :
    FpuInv cf { x with sys := x.sys.trap cf } ∧ (x.sys.trap cf).enabled = true ∧
      (x.sys.trap cf).current = x.sys.current := by
  unfold FpuSys.trap
  split
  · rename_i he
    exact ⟨h, he, rfl⟩
  · rename_i he
    exact h.handleNm he

/-- An instruction finds the state the thread has left. -/
lemma transparent (h : FpuInv cf x) : x.Transparent cf := by
  obtain ⟨hinv, hen, hcur⟩ := h.trap
  have hown := hinv.enabled hen
  have hleft := (hinv.owner _ hown).2.2
  rw [FpuRun.Transparent, ← hcur]
  exact hleft

lemma instr (h : FpuInv cf x) (op : F → F) : FpuInv cf (x.step cf (.instr op)) := by
  obtain ⟨hinv, hen, hcur⟩ := h.trap
  have hown := hinv.enabled hen
  refine ⟨hinv.trFpu, hinv.enabled, fun t ht => ?_, fun t ht hne => ?_, hinv.current⟩
  · obtain rfl : (x.sys.trap cf).current = t := Option.some.inj (hown.symm.trans ht)
    obtain ⟨h1, h2, -⟩ := hinv.owner _ hown
    refine ⟨h1, h2, ?_⟩
    simp only [FpuRun.step, hcur, Function.update_self]
  · have hc : t ≠ x.sys.current := fun he => hne (by
      have : (x.sys.trap cf).owner = some t := by rw [hown, hcur, he]
      exact this)
    have hold := hinv.saved t ht hne
    simpa only [FpuRun.step, FpuSys.instr, Function.update_of_ne hc] using hold

lemma switch (h : FpuInv cf x) (ht : x.sys.present t = true) :
    FpuInv cf (x.step cf (.switch t)) := by
  by_cases hen : x.sys.enabled = true
  · have htr : (x.sys.tcb x.sys.current).trFpu = true := (h.trFpu _).mpr ⟨hen, rfl⟩
    have heq : x.sys.switchTo t = { x.sys.upd x.sys.current
        { x.sys.tcb x.sys.current with trFpu := false } with enabled := false, current := t } := by
      simp [FpuSys.switchTo, FpuSys.saveResources, htr]
    rw [FpuRun.step, heq]
    refine ⟨fun q => ?_, fun he => ?_, fun q hq => ?_, fun q hq hne => ?_, ht⟩
    · by_cases hc : q = x.sys.current
      · simp [FpuSys.upd, hc]
      · have := h.trFpu q
        simpa [FpuSys.upd, hc] using this
    · simp at he
    · have hold := h.owner q hq
      by_cases hc : q = x.sys.current
      · subst hc
        simpa [FpuSys.upd] using hold
      · simpa [FpuSys.upd, hc] using hold
    · have hold := h.saved q hq hne
      by_cases hc : q = x.sys.current
      · exact absurd (hc ▸ h.enabled hen) hne
      · simpa [FpuSys.upd, hc] using hold
  · have htr : (x.sys.tcb x.sys.current).trFpu = false := h.off hen _
    have heq : x.sys.switchTo t = { x.sys with current := t } := by
      simp [FpuSys.switchTo, FpuSys.saveResources, htr]
    rw [FpuRun.step, heq]
    refine ⟨fun q => ?_, fun he => absurd he hen, h.owner, h.saved, ht⟩
    simp [h.off hen, hen]

lemma create (h : FpuInv cf x) (ht : x.sys.present t = false) :
    FpuInv cf (x.step cf (.create t)) := by
  have hne : ∀ q, x.sys.present q = true → q ≠ t := by
    rintro q hq rfl
    rw [ht] at hq
    exact Bool.false_ne_true hq
  refine ⟨fun q => ?_, h.enabled, fun q hq => ?_, fun q hq hno => ?_, ?_⟩
  · by_cases hq : q = t
    · subst hq
      simp [FpuRun.step, FpuSys.createTcb, FpuSys.initResources, FpuSys.upd,
        (hne _ h.current).symm]
    · have := h.trFpu q
      simpa [FpuRun.step, FpuSys.createTcb, FpuSys.initResources, FpuSys.upd, hq] using this
  · have hold := h.owner q hq
    have hqt := hne q hold.1
    simpa [FpuRun.step, FpuSys.createTcb, FpuSys.initResources, FpuSys.upd, hqt] using hold
  · by_cases hqt : q = t
    · subst hqt
      simp [FpuRun.step, FpuSys.createTcb, FpuSys.initResources, FpuSys.upd]
    · have hold := h.saved q (by
        simpa [FpuRun.step, FpuSys.createTcb, FpuSys.initResources, FpuSys.upd, hqt] using hq) hno
      simpa [FpuRun.step, FpuSys.createTcb, FpuSys.initResources, FpuSys.upd, hqt] using hold
  · have hc := h.current
    simp [FpuRun.step, FpuSys.createTcb, FpuSys.initResources, FpuSys.upd, hne _ hc, hc]

/-- A thread that does not own the unit is deleted. -/
lemma delete (h : FpuInv cf x) (hc : t ≠ x.sys.current) (ho : x.sys.owner ≠ some t) :
    FpuInv cf (x.step cf (.delete t)) := by
  have htcb : ∀ q, q ≠ t → (x.sys.deleteTcb cf t).tcb q = x.sys.tcb q := by
    intro q hq
    cases hf : cf.fxsr <;>
      simp [FpuSys.deleteTcb, FpuSys.purgeResources, FpuSys.freeResources, ho, hf, FpuSys.upd, hq]
  have hrest : (x.sys.deleteTcb cf t).owner = x.sys.owner ∧
      (x.sys.deleteTcb cf t).enabled = x.sys.enabled ∧
      (x.sys.deleteTcb cf t).hw = x.sys.hw ∧
      (x.sys.deleteTcb cf t).current = x.sys.current ∧
      (x.sys.deleteTcb cf t).present = Function.update x.sys.present t false ∧
      ((x.sys.deleteTcb cf t).tcb t).trFpu = (x.sys.tcb t).trFpu := by
    cases hf : cf.fxsr <;>
      simp [FpuSys.deleteTcb, FpuSys.purgeResources, FpuSys.freeResources, ho, hf, FpuSys.upd]
  obtain ⟨hown, hen, hhw, hcur, hpres, htr⟩ := hrest
  refine ⟨fun q => ?_, fun he => ?_, fun q hq => ?_, fun q hq hno => ?_, ?_⟩
  · simp only [FpuRun.step, hen, hcur]
    by_cases hq : q = t
    · subst hq
      rw [htr]
      exact h.trFpu q
    · rw [htcb q hq]
      exact h.trFpu q
  · simp only [FpuRun.step, hen, hown, hcur] at he ⊢
    exact h.enabled he
  · simp only [FpuRun.step, hown] at hq
    have hqt : q ≠ t := fun he => ho (he ▸ hq)
    simp only [FpuRun.step, hpres, htcb q hqt, hhw, Function.update_of_ne hqt]
    exact h.owner q hq
  · simp only [FpuRun.step, hpres, hown] at hq hno
    have hqt : q ≠ t := by
      rintro rfl
      simp at hq
    rw [Function.update_of_ne hqt] at hq
    simp only [FpuRun.step, htcb q hqt]
    exact h.saved q hq hno
  · simp only [FpuRun.step, hcur, hpres, Function.update_of_ne (Ne.symm hc)]
    exact h.current

lemma step (h : FpuInv cf x) {e : FpuEvent T F} (hok : x.Ok e) (hsp : x.Spares e) :
    FpuInv cf (x.step cf e) := by
  cases e with
  | instr op => exact h.instr op
  | switch t => exact h.switch hok
  | create t => exact h.create hok
  | delete t => exact h.delete hok.2 hsp

end FpuInv

lemma FpuReach.inv [DecidableEq T] (h : FpuReach cf FpuRun.Spares x) : FpuInv cf x := by
  induction h with
  | boot hc => exact .boot hc
  | step _ hok hsp ih => exact ih.step hok hsp

/-! ### Transparency -/

/-- **Lazy switching is transparent** as long as no thread is deleted that owns the unit: in
every state reached, an instruction of the current thread finds the state the thread has
left, or the initial one. -/
theorem fpu_transparent [DecidableEq T] (h : FpuReach cf FpuRun.Spares x) : x.Transparent cf :=
  h.inv.transparent

/-! ### The owner is deleted -/

/-- Three threads, with or without `fxsave`. -/
def threeFpu (fxsr : Bool) : FpuRun (Fin 3) Nat := bootFpu ⟨fxsr, 0⟩ 0 0 fun _ => true

/-- Thread 0 deletes thread 1 while that owns the unit, and goes on using the unit itself; so
does thread 2. -/
def ownerDeleted : List (FpuEvent (Fin 3) Nat) :=
  [.instr fun _ => 5, .switch 1, .instr fun _ => 6, .switch 0, .delete 1, .instr fun _ => 7,
    .switch 2, .instr fun _ => 8, .switch 0]

/-- The events can happen one after the other, and meet a condition. -/
def FpuRun.OkAll [DecidableEq T] (cf : FpuConf F) (ok : FpuRun T F → FpuEvent T F → Prop) :
    FpuRun T F → List (FpuEvent T F) → Prop
  | _, [] => True
  | x, e :: es => x.Ok e ∧ ok x e ∧ OkAll cf ok (x.step cf e) es

instance FpuRun.decidableOkAll [DecidableEq T] (cf : FpuConf F)
    (ok : FpuRun T F → FpuEvent T F → Prop) [∀ x e, Decidable (ok x e)] :
    ∀ (x : FpuRun T F) (es : List (FpuEvent T F)), Decidable (x.OkAll cf ok es)
  | _, [] => inferInstanceAs (Decidable True)
  | x, e :: es =>
    have := FpuRun.decidableOkAll cf ok (x.step cf e) es
    inferInstanceAs (Decidable (_ ∧ _ ∧ _))

/-- A run given by its events. -/
lemma FpuReach.run [DecidableEq T] {ok : FpuRun T F → FpuEvent T F → Prop} (h : FpuReach cf ok x)
    {l : List (FpuEvent T F)} (hl : x.OkAll cf ok l) :
    FpuReach cf ok (l.foldl (FpuRun.step cf) x) := by
  induction l generalizing x with
  | nil => exact h
  | cons e l ih => exact ih (.step h hl.1 hl.2.1) hl.2.2

/-- Threads 0 and 1 use the unit by turns; thread 2 deletes thread 1, which is not the owner, and
uses the unit, too. -/
def otherDeleted : List (FpuEvent (Fin 3) Nat) :=
  [.instr fun _ => 5, .switch 1, .instr fun _ => 6, .switch 0, .instr (· + 1), .switch 2, .delete 1,
    .instr fun _ => 8, .switch 0]

/-- Thread 0 finds what it has left, which is neither in the unit nor the initial state. -/
theorem fpu_transparent_three :
    FpuReach ⟨true, 0⟩ FpuRun.Spares (otherDeleted.foldl (FpuRun.step ⟨true, 0⟩) (threeFpu true)) ∧
    (otherDeleted.foldl (FpuRun.step ⟨true, 0⟩) (threeFpu true)).left 0 = 6 ∧
    (otherDeleted.foldl (FpuRun.step ⟨true, 0⟩) (threeFpu true)).sys.hw = 8 ∧
    (otherDeleted.foldl (FpuRun.step ⟨true, 0⟩) (threeFpu true)).Transparent ⟨true, 0⟩ := by
  have h : FpuReach ⟨true, 0⟩ FpuRun.Spares
      (otherDeleted.foldl (FpuRun.step ⟨true, 0⟩) (threeFpu true)) :=
    FpuReach.run (x := threeFpu true) (.boot rfl) (by decide)
  exact ⟨h, by decide, by decide, fpu_transparent h⟩

/-- In both configurations a thread finds another state than it has left. -/
theorem fpu_owner_deleted :
    (∃ x : FpuRun (Fin 3) Nat, FpuReach ⟨true, 0⟩ (fun _ _ => True) x ∧
      ¬ x.Transparent ⟨true, 0⟩) ∧
    ∃ x : FpuRun (Fin 3) Nat, FpuReach ⟨false, 0⟩ (fun _ _ => True) x ∧
      ¬ x.Transparent ⟨false, 0⟩ := by
  refine ⟨⟨_, FpuReach.run (x := threeFpu true) (l := ownerDeleted) (.boot rfl) ?_, ?_⟩,
    ⟨_, FpuReach.run (x := threeFpu false) (l := ownerDeleted) (.boot rfl) ?_, ?_⟩⟩
  · decide
  · decide
  · decide
  · decide

end Hazelnut

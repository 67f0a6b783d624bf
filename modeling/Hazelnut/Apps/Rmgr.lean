import Hazelnut.Apps.Reserve

/-!
The resource manager, after `pager` of `apps/rmgr/src/memmap.c` and `RMGR_MEM` in `rmgr.c`.

* `pager`: one turn of the loop of the pager; `memFree` and `reserveRange` are those of the
  supervisor.
* `serve`: a request of a task to one of the threads.  They serve one after another, as
  `memmap_lock_serial` says.
* `Ok`: what holds between two requests.
* `rmgr_run`: it does so in every run, where pages have one owner and quotas count them.
* `memFree_eq_none`: where the supervisor looks beyond its tables.

Left out: `RMGR_MEM_INFO`, which prints, `RMGR_MEM_FREE_FP`, which refuses, and
`RMGR_MEM_GET_PAGE0`, which maps page 0 to anybody.
-/

namespace Hazelnut.Rmgr

open Ledger Memmap

/-- Options and sizes from the boot loader, and the page of `l4_info`. -/
structure Config where
  memLower : Nat
  noPentium : Bool
  noCheckdpf : Bool
  infoPage : Nat

/-- The memory map, and `last_pf` as `pfa` and `eip`. -/
structure Server where
  map : Memmap
  lastPf : Nat → Nat × Nat

/-- What is sent back: words, or a flexpage. -/
inductive Reply where
  | msg (d1 d2 : Nat)
  | kernelInfo
  | page (a : Nat)
  | superpage (a : Nat)
  /-- the superpage at `a` from another address -/
  | grant (a : Nat)
  | ioSpace (pfa : Nat)
  deriving DecidableEq, Repr

def pageMask (a : Nat) : Nat := a / pageSize * pageSize
def superpageMask (a : Nat) : Nat := a / superpageSize * superpageSize

/-- `L4_LOG2_SUPERPAGESIZE << 2`. -/
def superpageRequest : Nat := 88

/-- From `access_violation` on.  The message about a double fault asks for quota, too. -/
def accessViolation (c : Config) (s : Server) (t d1 d2 : Nat) : Option (Reply × Server) :=
  if d2 ≠ superpageRequest ∧ c.noCheckdpf = false then
    if s.lastPf t = (d1, d2) then
      let d1 := pageMask d1
      let last := Function.update s.lastPf t (d1, d2)
      if d1 < s.map.memHigh then
        (s.map.ownerPage d1).map fun _ =>
          (.msg 0 0, { map := (s.map.quotaAlloc t d1 pageSize).getD s.map, lastPf := last })
      else some (.msg 0 0, { s with lastPf := last })
    else some (.msg 0 0, { s with lastPf := Function.update s.lastPf t (d1, d2) })
  else some (.msg d1 d2, s)

/-- A single page, or what is done without it. -/
def pageRequest (c : Config) (s : Server) (t d1 d2 : Nat) : Option (Reply × Server) :=
  (s.map.allocPage d1 t).bind fun x =>
    let s := { s with map := x.2 }
    if x.1 then some (.page (pageMask d1), s)
    else if c.memLower * 1024 ≤ d1 / 4 * 4 ∧
      d1 / 4 * 4 < 0x100000 then some (.page (pageMask d1), s)
    else accessViolation c s t d1 d2

/-- One turn of the loop of `pager`. -/
def pager (c : Config) (s : Server) (t d1 d2 : Nat) : Option (Reply × Server) :=
  let pfa := d1 / 4 * 4
  if oMax < t then some (.msg 0 0, s)
  else if d1 = 0xfffffffc then
    (s.map.findFree t).bind fun
      | none => some (.msg 0 0, s)
      | some a => (s.map.allocPage a t).map fun x =>
        (if x.1 then .page a else .msg 0 0, { s with map := x.2 })
  else if d1 = 1 ∧ d2 % 256 = 1 then some (.kernelInfo, s)
  else if pfa < 0x40000000 then
    if s.map.memHigh ≤ pfa ∨ pfa < pageSize then accessViolation c s t d1 d2
    else if d1 % 2 = 1 ∧ d2 = superpageRequest ∧ c.noPentium = false then
      let x := s.map.allocSuperpage pfa t
      if x.1 then some (.superpage (superpageMask d1), { s with map := x.2 })
      else pageRequest c { s with map := x.2 } t d1 d2
    else pageRequest c s t d1 d2
  else if pfa < 0xC0000000 ∧ d1 % 2 = 0 then
    let a := superpageMask pfa + 0x40000000
    let x := s.map.allocSuperpage a t
    some (if x.1 then .grant a else .msg d1 d2, { s with map := x.2 })
  else if 0xF0000000 ≤ pfa ∧ pfa < 0xFFFFF043 then some (.ioSpace pfa, s)
  else some (.msg 0 0, s)

/-- `RMGR_MEM_FREE`. -/
def memFree (s : Server) (t arg : Nat) : Option (Reply × Server) :=
  let fail : Reply := .msg (2 ^ 32 - 1) (2 ^ 32 - 1)
  if 0x40000000 ≤ arg ∧ arg < 0xC0000000 then
    (s.map.ownerPage (arg + 0x40000000)).map fun o =>
      if t ≠ o then (fail, s)
      else
        let x := s.map.freeSuperpage (arg + 0x40000000) t
        (if x.1 then .msg 0 (2 ^ 32 - 1) else fail, { s with map := x.2 })
  else
    (s.map.ownerPage arg).bind fun o =>
      if t ≠ o then some (fail, s)
      else (s.map.freePage arg t).map fun x =>
        (if x.1 then .msg 0 (2 ^ 32 - 1) else fail, { s with map := x.2 })

/-- A request of a task: a message to the pager, or `RMGR_MEM_FREE` or `RMGR_MEM_RESERVE`. -/
inductive Request where
  | fault (d1 d2 : Nat)
  | free (arg : Nat)
  | reserve (sa lo hi : Nat)
  deriving DecidableEq

/-- The answer to a request.  There is none if an access is beyond `__memmap`, or an assertion
fails. -/
def serve (c : Config) (s : Server) (t : Nat) : Request → Option (Reply × Server)
  | .fault d1 d2 => pager c s t d1 d2
  | .free arg => memFree s t arg
  | .reserve sa lo hi =>
    (reserveRange s.map t sa lo hi).bind fun
      | .nothing => some (.msg (2 ^ 32 - 1) (2 ^ 32 - 1), s)
      | .range a m => some (.msg a (2 ^ 32 - 1), { s with map := m })
      | .assertion => none

/-! ### Between two requests -/

/-- What holds between two requests.  The memory from 2 GB on is not reserved. -/
structure Ok (s : Memmap) (lost : Nat → Nat) : Prop extends Good s lost where
  high : ∀ p, 524288 ≤ p → p < 1048576 → s.own p ≠ oReserved

/-- The page is mapped with the reply. -/
def Reply.Maps (c : Config) : Reply → Nat → Prop
  | .kernelInfo, p => p = c.infoPage
  | .page a, p => p = a / pageSize
  | .superpage a, p | .grant a, p => p / 1024 = a / superpageSize
  | _, _ => False

/-- A page of the adapter area. -/
def Config.Adapter (c : Config) (p : Nat) : Prop := c.memLower * 1024 < pageSize * (p + 1) ∧ p < 256

/-- What a request of the task `t` does. -/
structure Served (c : Config) (t : Nat) (s : Server) (lost : Nat → Nat) (r : Reply) (s' : Server)
    (lost' : Nat → Nat) : Prop where
  ok : Ok s'.map lost'
  frame : Frame s.map s'.map
  change : Change t s.map s'.map
  lost : (∀ u, u ≠ t → lost' u = lost u) ∧ lost t ≤ lost' t
  maps : ∀ p, r.Maps c p → s'.map.own p = t ∨ c.Adapter p ∨ p = c.infoPage

/-- A machine with 8 MB. -/
def machine : Server where
  map := small
  lastPf _ := (2 ^ 32 - 1, 2 ^ 32 - 1)

lemma machine_ok : Ok machine.map fun _ => 0 where
  toGood := small_good
  high p hp _ := by
    change small.own p ≠ oReserved
    rw [small_own, if_pos (.inr hp)]
    decide

variable {c : Config} {s s' : Server} {m m' : Memmap} {lost lost' : Nat → Nat} {t d1 d2 a : Nat}
    {r : Reply}

/-- The pages of a range that was found were nobody's. -/
lemma Wanted.change {sa lo hi : Nat} (h : Wanted m t sa lo hi (some a)) (hm : Taken m t sa a m') :
    Change t m m' := by
  have hfits := h.fitsRange
  intro p
  rw [hm]
  by_cases hp : a / pageSize ≤ p ∧ p < a / pageSize + reserveSize sa / pageSize
  · have := (hfits.2 (p - a / pageSize) (by omega)).2.2.1
    rw [Nat.add_mul_div_left _ _ (by decide), Nat.add_sub_cancel' hp.1] at this
    exact .inr (.inl ⟨this, if_pos hp⟩)
  · exact .inl (if_neg hp)

lemma Ok.of_change (h : Ok m lost) (ht : 2 ≤ t) (hg : Good m' lost') (hc : Change t m m') :
    Ok m' lost' where
  toGood := hg
  high p hp hlt := by
    have h₁ : oFree ≠ oReserved := by decide
    have h₂ : t ≠ oReserved := by unfold oReserved; omega
    rcases hc p with ho | ⟨-, ho⟩ | ⟨-, ho⟩ <;> rw [ho]
    exacts [h.high p hp hlt, h₂, h₁]

lemma Memmap.Change.refl : Change t m m := fun _ => .inl rfl

lemma Served.refl (h : Ok s.map lost) (hs : s'.map = s.map) (hr : ∀ p, ¬r.Maps c p) :
    Served c t s lost r s' lost where
  ok := hs ▸ h
  frame := hs ▸ .refl
  change := hs ▸ .refl
  lost := ⟨fun _ _ => rfl, le_rfl⟩
  maps p hp := absurd hp (hr p)

/-- The step before it did not change owners. -/
lemma Served.of_own {s₀ : Server} (h : Served c t s lost r s' lost') (hf : Frame s₀.map s.map)
    (ho : s.map.own = s₀.map.own) : Served c t s₀ lost r s' lost' where
  ok := h.ok
  frame := hf.trans h.frame
  change p := by
    have := h.change p
    rwa [ho] at this
  lost := h.lost
  maps := h.maps

lemma accessViolation_spec (c : Config) (d1 d2 : Nat) (h : Ok s.map lost) (ht : 2 ≤ t) :
    ∃ r s' lost', accessViolation c s t d1 d2 = some (r, s') ∧ Served c t s lost r s' lost' := by
  have hmsg : ∀ x y p, ¬(Reply.msg x y).Maps c p := fun _ _ _ hp => hp
  unfold accessViolation
  split_ifs with hd hl
  · dsimp only
    split_ifs with hlt
    · obtain ⟨lost', hg, hf, hown, hlost⟩ := h.charge (t := t) ht hlt
      rw [ownerPage_eq (.inl (hlt.trans_le h.shape.le)), Option.map_some]
      refine ⟨_, _, lost', rfl, h.of_change ht hg (.of_eq hown), hf, .of_eq hown, hlost,
        fun p hp => ?_⟩
      exact absurd hp (hmsg _ _ p)
    · exact ⟨_, _, lost, rfl, Served.refl h rfl (hmsg _ _)⟩
  · exact ⟨_, _, lost, rfl, Served.refl h rfl (hmsg _ _)⟩
  · exact ⟨_, _, lost, rfl, .refl h rfl (hmsg _ _)⟩

lemma pageMask_div (a : Nat) : pageMask a / pageSize = a / pageSize :=
  Nat.mul_div_left _ (by decide)

lemma pageRequest_spec (h : Ok s.map lost) (ht : 2 ≤ t) (hd : d1 < memMax) :
    ∃ r s' lost', pageRequest c s t d1 d2 = some (r, s') ∧ Served c t s lost r s' lost' := by
  obtain ⟨ok, m, ha, hg, hf, hcase⟩ := h.toGood.allocPage ht hd
  unfold pageRequest
  rw [ha, Option.bind_some]
  dsimp only
  have hpage (hown : m.own (d1 / pageSize) = t) (p : Nat)
    (hp : (Reply.page (pageMask d1)).Maps c p) :
      m.own p = t ∨ c.Adapter p ∨ p = c.infoPage := by
    left
    change p = pageMask d1 / pageSize at hp
    rw [hp, pageMask_div, hown]
  rcases hcase with ⟨rfl, hown, rfl⟩ | ⟨rfl, hfree, -, hown⟩ | ⟨rfl, -, hown⟩
  · exact ⟨_, _, lost, rfl, h, .refl, .refl, ⟨fun _ _ => rfl, le_rfl⟩, hpage hown⟩
  · have hc : Change t s.map m := .of_update hfree hown
    exact ⟨_, _, lost, rfl, h.of_change ht hg hc, hf, hc, ⟨fun _ _ => rfl, le_rfl⟩,
      hpage (by rw [hown, Function.update_self])⟩
  · have hok : Ok m lost := h.of_change ht hg (.of_eq hown)
    simp only [Bool.false_eq_true, if_false]
    split_ifs with had
    · refine ⟨_, _, lost, rfl, hok, hf, .of_eq hown, ⟨fun _ _ => rfl, le_rfl⟩,
        fun p hp => .inr (.inl ?_)⟩
      change p = pageMask d1 / pageSize at hp
      rw [hp, pageMask_div]
      simp only [Config.Adapter, pageSize]
      omega
    · obtain ⟨r, s', lost', hr, hs⟩ := accessViolation_spec
        (s := { s with map := m }) c d1 d2 hok ht
      exact ⟨r, s', lost', hr, hs.of_own hf hown⟩

lemma superpageMask_div (a : Nat) : superpageMask a / superpageSize = a / superpageSize :=
  Nat.mul_div_left _ (by decide)

/-- A superpage is given, or nothing has changed. -/
lemma superpageRequest_spec {x : Bool × Memmap} (h : Ok s.map lost) (ht : 2 ≤ t) (ha : a < 2 ^ 32)
    (hx : s.map.allocSuperpage a t = x)
    (hr : x.1 = true → ∀ p, r.Maps c p → p / 1024 = a / superpageSize)
    (hr' : x.1 = false → ∀ p, ¬r.Maps c p) : Served c t s lost r { s with map := x.2 } lost := by
  obtain ⟨ok, m, hm, hg, hf, hcase⟩ := h.toGood.allocSuperpage ht ha
  rw [hm] at hx
  subst hx
  rcases hcase with ⟨rfl, hfree, hown⟩ | ⟨rfl, rfl⟩
  · have hc : Change t s.map m := .of_block hfree hown
    refine ⟨h.of_change ht hg hc, hf, hc, ⟨fun _ _ => rfl, le_rfl⟩, fun p hp => .inl ?_⟩
    change m.own p = t
    rw [hown]
    exact if_pos (hr rfl p hp)
  · exact .refl h rfl (hr' rfl)

/-- The first free page is one that can be allocated. -/
lemma anyPage_spec (h : Ok s.map lost) (ht : 2 ≤ t) :
    (∃ a m, s.map.findFree t = some (some a) ∧ s.map.allocPage a t = some (true, m) ∧
    s.map.Fits t a ∧
      (∀ b < a, ¬s.map.Fits t b) ∧ Ok m lost ∧ Frame s.map m ∧
      m.own = Function.update s.map.own (a / pageSize) t) ∨
    (s.map.findFree t = some none ∧ ∀ b, ¬s.map.Fits t b) := by
  obtain ⟨a?, hfind, hfirst⟩ := h.shape.findFree t
  cases a? with
  | none => exact .inr ⟨hfind, fun b => hfirst b (Nat.zero_le _)⟩
  | some a =>
    obtain ⟨-, hfits, hno⟩ := hfirst
    obtain ⟨ok, m, ha, hg, hf, hcase⟩ := h.toGood.allocPage ht (hfits.2.1.trans_le h.shape.le)
    have htf : t ≠ oFree := by unfold oFree; omega
    rcases hcase with ⟨-, hown, -⟩ | ⟨rfl, hfree, -, hown⟩ | ⟨-, hcannot, -⟩
    · exact absurd (hown.symm.trans hfits.2.2.1) htf
    · exact .inl ⟨a, m, hfind, ha, hfits, fun b => hno b (Nat.zero_le _),
        h.of_change ht hg (.of_update hfree hown), hf, hown⟩
    · exact absurd ⟨hfits.2.2.1, hfits.2.2.2⟩ hcannot

/-- **Pager**: a page fault leaves the memory map in order, changes owners only from nobody to the
faulting task, or not at all, and maps only pages of the task, or of the adapter area. -/
lemma pager_spec (c : Config) (d2 : Nat) (h : Ok s.map lost) (ht : 2 ≤ t) (hd : d1 < 2 ^ 32) :
    ∃ r s' lost', pager c s t d1 d2 = some (r, s') ∧ Served c t s lost r s' lost' := by
  have hmsg : ∀ x y p, ¬(Reply.msg x y).Maps c p := fun _ _ _ hp => hp
  have hlt : d1 / 4 * 4 < s.map.memHigh → d1 < memMax := fun hlt => by
    have := h.shape.le
    simp only [memMax] at *
    omega
  have hbig : d1 / 4 * 4 < 0xC0000000 → superpageMask (d1 / 4 * 4) + 0x40000000 < 2 ^ 32 := by
    simp only [superpageMask, superpageSize]
    omega
  unfold pager
  dsimp only
  split_ifs with hmax hany hkip hlow hviol hsuper hok hgrant hgiven hio
  · exact ⟨_, _, lost, rfl, .refl h rfl (hmsg _ _)⟩
  · rcases anyPage_spec h ht with ⟨a, m, hfind, ha, hfits, -, hok, hf, hown⟩ | ⟨hfind, -⟩
    · rw [hfind, Option.bind_some]
      dsimp only
      rw [ha, Option.map_some]
      have hc : Change t s.map m := .of_update hfits.2.2.1 hown
      refine ⟨_, _, lost, rfl, hok, hf, hc, ⟨fun _ _ => rfl, le_rfl⟩, fun p hp => .inl ?_⟩
      change p = a / pageSize at hp
      change m.own p = t
      rw [hp, hown, Function.update_self]
    · rw [hfind, Option.bind_some]
      exact ⟨_, _, lost, rfl, .refl h rfl (hmsg _ _)⟩
  · exact ⟨_, _, lost, rfl, h, .refl, .refl, ⟨fun _ _ => rfl, le_rfl⟩, fun p hp => .inr (.inr hp)⟩
  · exact accessViolation_spec c d1 d2 h ht
  · refine ⟨_, _, lost, rfl,
      superpageRequest_spec h ht (a := d1 / 4 * 4) (by omega) rfl (fun _ p hp => ?_)
      fun hno => absurd hok (by simp [hno])⟩
    change p / 1024 = superpageMask d1 / superpageSize at hp
    rw [hp, superpageMask_div]
    simp only [superpageSize]
    omega
  · obtain ⟨ok, m, hm, -, -, hcase⟩ := h.toGood.allocSuperpage (a := d1 / 4 * 4) ht (by omega)
    rcases hcase with ⟨rfl, -, -⟩ | ⟨-, rfl⟩
    · exact absurd (by rw [hm]) hok
    · rw [hm]
      exact pageRequest_spec h ht (hlt (by omega))
  · exact pageRequest_spec h ht (hlt (by omega))
  · exact ⟨_, _, lost, rfl, superpageRequest_spec h ht (hbig hgrant.1) rfl (fun _ p hp => hp)
      fun hno => absurd hgiven (by simp [hno])⟩
  · exact ⟨_, _, lost, rfl,
      superpageRequest_spec h ht (hbig hgrant.1) rfl (fun hyes => absurd hyes hgiven)
      fun _ => hmsg _ _⟩
  · exact ⟨_, _, lost, rfl, .refl h rfl fun _ hp => hp⟩
  · exact ⟨_, _, lost, rfl, .refl h rfl (hmsg _ _)⟩

/-- **Any page**: a task that asks for any page gets the lowest one that is free and in its quota,
and it gets none only if there is none. -/
theorem pager_any_page (h : Ok s.map lost) (ht : 2 ≤ t) (hmax : t ≤ oMax) :
    (∃ a m, pager c s t 0xfffffffc d2 = some (.page a, { s with map := m }) ∧ s.map.Fits t a ∧
      (∀ b < a, ¬s.map.Fits t b) ∧ Ok m lost ∧ m.own = Function.update s.map.own (a / pageSize) t) ∨
    (pager c s t 0xfffffffc d2 = some (.msg 0 0, s) ∧ ∀ b, ¬s.map.Fits t b) := by
  unfold pager
  dsimp only
  rw [if_neg (Nat.not_lt.2 hmax), if_pos rfl]
  rcases anyPage_spec h ht with ⟨a, m, hfind, ha, hfits, hno, hok, -, hown⟩ | ⟨hfind, hno⟩
  · refine .inl ⟨a, m, ?_, hfits, hno, hok, hown⟩
    rw [hfind, Option.bind_some]
    dsimp only
    rw [ha, Option.map_some, if_pos rfl]
  · refine .inr ⟨?_, hno⟩
    rw [hfind, Option.bind_some]

/-- A configuration. -/
def config : Config := ⟨640, false, false, 1⟩

/-- Task 6 has page 0, and task 5 page 1. -/
def machineUsed : Server :=
  ((pager config machine 6 0xfffffffc 0).bind fun x => (pager config x.2 5 4096 0).map
    (·.2)).getD machine

lemma machineUsed_ok : ∃ lost, Ok machineUsed.map lost := by
  obtain ⟨r, s, lost, hr, hs⟩ :=
    pager_spec (t := 6) config 0 machine_ok (by decide) (show 0xfffffffc < 2 ^ 32 by decide)
  obtain ⟨r', s', lost', hr', hs'⟩ :=
    pager_spec (t := 5) config 0 hs.ok (by decide) (show 4096 < 2 ^ 32 by decide)
  refine ⟨lost', ?_⟩
  rw [machineUsed, hr, Option.bind_some, hr']
  exact hs'.ok

/-- There, task 5 gets page 2. -/
theorem pager_any_page_machine : ∃ m lost, pager config machineUsed 5 0xfffffffc 0 =
      some (.page 8192, { machineUsed with map := m }) ∧ machineUsed.map.Fits 5 8192 ∧
    (∀ b < 8192, ¬machineUsed.map.Fits 5 b) ∧ Ok m lost ∧
    m.own = Function.update machineUsed.map.own 2 5 := by
  have heval : (pager config machineUsed 5 0xfffffffc 0).map (·.1) = some (.page 8192) := by
    decide +kernel
  obtain ⟨lost, hok⟩ := machineUsed_ok
  rcases @pager_any_page config _ lost 5 0 hok (by decide) (by decide) with
    ⟨a, m, h, hfits, hno, hm, hown⟩ | ⟨h, -⟩
  · rw [h] at heval
    obtain rfl : a = 8192 := Reply.page.inj (Option.some.inj heval)
    exact ⟨m, lost, h, hfits, hno, hm, hown⟩
  · rw [h] at heval
    cases heval

/-- **Free**: so does the request to free a page or a superpage. -/
lemma memFree_spec {arg : Nat} (h : Ok s.map lost) (ht : 2 ≤ t) (ha : arg < 2 ^ 32)
    (hr : memFree s t arg = some (r, s')) : Served c t s lost r s' lost := by
  have hmsg : ∀ x y p, ¬(Reply.msg x y).Maps c p := fun _ _ _ hp => hp
  unfold memFree at hr
  dsimp only at hr
  by_cases hhigh : 0x40000000 ≤ arg ∧ arg < 0xC0000000
  · rw [if_pos hhigh] at hr
    obtain ⟨o, -, ho⟩ := Option.map_eq_some_iff.1 hr
    split_ifs at ho with hto hok
    all_goals obtain ⟨rfl, rfl⟩ := Prod.mk.inj ho
    · exact .refl h rfl (hmsg _ _)
    all_goals
      obtain ⟨ok, m, hm, hg, hf, hcase⟩ := h.toGood.freeSuperpage (a := arg + 0x40000000) ht
        (by simp only [memMax]; omega) (by omega)
      rw [hm]
      rcases hcase with ⟨-, hown, hown'⟩ | ⟨-, rfl⟩
      · have htr : t ≠ oReserved := by unfold oReserved; omega
        have hc : Change t s.map m :=
          .of_block_free (i := (arg + 0x40000000) / superpageSize) (fun p hp => by
          rw [own, hp]
          rw [superAt] at hown
          rw [hown, if_neg htr]) hown'
        exact ⟨h.of_change ht hg hc, hf, hc, ⟨fun _ _ => rfl, le_rfl⟩,
          fun p hp => absurd hp (hmsg _ _ p)⟩
      · exact .refl h rfl (hmsg _ _)
  · rw [if_neg hhigh] at hr
    obtain ⟨o, ho, hr⟩ := Option.bind_eq_some_iff.1 hr
    split_ifs at hr with hto
    · cases hr
      exact .refl h rfl (hmsg _ _)
    have hbounds : arg < memMax ∨ (s.map.superAt arg).owner ≠ oReserved := by
      by_contra hno
      push Not at hno
      rw [ownerPage_eq_none.2 hno] at ho
      cases ho
    obtain ⟨ok, m, hm, hg, hf, hcase⟩ := h.toGood.freePage ht hbounds
    rw [hm] at hr
    cases hr
    have hrep : ∀ p, ¬(if ok then Reply.msg 0 (2 ^ 32 - 1)
        else .msg (2 ^ 32 - 1) (2 ^ 32 - 1)).Maps c p := by
      cases ok
      exacts [hmsg _ _, hmsg _ _]
    rcases hcase with ⟨-, -, rfl⟩ | ⟨-, hown, -, hown'⟩ | ⟨-, -, -, rfl⟩
    · exact .refl h rfl hrep
    · have hc : Change t s.map m := .of_update_free hown hown'
      exact ⟨h.of_change ht hg hc, hf, hc, ⟨fun _ _ => rfl, le_rfl⟩, fun p hp => absurd hp (hrep p)⟩
    · exact .refl h rfl hrep

lemma freePage_ne_none (ha : a < memMax ∨ (m.superAt a).owner ≠ oReserved) :
    m.freePage a t ≠ none := by
  unfold freePage
  dsimp only
  by_cases hf : (m.superAt a).owner = oFree
  · simp [hf]
  by_cases hr : (m.superAt a).owner = oReserved
  · simp [hr, pageAt_of_lt (ha.resolve_right (not_not.2 hr)), show oReserved ≠ oFree by decide]
  · simp [hf, hr]

/-- **Bounds**: the supervisor looks beyond `__memmap` for addresses between main memory and 1 GB,
while their superpages are reserved, and for no others. -/
theorem memFree_eq_none {arg : Nat} (h : Ok s.map lost) (ha : arg < 2 ^ 32) :
    memFree s t arg = none ↔ memMax ≤ arg ∧ arg < 0x40000000 ∧
    (s.map.superAt arg).owner = oReserved := by
  have hno {a : Nat} (hlo : 0x80000000 ≤ a) (hhi : a < 2 ^ 32) :
    (s.map.superAt a).owner ≠ oReserved := fun ho => by
    have hp := h.high (a / pageSize) (by simp only [pageSize]; omega)
      (by simp only [pageSize]; omega)
    rw [superAt_eq] at ho
    rw [own, if_pos ho] at hp
    split_ifs at hp with hlt
    · simp only [pageSize] at hlt
      omega
    · exact hp rfl
  unfold memFree
  dsimp only
  by_cases hhigh : 0x40000000 ≤ arg ∧ arg < 0xC0000000
  · rw [if_pos hhigh, Option.map_eq_none_iff, ownerPage_eq_none]
    constructor
    · rintro ⟨-, ho⟩
      exact absurd ho (hno (by omega) (by omega))
    · rintro ⟨-, hlt, -⟩
      omega
  · rw [if_neg hhigh]
    constructor
    · intro hb
      by_cases ho : s.map.ownerPage arg = none
      · obtain ⟨hm, hr⟩ := ownerPage_eq_none.1 ho
        refine ⟨hm, ?_, hr⟩
        by_contra hge
        exact hno (by omega) ha hr
      · obtain ⟨o, ho⟩ := Option.ne_none_iff_exists'.1 ho
        rw [ho, Option.bind_some] at hb
        split_ifs at hb with hto
        rw [Option.map_eq_none_iff] at hb
        have hbounds : arg < memMax ∨ (s.map.superAt arg).owner ≠ oReserved := by
          by_contra hno
          push Not at hno
          rw [ownerPage_eq_none.2 hno] at ho
          cases ho
        exact absurd hb (freePage_ne_none hbounds)
    · rintro ⟨hm, -, hr⟩
      rw [ownerPage_eq_none.2 ⟨hm, hr⟩]
      rfl

theorem memFree_eq_none_machine : memFree machine 5 0x20000000 = none :=
  (memFree_eq_none machine_ok (by decide)).2 ⟨by decide, by decide, rfl⟩

/-! ### Runs -/

/-- The words of a request, and bounds in order. -/
def Request.Fine (memHigh : Nat) : Request → Prop
  | .fault d1 _ => d1 < 2 ^ 32
  | .free arg => arg < 2 ^ 32
  | .reserve sa lo hi => 0 < reserveSize sa ∧ reserveMin lo ≤ reserveMax memHigh sa hi

instance (memHigh : Nat) (q : Request) : Decidable (q.Fine memHigh) := by
  cases q <;> unfold Request.Fine <;> infer_instance

/-- **Step**: what is served leaves the memory map in order. -/
lemma serve_spec {q : Request} (h : Ok s.map lost) (ht : 2 ≤ t) (hq : q.Fine s.map.memHigh)
    (hs : serve c s t q = some (r, s')) : ∃ lost', Served c t s lost r s' lost' := by
  cases q with
  | fault d1 d2 =>
    obtain ⟨r', s'', lost', hr, hsv⟩ := pager_spec c d2 h ht hq
    obtain ⟨rfl, rfl⟩ := Prod.mk.inj (Option.some.inj (hr.symm.trans hs))
    exact ⟨lost', hsv⟩
  | free arg => exact ⟨lost, memFree_spec h ht hq hs⟩
  | reserve sa lo hi =>
    obtain ⟨hpos, hle⟩ := hq
    have hmsg : ∀ x y p, ¬(Reply.msg x y).Maps c p := fun _ _ _ hp => hp
    obtain ⟨a?, hsearch, hw⟩ := reserveSearch_spec (t := t) h.shape hpos hle
    dsimp only [serve] at hs
    cases a? with
    | none =>
      rw [reserveRange_none hsearch, Option.bind_some] at hs
      cases hs
      exact ⟨lost, .refl h rfl (hmsg _ _)⟩
    | some a =>
      rcases h.toGood.reserveRange ht hpos hsearch hw with ⟨-, m', hm, hg, hf, hown⟩ | ⟨-, hno⟩
      · rw [hm, Option.bind_some] at hs
        cases hs
        have hc : Change t s.map m' := hw.change hown
        exact ⟨lost, h.of_change ht hg hc, hf, hc, ⟨fun _ _ => rfl, le_rfl⟩,
          fun p hp => absurd hp (hmsg _ _ p)⟩
      · rw [hno, Option.bind_some] at hs
        cases hs

/-- Tasks make requests, in any order, that are served. -/
inductive Run (c : Config) : Server → List (Nat × Request × Reply) → Server → Prop
  | nil {s : Server} : Run c s [] s
  | snoc {s s' s'' : Server} {l : List (Nat × Request × Reply)} {t : Nat} {q : Request}
      {r : Reply} :
      Run c s l s' → 2 ≤ t → q.Fine s'.map.memHigh → serve c s' t q = some (r, s'') →
      Run c s (l ++ [(t, q, r)]) s''

lemma Run.ok {l : List (Nat × Request × Reply)} (hrun : Run c s l s') (h : Ok s.map lost) :
    ∃ lost', Ok s'.map lost' := by
  induction hrun with
  | nil => exact ⟨lost, h⟩
  | snoc _ ht hq hs ih =>
    obtain ⟨lost₁, h₁⟩ := ih
    obtain ⟨lost₂, hsv⟩ := serve_spec h₁ ht hq hs
    exact ⟨lost₂, hsv.ok⟩

/-- **Runs**: whatever tasks ask for in whatever order, a request changes the owner of a page only
from nobody to its task, or back, maps only pages of the task, and quotas count what tasks have, and
what was lost to messages about double faults. -/
theorem rmgr_run {s₀ : Server} {l : List (Nat × Request × Reply)} (h : Ok s₀.map lost)
    (hrun : Run c s₀ l s) :
    ∃ lost', Ok s.map lost' ∧ ∀ t q r s', 2 ≤ t → q.Fine s.map.memHigh →
    serve c s t q = some (r, s') →
      ∃ lost'', Served c t s lost' r s' lost'' := by
  obtain ⟨lost', hok⟩ := hrun.ok h
  exact ⟨lost', hok, fun t q r s' ht hq hs => serve_spec hok ht hq hs⟩

/-- Requests one after the other, with the replies. -/
def serveAll (c : Config) : Server → List (Nat × Request) →
    Option (List (Nat × Request × Reply) × Server)
  | s, [] => some ([], s)
  | s, (t, q) :: l =>
    if 2 ≤ t ∧ q.Fine s.map.memHigh then
      (serve c s t q).bind fun x => (serveAll c x.2 l).map fun y => ((t, q, x.1) :: y.1, y.2)
    else none

lemma Run.serveAll {s₀ : Server} {l : List (Nat × Request)} {l₀ l' : List (Nat × Request × Reply)}
    (hrun : Run c s₀ l₀ s) (h : Rmgr.serveAll c s l = some (l', s')) : Run c s₀ (l₀ ++ l') s' := by
  induction l generalizing s l₀ l' with
  | nil =>
    cases h
    rwa [List.append_nil]
  | cons x l ih =>
    obtain ⟨t, q⟩ := x
    rw [Rmgr.serveAll] at h
    split_ifs at h with hq
    obtain ⟨⟨r, s₁⟩, hs, h⟩ := Option.bind_eq_some_iff.1 h
    obtain ⟨⟨l₁, s₂⟩, hl, h⟩ := Option.map_eq_some_iff.1 h
    cases h
    have := ih (hrun.snoc hq.1 hq.2 hs) hl
    rwa [List.append_assoc, List.singleton_append] at this

/-- Task 6 is refused the page of task 5, takes another one, and gets the page when task 5 has freed
it; then it asks for the kernel info page, and task 5 reserves two pages. -/
def smallRequests : List (Nat × Request × Reply) :=
  [(5, .fault 4096 0, .page 4096), (6, .fault 4096 0, .msg 0 0), (6, .fault 0xfffffffc 0, .page 0),
    (5, .free 4096, .msg 0 0xffffffff), (6, .fault 4096 0, .page 4096),
    (6, .fault 1 1, .kernelInfo),
    (5, .reserve 0x2000 0 0, .msg 4186112 0xffffffff)]

theorem rmgr_run_fault : ∃ s lost', Run config machine smallRequests s ∧ Ok s.map lost' ∧
    ∀ t q r s', 2 ≤ t → q.Fine s.map.memHigh → serve config s t q = some (r, s') →
      ∃ lost'', Served config t s lost' r s' lost'' := by
  have heval : (serveAll config machine (smallRequests.map fun x => (x.1, x.2.1))).map (·.1) =
      some smallRequests := by
    decide +kernel
  obtain ⟨⟨l, s⟩, hs, hl⟩ := Option.map_eq_some_iff.1 heval
  obtain rfl : l = smallRequests := hl
  have hrun : Run config machine smallRequests s := Run.nil.serveAll hs
  obtain ⟨lost', h⟩ := rmgr_run machine_ok hrun
  exact ⟨s, lost', hrun, h⟩

end Hazelnut.Rmgr

import Mathlib.Data.Set.Basic
import Mathlib.Tactic.Ring
import Hazelnut.Apps.Sigma0

/-!
The root pager hands out a page or a port to one task at a time.

* `S0Sys`, `S0Step`, `S0Reach`: sigma0 with the tasks that have got every page frame and every
  port since it was last freed.
* `S0Inv`: `page_array` and `io_space` name these tasks.
* `sigma0_unique`: runs whose requests meet `ReqOk`.
-/

namespace Hazelnut

variable {p p' : Nat → Nat} {space n idx tmp k size addr base f : Nat}

/-! ### The loops -/

lemma checkPages_eq (h : checkPages space p n tmp idx = true) :
    (∀ k, idx ≤ k → k < idx + n → p k = pageFree ∨ p k = pageShared ∨ p k = space) ∧
      tmp + n * 4096 < maxMem := by
  induction n generalizing tmp idx with
  | zero =>
      rw [checkPages] at h
      exact ⟨fun k h1 h2 => by omega, by simpa using h⟩
  | succ n ih =>
      rw [checkPages] at h
      split_ifs at h with h1 h2
      obtain ⟨hrest, hle⟩ := ih h
      refine ⟨fun k hk hk' => ?_, by omega⟩
      by_cases hidx : k = idx
      · exact hidx ▸ h2
      · exact hrest k (by omega) (by omega)

lemma markPages_apply (space n idx : Nat) (p : Nat → Nat) (k : Nat) :
    markPages space n idx p k = if idx ≤ k ∧ k < idx + n ∧ p k = pageFree then space else p k := by
  induction n generalizing idx p with
  | zero => rw [markPages, if_neg (by omega)]
  | succ n ih =>
      rw [markPages, ih]
      by_cases hk : k = idx
      · subst hk
        by_cases hfree : p k = pageFree
        · rw [if_neg (by omega), if_pos hfree, Function.update_self,
            if_pos ⟨le_rfl, by omega, hfree⟩]
        · rw [if_neg (by omega), if_neg hfree, if_neg (by tauto)]
      · have hsame : (if p idx = pageFree then Function.update p idx space else p) k = p k := by
          split_ifs
          · exact Function.update_of_ne hk ..
          · rfl
        rw [hsame]
        refine if_congr ?_ rfl rfl
        constructor
        · rintro ⟨h1, h2, h3⟩
          exact ⟨by omega, by omega, h3⟩
        · rintro ⟨h1, h2, h3⟩
          exact ⟨by omega, by omega, h3⟩

lemma checkPorts_eq (h : checkPorts space p n idx = true) :
    ∀ k, idx ≤ k → k < idx + n → p k = portFree ∨ p k = space := by
  induction n generalizing idx with
  | zero => exact fun k h1 h2 => by omega
  | succ n ih =>
      rw [checkPorts] at h
      split_ifs at h with h1
      intro k hk hk'
      by_cases hidx : k = idx
      · subst hidx
        tauto
      · exact ih h k (by omega) (by omega)

lemma setPorts_apply (v n idx : Nat) (p : Nat → Nat) (k : Nat) :
    setPorts v n idx p k = if idx ≤ k ∧ k < idx + n then v else p k := by
  induction n generalizing idx p with
  | zero => rw [setPorts, if_neg (by omega)]
  | succ n ih =>
      rw [setPorts, ih]
      by_cases hk : k = idx
      · subst hk
        rw [if_neg (by omega), Function.update_self, if_pos (by omega)]
      · rw [Function.update_of_ne hk]
        exact if_congr (by omega) rfl rfl

lemma scanPages_eq (h : (scanPages p (n + 1) tmp idx).1 = 0) :
    (∀ k, idx ≤ k → k < idx + n → p k = pageFree) ∧ tmp + n * 4096 ≤ maxMem := by
  have hle : tmp ≤ maxMem := by
    by_contra hgt
    rw [scanPages, if_neg hgt] at h
    simp at h
  induction n generalizing tmp idx with
  | zero => exact ⟨fun k h2 h3 => by omega, by omega⟩
  | succ n ih =>
      rw [scanPages, if_pos hle, if_neg (by omega)] at h
      by_cases hidx : p idx = pageFree
      · rw [if_neg (by simpa using hidx)] at h
        have hle' : tmp + 4096 ≤ maxMem := by
          by_contra hgt
          rw [scanPages, if_neg hgt] at h
          simp at h
        obtain ⟨hrest, hend⟩ := ih h hle'
        refine ⟨fun k hk hk' => ?_, by omega⟩
        by_cases hki : k = idx
        · exact hki ▸ hidx
        · exact hrest k (by omega) (by omega)
      · rw [if_pos hidx] at h
        simp at h

/-- What the search finds is aligned relative to the start of memory. -/
lemma findPages_eq {fuel a : Nat} (h : findPages size p fuel a = some (some addr))
    (ha : shl size ∣ a) : shl size ∣ addr ∧
      (∀ k, addr / 4096 ≤ k → k < addr / 4096 + shl (size - 12) → p k = pageFree) ∧
      addr + shl (size - 12) * 4096 ≤ maxMem := by
  induction fuel generalizing a with
  | zero => simp [findPages] at h
  | succ fuel ih =>
      rw [findPages] at h
      by_cases h1 : a < maxMem
      · rw [if_pos h1] at h
        by_cases h2 : (scanPages p (shl (size - 12) + 1) a (a / 4096)).1 = 0
        · simp only [if_pos h2] at h
          obtain rfl : a = addr := by simpa using h
          exact ⟨ha, scanPages_eq h2⟩
        · simp only [if_neg h2] at h
          by_cases h3 : maxMem ≤ (scanPages p (shl (size - 12) + 1) a (a / 4096)).2
          · simp [if_pos h3] at h
          · simp only [if_neg h3] at h
            exact ih h (Nat.dvd_add ha (Nat.dvd_refl _))
      · simp [if_neg h1] at h

/-- The search ends. -/
lemma findPages_some {fuel a : Nat} (hfuel : 0 < fuel) (h : maxMem < a + fuel) :
    ∃ r, findPages size p fuel a = some r := by
  induction fuel generalizing a with
  | zero => omega
  | succ fuel ih =>
      have hpos : 0 < shl size := Nat.two_pow_pos _
      rw [findPages]
      simp only
      split_ifs
      · exact ⟨_, rfl⟩
      · exact ⟨_, rfl⟩
      · exact ih (by omega) (by omega)
      · exact ⟨_, rfl⟩

lemma handle_some (space dw0 dw1 w : Nat) (s : Sigma0) :
    ∃ r, handle space dw0 dw1 w s = some r := by
  have hany : ∀ size, ∃ r, allocateAny space size s = some r := by
    intro size
    obtain ⟨r, hr⟩ : ∃ r, findPages size s.pages (maxMem + 1) 0 = some r :=
      findPages_some (by omega) (by omega)
    rw [allocateAny, hr]
    split_ifs
    · exact ⟨_, rfl⟩
    · cases r <;> exact ⟨_, rfl⟩
  rw [handle]
  simp only
  split_ifs
  · exact ⟨_, rfl⟩
  · exact ⟨_, rfl⟩
  · obtain ⟨r, hr⟩ := hany (decodeRequest dw0 dw1 w / 4 % 64)
    exact ⟨_, by rw [hr]; rfl⟩
  · exact ⟨_, rfl⟩

/-- Freeing affects pages of the task only. -/
lemma freePages_apply {ed : Nat} (k : Nat) : freePages space addr ed n idx tmp p k = p k ∨
    p k = space ∧ freePages space addr ed n idx tmp p k = pageFree := by
  induction n generalizing idx tmp p with
  | zero => exact .inl rfl
  | succ n ih =>
      rw [freePages]
      split_ifs with h1
      · have hr : freePages space addr ed n (idx + 1) (tmp + 4096)
              (Function.update p idx pageFree) k = Function.update p idx pageFree k ∨
            Function.update p idx pageFree k = space ∧ freePages space addr ed n (idx + 1)
              (tmp + 4096) (Function.update p idx pageFree) k = pageFree := ih
        rcases hr with h2 | ⟨h2, h3⟩
        · by_cases hk : k = idx
          · subst hk
            rw [Function.update_self] at h2
            exact .inr ⟨h1.2.2, h2⟩
          · rw [Function.update_of_ne hk] at h2
            exact .inl h2
        · by_cases hk : k = idx
          · subst hk
            exact .inr ⟨h1.2.2, h3⟩
          · rw [Function.update_of_ne hk] at h2
            exact .inr ⟨h2, h3⟩
      · exact ih

lemma freeRegions_apply {ed shift plus : Nat} (k : Nat) :
    freeRegions space addr ed shift n plus p k = p k ∨
      p k = space ∧ freeRegions space addr ed shift n plus p k = pageFree := by
  induction n generalizing plus p with
  | zero => exact .inl rfl
  | succ n ih =>
      have hstep : ∀ q : Nat → Nat, (q k = p k ∨ p k = space ∧ q k = pageFree) →
          freeRegions space addr ed shift n (plus + 2 ^ shift) q k = p k ∨
            p k = space ∧ freeRegions space addr ed shift n (plus + 2 ^ shift) q k = pageFree := by
        intro q hq
        have hr : freeRegions space addr ed shift n (plus + 2 ^ shift) q k = q k ∨
            q k = space ∧ freeRegions space addr ed shift n (plus + 2 ^ shift) q k = pageFree := ih
        rcases hr with h1 | ⟨h1, h2⟩
        · rw [h1]
          exact hq
        · rcases hq with h3 | ⟨h3, -⟩
          · exact .inr ⟨h3.symm.trans h1, h2⟩
          · exact .inr ⟨h3, h2⟩
      rw [freeRegions]
      refine hstep _ ?_
      split_ifs
      · exact freePages_apply k
      · exact .inl rfl

/-! ### Runs -/

/-- The page frames of a flexpage. -/
def CoversFrame (base size f : Nat) : Prop :=
  if size < 12 then f = base / 4096 else f / 2 ^ (size - 12) = base / 4096 / 2 ^ (size - 12)

/-- The page frames and the ports a client gets with a reply. -/
def Reply.Frame : Reply → Nat → Prop
  | .memory base size, f => CoversFrame base size f
  | _, _ => False

def Reply.Port : Reply → Nat → Prop
  | .ports raw, k => iofpPort raw ≤ k ∧ k < iofpPort raw + 2 ^ iofpLdSize raw
  | _, _ => False

/-- sigma0, with the tasks that have got a page frame or a port since it was last freed. -/
structure S0Sys where
  s : Sigma0
  frames : Nat → Set Nat
  ports : Nat → Set Nat

/-- A reply is sent, after which the state is `s'`.  Frames and ports that have become free are
freed. -/
def S0Sys.reply (y : S0Sys) (space : Nat) (r : Reply) (s' : Sigma0) : S0Sys where
  s := s'
  frames f := {t | (t ∈ y.frames f ∧ ¬ (y.s.pages f ≠ pageFree ∧ s'.pages f = pageFree)) ∨
    (t = space ∧ r.Frame f)}
  ports k := {t | (t ∈ y.ports k ∧ ¬ (y.s.ports k ≠ portFree ∧ s'.ports k = portFree)) ∨
    (t = space ∧ r.Port k)}

/-- The numbers of tasks that are markers in `page_array` as well. -/
def IsMarker (t : Nat) : Prop := t = pageReserved ∨ t = pageFree ∨ t = pageShared

/-- The requests that are handled properly.  For memory, from a page on: an allocation is of less
than `2 ^ 44` bytes, not by a task that is a marker and, at any place, aligned with the start of
main memory; what is freed lies in `page_array`, which is indexed with its address, and is not
freed by a task that is the marker of reserved or shared pages.  For ports: an allocation is of
less than `2 ^ 32` ports and not by task 0. -/
def ReqOk (low space dw0 dw1 w : Nat) : Prop :=
  let raw := decodeRequest dw0 dw1 w
  let size := raw / 4 % 64
  dw0 = 1 ∨
    if IsIofp raw ∧ (raw % 2 = 1 → raw / 2 % 2 = 1) then
      raw % 2 = 1 → space ≠ 0 ∧ iofpLdSize raw < 32
    else size < 12 ∨
      if raw % 2 = 1 then ¬ IsMarker space ∧ size < 44 ∧ (raw / 2 % 2 = 1 ∨ 2 ^ size ∣ low)
      else space ≠ pageReserved ∧ space ≠ pageShared ∧ low = 0 ∧ size < 32 ∧
        raw / 2 ^ size * 2 ^ size + 2 ^ size ≤ maxMem

instance (t : Nat) : Decidable (IsMarker t) := by unfold IsMarker; infer_instance

instance (low space dw0 dw1 w : Nat) : Decidable (ReqOk low space dw0 dw1 w) := by
  unfold ReqOk
  infer_instance

/-- One request. -/
inductive S0Step : S0Sys → S0Sys → Prop
  | handle {y : S0Sys} {space dw0 dw1 w : Nat} {r : Reply} {s' : Sigma0}
      (hspace : space < 256) (hw : dw0 < 2 ^ 32 ∧ dw1 < 2 ^ 32 ∧ w < 2 ^ 32)
      (hok : ReqOk y.s.low space dw0 dw1 w) (h : handle space dw0 dw1 w y.s = some (r, s')) :
      S0Step y (y.reply space r s')

/-- The states after `init_space`, for main memory that fits in `page_array`. -/
inductive S0Reach (main : MemDesc) (ds : List MemDesc) : S0Sys → Prop
  | init (hlow : main.low % 4096 = 0 ∧ main.low < 2 ^ 32) (hhigh : main.high < 2 ^ 32)
      (hfits : main.high ≤ main.low + maxMem) :
      S0Reach main ds ⟨initSpace main ds, fun _ => ∅, fun _ => ∅⟩
  | step {y y' : S0Sys} (hy : S0Reach main ds y) (h : S0Step y y') : S0Reach main ds y'

/-- `page_array` and `io_space` name the tasks that have got pages and ports.  Pages are reserved
and shared as after `init_space`, in `s₀`. -/
structure S0Inv (s₀ : Sigma0) (y : S0Sys) : Prop where
  start : y.s.low = s₀.low
  low : y.s.low % 4096 = 0 ∧ y.s.low < 2 ^ 32
  above : ∀ k, 2 ^ 20 ≤ y.s.low / 4096 + k → s₀.pages k = pageReserved
  reserved : ∀ k, y.s.pages k = pageReserved ↔ s₀.pages k = pageReserved
  shared : ∀ k, y.s.pages k = pageShared ↔ s₀.pages k = pageShared
  frames : ∀ f t, t ∈ y.frames f → y.s.low / 4096 ≤ f ∧ ¬ IsMarker t ∧
    (y.s.pages (f - y.s.low / 4096) = t ∨ y.s.pages (f - y.s.low / 4096) = pageShared)
  ports : ∀ k t, t ∈ y.ports k → t ≠ 0 ∧ y.s.ports k = t

variable {y y' : S0Sys} {s₀ s' : Sigma0} {r : Reply} {num raw dw0 dw1 w : Nat}

lemma shl_of_lt (h : n < 32) : shl n = 2 ^ n := by rw [shl, Nat.mod_eq_of_lt h]

/-- The pages of a region. -/
lemma two_pow_pages (h : 12 ≤ size) : 2 ^ size = 4096 * 2 ^ (size - 12) := by
  have h1 : 2 ^ size = 2 ^ 12 * 2 ^ (size - 12) := by
    rw [← pow_add]
    congr 1
    omega
  simpa using h1

/-- The frames of an aligned flexpage. -/
lemma CoversFrame.bounds (h : CoversFrame base size f) (hs : 12 ≤ size) (hb : 2 ^ size ∣ base) :
    base / 4096 ≤ f ∧ f < base / 4096 + 2 ^ (size - 12) := by
  rw [CoversFrame, if_neg (by omega)] at h
  have hpow := two_pow_pages hs
  have hpos : 0 < 2 ^ (size - 12) := Nat.two_pow_pos _
  obtain ⟨q, rfl⟩ := hb
  rw [hpow] at h ⊢
  generalize 2 ^ (size - 12) = P at *
  have hbase : 4096 * P * q / 4096 = P * q := by
    rw [Nat.mul_assoc, Nat.mul_div_cancel_left _ (by omega)]
  rw [hbase, Nat.mul_div_cancel_left _ hpos] at h
  rw [hbase]
  have h1 := Nat.div_add_mod f P
  have h2 := Nat.mod_lt f hpos
  rw [h] at h1
  omega

namespace S0Inv

/-- A request without effect. -/
lemma same (h : S0Inv s₀ y) (hf : ∀ f, ¬ r.Frame f) (hp : ∀ k, ¬ r.Port k) :
    S0Inv s₀ (y.reply space r y.s) := by
  refine ⟨h.start, h.low, h.above, h.reserved, h.shared, fun f t ht => ?_, fun k t ht => ?_⟩
  · rcases ht with ⟨ht, -⟩ | ⟨-, ht⟩
    · exact h.frames f t ht
    · exact absurd ht (hf f)
  · rcases ht with ⟨ht, -⟩ | ⟨-, ht⟩
    · exact h.ports k t ht
    · exact absurd ht (hp k)

/-- **Pages are allocated.** -/
lemma alloc (h : S0Inv s₀ y) (hspace : ¬ IsMarker space) (hle : y.s.low ≤ base)
    (hidx : idx = base / 4096 - y.s.low / 4096)
    (hok : ∀ k, idx ≤ k → k < idx + num → y.s.pages k = pageFree ∨ y.s.pages k = pageShared ∨
      y.s.pages k = space)
    (hframe : ∀ f, r.Frame f → base / 4096 ≤ f ∧ f < base / 4096 + num)
    (hport : ∀ k, ¬ r.Port k) :
    S0Inv s₀ (y.reply space r { y.s with pages := markPages space num idx y.s.pages }) := by
  have hdiv : y.s.low / 4096 ≤ base / 4096 := Nat.div_le_div_right hle
  -- the marks of free pages only change, and to no marker
  have hmark : ∀ k v, IsMarker v → v ≠ pageFree →
      (markPages space num idx y.s.pages k = v ↔ y.s.pages k = v) := by
    intro k v hv hne
    rw [markPages_apply]
    split_ifs with hc
    · rw [hc.2.2]
      exact iff_of_false (fun he => hspace (he ▸ hv)) (Ne.symm hne)
    · exact Iff.rfl
  refine ⟨h.start, h.low, h.above, fun k => ?_, fun k => ?_, fun f t ht => ?_, fun k t ht => ?_⟩
  · exact (hmark k _ (.inl rfl) (by decide)).trans (h.reserved k)
  · exact (hmark k _ (.inr (.inr rfl)) (by decide)).trans (h.shared k)
  · simp only [S0Sys.reply, markPages_apply]
    rcases ht with ⟨ht, -⟩ | ⟨rfl, ht⟩
    · obtain ⟨h1, h2, h3⟩ := h.frames f t ht
      refine ⟨h1, h2, ?_⟩
      have hne : y.s.pages (f - y.s.low / 4096) ≠ pageFree := by
        rcases h3 with h3 | h3
        · exact fun he => h2 (.inr (.inl (h3.symm.trans he)))
        · rw [h3]
          decide
      rw [if_neg fun hc => hne hc.2.2]
      exact h3
    · obtain ⟨h1, h2⟩ := hframe f ht
      refine ⟨by omega, hspace, ?_⟩
      by_cases hfree : y.s.pages (f - y.s.low / 4096) = pageFree
      · rw [if_pos ⟨by omega, by omega, hfree⟩]
        exact .inl rfl
      · rw [if_neg fun hc => hfree hc.2.2]
        rcases hok (f - y.s.low / 4096) (by omega) (by omega) with h3 | h3 | h3
        · exact absurd h3 hfree
        · exact .inr h3
        · exact .inl h3
  · rcases ht with ⟨ht, -⟩ | ⟨-, ht⟩
    · exact h.ports k t ht
    · exact absurd ht (hport k)

/-- **Pages are freed.** -/
lemma freePages (h : S0Inv s₀ y) (hlow : y.s.low = 0) (hres : space ≠ pageReserved)
    (hshared : space ≠ pageShared)
    (hpages : ∀ f, p' f = y.s.pages f ∨ y.s.pages f = space ∧ p' f = pageFree) :
    S0Inv s₀ (y.reply space .nothing { y.s with pages := p' }) := by
  -- pages that are reserved or shared keep their marks
  have hmark : ∀ k v, space ≠ v → v ≠ pageFree → (p' k = v ↔ y.s.pages k = v) := by
    intro k v hv hne
    rcases hpages k with hf | ⟨hf, hf'⟩
    · rw [hf]
    · rw [hf, hf']
      exact iff_of_false (Ne.symm hne) hv
  refine ⟨h.start, h.low, h.above, fun k => ?_, fun k => ?_, fun f t ht => ?_, fun k t ht => ?_⟩
  · exact (hmark k _ hres (by decide)).trans (h.reserved k)
  · exact (hmark k _ hshared (by decide)).trans (h.shared k)
  · rcases ht with ⟨ht, hkeep⟩ | ⟨-, ht⟩
    · obtain ⟨h1, h2, h3⟩ := h.frames f t ht
      refine ⟨h1, h2, ?_⟩
      simp only [S0Sys.reply, hlow, Nat.zero_div, Nat.sub_zero] at h3 hkeep ⊢
      rcases hpages f with hf | ⟨hf, hf'⟩
      · rw [hf]
        exact h3
      · by_cases hfree : y.s.pages f = pageFree
        · rw [hf', ← hfree]
          exact h3
        · exact absurd ⟨hfree, hf'⟩ hkeep
    · exact absurd ht id
  · rcases ht with ⟨ht, -⟩ | ⟨-, ht⟩
    · exact h.ports k t ht
    · exact absurd ht id

/-- **Ports are allocated.** -/
lemma allocPorts (h : S0Inv s₀ y) (hspace : space ≠ 0)
    (hok : ∀ k, idx ≤ k → k < idx + num → y.s.ports k = portFree ∨ y.s.ports k = space)
    (hport : ∀ k, r.Port k → idx ≤ k ∧ k < idx + num) (hframe : ∀ f, ¬ r.Frame f) :
    S0Inv s₀ (y.reply space r { y.s with ports := setPorts space num idx y.s.ports }) := by
  refine ⟨h.start, h.low, h.above, h.reserved, h.shared, fun f t ht => ?_, fun k t ht => ?_⟩
  · rcases ht with ⟨ht, -⟩ | ⟨-, ht⟩
    · exact h.frames f t ht
    · exact absurd ht (hframe f)
  · simp only [S0Sys.reply, setPorts_apply]
    rcases ht with ⟨ht, -⟩ | ⟨rfl, ht⟩
    · obtain ⟨h1, h2⟩ := h.ports k t ht
      refine ⟨h1, ?_⟩
      split_ifs with hk
      · rcases hok k hk.1 hk.2 with h3 | h3
        · exact absurd (h2.symm.trans h3) h1
        · exact h3.symm.trans h2
      · exact h2
    · rw [if_pos (hport k ht)]
      exact ⟨hspace, rfl⟩

/-- **Ports are freed.** -/
lemma freePorts (h : S0Inv s₀ y) :
    S0Inv s₀ (y.reply space .nothing
    { y.s with ports := setPorts portFree num idx y.s.ports }) := by
  refine ⟨h.start, h.low, h.above, h.reserved, h.shared, fun f t ht => ?_, fun k t ht => ?_⟩
  · rcases ht with ⟨ht, -⟩ | ⟨-, ht⟩
    · exact h.frames f t ht
    · exact absurd ht id
  · simp only [S0Sys.reply, setPorts_apply]
    rcases ht with ⟨ht, hkeep⟩ | ⟨-, ht⟩
    · obtain ⟨h1, h2⟩ := h.ports k t ht
      refine ⟨h1, ?_⟩
      split_ifs with hk
      · simp only [setPorts_apply, if_pos hk] at hkeep
        exact absurd ⟨fun he => h1 (h2.symm.trans he), trivial⟩ hkeep
      · exact h2
    · exact absurd ht id

/-! ### Requests -/

lemma noMap_same (h : S0Inv s₀ y) (raw size : Nat) :
    S0Inv s₀ (y.reply space (allocReply raw size noMap) y.s) := by
  rw [allocReply, if_pos rfl]
  exact h.same (fun _ => id) fun _ => id

/-- A request for ports. -/
lemma requestPorts (h : S0Inv s₀ y) (hio : IsIofp raw) (hwrite : raw / 2 % 2 = 1)
    (hspace : space ≠ 0)
    (hld : iofpLdSize raw < 32) :
    S0Inv s₀ (y.reply space (allocReply raw size (allocateSpace space raw size y.s).1)
      (allocateSpace space raw size y.s).2) := by
  rw [allocateSpace, if_pos hio, allocateIoSpace]
  split_ifs with h0 h1 h2
  · exact h.noMap_same raw size
  · exact h.noMap_same raw size
  · have hne : raw ≠ noMap := by
      have := hio.2
      simp only [iofpHiBound, noMap] at this ⊢
      omega
    rw [allocReply, if_neg hne, if_pos hio, if_pos hwrite]
    refine h.allocPorts hspace (checkPorts_eq h2) (fun k hk => ?_) fun _ => id
    have hport : iofpPort (raw / 4 * 4) = iofpPort raw := by
      unfold iofpPort
      omega
    have hsize : iofpLdSize (raw / 4 * 4) = iofpLdSize raw := by
      unfold iofpLdSize
      omega
    rw [Reply.Port, hport, hsize] at hk
    rwa [iofpSize, shl_of_lt hld]
  · exact h.noMap_same raw size

/-- A request for memory at an address. -/
lemma requestAt (h : S0Inv s₀ y) (hio : ¬ IsIofp raw) (hraw : raw < 2 ^ 32)
    (hreq : size < 12 ∨ ¬ IsMarker space ∧ size < 44) :
    S0Inv s₀ (y.reply space (allocReply raw size (allocateSpace space raw size y.s).1)
      (allocateSpace space raw size y.s).2) := by
  rw [allocateSpace]
  split_ifs with h1 h2
  · exact h.noMap_same raw size
  · exact h.noMap_same raw size
  · obtain ⟨hspace, hsize⟩ := hreq.resolve_left h2
    simp only
    split_ifs with h3
    · obtain ⟨hok, hend⟩ := checkPages_eq h3
      have hnum : shl (size - 12) = 2 ^ (size - 12) := shl_of_lt (by omega)
      rw [hnum] at hok hend ⊢
      -- the pages fit in `page_array`
      have hsmall : size < 28 := by
        by_contra hge
        have : 2 ^ 16 ≤ 2 ^ (size - 12) := Nat.pow_le_pow_right (by omega) (by omega)
        simp only [maxMem] at hend
        omega
      have hshl : shl size = 2 ^ size := shl_of_lt (by omega)
      have hpow : 2 ^ size ≤ 2 ^ 28 := Nat.pow_le_pow_right (by omega) (by omega)
      rw [hshl] at hok hend ⊢
      have hpages : 2 ^ size = 4096 * 2 ^ (size - 12) := two_pow_pages (by omega)
      have hle : raw / 2 ^ size * 2 ^ size ≤ raw := Nat.div_mul_le_self ..
      have hlt : raw < raw / 2 ^ size * 2 ^ size + 2 ^ size :=
        Nat.lt_div_mul_add (Nat.two_pow_pos size)
      have hdvd : 2 ^ size ∣ raw / 2 ^ size * 2 ^ size := Nat.dvd_mul_left ..
      generalize raw / 2 ^ size * 2 ^ size = a at hok hend hle hlt hdvd ⊢
      have hlow := h.low
      have htmp : y.s.low ≤ a ∧ (a + 2 ^ 32 - y.s.low) % 2 ^ 32 = a - y.s.low := by
        simp only [maxMem] at hend
        omega
      rw [htmp.2] at hok ⊢
      have halign : 4096 ∣ a := (Dvd.intro _ hpages.symm).trans hdvd
      have hne : a ≠ noMap := by
        simp only [noMap]
        omega
      rw [allocReply, if_neg hne, if_neg hio]
      exact h.alloc hspace htmp.1 (by omega) hok (fun f hf => CoversFrame.bounds hf (by omega) hdvd)
        fun _ => id
    · exact h.noMap_same raw size

/-- A request for memory anywhere. -/
lemma requestAny (h : S0Inv s₀ y) (hwrite : raw / 2 % 2 ≠ 1)
    (hreq : size < 12 ∨ ¬ IsMarker space ∧ size < 44 ∧ 2 ^ size ∣ y.s.low) {a : Nat}
    (ha : allocateAny space size y.s = some (a, s')) :
    S0Inv s₀ (y.reply space (allocReply raw size a) s') := by
  rw [allocateAny] at ha
  split_ifs at ha with h1
  · obtain ⟨rfl, rfl⟩ := Prod.mk.inj (Option.some.inj ha)
    exact h.noMap_same raw size
  · obtain ⟨hspace, hsize, hlow⟩ := hreq.resolve_left h1
    cases hfind : findPages size y.s.pages (maxMem + 1) 0 with
    | none => simp [hfind] at ha
    | some res =>
        cases res with
        | none =>
            simp only [hfind] at ha
            obtain ⟨rfl, rfl⟩ := Prod.mk.inj (Option.some.inj ha)
            exact h.noMap_same raw size
        | some addr =>
            simp only [hfind] at ha
            obtain ⟨rfl, rfl⟩ := Prod.mk.inj (Option.some.inj ha)
            obtain ⟨hdvd, hfree, hend⟩ := findPages_eq hfind (Nat.dvd_zero _)
            have hnum : shl (size - 12) = 2 ^ (size - 12) := shl_of_lt (by omega)
            rw [hnum] at hfree hend ⊢
            have hsmall : size < 29 := by
              by_contra hge
              have : 2 ^ 17 ≤ 2 ^ (size - 12) := Nat.pow_le_pow_right (by omega) (by omega)
              simp only [maxMem] at hend
              omega
            rw [shl_of_lt (by omega)] at hdvd
            have hdvd' : 2 ^ size ∣ y.s.low + addr := Nat.dvd_add hlow hdvd
            have hpages : 2 ^ size = 4096 * 2 ^ (size - 12) := two_pow_pages (by omega)
            have halign : 4096 ∣ addr := (Dvd.intro _ hpages.symm).trans hdvd
            have hpos := Nat.two_pow_pos (size - 12)
            have hlow' := h.low
            -- the last page is free, and so below the end of the address space
            have hwrap : y.s.low + addr < 2 ^ 32 := by
              by_contra hge
              have hlast := hfree (addr / 4096) le_rfl (by omega)
              rw [(h.reserved _).2 (h.above (addr / 4096) (by omega))] at hlast
              exact absurd hlast (by decide)
            rw [Nat.mod_eq_of_lt hwrap]
            have hne : y.s.low + addr ≠ noMap := by
              simp only [noMap]
              omega
            rw [allocReply, if_neg hne]
            have hframe : ∀ f, CoversFrame (y.s.low + addr) size f →
                (y.s.low + addr) / 4096 ≤ f ∧
                  f < (y.s.low + addr) / 4096 + 2 ^ (size - 12) :=
              fun f hf => hf.bounds (by omega) hdvd'
            split_ifs with hio
            · refine h.alloc hspace (by omega : y.s.low ≤ y.s.low + addr) (by omega)
                (fun k hk hk' => .inl (hfree k hk hk')) (fun f hf => ?_) fun _ => id
              rw [Reply.Frame, CoversFrame, if_pos (by omega)] at hf
              omega
            · exact h.alloc hspace (by omega : y.s.low ≤ y.s.low + addr) (by omega)
                (fun k hk hk' => .inl (hfree k hk hk')) hframe fun _ => id

/-- Ports or memory are freed. -/
lemma requestFree (h : S0Inv s₀ y) (hreq : IsIofp raw ∨ size < 12 ∨
    space ≠ pageReserved ∧ space ≠ pageShared ∧ y.s.low = 0) :
    S0Inv s₀ (y.reply space .nothing (freeSpace space raw size y.s)) := by
  have hsame : S0Inv s₀ (y.reply space .nothing y.s) := h.same (fun _ => id) fun _ => id
  rw [freeSpace]
  split_ifs with h1 h2
  · rw [freeIoSpace]
    split_ifs
    · exact hsame
    · exact h.freePorts
    · exact hsame
  · exact hsame
  · obtain ⟨hres, hshared, hlow⟩ := (hreq.resolve_left h1).resolve_left h2
    refine h.freePages hlow hres hshared fun f => ?_
    -- first the regions of 4 MB, and then the pages
    rcases freeRegions_apply f with h3 | ⟨h3, h4⟩
    · rw [h3]
      exact freeRegions_apply f
    · rcases freeRegions_apply f with h5 | ⟨h5, -⟩
      · exact .inr ⟨h5.symm.trans h3, h4⟩
      · exact .inr ⟨h5, h4⟩

lemma fpageRaw_lt {write grant : Nat} (hw : write < 2) (hg : grant < 2) :
    fpageRaw addr size write grant < 2 ^ 32 := by
  unfold fpageRaw
  omega

lemma decodeRequest_lt (hw : w < 2 ^ 32) : decodeRequest dw0 dw1 w < 2 ^ 32 := by
  unfold decodeRequest
  split_ifs <;> first | exact fpageRaw_lt (by omega) (by omega) | omega

/-- **A request.** -/
lemma step (h : S0Inv s₀ y) (hstep : S0Step y y') : S0Inv s₀ y' := by
  cases hstep with
  | @handle space dw0 dw1 w r s' hspace hw hok hhandle =>
      rw [handle] at hhandle
      rw [ReqOk] at hok
      have hraw : decodeRequest dw0 dw1 w < 2 ^ 32 := decodeRequest_lt hw.2.2
      generalize decodeRequest dw0 dw1 w = raw at hhandle hok hraw
      simp only at hhandle hok
      split_ifs at hhandle with h1 h2 h3
      · obtain ⟨rfl, rfl⟩ := Prod.mk.inj (Option.some.inj hhandle)
        exact h.same (fun _ => id) fun _ => id
      · -- at an address
        obtain ⟨rfl, rfl⟩ := Prod.mk.inj (Option.some.inj hhandle)
        have hok := hok.resolve_left h1
        by_cases hio : IsIofp raw
        · rw [if_pos ⟨hio, fun _ => h3⟩] at hok
          exact h.requestPorts hio h3 (hok h2).1 (hok h2).2
        · rw [if_neg fun hc => hio hc.1, if_pos h2] at hok
          exact h.requestAt hio hraw (hok.imp_right fun hc => ⟨hc.1, hc.2.1⟩)
      · -- anywhere
        obtain ⟨⟨a, s''⟩, ha, heq⟩ := Option.map_eq_some_iff.1 hhandle
        obtain ⟨rfl, rfl⟩ := Prod.mk.inj heq
        have hok := hok.resolve_left h1
        rw [if_neg fun hc => h3 (hc.2 h2), if_pos h2] at hok
        exact h.requestAny h3
          (hok.imp_right fun hc => ⟨hc.1, hc.2.1, hc.2.2.resolve_left h3⟩) ha
      · obtain ⟨rfl, rfl⟩ := Prod.mk.inj (Option.some.inj hhandle)
        have hok := hok.resolve_left h1
        refine h.requestFree ?_
        by_cases hio : IsIofp raw
        · exact .inl hio
        · rw [if_neg fun hc => hio hc.1, if_neg h2] at hok
          exact .inr (hok.imp_right fun hc => ⟨hc.1, hc.2.1, hc.2.2.1⟩)

end S0Inv

/-! ### The start -/

variable {main : MemDesc} {ds : List MemDesc}

/-- Pages above the memory that is marked do not change. -/
lemma markRange_of_ge {v i : Nat} (hi : base ≤ i) (hk : n = 0 ∨ i + n ≤ base + k) :
    markRange base v n i p k = p k := by
  induction n generalizing i p with
  | zero => rfl
  | succ n ih =>
      rw [markRange, ih (by omega) (by omega)]
      exact Function.update_of_ne (by omega) ..

lemma setmem_of_ge {d : MemDesc} (hhigh : main.high < 2 ^ 32) (hk : 2 ^ 20 ≤ main.low / 4096 + k) :
    setmem main d p k = p k := by
  rw [setmem]
  split_ifs with h
  · refine markRange_of_ge (Nat.div_le_div_right h.2.1) ?_
    omega
  · rfl

lemma initSpace_above (hhigh : main.high < 2 ^ 32) (hk : 2 ^ 20 ≤ main.low / 4096 + k) :
    (initSpace main ds).pages k = pageReserved := by
  have hfold : ∀ (l : List MemDesc) (q : Nat → Nat),
      (l.foldl (fun p d => setmem main d p) q) k = q k := by
    intro l
    induction l with
    | nil => exact fun q => rfl
    | cons d l ih => exact fun q => (ih _).trans (setmem_of_ge hhigh hk)
  exact (hfold ds _).trans (setmem_of_ge hhigh hk)

lemma S0Reach.inv (h : S0Reach main ds y) : S0Inv (initSpace main ds) y := by
  induction h with
  | init hlow hhigh hfits =>
      exact ⟨rfl, hlow, fun k hk => initSpace_above hhigh hk, fun k => Iff.rfl, fun k => Iff.rfl,
        fun f t ht => absurd ht id, fun k t ht => absurd ht id⟩
  | step hy hstep ih => exact ih.step hstep

/-- **A page or a port belongs to one task.**  In every run of requests that meet `ReqOk`, a page
that the kernel info page does not make shared is in the hands of one task at most since it was
last freed, a reserved page is never handed out, and neither is a port to two tasks;
`page_array` and `io_space` name the owners, and every request is handled. -/
theorem sigma0_unique (h : S0Reach main ds y) :
    (∀ f t, t ∈ y.frames f → (initSpace main ds).pages (f - main.low / 4096) ≠ pageShared →
      y.s.pages (f - main.low / 4096) = t ∧ y.frames f = {t}) ∧
    (∀ f, (initSpace main ds).pages (f - main.low / 4096) = pageReserved → y.frames f = ∅) ∧
    (∀ k t, t ∈ y.ports k → y.s.ports k = t ∧ y.ports k = {t}) ∧
    ∀ space dw0 dw1 w, ∃ r, handle space dw0 dw1 w y.s = some r := by
  obtain ⟨hstart, -, -, hreserved, hshared, hframes, hports⟩ := h.inv
  rw [hstart] at hframes
  change ∀ f t, t ∈ y.frames f → main.low / 4096 ≤ f ∧ ¬ IsMarker t ∧
    (y.s.pages (f - main.low / 4096) = t ∨ y.s.pages (f - main.low / 4096) = pageShared) at hframes
  refine ⟨fun f t ht hns => ?_, fun f hres => ?_, fun k t ht => ?_,
    fun space dw0 dw1 w => handle_some space dw0 dw1 w y.s⟩
  · have howner : ∀ t', t' ∈ y.frames f → y.s.pages (f - main.low / 4096) = t' := fun t' ht' =>
      (hframes f t' ht').2.2.resolve_right fun he => hns ((hshared _).1 he)
    refine ⟨howner t ht, Set.eq_singleton_iff_unique_mem.2 ⟨ht, fun t' ht' => ?_⟩⟩
    exact (howner t' ht').symm.trans (howner t ht)
  · refine Set.eq_empty_of_forall_notMem fun t ht => ?_
    obtain ⟨-, hmarker, h1⟩ := hframes f t ht
    have h2 := (hreserved _).2 hres
    rcases h1 with h1 | h1
    · exact hmarker (.inl (h1.symm.trans h2))
    · exact absurd (h1.symm.trans h2) (by decide)
  · refine ⟨(hports k t ht).2, Set.eq_singleton_iff_unique_mem.2 ⟨ht, fun t' ht' => ?_⟩⟩
    exact (hports k t' ht').2.symm.trans (hports k t ht).2

/-- Task 7 gets the second of two pages. -/
def s0First : S0Sys :=
  S0Sys.reply ⟨initSpace ⟨0, 8192, pageFree⟩ [], fun _ => ∅, fun _ => ∅⟩ 7 (.memory 4096 12)
    { low := 0
      pages := markPages 7 1 1 (initSpace ⟨0, 8192, pageFree⟩ []).pages
      ports := fun _ => portFree }

lemma s0First_reach : S0Reach ⟨0, 8192, pageFree⟩ [] s0First := by
  refine .step (.init (by decide) (by decide) (by decide)) ?_
  exact @S0Step.handle _ 7 3 0 (4096 + 12 * 4 + 3) _ _ (by decide) (by decide) (by decide) rfl

/-- After that task 8 asks for the page, task 7 frees it, and task 8 asks again, and then for the
port 0x60. -/
def s0Rest : Option (List Reply × Sigma0 × Sigma0) := do
  let (r₁, s₁) ← handle 8 3 0 (4096 + 12 * 4 + 3) s0First.s
  let (r₂, s₂) ← handle 7 3 0 (4096 + 12 * 4) s₁
  let (r₃, s₃) ← handle 8 3 0 (4096 + 12 * 4 + 3) s₂
  let (r₄, s₄) ← handle 8 3 0 0xF0060003 s₃
  return ([r₁, r₂, r₃, r₄], s₁, s₄)

lemma s0Rest_eq : s0Rest.map (fun r => (r.1, r.2.1.pages 1, r.2.2.pages 1)) =
    some ([.noMap, .nothing, .memory 4096 12, .ports 0xF0060000], 7, 8) := by
  decide +kernel

/-- Task 8 is refused while task 7 has the page, and has it alone afterwards. -/
theorem sigma0_unique_first : ∃ y y' : S0Sys,
    handle 8 3 0 (4096 + 12 * 4 + 3) s0First.s = some (.noMap, y.s) ∧
    S0Reach ⟨0, 8192, pageFree⟩ [] y ∧ y.s.pages 1 = 7 ∧ y.frames 1 = {7} ∧
    S0Reach ⟨0, 8192, pageFree⟩ [] y' ∧ y'.s.pages 1 = 8 ∧ y'.frames 1 = {8} ∧
    y'.s.ports 0x60 = 8 ∧ y'.ports 0x60 = {8} := by
  obtain ⟨⟨_, _, _⟩, hrun, heq⟩ := Option.map_eq_some_iff.mp s0Rest_eq
  simp only [Prod.mk.injEq] at heq
  obtain ⟨rfl, hpage₁, hpage₄⟩ := heq
  simp only [s0Rest, Option.bind_eq_bind, Option.bind_eq_some_iff, Option.pure_def,
    Option.some.injEq, Prod.mk.injEq, Prod.exists, List.cons.injEq] at hrun
  obtain ⟨_, s₁, h1, _, s₂, h2, _, s₃, h3, _, s₄, h4, ⟨rfl, rfl, rfl, rfl, -⟩, rfl, rfl⟩ := hrun
  have hlow : ∀ {y : S0Sys}, S0Reach ⟨0, 8192, pageFree⟩ [] y → y.s.low = 0 :=
    fun h => h.inv.start
  have y1 := s0First_reach.step (.handle (by decide) (by decide) (by decide) h1)
  have y2 := y1.step (.handle (by decide) (by decide) (by rw [hlow y1]; decide) h2)
  have y3 := y2.step (.handle (by decide) (by decide) (by rw [hlow y2]; decide) h3)
  have y4 := y3.step (.handle (by decide) (by decide) (by rw [hlow y3]; decide) h4)
  have hkeep₁ : ¬ (s0First.s.pages 1 ≠ pageFree ∧ s₁.pages 1 = pageFree) := by
    rw [hpage₁]
    decide
  have hkeep₄ : ¬ (s₃.pages 1 ≠ pageFree ∧ s₄.pages 1 = pageFree) := by
    rw [hpage₄]
    simp [pageFree]
  obtain ⟨hframes, -, -, -⟩ := sigma0_unique y1
  obtain ⟨hframes', -, hports', -⟩ := sigma0_unique y4
  have h7 := hframes 1 7 (.inl ⟨.inr ⟨rfl, rfl⟩, hkeep₁⟩) (by decide)
  have h8 := hframes' 1 8 (.inl ⟨.inr ⟨rfl, rfl⟩, hkeep₄⟩) (by decide)
  have hport := hports' 0x60 8 (.inr ⟨rfl, by unfold Reply.Port; decide⟩)
  exact ⟨_, _, h1, y1, h7.1, h7.2, y4, h8.1, h8.2, hport.1, hport.2⟩

/-- A flexpage of `2 ^ 44` bytes is granted when one page is free: task 8 then gets the page of
task 7 as well. -/
theorem sigma0_both : ∃ s : Sigma0,
    handle 8 3 0 (44 * 4 + 3) s0First.s = some (.memory 0 44, s) ∧
      7 ∈ (s0First.reply 8 (.memory 0 44) s).frames 1 ∧
      8 ∈ (s0First.reply 8 (.memory 0 44) s).frames 1 ∧
      (initSpace ⟨0, 8192, pageFree⟩ []).pages 1 ≠ pageShared := by
  refine ⟨_, rfl, .inl ⟨.inr ⟨rfl, rfl⟩, ?_⟩, .inr ⟨rfl, rfl⟩, by decide⟩
  decide

end Hazelnut

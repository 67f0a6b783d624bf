import Hazelnut.Apps.Memmap

/-!
What the functions of `apps/rmgr/src/memmap.h` do to the owners of pages and to the quotas.
-/

namespace Hazelnut.Rmgr

open Ledger

namespace Memmap

variable {s s' : Memmap} {lost lost' : Nat → Nat} {a p i t n : Nat} {q : Quota}

/-- A page goes from a task to nobody. -/
lemma Good.clearPage (h : Good s lost) (ht : 2 ≤ t) (ha : a < s.memHigh)
    (hpage : s.page (a / pageSize) = t) (ho : (s.superAt a).owner = oReserved)
    (hn : n = ((s.superAt a).freePages + 1) % 65536)
    (hs : s' = { s with
      page := Function.update s.page (a / pageSize) oFree
      super := Function.update s.super (a / pageSize / 1024)
        { freePages := n, owner := if n = 1024 then oFree else oReserved }
      mem := Function.update s.mem t ((s.mem t).free pageSize) }) :
    Good s' lost ∧ s'.own = Function.update s.own (a / pageSize) oFree ∧ Frame s s' := by
  have hp : a / pageSize < 65536 := index_lt (ha.trans_le h.shape.le)
  have htf : t ≠ oFree := by unfold oFree; omega
  have hown : s.own (a / pageSize) = t := by
    rw [h.shape.own_of_page hp (by rw [hpage]; exact htf), hpage]
  rw [superAt_eq] at ho hn
  obtain ⟨hshape, hown'⟩ := h.shape.clearPage (n := n) { s' with mem := s.mem } hp ho
    (by rw [hpage]; exact htf) ((Nat.mul_div_le ..).trans_lt ha) hn (by rw [hs])
  change s'.own = _ at hown'
  have hlose := card_owned_lose (Finset.mem_range.2 hp) hown htf.symm
  have hcur := h.quotas.mem t ht
  have hfree : (s.mem t).free pageSize =
      { s.mem t with current := (s.mem t).current - pageSize } := by
    refine Quota.free_eq ?_ ((h.quotas.mem_le t ht).trans_lt (h.quotas.mem_lt t))
    rw [hcur, held, ← hlose, Nat.mul_add, Nat.mul_one]
    omega
  rw [hfree] at hs
  have hf : Frame s s' := by
    refine ⟨by rw [hs], fun u => ?_, fun u => by rw [hs]⟩
    subst hs
    rcases eq_or_ne u t with rfl | hu
    · simp
    · simp [hu]
  refine ⟨⟨⟨hshape.1, hshape.2, hshape.3, hshape.4, hshape.5, hshape.6⟩,
    h.quotas.of_main (t := t) hf (fun u hu => ?_) (by rw [hs]) (fun i hi => ?_)
    (fun u hu hut q hq => ?_)
      (fun _ _ => rfl) ?_ ?_⟩, hown', hf⟩
  · simp [hs, hu]
  · have : i ≠ a / pageSize / 1024 := by omega
    simp [hs, this]
  · rw [hown']
    rcases eq_or_ne q (a / pageSize) with rfl | hqp
    · have : oFree ≠ u := by unfold oFree; omega
      simp [hown, hut.symm, this]
    · simp [hqp]
  · have := h.quotas.mem_le t ht
    simp only [hs, Function.update_self]
    omega
  · simp only [held] at hcur ⊢
    rw [hown', hs]
    simp only [Function.update_self]
    rw [hcur, ← hlose, Nat.mul_add, Nat.mul_one]
    omega

/-- **Alloc**: `memmap_alloc_page` gives the page to the task if it is free and the quota admits it,
and leaves the owners as they are if not. -/
theorem Good.allocPage (h : Good s lost) (ht : 2 ≤ t) (ha : a < memMax) :
    ∃ r s', s.allocPage a t = some (r, s') ∧ Good s' lost ∧ Frame s s' ∧
      ((r = true ∧ s.own (a / pageSize) = t ∧ s' = s) ∨
        (r = true ∧ s.own (a / pageSize) = oFree ∧ s.quotaCheck t a pageSize = true ∧
          s'.own = Function.update s.own (a / pageSize) t) ∨
        (r = false ∧ ¬(s.own (a / pageSize) = oFree ∧ s.quotaCheck t a pageSize = true) ∧
            s'.own = s.own)) := by
  have hp : a / pageSize < 65536 := index_lt ha
  have htf : t ≠ oFree := by unfold oFree; omega
  have htr : t ≠ oReserved := by unfold oReserved; omega
  unfold Memmap.allocPage
  simp only [pageAt_of_lt ha, Option.map_some, Option.some.injEq]
  by_cases hpt : s.page (a / pageSize) = t
  · refine ⟨true, s, by simp [hpt], h, .refl, .inl ⟨rfl, ?_, rfl⟩⟩
    rw [h.shape.own_of_page hp (by rw [hpt]; exact htf), hpt]
  by_cases hpf : s.page (a / pageSize) = oFree
  swap
  · refine ⟨false, s, by simp [hpt, hpf], h, .refl, .inr (.inr ⟨rfl, fun hf => ?_, rfl⟩)⟩
    exact hpf (h.shape.page_of_own hp hf.1)
  by_cases hso : (s.superAt a).owner = oFree ∨ (s.superAt a).owner = oReserved
  swap
  · refine ⟨false, s, by simp [hpf, hso, htf.symm], h, .refl,
      .inr (.inr ⟨rfl, fun hf => hso ?_, rfl⟩)⟩
    rw [superAt_eq]
    exact Shape.super_of_own hf.1
  have hown : s.own (a / pageSize) = oFree := by
    rw [superAt_eq] at hso
    unfold own
    split_ifs with h₁
    · exact hpf
    · exact hso.resolve_right h₁
  have hmem : a < s.memHigh := by
    by_contra hge
    have hab := h.shape.above _ hp (by
      have := h.shape.aligned
      have := Nat.div_add_mod a pageSize
      simp only [pageSize] at *
      omega)
    rw [hown] at hab
    cases hab
  -- the superpage is marked first, whatever the quota says
  set s₁ := s.setSuper a { s.superAt a with owner := oReserved } with hs₁
  have hs₁' : s₁ = { s with
      super := Function.update s.super (a / pageSize / 1024)
        { s.super (a / pageSize / 1024) with owner := oReserved } } := by
    rw [hs₁, setSuper, superAt_eq, Nat.div_div_eq_div_mul]
    rfl
  obtain ⟨hshape, hown₁⟩ :=
    h.shape.reserve (i := a / pageSize / 1024) (by omega) (by rwa [superAt_eq] at hso) hs₁'
  have hf₁ : Frame s s₁ := ⟨rfl, fun _ => rfl, fun _ => rfl⟩
  have hg₁ : Good s₁ lost := by
    refine ⟨hshape, h.quotas.of_main (t := t) hf₁ (fun _ _ => rfl) rfl (fun i hi => ?_)
      (fun u _ _ q _ => by rw [hown₁]) (fun _ _ => rfl) (h.quotas.mem_le t ht) ?_⟩
    · have : i ≠ a / pageSize / 1024 := by omega
      simp [hs₁', this]
    · rw [held, hown₁]
      exact h.quotas.mem t ht
  have hmem₁ : a < s₁.memHigh := hmem
  simp only [hpf, hso, quotaAlloc_main hmem₁ (hg₁.quotas.mem_lt t), if_true, if_false, ne_eq,
    not_true_eq_false, htf.symm]
  have hqc : s₁.quotaCheck t a pageSize = s.quotaCheck t a pageSize := rfl
  by_cases hc : s₁.quotaCheck t a pageSize = true
  · obtain ⟨hg, hown', hf⟩ := hg₁.setPage (a := a) ht hmem₁ (by rw [hown₁]; exact hown) hc
      (by rw [superAt_eq, hs₁']; simp) rfl
    refine ⟨true, _, ?_, hg, hf₁.trans hf, .inr (.inl ⟨rfl, hown, hqc ▸ hc, by rw [hown', hown₁]⟩)⟩
    simp only [hc, if_true, setSuper, superAt_eq, Prod.mk.injEq, true_and]
    simp [hs₁', Memmap.setPage, Nat.div_div_eq_div_mul, pageSize, superpageSize]
  · refine ⟨false, s₁, by simp [hc], hg₁, hf₁, .inr (.inr ⟨rfl, fun hh => hc (hqc ▸ hh.2), hown₁⟩)⟩

/-- **Free**: `memmap_free_page` takes the page from the task, if the page is one of it; where it
says so without taking the page, the page is free. -/
theorem Good.freePage (h : Good s lost) (ht : 2 ≤ t)
    (ha : a < memMax ∨ (s.superAt a).owner ≠ oReserved) :
    ∃ r s', s.freePage a t = some (r, s') ∧ Good s' lost ∧ Frame s s' ∧
      ((r = true ∧ s.own (a / pageSize) = oFree ∧ s' = s) ∨
        (r = true ∧ s.own (a / pageSize) = t ∧ (s.superAt a).owner = oReserved ∧
          s'.own = Function.update s.own (a / pageSize) oFree) ∨
        (r = false ∧ s.own (a / pageSize) ≠ oFree ∧
          ¬(s.own (a / pageSize) = t ∧ (s.superAt a).owner = oReserved) ∧ s' = s)) := by
  have htf : t ≠ oFree := by unfold oFree; omega
  have htr : t ≠ oReserved := by unfold oReserved; omega
  have hrf : oReserved ≠ oFree := by decide
  unfold Memmap.freePage
  by_cases hsf : (s.superAt a).owner = oFree
  · refine ⟨true, s, by simp [hsf], h, .refl, .inl ⟨rfl, ?_, rfl⟩⟩
    rw [superAt_eq] at hsf
    rw [own, hsf, if_neg (by decide)]
  by_cases hsr : (s.superAt a).owner = oReserved
  swap
  · refine ⟨false, s, by simp [hsf, hsr], h, .refl, .inr (.inr ⟨rfl, ?_, fun hh => hsr hh.2, rfl⟩)⟩
    rw [superAt_eq] at hsf hsr
    rwa [own, if_neg hsr]
  have ha' := ha.resolve_right (not_not.2 hsr)
  have hp : a / pageSize < 65536 := index_lt ha'
  have hown : s.own (a / pageSize) = s.page (a / pageSize) := by
    rw [superAt_eq] at hsr
    rw [own, if_pos hsr, if_pos hp]
  simp only [hsr, hrf, pageAt_of_lt ha', ne_eq, not_true_eq_false, if_false, Option.map_some,
    Option.some.injEq]
  by_cases hpf : s.page (a / pageSize) = oFree
  · exact ⟨true, s, by simp [hpf], h, .refl, .inl ⟨rfl, hown.trans hpf, rfl⟩⟩
  by_cases hpt : s.page (a / pageSize) = t
  swap
  · exact ⟨false, s, by simp [hpf, hpt], h, .refl,
      .inr (.inr ⟨rfl, fun hf => hpf (hown ▸ hf), fun hh => hpt (hown ▸ hh.1), rfl⟩)⟩
  have hmem : a < s.memHigh := by
    by_contra hge
    have hab := h.shape.above _ hp (by
      have := h.shape.aligned
      have := Nat.div_add_mod a pageSize
      simp only [pageSize] at *
      omega)
    rw [hown, hpt] at hab
    exact htr hab
  obtain ⟨hg, hown', hf⟩ :=
    h.clearPage (n := ((s.superAt a).freePages + 1) % 65536) ht hmem hpt hsr rfl rfl
  refine ⟨true, _, ?_, hg, hf, .inr (.inl ⟨rfl, hown.trans hpt, trivial, hown'⟩)⟩
  simp only [hpt, htf, quotaFree, hmem, if_true, if_false, not_true_eq_false]
  simp [Memmap.setPage, Memmap.setSuper, Nat.div_div_eq_div_mul, pageSize, superpageSize]
  rfl

/-- The quota of a task for main memory changes, and nothing else. -/
lemma Frame.of_mem (hs : s'.memHigh = s.memHigh) (hh : s'.himem = s.himem)
    (hm : s'.mem = Function.update s.mem t { s.mem t with current := n }) : Frame s s' := by
  refine ⟨hs, fun u => ?_, fun u => by rw [hh]⟩
  rw [hm]
  rcases eq_or_ne u t with rfl | hu
  · simp
  · simp [hu]

lemma Frame.of_himem (hs : s'.memHigh = s.memHigh) (hh : s'.mem = s.mem)
    (hm : s'.himem = Function.update s.himem t { s.himem t with current := n }) : Frame s s' := by
  refine ⟨hs, fun u => by rw [hh], fun u => ?_⟩
  rw [hm]
  rcases eq_or_ne u t with rfl | hu
  · simp
  · simp [hu]

lemma count_pagesOf (f : Nat → Nat) (i x : Nat) :
    ((pagesOf i).map f).count x = (owned (block i) f x).card := by
  have hl : pagesOf i = List.range' (1024 * i) 1024 := by
    rw [pagesOf, List.range'_eq_map_range]
  have hb : (owned (block i) f x).card = ((List.range' (1024 * i) 1024).filter fun p => f p =
      x).length := by
    have hsize : 1024 * (i + 1) - 1024 * i = 1024 := by omega
    change (((List.range' (1024 * i) (1024 * (i + 1) - 1024 * i) : Multiset Nat).filter _).card) = _
    rw [hsize, Multiset.filter_coe, Multiset.coe_card]
  rw [hl, hb, List.count_eq_countP, List.countP_map, List.countP_eq_length_filter]
  rfl

/-- A superpage of main memory goes to a task that has some of its pages. -/
lemma Good.setSuper (h : Good s lost) (ht : 2 ≤ t) (hi : i < 64)
    (hall : ∀ p ∈ block i, s.own p = oFree ∨ s.own p = t)
    (hle : (s.mem t).current + superpageSize ≤ (s.mem t).max +
      pageSize * (owned (block i) s.own t).card)
    (hs : s' = { s with
      page := fun p => if p / 1024 = i ∧ p < 65536 then oFree else s.page p
      super := Function.update s.super i { freePages := n, owner := t }
      mem := Function.update s.mem t
        { s.mem t with
          current := (s.mem t).current + superpageSize -
            pageSize * (owned (block i) s.own t).card } }) :
    Good s' lost ∧ s'.own = (fun p => if p / 1024 = i then t else s.own p) ∧ Frame s s' := by
  have htf : t ≠ oFree := by unfold oFree; omega
  obtain ⟨hshape, hown'⟩ := h.shape.setSuper (n := n)
    { s' with mem := s.mem } ht (fun _ => hall) (.inl hi)
    (by rw [hs])
  change s'.own = _ at hown'
  have hf : Frame s s' := .of_mem (by rw [hs]) (by rw [hs]) (by rw [hs])
  have hin : ∀ p ∈ block i, s'.own p = t := fun p hp => by
    rw [hown']
    exact if_pos (mem_block.1 hp)
  have hout : ∀ p ∈ Finset.range 65536, p ∉ block i → s'.own p = s.own p := fun p _ hp => by
    rw [hown']
    exact if_neg fun hh => hp (mem_block.2 hh)
  have hcard := card_owned_block (block_subset hi) hin hout
  rw [card_block] at hcard
  refine ⟨⟨⟨hshape.1, hshape.2, hshape.3, hshape.4, hshape.5, hshape.6⟩,
    h.quotas.of_main (t := t) hf (fun u hu => ?_) (by rw [hs]) (fun j hj => ?_)
    (fun u hu hut q hq => ?_)
      (fun _ _ => rfl) ?_ ?_⟩, hown', hf⟩
  · simp [hs, hu]
  · have : j ≠ i := by omega
    simp [hs, this]
  · rw [hown']
    by_cases hqi : q / 1024 = i
    · have hu0 : oFree ≠ u := by unfold oFree; omega
      rcases hall q (mem_block.2 hqi) with ho | ho <;> simp [hqi, ho, hut.symm, hu0]
    · simp [hqi]
  · rw [hs]
    simp only [Function.update_self]
    omega
  · have hcur := h.quotas.mem t ht
    rw [hs]
    simp only [Function.update_self, held] at hcur ⊢
    rw [← hs, hcur]
    simp only [superpageSize, pageSize]
    omega

/-- A free superpage beyond main memory goes to a task, or back. -/
lemma Good.of_high (h : Good s lost) (s' : Memmap) (hi : 64 ≤ i) (hshape : Shape s')
    (hmem : s'.mem = s.mem) (hmh : s'.memHigh = s.memHigh)
    (hown : ∀ p < 65536, s'.own p = s.own p) (hsup : ∀ j, j ≠ i → s'.super j = s.super j)
    (hn : ∀ u, 2 ≤ u → u ≠ t → ((s'.super i).owner = u ↔ (s.super i).owner = u))
    (hle : n ≤ (s.himem t).max) (hcur : n = s'.heldHigh t)
    (hhimem : s'.himem = Function.update s.himem t { s.himem t with current := n }) :
    Good s' lost ∧ Frame s s' := by
  have hf : Frame s s' := .of_himem hmh hmem hhimem
  refine ⟨⟨hshape, h.quotas.of_high (t := t) hf hmem (fun u hu => ?_) hown
    (fun u hu hut j _ => ?_) ?_ ?_⟩, hf⟩
  · rw [hhimem, Function.update_of_ne hu]
  · rcases eq_or_ne j i with rfl | hji
    · exact hn u hu hut
    · rw [hsup j hji]
  · simpa [hhimem] using hle
  · simpa [hhimem] using hcur

/-- The superpage of `a` goes to the task, which had pages of it at most, or nothing changes. -/
def Gives (s : Memmap) (t a : Nat) (r : Bool) (s' : Memmap) : Prop :=
  (r = true ∧ (∀ p, p / 1024 = a / superpageSize → s.own p = oFree ∨ s.own p = t) ∧
    s'.own = fun p => if p / 1024 = a / superpageSize then t else s.own p) ∨ (r = false ∧ s' = s)

lemma own_of_super (hp : p / 1024 = i) (ho : (s.super i).owner = n) (hn : n ≠ oReserved) :
    s.own p = n := by
  rw [own, hp, ho, if_neg hn]

/-- A free superpage of main memory. -/
lemma Good.allocSuperpage_main (h : Good s lost) (ht : 2 ≤ t) (hi64 : a / superpageSize < 64)
    (hof : (s.super (a / superpageSize)).owner = oFree) :
    ∃ r s', s.allocSuperpage a t = (r, s') ∧ Good s' lost ∧ Frame s s' ∧ Gives s t a r s' := by
  have htf : t ≠ oFree := by unfold oFree; omega
  have hrf : oReserved ≠ oFree := by decide
  unfold Gives
  set i := a / superpageSize with hi
  have hsup : s.superAt a = s.super i := rfl
  have hset (s : Memmap) (x : Superpage) : s.setSuper a x =
    { s with super := Function.update s.super i x } := rfl
  unfold Memmap.allocSuperpage
  simp only [hsup, ← hi, hset]
  have hall : ∀ p, p / 1024 = i → s.own p = oFree := fun p hp => own_of_super hp hof hrf.symm
  have hgives {s' : Memmap} (ho : s'.own = fun p => if p / 1024 = i then t else s.own p) :
      (true = true ∧ (∀ p, p / 1024 = i → s.own p = oFree ∨ s.own p = t) ∧
        s'.own = fun p => if p / 1024 = i then t else s.own p) ∨ (true = false ∧ s' = s) :=
    .inl ⟨rfl, fun p hp => .inl (hall p hp), ho⟩
  simp only [hof, htf.symm, if_false, ne_eq, not_true_eq_false]
  have hmem : i * superpageSize < s.memHigh := by
    by_contra hge
    have hab := h.shape.above (1024 * i) (by omega)
      (by simp only [pageSize, superpageSize] at *; omega)
    rw [hall _ (by omega)] at hab
    cases hab
  rw [quotaAlloc_main hmem (h.quotas.mem_lt t)]
  by_cases hc : s.quotaCheck t (i * superpageSize) superpageSize = true
  swap
  · exact ⟨false, s, by simp [hc], h, .refl, .inr ⟨rfl, rfl⟩⟩
  have hnone : owned (block i) s.own t = ∅ := Finset.filter_eq_empty_iff.2 fun p hp => by
    rw [hall p (mem_block.1 hp)]
    exact htf.symm
  have hpage : s.page = fun p => if p / 1024 = i ∧ p < 65536 then oFree else s.page p := by
    funext p
    split_ifs with hp
    · exact h.shape.whole i hi64 (by rw [hof]; exact hrf.symm) p (mem_block.2 hp.1)
    · rfl
  obtain ⟨hg, hown, hf⟩ := h.setSuper (n := (s.super i).freePages) ht hi64
    (fun p hp => .inl (hall p (mem_block.1 hp)))
    (by rw [hnone]; simpa using quotaCheck_main_le hmem hc) rfl
  refine ⟨true, _, ?_, hg, hf, hgives hown⟩
  simp only [hc, if_true, hnone, Finset.card_empty, Nat.mul_zero, Nat.sub_zero, ← hpage]

/-- A free superpage beyond main memory. -/
lemma Good.allocSuperpage_high (h : Good s lost) (ht : 2 ≤ t) (ha : a < 2 ^ 32)
    (hi64 : ¬a / superpageSize < 64)
    (hof : (s.super (a / superpageSize)).owner = oFree) :
    ∃ r s', s.allocSuperpage a t = (r, s') ∧ Good s' lost ∧ Frame s s' ∧ Gives s t a r s' := by
  have htf : t ≠ oFree := by unfold oFree; omega
  have hrf : oReserved ≠ oFree := by decide
  unfold Gives
  set i := a / superpageSize with hi
  have hsup : s.superAt a = s.super i := rfl
  have hset (s : Memmap) (x : Superpage) : s.setSuper a x =
    { s with super := Function.update s.super i x } := rfl
  unfold Memmap.allocSuperpage
  simp only [hsup, ← hi, hset]
  have hall : ∀ p, p / 1024 = i → s.own p = oFree := fun p hp => own_of_super hp hof hrf.symm
  have hgives {s' : Memmap} (ho : s'.own = fun p => if p / 1024 = i then t else s.own p) :
      (true = true ∧ (∀ p, p / 1024 = i → s.own p = oFree ∨ s.own p = t) ∧
        s'.own = fun p => if p / 1024 = i then t else s.own p) ∨ (true = false ∧ s' = s) :=
    .inl ⟨rfl, fun p hp => .inl (hall p hp), ho⟩
  simp only [hof, htf.symm, if_false, ne_eq, not_true_eq_false]
  have hmem : s.memHigh ≤ i * superpageSize := by
    have := h.shape.le
    simp only [memMax, superpageSize] at *
    omega
  have hi1024 : i ∈ Finset.Ico 64 1024 := Finset.mem_Ico.2 ⟨by omega, by
    simp only [hi, superpageSize]
    omega⟩
  rw [quotaAlloc_high hmem (h.quotas.himem_lt t)]
  by_cases hc : s.quotaCheck t (i * superpageSize) superpageSize = true
  swap
  · exact ⟨false, s, by simp [hc], h, .refl, .inr ⟨rfl, rfl⟩⟩
  have hpage : s.page = fun p => if p / 1024 = i ∧ p < 65536 then oFree else s.page p := by
    funext p
    split_ifs with hp
    · omega
    · rfl
  set s' : Memmap := { s with
    super := Function.update s.super i { freePages := (s.super i).freePages, owner := t }
    himem := Function.update s.himem t
      { s.himem t with current := (s.himem t).current + superpageSize } } with hs'
  obtain ⟨hshape, hown⟩ := h.shape.setSuper (i := i) { s' with himem := s.himem }
    (n := (s.super i).freePages) ht (fun hlt => absurd hlt hi64)
    (.inr (by rw [hof]; exact hrf.symm))
    (by simp only [hs', ← hpage])
  change s'.own = _ at hown
  have hget := card_owned_get (o := fun j => (s.super j).owner)
    (x := t) hi1024 (by rw [hof]; exact htf.symm)
  have hsuper : (fun j => (s'.super j).owner) =
      Function.update (fun j => (s.super j).owner) i t := by
    funext j
    rcases eq_or_ne j i with rfl | hji
    · simp [hs']
    · simp [hs', hji]
  have hres := h.of_high s' (n := (s.himem t).current + superpageSize) (i := i) (by omega)
    ⟨hshape.1, hshape.2, hshape.3, hshape.4, hshape.5, hshape.6⟩ rfl rfl (fun p hp => ?_)
    (fun j hj => ?_)
    (fun u hu hut => ?_) (quotaCheck_high_le hmem hc) ?_ rfl
  · exact ⟨true, s', by simp only [hc, if_true, hs'], hres.1, hres.2, hgives hown⟩
  · exact (congrFun hown p).trans (if_neg (by omega))
  · simp [hs', hj]
  · have hu0 : oFree ≠ u := by unfold oFree; omega
    simp [hs', hof, hut.symm, hu0]
  · rw [heldHigh, hsuper, hget, h.quotas.himem t ht, heldHigh, Nat.mul_add, Nat.mul_one]

/-- A superpage of main memory whose pages have owners of their own. -/
lemma Good.allocSuperpage_reserved (h : Good s lost) (ht : 2 ≤ t) (hi64 : a / superpageSize < 64)
    (hor : (s.super (a / superpageSize)).owner = oReserved) :
    ∃ r s', s.allocSuperpage a t = (r, s') ∧ Good s' lost ∧ Frame s s' ∧ Gives s t a r s' := by
  have htr : t ≠ oReserved := by unfold oReserved; omega
  have hrf : oReserved ≠ oFree := by decide
  unfold Gives
  set i := a / superpageSize with hi
  have hsup : s.superAt a = s.super i := rfl
  have hset (s : Memmap) (x : Superpage) : s.setSuper a x =
    { s with super := Function.update s.super i x } := rfl
  unfold Memmap.allocSuperpage
  simp only [hsup, ← hi, hset]
  have hmax : ¬memMax ≤ i * superpageSize := by
    simp only [memMax, superpageSize]
    omega
  have hown : ∀ p ∈ block i, s.own p = s.page p := fun p hp => by
    rw [own, mem_block.1 hp, if_pos hor, if_pos (Finset.mem_range.1 (block_subset hi64 hp))]
  simp only [hor, htr.symm, hrf, hmax, if_false, ne_eq, not_true_eq_false,
    not_false_eq_true, if_true,
    count_pagesOf]
  by_cases hall : (((pagesOf i).map s.page).all fun m => m = oFree || m = t) = true
  swap
  · exact ⟨false, s, by simp only [hall, Bool.false_eq_true, if_false], h, .refl, .inr ⟨rfl, rfl⟩⟩
  have hblock : ∀ p ∈ block i, s.own p = oFree ∨ s.own p = t := fun p hp => by
    rw [hown p hp]
    have hmem : s.page p ∈ (pagesOf i).map s.page := by
      refine List.mem_map_of_mem ?_
      rw [mem_block] at hp
      simp only [pagesOf, List.mem_map, List.mem_range]
      exact ⟨p % 1024, by omega, by omega⟩
    simpa using List.all_eq_true.1 hall _ hmem
  have hmem : i * superpageSize < s.memHigh := by
    by_contra hge
    have hab := h.shape.above (1024 * i) (by omega)
      (by simp only [pageSize, superpageSize] at *; omega)
    rcases hblock (1024 * i) (mem_block.2 (by omega)) with ho | ho <;> rw [hab] at ho
    · cases ho
    · exact htr ho.symm
  have howned : owned (block i) s.page t = owned (block i) s.own t :=
    owned_congr fun p hp => by rw [hown p hp]
  have hcur := h.quotas.mem t ht
  have hle : pageSize * (owned (block i) s.own t).card ≤ (s.mem t).current := by
    have := Finset.card_le_card
      (Finset.filter_subset_filter (fun p => s.own p = t) (block_subset hi64))
    rw [hcur, held]
    exact (Nat.mul_le_mul_left _ this).trans (Nat.le_add_right ..)
  have hlt : (s.mem t).current < 2 ^ 32 := (h.quotas.mem_le t ht).trans_lt (h.quotas.mem_lt t)
  rw [howned]
  set mine := pageSize * (owned (block i) s.own t).card with hmine
  -- what the task has there is given back first
  set s₁ : Memmap := { s with
    mem := Function.update s.mem t { s.mem t with current := (s.mem t).current - mine } } with hs₁
  have hfree : (if ¬mine = 0 then s.quotaFree t (i * superpageSize) mine else s) = s₁ := by
    by_cases h0 : mine = 0
    · simp [hs₁, h0]
    · rw [if_pos h0, quotaFree, if_pos hmem, Quota.free_eq hle hlt]
  simp only [hfree]
  have hmem₁ : i * superpageSize < s₁.memHigh := hmem
  have hmax₁ : (s₁.mem t).max = (s.mem t).max := by simp [hs₁]
  rw [quotaAlloc_main hmem₁ (by rw [hmax₁]; exact h.quotas.mem_lt t)]
  by_cases hc : s₁.quotaCheck t (i * superpageSize) superpageSize = true
  · have hroom := quotaCheck_main_le hmem₁ hc
    have hcur₁ : (s₁.mem t).current = (s.mem t).current - mine := by simp [hs₁]
    obtain ⟨hg, hown', hf⟩ := h.setSuper (n := (s.super i).freePages) ht hi64 hblock
      (by rw [hmax₁, hcur₁] at hroom; omega) rfl
    refine ⟨true, _, ?_, hg, hf, .inl ⟨rfl, fun p hp => hblock p (mem_block.2 hp), hown'⟩⟩
    have hpage : (fun p => if p / 1024 = i ∧ p < 65536 then oFree else s.page p) =
        fun p => if p / 1024 = i then oFree else s.page p := by
      funext p
      by_cases hp : p / 1024 = i
      · have : p < 65536 := by omega
        simp [hp, this]
      · simp [hp]
    have hcurrent : (s.mem t).current + superpageSize - mine = (s.mem t).current - mine +
        superpageSize := by
      omega
    simp only [hall, hc, if_true, hpage, ← hmine, hcurrent]
    simp [hs₁]
  · have hback : (if ¬mine = 0 then
        { s₁ with
          mem := Function.update s₁.mem t
            { s₁.mem t with current := ((s₁.mem t).current + mine) % 2 ^ 32 } }
        else s₁) = s := by
      have hsum : ((s.mem t).current - mine + mine) % 2 ^ 32 = (s.mem t).current := by
        rw [Nat.sub_add_cancel hle, Nat.mod_eq_of_lt hlt]
      by_cases h0 : mine = 0
      · simp [hs₁, h0]
      · rw [if_pos h0, hs₁]
        simp only [Function.update_self, Function.update_idem, hsum, Function.update_eq_self]
    exact ⟨false, s, by simp only [hall, hc, if_true, if_false, Bool.false_eq_true, hback], h,
      .refl, .inr ⟨rfl, rfl⟩⟩

/-- A superpage of somebody, or one beyond main memory that is not free. -/
lemma Good.allocSuperpage_other (h : Good s lost) (ht : 2 ≤ t)
    (hof : (s.super (a / superpageSize)).owner ≠ oFree)
    (hor : (s.super (a / superpageSize)).owner = oReserved → 64 ≤ a / superpageSize) :
    ∃ r s', s.allocSuperpage a t = (r, s') ∧ Good s' lost ∧ Frame s s' ∧ Gives s t a r s' := by
  have htr : t ≠ oReserved := by unfold oReserved; omega
  have hrf : oReserved ≠ oFree := by decide
  unfold Gives
  set i := a / superpageSize with hi
  have hsup : s.superAt a = s.super i := rfl
  unfold Memmap.allocSuperpage
  simp only [hsup, ← hi]
  by_cases hot : (s.super i).owner = t
  · refine ⟨true, s, by simp [hot], h, .refl,
      .inl ⟨rfl, fun p hp => .inr (own_of_super hp hot htr), ?_⟩⟩
    funext p
    split_ifs with hp
    · exact own_of_super hp hot htr
    · rfl
  by_cases hres : (s.super i).owner = oReserved
  swap
  · exact ⟨false, s, by simp [hot, hof, hres], h, .refl, .inr ⟨rfl, rfl⟩⟩
  · have hmax : memMax ≤ i * superpageSize := by
      have := hor hres
      simp only [memMax, superpageSize]
      omega
    exact ⟨false, s, by simp [htr.symm, hrf, hres, hmax], h, .refl, .inr ⟨rfl, rfl⟩⟩

/-- **Alloc**: `memmap_alloc_superpage` gives the superpage to the task if all of its pages are free
or of the task, and the quota admits what is missing; if not it changes nothing. -/
theorem Good.allocSuperpage (h : Good s lost) (ht : 2 ≤ t) (ha : a < 2 ^ 32) :
    ∃ r s', s.allocSuperpage a t = (r, s') ∧ Good s' lost ∧ Frame s s' ∧ Gives s t a r s' := by
  by_cases hi : a / superpageSize < 64
  · by_cases hof : (s.super (a / superpageSize)).owner = oFree
    · exact h.allocSuperpage_main ht hi hof
    by_cases hor : (s.super (a / superpageSize)).owner = oReserved
    · exact h.allocSuperpage_reserved ht hi hor
    · exact h.allocSuperpage_other ht hof fun ho => absurd ho hor
  · by_cases hof : (s.super (a / superpageSize)).owner = oFree
    · exact h.allocSuperpage_high ht ha hi hof
    · exact h.allocSuperpage_other ht hof fun _ => Nat.not_lt.1 hi

/-- **Free**: `memmap_free_superpage` takes a superpage beyond main memory from the task. -/
theorem Good.freeSuperpage (h : Good s lost) (ht : 2 ≤ t) (hlo : memMax ≤ a) (ha : a < 2 ^ 32) :
    ∃ r s', s.freeSuperpage a t = (r, s') ∧ Good s' lost ∧ Frame s s' ∧
      ((r = true ∧ (s.superAt a).owner = t ∧
          s'.own = fun p => if p / 1024 = a / superpageSize then oFree else s.own p) ∨
        ((s.superAt a).owner ≠ t ∧ s' = s)) := by
  have htf : t ≠ oFree := by unfold oFree; omega
  have htr : t ≠ oReserved := by unfold oReserved; omega
  set i := a / superpageSize with hi
  have hsup : s.superAt a = s.super i := rfl
  unfold Memmap.freeSuperpage
  rw [hsup]
  by_cases hof : (s.super i).owner = oFree
  · exact ⟨true, s, by simp [hof], h, .refl, .inr ⟨by rw [hof]; exact htf.symm, rfl⟩⟩
  by_cases hot : (s.super i).owner = t
  swap
  · exact ⟨false, s, by simp [hof, hot], h, .refl, .inr ⟨hot, rfl⟩⟩
  have hi64 : 64 ≤ i := by
    simp only [hi, memMax, superpageSize] at *
    omega
  have hi1024 : i ∈ Finset.Ico 64 1024 := Finset.mem_Ico.2 ⟨hi64, by
    simp only [hi, superpageSize]
    omega⟩
  have hhigh : ¬a < s.memHigh := Nat.not_lt.2 (h.shape.le.trans hlo)
  have hlose := card_owned_lose (o := fun j => (s.super j).owner) hi1024 hot htf.symm
  have hcur := h.quotas.himem t ht
  have hfree : (s.himem t).free superpageSize =
      { s.himem t with current := (s.himem t).current - superpageSize } := by
    refine Quota.free_eq ?_ ((h.quotas.himem_le t ht).trans_lt (h.quotas.himem_lt t))
    rw [hcur, heldHigh, ← hlose, Nat.mul_add, Nat.mul_one]
    exact Nat.le_add_left ..
  set s' : Memmap := { s with
    super := Function.update s.super i { freePages := 1024, owner := oFree }
    himem := Function.update s.himem t
      { s.himem t with current := (s.himem t).current - superpageSize } } with hs'
  obtain ⟨hshape, hown⟩ := h.shape.clearSuper { s' with himem := s.himem } ht hot rfl
  change s'.own = _ at hown
  have hsuper : (fun j => (s'.super j).owner) =
      Function.update (fun j => (s.super j).owner) i oFree := by
    funext j
    rcases eq_or_ne j i with rfl | hji
    · simp [hs']
    · simp [hs', hji]
  have hres := h.of_high s' (n := (s.himem t).current - superpageSize) (i := i) hi64
    ⟨hshape.1, hshape.2, hshape.3, hshape.4, hshape.5, hshape.6⟩ rfl rfl (fun p hp => ?_)
    (fun j hj => ?_)
    (fun u hu hut => ?_) ?_ ?_ rfl
  · refine ⟨true, s', ?_, hres.1, hres.2, .inl ⟨rfl, hot, hown⟩⟩
    simp only [hot, htf, if_false, ne_eq, not_true_eq_false, quotaFree, hhigh, hfree]
    rfl
  · exact (congrFun hown p).trans (if_neg (by omega))
  · simp [hs', hj]
  · have hu0 : oFree ≠ u := by unfold oFree; omega
    simp [hs', hot, hut.symm, hu0]
  · exact (Nat.sub_le ..).trans (h.quotas.himem_le t ht)
  · rw [heldHigh, hsuper, hcur, heldHigh, ← hlose, Nat.mul_add, Nat.mul_one, Nat.add_sub_cancel]

variable {b lo : Nat}

/-! ### Free pages -/

/-- The page could be given to the task. -/
def Fits (s : Memmap) (t a : Nat) : Prop :=
  a % pageSize = 0 ∧ a < s.memHigh ∧ s.own (a / pageSize) = oFree ∧ s.quotaCheck t a pageSize = true

/-- The first one from `lo` on. -/
def IsFirst (P : Nat → Prop) (lo : Nat) : Option Nat → Prop
  | some a => lo ≤ a ∧ P a ∧ ∀ b, lo ≤ b → b < a → ¬P b
  | none => ∀ b, lo ≤ b → ¬P b

lemma IsFirst.skip {P : Nat → Prop} {hi : Nat} {r : Option Nat} (h : IsFirst P hi r) (hle : lo ≤ hi)
    (hno : ∀ b, lo ≤ b → b < hi → ¬P b) : IsFirst P lo r := by
  cases r with
  | none =>
    intro b hb
    by_cases hbh : b < hi
    · exact hno b hb hbh
    · exact h b (Nat.not_lt.1 hbh)
  | some a =>
    refine ⟨hle.trans h.1, h.2.1, fun b hb hba => ?_⟩
    by_cases hbh : b < hi
    · exact hno b hb hbh
    · exact h.2.2 b (Nat.not_lt.1 hbh) hba

lemma isFirst_none_of_high (ha : s.memHigh ≤ a) : IsFirst (s.Fits t) a none :=
  fun _ hb hf => absurd hf.2.1 (Nat.not_lt.2 (ha.trans hb))

lemma IsFirst.next {r : Option Nat} (h : IsFirst (s.Fits t) (a + pageSize) r)
    (ha : a % pageSize = 0)
    (hno : ¬s.Fits t a) : IsFirst (s.Fits t) a r := by
  refine h.skip (Nat.le_add_right ..) fun b hb hlt hf => hno ?_
  have : b = a := by
    have := hf.1
    simp only [pageSize] at *
    omega
  rwa [← this]

lemma Shape.findPage (h : Shape s) (ha : a % pageSize = 0) (hn : s.memHigh ≤ a + pageSize * n) :
    ∃ r, s.findPage t a n = some r ∧ IsFirst (s.Fits t) a r := by
  induction n generalizing a with
  | zero => exact ⟨none, rfl, isFirst_none_of_high hn⟩
  | succ n ih =>
    unfold Memmap.findPage
    split_ifs with hhigh hc
    · exact ⟨none, rfl, isFirst_none_of_high hhigh⟩
    all_goals
      obtain ⟨r, hr, hf⟩ := ih (a := a + pageSize) (by rw [Nat.add_mod_right, ha])
        (by rw [Nat.add_assoc, Nat.add_comm pageSize, ← Nat.mul_succ]; exact hn)
    · rw [ownerPage_eq (.inl ((Nat.not_le.1 hhigh).trans_le h.le)), Option.bind_some]
      split_ifs with ho
      · exact ⟨some a, rfl, le_rfl, ⟨ha, Nat.not_le.1 hhigh, ho, hc⟩,
          fun b hb hlt => absurd hb (Nat.not_le.2 hlt)⟩
      · exact ⟨r, hr, hf.next ha fun hfits => ho hfits.2.2.1⟩
    · exact ⟨r, hr, hf.next ha fun hfits => hc hfits.2.2.2⟩

/-- A superpage without free pages is not worth a look. -/
lemma Shape.not_fits_of_nrfree (h : Shape s) (hz : s.nrfreeSuperpage a = 0)
    (ha : a % superpageSize = 0)
    (hb : a ≤ b) (hlt : b < a + superpageSize) : ¬s.Fits t b := by
  rintro ⟨-, hhigh, hown, -⟩
  have hb' : b / pageSize / 1024 = a / superpageSize := by
    rw [Nat.div_div_eq_div_mul]
    simp only [pageSize, superpageSize] at *
    omega
  have hp := index_lt (hhigh.trans_le h.le)
  have hor := Shape.super_of_own hown
  have hz' : (s.superAt a).freePages = 0 := by
    rw [nrfreeSuperpage, superAt, ← hb', if_pos hor] at hz
    rw [superAt, ← hb', hz]
  rw [superAt, ← hb'] at hz'
  rcases hor with ho | ho
  · rw [h.free _ (by omega) ho] at hz'
    cases hz'
  · rw [h.reserved _ (by omega) ho, Finset.card_eq_zero] at hz'
    have : b / pageSize ∈ owned (block (b / pageSize / 1024)) s.page oFree :=
      mem_owned.2 ⟨mem_block.2 rfl, h.page_of_own hp hown⟩
    rw [hz'] at this
    cases this

lemma Shape.findSuper (h : Shape s) (ha : a % superpageSize = 0)
    (hn : s.memHigh ≤ a + superpageSize * n) :
    ∃ r, s.findSuper t a n = some r ∧ IsFirst (s.Fits t) a r := by
  induction n generalizing a with
  | zero => exact ⟨none, rfl, isFirst_none_of_high hn⟩
  | succ n ih =>
    unfold Memmap.findSuper
    split_ifs with hhigh hz
    · exact ⟨none, rfl, isFirst_none_of_high hhigh⟩
    · obtain ⟨r, hr, hf⟩ := ih (a := a + superpageSize) (by rw [Nat.add_mod_right, ha])
        (by rw [Nat.add_assoc, Nat.add_comm superpageSize, ← Nat.mul_succ]; exact hn)
      exact ⟨r, hr, hf.skip (Nat.le_add_right ..) fun b hb hlt => h.not_fits_of_nrfree hz ha hb hlt⟩
    · refine h.findPage ?_ (h.le.trans ?_)
      · simp only [pageSize, superpageSize] at *
        omega
      · exact Nat.le_add_left ..

/-- **First free page**: `find_free` finds the lowest free page that the quota of the task admits,
if there is one. -/
theorem Shape.findFree (h : Shape s) (t : Nat) : ∃ r, s.findFree t = some r ∧
    IsFirst (s.Fits t) 0 r :=
  h.findSuper rfl (h.le.trans (by decide))

/-! ### What a request does to the owners -/

/-- Pages go from nobody to the task, or back. -/
def Change (t : Nat) (s s' : Memmap) : Prop :=
  ∀ p, s'.own p = s.own p ∨ (s.own p = oFree ∧ s'.own p = t) ∨ (s.own p = t ∧ s'.own p = oFree)

lemma Change.of_eq (h : s'.own = s.own) : Change t s s' := fun p => .inl (by rw [h])

lemma Change.of_update (h : s.own p = oFree) (h' : s'.own = Function.update s.own p t) :
    Change t s s' := by
  intro q
  rw [h']
  rcases eq_or_ne q p with rfl | hq
  · exact .inr (.inl ⟨h, Function.update_self ..⟩)
  · exact .inl (Function.update_of_ne hq ..)

lemma Change.of_update_free (h : s.own p = t) (h' : s'.own = Function.update s.own p oFree) :
    Change t s s' := by
  intro q
  rw [h']
  rcases eq_or_ne q p with rfl | hq
  · exact .inr (.inr ⟨h, Function.update_self ..⟩)
  · exact .inl (Function.update_of_ne hq ..)

lemma Change.of_block (h : ∀ p, p / 1024 = i → s.own p = oFree ∨ s.own p = t)
    (h' : s'.own = fun p => if p / 1024 = i then t else s.own p) : Change t s s' := by
  intro q
  rw [h']
  by_cases hq : q / 1024 = i
  · rcases h q hq with ho | ho
    · exact .inr (.inl ⟨ho, if_pos hq⟩)
    · exact .inl (by simp [hq, ho])
  · exact .inl (if_neg hq)

lemma Change.of_block_free (h : ∀ p, p / 1024 = i → s.own p = t)
    (h' : s'.own = fun p => if p / 1024 = i then oFree else s.own p) : Change t s s' := by
  intro q
  rw [h']
  by_cases hq : q / 1024 = i
  · exact .inr (.inr ⟨h q hq, if_pos hq⟩)
  · exact .inl (if_neg hq)

/-- The double fault message takes quota for nothing. -/
lemma Good.charge (h : Good s lost) (ht : 2 ≤ t) (ha : a < s.memHigh) :
    ∃ lost', Good ((s.quotaAlloc t a pageSize).getD s) lost' ∧ Frame
    s ((s.quotaAlloc t a pageSize).getD s) ∧
      ((s.quotaAlloc t a pageSize).getD s).own = s.own ∧ (∀ u, u ≠ t →
      lost' u = lost u) ∧ lost t ≤ lost' t := by
  rw [quotaAlloc_main ha (h.quotas.mem_lt t)]
  split_ifs with hc
  · rw [Option.getD_some]
    set s' : Memmap := { s with
      mem := Function.update s.mem t { s.mem t with current := (s.mem t).current +
      pageSize } } with hs'
    have hf : Frame s s' := .of_mem rfl rfl rfl
    refine ⟨Function.update lost t (lost t + pageSize), ⟨⟨h.shape.1, h.shape.2, h.shape.3,
      h.shape.4, h.shape.5,
      h.shape.6⟩, h.quotas.of_main (t :=
      t) hf (fun u hu => ?_) rfl (fun _ _ => rfl) (fun _ _ _ _ _ => Iff.rfl)
        (fun u hu => Function.update_of_ne hu ..) ?_ ?_⟩,
        hf, rfl, fun u hu => Function.update_of_ne hu .., ?_⟩
    · simp [hs', hu]
    · simpa [hs'] using quotaCheck_main_le ha hc
    · have := h.quotas.mem t ht
      change (s'.mem t).current = s.held t + _
      simp only [hs', Function.update_self, this]
      omega
    · simp
  · exact ⟨lost, h, .refl, rfl, fun _ _ => rfl, le_rfl⟩

end Memmap

end Hazelnut.Rmgr

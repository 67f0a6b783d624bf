import Mathlib.Data.List.Perm.Subperm
import Hazelnut.Apps.MallocSafe

/-!
Runs of `malloc` and `free` of user programs.

* `MInv.grow`, `MInv.malloc_two`: more memory, and calls of `malloc`.
* `MInv.unlink`, `MInv.putBack`: a block leaves its list and becomes a free area, or a part of
  one.
* `MReach`, `malloc_sound`: programs that call both, and write to their blocks.
-/

namespace Hazelnut

open Bytes Nodes Linked Intervals

variable {L : Layout} {m m' : Nat → Nat} {h h' : MHeap} {fr al u w : List Blk} {b c F : Blk}
  {x y sz ptr e : Nat}

/-! ### More memory -/

open scoped List in
lemma units_area : units (u ++ b :: w) al ~
    (b.base, b.fin) :: (b.hdr, b.hdr + 16) :: units (u ++ w) al :=
  units_free.trans (List.Perm.swap ..)

/-- An interval of the heap is a free area, or has room for a node. -/
lemma mem_units {z : Nat × Nat} (hz : z ∈ units fr al) (hal : ∀ b ∈ al, b.base = b.hdr + 16) :
    z.1 + 16 ≤ z.2 ∨ ∃ c ∈ fr, z = (c.base, c.fin) := by
  rcases List.mem_append.mp hz with hz | hz
  · obtain ⟨c, hc, hz⟩ := List.mem_flatMap.mp hz
    simp only [freeUnits, List.mem_cons, List.not_mem_nil, or_false] at hz
    rcases hz with rfl | rfl
    · exact .inl le_rfl
    · exact .inr ⟨c, hc, rfl⟩
  · obtain ⟨c, hc, rfl⟩ := List.mem_map.mp hz
    have := hal c hc
    simp only [Blk.fin]
    exact .inl (by omega)

namespace MInv

lemma heapEnd_pos (hi : MInv L h fr al) : 0 < h.heapEnd := by
  have h1 := hi.start
  have h2 := L.heapStart_le
  have h3 := L.inside L.head (by simp)
  omega

/-- The last node before `tail`. -/
lemma prev_tail (hi : MInv L h fr al) :
    (fr = [] ∧ prev h.mem L.tail = L.head) ∨ ∃ u b, fr = u ++ [b] ∧ prev h.mem L.tail = b.hdr := by
  have hlink := hi.frLinked
  rcases List.eq_nil_or_concat' fr with rfl | ⟨u, b, rfl⟩
  · exact .inl ⟨rfl, (List.isChain_cons_cons.mp hlink).1.2⟩
  · have hsplit : L.head :: ((u ++ [b]).map Blk.hdr ++ [L.tail]) =
        (L.head :: u.map Blk.hdr) ++ b.hdr :: L.tail :: [] := by simp
    rw [hsplit] at hlink
    exact .inr ⟨u, b, rfl, (isLinked_split.mp hlink).2.1.2⟩

/-- The last free area grows. -/
lemma growLast (hi : MInv L h (u ++ [b]) al) (hfin : b.fin = h.heapEnd) {k : Nat}
    (hk : h.heapEnd + k < 2 ^ 32) :
    MInv L ⟨setSize h.mem b.hdr (b.size + k), h.init, h.heapEnd + k⟩
      (u ++ [⟨b.hdr, b.base, b.size + k⟩]) al := by
  have hf : b.fin = b.base + b.size := rfl
  have hbn : b.hdr ∈ nodes L (u ++ [b]) al := mem_nodes_fr (by simp)
  have hord := hi.ordered
  have hcut := hi.cut.perm units_area
  obtain ⟨hsep, hin, hrest⟩ := hcut.of_cons
  refine hi.resize rfl (fun y hy => ?_) ?_ ?_ (hi.start.trans (by omega)) hk
  · have hc := hi.clear hbn hy
    rw [base_setSize hc, size_setSize hc, next_setSize hc, prev_setSize hc,
      Nat.mod_eq_of_lt (by omega)]
    refine ⟨?_, rfl, rfl, rfl⟩
    split_ifs with he
    · rw [← he, (hi.fields b (by simp)).1]
    · rfl
  · refine Cut.perm ?_ units_area.symm
    refine (hrest.mono (Nat.le_add_right ..)).cons (fun z hz => ?_) ?_
    · have h1 := hsep z hz
      have h2 := hrest.inside z hz
      have h3 : z.1 = z.2 → z.2 ≤ b.base := by
        intro h0
        rcases List.mem_cons.mp hz with rfl | hz
        · simp at h0
        · rcases mem_units hz hi.alBase with h4 | ⟨c, hc, rfl⟩
          · omega
          · rw [List.append_nil] at hc
            exact (List.pairwise_append.mp hord).2.2 c hc b (by simp)
      simp only [Sided, Blk.fin] at *
      omega
    · simp only [Blk.fin] at *
      omega
  · simp only [List.pairwise_append, List.mem_singleton, forall_eq] at hord ⊢
    exact ⟨hord.1, List.pairwise_singleton .., hord.2.2⟩

/-- New pages that are not behind the last free area get a node. -/
lemma growNode (hi : MInv L h fr al) {k : Nat} (hk : h.heapEnd + k < 2 ^ 32) (hk' : 16 ≤ k) :
    MInv L ⟨insertBefore h.heapEnd L.tail
        (setBase (setSize h.mem h.heapEnd (k - 16)) h.heapEnd (h.heapEnd + 16)),
      h.init, h.heapEnd + k⟩ (fr ++ [⟨h.heapEnd, h.heapEnd + 16, k - 16⟩]) al := by
  have hi' : MInv L h (fr ++ []) al := by rwa [List.append_nil]
  have hoff : ∀ y ∈ nodes L (fr ++ []) al, Off h.heapEnd y := by
    intro y hy
    have h1 := hi.start
    have h2 := L.heapStart_le
    rcases List.mem_append.mp hy with hy | hy
    · have := L.inside y hy
      exact .inr (by omega)
    · have := hi'.hdr_bounds hy
      exact .inr this.2
  refine hi'.insertNode (n := ⟨h.heapEnd, h.heapEnd + 16, k - 16⟩) (w := []) (l := []) rfl hoff
    hi.fits ?_ (fun y hy => ?_) ?_ ?_ (hi.start.trans (by omega)) hk
  · have hc : Clear h.heapEnd h.heapEnd := .inl rfl
    simp only
    rw [base_setBase hc, size_setBase hc, size_setSize hc, if_pos rfl, if_pos rfl,
      Nat.mod_eq_of_lt (by omega), Nat.mod_eq_of_lt (by omega)]
    exact ⟨rfl, rfl⟩
  · have hc := (hoff y hy).clear
    have hne := (hoff y hy).ne
    rw [base_setBase hc, size_setBase hc, next_setBase hc, prev_setBase hc, base_setSize hc,
      size_setSize hc, next_setSize hc, prev_setSize hc, if_neg hne, if_neg hne]
    exact ⟨rfl, rfl, rfl, rfl⟩
  · refine Cut.perm ?_ units_area.symm
    have h1 := hi'.cut.push (c := h.heapEnd) (d := h.heapEnd + 16) hi.start le_rfl (by omega)
    have h2 := h1.push (c := h.heapEnd + 16) (d := h.heapEnd + k) (hi.start.trans (by omega)) le_rfl
      (by omega)
    have hfin : (⟨h.heapEnd, h.heapEnd + 16, k - 16⟩ : Blk).fin = h.heapEnd + k := by
      simp only [Blk.fin]
      omega
    rw [hfin]
    exact h2
  · refine List.pairwise_append.mpr ⟨hi.ordered, List.pairwise_singleton .., fun c hc d hd => ?_⟩
    obtain rfl := List.mem_singleton.mp hd
    have := hi.cut.inside (c.base, c.fin) (mem_units_free hc).2
    simp only at this ⊢
    omega

/-- **`malloc_get_pages`** and what follows: there is a free area for the block. -/
lemma grow (hi : MInv L h fr al) (hsz : sz < 2 ^ 31)
    (hp : h.heapEnd + mallocPages sz * 4096 < 2 ^ 32) :
    ∃ h' fr', mallocGrow L sz h = some h' ∧ MInv L h' fr' al ∧ ∃ b ∈ fr', sz + 16 ≤ b.size := by
  have hpages : sz + 16 + 16 ≤ mallocPages sz * 4096 := by
    unfold mallocPages
    omega
  have hpos := hi.heapEnd_pos
  have hnode : base h.mem (prev h.mem L.tail) + size h.mem (prev h.mem L.tail) ≠ h.heapEnd →
      base h.mem (prev h.mem L.tail) + size h.mem (prev h.mem L.tail) < 2 ^ 32 →
      ∃ h' fr', mallocGrow L sz h = some h' ∧ MInv L h' fr' al ∧ ∃ b ∈ fr', sz + 16 ≤ b.size := by
    intro hne hlt
    have hfit : sz + 16 ≤ mallocPages sz * 4096 - 16 := by omega
    refine ⟨_, _, ?_, hi.growNode hp (by omega), _,
      List.mem_append_right _ (List.mem_singleton_self _), hfit⟩
    rw [mallocGrow]
    simp only [if_neg (Nat.not_le.mpr hp), Nat.mod_eq_of_lt hlt, if_neg hne]
    rfl
  rcases hi.prev_tail with ⟨rfl, hprev⟩ | ⟨u, b, rfl, hprev⟩
  · rw [hprev, hi.headZero.1, hi.headZero.2] at hnode
    exact hnode (by omega) (by omega)
  · obtain ⟨hbase, hsize⟩ := hi.fields b (by simp)
    have hin := (hi.cut.inside (b.base, b.fin) (mem_units_free (by simp)).2).2.2
    have hf : b.fin = b.base + b.size := rfl
    have hfits := hi.fits
    simp only at hin
    rw [hprev, hbase, hsize] at hnode
    by_cases hend : b.fin = h.heapEnd
    · have hfit : sz + 16 ≤ b.size + mallocPages sz * 4096 := by omega
      refine ⟨_, _, ?_, hi.growLast hend hp, _,
        List.mem_append_right _ (List.mem_singleton_self _), hfit⟩
      rw [mallocGrow]
      simp only [if_neg (Nat.not_le.mpr hp), hprev, hbase, hsize, ← hf, hend,
        Nat.mod_eq_of_lt hfits, if_true]
    · exact hnode hend (by omega)

/-! ### Allocation -/

/-- There is fuel for every node. -/
lemma length_lt (hi : MInv L h fr al) : fr.length < mallocFuel ∧ al.length < mallocFuel := by
  have hsub : ∀ l : List Nat, l.Nodup → (∀ x ∈ l, x ∈ nodes L fr al) → l.length < mallocFuel := by
    intro l hl hmem
    have hsub : l ⊆ List.range (2 ^ 32 - 16) := fun x hx => by
      have := hi.node_lt (hmem x hx)
      rw [List.mem_range]
      omega
    have := (hl.subperm hsub).length_le
    rw [List.length_range] at this
    unfold mallocFuel
    omega
  have h1 := hsub _ hi.frNodup fun x hx => mem_nodes_fr hx
  have h2 := hsub _ hi.alNodup fun x hx => mem_nodes_al hx
  simp only [List.length_cons, List.length_append, List.length_map] at h1 h2
  exact ⟨by omega, by omega⟩

/-- The search for a free area finds the first one that is large enough. -/
lemma findFit_eq {p fuel : Nat} (hsz : sz < 2 ^ 31)
    (hlink : IsLinked (next m) (prev m) (p :: (fr.map Blk.hdr ++ [L.tail])))
    (hsize : ∀ b ∈ fr, size m b.hdr = b.size ∧ b.hdr ≠ L.tail) (hf : fr.length < fuel) :
    (findFit L m sz fuel (next m p) = some none ∧ ∀ b ∈ fr, b.size < sz + 16) ∨
      ∃ u b w, fr = u ++ b :: w ∧ sz + 16 ≤ b.size ∧
        findFit L m sz fuel (next m p) = some (some b.hdr) := by
  have hmod : (sz + 16) % 2 ^ 32 = sz + 16 := Nat.mod_eq_of_lt (by omega)
  induction fr generalizing p fuel with
  | nil =>
      have hp : next m p = L.tail := (List.isChain_cons_cons.mp hlink).1.1
      cases fuel with
      | zero => omega
      | succ fuel =>
          rw [findFit, if_pos hp]
          exact .inl ⟨rfl, by simp⟩
  | cons b fr ih =>
      have hp : next m p = b.hdr := (List.isChain_cons_cons.mp hlink).1.1
      obtain ⟨hb, hne⟩ := hsize b (by simp)
      cases fuel with
      | zero => omega
      | succ fuel =>
          rw [findFit, hp, if_neg hne, hmod, hb]
          by_cases hfit : sz + 16 ≤ b.size
          · rw [if_pos hfit]
            exact .inr ⟨[], b, fr, rfl, hfit, rfl⟩
          · rw [if_neg hfit]
            rcases ih (List.isChain_cons_cons.mp hlink).2 (fun c hc => hsize c (by simp [hc]))
              (by simpa using hf) with ⟨h1, h2⟩ | ⟨u, c, w, rfl, h1, h2⟩
            · refine .inl ⟨h1, fun c hc => ?_⟩
              rcases List.mem_cons.mp hc with rfl | hc
              · omega
              · exact h2 c hc
            · exact .inr ⟨b :: u, c, w, rfl, h1, h2⟩

/-- The search from `head`. -/
lemma findFit_head (hi : MInv L h fr al) (hsz : sz < 2 ^ 31) :
    (findFit L h.mem sz mallocFuel (next h.mem L.head) = some none ∧ ∀ b ∈ fr, b.size < sz + 16) ∨
      ∃ u b w, fr = u ++ b :: w ∧ sz + 16 ≤ b.size ∧
        findFit L h.mem sz mallocFuel (next h.mem L.head) = some (some b.hdr) := by
  refine findFit_eq hsz hi.frLinked (fun b hb => ⟨?_, ?_⟩) hi.length_lt.1
  · exact (hi.fields b (List.mem_append_left _ hb)).2
  · exact hi.hdr_ne_static (List.mem_append_left _ (List.mem_map.mpr ⟨b, hb, rfl⟩)) (by simp)

lemma mallocInit_eq (hi : MInv L h fr al) : mallocInit L h = h := if_pos hi.init

/-- `malloc` with a free area that is large enough. -/
lemma malloc_fit (hi : MInv L h fr al) (hsz : sz < 2 ^ 31) (hfit : ∃ b ∈ fr, sz + 16 ≤ b.size)
    (n : Nat) : ∃ p h' fr', malloc L (n + 1) sz h = some (p, h') ∧
      MInv L h' fr' (⟨p - 16, p, sz⟩ :: al) := by
  rcases hi.findFit_head hsz with ⟨-, hnone⟩ | ⟨u, b, w, rfl, hb, hfind⟩
  · obtain ⟨b, hb, hfit⟩ := hfit
    have := hnone b hb
    omega
  · obtain ⟨hptr, hinv⟩ := hi.take hb
    refine ⟨b.base + 16, _, _, ?_, by simpa [Blk.front] using hinv⟩
    rw [malloc, hi.mallocInit_eq]
    simp only [hfind, hptr]

/-- **`malloc`** with the pages it may need: it calls itself at most once. -/
lemma malloc_two (hi : MInv L h fr al) (hsz : sz < 2 ^ 31)
    (hp : h.heapEnd + mallocPages sz * 4096 < 2 ^ 32) (n : Nat) :
    ∃ p h' fr', malloc L (n + 2) sz h = some (p, h') ∧ MInv L h' fr' (⟨p - 16, p, sz⟩ :: al) := by
  rcases hi.findFit_head hsz with ⟨hfind, -⟩ | ⟨u, b, w, rfl, hb, -⟩
  · obtain ⟨h₁, fr₁, hgrow, h₁inv, hfit⟩ := hi.grow hsz hp
    obtain ⟨p, h₂, fr₂, hmal, h₂inv⟩ := h₁inv.malloc_fit hsz hfit n
    refine ⟨p, h₂, fr₂, ?_, h₂inv⟩
    rw [malloc, hi.mallocInit_eq]
    simp only [hfind, hgrow, if_neg hi.heapEnd_pos.ne', hmal]
  · exact hi.malloc_fit hsz ⟨b, by simp, hb⟩ (n + 1)

/-- Whenever `malloc` returns. -/
lemma malloc_inv (hi : MInv L h fr al) (hsz : sz < 2 ^ 31) {n p : Nat}
    (hm : malloc L n sz h = some (p, h')) : ∃ fr', MInv L h' fr' (⟨p - 16, p, sz⟩ :: al) := by
  cases n with
  | zero => simp [malloc] at hm
  | succ n =>
      rcases hi.findFit_head hsz with ⟨hfind, -⟩ | ⟨u, b, w, rfl, hb, -⟩
      · rw [malloc, hi.mallocInit_eq] at hm
        simp only [hfind] at hm
        by_cases hp : h.heapEnd + mallocPages sz * 4096 < 2 ^ 32
        · obtain ⟨h₁, fr₁, hgrow, h₁inv, hfit⟩ := hi.grow hsz hp
          simp only [hgrow, if_neg hi.heapEnd_pos.ne'] at hm
          cases n with
          | zero => simp [malloc] at hm
          | succ n =>
              obtain ⟨p', h₂, fr₂, hmal, h₂inv⟩ := h₁inv.malloc_fit hsz hfit n
              obtain ⟨rfl, rfl⟩ := Prod.mk.inj (Option.some.inj (hmal.symm.trans hm))
              exact ⟨fr₂, h₂inv⟩
        · rw [mallocGrow, if_pos (by omega)] at hm
          simp at hm
      · obtain ⟨p', h₂, fr₂, hmal, h₂inv⟩ := hi.malloc_fit hsz ⟨b, by simp, hb⟩ n
        obtain ⟨rfl, rfl⟩ := Prod.mk.inj (Option.some.inj (hmal.symm.trans hm))
        exact ⟨fr₂, h₂inv⟩

/-! ### Giving back -/

/-- The search for an allocated block. -/
lemma findAlloc_eq {p fuel : Nat}
    (hlink : IsLinked (next m) (prev m) (p :: (al.map Blk.hdr ++ [L.aTail])))
    (hbase : ∀ b ∈ al, base m b.hdr = b.base ∧ b.hdr ≠ L.aTail ∧ b.hdr ≠ 0)
    (hf : al.length < fuel) :
    (findAlloc L m ptr fuel (next m p) = some none ∧ ∀ b ∈ al, b.base ≠ ptr) ∨
      ∃ u b w, al = u ++ b :: w ∧ b.base = ptr ∧ (∀ c ∈ u, c.base ≠ ptr) ∧
        findAlloc L m ptr fuel (next m p) = some (some b.hdr) := by
  induction al generalizing p fuel with
  | nil =>
      have hp : next m p = L.aTail := (List.isChain_cons_cons.mp hlink).1.1
      cases fuel with
      | zero => omega
      | succ fuel =>
          rw [findAlloc, if_pos hp]
          exact .inl ⟨rfl, by simp⟩
  | cons b al ih =>
      have hp : next m p = b.hdr := (List.isChain_cons_cons.mp hlink).1.1
      obtain ⟨hb, hne, h0⟩ := hbase b (by simp)
      cases fuel with
      | zero => omega
      | succ fuel =>
          rw [findAlloc, hp, if_neg hne, if_neg h0, hb]
          by_cases hptr : b.base = ptr
          · rw [if_pos hptr]
            exact .inr ⟨[], b, al, rfl, hptr, by simp, rfl⟩
          · rw [if_neg hptr]
            rcases ih (List.isChain_cons_cons.mp hlink).2 (fun c hc => hbase c (by simp [hc]))
              (by simpa using hf) with ⟨h1, h2⟩ | ⟨u, c, w, rfl, h1, h2, h3⟩
            · exact .inl ⟨h1, by simpa [hptr] using h2⟩
            · exact .inr ⟨b :: u, c, w, rfl, h1, by simpa [hptr] using h2, h3⟩

/-- The search from `a_head`. -/
lemma findAlloc_head (hi : MInv L h fr al) (ptr : Nat) :
    (findAlloc L h.mem ptr mallocFuel (next h.mem L.aHead) = some none ∧ ∀ b ∈ al, b.base ≠ ptr) ∨
      ∃ u b w, al = u ++ b :: w ∧ b.base = ptr ∧ (∀ c ∈ u, c.base ≠ ptr) ∧
        findAlloc L h.mem ptr mallocFuel (next h.mem L.aHead) = some (some b.hdr) := by
  refine findAlloc_eq hi.alLinked (fun b hb => ⟨?_, ?_, ?_⟩) hi.length_lt.2
  · exact (hi.fields b (List.mem_append_right _ hb)).1
  · exact hi.hdr_ne_static (List.mem_append_right _ (List.mem_map.mpr ⟨b, hb, rfl⟩)) (by simp)
  · have h1 := (hi.hdr_bounds (List.mem_append_right _ (List.mem_map.mpr ⟨b, hb, rfl⟩))).1
    have h2 := L.heapStart_le
    have h3 := L.inside L.head (by simp)
    omega

/-- **A block leaves** the list of allocated blocks. -/
lemma unlink (hi : MInv L h fr (u ++ F :: w)) :
    MInv L { h with mem := unlinkNode F.hdr h.mem } fr (u ++ w) ∧
      base (unlinkNode F.hdr h.mem) F.hdr = F.base ∧ size (unlinkNode F.hdr h.mem) F.hdr = F.size ∧
      (∀ y ∈ nodes L fr (u ++ w), Off F.hdr y) ∧
      Cut L.heapStart h.heapEnd ((F.hdr, F.fin) :: units fr (u ++ w)) := by
  obtain ⟨v, P, hP⟩ : ∃ v P, L.aHead :: u.map Blk.hdr = v ++ [P] :=
    (List.eq_nil_or_concat' (L.aHead :: u.map Blk.hdr)).resolve_left (by simp)
  obtain ⟨N, l, hN⟩ : ∃ N l, w.map Blk.hdr ++ [L.aTail] = N :: l :=
    List.exists_cons_of_ne_nil (by simp)
  have hall : L.aHead :: ((u ++ F :: w).map Blk.hdr ++ [L.aTail]) = v ++ P :: F.hdr :: N :: l := by
    rw [List.map_append, List.append_assoc, List.map_cons, List.cons_append, hN,
      ← List.cons_append, hP]
    simp
  have hall' : L.aHead :: ((u ++ w).map Blk.hdr ++ [L.aTail]) = v ++ P :: N :: l := by
    rw [List.map_append, List.append_assoc, hN, ← List.cons_append, hP]
    simp
  have hlink := hi.alLinked
  have hnd := hi.alNodup
  rw [hall] at hlink hnd
  have hmem : ∀ x ∈ v ++ P :: F.hdr :: N :: l, x ∈ nodes L fr (u ++ F :: w) := fun x hx =>
    mem_nodes_al (hall ▸ hx)
  have hsub : nodes L fr (u ++ w) ⊆ nodes L fr (u ++ F :: w) := by
    have hmap := (List.Sublist.append_left (List.sublist_cons_self F w) u).map Blk.hdr
    exact ((hmap.append_left _).append_left _).subset
  have hperm : v ++ P :: F.hdr :: N :: l = (v ++ [P]) ++ F.hdr :: N :: l := by simp
  have hFnd := List.nodup_cons.mp (List.perm_middle.nodup_iff.mp (hperm ▸ hnd))
  have hFN : F.hdr ≠ N := fun he => hFnd.1 (by simp [he])
  have hFP : F.hdr ≠ P := fun he => hFnd.1 (by simp [he])
  have hPnd := (List.nodup_cons.mp (List.perm_middle.nodup_iff.mp hnd)).1
  have hPN : P ≠ N := fun he => hPnd (by simp [he])
  have hFn := hmem F.hdr (by simp)
  have hPn := hmem P (by simp)
  have hNn := hmem N (by simp)
  have hNext : next h.mem F.hdr = N := by
    have := (isLinked_split.mp hlink).2.2
    exact (List.isChain_cons_cons.mp this).1.1
  have hPrev : prev h.mem F.hdr = P := (isLinked_split.mp hlink).2.1.2
  have hoff := hi.nodesOff
  have hd : [F.hdr, N, P].Pairwise Off := by
    simp only [List.pairwise_cons, List.mem_cons, List.not_mem_nil, or_false, forall_eq_or_imp,
      forall_eq]
    exact ⟨⟨hoff.forall hFn hNn hFN, hoff.forall hFn hPn hFP⟩, hoff.forall hNn hPn hPN.symm,
      by simp, .nil⟩
  have hget := fun y (hy : y ∈ nodes L fr (u ++ F :: w)) =>
    unlinkNode_fields hd hNext hPrev (hi.clear hNn hy) (hi.clear hPn hy)
  have hFfields := hi.fields F (by simp)
  have hcut := hi.cut.perm units_alloc
  generalize unlinkNode F.hdr h.mem = m' at hget ⊢
  refine ⟨⟨hi.init, hi.start, hi.fits, ?_, ?_, ?_, fun c hc => ?_, fun c hc => ?_,
    hcut.of_cons.2.2, hi.ordered⟩, ?_, ?_, ?_, hcut⟩
  · have hg := hget L.head (mem_nodes_fr (by simp))
    rw [hg.1, hg.2.1]
    exact hi.headZero
  · refine hi.frLinked.congr (fun x hx => ?_) fun x hx => ?_
    · have hx' := (List.dropLast_sublist _).subset hx
      rw [(hget x (mem_nodes_fr hx')).2.2.1, if_neg (hi.lists_ne hx' (by rw [hall]; simp)).symm]
    · have hx' := List.mem_of_mem_tail hx
      rw [(hget x (mem_nodes_fr hx')).2.2.2, if_neg (hi.lists_ne hx' (by rw [hall]; simp)).symm]
  · rw [hall']
    exact hlink.remove_ite hnd (fun y hy => (hget y (hmem y hy)).2.2.1)
      fun y hy => (hget y (hmem y hy)).2.2.2
  · have hc' : c ∈ fr ++ (u ++ F :: w) := by
      rw [← List.append_assoc] at hc ⊢
      exact (List.Sublist.append_left (List.sublist_cons_self F w) _).subset hc
    have hcn : c.hdr ∈ nodes L fr (u ++ F :: w) :=
      List.mem_append_right _ (by rw [← List.map_append]; exact List.mem_map.mpr ⟨c, hc', rfl⟩)
    rw [(hget _ hcn).1, (hget _ hcn).2.1]
    exact hi.fields c hc'
  · exact hi.alBase c ((List.Sublist.append_left (List.sublist_cons_self F w) u).subset hc)
  · rw [(hget _ hFn).1, hFfields.1]
  · rw [(hget _ hFn).2.1, hFfields.2]
  · intro y hy
    refine hoff.forall hFn (hsub hy) ?_
    rintro rfl
    have hnodes : nodes L fr (u ++ F :: w) = ([L.head, L.tail, L.aHead, L.aTail] ++
        (fr.map Blk.hdr ++ u.map Blk.hdr)) ++ F.hdr :: w.map Blk.hdr := by simp [nodes]
    refine (List.nodup_cons.mp (List.perm_middle.nodup_iff.mp (hnodes ▸ hi.nodup))).1 ?_
    simpa [nodes, or_assoc] using hy

/-- Where a block is put back. -/
lemma putBack_eq {p fuel : Nat}
    (hlink : IsLinked (next m) (prev m) (p :: (fr.map Blk.hdr ++ [L.tail])))
    (hfr : ∀ b ∈ fr, base m b.hdr = b.base ∧ size m b.hdr = b.size ∧ b.hdr ≠ L.tail ∧
      Clear b.hdr F.hdr ∧ b.fin < 2 ^ 32)
    (hF : base m F.hdr = F.base ∧ size m F.hdr = F.size ∧ F.fin < 2 ^ 32) (hf : fr.length < fuel) :
    ∃ u w, fr = u ++ w ∧ (∀ c ∈ u, c.base ≠ F.fin ∧ c.fin ≠ F.hdr ∧ c.base ≤ F.base) ∧
      ((∃ q l, w.map Blk.hdr ++ [L.tail] = q :: l ∧ (∀ c ∈ w.head?, F.base < c.base) ∧
          putBack L F.hdr m fuel (next m p) = some (insertBefore F.hdr q m)) ∨
        (∃ b w', w = b :: w' ∧ b.base = F.fin ∧ putBack L F.hdr m fuel (next m p) =
          some (setSize (setBase m b.hdr (b.base + 2 ^ 32 - (F.size + 16))) b.hdr
            (b.size + (F.size + 16)))) ∨
        ∃ b w', w = b :: w' ∧ b.fin = F.hdr ∧ putBack L F.hdr m fuel (next m p) =
          some (setSize m b.hdr (b.size + (F.size + 16)))) := by
  obtain ⟨hF1, hF2, hF3⟩ := hF
  have hFmod : (F.base + F.size) % 2 ^ 32 = F.fin := Nat.mod_eq_of_lt hF3
  induction fr generalizing p fuel with
  | nil =>
      have hp : next m p = L.tail := (List.isChain_cons_cons.mp hlink).1.1
      cases fuel with
      | zero => omega
      | succ fuel =>
          rw [putBack, if_pos hp, hp]
          exact ⟨[], [], rfl, by simp, .inl ⟨L.tail, [], rfl, by simp, rfl⟩⟩
  | cons b fr ih =>
      have hp : next m p = b.hdr := (List.isChain_cons_cons.mp hlink).1.1
      obtain ⟨hb1, hb2, hne, hc, hb3⟩ := hfr b (by simp)
      have hbmod : (b.base + b.size) % 2 ^ 32 = b.fin := Nat.mod_eq_of_lt hb3
      cases fuel with
      | zero => omega
      | succ fuel =>
          rw [putBack, hp, if_neg hne]
          simp only [hb1, hb2, hF1, hF2, hFmod, hbmod]
          by_cases h1 : b.base = F.fin
          · refine ⟨[], b :: fr, rfl, by simp, .inr (.inl ⟨b, fr, rfl, h1, ?_⟩)⟩
            rw [if_pos h1, size_setBase (.inl rfl), size_setBase hc, hb2, hF2]
          · rw [if_neg h1]
            by_cases h2 : b.fin = F.hdr
            · rw [if_pos h2]
              exact ⟨[], b :: fr, rfl, by simp, .inr (.inr ⟨b, fr, rfl, h2, rfl⟩)⟩
            · rw [if_neg h2]
              by_cases h3 : F.base < b.base
              · rw [if_pos h3]
                exact ⟨[], b :: fr, rfl, by simp,
                  .inl ⟨b.hdr, fr.map Blk.hdr ++ [L.tail], rfl, by simpa using h3, rfl⟩⟩
              · rw [if_neg h3]
                obtain ⟨u, w, rfl, hu, hcase⟩ := ih (List.isChain_cons_cons.mp hlink).2
                  (fun c hc => hfr c (by simp [hc])) (by simpa using hf)
                refine ⟨b :: u, w, rfl, fun c hc => ?_, hcase⟩
                rcases List.mem_cons.mp hc with rfl | hc
                · exact ⟨h1, h2, by omega⟩
                · exact hu c hc

end MInv

/-- What is known of a block that is put back, between the areas `u` that are passed and the
others. -/
structure Between (F : Blk) (u w : List Blk) : Prop where
  base : F.base = F.hdr + 16
  passed : ∀ c ∈ u, c.base ≠ F.fin ∧ c.fin ≠ F.hdr ∧ c.base ≤ F.base
  sided : ∀ c ∈ u ++ w, c.fin ≤ F.hdr ∨ F.fin ≤ c.base
  ordered : (u ++ w).Pairwise fun b c => b.fin ≤ c.base
  le : ∀ c ∈ u ++ w, c.base ≤ c.fin

/-- The areas that are passed are before the block. -/
lemma Between.before (hb : Between F u w) (hc : c ∈ u) : c.fin ≤ F.hdr := by
  have h1 := hb.passed c hc
  have h2 := hb.sided c (List.mem_append_left _ hc)
  have h3 : F.fin = F.base + F.size := rfl
  omega

/-- The areas behind the first one that starts behind the block are behind it as well. -/
lemma Between.behind (hb : Between F u w) (hhead : ∀ d ∈ w.head?, F.base < d.base) (hc : c ∈ w) :
    F.fin ≤ c.base := by
  cases w with
  | nil => simp at hc
  | cons d w =>
      have hbase := hb.base
      have h1 := hhead d (by simp)
      have h2 := hb.sided d (by simp)
      have h3 := hb.le d (by simp)
      have hd : F.fin ≤ d.base := by omega
      rcases List.mem_cons.mp hc with rfl | hc
      · exact hd
      · have h4 := (List.pairwise_cons.mp (List.pairwise_append.mp hb.ordered).2.1).1 c hc
        omega

namespace MInv

variable (hi : MInv L h (u ++ w) al) (hb : Between F u w)
  (hF : base h.mem F.hdr = F.base ∧ size h.mem F.hdr = F.size)
  (hoff : ∀ y ∈ nodes L (u ++ w) al, Off F.hdr y)
  (hcut : Cut L.heapStart h.heapEnd ((F.hdr, F.fin) :: units (u ++ w) al))
include hi hb hcut

include hF hoff in
/-- **The block becomes a free area** of its own. -/
lemma putBack_insert {q : Nat} {l : List Nat} (hq : w.map Blk.hdr ++ [L.tail] = q :: l)
    (hhead : ∀ c ∈ w.head?, F.base < c.base) :
    MInv L { h with mem := insertBefore F.hdr q h.mem } (u ++ F :: w) al := by
  have hbase := hb.base
  have hF3 : F.fin = F.base + F.size := rfl
  have hin := hcut.of_cons.2.1
  have hfits := hi.fits
  simp only at hin
  refine hi.insertNode hq hoff (by omega) hF (fun _ _ => ⟨rfl, rfl, rfl, rfl⟩) ?_ ?_
    hi.start hi.fits
  · have hsplit := hcut.split (a := F.hdr + 16) (c := F.base) (by simp) (by omega)
      (by simp only; omega)
    exact hsplit.perm units_free.symm
  · have hord := List.pairwise_append.mp hb.ordered
    refine List.pairwise_append.mpr ⟨hord.1, List.pairwise_cons.mpr ⟨fun c hc => ?_, hord.2.1⟩, ?_⟩
    · exact hb.behind hhead hc
    · intro c hc d hd
      rcases List.mem_cons.mp hd with rfl | hd
      · have := hb.before hc
        omega
      · exact hord.2.2 c hc d hd

end MInv

namespace MInv

variable (hi : MInv L h (u ++ b :: w) al) (hb : Between F u (b :: w))
  (hcut : Cut L.heapStart h.heapEnd ((F.hdr, F.fin) :: units (u ++ b :: w) al))
include hi hb hcut

/-- **The block is joined** with the area behind it. -/
lemma putBack_before (heq : b.base = F.fin) :
    MInv L ⟨setSize (setBase h.mem b.hdr (b.base + 2 ^ 32 - (F.size + 16))) b.hdr
        (b.size + (F.size + 16)), h.init, h.heapEnd⟩
      (u ++ ⟨b.hdr, F.hdr, b.size + (F.size + 16)⟩ :: w) al := by
  have hbase := hb.base
  have hF3 : F.fin = F.base + F.size := rfl
  have hb3 : b.fin = b.base + b.size := rfl
  have hfits := hi.fits
  have hfin : (⟨b.hdr, F.hdr, b.size + (F.size + 16)⟩ : Blk).fin = b.fin := by
    simp only [Blk.fin] at *
    omega
  have hbn : b.hdr ∈ nodes L (u ++ b :: w) al := mem_nodes_fr (by simp)
  have hord := List.pairwise_append.mp hi.ordered
  have hordb := List.pairwise_cons.mp hord.2.1
  have hcut' := hcut.perm (units_area.cons _)
  have hinb := hi.cut.inside (b.base, b.fin) (mem_units_free (by simp)).2
  simp only at hinb
  refine hi.resize rfl (fun y hy => ?_) ?_ ?_ hi.start hi.fits
  · have hc := hi.clear hbn hy
    have e1 : (b.base + 2 ^ 32 - (F.size + 16)) % 2 ^ 32 = F.hdr := by omega
    have e2 : (b.size + (F.size + 16)) % 2 ^ 32 = b.size + (F.size + 16) :=
      Nat.mod_eq_of_lt (by omega)
    rw [base_setSize hc, size_setSize hc, next_setSize hc, prev_setSize hc, base_setBase hc,
      size_setBase hc, next_setBase hc, prev_setBase hc, e1, e2]
    exact ⟨rfl, rfl, rfl, rfl⟩
  · refine Cut.perm ?_ units_area.symm
    rw [hfin]
    refine hcut'.join heq.symm fun z hz h1 h2 => .inr ?_
    -- an empty area at the seam is not before `b`
    simp only at h1 h2 ⊢
    rcases List.mem_cons.mp hz with rfl | hz
    · simp only at h1 h2
      omega
    · rcases mem_units hz hi.alBase with h3 | ⟨c, hc, rfl⟩
      · omega
      · simp only at h1 h2
        rcases List.mem_append.mp hc with hc | hc
        · exact absurd h1 (hb.passed c hc).1
        · have := hordb.1 c hc
          omega
  · refine List.pairwise_append.mpr ⟨hord.1, List.pairwise_cons.mpr ⟨fun c hc => ?_, hordb.2⟩, ?_⟩
    · rw [hfin]
      exact hordb.1 c hc
    · intro c hc d hd
      rcases List.mem_cons.mp hd with rfl | hd
      · exact hb.before hc
      · exact hord.2.2 c hc d (by simp [hd])

/-- **The block is joined** with the area before it, if no empty area starts at the block. -/
lemma putBack_after (heq : b.fin = F.hdr)
    (hsafe : ∀ c ∈ u ++ w, c.base = F.hdr → c.size ≠ 0) :
    MInv L { h with mem := setSize h.mem b.hdr (b.size + (F.size + 16)) }
      (u ++ ⟨b.hdr, b.base, b.size + (F.size + 16)⟩ :: w) al := by
  have hbase := hb.base
  have hF3 : F.fin = F.base + F.size := rfl
  have hb3 : b.fin = b.base + b.size := rfl
  have hfits := hi.fits
  have hfin : (⟨b.hdr, b.base, b.size + (F.size + 16)⟩ : Blk).fin = F.fin := by
    simp only [Blk.fin] at *
    omega
  have hbn : b.hdr ∈ nodes L (u ++ b :: w) al := mem_nodes_fr (by simp)
  have hord := List.pairwise_append.mp hi.ordered
  have hordb := List.pairwise_cons.mp hord.2.1
  have hcut' := (hcut.perm (units_area.cons _)).perm (List.Perm.swap ..)
  have hinF := hcut.of_cons.2.1
  simp only at hinF
  refine hi.resize rfl (fun y hy => ?_) ?_ ?_ hi.start hi.fits
  · have hc := hi.clear hbn hy
    rw [base_setSize hc, size_setSize hc, next_setSize hc, prev_setSize hc,
      Nat.mod_eq_of_lt (by omega)]
    refine ⟨?_, rfl, rfl, rfl⟩
    split_ifs with he
    · rw [← he, (hi.fields b (by simp)).1]
    · rfl
  · refine Cut.perm ?_ units_area.symm
    rw [hfin]
    refine hcut'.join heq fun z hz h1 h2 => ?_
    simp only at h1 h2 ⊢
    rcases List.mem_cons.mp hz with rfl | hz
    · simp only at h1 h2
      omega
    · rcases mem_units hz hi.alBase with h3 | ⟨c, hc, rfl⟩
      · omega
      · simp only [Blk.fin] at h1 h2 heq
        exact absurd (by omega) (hsafe c hc (by omega))
  · refine List.pairwise_append.mpr ⟨hord.1, List.pairwise_cons.mpr ⟨fun c hc => ?_, hordb.2⟩, ?_⟩
    · rw [hfin]
      have h1 := hordb.1 c hc
      have h2 := hb.sided c (by simp [hc])
      have h3 := hb.le c (by simp [hc])
      have h4 := hsafe c (by simp [hc])
      have h5 : c.fin = c.base + c.size := rfl
      omega
    · intro c hc d hd
      rcases List.mem_cons.mp hd with rfl | hd
      · exact hord.2.2 c hc b (by simp)
      · exact hord.2.2 c hc d (by simp [hd])

end MInv

/-- The nodes in the list of free areas. -/
inductive OnFree (L : Layout) (m : Nat → Nat) : Nat → Prop
  | first (h : next m L.head ≠ L.tail) : OnFree L m (next m L.head)
  | next {x : Nat} (hx : OnFree L m x) (h : next m x ≠ L.tail) : OnFree L m (next m x)

/-- If a free area ends where the block at `ptr` starts with its node, no other free area
there is empty. -/
def FreeSafe (L : Layout) (h : MHeap) (ptr : Nat) : Prop :=
  ∀ x y, OnFree L h.mem x → OnFree L h.mem y → x ≠ y →
    base h.mem x + size h.mem x + 16 = ptr → base h.mem y + 16 = ptr → size h.mem y ≠ 0

namespace MInv

lemma onFree (hi : MInv L h fr al) (hb : b ∈ fr) : OnFree L h.mem b.hdr := by
  have hne : ∀ c ∈ fr, c.hdr ≠ L.tail := fun c hc =>
    hi.hdr_ne_static (List.mem_append_left _ (List.mem_map.mpr ⟨c, hc, rfl⟩)) (by simp)
  have hall : ∀ (l : List Blk) (p : Nat), IsLinked (next h.mem) (prev h.mem)
      (p :: (l.map Blk.hdr ++ [L.tail])) → (∀ c ∈ l, c.hdr ≠ L.tail) →
      (next h.mem p ≠ L.tail → OnFree L h.mem (next h.mem p)) → b ∈ l → OnFree L h.mem b.hdr := by
    intro l
    induction l with
    | nil => intro p _ _ _ hb; simp at hb
    | cons c l ih =>
        intro p hlink hl hp hb
        have hpc : next h.mem p = c.hdr := (List.isChain_cons_cons.mp hlink).1.1
        have hc : OnFree L h.mem c.hdr := hpc ▸ hp (hpc ▸ hl c (by simp))
        rcases List.mem_cons.mp hb with rfl | hb
        · exact hc
        · exact ih c.hdr (List.isChain_cons_cons.mp hlink).2 (fun d hd => hl d (by simp [hd]))
            (fun hn => .next hc hn) hb
  exact hall fr L.head hi.frLinked hne .first hb

/-- **A block is put back.** -/
lemma putBack (hi : MInv L h fr al) (hF0 : F.base = F.hdr + 16)
    (hF : base h.mem F.hdr = F.base ∧ size h.mem F.hdr = F.size)
    (hoff : ∀ y ∈ nodes L fr al, Off F.hdr y)
    (hcut : Cut L.heapStart h.heapEnd ((F.hdr, F.fin) :: units fr al))
    (hsafe : ∀ b c, b ∈ fr → c ∈ fr → b.hdr ≠ c.hdr → b.fin = F.hdr → c.base = F.hdr → c.size ≠ 0) :
    ∃ m' fr', putBack L F.hdr h.mem mallocFuel (next h.mem L.head) = some m' ∧
      MInv L { h with mem := m' } fr' al := by
  have hfits := hi.fits
  have hle : ∀ c ∈ fr, c.base ≤ c.fin ∧ c.fin ≤ h.heapEnd := fun c hc =>
    (hi.cut.inside (c.base, c.fin) (mem_units_free hc).2).2
  have hinF := hcut.of_cons.2.1
  simp only at hinF
  have hfields : ∀ b ∈ fr, base h.mem b.hdr = b.base ∧ size h.mem b.hdr = b.size ∧
      b.hdr ≠ L.tail ∧ Clear b.hdr F.hdr ∧ b.fin < 2 ^ 32 := by
    intro b hb
    have hbm : b.hdr ∈ fr.map Blk.hdr ++ al.map Blk.hdr :=
      List.mem_append_left _ (List.mem_map.mpr ⟨b, hb, rfl⟩)
    have h1 := hi.fields b (List.mem_append_left _ hb)
    exact ⟨h1.1, h1.2, hi.hdr_ne_static hbm (by simp),
      (hoff b.hdr (List.mem_append_right _ hbm)).clear.symm, (hle b hb).2.trans_lt hfits⟩
  have hsided : ∀ c ∈ fr, c.fin ≤ F.hdr ∨ F.fin ≤ c.base := by
    intro c hc
    have := hcut.of_cons.1 (c.base, c.fin) (mem_units_free hc).2
    simp only [Sided] at this
    omega
  obtain ⟨u, w, rfl, hu, hcase⟩ := putBack_eq hi.frLinked hfields ⟨hF.1, hF.2, by omega⟩
    hi.length_lt.1
  have hbetween : Between F u w := ⟨hF0, hu, hsided, hi.ordered, fun c hc => (hle c hc).1⟩
  rcases hcase with ⟨q, l, hq, hhead, heq⟩ | ⟨b, w, rfl, hb, heq⟩ | ⟨b, w, rfl, hb, heq⟩
  · exact ⟨_, _, heq, hi.putBack_insert hbetween hF hoff hcut hq hhead⟩
  · exact ⟨_, _, heq, hi.putBack_before hbetween hcut hb⟩
  · refine ⟨_, _, heq, hi.putBack_after hbetween hcut hb fun c hc hcF => ?_⟩
    refine hsafe b c (by simp) ?_ (hi.fr_ne_fr hc) hb hcF
    simp only [List.mem_append, List.mem_cons] at hc ⊢
    tauto

/-- **`free`** of a live block. -/
lemma free_live (hi : MInv L h fr al) (hptr : ptr ∈ al.map Blk.base) (hsafe : FreeSafe L h ptr) :
    ∃ h' fr' u F w, al = u ++ F :: w ∧ F.base = ptr ∧ (∀ c ∈ u, c.base ≠ ptr) ∧
      free L ptr h = some h' ∧ MInv L h' fr' (u ++ w) := by
  rcases hi.findAlloc_head ptr with ⟨-, hnone⟩ | ⟨u, F, w, rfl, hF, hu, hfind⟩
  · obtain ⟨b, hb, rfl⟩ := List.mem_map.mp hptr
    exact absurd rfl (hnone b hb)
  · obtain ⟨hinv, h1, h2, hoff, hcut⟩ := hi.unlink
    have hF0 := hi.alBase F (by simp)
    obtain ⟨m', fr', hput, hinv'⟩ := hinv.putBack hF0 ⟨h1, h2⟩ hoff hcut (by
      intro b c hb hc hne hbF hcF
      have hbf := hi.fields b (List.mem_append_left _ hb)
      have hcf := hi.fields c (List.mem_append_left _ hc)
      have hs := hsafe b.hdr c.hdr (hi.onFree hb) (hi.onFree hc) hne
      rw [hbf.1, hbf.2, hcf.1, hcf.2] at hs
      refine hs ?_ (by omega)
      have : b.fin = b.base + b.size := rfl
      omega)
    refine ⟨_, fr', u, F, w, rfl, hF, hu, ?_, hinv'⟩
    rw [free]
    simp only [hfind]
    have hunlink : setPrev (setNext h.mem (prev h.mem F.hdr) (next h.mem F.hdr))
        (next (setNext h.mem (prev h.mem F.hdr) (next h.mem F.hdr)) F.hdr)
        (prev (setNext h.mem (prev h.mem F.hdr) (next h.mem F.hdr)) F.hdr) =
          unlinkNode F.hdr h.mem := rfl
    rw [hunlink, hput]

/-- **`free`** of other pointers changes nothing. -/
lemma free_other (hi : MInv L h fr al) (hptr : ptr ∉ al.map Blk.base) : free L ptr h = some h := by
  rcases hi.findAlloc_head ptr with ⟨hfind, -⟩ | ⟨u, F, w, rfl, hF, -, -⟩
  · rw [free, hfind]
  · exact absurd (List.mem_map.mpr ⟨F, by simp, hF⟩) hptr

end MInv

/-! ### Runs -/

/-- Bytes that are the allocator's: the static nodes, and the heap without the live blocks. -/
def Private (L : Layout) (h : MHeap) (live : List (Nat × Nat)) (a : Nat) : Prop :=
  (∃ s ∈ [L.head, L.tail, L.aHead, L.aTail], s ≤ a ∧ a < s + 16) ∨
    (L.heapStart ≤ a ∧ a < h.heapEnd ∧ ∀ b ∈ live, ¬ (b.1 ≤ a ∧ a < b.1 + b.2))

/-- The states reached by a program that has called `malloc` before it calls `free`, with the
live blocks and their sizes. -/
inductive MReach (L : Layout) : MHeap → List (Nat × Nat) → Prop
  | start {h : MHeap} (hinit : h.init = false)
      (hzero : ∀ s ∈ [L.head, L.tail, L.aHead, L.aTail],
        base h.mem s = 0 ∧ size h.mem s = 0 ∧ next h.mem s = 0 ∧ prev h.mem s = 0) : MReach L h []
  | malloc {h h' : MHeap} {live : List (Nat × Nat)} {n sz p : Nat} (hs : MReach L h live)
      (hsz : sz < 2 ^ 31) (hm : malloc L n sz h = some (p, h')) : MReach L h' ((p, sz) :: live)
  | free {h h' : MHeap} {live : List (Nat × Nat)} {ptr : Nat} (hs : MReach L h live)
      (hinit : h.init = true) (hsafe : ptr ∈ live.map Prod.fst → FreeSafe L h ptr)
      (hf : free L ptr h = some h') : MReach L h' (live.eraseP fun b => b.1 = ptr)
  | store {h : MHeap} {live : List (Nat × Nat)} (m : Nat → Nat) (hs : MReach L h live)
      (hm : ∀ a, Private L h live a → m a = h.mem a) : MReach L { h with mem := m } live

/-- The blocks a list of nodes stands for. -/
def liveOf (al : List Blk) : List (Nat × Nat) := al.map fun b => (b.base, b.size)

lemma fst_liveOf (al : List Blk) : (liveOf al).map Prod.fst = al.map Blk.base := by
  simp [liveOf]

namespace MInv

/-- Initialization. -/
lemma of_init (hinit : h.init = false) (hzero : base h.mem L.head = 0 ∧ size h.mem L.head = 0) :
    MInv L (mallocInit L h) [] [] := by
  have hst := L.static_ne
  have hc : ∀ x ∈ [L.head, L.tail, L.aHead, L.aTail], ∀ y ∈ [L.head, L.tail, L.aHead, L.aTail],
      Clear x y := fun x hx y hy => clear_of_pairwise (l := [L.head, L.tail, L.aHead, L.aTail])
    L.apart hx hy
  have hlt : ∀ x ∈ [L.head, L.tail, L.aHead, L.aTail], x % 2 ^ 32 = x := by
    intro x hx
    have := L.inside x hx
    have := L.fits
    exact Nat.mod_eq_of_lt (by omega)
  simp only [List.mem_cons, List.not_mem_nil, or_false, forall_eq_or_imp, forall_eq] at hc hlt
  obtain ⟨⟨c11, c12, c13, c14⟩, ⟨c21, c22, c23, c24⟩, ⟨c31, c32, c33, c34⟩, c41, c42, c43, c44⟩ :=
    hc
  obtain ⟨e1, e2, e3, e4⟩ := hlt
  have hfits := L.fits
  have hm : mallocInit L h = ⟨setPrev (setNext (setPrev (setNext h.mem L.head L.tail) L.tail L.head)
      L.aHead L.aTail) L.aTail L.aHead, true, L.heapStart⟩ := by
    rw [mallocInit, hinit]
    rfl
  rw [hm]
  refine ⟨rfl, le_rfl, ?_, ?_, ?_, ?_, by simp, by simp, ⟨.nil, by simp [units]⟩, .nil⟩
  · unfold Layout.heapStart
    simp only
    omega
  · simp (disch := assumption) only [base_setPrev, base_setNext, size_setPrev, size_setNext]
    exact hzero
  · refine List.isChain_cons_cons.mpr ⟨⟨?_, ?_⟩, .singleton _⟩
    · simp (disch := assumption) only [next_setPrev, next_setNext, if_neg hst.2.1.symm, if_true, e2]
    · simp (disch := assumption) only [prev_setPrev, prev_setNext, if_neg hst.2.2.2.2.1.symm,
        if_true, e1]
  · refine List.isChain_cons_cons.mpr ⟨⟨?_, ?_⟩, .singleton _⟩
    · simp (disch := assumption) only [next_setPrev, next_setNext, if_true, e4]
    · simp (disch := assumption) only [prev_setPrev, if_true, e3]

/-- The nodes are not in live blocks. -/
lemma node_private (hi : MInv L h fr al) (hy : y ∈ nodes L fr al) (h1 : y ≤ x) (h2 : x < y + 16) :
    Private L h (liveOf al) x := by
  rcases List.mem_append.mp hy with hy | hy
  · exact .inl ⟨y, hy, h1, h2⟩
  · have hbounds := hi.hdr_bounds hy
    refine .inr ⟨by omega, by omega, fun b hb hin => ?_⟩
    obtain ⟨c, hc, rfl⟩ := List.mem_map.mp hb
    have hc0 := hi.alBase c hc
    have hfin : c.fin = c.base + c.size := rfl
    have hsep : Sided (y, y + 16) (c.hdr, c.fin) ∨ y = c.hdr := by
      rcases List.mem_append.mp hy with hy | hy
      · obtain ⟨d, hd, rfl⟩ := List.mem_map.mp hy
        exact .inl ((List.pairwise_append.mp hi.cut.sep).2.2 (d.hdr, d.hdr + 16)
          (List.mem_flatMap.mpr ⟨d, hd, by simp [freeUnits]⟩) _ (List.mem_map.mpr ⟨c, hc, rfl⟩))
      · obtain ⟨d, hd, rfl⟩ := List.mem_map.mp hy
        by_cases hdc : (d.hdr, d.fin) = (c.hdr, c.fin)
        · exact .inr (Prod.mk.inj hdc).1
        · have := (List.pairwise_append.mp hi.cut.sep).2.1.forall
            (List.mem_map.mpr ⟨d, hd, rfl⟩) (List.mem_map.mpr ⟨c, hc, rfl⟩) hdc
          have hd0 := hi.alBase d hd
          refine .inl ?_
          simp only [Sided, Blk.fin] at *
          omega
    simp only [Sided] at hsep hin
    omega

/-- Writes of the program. -/
lemma store (hi : MInv L h fr al) (hm : ∀ a, Private L h (liveOf al) a → m a = h.mem a) :
    MInv L { h with mem := m } fr al := by
  have hld : ∀ y ∈ nodes L fr al, ∀ k, k ≤ 12 → ld m (y + k) = ld h.mem (y + k) := by
    intro y hy k hk
    exact ld_congr fun x h1 h2 => hm x (hi.node_private hy (by omega) (by omega))
  have hbase : ∀ y ∈ nodes L fr al, base m y = base h.mem y := fun y hy => hld y hy 0 (by omega)
  have hsize : ∀ y ∈ nodes L fr al, size m y = size h.mem y := fun y hy => hld y hy 4 (by omega)
  have hnext : ∀ y ∈ nodes L fr al, next m y = next h.mem y := fun y hy => hld y hy 8 (by omega)
  have hprev : ∀ y ∈ nodes L fr al, prev m y = prev h.mem y := fun y hy => hld y hy 12 (by omega)
  refine ⟨hi.init, hi.start, hi.fits, ?_, ?_, ?_, fun c hc => ?_, hi.alBase, hi.cut, hi.ordered⟩
  · have hh : L.head ∈ nodes L fr al := mem_nodes_fr (by simp)
    rw [hbase _ hh, hsize _ hh]
    exact hi.headZero
  · refine hi.frLinked.congr (fun x hx => hnext x (mem_nodes_fr ?_)) fun x hx =>
      hprev x (mem_nodes_fr (List.mem_of_mem_tail hx))
    exact (List.dropLast_sublist _).subset hx
  · refine hi.alLinked.congr (fun x hx => hnext x (mem_nodes_al ?_)) fun x hx =>
      hprev x (mem_nodes_al (List.mem_of_mem_tail hx))
    exact (List.dropLast_sublist _).subset hx
  · have hcn : c.hdr ∈ nodes L fr al :=
      List.mem_append_right _ (by rw [← List.map_append]; exact List.mem_map.mpr ⟨c, hc, rfl⟩)
    rw [hbase _ hcn, hsize _ hcn]
    exact hi.fields c hc

end MInv

/-- Before the first call of `malloc`, or after it. -/
def MState (L : Layout) (h : MHeap) (live : List (Nat × Nat)) : Prop :=
  (h.init = false ∧ live = [] ∧ base h.mem L.head = 0 ∧ size h.mem L.head = 0) ∨
    ∃ fr al, MInv L h fr al ∧ live = liveOf al

lemma mallocInit_idem (L : Layout) (h : MHeap) :
    mallocInit L (mallocInit L h) = mallocInit L h := by
  cases hinit : h.init with
  | true => simp [mallocInit, hinit]
  | false => simp [mallocInit, hinit]

lemma malloc_init (L : Layout) (n sz : Nat) (h : MHeap) :
    malloc L n sz h = malloc L n sz (mallocInit L h) := by
  cases n with
  | zero => rfl
  | succ n => rw [malloc, malloc, mallocInit_idem]

/-- After initialization. -/
lemma MState.mallocInit {live : List (Nat × Nat)} (hs : MState L h live) :
    ∃ fr al, MInv L (mallocInit L h) fr al ∧ live = liveOf al := by
  rcases hs with ⟨hinit, rfl, hzero⟩ | ⟨fr, al, hi, rfl⟩
  · exact ⟨[], [], MInv.of_init hinit hzero, rfl⟩
  · exact ⟨fr, al, hi.mallocInit_eq.symm ▸ hi, rfl⟩

lemma MReach.state {live : List (Nat × Nat)} (hs : MReach L h live) : MState L h live := by
  induction hs with
  | start hinit hzero =>
      have := hzero L.head (by simp)
      exact .inl ⟨hinit, rfl, this.1, this.2.1⟩
  | malloc _ hsz hm ih =>
      obtain ⟨fr, al, hi, rfl⟩ := ih.mallocInit
      rw [malloc_init] at hm
      obtain ⟨fr', hi'⟩ := hi.malloc_inv hsz hm
      exact .inr ⟨fr', _, hi', rfl⟩
  | @free h h' live ptr _ hinit hsafe hf ih =>
      rcases ih with ⟨hinit', -⟩ | ⟨fr, al, hi, rfl⟩
      · rw [hinit] at hinit'
        simp at hinit'
      · by_cases hptr : ptr ∈ al.map Blk.base
        · obtain ⟨h₁, fr', u, F, w, rfl, hF, hu, hfree, hi'⟩ :=
            hi.free_live hptr (hsafe (by rwa [fst_liveOf]))
          obtain rfl := Option.some.inj (hfree.symm.trans hf)
          refine .inr ⟨fr', _, hi', ?_⟩
          have hnot : ∀ b ∈ liveOf u, ¬ (decide (b.1 = ptr) = true) := by
            intro b hb
            obtain ⟨c, hc, rfl⟩ := List.mem_map.mp hb
            simpa using hu c hc
          have hsplit : liveOf (u ++ F :: w) = liveOf u ++ (F.base, F.size) :: liveOf w := by
            simp [liveOf]
          rw [hsplit, List.eraseP_append_right _ hnot, List.eraseP_cons_of_pos (by simpa using hF)]
          simp [liveOf]
        · obtain rfl := Option.some.inj ((hi.free_other hptr).symm.trans hf)
          refine .inr ⟨fr, al, hi, List.eraseP_of_forall_not fun b hb => ?_⟩
          obtain ⟨c, hc, rfl⟩ := List.mem_map.mp hb
          simp only [decide_eq_true_eq]
          exact fun he => hptr (List.mem_map.mpr ⟨c, hc, he⟩)
  | @store h live m _ hm ih =>
      rcases ih with ⟨hinit, rfl, hb, hz⟩ | ⟨fr, al, hi, rfl⟩
      · have hhead : ∀ k, k ≤ 12 → ld m (L.head + k) = ld h.mem (L.head + k) := fun k hk =>
          ld_congr fun x h1 h2 => hm x (.inl ⟨L.head, by simp, by omega, by omega⟩)
        exact .inl ⟨hinit, rfl, (hhead 0 (by omega)).trans hb, (hhead 4 (by omega)).trans hz⟩
      · exact .inr ⟨fr, al, hi.store hm, rfl⟩

/-! ### Safety -/

/-- The bytes of a block, or of a free area. -/
def Blk.bytes (b : Blk) : Nat × Nat := (b.base, b.fin)

/-- The bytes of a node. -/
def Blk.node (b : Blk) : Nat × Nat := (b.hdr, b.hdr + 16)

/-- The lists in memory, and how the areas and the live blocks lie. -/
structure MallocSound (L : Layout) (h : MHeap) (live : List (Nat × Nat)) (fr al : List Blk) :
    Prop where
  frLinked : IsLinked (next h.mem) (prev h.mem) (L.head :: (fr.map Blk.hdr ++ [L.tail]))
  alLinked : IsLinked (next h.mem) (prev h.mem) (L.aHead :: (al.map Blk.hdr ++ [L.aTail]))
  fields : ∀ b ∈ fr ++ al, base h.mem b.hdr = b.base ∧ size h.mem b.hdr = b.size
  live : live = liveOf al
  sorted : fr.Pairwise fun b c => b.base ≤ c.base
  areas : fr.Pairwise fun b c => Sided b.bytes c.bytes
  blocks : al.Pairwise fun b c => Sided b.bytes c.bytes
  inside : ∀ b ∈ al, L.heapStart ≤ b.base ∧ b.fin ≤ h.heapEnd
  areaSided : ∀ b ∈ al, ∀ c ∈ fr, Sided b.bytes c.bytes
  nodeSided : ∀ b ∈ al, ∀ c ∈ fr ++ al, Sided b.bytes c.node

lemma MInv.sound (hi : MInv L h fr al) : MallocSound L h (liveOf al) fr al := by
  have hle : ∀ c ∈ fr, c.base ≤ c.fin := fun c hc =>
    (hi.cut.inside (c.base, c.fin) (mem_units_free hc).2).2.1
  have hal : ∀ b ∈ al, b.base = b.hdr + 16 ∧ L.heapStart ≤ b.hdr ∧ b.fin ≤ h.heapEnd := fun b hb =>
    ⟨hi.alBase b hb, (hi.cut.inside (b.hdr, b.fin) (mem_units_alloc hb)).1,
      (hi.cut.inside (b.hdr, b.fin) (mem_units_alloc hb)).2.2⟩
  have hsep := List.pairwise_append.mp hi.cut.sep
  have hblock : ∀ b ∈ al, ∀ c ∈ fr, Sided (c.hdr, c.hdr + 16) (b.hdr, b.fin) ∧
      Sided (c.base, c.fin) (b.hdr, b.fin) := by
    intro b hb c hc
    have hbm : (b.hdr, b.fin) ∈ al.map fun b => (b.hdr, b.fin) := List.mem_map.mpr ⟨b, hb, rfl⟩
    exact ⟨hsep.2.2 _ (List.mem_flatMap.mpr ⟨c, hc, by simp [freeUnits]⟩) _ hbm,
      hsep.2.2 _ (List.mem_flatMap.mpr ⟨c, hc, by simp [freeUnits]⟩) _ hbm⟩
  refine ⟨hi.frLinked, hi.alLinked, hi.fields, rfl, ?_, ?_, ?_, fun b hb => ?_, fun b hb c hc => ?_,
    fun b hb c hc => ?_⟩
  · exact hi.ordered.imp_of_mem fun hb _ hbc => (hle _ hb).trans hbc
  · exact hi.ordered.imp fun hbc => .inl hbc
  · refine (List.pairwise_map.mp hsep.2.1).imp_of_mem fun {b c} hb hc hbc => ?_
    have h1 := hal b hb
    have h2 := hal c hc
    simp only [Sided, Blk.bytes] at *
    omega
  · have := hal b hb
    omega
  · have h1 := hal b hb
    have h2 := (hblock b hb c hc).2
    simp only [Sided, Blk.bytes] at *
    omega
  · have h1 := hal b hb
    have hfin : b.fin = b.base + b.size := rfl
    rcases List.mem_append.mp hc with hc | hc
    · have h2 := (hblock b hb c hc).1
      simp only [Sided, Blk.bytes, Blk.node] at *
      omega
    · have h2 := hal c hc
      by_cases hbc : (b.hdr, b.fin) = (c.hdr, c.fin)
      · have := (Prod.mk.inj hbc).1
        simp only [Sided, Blk.bytes, Blk.node]
        omega
      · have h3 := hsep.2.1.forall (List.mem_map.mpr ⟨b, hb, rfl⟩)
          (List.mem_map.mpr ⟨c, hc, rfl⟩) hbc
        have hfin' : c.fin = c.base + c.size := rfl
        simp only [Sided, Blk.bytes, Blk.node] at *
        omega

/-- **`malloc` and `free` are safe** in runs that call `malloc` first, and that do not give back
a block behind a free area where an empty one starts. -/
theorem malloc_sound {live : List (Nat × Nat)} (hs : MReach L h live) :
    ((h.init = false ∧ live = []) ∨ ∃ fr al, MallocSound L h live fr al) ∧
      (h.init = true → ∀ ptr ∉ live.map Prod.fst, free L ptr h = some h) ∧
      (∀ ptr ∈ live.map Prod.fst, FreeSafe L h ptr → ∃ h', free L ptr h = some h') ∧
      ∀ sz < 2 ^ 31, (mallocInit L h).heapEnd + mallocPages sz * 4096 < 2 ^ 32 →
        ∃ r, malloc L 2 sz h = some r := by
  refine ⟨?_, fun hinit ptr hptr => ?_, fun ptr hptr hsafe => ?_, fun sz hsz hp => ?_⟩
  · rcases hs.state with ⟨hinit, hlive, -⟩ | ⟨fr, al, hi, rfl⟩
    · exact .inl ⟨hinit, hlive⟩
    · exact .inr ⟨fr, al, hi.sound⟩
  · rcases hs.state with ⟨hinit', -⟩ | ⟨fr, al, hi, rfl⟩
    · rw [hinit] at hinit'
      simp at hinit'
    · rw [fst_liveOf] at hptr
      exact hi.free_other hptr
  · rcases hs.state with ⟨-, rfl, -⟩ | ⟨fr, al, hi, rfl⟩
    · simp at hptr
    · rw [fst_liveOf] at hptr
      obtain ⟨h', -, -, -, -, -, -, -, hf, -⟩ := hi.free_live hptr hsafe
      exact ⟨h', hf⟩
  · obtain ⟨fr, al, hi, -⟩ := hs.state.mallocInit
    obtain ⟨p, h', -, hm, -⟩ := hi.malloc_two hsz hp 0
    exact ⟨(p, h'), by rw [malloc_init, hm]⟩

/-- A program of 64 bytes of static data. -/
def smallProgram : Layout := ⟨4096, 4112, 4128, 4144, 4160, by decide, by decide, by decide⟩

/-- The memory of a program that starts. -/
def zeroHeap : MHeap := ⟨fun _ => 0, false, 0⟩

lemma zeroHeap_reach : MReach smallProgram zeroHeap [] :=
  .start rfl fun _ _ => ⟨rfl, rfl, rfl, rfl⟩

/-- The nodes in `l` are those of the free areas, and `FreeSafe` holds of them. -/
def SafeIn (L : Layout) (h : MHeap) (ptr : Nat) (l : List Nat) : Prop :=
  (∀ x ∈ L.head :: l, next h.mem x = L.tail ∨ next h.mem x ∈ l) ∧
    ∀ x ∈ l, ∀ y ∈ l, x ≠ y → base h.mem x + size h.mem x + 16 = ptr → base h.mem y + 16 = ptr →
      size h.mem y ≠ 0

instance (h : MHeap) (ptr : Nat) (l : List Nat) : Decidable (SafeIn L h ptr l) := by
  unfold SafeIn
  infer_instance

lemma SafeIn.freeSafe {ptr : Nat} {l : List Nat} (hl : SafeIn L h ptr l) : FreeSafe L h ptr := by
  have hmem : ∀ {x}, OnFree L h.mem x → x ∈ l := by
    intro x hx
    induction hx with
    | first hne => exact (hl.1 _ (List.mem_cons_self ..)).resolve_left hne
    | next _ hne ih => exact (hl.1 _ (List.mem_cons_of_mem _ ih)).resolve_left hne
  exact fun x y hx hy => hl.2 x (hmem hx) y (hmem hy)

/-- A program that calls `malloc` three times, gives the first two blocks back, and calls
`malloc` again. -/
def smallCalls : Option ((Nat × Nat × Nat × Nat) × MHeap × MHeap × MHeap) := do
  let (p, h₁) ← malloc smallProgram 2 100 zeroHeap
  let (q, h₂) ← malloc smallProgram 2 50 h₁
  let (r, h₃) ← malloc smallProgram 2 20 h₂
  let h₄ ← free smallProgram p h₃
  let h₅ ← free smallProgram q h₄
  let (t, h₆) ← malloc smallProgram 2 120 h₅
  return ((p, q, r, t), h₃, h₄, h₆)

lemma smallCalls_eq : smallCalls.map (fun c => (c.1, c.2.1.init, c.2.2.1.init,
      decide (SafeIn smallProgram c.2.1 8224 [8192]),
      decide (SafeIn smallProgram c.2.2.1 8340 [8208, 8192]))) =
    some ((8224, 8340, 8406, 8240), true, true, true, true) := by
  decide +kernel

/-- The last call is served from the two blocks that are given back, which are one free area by
then. -/
theorem malloc_sound_hundred : ∃ h h', MReach smallProgram h [(8406, 20), (8340, 50), (8224, 100)] ∧
    (∃ fr al, MallocSound smallProgram h [(8406, 20), (8340, 50), (8224, 100)] fr al) ∧
    FreeSafe smallProgram h 8224 ∧ MReach smallProgram h' [(8240, 120), (8406, 20)] ∧
    ∃ fr al, MallocSound smallProgram h' [(8240, 120), (8406, 20)] fr al := by
  obtain ⟨⟨⟨_, _, _, _⟩, _, _, _⟩, hrun, heq⟩ := Option.map_eq_some_iff.mp smallCalls_eq
  simp only [Prod.mk.injEq, decide_eq_true_eq] at heq
  obtain ⟨⟨rfl, rfl, rfl, rfl⟩, hinit₃, hinit₄, hsafe₃, hsafe₄⟩ := heq
  simp only [smallCalls, Option.bind_eq_bind, Option.bind_eq_some_iff, Option.pure_def,
    Option.some.injEq, Prod.mk.injEq, Prod.exists] at hrun
  obtain ⟨_, h₁, m1, _, h₂, m2, _, h₃, m3, h₄, f4, h₅, f5, _, h₆, m6, ⟨rfl, rfl, rfl, rfl⟩,
    rfl, rfl, rfl⟩ := hrun
  have r3 := ((zeroHeap_reach.malloc (by decide) m1).malloc (by decide) m2).malloc (by decide) m3
  have r4 : MReach smallProgram h₄ [(8406, 20), (8340, 50)] :=
    r3.free hinit₃ (fun _ => hsafe₃.freeSafe) f4
  have r5 : MReach smallProgram h₅ [(8406, 20)] := r4.free hinit₄ (fun _ => hsafe₄.freeSafe) f5
  have r6 := r5.malloc (by decide) m6
  exact ⟨_, _, r3, (malloc_sound r3).1.resolve_left (by simp), hsafe₃.freeSafe, r6,
    (malloc_sound r6).1.resolve_left (by simp)⟩

/-- A program that calls `free` first follows the null pointer in `a_head`. -/
theorem free_first_null : MReach smallProgram zeroHeap [] ∧
    free smallProgram 8192 zeroHeap = none := by
  refine ⟨.start rfl fun _ _ => ⟨rfl, rfl, rfl, rfl⟩, ?_⟩
  have hfuel : mallocFuel = 4294967295 + 1 := by unfold mallocFuel; omega
  have hnext : next zeroHeap.mem smallProgram.aHead = 0 := rfl
  have hne : (0 : Nat) ≠ smallProgram.aTail := by decide
  rw [free, hnext, hfuel, findAlloc, if_neg hne, if_pos rfl]

end Hazelnut

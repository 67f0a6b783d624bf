import Mathlib.Logic.Function.Basic
import Mathlib.Data.List.Range
import Hazelnut.Lib.Chain
import Hazelnut.Thread.Tcb

/-!
The kernel memory allocator, after `kernel/src/kmemory.c`.

Memory comes in chunks of `KMEM_CHUNKSIZE` bytes.  The free chunks form a list that is
linked through their first words, in ascending order.

* `kmemFree`, `kmemInit`, `kmemAlloc`: the functions of the source.  A loop that has not
  ended after `fuel` rounds gives `none`.
* `checkRun_spec`, `allocScan_spec`: what the search for adjacent free chunks finds.
* `linkRun_spec`, `findPlace_spec`: the new links of `kmem_free`, and where they go.
-/

namespace Hazelnut

/-! ### The allocator -/

/-- `KMEM_CHUNKSIZE`. -/
def kmemChunksize : Word := 0x400

/-- The words of memory, by their addresses, `kmem_free_list` and `free_chunks`. -/
structure Kmem where
  mem : Word → Word
  freeList : Word
  freeChunks : Word

namespace Kmem

variable (k : Kmem)

/-- What a pointer to a link points to, where `none` is `&kmem_free_list`. -/
def get : Option Word → Word
  | none => k.freeList
  | some p => k.mem p

def set (v : Word) : Option Word → Kmem
  | none => { k with freeList := v }
  | some p => { k with mem := Function.update k.mem p v }

end Kmem

/-- The first loop of `kmem_free`: the chunks from `p` on are linked, up to the last one,
which is returned. -/
def linkRun (lim : Word) : Nat → Word → Kmem → Option (Word × Kmem)
  | 0, _, _ => none
  | fuel + 1, p, k =>
    if p < lim then
      let k := k.set (p + kmemChunksize) (some p)
      linkRun lim fuel (k.mem p) k
    else some (p, k)

/-- The second loop of `kmem_free`: `prev` and `curr` for the place to insert at. -/
def findPlace (address : Word) (k : Kmem) : Nat → Option Word → Word → Option (Option Word × Word)
  | 0, _, _ => none
  | fuel + 1, prev, curr =>
    if curr ≠ 0 ∧ curr < address then findPlace address k fuel (some curr) (k.mem curr)
    else some (prev, curr)

/-- `kmem_free`. -/
def kmemFree (fuel : Nat) (address size : Word) (k : Kmem) : Option Kmem := do
  let (p, k) ← linkRun (address + size - kmemChunksize) fuel address k
  let (prev, curr) ← findPlace address k fuel none k.freeList
  let k := (k.set address prev).set curr (some p)
  return { k with freeChunks := k.freeChunks + size / kmemChunksize }

/-- `kmem_init`, for the values of `kmem_start` and `kmem_end`. -/
def kmemInit (fuel : Nat) (kmemStart kmemEnd : Word) (k : Kmem) : Option Kmem :=
  kmemFree fuel kmemStart (kmemEnd - kmemStart) { k with freeList := 0, freeChunks := 0 }

/-- The inner loop of `kmem_alloc`: `n` more chunks have to follow, the next of them the
`i`th from `curr` on.  The result is what comes behind them, or null. -/
def checkRun (k : Kmem) (curr : Word) : Nat → Nat → Word → Word
  | 0, _, tmp => tmp
  | n + 1, i, tmp =>
    if tmp = 0 then 0
    else if tmp ≠ curr + kmemChunksize * BitVec.ofNat 32 i then 0
    else checkRun k curr n (i + 1) (k.mem tmp)

/-- Zeroing `n` words from `p` on. -/
def zeroWords : Nat → Word → (Word → Word) → Word → Word
  | 0, _, m => m
  | n + 1, p, m => zeroWords n (p + 4) (Function.update m p 0)

/-- The chunks from `curr` up to `tmp` leave the list. -/
def takeRun (k : Kmem) (size : Word) (prev : Option Word) (curr tmp : Word) : Kmem :=
  let k := k.set tmp prev
  { k with
    mem := zeroWords (size / 4).toNat curr k.mem
    freeChunks := k.freeChunks - size / kmemChunksize }

/-- The outer loop of `kmem_alloc`. -/
def allocScan (size : Word) (k : Kmem) : Nat → Option Word → Word → Option (Word × Kmem)
  | 0, _, _ => none
  | fuel + 1, prev, curr =>
    if curr = 0 then some (0, k)
    else if curr &&& (size - 1) = 0 then
      let tmp := checkRun k curr ((size / kmemChunksize).toNat - 1) 1 (k.mem curr)
      if tmp ≠ 0 then some (curr, takeRun k size prev curr tmp)
      else allocScan size k fuel (some curr) (k.mem curr)
    else allocScan size k fuel (some curr) (k.mem curr)

/-- `kmem_alloc`: the block, null if there is none. -/
def kmemAlloc (fuel : Nat) (size : Word) (k : Kmem) : Option (Word × Kmem) :=
  allocScan size k fuel none k.freeList

/-! ### Chunks -/

/-- The address of a chunk, and the size of so many chunks. -/
def chunkAddr (c : Nat) : Word := BitVec.ofNat 32 (1024 * c)

/-- A chunk that can be told from null. -/
def IsChunk (c : Nat) : Prop := 0 < c ∧ c < 2 ^ 22

variable {k : Kmem} {a b c n i : Nat} {l u v : List Nat} {o : Option Word}

lemma chunkAddr_toNat (hc : c < 2 ^ 22) : (chunkAddr c).toNat = 1024 * c := by
  rw [chunkAddr, BitVec.toNat_ofNat, Nat.mod_eq_of_lt (by omega)]

lemma chunkAddr_one : chunkAddr 1 = kmemChunksize := rfl

lemma chunkAddr_add (a b : Nat) : chunkAddr a + chunkAddr b = chunkAddr (a + b) := by
  rw [chunkAddr, chunkAddr, chunkAddr, ← BitVec.ofNat_add, Nat.mul_add]

lemma chunkAddr_inj (ha : a < 2 ^ 22) (hb : b < 2 ^ 22) (h : chunkAddr a = chunkAddr b) :
    a = b := by
  have := congrArg BitVec.toNat h
  rw [chunkAddr_toNat ha, chunkAddr_toNat hb] at this
  omega

lemma chunkAddr_ne_zero (hc : IsChunk c) : chunkAddr c ≠ 0 := by
  intro h
  have := chunkAddr_inj hc.2 (b := 0) (by omega) h
  have := hc.1
  omega

lemma chunkAddr_lt (ha : a < 2 ^ 22) (hb : b < 2 ^ 22) : chunkAddr a < chunkAddr b ↔ a < b := by
  rw [BitVec.lt_def, chunkAddr_toNat ha, chunkAddr_toNat hb]
  omega

lemma chunkAddr_sub_one (hn : 0 < n) : chunkAddr n - kmemChunksize = chunkAddr (n - 1) := by
  rw [← chunkAddr_one]
  nth_rewrite 1 [← Nat.sub_add_cancel hn]
  rw [← chunkAddr_add, BitVec.add_sub_cancel]

lemma chunkAddr_div (hn : n < 2 ^ 22) : (chunkAddr n / kmemChunksize).toNat = n := by
  have h1024 : kmemChunksize.toNat = 1024 := rfl
  rw [BitVec.toNat_udiv, chunkAddr_toNat hn, h1024]
  omega

/-- The address of a word in the run of chunks that starts with `c`. -/
def wordAddr (c i : Nat) : Word := chunkAddr c + BitVec.ofNat 32 (4 * i)

lemma wordAddr_zero (c : Nat) : wordAddr c 0 = chunkAddr c := by
  simp [wordAddr]

lemma wordAddr_toNat (h : 1024 * c + 4 * i < 2 ^ 32) : (wordAddr c i).toNat = 1024 * c + 4 * i := by
  rw [wordAddr, chunkAddr, ← BitVec.ofNat_add, BitVec.toNat_ofNat, Nat.mod_eq_of_lt h]

lemma wordAddr_succ (c i : Nat) : wordAddr c i + 4 = wordAddr c (i + 1) := by
  rw [wordAddr, wordAddr, Nat.mul_add 4 i 1, BitVec.ofNat_add, BitVec.add_assoc]
  rfl

/-- The first word of a chunk outside a run is no word of the run. -/
lemma wordAddr_ne (ha : a < 2 ^ 22) (hn : c + n ≤ 2 ^ 22) (hi : i < 256 * n)
    (hout : a < c ∨ c + n ≤ a) : chunkAddr a ≠ wordAddr c i := by
  intro h
  have := congrArg BitVec.toNat h
  rw [chunkAddr_toNat ha, wordAddr_toNat (by omega)] at this
  omega

/-! ### Reading and writing links -/

lemma Kmem.get_set_self (v : Word) : (k.set v o).get o = v := by
  cases o with
  | none => rfl
  | some p => exact Function.update_self ..

lemma Kmem.get_set_of_ne {o' : Option Word} (v : Word) (h : o' ≠ o) :
    (k.set v o).get o' = k.get o' := by
  cases o with
  | none =>
      cases o' with
      | none => exact absurd rfl h
      | some p => rfl
  | some p =>
      cases o' with
      | none => rfl
      | some q => exact Function.update_of_ne (fun he => h (congrArg some he)) ..

@[simp] lemma Kmem.set_freeChunks (v : Word) : (k.set v o).freeChunks = k.freeChunks := by
  cases o <;> rfl

lemma zeroWords_of_ne {m : Word → Word} {x : Word} (hx : ∀ j < n, x ≠ wordAddr c (i + j)) :
    zeroWords n (wordAddr c i) m x = m x := by
  induction n generalizing i m with
  | zero => rfl
  | succ n ih =>
      rw [zeroWords, wordAddr_succ, ih]
      · exact Function.update_of_ne (hx 0 (Nat.succ_pos n)) ..
      · intro j hj
        have := hx (j + 1) (Nat.succ_lt_succ hj)
        rwa [Nat.add_left_comm, Nat.add_comm] at this

lemma zeroWords_self {m : Word → Word} {j : Nat} (hj : j < n)
    (hb : 1024 * c + 4 * (i + n) ≤ 2 ^ 32) :
    zeroWords n (wordAddr c i) m (wordAddr c (i + j)) = 0 := by
  induction n generalizing i j m with
  | zero => omega
  | succ n ih =>
      rw [zeroWords, wordAddr_succ]
      cases j with
      | zero =>
          rw [zeroWords_of_ne, Nat.add_zero, Function.update_self]
          intro j' hj' h
          have := congrArg BitVec.toNat h
          rw [wordAddr_toNat (by omega), wordAddr_toNat (by omega)] at this
          omega
      | succ j =>
          rw [Nat.add_comm j 1, ← Nat.add_assoc]
          exact ih (by omega) (by omega)

/-! ### The search of `kmem_alloc` -/

/-- The list of free chunks behind a link. -/
def FreeList (k : Kmem) (o : Option Word) (l : List Nat) : Prop :=
  Chain.IsChain k.get 0 o (l.map chunkAddr)

lemma freeList_cons : FreeList k o (c :: l) ↔
    k.get o = chunkAddr c ∧ chunkAddr c ≠ 0 ∧ FreeList k (some (chunkAddr c)) l :=
  Chain.isChain_cons

lemma FreeList.eq_nil_iff (h : FreeList k o l) : k.get o = 0 ↔ l = [] := by
  rw [Chain.IsChain.eq_nil_iff h, List.map_eq_nil_iff]

lemma FreeList.exists_cons (h : FreeList k o l) (h0 : k.get o ≠ 0) :
    ∃ c l', l = c :: l' ∧ k.get o = chunkAddr c ∧ FreeList k (some (chunkAddr c)) l' := by
  cases l with
  | nil => exact absurd (h.eq_nil_iff.mpr rfl) h0
  | cons c l => exact ⟨c, l, rfl, (freeList_cons.mp h).1, (freeList_cons.mp h).2.2⟩

/-- **The inner loop** finds the chunks `c + i`, ..., `c + i + n - 1` in front of the list,
with another one behind them. -/
lemma checkRun_spec (h : FreeList k o l) (hl : ∀ x ∈ l, c < x ∧ x < 2 ^ 22) (hi : i + n ≤ 2 ^ 22)
    (h0 : checkRun k (chunkAddr c) n i (k.get o) ≠ 0) :
    ∃ x l', l = List.range' (c + i) n ++ x :: l' ∧
      checkRun k (chunkAddr c) n i (k.get o) = chunkAddr x := by
  induction n generalizing i l o with
  | zero =>
      obtain ⟨x, l', rfl, hx, -⟩ := h.exists_cons h0
      exact ⟨x, l', rfl, hx⟩
  | succ n ih =>
      have hne : k.get o ≠ 0 := by
        intro he
        rw [checkRun, if_pos he] at h0
        exact h0 rfl
      obtain ⟨x, l₁, rfl, hx, hl₁⟩ := h.exists_cons hne
      rw [checkRun, if_neg hne] at h0 ⊢
      have hxc : x = c + i := by
        by_contra hxc
        refine h0 (if_pos fun heq => hxc ?_)
        have hmul : kmemChunksize * BitVec.ofNat 32 i = chunkAddr i := by
          rw [chunkAddr, BitVec.ofNat_mul]
          rfl
        rw [hx, hmul, chunkAddr_add] at heq
        obtain ⟨h1, h2⟩ := hl x (by simp)
        have ht := congrArg BitVec.toNat heq
        rw [chunkAddr_toNat h2, chunkAddr, BitVec.toNat_ofNat] at ht
        omega
      subst hxc
      have hif : ¬ k.get o ≠ chunkAddr c + kmemChunksize * BitVec.ofNat 32 i := by
        intro hne'
        rw [if_pos hne'] at h0
        exact h0 rfl
      rw [if_neg hif, hx] at h0 ⊢
      obtain ⟨y, l', rfl, hy⟩ := ih hl₁ (fun z hz => hl z (by simp [hz])) (by omega) h0
      refine ⟨y, l', ?_, hy⟩
      rw [List.range'_succ, List.cons_append, Nat.add_assoc]

/-- The lists the search runs over. -/
def Ascending (l : List Nat) : Prop := l.Pairwise (· < ·) ∧ ∀ x ∈ l, IsChunk x

/-- The link behind the chunks `u`. -/
def linkBehind (u : List Nat) : Option Word := Chain.last none (u.map chunkAddr)

lemma linkBehind_concat (u : List Nat) (c : Nat) :
    linkBehind (u ++ [c]) = some (chunkAddr c) := by
  simp [linkBehind]

/-- **The outer loop** ends, with nothing, or with the first suitable run of `n` chunks that
are free. -/
lemma allocScan_spec {fuel : Nat} (h : FreeList k none (u ++ v)) (ha : Ascending (u ++ v))
    (hn : 0 < n) (hn' : n < 2 ^ 22) (hf : v.length < fuel) :
    allocScan (chunkAddr n) k fuel (linkBehind u) (k.get (linkBehind u)) = some (0, k) ∨
    ∃ u' c x l', u ++ v = u' ++ (List.range' c n ++ x :: l') ∧
      chunkAddr c &&& (chunkAddr n - 1) = 0 ∧
      allocScan (chunkAddr n) k fuel (linkBehind u) (k.get (linkBehind u)) =
        some (chunkAddr c, takeRun k (chunkAddr n) (linkBehind u') (chunkAddr c)
        (chunkAddr x)) := by
  induction fuel generalizing u v with
  | zero => omega
  | succ fuel ih =>
      have hv : FreeList k (linkBehind u) v := by
        rw [FreeList, List.map_append] at h
        exact (Chain.isChain_append.mp h).2
      cases v with
      | nil =>
          rw [allocScan, if_pos (hv.eq_nil_iff.mpr rfl)]
          exact .inl rfl
      | cons c v =>
          obtain ⟨hc, hc0, hv'⟩ := freeList_cons.mp hv
          have hnext : k.mem (chunkAddr c) = k.get (linkBehind (u ++ [c])) := by
            rw [linkBehind_concat]
            rfl
          -- the search goes on behind `c`
          have hrest := ih (u := u ++ [c]) (v := v) (by simpa using h) (by simpa using ha)
            (by simp at hf; omega)
          rw [linkBehind_concat, List.append_assoc] at hrest
          rw [allocScan, hc, if_neg hc0, chunkAddr_div hn']
          split
          · rename_i hal
            simp only
            split
            · rename_i htmp
              have hlt : ∀ x ∈ v, c < x ∧ x < 2 ^ 22 := by
                intro x hx
                have hp := (List.pairwise_append.mp ha.1).2.1
                exact ⟨(List.pairwise_cons.mp hp).1 x hx, (ha.2 x (by simp [hx])).2⟩
              obtain ⟨x, l', hl', hx⟩ := checkRun_spec (n := n - 1) (i := 1) hv' hlt (by omega) htmp
              refine .inr ⟨u, c, x, l', ?_, hal, ?_⟩
              · obtain ⟨m, rfl⟩ : ∃ m, n = m + 1 := ⟨n - 1, by omega⟩
                rw [hl', List.range'_succ]
                rfl
              · have hx' : checkRun k (chunkAddr c) (n - 1) 1 (k.mem (chunkAddr c)) = chunkAddr x :=
                  hx
                rw [hx']
            · exact hrest
          · exact hrest

/-! ### The loops of `kmem_free` -/

/-- The links of a run of chunks. -/
structure Linked (k k' : Kmem) (c n : Nat) : Prop where
  link : ∀ j, j + 1 < n → k'.mem (chunkAddr (c + j)) = chunkAddr (c + j + 1)
  other : ∀ x, (∀ j, j + 1 < n → x ≠ chunkAddr (c + j)) → k'.mem x = k.mem x
  freeList : k'.freeList = k.freeList
  freeChunks : k'.freeChunks = k.freeChunks

/-- **The first loop** links the chunks of the block. -/
lemma linkRun_spec {fuel : Nat} (hn : 0 < n) (hc : c + n ≤ 2 ^ 22) (hf : n ≤ fuel) :
    ∃ k', linkRun (chunkAddr (c + n - 1)) fuel (chunkAddr c) k = some (chunkAddr (c + n - 1), k') ∧
      Linked k k' c n := by
  induction fuel generalizing c n k with
  | zero => omega
  | succ fuel ih =>
      rw [linkRun]
      by_cases h1 : n = 1
      · subst h1
        rw [if_neg (by simp [BitVec.lt_irrefl])]
        exact ⟨k, rfl, ⟨fun j hj => by omega, fun _ _ => rfl, rfl, rfl⟩⟩
      · rw [if_pos ((chunkAddr_lt (by omega) (by omega)).mpr (by omega))]
        have hmem : (k.set (chunkAddr c + kmemChunksize) (some (chunkAddr c))).mem (chunkAddr c) =
            chunkAddr (c + 1) := by
          rw [← chunkAddr_one, chunkAddr_add]
          exact Function.update_self ..
        obtain ⟨k', hk', hl⟩ := ih (c := c + 1) (n := n - 1)
          (k := k.set (chunkAddr c + kmemChunksize) (some (chunkAddr c))) (by omega) (by omega)
          (by omega)
        rw [show c + 1 + (n - 1) - 1 = c + n - 1 by omega] at hk'
        simp only [hmem]
        refine ⟨k', hk', ⟨fun j hj => ?_, fun x hx => ?_, hl.freeList, hl.freeChunks⟩⟩
        · cases j with
          | zero =>
              rw [hl.other _ fun j hj he => ?_]
              · exact hmem
              · have := chunkAddr_inj (by omega) (by omega) he
                omega
          | succ j =>
              rw [show c + (j + 1) = c + 1 + j by omega]
              exact hl.link j (by omega)
        · rw [hl.other x fun j hj => ?_]
          · exact Function.update_of_ne (hx 0 (by omega)) ..
          · rw [show c + 1 + j = c + (j + 1) by omega]
            exact hx (j + 1) (by omega)

/-- **The second loop** stops between the chunks before the block and those behind it. -/
lemma findPlace_spec {fuel : Nat} (h : FreeList k none (u ++ v)) (ha : Ascending (u ++ v))
    (hb : b < 2 ^ 22) (hu : ∀ x ∈ u, x < b) (hf : v.length < fuel) :
    ∃ u' v', u ++ v = u' ++ v' ∧ (∀ x ∈ u', x < b) ∧ (∀ x ∈ v', b ≤ x) ∧
      findPlace (chunkAddr b) k fuel (linkBehind u) (k.get (linkBehind u)) =
        some (linkBehind u', k.get (linkBehind u')) := by
  induction fuel generalizing u v with
  | zero => omega
  | succ fuel ih =>
      have hv : FreeList k (linkBehind u) v := by
        rw [FreeList, List.map_append] at h
        exact (Chain.isChain_append.mp h).2
      rw [findPlace]
      cases v with
      | nil =>
          rw [if_neg fun hc => hc.1 (hv.eq_nil_iff.mpr rfl)]
          exact ⟨u, [], rfl, hu, by simp, rfl⟩
      | cons c v =>
          obtain ⟨hc, hc0, hv'⟩ := freeList_cons.mp hv
          have hcb : chunkAddr c < chunkAddr b ↔ c < b :=
            chunkAddr_lt (ha.2 c (by simp)).2 hb
          by_cases hlt : c < b
          · rw [hc, if_pos ⟨hc0, hcb.mpr hlt⟩]
            obtain ⟨u', v', he, h1, h2, h3⟩ := ih (u := u ++ [c]) (v := v) (by simpa using h)
              (by simpa using ha) (by simpa [or_imp, forall_and, hlt] using hu)
              (by simp at hf; omega)
            rw [linkBehind_concat] at h3
            exact ⟨u', v', by simpa using he, h1, h2, h3⟩
          · rw [hc, if_neg fun hc' => hlt (hcb.mp hc'.2)]
            refine ⟨u, c :: v, rfl, hu, ?_, by rw [hc]⟩
            have hp := List.pairwise_cons.mp (List.pairwise_append.mp ha.1).2.1
            intro x hx
            rcases List.mem_cons.mp hx with rfl | hx
            · omega
            · have := hp.1 x hx
              omega

end Hazelnut

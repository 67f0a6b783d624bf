import Mathlib.Data.List.Nodup
import Hazelnut.Lib.Chain
import Hazelnut.Lib.DList
import Hazelnut.Lib.Word
import Hazelnut.Memory.MdbAlloc

/-!
Safety of the buffer allocator of the mapping database.
-/

namespace Hazelnut

/-! ### Chunks and buffers -/

/-- The word at an offset in a 4K chunk. -/
def pg (P o : Nat) : Word := BitVec.ofNat 32 (4096 * P + o)

/-- A chunk `kmem_alloc` may return: not at null, and not the last one of the address space. -/
def IsPage (P : Nat) : Prop := 0 < P ∧ P + 1 < 2 ^ 20

/-- The entries whose buffers are cut out of chunks. -/
def Small (i : Nat) : Prop := i = 0 ∨ i = 1 ∨ i = 3

/-- The sizes of buffers and their numbers in a chunk, as natural numbers. -/
def sizeN (i : Nat) : Nat := (bufSize i).toNat
def maxN (i : Nat) : Nat := (maxFree i).toNat

/-- The offset of the `j`th buffer of a chunk. -/
def bufOff (i j : Nat) : Nat := 4096 - maxN i * sizeN i + j * sizeN i

/-- The address of the `j`th buffer. -/
def bufAddr (P i j : Nat) : Word := pg P (bufOff i j)

variable {P Q i j k n o o' : Nat} {s s' : MdbPool} {m m' : Word → Word} {v : Word}

lemma pg_toNat (hP : P < 2 ^ 20) (ho : o < 4096) : (pg P o).toNat = 4096 * P + o := by
  rw [pg, BitVec.toNat_ofNat, Nat.mod_eq_of_lt (by omega)]

lemma pg_inj (hP : P < 2 ^ 20) (hQ : Q < 2 ^ 20) (ho : o < 4096) (ho' : o' < 4096)
    (h : pg P o = pg Q o') : P = Q ∧ o = o' := by
  have := congrArg BitVec.toNat h
  rw [pg_toNat hP ho, pg_toNat hQ ho'] at this
  omega

lemma pg_add (P o k : Nat) : pg P o + BitVec.ofNat 32 k = pg P (o + k) := by
  rw [pg, pg, ← BitVec.ofNat_add, Nat.add_assoc]

lemma pg_ne_zero (hP : IsPage P) (ho : o < 4096) : pg P o ≠ 0 := by
  intro h
  have hP' := hP.2
  have := congrArg BitVec.toNat h
  rw [pg_toNat (by omega) ho] at this
  have := hP.1
  simp at *
  omega

/-- The header of a chunk is found from every address in it. -/
lemma pg_mask (hP : P < 2 ^ 20) (ho : o < 4096) : pg P o &&& ~~~(chunkSz - 1) = pg P 0 := by
  have hmask : (chunkSz - 1).toNat = 2 ^ 12 - 1 := by decide
  have hand : (pg P o &&& (chunkSz - 1)).toNat = o := by
    rw [BitVec.toNat_and, hmask, Nat.and_two_pow_sub_one_eq_mod, pg_toNat hP ho]
    omega
  have hsum : pg P o &&& ~~~(chunkSz - 1) = pg P o - (pg P o &&& (chunkSz - 1)) := by
    nth_rewrite 2 [← Word.and_not_add_and (a := pg P o) (t := chunkSz - 1)]
    rw [BitVec.add_sub_cancel]
  refine BitVec.eq_of_toNat_eq ?_
  rw [hsum, BitVec.toNat_sub, hand, pg_toNat hP ho, pg_toNat hP (by omega)]
  omega

/-- The numbers for the three sizes. -/
lemma Small.cases (hi : Small i) : (sizeN i = 12 ∧ maxN i = 339) ∨ (sizeN i = 8 ∧ maxN i = 509) ∨
    (sizeN i = 28 ∧ maxN i = 145) := by
  rcases hi with rfl | rfl | rfl
  · exact .inl ⟨rfl, rfl⟩
  · exact .inr (.inl ⟨rfl, rfl⟩)
  · exact .inr (.inr ⟨rfl, rfl⟩)

lemma Small.off (hi : Small i) (hj : j < maxN i) :
    20 ≤ bufOff i j ∧ bufOff i j + sizeN i ≤ 4096 ∧ bufOff i j < 4096 ∧ 4 ≤ sizeN i := by
  rcases hi.cases with ⟨h1, h2⟩ | ⟨h1, h2⟩ | ⟨h1, h2⟩ <;>
    (simp only [bufOff, h1, h2] at *; omega)

lemma Small.disjoint (hi : Small i) (hne : j ≠ k) :
    bufOff i j + sizeN i ≤ bufOff i k ∨ bufOff i k + sizeN i ≤ bufOff i j := by
  rcases hi.cases with ⟨h1, h2⟩ | ⟨h1, h2⟩ | ⟨h1, h2⟩ <;>
    (simp only [bufOff, h1, h2] at *; omega)

lemma Small.max (hi : Small i) : 2 ≤ maxN i ∧ maxN i < 1024 := by
  rcases hi.cases with ⟨-, h2⟩ | ⟨-, h2⟩ | ⟨-, h2⟩ <;> omega

lemma Small.off_max (hi : Small i) : bufOff i (maxN i) = 4096 := by
  rcases hi.cases with ⟨h1, h2⟩ | ⟨h1, h2⟩ | ⟨h1, h2⟩ <;> simp only [bufOff, h1, h2]

lemma bufOff_succ (i j : Nat) : bufOff i (j + 1) = bufOff i j + sizeN i := by
  rw [bufOff, bufOff, Nat.add_mul, Nat.one_mul, Nat.add_assoc]

lemma bufAddr_add_size (P i j : Nat) : bufAddr P i j + bufSize i = bufAddr P i (j + 1) := by
  have hs : bufSize i = BitVec.ofNat 32 (sizeN i) := by simp [sizeN]
  rw [bufAddr, bufAddr, hs, pg_add, bufOff_succ]

/-! ### One chunk -/

/-- The links of the free list of a chunk. -/
def freeLink (m : Word → Word) (P : Nat) : Option Word → Word
  | none => m (pg P 0)
  | some a => m a

/-- The chunk `P` of entry `i` has the free buffers `fr`, in that order. -/
structure PageOk (m : Word → Word) (P i : Nat) (fr : List Nat) : Prop where
  chain : Chain.IsChain (freeLink m P) 0 none (fr.map (bufAddr P i))
  num : m (pg P 4) = BitVec.ofNat 32 fr.length
  entry : m (pg P 16) = BitVec.ofNat 32 i
  nodup : fr.Nodup
  lt : ∀ j ∈ fr, j < maxN i

/-- The links to other chunks do not matter. -/
lemma PageOk.congr {fr : List Nat} (h : PageOk m P i fr) (hi : Small i)
    (heq : ∀ o < 4096, o ≠ 8 → o ≠ 12 → m' (pg P o) = m (pg P o)) : PageOk m' P i fr where
  chain := by
    refine h.chain.congr fun q hq => ?_
    rcases hq with rfl | ⟨a, ha, rfl⟩
    · exact heq 0 (by omega) (by omega) (by omega)
    · obtain ⟨j, hj, rfl⟩ := List.mem_map.mp ha
      have hoff := hi.off (h.lt j hj)
      exact heq _ hoff.2.2.1 (by omega) (by omega)
  num := by rw [heq 4 (by omega) (by omega) (by omega), h.num]
  entry := by rw [heq 16 (by omega) (by omega) (by omega), h.entry]
  nodup := h.nodup
  lt := h.lt

lemma PageOk.length_lt {fr : List Nat} (h : PageOk m P i fr) (hi : Small i) : fr.length < 1024 := by
  have hsub : fr ⊆ List.range (maxN i) := fun j hj => List.mem_range.mpr (h.lt j hj)
  have := (h.nodup.subperm hsub).length_le
  rw [List.length_range] at this
  have := hi.max
  omega

lemma update_pg_ne (hP : P < 2 ^ 20) (hQ : Q < 2 ^ 20) (ho : o < 4096) (ho' : o' < 4096)
    (hne : Q ≠ P ∨ o' ≠ o) : Function.update m (pg P o) v (pg Q o') = m (pg Q o') := by
  refine Function.update_of_ne (fun h => ?_) ..
  obtain ⟨h1, h2⟩ := pg_inj hQ hP ho' ho h
  rcases hne with h' | h'
  · exact h' h1
  · exact h' h2

/-- The first free buffer. -/
lemma PageOk.head {fr : List Nat} (h : PageOk m P i (j :: fr)) : m (pg P 0) = bufAddr P i j :=
  (Chain.isChain_cons.mp h.chain).1

section page

variable {fr : List Nat} (hi : Small i) (hP : IsPage P)
include hi hP

/-- The first free buffer is taken. -/
lemma PageOk.take (h : PageOk m P i (j :: fr)) :
    PageOk (Function.update (Function.update m (pg P 0) (m (bufAddr P i j))) (pg P 4)
      (m (pg P 4) - 1)) P i fr := by
  have hP' := hP.2
  obtain ⟨-, -, hchain⟩ := Chain.isChain_cons.mp h.chain
  have hnd := List.nodup_cons.mp h.nodup
  refine ⟨?_, ?_, ?_, hnd.2, fun k hk => h.lt k (by simp [hk])⟩
  · refine hchain.congr_start ?_ fun a ha => ?_
    · rw [freeLink, update_pg_ne (by omega) (by omega) (by omega) (by omega) (.inr (by omega)),
        Function.update_self]
      rfl
    · obtain ⟨k, hk, rfl⟩ := List.mem_map.mp ha
      have hoff := hi.off (h.lt k (by simp [hk]))
      simp only [freeLink, bufAddr]
      rw [update_pg_ne (by omega) (by omega) (by omega) hoff.2.2.1 (.inr (by omega)),
        update_pg_ne (by omega) (by omega) (by omega) hoff.2.2.1 (.inr (by omega))]
  · rw [Function.update_self, h.num, List.length_cons, BitVec.ofNat_add]
    exact BitVec.add_sub_cancel ..
  · rw [update_pg_ne (by omega) (by omega) (by omega) (by omega) (.inr (by omega)),
      update_pg_ne (by omega) (by omega) (by omega) (by omega) (.inr (by omega)), h.entry]

/-- A buffer is put back. -/
lemma PageOk.put (h : PageOk m P i fr) (hj : j < maxN i) (hjf : j ∉ fr) :
    PageOk (Function.update (Function.update (Function.update m (bufAddr P i j) (m (pg P 0)))
      (pg P 0) (bufAddr P i j)) (pg P 4) (m (pg P 4) + 1)) P i (j :: fr) := by
  have hP' := hP.2
  have hoff := hi.off hj
  have hget : ∀ o, o < 4096 → o ≠ 0 → o ≠ 4 → o ≠ bufOff i j →
      Function.update (Function.update (Function.update m (bufAddr P i j) (m (pg P 0)))
        (pg P 0) (bufAddr P i j)) (pg P 4) (m (pg P 4) + 1) (pg P o) = m (pg P o) := by
    intro o ho h0 h4 hb
    rw [update_pg_ne (by omega) (by omega) (by omega) ho (.inr h4),
      update_pg_ne (by omega) (by omega) (by omega) ho (.inr h0), bufAddr,
      update_pg_ne (by omega) (by omega) hoff.2.2.1 ho (.inr hb)]
  refine ⟨?_, ?_, ?_, List.nodup_cons.mpr ⟨hjf, h.nodup⟩, ?_⟩
  · refine Chain.isChain_cons.mpr ⟨?_, pg_ne_zero hP hoff.2.2.1, ?_⟩
    · rw [freeLink, update_pg_ne (by omega) (by omega) (by omega) (by omega) (.inr (by omega)),
        Function.update_self]
    · refine h.chain.congr_start ?_ fun a ha => ?_
      · simp only [freeLink, bufAddr]
        rw [update_pg_ne (by omega) (by omega) (by omega) hoff.2.2.1 (.inr (by omega)),
          update_pg_ne (by omega) (by omega) (by omega) hoff.2.2.1 (.inr (by omega)),
          Function.update_self]
      · obtain ⟨k, hk, rfl⟩ := List.mem_map.mp ha
        have hoffk := hi.off (h.lt k hk)
        have hne : j ≠ k := fun he => hjf (he ▸ hk)
        have hdis := hi.disjoint hne
        exact hget _ hoffk.2.2.1 (by omega) (by omega) (by omega)
  · rw [Function.update_self, h.num, List.length_cons, BitVec.ofNat_add]
    rfl
  · rw [hget 16 (by omega) (by omega) (by omega) (by omega), h.entry]
  · intro k hk
    rcases List.mem_cons.mp hk with rfl | hk
    · exact hj
    · exact h.lt k hk

end page

/-! ### The chunks -/

/-- What the memory of the allocator stands for: the chunks taken from `kmem_alloc` with the
entries they were taken for, the free buffers of every chunk, and the list of chunks for every
entry. -/
structure Shape where
  chunks : List (Nat × Nat)
  free : Nat → List Nat
  lol : Nat → List Nat

/-- The list of the chunks of an entry. -/
def LolOk (s : MdbPool) (i : Nat) (l : List Nat) : Prop :=
  DList.IsDList (fun P => pg P 0) (fun P => s.mem (pg P 8)) (fun P => s.mem (pg P 12)) 0 0
    (s.lists i) l

/-- The memory holds what the shape says. -/
structure PoolInv (s : MdbPool) (A : Shape) : Prop where
  valid : ∀ P i, (P, i) ∈ A.chunks → IsPage P
  nodup : (A.chunks.map Prod.fst).Nodup
  page : ∀ P i, (P, i) ∈ A.chunks → Small i → PageOk s.mem P i (A.free P)
  lol : ∀ i, LolOk s i (A.lol i)
  lolNodup : ∀ i, (A.lol i).Nodup
  lolMem : ∀ i P, P ∈ A.lol i → (P, i) ∈ A.chunks ∧ Small i

/-- Exactly the chunks with free buffers are in the lists. -/
def Shape.Listed (A : Shape) : Prop :=
  ∀ i P, (P, i) ∈ A.chunks → Small i → (P ∈ A.lol i ↔ A.free P ≠ [])

section pool

variable {A : Shape} {l : List Nat}

lemma PoolInv.lt (h : PoolInv s A) (hP : (P, i) ∈ A.chunks) : P < 2 ^ 20 := by
  have := (h.valid P i hP).2
  omega

/-- A chunk is taken for one entry. -/
lemma PoolInv.entry_eq (h : PoolInv s A) (hP : (P, i) ∈ A.chunks) (hP' : (P, k) ∈ A.chunks) :
    i = k := by
  have := List.inj_on_of_nodup_map h.nodup hP hP' rfl
  exact congrArg Prod.snd this

lemma LolOk.congr (h : LolOk s i l) (hl : s'.lists i = s.lists i)
    (heq : ∀ P ∈ l, s'.mem (pg P 8) = s.mem (pg P 8) ∧ s'.mem (pg P 12) = s.mem (pg P 12)) :
    LolOk s' i l := by
  rw [LolOk, hl]
  exact DList.IsDList.congr h (fun P hP => (heq P hP).1) fun P hP => (heq P hP).2

/-- The head of a list tells whether there is a chunk. -/
lemma PoolInv.lists_eq_zero (h : PoolInv s A) : s.lists i = 0 ↔ A.lol i = [] :=
  DList.IsDList.eq_nil_iff (h.lol i) fun P hP =>
    pg_ne_zero (h.valid P i (h.lolMem i P hP).1) (by omega)

/-- **A change within one chunk** that leaves the links to other chunks alone. -/
lemma PoolInv.write (h : PoolInv s A) (hP : (P, i) ∈ A.chunks) {fr : List Nat} {m' : Word → Word}
    (hout : ∀ Q, Q < 2 ^ 20 → Q ≠ P → ∀ o < 4096, m' (pg Q o) = s.mem (pg Q o))
    (h8 : m' (pg P 8) = s.mem (pg P 8)) (h12 : m' (pg P 12) = s.mem (pg P 12))
    (hpage : PageOk m' P i fr) :
    PoolInv { s with mem := m' } { A with free := Function.update A.free P fr } where
  valid := h.valid
  nodup := h.nodup
  page := by
    intro Q k hQ hk
    by_cases hne : Q = P
    · subst hne
      obtain rfl := h.entry_eq hP hQ
      simpa using hpage
    · simp only [Function.update_of_ne hne]
      exact (h.page Q k hQ hk).congr hk fun o ho _ _ => hout Q (h.lt hQ) hne o ho
  lol := by
    intro k
    refine (h.lol k).congr rfl fun Q hQ => ?_
    by_cases hne : Q = P
    · subst hne
      exact ⟨h8, h12⟩
    · have hlt := h.lt (h.lolMem k Q hQ).1
      exact ⟨hout Q hlt hne 8 (by omega), hout Q hlt hne 12 (by omega)⟩
  lolNodup := h.lolNodup
  lolMem := h.lolMem

/-- At most the links of the chunks of entry `i` are changed. -/
def SameBuffers (A : Shape) (i : Nat) (s s' : MdbPool) : Prop :=
  ∀ Q k, (Q, k) ∈ A.chunks → ∀ o < 4096, (k = i → o ≠ 8 ∧ o ≠ 12) →
    s'.mem (pg Q o) = s.mem (pg Q o)

lemma SameBuffers.set {t : MdbPool} (ht : SameBuffers A i s t) (h : PoolInv s A)
    (hP : (P, i) ∈ A.chunks)
    (ho : o = 8 ∨ o = 12) : SameBuffers A i s (t.set (pg P o) v) := by
  intro Q k hQ o' ho' hk
  rw [← ht Q k hQ o' ho' hk]
  refine update_pg_ne (h.lt hP) (h.lt hQ) (by omega) ho' ?_
  by_cases hne : Q = P
  · subst hne
    have := hk (h.entry_eq hQ hP)
    omega
  · exact .inl hne

/-- **A change of the list of an entry.** -/
lemma PoolInv.relink (h : PoolInv s A) (hs : SameBuffers A i s s')
    (hlists : ∀ k, k ≠ i → s'.lists k = s.lists k) (hl : LolOk s' i l) (hnd : l.Nodup)
    (hmem : ∀ P ∈ l, (P, i) ∈ A.chunks ∧ Small i) :
    PoolInv s' { A with lol := Function.update A.lol i l } where
  valid := h.valid
  nodup := h.nodup
  page := fun P k hP hk => (h.page P k hP hk).congr hk fun o ho h8 h12 =>
    hs P k hP o ho fun _ => ⟨h8, h12⟩
  lol := by
    intro k
    by_cases hne : k = i
    · subst hne
      simpa using hl
    · simp only [Function.update_of_ne hne]
      refine (h.lol k).congr (hlists k hne) fun Q hQ => ?_
      have hQ' := (h.lolMem k Q hQ).1
      exact ⟨hs Q k hQ' 8 (by omega) fun he => absurd he hne,
        hs Q k hQ' 12 (by omega) fun he => absurd he hne⟩
  lolNodup := by
    intro k
    by_cases hne : k = i
    · subst hne
      simpa using hnd
    · simpa only [Function.update_of_ne hne] using h.lolNodup k
  lolMem := by
    intro k Q hQ
    by_cases hne : k = i
    · subst hne
      exact hmem Q (by simpa using hQ)
    · exact h.lolMem k Q (by simpa only [Function.update_of_ne hne] using hQ)

/-! ### The operations -/

lemma pg_field (P k : Nat) : pg P 0 + BitVec.ofNat 32 k = pg P k := by rw [pg_add, Nat.zero_add]

@[simp] lemma freelist_pg : s.freelist (pg P 0) = s.mem (pg P 0) := rfl

@[simp] lemma numFree_pg : s.numFree (pg P 0) = s.mem (pg P 4) := congrArg s.mem (pg_field P 4)

@[simp] lemma nextFreelist_pg : s.nextFreelist (pg P 0) = s.mem (pg P 8) :=
  congrArg s.mem (pg_field P 8)

@[simp] lemma prevFreelist_pg : s.prevFreelist (pg P 0) = s.mem (pg P 12) :=
  congrArg s.mem (pg_field P 12)

@[simp] lemma setFreelist_pg : s.setFreelist (pg P 0) v = s.set (pg P 0) v := rfl

@[simp] lemma setNumFree_pg : s.setNumFree (pg P 0) v = s.set (pg P 4) v :=
  congrArg (s.set · v) (pg_field P 4)

@[simp] lemma setNextFreelist_pg : s.setNextFreelist (pg P 0) v = s.set (pg P 8) v :=
  congrArg (s.set · v) (pg_field P 8)

@[simp] lemma setPrevFreelist_pg : s.setPrevFreelist (pg P 0) v = s.set (pg P 12) v :=
  congrArg (s.set · v) (pg_field P 12)

/-- The head of the list `l` is told that `v` is before it, if there is a head. -/
def tellHead (s : MdbPool) (l : List Nat) (v : Word) : MdbPool :=
  match l with
  | [] => s
  | P :: _ => s.set (pg P 12) v

@[simp] lemma tellHead_lists : (tellHead s l v).lists = s.lists := by cases l <;> rfl

/-- As the kernel does it, from the address of the head. -/
lemma tellHead_eq {next prev : Nat → Word} {p w : Word}
    (hl : DList.IsDList (fun P => pg P 0) next prev 0 p w l) (hp : ∀ P ∈ l, IsPage P) :
    (if w ≠ 0 then s.setPrevFreelist w v else s) = tellHead s l v := by
  cases l with
  | nil => rw [if_neg (by simpa using hl), tellHead]
  | cons P l =>
      rw [hl.1, if_pos (pg_ne_zero (hp P (by simp)) (by omega)), setPrevFreelist_pg, tellHead]

lemma tellHead_ne (hl : ∀ P ∈ l, P < 2 ^ 20) (hQ : Q < 2 ^ 20) (ho : o < 4096)
    (hne : Q ∉ l.head? ∨ o ≠ 12) : (tellHead s l v).mem (pg Q o) = s.mem (pg Q o) := by
  cases l with
  | nil => rfl
  | cons P l =>
      refine update_pg_ne (hl P (by simp)) hQ (by omega) ho ?_
      rcases hne with hne | hne
      · exact .inl fun he => hne (by simp [he])
      · exact .inr hne

lemma tellHead_head (hQ : Q ∈ l.head?) : (tellHead s l v).mem (pg Q 12) = v := by
  cases l with
  | nil => simp at hQ
  | cons P l =>
      obtain rfl : P = Q := by simpa using hQ
      exact Function.update_self ..

lemma SameBuffers.tellHead {t : MdbPool} (ht : SameBuffers A i s t) (h : PoolInv s A)
    (hl : ∀ P ∈ l, (P, i) ∈ A.chunks) : SameBuffers A i s (tellHead t l v) := by
  cases l with
  | nil => exact ht
  | cons P l => exact ht.set h (hl P (by simp)) (.inr rfl)

lemma PoolInv.lolPage (h : PoolInv s A) : ∀ P ∈ A.lol i, IsPage P :=
  fun P hP => h.valid P i (h.lolMem i P hP).1

/-- A chunk that is in no list goes back into the list of its size. -/
lemma PoolInv.pushChunk (h : PoolInv s A) (hP : (P, i) ∈ A.chunks) (hi : Small i)
    (hnot : P ∉ A.lol i) : PoolInv (pushChunk i (pg P 0) s)
      { A with lol := Function.update A.lol i (P :: A.lol i) } := by
  have hlt := h.lt hP
  have hin : ∀ Q ∈ A.lol i, (Q, i) ∈ A.chunks := fun Q hQ => (h.lolMem i Q hQ).1
  have hltl : ∀ Q ∈ A.lol i, Q < 2 ^ 20 := fun Q hQ => h.lt (hin Q hQ)
  have heq : Hazelnut.pushChunk i (pg P 0) s =
      (((tellHead s (A.lol i) (pg P 0)).set (pg P 8) (s.lists i)).set (pg P 12) 0).setList i
        (pg P 0) := by
    rw [Hazelnut.pushChunk, tellHead_eq (h.lol i) h.lolPage]
    simp only [setNextFreelist_pg, setPrevFreelist_pg, tellHead_lists]
  have hne : ∀ Q ∈ A.lol i, Q ≠ P := fun Q hQ he => hnot (he ▸ hQ)
  have hget : ∀ Q, Q < 2 ^ 20 → Q ≠ P → ∀ o < 4096, (Hazelnut.pushChunk i (pg P 0) s).mem (pg Q o) =
      (tellHead s (A.lol i) (pg P 0)).mem (pg Q o) := by
    intro Q hQ hQP o ho
    rw [heq]
    simp only [MdbPool.setList, MdbPool.set]
    rw [update_pg_ne hlt hQ (by omega) ho (.inl hQP), update_pg_ne hlt hQ (by omega) ho (.inl hQP)]
  have hsame : SameBuffers A i s (Hazelnut.pushChunk i (pg P 0) s) := by
    rw [heq]
    have h0 : SameBuffers A i s s := fun _ _ _ _ _ _ => rfl
    exact (((h0.tellHead h hin).set h hP (.inl rfl)).set h hP (.inr rfl))
  refine h.relink hsame ?_ ?_ (List.nodup_cons.mpr ⟨hnot, h.lolNodup i⟩) ?_
  · intro k hk
    rw [heq]
    simp [MdbPool.setList, MdbPool.set, hk]
  · have hhead : (Hazelnut.pushChunk i (pg P 0) s).lists i = pg P 0 := by
      rw [heq]
      simp [MdbPool.setList]
    rw [LolOk, hhead]
    refine DList.IsDList.push (h.lol i) (h.lolNodup i) ?_ ?_ ?_ ?_ ?_
    · rw [heq]
      simp only [MdbPool.setList, MdbPool.set]
      rw [update_pg_ne hlt hlt (by omega) (by omega) (.inr (by omega)), Function.update_self]
    · rw [heq]
      exact Function.update_self ..
    · intro Q hQ
      rw [hget Q (hltl Q hQ) (hne Q hQ) 8 (by omega),
        tellHead_ne hltl (hltl Q hQ) (by omega) (.inr (by omega))]
    · intro Q hQ
      have hQ' := List.mem_of_mem_head? hQ
      rw [hget Q (hltl Q hQ') (hne Q hQ') 12 (by omega), tellHead_head hQ]
    · intro Q hQ
      have hQ' := List.mem_of_mem_tail hQ
      rw [hget Q (hltl Q hQ') (hne Q hQ') 12 (by omega),
        tellHead_ne hltl (hltl Q hQ') (by omega) (.inl ?_)]
      exact DList.notMem_head?_of_mem_tail (h.lolNodup i) hQ
  · intro Q hQ
    rcases List.mem_cons.mp hQ with rfl | hQ
    · exact ⟨hP, hi⟩
    · exact h.lolMem i Q hQ

/-- A chunk leaves the list of its size. -/
lemma PoolInv.unlinkChunk {u w : List Nat} (h : PoolInv s A) (hP : (P, i) ∈ A.chunks)
    (hu : A.lol i = u ++ P :: w) : PoolInv (unlinkChunk i (pg P 0) s)
      { A with lol := Function.update A.lol i (u ++ w) } := by
  have hlt := h.lt hP
  have hlol := h.lol i
  have hnd := h.lolNodup i
  rw [hu] at hlol hnd
  have hsub : ∀ Q ∈ u ++ w, Q ∈ A.lol i := by
    intro Q hQ
    rw [hu]
    simp only [List.mem_append, List.mem_cons] at hQ ⊢
    tauto
  have hin : ∀ Q ∈ u ++ w, (Q, i) ∈ A.chunks := fun Q hQ => (h.lolMem i Q (hsub Q hQ)).1
  have hltl : ∀ Q ∈ u ++ w, Q < 2 ^ 20 := fun Q hQ => h.lt (hin Q hQ)
  have hltw : ∀ Q ∈ w, Q < 2 ^ 20 := fun Q hQ => hltl Q (List.mem_append_right _ hQ)
  obtain ⟨hprev, hhead, hw⟩ := DList.IsDList.split hlol
  have hnd' : (u ++ w).Nodup ∧ P ∉ u ++ w := by
    have hperm : (u ++ P :: w).Perm (P :: (u ++ w)) := List.perm_middle
    have := List.nodup_cons.mp (hperm.nodup_iff.mp hnd)
    exact ⟨this.2, this.1⟩
  set t := tellHead s w (s.mem (pg P 12)) with ht
  have hsame : SameBuffers A i s t := by
    have h0 : SameBuffers A i s s := fun _ _ _ _ _ _ => rfl
    exact h0.tellHead h fun Q hQ => hin Q (List.mem_append_right _ hQ)
  have hstep : (if s.nextFreelist (pg P 0) ≠ 0 then
      s.setPrevFreelist (s.nextFreelist (pg P 0)) (s.prevFreelist (pg P 0)) else s) = t := by
    rw [nextFreelist_pg, prevFreelist_pg]
    exact tellHead_eq hw fun Q hQ => h.lolPage Q (hsub Q (List.mem_append_right _ hQ))
  have hPw : P ∉ w.head? := fun hm => hnd'.2 (List.mem_append_right _ (List.mem_of_mem_head? hm))
  have hP8 : t.mem (pg P 8) = s.mem (pg P 8) := tellHead_ne hltw hlt (by omega) (.inr (by omega))
  have hP12 : t.mem (pg P 12) = s.mem (pg P 12) := tellHead_ne hltw hlt (by omega) (.inl hPw)
  have h8 : ∀ Q ∈ u ++ w, t.mem (pg Q 8) = s.mem (pg Q 8) := fun Q hQ =>
    tellHead_ne hltw (hltl Q hQ) (by omega) (.inr (by omega))
  have h12 : ∀ Q ∈ u ++ w, Q ∉ w.head? → t.mem (pg Q 12) = s.mem (pg Q 12) := fun Q hQ hne =>
    tellHead_ne hltw (hltl Q hQ) (by omega) (.inl hne)
  have hlists : t.lists = s.lists := tellHead_lists
  rw [Hazelnut.unlinkChunk]
  simp only [hstep, hlists]
  rcases List.eq_nil_or_concat' u with rfl | ⟨u, y, rfl⟩
  · -- the chunk is the first one
    have hfirst : s.lists i = pg P 0 := hhead
    rw [if_pos hfirst, nextFreelist_pg, hP8]
    refine h.relink hsame ?_ ?_ hnd'.1 fun Q hQ => h.lolMem i Q (hsub Q hQ)
    · intro k hk
      simp [MdbPool.setList, hlists, hk]
    · have hnew : (t.setList i (s.mem (pg P 8))).lists i =
          if ([] : List Nat) = [] then s.mem (pg P 8) else s.lists i := by simp [MdbPool.setList]
      rw [LolOk, hnew]
      exact DList.IsDList.remove hlol hnd (fun Q hQ _ => h8 Q hQ) (by simp) h12
        fun Q hQ => tellHead_head hQ
  · -- the chunk before it is told
    have hy : y ∈ (u ++ [y]) ++ w := by simp
    have hyP := h.lolPage y (hsub y hy)
    have hylt := hltl y hy
    have hfirst : s.lists i ≠ pg P 0 := by
      intro hc
      rw [hhead] at hc
      have hmem : (u ++ [y] ++ [P]).head (by simp) ∈ u ++ [y] := by
        rw [List.head_append_of_ne_nil (by simp)]
        exact List.head_mem _
      have hmem' := List.mem_append_left w hmem
      obtain ⟨he, -⟩ := pg_inj (hltl _ hmem') hlt (by omega) (by omega) hc
      rw [he] at hmem'
      exact hnd'.2 hmem'
    have hprev' : s.mem (pg P 12) = pg y 0 := by simpa using hprev
    rw [if_neg hfirst, prevFreelist_pg, hP12, hprev', if_pos (pg_ne_zero hyP (by omega)),
      nextFreelist_pg, hP8, setNextFreelist_pg]
    refine h.relink (hsame.set h (hin y hy) (.inl rfl)) ?_ ?_ hnd'.1
      fun Q hQ => h.lolMem i Q (hsub Q hQ)
    · intro k _
      simp [MdbPool.set, hlists]
    · have hnew : (t.set (pg y 8) (s.mem (pg P 8))).lists i =
          if u ++ [y] = [] then s.mem (pg P 8) else s.lists i := by simp [MdbPool.set, hlists]
      rw [LolOk, hnew]
      refine DList.IsDList.remove hlol hnd ?_ ?_ ?_ ?_
      · intro Q hQ hQy
        rw [← h8 Q hQ]
        refine update_pg_ne hylt (hltl Q hQ) (by omega) (by omega) (.inl fun he => hQy ?_)
        simp [he]
      · intro Q hQ
        obtain rfl : y = Q := by simpa using hQ
        exact Function.update_self ..
      · intro Q hQ hQw
        rw [← h12 Q hQ hQw]
        exact update_pg_ne hylt (hltl Q hQ) (by omega) (by omega) (.inr (by omega))
      · intro Q hQ
        have hQ' := hltw Q (List.mem_of_mem_head? hQ)
        refine (update_pg_ne hylt hQ' (by omega) (by omega) (.inr (by omega))).trans ?_
        exact tellHead_head hQ

/-- A buffer is put back into its chunk. -/
lemma PoolInv.putBuffer (h : PoolInv s A) (hP : (P, i) ∈ A.chunks) (hi : Small i)
    (hj : j < maxN i) (hjf : j ∉ A.free P) : PoolInv (putBuffer (pg P 0) (bufAddr P i j) s)
      { A with free := Function.update A.free P (j :: A.free P) } := by
  have hlt := h.lt hP
  have hoff := hi.off hj
  have heq : Hazelnut.putBuffer (pg P 0) (bufAddr P i j) s = { s with
      mem := Function.update (Function.update (Function.update s.mem (bufAddr P i j)
        (s.mem (pg P 0))) (pg P 0) (bufAddr P i j)) (pg P 4) (s.mem (pg P 4) + 1) } := by
    rw [Hazelnut.putBuffer]
    simp only [freelist_pg, setFreelist_pg, numFree_pg, setNumFree_pg, MdbPool.set]
    rw [update_pg_ne hlt hlt (by omega) (by omega) (.inr (by omega)), bufAddr,
      update_pg_ne hlt hlt hoff.2.2.1 (by omega) (.inr (by omega))]
  have hget : ∀ Q, Q < 2 ^ 20 → ∀ o < 4096, Q ≠ P ∨ (o ≠ 0 ∧ o ≠ 4 ∧ o ≠ bufOff i j) →
      (Hazelnut.putBuffer (pg P 0) (bufAddr P i j) s).mem (pg Q o) = s.mem (pg Q o) := by
    intro Q hQ o ho hne
    rw [heq]
    simp only [bufAddr]
    rw [update_pg_ne hlt hQ (by omega) ho (by tauto), update_pg_ne hlt hQ (by omega) ho (by tauto),
      update_pg_ne hlt hQ hoff.2.2.1 ho (by tauto)]
  have hpage := (h.page P i hP hi).put hi (h.valid P i hP) hj hjf
  rw [heq] at hget ⊢
  exact h.write hP (fun Q hQ hne o ho => hget Q hQ o ho (.inl hne))
    (hget P hlt 8 (by omega) (.inr (by omega))) (hget P hlt 12 (by omega) (.inr (by omega))) hpage

/-- The first chunk of a list leaves it. -/
lemma PoolInv.popChunk (h : PoolInv s A) (hl : A.lol i = P :: l) :
    PoolInv (tellHead (s.setList i (s.mem (pg P 8))) l 0)
      { A with lol := Function.update A.lol i l } := by
  have hsub : ∀ Q ∈ l, Q ∈ A.lol i := fun Q hQ => by simp [hl, hQ]
  have hltl : ∀ Q ∈ l, Q < 2 ^ 20 := fun Q hQ => h.lt (h.lolMem i Q (hsub Q hQ)).1
  have hlol := h.lol i
  have hnd := h.lolNodup i
  rw [hl] at hlol hnd
  have hnd := (List.nodup_cons.mp hnd).2
  have hsame : SameBuffers A i s (s.setList i (s.mem (pg P 8))) := fun _ _ _ _ _ _ => rfl
  refine h.relink (hsame.tellHead h fun Q hQ => (h.lolMem i Q (hsub Q hQ)).1) ?_ ?_ hnd
    fun Q hQ => h.lolMem i Q (hsub Q hQ)
  · intro k hk
    simp [MdbPool.setList, hk]
  · have hnew : (tellHead (s.setList i (s.mem (pg P 8))) l 0).lists i = s.mem (pg P 8) := by
      simp [MdbPool.setList]
    rw [LolOk, hnew]
    refine DList.IsDList.pop hlol hnd ?_ ?_ ?_
    · exact fun Q hQ => tellHead_ne hltl (hltl Q hQ) (by omega) (.inr (by omega))
    · exact fun Q hQ => tellHead_head hQ
    · intro Q hQ
      exact tellHead_ne hltl (hltl Q (List.mem_of_mem_tail hQ)) (by omega)
        (.inl (DList.notMem_head?_of_mem_tail hnd hQ))

/-- A buffer is taken from the first chunk of the list of its size. -/
lemma PoolInv.takeBuffer {fr : List Nat} (h : PoolInv s A) (hl : A.lol i = P :: l)
    (hf : A.free P = j :: fr) : ∃ s', takeBuffer i (pg P 0) s = (bufAddr P i j, s') ∧
      PoolInv s' { A with
        free := Function.update A.free P fr
        lol := Function.update A.lol i (if fr = [] then l else P :: l) } := by
  obtain ⟨hP, hi⟩ := h.lolMem i P (by simp [hl])
  have hlt := h.lt hP
  have hpage := h.page P i hP hi
  rw [hf] at hpage
  have hoff := hi.off (hpage.lt j (by simp))
  set m' := Function.update (Function.update s.mem (pg P 0) (s.mem (bufAddr P i j))) (pg P 4)
    (s.mem (pg P 4) - 1) with hm'
  have htaken := hpage.take hi (h.valid P i hP)
  have hget : ∀ Q, Q < 2 ^ 20 → ∀ o < 4096, Q ≠ P ∨ (o ≠ 0 ∧ o ≠ 4) →
      m' (pg Q o) = s.mem (pg Q o) := by
    intro Q hQ o ho hne
    rw [hm', update_pg_ne hlt hQ (by omega) ho (by tauto),
      update_pg_ne hlt hQ (by omega) ho (by tauto)]
  have hinv := h.write hP (fun Q hQ hne o ho => hget Q hQ o ho (.inl hne))
    (hget P hlt 8 (by omega) (.inr (by omega))) (hget P hlt 12 (by omega) (.inr (by omega))) htaken
  set t : MdbPool := { s with mem := m' } with ht
  have hnum : t.numFree (pg P 0) = BitVec.ofNat 32 fr.length := numFree_pg.trans htaken.num
  have hzero : BitVec.ofNat 32 fr.length = 0 ↔ fr = [] := by
    have hlen := htaken.length_lt hi
    constructor
    · intro h0
      have := congrArg BitVec.toNat h0
      rw [BitVec.toNat_ofNat, Nat.mod_eq_of_lt (by omega)] at this
      exact List.length_eq_zero_iff.mp (by simpa using this)
    · rintro rfl
      rfl
  have hstep : Hazelnut.takeBuffer i (pg P 0) s = (bufAddr P i j,
      if fr = [] then tellHead (t.setList i (t.mem (pg P 8))) l 0 else t) := by
    have ht' : (s.setFreelist (pg P 0) (s.mem (s.freelist (pg P 0)))).setNumFree (pg P 0)
        ((s.setFreelist (pg P 0) (s.mem (s.freelist (pg P 0)))).numFree (pg P 0) - 1) = t := by
      simp only [freelist_pg, setFreelist_pg, numFree_pg, setNumFree_pg, MdbPool.set, hpage.head]
      rw [update_pg_ne hlt hlt (by omega) (by omega) (.inr (by omega))]
    rw [Hazelnut.takeBuffer]
    simp only [ht', hnum, hzero]
    refine Prod.ext hpage.head (if_congr Iff.rfl ?_ rfl)
    have hlol := hinv.lol i
    simp only [hl] at hlol
    have hnew : (t.setList i (t.nextFreelist (pg P 0))).lists i = t.mem (pg P 8) := by
      simp [MdbPool.setList]
    rw [hnew, nextFreelist_pg]
    exact tellHead_eq hlol.2.2 fun Q hQ => h.lolPage (i := i) Q (by simp [hl, hQ])
  refine ⟨_, hstep, ?_⟩
  by_cases hfr : fr = []
  · simp only [if_pos hfr]
    exact hinv.popChunk hl
  · simp only [if_neg hfr]
    rw [← hl, Function.update_eq_self]
    exact hinv

/-- A new chunk. -/
lemma PoolInv.addChunk {fr : List Nat} (h : PoolInv s A) (hP : IsPage P)
    (hnew : P ∉ A.chunks.map Prod.fst)
    (hsame : ∀ Q, Q < 2 ^ 20 → Q ≠ P → ∀ o < 4096, s'.mem (pg Q o) = s.mem (pg Q o))
    (hlists : s'.lists = s.lists) (hpage : Small i → PageOk s'.mem P i fr) :
    PoolInv s' { A with chunks := (P, i) :: A.chunks, free := Function.update A.free P fr } := by
  have hne : ∀ Q k, (Q, k) ∈ A.chunks → Q ≠ P :=
    fun Q k hQ he => hnew (List.mem_map.mpr ⟨(Q, k), hQ, he⟩)
  refine ⟨?_, List.nodup_cons.mpr ⟨hnew, h.nodup⟩, ?_, ?_, h.lolNodup, ?_⟩
  · intro Q k hQ
    rcases List.mem_cons.mp hQ with he | hQ
    · obtain ⟨rfl, rfl⟩ := Prod.mk.inj he
      exact hP
    · exact h.valid Q k hQ
  · intro Q k hQ hk
    rcases List.mem_cons.mp hQ with he | hQ
    · obtain ⟨rfl, rfl⟩ := Prod.mk.inj he
      simpa using hpage hk
    · simp only [Function.update_of_ne (hne Q k hQ)]
      exact (h.page Q k hQ hk).congr hk fun o ho _ _ => hsame Q (h.lt hQ) (hne Q k hQ) o ho
  · intro k
    refine (h.lol k).congr (congrFun hlists k) fun Q hQ => ?_
    have hQ' := (h.lolMem k Q hQ).1
    exact ⟨hsame Q (h.lt hQ') (hne Q k hQ') 8 (by omega),
      hsame Q (h.lt hQ') (hne Q k hQ') 12 (by omega)⟩
  · intro k Q hQ
    exact ⟨List.mem_cons_of_mem _ (h.lolMem k Q hQ).1, (h.lolMem k Q hQ).2⟩

/-- A chunk that is in no list is given back. -/
lemma PoolInv.dropChunk {c : List (Nat × Nat)} (h : PoolInv s A) (hsub : c.Sublist A.chunks)
    (hlol : ∀ i Q, Q ∈ A.lol i → (Q, i) ∈ c) : PoolInv s { A with chunks := c } where
  valid := fun P k hP => h.valid P k (hsub.subset hP)
  nodup := h.nodup.sublist (hsub.map Prod.fst)
  page := fun P k hP hk => h.page P k (hsub.subset hP) hk
  lol := h.lol
  lolNodup := h.lolNodup
  lolMem := fun k Q hQ => ⟨hlol k Q hQ, (h.lolMem k Q hQ).2⟩

end pool

/-! ### A new chunk -/

lemma Small.off_le (hi : Small i) (hj : j ≤ maxN i) : bufOff i j ≤ 4096 := by
  rcases hi.cases with ⟨h1, h2⟩ | ⟨h1, h2⟩ | ⟨h1, h2⟩ <;>
    (simp only [bufOff, h1, h2] at *; omega)

/-- The first buffer. -/
lemma bufAddr_first (hi : Small i) :
    pg P 0 + chunkSz - maxFree i * bufSize i = bufAddr P i 0 := by
  have hall : maxFree i * bufSize i = BitVec.ofNat 32 (maxN i * sizeN i) := by
    rw [BitVec.ofNat_mul]
    simp [maxN, sizeN]
  have hend : bufOff i 0 + maxN i * sizeN i = 4096 := by
    rw [← hi.off_max, bufOff, bufOff, Nat.zero_mul, Nat.add_zero]
  rw [show pg P 0 + chunkSz = pg P 4096 from pg_field P 4096, ← hend, hall, ← pg_add,
    BitVec.add_sub_cancel, bufAddr]

section new

variable (hi : Small i) (hP : IsPage P)
include hi hP

lemma bufAddr_toNat (hj : j ≤ maxN i) : (bufAddr P i j).toNat = 4096 * P + bufOff i j := by
  have := hi.off_le hj
  have := hP.2
  rw [bufAddr, pg, BitVec.toNat_ofNat, Nat.mod_eq_of_lt (by omega)]

/-- The end of the loop. -/
lemma bufAddr_le_end (hj : j ≤ maxN i) :
    bufAddr P i j ≤ pg P 0 + chunkSz - bufSize i ↔ j < maxN i := by
  have hmax := hi.max
  have hend : pg P 0 + chunkSz - bufSize i = bufAddr P i (maxN i - 1) := by
    have hlast := bufAddr_add_size P i (maxN i - 1)
    rw [show maxN i - 1 + 1 = maxN i by omega, bufAddr, bufAddr, hi.off_max] at hlast
    rw [show pg P 0 + chunkSz = pg P 4096 from pg_field P 4096, ← hlast, BitVec.add_sub_cancel,
      bufAddr]
  rw [hend, BitVec.le_def, bufAddr_toNat hi hP hj, bufAddr_toNat hi hP (by omega)]
  rcases hi.cases with ⟨h1, h2⟩ | ⟨h1, h2⟩ | ⟨h1, h2⟩ <;>
    (simp only [bufOff, h1, h2] at *; omega)

lemma bufAddr_inj (hj : j < maxN i) (hk : k < maxN i) (h : bufAddr P i j = bufAddr P i k) :
    j = k := by
  have hoff := hi.off hj
  have := congrArg BitVec.toNat h
  rw [bufAddr_toNat hi hP hj.le, bufAddr_toNat hi hP hk.le] at this
  by_contra hne
  have := hi.disjoint hne
  omega

/-- The loop that links the buffers. -/
lemma linkBuffers_eq (fuel : Nat) (s : MdbPool) (hj : j ≤ maxN i) (hf : maxN i - j < fuel) :
    ∃ s', linkBuffers (bufSize i) (pg P 0 + chunkSz - bufSize i) fuel (bufAddr P i j) s =
        some (bufAddr P i (maxN i), s') ∧ s'.lists = s.lists ∧
      (∀ k, j ≤ k → k < maxN i → s'.mem (bufAddr P i k) = bufAddr P i (k + 1)) ∧
      ∀ a, (∀ k, j ≤ k → k < maxN i → a ≠ bufAddr P i k) → s'.mem a = s.mem a := by
  induction fuel generalizing j s with
  | zero => omega
  | succ fuel ih =>
      rw [linkBuffers]
      by_cases hlast : j = maxN i
      · have hend := (bufAddr_le_end hi hP hj).not.mpr (by omega)
        rw [if_neg hend, hlast]
        exact ⟨s, rfl, rfl, fun k h1 h2 => by omega, fun a _ => rfl⟩
      · have hend := (bufAddr_le_end hi hP hj).mpr (by omega)
        rw [if_pos hend, bufAddr_add_size]
        obtain ⟨s', heq, hlists, hlink, hrest⟩ :=
          ih (s.set (bufAddr P i j) (bufAddr P i (j + 1))) (j := j + 1) (by omega) (by omega)
        refine ⟨s', heq, hlists, fun k hk hk' => ?_, fun a ha => ?_⟩
        · rcases Nat.lt_or_ge j k with hlt | hge
          · exact hlink k hlt hk'
          · obtain rfl : j = k := by omega
            rw [hrest]
            · exact Function.update_self ..
            · intro k h1 h2 he
              have := bufAddr_inj hi hP hk' h2 he
              omega
        · rw [hrest a fun k h1 h2 => ha k (by omega) h2]
          exact Function.update_of_ne (ha j le_rfl (by omega)) ..

/-- The buffers behind one another form the free list. -/
lemma isChain_range' (hlink : ∀ k, k < maxN i →
      m (bufAddr P i k) = if k + 1 = maxN i then 0 else bufAddr P i (k + 1)) {a : Option Word}
    (hn : j + n = maxN i) (ha : freeLink m P a = if j = maxN i then 0 else bufAddr P i j) :
    Chain.IsChain (freeLink m P) 0 a ((List.range' j n).map (bufAddr P i)) := by
  induction n generalizing j a with
  | zero =>
      rw [if_pos (by omega)] at ha
      exact Chain.isChain_nil.mpr ha
  | succ n ih =>
      rw [if_neg (by omega)] at ha
      rw [List.range'_succ, List.map_cons]
      have hoff := hi.off (j := j) (by omega)
      refine Chain.isChain_cons.mpr ⟨ha, pg_ne_zero hP hoff.2.2.1, ih (by omega) ?_⟩
      exact hlink j (by omega)

/-- The words of a new chunk, before it is in the list. -/
lemma newChunk_init (s : MdbPool) : ∃ s' : MdbPool, (∀ Q, Q < 2 ^ 20 → Q ≠ P → ∀ o < 4096,
      s'.mem (pg Q o) = s.mem (pg Q o)) ∧ s'.lists = s.lists ∧ s'.mem (pg P 12) = 0 ∧
    PageOk s'.mem P i (List.range (maxN i)) ∧
    newChunk i (pg P 0) s = some (
      let t := (s'.set (pg P 8) (s'.lists i)).setList i (pg P 0)
      if s'.lists i ≠ 0 then t.setPrevFreelist (s'.lists i) (pg P 0) else t) := by
  have hlt : P < 2 ^ 20 := by have := hP.2; omega
  have hmax := hi.max
  have hmaxw : BitVec.ofNat 32 (maxN i) = maxFree i := by simp [maxN]
  set s1 := (((s.set (pg P 0) (bufAddr P i 0)).set (pg P 4) (maxFree i)).set (pg P 12) 0).set
    (pg P 16) (BitVec.ofNat 32 i) with hs1
  obtain ⟨s2, hlink, hlists, hnext, hrest⟩ :=
    linkBuffers_eq hi hP (j := 0) 1024 s1 (by omega) (by omega)
  set s3 := s2.set (bufAddr P i (maxN i - 1)) 0 with hs3
  have hoff : ∀ k, k < maxN i → 20 ≤ bufOff i k ∧ bufOff i k < 4096 :=
    fun k hk => ⟨(hi.off hk).1, (hi.off hk).2.2.1⟩
  -- what is not a link of a buffer is as in `s1`
  have hframe : ∀ Q, Q < 2 ^ 20 → ∀ o < 4096, Q ≠ P ∨ o < 20 →
      s3.mem (pg Q o) = s1.mem (pg Q o) := by
    intro Q hQ o ho hne
    have hbuf : ∀ k, k < maxN i → pg Q o ≠ bufAddr P i k := by
      intro k hk he
      obtain ⟨h1, h2⟩ := pg_inj hQ hlt ho (hoff k hk).2 he
      have := (hoff k hk).1
      rcases hne with h | h
      · exact h h1
      · omega
    rw [← hrest _ fun k _ hk => hbuf k hk]
    exact Function.update_of_ne (hbuf _ (by omega)) ..
  have hbufs : ∀ k, k < maxN i →
      s3.mem (bufAddr P i k) = if k + 1 = maxN i then 0 else bufAddr P i (k + 1) := by
    intro k hk
    by_cases hlast : k + 1 = maxN i
    · rw [if_pos hlast, show k = maxN i - 1 by omega]
      exact Function.update_self ..
    · rw [if_neg hlast, ← hnext k (by omega) hk]
      refine Function.update_of_ne (fun he => ?_) ..
      have := bufAddr_inj hi hP hk (by omega) he
      omega
  have hset : ∀ (t : MdbPool) a (w : Word), (t.set a w).mem = Function.update t.mem a w :=
    fun _ _ _ => rfl
  refine ⟨s3, ?_, hlists, ?_, ⟨?_, ?_, ?_, List.nodup_range, fun k hk => List.mem_range.mp hk⟩, ?_⟩
  · intro Q hQ hne o ho
    rw [hframe Q hQ o ho (.inl hne), hs1]
    simp only [hset]
    rw [update_pg_ne hlt hQ (by omega) ho (.inl hne), update_pg_ne hlt hQ (by omega) ho (.inl hne),
      update_pg_ne hlt hQ (by omega) ho (.inl hne), update_pg_ne hlt hQ (by omega) ho (.inl hne)]
  · rw [hframe P hlt 12 (by omega) (.inr (by omega)), hs1]
    simp only [hset]
    rw [update_pg_ne hlt hlt (by omega) (by omega) (.inr (by omega)), Function.update_self]
  · rw [List.range_eq_range']
    refine isChain_range' hi hP hbufs (by omega) ?_
    rw [if_neg (by omega), freeLink, hframe P hlt 0 (by omega) (.inr (by omega)), hs1]
    simp only [hset]
    rw [update_pg_ne hlt hlt (by omega) (by omega) (.inr (by omega)),
      update_pg_ne hlt hlt (by omega) (by omega) (.inr (by omega)),
      update_pg_ne hlt hlt (by omega) (by omega) (.inr (by omega)), Function.update_self]
  · rw [List.length_range, hmaxw, hframe P hlt 4 (by omega) (.inr (by omega)), hs1]
    simp only [hset]
    rw [update_pg_ne hlt hlt (by omega) (by omega) (.inr (by omega)),
      update_pg_ne hlt hlt (by omega) (by omega) (.inr (by omega)), Function.update_self]
  · rw [hframe P hlt 16 (by omega) (.inr (by omega)), hs1]
    exact Function.update_self ..
  · have hhead : (s1.freelist (pg P 0)) = bufAddr P i 0 := by
      rw [freelist_pg, hs1]
      simp only [hset]
      rw [update_pg_ne hlt hlt (by omega) (by omega) (.inr (by omega)),
        update_pg_ne hlt hlt (by omega) (by omega) (.inr (by omega)),
        update_pg_ne hlt hlt (by omega) (by omega) (.inr (by omega)), Function.update_self]
    have hsub : bufAddr P i (maxN i) - bufSize i = bufAddr P i (maxN i - 1) := by
      have hlast := bufAddr_add_size P i (maxN i - 1)
      rw [show maxN i - 1 + 1 = maxN i by omega] at hlast
      rw [← hlast, BitVec.add_sub_cancel]
    have hheader : (((s.setFreelist (pg P 0) (pg P 0 + chunkSz - maxFree i * bufSize i)).setNumFree
        (pg P 0) (maxFree i)).setPrevFreelist (pg P 0) 0).setBl (pg P 0) i = s1 := by
      rw [bufAddr_first hi, setFreelist_pg, setNumFree_pg, setPrevFreelist_pg, hs1, MdbPool.setBl,
        show pg P 0 + 16 = pg P 16 from pg_field P 16]
    have h8 : ((s3.set (pg P 8) (s3.lists i)).setList i (pg P 0)).nextFreelist (pg P 0) =
        s3.lists i := by
      rw [nextFreelist_pg]
      exact Function.update_self ..
    rw [newChunk]
    simp only [hheader, hhead, hlink, Option.bind_eq_bind, Option.bind_some, hsub, ← hs3,
      setNextFreelist_pg, h8, Option.pure_def]

/-- A new chunk is the first one of its list. -/
lemma PoolInv.newChunk {A : Shape} (h : PoolInv s A) (hnew : P ∉ A.chunks.map Prod.fst) :
    ∃ s', newChunk i (pg P 0) s = some s' ∧ PoolInv s'
      { chunks := (P, i) :: A.chunks
        free := Function.update A.free P (List.range (maxN i))
        lol := Function.update A.lol i (P :: A.lol i) } := by
  obtain ⟨t, hsame, hlists, h12, hpage, heq⟩ := newChunk_init hi hP s
  have hinv := h.addChunk hP hnew hsame hlists fun _ => hpage
  have hlt : P < 2 ^ 20 := by have := hP.2; omega
  have hnot : P ∉ A.lol i := fun hm =>
    hnew (List.mem_map.mpr ⟨(P, i), (h.lolMem i P hm).1, rfl⟩)
  have hltl : ∀ Q ∈ A.lol i, Q < 2 ^ 20 := fun Q hQ => h.lt (h.lolMem i Q hQ).1
  refine ⟨_, heq, ?_⟩
  have hpush := hinv.pushChunk (List.mem_cons_self ..) hi hnot
  -- the order of the writes does not matter
  have hpushed : Hazelnut.pushChunk i (pg P 0) t =
      let t' := (t.set (pg P 8) (t.lists i)).setList i (pg P 0)
      if t.lists i ≠ 0 then t'.setPrevFreelist (t.lists i) (pg P 0) else t' := by
    simp only [tellHead_eq (hinv.lol i) hinv.lolPage, Hazelnut.pushChunk]
    rw [setNextFreelist_pg, setPrevFreelist_pg]
    have hself : Function.update t.mem (pg P 12) 0 = t.mem := by
      rw [← h12, Function.update_eq_self]
    have hne : pg P 8 ≠ pg P 12 := fun he => by
      have := (pg_inj hlt hlt (by omega) (by omega) he).2
      omega
    cases hA : A.lol i with
    | nil =>
        simp only [tellHead, MdbPool.set, MdbPool.setList]
        rw [Function.update_comm hne, hself]
    | cons Q l =>
        have hQP : Q ≠ P := fun he => hnot (by simp [hA, he])
        have hQlt : Q < 2 ^ 20 := hltl Q (by simp [hA])
        have hne' : pg Q 12 ≠ pg P 12 := fun he =>
          hQP (pg_inj hQlt hlt (by omega) (by omega) he).1
        have hne'' : pg Q 12 ≠ pg P 8 := fun he =>
          hQP (pg_inj hQlt hlt (by omega) (by omega) he).1
        simp only [tellHead, MdbPool.set, MdbPool.setList]
        rw [Function.update_comm hne, Function.update_comm hne', hself, Function.update_comm hne'']
  rw [← hpushed]
  exact hpush

end new

end Hazelnut

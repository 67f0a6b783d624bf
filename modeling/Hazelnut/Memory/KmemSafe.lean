import Mathlib.Data.List.Perm.Basic
import Hazelnut.Memory.Kmem

/-!
Safety of the kernel memory allocator.

* `KmemSys`, `KmemStep`: the allocator with the blocks that have been handed out and not
  given back, and its runs.  Blocks are given back as a whole or in parts, and their owners
  write to them.
* `KmemInv`: the free chunks and those of the live blocks make up the region.
* `kmemAlloc_spec`, `kmemFree_spec`: one call on a list of free chunks.
* `kmem_sound`: what holds in every state that is reached.
-/

namespace Hazelnut

open List

/-! ### Runs of the allocator -/

/-- The memory given to the allocator by `kmem_init`, in chunks. -/
structure Region where
  base : Nat
  cnt : Nat
  base_pos : 0 < base
  cnt_pos : 0 < cnt
  fits : base + cnt ≤ 2 ^ 22

/-- Adjacent chunks. -/
structure Block where
  first : Nat
  len : Nat
  deriving DecidableEq, Repr

def Block.chunks (b : Block) : List Nat := List.range' b.first b.len

/-- What remains of a block when `n` chunks from `a` on are given back. -/
def Block.parts (b : Block) (a n : Nat) : List Block :=
  [⟨b.first, a - b.first⟩, ⟨a + n, b.first + b.len - (a + n)⟩].filter (0 < ·.len)

/-- The allocator and the live blocks. -/
structure KmemSys where
  k : Kmem
  live : List Block

/-- There are no more chunks than that, and every loop of the allocator runs over distinct
chunks. -/
def kmemFuel : Nat := 2 ^ 22

inductive KmemStep : KmemSys → KmemSys → Prop
  | alloc {s : KmemSys} {j : Nat} {p : Word} {k' : Kmem} (hj : j < 22)
      (h : kmemAlloc kmemFuel (chunkAddr (2 ^ j)) s.k = some (p, k')) :
      KmemStep s ⟨k', if p = 0 then s.live else ⟨p.toNat / 1024, 2 ^ j⟩ :: s.live⟩
  | free {s : KmemSys} {b : Block} {a n : Nat} {k' : Kmem} (hb : b ∈ s.live) (hn : 0 < n)
      (ha : b.first ≤ a) (hle : a + n ≤ b.first + b.len)
      (h : kmemFree kmemFuel (chunkAddr a) (chunkAddr n) s.k = some k') :
      KmemStep s ⟨k', b.parts a n ++ s.live.erase b⟩
  | store {s : KmemSys} {b : Block} {i : Nat} (v : Word) (hb : b ∈ s.live) (hi : i < 256 * b.len) :
      KmemStep s { s with k := { s.k with mem := Function.update s.k.mem (wordAddr b.first i) v } }

/-- The states from `kmem_init` on. -/
inductive KmemReach (R : Region) : KmemSys → Prop
  | init {k k' : Kmem}
      (h : kmemInit kmemFuel (chunkAddr R.base) (chunkAddr (R.base + R.cnt)) k = some k') :
      KmemReach R ⟨k', []⟩
  | step {s s' : KmemSys} (h : KmemReach R s) (hs : KmemStep s s') : KmemReach R s'

/-! ### Lists of free chunks -/

variable {k k' : Kmem} {a b c n i x : Nat} {l u v : List Nat} {o : Option Word}

lemma FreeList.congr (h : FreeList k o l) (ho : k'.get o = k.get o)
    (hl : ∀ x ∈ l, k'.mem (chunkAddr x) = k.mem (chunkAddr x)) : FreeList k' o l := by
  refine Chain.IsChain.congr h fun q hq => ?_
  rcases hq with rfl | ⟨y, hy, rfl⟩
  · exact ho
  · obtain ⟨x, hx, rfl⟩ := List.mem_map.mp hy
    exact hl x hx

lemma linkBehind_mem (u : List Nat) : linkBehind u = none ∨
    ∃ x ∈ u, linkBehind u = some (chunkAddr x) := by
  rcases Chain.last_mem (o := none) (l := u.map chunkAddr) with h | ⟨y, hy, h⟩
  · exact .inl h
  · obtain ⟨x, hx, rfl⟩ := List.mem_map.mp hy
    exact .inr ⟨x, hx, h⟩

lemma FreeList.behind (h : FreeList k none (u ++ v)) : FreeList k (linkBehind u) v := by
  rw [FreeList, List.map_append] at h
  exact (Chain.isChain_append.mp h).2

lemma Ascending.nodup (h : Ascending l) : (none :: (l.map chunkAddr).map some).Nodup := by
  refine List.nodup_cons.mpr ⟨by simp, ?_⟩
  refine List.Nodup.map (fun _ _ h => Option.some.inj h)
    (List.Nodup.map_on ?_ (h.1.imp Nat.ne_of_lt))
  exact fun x hx y hy => chunkAddr_inj (h.2 x hx).2 (h.2 y hy).2

lemma Ascending.left (h : Ascending (u ++ v)) : Ascending u :=
  ⟨(List.pairwise_append.mp h.1).1, fun x hx => h.2 x (by simp [hx])⟩

/-- **Exchanging the rest of the free list**: what the link behind `u` holds is changed, and
the links before it are kept. -/
lemma FreeList.splice {w : List Nat} (h : FreeList k none (u ++ v)) (ha : Ascending (u ++ v))
    (heq : ∀ q, (q = none ∨ ∃ x ∈ u, q = some (chunkAddr x)) → q ≠ linkBehind u →
      k'.get q = k.get q)
    (hw : FreeList k' (linkBehind u) w) : FreeList k' none (u ++ w) := by
  rw [FreeList, List.map_append] at h ⊢
  refine Chain.Segment.splice (Chain.isChain_append.mp h).1 (fun q hq hne => heq q ?_ hne)
    ha.left.nodup hw
  rcases hq with rfl | ⟨y, hy, rfl⟩
  · exact .inl rfl
  · obtain ⟨x, hx, rfl⟩ := List.mem_map.mp hy
    exact .inr ⟨x, hx, rfl⟩

/-! ### `kmem_alloc` -/

lemma takeRun_get {size : Word} {prev : Option Word} {tmp : Word} (hs : (size / 4).toNat = 256 * n)
    (hn : c + n ≤ 2 ^ 22)
    (ho : o = none ∨ ∃ x, o = some (chunkAddr x) ∧ x < 2 ^ 22 ∧ (x < c ∨ c + n ≤ x)) :
    (takeRun k size prev (chunkAddr c) tmp).get o = (k.set tmp prev).get o := by
  rcases ho with rfl | ⟨x, rfl, hx, hout⟩
  · rfl
  · change zeroWords (size / 4).toNat (chunkAddr c) (k.set tmp prev).mem (chunkAddr x) = _
    rw [hs, ← wordAddr_zero, zeroWords_of_ne]
    · rfl
    · intro j hj
      rw [Nat.zero_add]
      exact wordAddr_ne hx hn hj hout

lemma chunkAddr_words (hn : n < 2 ^ 22) : (chunkAddr n / 4).toNat = 256 * n := by
  have h4 : (4 : Word).toNat = 4 := rfl
  rw [BitVec.toNat_udiv, chunkAddr_toNat hn, h4]
  omega

lemma chunkAddr_div_eq (hn : n < 2 ^ 22) : chunkAddr n / kmemChunksize = BitVec.ofNat 32 n := by
  refine BitVec.eq_of_toNat_eq ?_
  rw [chunkAddr_div hn, BitVec.toNat_ofNat, Nat.mod_eq_of_lt (by omega)]

/-- The chunks before and behind a run of free chunks. -/
lemma Ascending.split (h : Ascending (u ++ (List.range' c n ++ x :: l))) (hn : 0 < n) :
    (∀ y ∈ u, y < c) ∧ c + n ≤ x ∧ ∀ y ∈ l, x < y := by
  obtain ⟨-, hrest, hu⟩ := List.pairwise_append.mp h.1
  obtain ⟨-, hxl, hr⟩ := List.pairwise_append.mp hrest
  refine ⟨fun y hy => hu y hy c ?_, ?_, (List.pairwise_cons.mp hxl).1⟩
  · exact List.mem_append_left _ (List.mem_range'_1.mpr ⟨le_rfl, by omega⟩)
  · have := hr (c + n - 1) (List.mem_range'_1.mpr ⟨by omega, by omega⟩) x (by simp)
    omega

/-- The list without the run that has been taken. -/
lemma takeRun_list (h : FreeList k none (u ++ (List.range' c n ++ x :: l)))
    (ha : Ascending (u ++ (List.range' c n ++ x :: l))) (hn : 0 < n) (hn' : n < 2 ^ 22) :
    FreeList (takeRun k (chunkAddr n) (linkBehind u) (chunkAddr c) (chunkAddr x)) none
      (u ++ x :: l) := by
  obtain ⟨hu, hx, hl⟩ := ha.split hn
  have hlt : ∀ y ∈ u ++ (List.range' c n ++ x :: l), y < 2 ^ 22 := fun y hy => (ha.2 y hy).2
  have hx' : x < 2 ^ 22 := hlt x (by simp)
  have hget : ∀ q, (q = none ∨ ∃ y, q = some (chunkAddr y) ∧ y < 2 ^ 22 ∧ (y < c ∨ c + n ≤ y)) →
      (takeRun k (chunkAddr n) (linkBehind u) (chunkAddr c) (chunkAddr x)).get q =
        (k.set (chunkAddr x) (linkBehind u)).get q := fun q hq =>
    takeRun_get (chunkAddr_words hn') (by omega) hq
  have hout : ∀ q, (q = none ∨ ∃ y ∈ u, q = some (chunkAddr y)) →
      (q = none ∨ ∃ y, q = some (chunkAddr y) ∧ y < 2 ^ 22 ∧ (y < c ∨ c + n ≤ y)) := by
    rintro q (rfl | ⟨y, hy, rfl⟩)
    · exact .inl rfl
    · exact .inr ⟨y, rfl, hlt y (by simp [hy]), .inl (hu y hy)⟩
  refine h.splice ha (fun q hq hne => ?_) ?_
  · rw [hget q (hout q hq), Kmem.get_set_of_ne _ hne]
  · refine freeList_cons.mpr ⟨?_, chunkAddr_ne_zero (ha.2 x (by simp)), ?_⟩
    · rw [hget _ (hout _ (linkBehind_mem u)), Kmem.get_set_self]
    · -- the rest is not touched
      have hrest : FreeList k (some (chunkAddr x)) l := by
        have h1 : FreeList k none ((u ++ (List.range' c n ++ [x])) ++ l) := by simpa using h
        have h2 := h1.behind
        rwa [← List.append_assoc, linkBehind_concat] at h2
      have hkeep : ∀ y ∈ x :: l,
          (takeRun k (chunkAddr n) (linkBehind u) (chunkAddr c) (chunkAddr x)).get
            (some (chunkAddr y)) = k.get (some (chunkAddr y)) := by
        intro y hy
        have hxy : x ≤ y := by
          rcases List.mem_cons.mp hy with rfl | hy
          · exact le_rfl
          · exact Nat.le_of_lt (hl y hy)
        have hy' : y < 2 ^ 22 := hlt y (by simp [List.mem_cons.mp hy])
        rw [hget _ (.inr ⟨y, rfl, hy', .inr (by omega)⟩), Kmem.get_set_of_ne]
        rcases linkBehind_mem u with he | ⟨z, hz, he⟩
        · simp [he]
        · rw [he]
          intro heq
          have := chunkAddr_inj hy' (hlt z (by simp [hz])) (Option.some.inj heq)
          have := hu z hz
          omega
      exact hrest.congr (hkeep x (by simp)) fun y hy => hkeep y (by simp [hy])

/-- **`kmem_alloc`** finds nothing, or takes a run of chunks out of the list. -/
lemma kmemAlloc_spec (h : FreeList k none l) (ha : Ascending l) (hn : 0 < n) (hn' : n < 2 ^ 22)
    (hf : l.length < kmemFuel) :
    kmemAlloc kmemFuel (chunkAddr n) k = some (0, k) ∨
    ∃ u c v k', l = u ++ (List.range' c n ++ v) ∧ Ascending (u ++ v) ∧ FreeList k' none (u ++ v) ∧
      chunkAddr c &&& (chunkAddr n - 1) = 0 ∧ k'.freeChunks = k.freeChunks - BitVec.ofNat 32 n ∧
      (∀ i < 256 * n, k'.mem (wordAddr c i) = 0) ∧
      kmemAlloc kmemFuel (chunkAddr n) k = some (chunkAddr c, k') := by
  rcases allocScan_spec (u := []) h ha hn hn' hf with hnone | ⟨u, c, x, v, hl, hal, hsome⟩
  · exact .inl hnone
  · have hl' : l = u ++ (List.range' c n ++ x :: v) := hl
    subst hl'
    have hcn : c + n ≤ 2 ^ 22 := by
      have := (ha.split hn).2.1
      have := (ha.2 x (by simp)).2
      omega
    refine .inr ⟨u, c, x :: v, _, rfl, ?_, takeRun_list h ha hn hn', hal, ?_, ?_, hsome⟩
    · refine ⟨ha.1.sublist ?_, fun y hy => ha.2 y ?_⟩
      · exact (List.sublist_append_right _ _).append_left u
      · rcases List.mem_append.mp hy with hy | hy
        · exact List.mem_append_left _ hy
        · exact List.mem_append_right _ (List.mem_append_right _ hy)
    · change (k.set _ _).freeChunks - chunkAddr n / kmemChunksize = _
      rw [Kmem.set_freeChunks, chunkAddr_div_eq hn']
    · intro i hi
      change zeroWords (chunkAddr n / 4).toNat (chunkAddr c) _ (wordAddr c i) = 0
      rw [chunkAddr_words hn', ← wordAddr_zero c]
      have hz := zeroWords_self (c := c) (i := 0) (n := 256 * n) (j := i)
        (m := (k.set (chunkAddr x) (linkBehind u)).mem) hi (by omega)
      rwa [Nat.zero_add] at hz

/-! ### `kmem_free` -/

/-- A run whose chunks are linked, in front of a list. -/
lemma freeList_run (hn : 0 < n) (hc : 0 < c) (hcn : c + n ≤ 2 ^ 22) (ho : k.get o = chunkAddr c)
    (hlink : ∀ j, j + 1 < n → k.mem (chunkAddr (c + j)) = chunkAddr (c + j + 1))
    (hv : FreeList k (some (chunkAddr (c + n - 1))) v) : FreeList k o (List.range' c n ++ v) := by
  induction n generalizing c o with
  | zero => omega
  | succ n ih =>
      rw [List.range'_succ, List.cons_append]
      refine freeList_cons.mpr ⟨ho, chunkAddr_ne_zero ⟨hc, by omega⟩, ?_⟩
      by_cases h0 : n = 0
      · subst h0
        exact hv
      · refine ih (by omega) (by omega) (by omega) (hlink 0 (by omega)) (fun j hj => ?_) ?_
        · rw [show c + 1 + j = c + (j + 1) by omega]
          exact hlink (j + 1) (by omega)
        · rwa [show c + 1 + n - 1 = c + (n + 1) - 1 by omega]

lemma Linked.get_out (hl : Linked k k' c n) (hcn : c + n ≤ 2 ^ 22)
    (ho : o = none ∨ ∃ x, o = some (chunkAddr x) ∧ x < 2 ^ 22 ∧ (x < c ∨ c + n ≤ x)) :
    k'.get o = k.get o := by
  rcases ho with rfl | ⟨x, rfl, hx, hout⟩
  · exact hl.freeList
  · refine hl.other _ fun j hj heq => ?_
    have := chunkAddr_inj hx (by omega) heq
    omega

/-- The block put between `u` and `v`. -/
lemma freed_list (h : FreeList k none (u ++ v)) (ha : Ascending (u ++ v)) (hn : 0 < n)
    (hc : 0 < c) (hcn : c + n ≤ 2 ^ 22) (hu : ∀ x ∈ u, x < c) (hv : ∀ x ∈ v, c + n ≤ x)
    (hl : ∀ j, j + 1 < n → k.mem (chunkAddr (c + j)) = chunkAddr (c + j + 1)) :
    FreeList ((k.set (chunkAddr c) (linkBehind u)).set (k.get (linkBehind u))
      (some (chunkAddr (c + n - 1)))) none (u ++ (List.range' c n ++ v)) := by
  have hlt : ∀ y ∈ u ++ v, y < 2 ^ 22 := fun y hy => (ha.2 y hy).2
  have hlast : ∀ x, x < c → (some (chunkAddr x) : Option Word) ≠ some (chunkAddr (c + n - 1)) := by
    intro x hx heq
    have := chunkAddr_inj (by omega) (by omega) (Option.some.inj heq)
    omega
  have hbehind : linkBehind u ≠ some (chunkAddr (c + n - 1)) := by
    rcases linkBehind_mem u with he | ⟨x, hx, he⟩
    · simp [he]
    · rw [he]
      exact hlast x (hu x hx)
  have hother : ∀ x, x < 2 ^ 22 → c ≤ x → x ≠ c + n - 1 →
      ((k.set (chunkAddr c) (linkBehind u)).set (k.get (linkBehind u))
        (some (chunkAddr (c + n - 1)))).mem (chunkAddr x) = k.mem (chunkAddr x) := by
    intro x hx hcx hne
    have h1 : (some (chunkAddr x) : Option Word) ≠ some (chunkAddr (c + n - 1)) := fun heq =>
      hne (chunkAddr_inj hx (by omega) (Option.some.inj heq))
    have h2 : (some (chunkAddr x) : Option Word) ≠ linkBehind u := by
      rcases linkBehind_mem u with he | ⟨z, hz, he⟩
      · simp [he]
      · rw [he]
        intro heq
        have := chunkAddr_inj hx (hlt z (by simp [hz])) (Option.some.inj heq)
        have := hu z hz
        omega
    exact (Kmem.get_set_of_ne _ h1).trans (Kmem.get_set_of_ne _ h2)
  refine h.splice ha (fun q hq hne => ?_) (freeList_run hn hc hcn ?_ (fun j hj => ?_) ?_)
  · rw [Kmem.get_set_of_ne, Kmem.get_set_of_ne _ hne]
    rcases hq with rfl | ⟨x, hx, rfl⟩
    · simp
    · exact hlast x (hu x hx)
  · rw [Kmem.get_set_of_ne _ hbehind, Kmem.get_set_self]
  · rw [hother (c + j) (by omega) (by omega) (by omega)]
    exact hl j hj
  · have hv' := h.behind
    cases v with
    | nil =>
        refine Chain.isChain_nil.mpr ?_
        rw [Kmem.get_set_self]
        exact hv'.eq_nil_iff.mpr rfl
    | cons y v =>
        obtain ⟨hy, hy0, hrest⟩ := freeList_cons.mp hv'
        have hkeep : ∀ z ∈ y :: v, ((k.set (chunkAddr c) (linkBehind u)).set (k.get (linkBehind u))
            (some (chunkAddr (c + n - 1)))).mem (chunkAddr z) = k.mem (chunkAddr z) := by
          intro z hz
          have := hv z hz
          exact hother z (hlt z (List.mem_append_right _ hz)) (by omega) (by omega)
        refine freeList_cons.mpr ⟨?_, hy0, ?_⟩
        · rw [Kmem.get_set_self, hy]
        · exact hrest.congr (hkeep y (by simp)) fun z hz => hkeep z (by simp [hz])

/-- **`kmem_free`** puts a block of chunks that are not free into the list. -/
lemma kmemFree_spec (h : FreeList k none l) (ha : Ascending l) (hn : 0 < n) (hc : 0 < c)
    (hcn : c + n ≤ 2 ^ 22) (hout : ∀ x ∈ l, x < c ∨ c + n ≤ x) (hf : l.length < kmemFuel) :
    ∃ u v k', l = u ++ v ∧ Ascending (u ++ (List.range' c n ++ v)) ∧
      FreeList k' none (u ++ (List.range' c n ++ v)) ∧
      k'.freeChunks = k.freeChunks + BitVec.ofNat 32 n ∧
      kmemFree kmemFuel (chunkAddr c) (chunkAddr n) k = some k' := by
  have hn' : n < 2 ^ 22 := by omega
  have hfuel : n ≤ kmemFuel := by
    unfold kmemFuel
    omega
  obtain ⟨k₁, hrun, hlink⟩ := linkRun_spec (k := k) hn hcn hfuel
  have hlim : chunkAddr c + chunkAddr n - kmemChunksize = chunkAddr (c + n - 1) := by
    rw [chunkAddr_add, chunkAddr_sub_one (by omega)]
  have h₁ : FreeList k₁ none l := by
    refine h.congr hlink.freeList fun x hx => ?_
    exact hlink.get_out hcn (.inr ⟨x, rfl, (ha.2 x hx).2, hout x hx⟩)
  obtain ⟨u, v, hl, hu, hv, hplace⟩ := findPlace_spec (u := []) (v := l) (b := c) h₁ ha
    (by omega) (by simp) hf
  have hl' : l = u ++ v := hl
  subst hl'
  have hv' : ∀ x ∈ v, c + n ≤ x := by
    intro x hx
    rcases hout x (List.mem_append_right _ hx) with h' | h'
    · have := hv x hx
      omega
    · exact h'
  have hdone : kmemFree kmemFuel (chunkAddr c) (chunkAddr n) k =
      some { (k₁.set (chunkAddr c) (linkBehind u)).set (k₁.get (linkBehind u))
        (some (chunkAddr (c + n - 1))) with
        freeChunks := k₁.freeChunks + chunkAddr n / kmemChunksize } := by
    have hplace' : findPlace (chunkAddr c) k₁ kmemFuel none k₁.freeList =
        some (linkBehind u, k₁.get (linkBehind u)) := hplace
    simp only [kmemFree, hlim, hrun, Option.bind_eq_bind, Option.bind_some, hplace', pure,
      Kmem.set_freeChunks]
  have hlist := freed_list h₁ ha hn hc hcn hu hv' hlink.link
  refine ⟨u, v, _, rfl, ⟨?_, ?_⟩, ?_, ?_, hdone⟩
  · obtain ⟨hpu, hpv, huv⟩ := List.pairwise_append.mp ha.1
    refine List.pairwise_append.mpr ⟨hpu, List.pairwise_append.mpr ⟨?_, hpv, ?_⟩, ?_⟩
    · exact List.pairwise_lt_range'
    · intro x hx y hy
      have := (List.mem_range'_1.mp hx).2
      have := hv' y hy
      omega
    · intro x hx y hy
      have hxc := hu x hx
      rcases List.mem_append.mp hy with hy | hy
      · have := (List.mem_range'_1.mp hy).1
        omega
      · exact huv x hx y hy
  · intro x hx
    rcases List.mem_append.mp hx with hx | hx
    · exact ha.2 x (List.mem_append_left _ hx)
    · rcases List.mem_append.mp hx with hx | hx
      · have := List.mem_range'_1.mp hx
        exact ⟨by omega, by omega⟩
      · exact ha.2 x (List.mem_append_right _ hx)
  · exact hlist.congr rfl fun _ _ => rfl
  · rw [hlink.freeChunks, chunkAddr_div_eq hn']

/-! ### The invariant -/

/-- The list `l` of free chunks is in order, and with the live blocks it makes up the
region. -/
structure KmemInv (R : Region) (s : KmemSys) (l : List Nat) : Prop where
  list : FreeList s.k none l
  sorted : l.Pairwise (· < ·)
  count : s.k.freeChunks = BitVec.ofNat 32 l.length
  perm : l ++ s.live.flatMap Block.chunks ~ List.range' R.base R.cnt

variable {R : Region} {s s' : KmemSys}

/-- What is given back and what remains make up the block. -/
lemma Block.parts_perm {b : Block} {a n : Nat} (ha : b.first ≤ a)
    (hle : a + n ≤ b.first + b.len) :
    List.range' a n ++ (b.parts a n).flatMap Block.chunks ~ b.chunks := by
  have hfilter : ∀ bs : List Block,
      (bs.filter (0 < ·.len)).flatMap Block.chunks = bs.flatMap Block.chunks := by
    intro bs
    induction bs with
    | nil => rfl
    | cons x bs ih =>
        by_cases hx : 0 < x.len
        · simp [hx, ih]
        · have hnil : x.chunks = [] := by simp [Block.chunks, Nat.eq_zero_of_not_pos hx]
          simp [hx, ih, hnil]
  have hsplit : b.chunks = List.range' b.first (a - b.first) ++
      (List.range' a n ++ List.range' (a + n) (b.first + b.len - (a + n))) := by
    rw [List.range'_append_1]
    nth_rewrite 2 [show a = b.first + (a - b.first) by omega]
    rw [List.range'_append_1, Block.chunks]
    congr 1
    omega
  rw [Block.parts, hfilter, hsplit]
  simp only [List.flatMap_cons, List.flatMap_nil, List.append_nil, Block.chunks]
  exact List.perm_append_comm_assoc ..

namespace KmemInv

lemma mem_iff (h : KmemInv R s l) {c : Nat} :
    (R.base ≤ c ∧ c < R.base + R.cnt) ↔ c ∈ l ∨ ∃ b ∈ s.live, c ∈ b.chunks := by
  rw [← List.mem_range'_1, ← h.perm.mem_iff, List.mem_append, List.mem_flatMap]

lemma ascending (h : KmemInv R s l) : Ascending l := by
  refine ⟨h.sorted, fun x hx => ?_⟩
  obtain ⟨h1, h2⟩ := h.mem_iff.mpr (.inl hx)
  have := R.base_pos
  have := R.fits
  exact ⟨by omega, by omega⟩

lemma nodup (h : KmemInv R s l) : (l ++ s.live.flatMap Block.chunks).Nodup :=
  h.perm.nodup_iff.mpr List.nodup_range'

lemma length_lt (h : KmemInv R s l) : l.length < kmemFuel := by
  have hlen := h.perm.length_eq
  rw [List.length_append, List.length_range'] at hlen
  have := R.base_pos
  have := R.fits
  unfold kmemFuel
  omega

/-- The chunks of a live block are not free. -/
lemma not_free (h : KmemInv R s l) {b : Block} (hb : b ∈ s.live) {c : Nat} (hc : c ∈ b.chunks) :
    c ∉ l := fun hl =>
  (List.nodup_append.mp h.nodup).2.2 c hl c (List.mem_flatMap.mpr ⟨b, hb, hc⟩) rfl

/-- **`kmem_init`** leaves all chunks of the region free. -/
lemma exists_init (R : Region) (k : Kmem) :
    ∃ k', kmemInit kmemFuel (chunkAddr R.base) (chunkAddr (R.base + R.cnt)) k = some k' ∧
      KmemInv R ⟨k', []⟩ (List.range' R.base R.cnt) := by
  have hsize : chunkAddr (R.base + R.cnt) - chunkAddr R.base = chunkAddr R.cnt := by
    rw [Nat.add_comm, ← chunkAddr_add, BitVec.add_sub_cancel]
  have hnil : FreeList { k with freeList := 0, freeChunks := 0 } none [] :=
    Chain.isChain_nil.mpr rfl
  have hf : ([] : List Nat).length < kmemFuel := by simp [kmemFuel]
  obtain ⟨u, v, k', hl, hasc, hlist, hcount, hfree⟩ := kmemFree_spec hnil
    ⟨List.Pairwise.nil, by simp⟩ R.cnt_pos R.base_pos R.fits (by simp) hf
  obtain ⟨rfl, rfl⟩ := List.append_eq_nil_iff.mp hl.symm
  simp only [List.nil_append, List.append_nil] at hlist hasc
  refine ⟨k', by rw [kmemInit, hsize, hfree], hlist, hasc.1, ?_, by simp⟩
  rw [hcount, List.length_range']
  exact BitVec.zero_add _

/-- A block that is handed out. -/
lemma alloc (h : KmemInv R s l) {j : Nat} (hj : j < 22) {p : Word} {k' : Kmem}
    (hk : kmemAlloc kmemFuel (chunkAddr (2 ^ j)) s.k = some (p, k')) :
    ∃ l', KmemInv R ⟨k', if p = 0 then s.live else ⟨p.toNat / 1024, 2 ^ j⟩ :: s.live⟩ l' := by
  have hpos : 0 < 2 ^ j := Nat.two_pow_pos j
  have hlt : 2 ^ j < 2 ^ 22 := Nat.pow_lt_pow_right (by omega) hj
  rcases kmemAlloc_spec h.list h.ascending hpos hlt h.length_lt with
    hnone | ⟨u, c, v, k₁, rfl, hasc, hlist, -, hcount, -, hsome⟩
  · obtain ⟨rfl, rfl⟩ : 0 = p ∧ s.k = k' := by simpa using hnone.symm.trans hk
    exact ⟨l, h.list, h.sorted, h.count, by simpa using h.perm⟩
  · obtain ⟨rfl, rfl⟩ : chunkAddr c = p ∧ k₁ = k' := by simpa using hsome.symm.trans hk
    have hc : IsChunk c := by
      refine h.ascending.2 c (List.mem_append_right _ (List.mem_append_left _ ?_))
      exact List.mem_range'_1.mpr ⟨le_rfl, by omega⟩
    rw [if_neg (chunkAddr_ne_zero hc), chunkAddr_toNat hc.2,
      Nat.mul_div_cancel_left c (by omega)]
    refine ⟨u ++ v, hlist, hasc.1, ?_, ?_⟩
    · rw [hcount, h.count]
      simp only [List.length_append, List.length_range']
      rw [show u.length + (2 ^ j + v.length) = u.length + v.length + 2 ^ j by omega,
        BitVec.ofNat_add, BitVec.add_sub_cancel]
    · refine List.Perm.trans ?_ h.perm
      rw [List.flatMap_cons]
      have hmove : v ++ (List.range' c (2 ^ j) ++ s.live.flatMap Block.chunks) ~
          List.range' c (2 ^ j) ++ (v ++ s.live.flatMap Block.chunks) :=
        List.perm_append_comm_assoc ..
      have hblock : Block.chunks ⟨c, 2 ^ j⟩ = List.range' c (2 ^ j) := rfl
      simpa only [List.append_assoc, hblock] using hmove.append_left u

/-- A block, or a part of one, that is given back. -/
lemma free (h : KmemInv R s l) {b : Block} {a n : Nat} (hb : b ∈ s.live) (hn : 0 < n)
    (ha : b.first ≤ a) (hle : a + n ≤ b.first + b.len) :
    ∃ k' l', kmemFree kmemFuel (chunkAddr a) (chunkAddr n) s.k = some k' ∧
      KmemInv R ⟨k', b.parts a n ++ s.live.erase b⟩ l' := by
  have hmem : ∀ x, b.first ≤ x → x < b.first + b.len → x ∉ l ∧ R.base ≤ x ∧ x < R.base + R.cnt := by
    intro x h1 h2
    have hx : x ∈ b.chunks := List.mem_range'_1.mpr ⟨h1, h2⟩
    exact ⟨h.not_free hb hx, h.mem_iff.mpr (.inr ⟨b, hb, hx⟩)⟩
  have hfirst := (hmem a ha (by omega)).2.1
  have hlast := (hmem (a + n - 1) (by omega) (by omega)).2.2
  have hbase := R.base_pos
  have hfits := R.fits
  have hout : ∀ x ∈ l, x < a ∨ a + n ≤ x := by
    intro x hx
    by_contra hin
    exact (hmem x (by omega) (by omega)).1 hx
  obtain ⟨u, v, k', rfl, hasc, hlist, hcount, hfree⟩ := kmemFree_spec h.list h.ascending hn
    (by omega) (by omega) hout h.length_lt
  refine ⟨k', u ++ (List.range' a n ++ v), hfree, hlist, hasc.1, ?_, ?_⟩
  · rw [hcount, h.count]
    simp only [List.length_append, List.length_range']
    rw [show u.length + (n + v.length) = u.length + v.length + n by omega]
    exact (BitVec.ofNat_add (u.length + v.length) n).symm
  · refine List.Perm.trans ?_ h.perm
    have hlive : s.live.flatMap Block.chunks ~ b.chunks ++ (s.live.erase b).flatMap Block.chunks :=
      (List.perm_cons_erase hb).flatMap_right _
    rw [List.flatMap_append]
    calc u ++ (List.range' a n ++ v) ++
          ((b.parts a n).flatMap Block.chunks ++ (s.live.erase b).flatMap Block.chunks)
        ~ u ++ v ++ ((List.range' a n ++ (b.parts a n).flatMap Block.chunks) ++
            (s.live.erase b).flatMap Block.chunks) := by
          simp only [List.append_assoc]
          exact (List.perm_append_comm_assoc ..).append_left u
      _ ~ u ++ v ++ (b.chunks ++ (s.live.erase b).flatMap Block.chunks) :=
          ((Block.parts_perm ha hle).append_right _).append_left _
      _ ~ u ++ v ++ s.live.flatMap Block.chunks := hlive.symm.append_left _

/-- A word of a live block is no link. -/
lemma store (h : KmemInv R s l) {b : Block} (v : Word) (hb : b ∈ s.live) (hi : i < 256 * b.len) :
    KmemInv R { s with k := { s.k with mem := Function.update s.k.mem (wordAddr b.first i) v } }
      l := by
  refine ⟨h.list.congr rfl fun x hx => ?_, h.sorted, h.count, h.perm⟩
  refine Function.update_of_ne (wordAddr_ne (n := b.len) (h.ascending.2 x hx).2 ?_ hi ?_) ..
  · have hlast := h.mem_iff.mpr (.inr ⟨b, hb, List.mem_range'_1 (m := b.first + b.len - 1).mpr
      ⟨by omega, by omega⟩⟩)
    have := R.fits
    omega
  · by_contra hin
    exact h.not_free hb (List.mem_range'_1.mpr ⟨by omega, by omega⟩) hx

lemma step (h : KmemInv R s l) (hs : KmemStep s s') : ∃ l', KmemInv R s' l' := by
  cases hs with
  | alloc hj hk => exact h.alloc hj hk
  | free hb hn ha hle hk =>
      obtain ⟨k', l', hfree, hinv⟩ := h.free hb hn ha hle
      obtain rfl := Option.some.inj (hfree.symm.trans hk)
      exact ⟨l', hinv⟩
  | store v hb hi => exact ⟨l, h.store v hb hi⟩

end KmemInv

lemma KmemReach.inv (h : KmemReach R s) : ∃ l, KmemInv R s l := by
  induction h with
  | init hk =>
      obtain ⟨k', hk', hinv⟩ := KmemInv.exists_init R _
      obtain rfl := Option.some.inj (hk'.symm.trans hk)
      exact ⟨_, hinv⟩
  | step _ hs ih =>
      obtain ⟨l, hl⟩ := ih
      exact hl.step hs

/-! ### Safety -/

/-- The free list is ascending and aligned, its length is counted, and every chunk of the
region is free or in just one live block. -/
def KmemSound (R : Region) (s : KmemSys) : Prop :=
  ∃ l, FreeList s.k none l ∧ (l.map chunkAddr).Pairwise (· < ·) ∧
    (∀ p ∈ l.map chunkAddr, p &&& (kmemChunksize - 1) = 0) ∧ s.k.freeChunks.toNat = l.length ∧
    (∀ b ∈ s.live, ∀ c ∈ b.chunks, c ∉ l) ∧
    s.live.Pairwise (fun b b' => List.Disjoint b.chunks b'.chunks) ∧
    ∀ c, (R.base ≤ c ∧ c < R.base + R.cnt) ↔ c ∈ l ∨ ∃ b ∈ s.live, c ∈ b.chunks

/-- A call of `kmem_alloc` for `2 ^ j` chunks returns.  If it returns a block, the block is
aligned to its size, lies in the region and is zeroed. -/
def AllocOk (R : Region) (s : KmemSys) (j : Nat) : Prop :=
  ∃ p k', kmemAlloc kmemFuel (chunkAddr (2 ^ j)) s.k = some (p, k') ∧
    (p = 0 ∧ k' = s.k ∨ ∃ c, p = chunkAddr c ∧ p &&& (chunkAddr (2 ^ j) - 1) = 0 ∧
      R.base ≤ c ∧ c + 2 ^ j ≤ R.base + R.cnt ∧ ∀ i < 256 * 2 ^ j, k'.mem (wordAddr c i) = 0)

lemma chunkAddr_aligned (c : Nat) : chunkAddr c &&& (kmemChunksize - 1) = 0 := by
  refine BitVec.eq_of_toNat_eq ?_
  have hmask : (kmemChunksize - 1).toNat = 2 ^ 10 - 1 := by decide
  have hzero : (0 : Word).toNat = 0 := rfl
  rw [BitVec.toNat_and, hmask, Nat.and_two_pow_sub_one_eq_mod, chunkAddr, BitVec.toNat_ofNat, hzero]
  omega

lemma KmemInv.sound (h : KmemInv R s l) : KmemSound R s := by
  refine ⟨l, h.list, ?_, ?_, ?_, fun b hb c hc => h.not_free hb hc, ?_, fun c => h.mem_iff⟩
  · refine List.pairwise_map.mpr (h.sorted.imp_of_mem fun hx hy hlt => ?_)
    exact (chunkAddr_lt (h.ascending.2 _ hx).2 (h.ascending.2 _ hy).2).mpr hlt
  · intro p hp
    obtain ⟨c, -, rfl⟩ := List.mem_map.mp hp
    exact chunkAddr_aligned c
  · have hlen := h.length_lt
    unfold kmemFuel at hlen
    rw [h.count, BitVec.toNat_ofNat, Nat.mod_eq_of_lt (by omega)]
  · exact (List.nodup_flatMap.mp (List.nodup_append.mp h.nodup).2.1).2

lemma KmemInv.allocOk (h : KmemInv R s l) {j : Nat} (hj : j < 22) : AllocOk R s j := by
  have hpos : 0 < 2 ^ j := Nat.two_pow_pos j
  have hlt : 2 ^ j < 2 ^ 22 := Nat.pow_lt_pow_right (by omega) hj
  rcases kmemAlloc_spec h.list h.ascending hpos hlt h.length_lt with
    hnone | ⟨u, c, v, k₁, rfl, -, -, hal, -, hzero, hsome⟩
  · exact ⟨0, s.k, hnone, .inl ⟨rfl, rfl⟩⟩
  · have hmem : ∀ x, c ≤ x → x < c + 2 ^ j → R.base ≤ x ∧ x < R.base + R.cnt := by
      intro x h1 h2
      refine h.mem_iff.mpr (.inl (List.mem_append_right _ (List.mem_append_left _ ?_)))
      exact List.mem_range'_1.mpr ⟨h1, h2⟩
    have hfirst := hmem c le_rfl (by omega)
    have hlast := hmem (c + 2 ^ j - 1) (by omega) (by omega)
    exact ⟨_, k₁, hsome, .inr ⟨c, rfl, hal, hfirst.1, by omega, hzero⟩⟩

/-- **The allocator is safe.**  In every state reached from `kmem_init`, by calls for powers
of two of chunks, by giving back live blocks or parts of them and by writing to live blocks,
the free list and the live blocks are in order, and the next call returns and does what it
should. -/
theorem kmem_sound (R : Region) {s : KmemSys} (hs : KmemReach R s) :
    KmemSound R s ∧ (∀ j < 22, AllocOk R s j) ∧
      ∀ b ∈ s.live, ∀ a n, 0 < n → b.first ≤ a → a + n ≤ b.first + b.len →
        ∃ k', kmemFree kmemFuel (chunkAddr a) (chunkAddr n) s.k = some k' := by
  obtain ⟨l, hl⟩ := hs.inv
  refine ⟨hl.sound, fun j hj => hl.allocOk hj, fun b hb a n hn ha hle => ?_⟩
  obtain ⟨k', -, hfree, -⟩ := hl.free hb hn ha hle
  exact ⟨k', hfree⟩

/-- Five chunks from 1 MB on. -/
def smallRegion : Region := ⟨1024, 5, by decide, by decide, by decide⟩

/-- A block of two chunks and one of a single chunk are handed out, and then the second chunk
of the first block is given back. -/
def smallRun : Option (Word × Word × Kmem) := do
  let k ← kmemInit kmemFuel (chunkAddr 1024) (chunkAddr 1029) ⟨fun _ => 0, 0, 0⟩
  let (p, k) ← kmemAlloc kmemFuel (chunkAddr (2 ^ 1)) k
  let (q, k) ← kmemAlloc kmemFuel (chunkAddr (2 ^ 0)) k
  let k ← kmemFree kmemFuel (chunkAddr 1025) (chunkAddr 1) k
  return (p, q, k)

lemma smallRun_eq : smallRun.map (fun r => (r.1, r.2.1, r.2.2.freeList, r.2.2.freeChunks)) =
    some (chunkAddr 1024, chunkAddr 1026, chunkAddr 1025, 3) := by
  decide +kernel

/-- Two blocks are live, the second of them behind a free chunk. -/
theorem kmem_sound_small : ∃ s, KmemReach smallRegion s ∧ s.live = [⟨1024, 1⟩, ⟨1026, 1⟩] ∧
    s.k.freeList = chunkAddr 1025 ∧ KmemSound smallRegion s ∧
      (∀ j < 22, AllocOk smallRegion s j) ∧
      ∃ k', kmemFree kmemFuel (chunkAddr 1026) (chunkAddr 1) s.k = some k' := by
  obtain ⟨⟨p, q, k₃⟩, hrun, heq⟩ := Option.map_eq_some_iff.mp smallRun_eq
  obtain ⟨rfl, rfl, hlist, -⟩ : p = chunkAddr 1024 ∧ q = chunkAddr 1026 ∧
      k₃.freeList = chunkAddr 1025 ∧ k₃.freeChunks = 3 := by simpa using heq
  simp only [smallRun, Option.bind_eq_bind, Option.bind_eq_some_iff, Option.pure_def,
    Option.some.injEq, Prod.mk.injEq, Prod.exists] at hrun
  obtain ⟨k₀, h0, _, k₁, h1, _, k₂, h2, k₃, h3, rfl, rfl, rfl⟩ := hrun
  have hr0 : KmemReach smallRegion ⟨k₀, []⟩ := .init h0
  have hr1 : KmemReach smallRegion ⟨k₁, [⟨1024, 2⟩]⟩ :=
    hr0.step (KmemStep.alloc (s := ⟨k₀, []⟩) (j := 1) (by decide) h1)
  have hr2 : KmemReach smallRegion ⟨k₂, [⟨1026, 1⟩, ⟨1024, 2⟩]⟩ :=
    hr1.step (KmemStep.alloc (s := ⟨k₁, [⟨1024, 2⟩]⟩) (j := 0) (by decide) h2)
  have hr3 : KmemReach smallRegion ⟨k₃, [⟨1024, 1⟩, ⟨1026, 1⟩]⟩ :=
    hr2.step (KmemStep.free (s := ⟨k₂, [⟨1026, 1⟩, ⟨1024, 2⟩]⟩) (b := ⟨1024, 2⟩) (a := 1025)
      (n := 1) (by simp) (by decide) (by decide) (by decide) h3)
  obtain ⟨hsound, halloc, hfree⟩ := kmem_sound smallRegion hr3
  exact ⟨_, hr3, rfl, hlist, hsound, halloc,
    hfree ⟨1026, 1⟩ (by simp) 1026 1 (by decide) (by decide) (by decide)⟩

end Hazelnut

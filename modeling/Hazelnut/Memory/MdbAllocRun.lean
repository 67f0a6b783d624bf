import Hazelnut.Memory.MdbAllocSafe

/-!
Runs of the buffer allocator of the mapping database.

The kernel allocates buffers of the sizes in `mdb_buflists`, frees live buffers with their own
size, and writes to live buffers and to memory that is not the allocator's.  `kmem_alloc` is
taken to return chunks that are not in use.

* `MdbSys`, `MdbStep`, `MdbReach`: the states reached in this way.
* `MdbInv`: what holds in them, in terms of a `Shape`.
* `mdbAlloc_sound`: buffers are disjoint, and the lists of free buffers and of chunks are in
  order.
-/

namespace Hazelnut

/-- The pool, with the chunks it has from `kmem_alloc` and the live buffers.  Both are listed
with the entry in `mdb_buflists` they are for. -/
structure MdbSys where
  pool : MdbPool
  chunks : List (Nat × Nat)
  live : List (Word × Nat)

/-- An address inside a buffer. -/
def InBuffer (b : Word × Nat) (a : Word) : Prop :=
  b.1.toNat ≤ a.toNat ∧ a.toNat < b.1.toNat + sizeN b.2

/-- The chunks that are left if one is given back. -/
def giveBack (released : Option Word) (chunks : List (Nat × Nat)) : List (Nat × Nat) :=
  match released with
  | none => chunks
  | some c => chunks.filter fun x => pg x.1 0 ≠ c

/-- One step. -/
inductive MdbStep : MdbSys → MdbSys → Prop
  | alloc {s : MdbSys} {i P : Nat} {buf : Word} {took : Bool} {pool : MdbPool} (hi : i < 4)
      (hP : IsPage P) (hnew : P ∉ s.chunks.map Prod.fst)
      (h : mdbAllocBuffer (pg P 0) (bufSize i) s.pool = some (buf, took, pool)) :
      MdbStep s ⟨pool, if took then (P, i) :: s.chunks else s.chunks, (buf, i) :: s.live⟩
  | free {s : MdbSys} {b : Word × Nat} (hb : b ∈ s.live) :
      MdbStep s ⟨(mdbFreeBuffer b.1 (bufSize b.2) s.pool).2,
        giveBack (mdbFreeBuffer b.1 (bufSize b.2) s.pool).1 s.chunks, s.live.erase b⟩
  | store {s : MdbSys} (m : Word → Word) (h : ∀ P i, (P, i) ∈ s.chunks → ∀ o < 4096,
        (∀ b ∈ s.live, ¬ InBuffer b (pg P o)) → m (pg P o) = s.pool.mem (pg P o)) :
      MdbStep s { s with pool := { s.pool with mem := m } }

/-- The states after `mdb_buflist_init`. -/
inductive MdbReach : MdbSys → Prop
  | init {pool : MdbPool} (h : ∀ i, pool.lists i = 0) : MdbReach ⟨pool, [], []⟩
  | step {s s' : MdbSys} (hs : MdbReach s) (h : MdbStep s s') : MdbReach s'

/-- The buffers of a chunk that are in use, from the free ones. -/
def Shape.LiveAt (A : Shape) (P : Nat) (b : Word × Nat) : Prop :=
  (P, b.2) ∈ A.chunks ∧ ((Small b.2 ∧ ∃ j < maxN b.2, j ∉ A.free P ∧ b.1 = bufAddr P b.2 j) ∨
    (b.2 = 2 ∧ b.1 = pg P 0))

/-- The buffers in use. -/
def Shape.Live (A : Shape) (b : Word × Nat) : Prop := ∃ P, A.LiveAt P b

/-- The invariant. -/
structure MdbInv (s : MdbSys) (A : Shape) : Prop where
  pool : PoolInv s.pool A
  chunks : A.chunks = s.chunks
  listed : A.Listed
  nodup : s.live.Nodup
  live : ∀ b, b ∈ s.live ↔ A.Live b

variable {A : Shape} {P Q i j k o : Nat} {s s' : MdbSys} {p p' : MdbPool} {b b' : Word × Nat}
  {l fr : List Nat} {a : Word}

lemma not_small_two : ¬ Small 2 := by simp [Small]

lemma small_or_two (hi : i < 4) : Small i ∨ i = 2 := by
  unfold Small
  omega

/-! ### Buffers in use -/

namespace Shape

lemma live_split (P : Nat) : A.Live b ↔ A.LiveAt P b ∨ ∃ Q, Q ≠ P ∧ A.LiveAt Q b := by
  constructor
  · rintro ⟨Q, hQ⟩
    by_cases hne : Q = P
    · exact .inl (hne ▸ hQ)
    · exact .inr ⟨Q, hne, hQ⟩
  · rintro (hP | ⟨Q, -, hQ⟩)
    · exact ⟨P, hP⟩
    · exact ⟨Q, hQ⟩

/-- What happens in one chunk does not matter for the others. -/
lemma elsewhere_congr {A' : Shape} (hfree : ∀ Q, Q ≠ P → A'.free Q = A.free Q)
    (hchunks : ∀ Q k, Q ≠ P → ((Q, k) ∈ A'.chunks ↔ (Q, k) ∈ A.chunks)) :
    (∃ Q, Q ≠ P ∧ A'.LiveAt Q b) ↔ ∃ Q, Q ≠ P ∧ A.LiveAt Q b := by
  refine exists_congr fun Q => and_congr_right fun hne => ?_
  rw [LiveAt, LiveAt, hfree Q hne, hchunks Q _ hne]

lemma liveAt_small (hp : PoolInv p A) (hP : (P, i) ∈ A.chunks) (hi : Small i) :
    A.LiveAt P b ↔ ∃ j < maxN i, j ∉ A.free P ∧ b = (bufAddr P i j, i) := by
  obtain ⟨a, k⟩ := b
  constructor
  · rintro ⟨hk, h⟩
    obtain rfl := hp.entry_eq hP hk
    rcases h with ⟨-, j, hj, hjf, ha⟩ | ⟨h2, -⟩
    · exact ⟨j, hj, hjf, Prod.ext ha rfl⟩
    · exact absurd (h2 ▸ hi) not_small_two
  · rintro ⟨j, hj, hjf, he⟩
    obtain ⟨rfl, rfl⟩ := Prod.mk.inj he
    exact ⟨hP, .inl ⟨hi, j, hj, hjf, rfl⟩⟩

lemma liveAt_two (hp : PoolInv p A) (hP : (P, 2) ∈ A.chunks) :
    A.LiveAt P b ↔ b = (pg P 0, 2) := by
  obtain ⟨a, k⟩ := b
  constructor
  · rintro ⟨hk, h⟩
    obtain rfl := hp.entry_eq hP hk
    rcases h with ⟨h2, -⟩ | ⟨-, ha⟩
    · exact absurd h2 not_small_two
    · exact Prod.ext ha rfl
  · intro he
    obtain ⟨rfl, rfl⟩ := Prod.mk.inj he
    exact ⟨hP, .inr ⟨rfl, rfl⟩⟩

/-- A buffer lies in its chunk. -/
lemma LiveAt.bounds (hp : PoolInv p A) (h : A.LiveAt P b) : 4096 * P ≤ b.1.toNat ∧
    b.1.toNat + sizeN b.2 ≤ 4096 * P + 4096 ∧ (Small b.2 → 4096 * P + 20 ≤ b.1.toNat) ∧
    4 ≤ sizeN b.2 := by
  have hPage := hp.valid P _ h.1
  rcases h.2 with ⟨hi, j, hj, -, hb⟩ | ⟨h2, hb⟩
  · have hoff := hi.off hj
    rw [hb, bufAddr_toNat hi hPage hj.le]
    omega
  · have hsize : sizeN b.2 = 4096 := by rw [h2]; rfl
    have := hp.lt h.1
    rw [hb, pg_toNat this (by omega), hsize, h2]
    exact ⟨by omega, by omega, fun hs => absurd hs not_small_two, by omega⟩

/-- A buffer is in use in its own chunk, if at all, and not if it is free. -/
lemma live_bufAddr (hp : PoolInv p A) (hP : (P, i) ∈ A.chunks) (hi : Small i) (hj : j < maxN i)
    (h : A.LiveAt Q (bufAddr P i j, i)) : Q = P ∧ j ∉ A.free P := by
  have hb := h.bounds hp
  have hoff := hi.off hj
  simp only [bufAddr_toNat hi (hp.valid P i hP) hj.le] at hb
  obtain rfl : Q = P := by omega
  obtain ⟨n, hn, hnf, he⟩ := (liveAt_small hp hP hi).mp h
  rw [bufAddr_inj hi (hp.valid Q i hP) hj hn (Prod.mk.inj he).1]
  exact ⟨rfl, hnf⟩

lemma LiveAt.unique (hp : PoolInv p A) (h : A.LiveAt P b) (h' : A.LiveAt Q b) : P = Q := by
  have := h.bounds hp
  have := h'.bounds hp
  omega

end Shape

/-! ### Taking and putting back -/

/-- A chunk whose first free buffer is taken. -/
def Shape.take (A : Shape) (P i : Nat) (fr l : List Nat) : Shape :=
  { A with
    free := Function.update A.free P fr
    lol := Function.update A.lol i (if fr = [] then l else P :: l) }

/-- A change that concerns one chunk keeps the others listed. -/
lemma Shape.Listed.of_chunk {A' : Shape} (h : A.Listed)
    (hchunks : ∀ Q k, Q ≠ P → (Q, k) ∈ A'.chunks → (Q, k) ∈ A.chunks)
    (hfree : ∀ Q, Q ≠ P → A'.free Q = A.free Q)
    (hlol : ∀ Q k, Q ≠ P → (Q ∈ A'.lol k ↔ Q ∈ A.lol k))
    (hP : ∀ k, (P, k) ∈ A'.chunks → Small k → (P ∈ A'.lol k ↔ A'.free P ≠ [])) : A'.Listed := by
  intro k Q hQ hk
  by_cases hne : Q = P
  · subst hne
    exact hP k hQ hk
  · rw [hfree Q hne, hlol Q k hne]
    exact h k Q (hchunks Q k hne hQ) hk

lemma mem_update_lol {l' : List Nat} {lol : Nat → List Nat}
    (h : ∀ Q, Q ≠ P → (Q ∈ l' ↔ Q ∈ lol i)) (Q k : Nat) (hQ : Q ≠ P) :
    Q ∈ Function.update lol i l' k ↔ Q ∈ lol k := by
  by_cases hki : k = i
  · subst hki
    simpa using h Q hQ
  · rw [Function.update_of_ne hki]

lemma Shape.Listed.take (h : A.Listed) (hp : PoolInv p A) (hl : A.lol i = P :: l) :
    (A.take P i fr l).Listed := by
  have hP := (hp.lolMem i P (by simp [hl])).1
  have hnd := hp.lolNodup i
  rw [hl] at hnd
  have hnot := (List.nodup_cons.mp hnd).1
  refine h.of_chunk (fun _ _ _ hQ => hQ) (fun Q hQ => Function.update_of_ne hQ ..)
    (mem_update_lol fun Q hQ => ?_) fun k hk _ => ?_
  · by_cases hfr : fr = []
    · simp [hfr, hl, hQ]
    · simp [hfr, hl]
  · obtain rfl := hp.entry_eq hk hP
    by_cases hfr : fr = []
    · simp [Shape.take, hfr, hnot]
    · simp [Shape.take, hfr]

lemma Shape.live_take (hp : PoolInv p A) (hl : A.lol i = P :: l) (hf : A.free P = j :: fr)
    (hp' : PoolInv p' (A.take P i fr l)) :
    ((A.take P i fr l).Live b ↔ b = (bufAddr P i j, i) ∨ A.Live b) ∧
      ¬ A.Live (bufAddr P i j, i) := by
  obtain ⟨hP, hi⟩ := hp.lolMem i P (by simp [hl])
  have hpage := hp.page P i hP hi
  rw [hf] at hpage
  have hj := hpage.lt j (by simp)
  have hjf := (List.nodup_cons.mp hpage.nodup).1
  have hfr : (A.take P i fr l).free P = fr := Function.update_self ..
  have helse : (∃ Q, Q ≠ P ∧ (A.take P i fr l).LiveAt Q b) ↔ ∃ Q, Q ≠ P ∧ A.LiveAt Q b :=
    Shape.elsewhere_congr (fun Q hQ => Function.update_of_ne hQ ..) fun _ _ _ => Iff.rfl
  constructor
  · rw [Shape.live_split P, Shape.live_split P, helse, Shape.liveAt_small hp' hP hi,
      Shape.liveAt_small hp hP hi, hfr, hf, ← or_assoc]
    refine or_congr_left ?_
    constructor
    · rintro ⟨n, hn, hnf, hb⟩
      by_cases hnj : n = j
      · exact .inl (hnj ▸ hb)
      · exact .inr ⟨n, hn, by simp [hnj, hnf], hb⟩
    · rintro (hb | ⟨n, hn, hnf, hb⟩)
      · exact ⟨j, hj, hjf, hb⟩
      · exact ⟨n, hn, fun hm => hnf (by simp [hm]), hb⟩
  · rintro ⟨Q, hQ⟩
    exact (Shape.live_bufAddr hp hP hi hj hQ).2 (by simp [hf])

/-- A buffer is put back. -/
lemma Shape.live_put (hp : PoolInv p A) (hP : (P, i) ∈ A.chunks) (hi : Small i) (hj : j < maxN i)
    (hp' : PoolInv p' { A with free := Function.update A.free P (j :: A.free P) }) :
    Shape.Live { A with free := Function.update A.free P (j :: A.free P) } b ↔
      A.Live b ∧ b ≠ (bufAddr P i j, i) := by
  have helse : (∃ Q, Q ≠ P ∧ Shape.LiveAt { A with
      free := Function.update A.free P (j :: A.free P) } Q b) ↔ ∃ Q, Q ≠ P ∧ A.LiveAt Q b :=
    Shape.elsewhere_congr (fun Q hQ => Function.update_of_ne hQ ..) fun _ _ _ => Iff.rfl
  rw [Shape.live_split P, Shape.live_split P, helse, Shape.liveAt_small hp' hP hi,
    Shape.liveAt_small hp hP hi]
  simp only [Function.update_self]
  constructor
  · rintro (⟨n, hn, hnf, rfl⟩ | ⟨Q, hne, hQ⟩)
    · simp only [List.mem_cons, not_or] at hnf
      refine ⟨.inl ⟨n, hn, hnf.2, rfl⟩, fun he => hnf.1 ?_⟩
      exact bufAddr_inj hi (hp.valid P i hP) hn hj (Prod.mk.inj he).1
    · refine ⟨.inr ⟨Q, hne, hQ⟩, ?_⟩
      rintro rfl
      exact hne (Shape.live_bufAddr hp hP hi hj hQ).1
  · rintro ⟨⟨n, hn, hnf, rfl⟩ | hQ, hb⟩
    · refine .inl ⟨n, hn, ?_, rfl⟩
      simp only [List.mem_cons, not_or]
      exact ⟨fun he => hb (he ▸ rfl), hnf⟩
    · exact .inr hQ

/-- A chunk without buffers in use leaves. -/
lemma Shape.live_drop {c : List (Nat × Nat)} (hP : ∀ b, ¬ A.LiveAt P b)
    (hc : ∀ Q k, (Q, k) ∈ c ↔ (Q, k) ∈ A.chunks ∧ Q ≠ P) :
    Shape.Live { A with chunks := c } b ↔ A.Live b := by
  have helse : (∃ Q, Q ≠ P ∧ Shape.LiveAt { A with chunks := c } Q b) ↔
      ∃ Q, Q ≠ P ∧ A.LiveAt Q b :=
    Shape.elsewhere_congr (fun _ _ => rfl) fun Q k hQ => by simp [hc, hQ]
  rw [Shape.live_split P, Shape.live_split P, helse]
  refine or_congr_left ⟨fun h => ?_, fun h => absurd h (hP b)⟩
  exact absurd rfl ((hc P _).mp h.1).2

/-! ### Allocation -/

namespace MdbInv

/-- A buffer is taken from the first chunk of a list. -/
lemma take {c : List (Nat × Nat)} {L : List (Word × Nat)} (h : MdbInv ⟨p, c, L⟩ A)
    (hl : A.lol i = P :: l) : ∃ buf p' A', takeBuffer i (pg P 0) p = (buf, p') ∧
      MdbInv ⟨p', c, (buf, i) :: L⟩ A' := by
  obtain ⟨hP, hi⟩ := h.pool.lolMem i P (by simp [hl])
  have hfree := (h.listed i P hP hi).mp (by simp [hl])
  obtain ⟨j, fr, hf⟩ := List.exists_cons_of_ne_nil hfree
  obtain ⟨p', htake, hp'⟩ := h.pool.takeBuffer hl hf
  have hlive := fun b => Shape.live_take (b := b) h.pool hl hf hp'
  refine ⟨_, p', A.take P i fr l, htake, hp', h.chunks, h.listed.take h.pool hl, ?_, fun b => ?_⟩
  · exact List.nodup_cons.mpr ⟨fun hm => (hlive (0, 0)).2 ((h.live _).mp hm), h.nodup⟩
  · rw [(hlive b).1, List.mem_cons, ← h.live b]

/-- A new chunk for small buffers. -/
lemma newChunk (h : MdbInv s A) (hi : Small i) (hP : IsPage P) (hnew : P ∉ s.chunks.map Prod.fst) :
    ∃ p' A', newChunk i (pg P 0) s.pool = some p' ∧ A'.lol i = P :: A.lol i ∧
      MdbInv ⟨p', (P, i) :: s.chunks, s.live⟩ A' := by
  rw [← h.chunks] at hnew
  obtain ⟨p', heq, hp'⟩ := h.pool.newChunk hi hP hnew
  have hne : ∀ Q k, (Q, k) ∈ A.chunks → Q ≠ P :=
    fun Q k hQ he => hnew (List.mem_map.mpr ⟨(Q, k), hQ, he⟩)
  refine ⟨p', _, heq, Function.update_self .., hp', by simp [h.chunks], ?_, h.nodup, fun b => ?_⟩
  · refine h.listed.of_chunk (fun Q k hQ hm => ?_) (fun Q hQ => Function.update_of_ne hQ ..)
      (mem_update_lol fun Q hQ => by simp [hQ]) fun k hk _ => ?_
    · exact (List.mem_cons.mp hm).resolve_left fun he => hQ (Prod.mk.inj he).1
    · have hmax := hi.max
      obtain rfl : k = i := by
        rcases List.mem_cons.mp hk with he | hk
        · exact (Prod.mk.inj he).2
        · exact absurd rfl (hne P k hk)
      have hrange : List.range (maxN k) ≠ [] := by simp; omega
      simp [hrange]
  · have helse : (∃ Q, Q ≠ P ∧ A.LiveAt Q b) ↔ ∃ Q, Q ≠ P ∧ Shape.LiveAt
        { chunks := (P, i) :: A.chunks
          free := Function.update A.free P (List.range (maxN i))
          lol := Function.update A.lol i (P :: A.lol i) } Q b :=
      Shape.elsewhere_congr (fun Q hQ => (Function.update_of_ne hQ ..).symm)
        fun Q k hQ => by simp [hQ]
    rw [h.live b, Shape.live_split P, Shape.live_split P,
      Shape.liveAt_small hp' (by simp) hi, helse]
    refine or_congr_left ⟨fun hb => absurd rfl (hne P _ hb.1), ?_⟩
    rintro ⟨j, hj, hjf, -⟩
    exact absurd (List.mem_range.mpr hj) (by simpa using hjf)

/-- A chunk that is handed out as a whole. -/
lemma direct (h : MdbInv s A) (hP : IsPage P) (hnew : P ∉ s.chunks.map Prod.fst) :
    ∃ A', MdbInv ⟨s.pool, (P, 2) :: s.chunks, (pg P 0, 2) :: s.live⟩ A' := by
  rw [← h.chunks] at hnew
  have hp' : PoolInv s.pool { A with
      chunks := (P, 2) :: A.chunks
      free := Function.update A.free P (A.free P) } :=
    h.pool.addChunk hP hnew (fun _ _ _ _ _ => rfl) rfl fun h2 => absurd h2 not_small_two
  have hne : ∀ Q k, (Q, k) ∈ A.chunks → Q ≠ P :=
    fun Q k hQ he => hnew (List.mem_map.mpr ⟨(Q, k), hQ, he⟩)
  rw [Function.update_eq_self] at hp'
  have hlive : ∀ b, Shape.Live { A with chunks := (P, 2) :: A.chunks } b ↔
      b = (pg P 0, 2) ∨ A.Live b := by
    intro b
    have helse : (∃ Q, Q ≠ P ∧ Shape.LiveAt { A with chunks := (P, 2) :: A.chunks } Q b) ↔
        ∃ Q, Q ≠ P ∧ A.LiveAt Q b :=
      Shape.elsewhere_congr (fun _ _ => rfl) fun Q k hQ => by simp [hQ]
    rw [Shape.live_split P, Shape.live_split P, Shape.liveAt_two hp' (by simp), helse]
    refine or_congr_right ⟨.inr, ?_⟩
    rintro (hb | hb)
    · exact absurd rfl (hne P _ hb.1)
    · exact hb
  refine ⟨_, hp', by simp [h.chunks], ?_, ?_, fun b => ?_⟩
  · intro k Q hQ hk
    rcases List.mem_cons.mp hQ with he | hQ
    · obtain ⟨rfl, rfl⟩ := Prod.mk.inj he
      exact absurd hk not_small_two
    · exact h.listed k Q hQ hk
  · refine List.nodup_cons.mpr ⟨fun hm => ?_, h.nodup⟩
    obtain ⟨Q, hQ⟩ := (h.live _).mp hm
    have hb := hQ.bounds h.pool
    simp only [pg_toNat (show P < 2 ^ 20 by have := hP.2; omega) (show 0 < 4096 by omega)] at hb
    have hsize : sizeN 2 = 4096 := rfl
    exact hne Q _ hQ.1 (by omega)
  · rw [hlive, List.mem_cons, ← h.live b]

lemma findBuflist_bufSize : ∀ i < 4, findBuflist (bufSize i) 5 0 = some i := by decide

/-- `mdb_alloc_buffer`. -/
lemma alloc (h : MdbInv s A) (hi : i < 4) (hP : IsPage P) (hnew : P ∉ s.chunks.map Prod.fst) :
    ∃ buf took p' A', mdbAllocBuffer (pg P 0) (bufSize i) s.pool = some (buf, took, p') ∧
      MdbInv ⟨p', if took then (P, i) :: s.chunks else s.chunks, (buf, i) :: s.live⟩ A' := by
  rw [mdbAllocBuffer, findBuflist_bufSize i hi]
  simp only [Option.bind_eq_bind, Option.bind_some]
  rcases small_or_two hi with hs | rfl
  · have hsmall : ¬ chunkSz ≤ bufSize i := by
      rcases hs with rfl | rfl | rfl <;> decide
    rw [if_neg hsmall]
    by_cases h0 : s.pool.lists i = 0
    · rw [if_pos h0]
      obtain ⟨p₁, A₁, hchunk, hlol, h₁⟩ := h.newChunk hs hP hnew
      obtain ⟨buf, p₂, A₂, htake, h₂⟩ := h₁.take hlol
      refine ⟨buf, true, p₂, A₂, ?_, h₂⟩
      rw [hchunk, Option.bind_some, htake]
      rfl
    · rw [if_neg h0]
      have hlol := h.pool.lol i
      cases hA : A.lol i with
      | nil => exact absurd (h.pool.lists_eq_zero.mpr hA) h0
      | cons Q l =>
          rw [hA] at hlol
          have hhead : s.pool.lists i = pg Q 0 := hlol.1
          obtain ⟨buf, p₂, A₂, htake, h₂⟩ := h.take hA
          refine ⟨buf, false, p₂, A₂, ?_, h₂⟩
          rw [hhead, htake]
          rfl
  · obtain ⟨A', hA'⟩ := h.direct hP hnew
    exact ⟨pg P 0, true, s.pool, A', rfl, hA'⟩

/-! ### Giving back -/

lemma filter_page (hp : PoolInv p A) (hP : P < 2 ^ 20) (Q k : Nat) :
    (Q, k) ∈ giveBack (some (pg P 0)) A.chunks ↔ (Q, k) ∈ A.chunks ∧ Q ≠ P := by
  simp only [giveBack, List.mem_filter, decide_eq_true_eq]
  refine and_congr_right fun hQ => not_congr ⟨fun he => ?_, fun he => by rw [he]⟩
  exact (pg_inj (hp.lt hQ) hP (by omega) (by omega) he).1

/-- A chunk that was handed out as a whole. -/
lemma freeDirect (h : MdbInv s A) (hP : (P, 2) ∈ A.chunks) :
    ∃ A', MdbInv ⟨s.pool, giveBack (some (pg P 0)) s.chunks, s.live.erase (pg P 0, 2)⟩ A' := by
  have hc := filter_page h.pool (h.pool.lt hP)
  rw [← h.chunks]
  have hne : ∀ k Q, Q ∈ A.lol k → Q ≠ P := by
    intro k Q hQ he
    obtain ⟨hQ', hk⟩ := h.pool.lolMem k Q hQ
    subst he
    obtain rfl := h.pool.entry_eq hQ' hP
    exact not_small_two hk
  have hp' : PoolInv s.pool { A with chunks := giveBack (some (pg P 0)) A.chunks } :=
    h.pool.dropChunk List.filter_sublist
      fun k Q hQ => (hc Q k).mpr ⟨(h.pool.lolMem k Q hQ).1, hne k Q hQ⟩
  refine ⟨_, hp', rfl, fun k Q hQ => h.listed k Q ((hc Q k).mp hQ).1, h.nodup.erase _, fun b => ?_⟩
  have helse : (∃ Q, Q ≠ P ∧ Shape.LiveAt { A with
      chunks := giveBack (some (pg P 0)) A.chunks } Q b) ↔ ∃ Q, Q ≠ P ∧ A.LiveAt Q b :=
    Shape.elsewhere_congr (fun _ _ => rfl) fun Q k hQ => by simp [hc, hQ]
  rw [h.nodup.mem_erase_iff, h.live b, Shape.live_split P, Shape.live_split P, helse,
    Shape.liveAt_two h.pool hP]
  constructor
  · rintro ⟨hb, hb' | hb'⟩
    · exact absurd hb' hb
    · exact .inr hb'
  · rintro (hb | hb)
    · exact absurd rfl ((hc P _).mp hb.1).2
    · refine ⟨?_, .inr hb⟩
      rintro rfl
      obtain ⟨Q, hne', hQ⟩ := hb
      exact hne' (hQ.unique h.pool ((Shape.liveAt_two h.pool hP).mpr rfl))

/-- What `mdb_free_buffer` does for a small buffer, by the number of free ones. -/
lemma mdbFreeBuffer_eq (h : MdbInv s A) (hP : (P, i) ∈ A.chunks) (hi : Small i) (hj : j < maxN i)
    (hjf : j ∉ A.free P) : mdbFreeBuffer (bufAddr P i j) (bufSize i) s.pool =
      let q := putBuffer (pg P 0) (bufAddr P i j) s.pool
      if A.free P = [] then (none, pushChunk i (pg P 0) q)
      else if (A.free P).length + 1 = maxN i then (some (pg P 0), unlinkChunk i (pg P 0) q)
      else (none, q) := by
  have hlt := h.pool.lt hP
  have hoff := hi.off hj
  have hmax := hi.max
  have hpage := h.pool.page P i hP hi
  have hq := (h.pool.putBuffer hP hi hj hjf).page P i hP hi
  simp only [Function.update_self] at hq
  have hlen := hq.length_lt hi
  rw [List.length_cons] at hlen
  have hsmall : ¬ chunkSz ≤ bufSize i := by
    rcases hi with rfl | rfl | rfl <;> decide
  have hmng : bufAddr P i j &&& ~~~(chunkSz - 1) = pg P 0 := pg_mask hlt hoff.2.2.1
  have hbl : s.pool.bl (pg P 0) = i := by
    have hi' : i < 4 := by unfold Small at hi; omega
    rw [MdbPool.bl, show pg P 0 + 16 = pg P 16 from pg_field P 16, hpage.entry, BitVec.toNat_ofNat,
      Nat.mod_eq_of_lt (by omega)]
  have hnum : (putBuffer (pg P 0) (bufAddr P i j) s.pool).numFree (pg P 0) =
      BitVec.ofNat 32 ((A.free P).length + 1) := numFree_pg.trans hq.num
  have hone : BitVec.ofNat 32 ((A.free P).length + 1) = 1 ↔ A.free P = [] := by
    rw [← BitVec.toNat_inj, BitVec.toNat_ofNat, Nat.mod_eq_of_lt (by omega)]
    exact ⟨fun h1 => List.length_eq_zero_iff.mp (by simpa using h1), fun h1 => by simp [h1]⟩
  have hfull : BitVec.ofNat 32 ((A.free P).length + 1) = maxFree i ↔
      (A.free P).length + 1 = maxN i := by
    rw [← BitVec.toNat_inj, BitVec.toNat_ofNat, Nat.mod_eq_of_lt (by omega)]
    rfl
  rw [mdbFreeBuffer, if_neg hsmall]
  simp only [hmng, hbl, hnum, hone, hfull]

/-- A chunk whose buffers are all free has none in use. -/
lemma not_liveAt_of_full (hp : PoolInv p A) (hP : (P, i) ∈ A.chunks) (hi : Small i)
    (hfull : (A.free P).length = maxN i) (b : Word × Nat) : ¬ A.LiveAt P b := by
  rw [Shape.liveAt_small hp hP hi]
  rintro ⟨j, hj, hjf, -⟩
  have hpage := hp.page P i hP hi
  have hsub : j :: A.free P ⊆ List.range (maxN i) := by
    intro n hn
    rcases List.mem_cons.mp hn with rfl | hn
    · exact List.mem_range.mpr hj
    · exact List.mem_range.mpr (hpage.lt n hn)
  have hle := ((List.nodup_cons.mpr ⟨hjf, hpage.nodup⟩).subperm hsub).length_le
  rw [List.length_cons, List.length_range] at hle
  omega

/-- A small buffer. -/
lemma freeSmall (h : MdbInv s A) (hP : (P, i) ∈ A.chunks) (hi : Small i) (hj : j < maxN i)
    (hjf : j ∉ A.free P) : ∃ A', MdbInv ⟨(mdbFreeBuffer (bufAddr P i j) (bufSize i) s.pool).2,
      giveBack (mdbFreeBuffer (bufAddr P i j) (bufSize i) s.pool).1 s.chunks,
      s.live.erase (bufAddr P i j, i)⟩ A' := by
  have hq := h.pool.putBuffer hP hi hj hjf
  set A₁ : Shape := { A with free := Function.update A.free P (j :: A.free P) } with hA₁
  have hfreeP : A₁.free P = j :: A.free P := Function.update_self ..
  have hfree : ∀ Q, Q ≠ P → A₁.free Q = A.free Q := fun Q hQ => Function.update_of_ne hQ ..
  have hlive : ∀ b, b ∈ s.live.erase (bufAddr P i j, i) ↔ A₁.Live b := by
    intro b
    rw [h.nodup.mem_erase_iff, h.live b, Shape.live_put h.pool hP hi hj hq, and_comm]
  have hnd := h.nodup.erase (bufAddr P i j, i)
  rw [mdbFreeBuffer_eq h hP hi hj hjf]
  simp only
  by_cases hempty : A.free P = []
  · -- the chunk had no free buffer
    rw [if_pos hempty]
    have hnot : P ∉ A.lol i := fun hm => (h.listed i P hP hi).mp hm hempty
    have hpush := hq.pushChunk hP hi hnot
    refine ⟨_, hpush, h.chunks, ?_, hnd, hlive⟩
    refine h.listed.of_chunk (fun _ _ _ hQ => hQ) hfree
      (mem_update_lol fun Q hQ => by simp [A₁, hQ])
      fun k hk _ => ?_
    obtain rfl := h.pool.entry_eq hk hP
    simp [hfreeP]
  · rw [if_neg hempty]
    have hlisted := (h.listed i P hP hi).mpr hempty
    by_cases hfull : (A.free P).length + 1 = maxN i
    · -- all its buffers are free now
      rw [if_pos hfull]
      obtain ⟨u, w, hu⟩ := List.append_of_mem hlisted
      have hunlink := hq.unlinkChunk hP hu
      have hnot : P ∉ u ++ w := by
        have hnd := h.pool.lolNodup i
        rw [hu] at hnd
        have hperm : (u ++ P :: w).Perm (P :: (u ++ w)) := List.perm_middle
        exact (List.nodup_cons.mp (hperm.nodup_iff.mp hnd)).1
      have hmem : ∀ Q k, Q ≠ P → (Q ∈ Function.update A.lol i (u ++ w) k ↔ Q ∈ A.lol k) :=
        mem_update_lol fun Q hQ => by simp [hu, hQ]
      have hlol : ∀ k Q, Q ∈ Function.update A.lol i (u ++ w) k → Q ≠ P := by
        rintro k Q hQ rfl
        by_cases hki : k = i
        · subst hki
          exact hnot (by simpa using hQ)
        · rw [Function.update_of_ne hki] at hQ
          exact hki (h.pool.entry_eq (h.pool.lolMem k Q hQ).1 hP)
      have hc := filter_page hunlink (h.pool.lt hP)
      have hdrop := hunlink.dropChunk (c := giveBack (some (pg P 0)) A.chunks) List.filter_sublist
        fun k Q hQ => (hc Q k).mpr ⟨(hunlink.lolMem k Q hQ).1, hlol k Q hQ⟩
      refine ⟨_, hdrop, by rw [← h.chunks], ?_, hnd, fun b => ?_⟩
      · exact h.listed.of_chunk (fun Q k _ hQ => ((hc Q k).mp hQ).1) hfree hmem
          fun k hk _ => absurd rfl ((hc P k).mp hk).2
      · rw [hlive b]
        refine (Shape.live_drop
          (A := { A₁ with lol := Function.update A.lol i (u ++ w) }) ?_ hc).symm
        exact not_liveAt_of_full hunlink hP hi (by simpa [hfreeP] using hfull)
    · rw [if_neg hfull]
      refine ⟨_, hq, h.chunks, ?_, hnd, hlive⟩
      refine h.listed.of_chunk (fun _ _ _ hQ => hQ) hfree (fun _ _ _ => Iff.rfl) fun k hk _ => ?_
      obtain rfl := h.pool.entry_eq hk hP
      simp [hlisted, A₁]

/-- `mdb_free_buffer`. -/
lemma free (h : MdbInv s A) (hb : b ∈ s.live) :
    ∃ A', MdbInv ⟨(mdbFreeBuffer b.1 (bufSize b.2) s.pool).2,
      giveBack (mdbFreeBuffer b.1 (bufSize b.2) s.pool).1 s.chunks, s.live.erase b⟩ A' := by
  obtain ⟨P, hP, hcase⟩ := (h.live b).mp hb
  obtain ⟨a, i⟩ := b
  simp only at hP hcase
  rcases hcase with ⟨hi, j, hj, hjf, rfl⟩ | ⟨rfl, rfl⟩
  · exact h.freeSmall hP hi hj hjf
  · exact h.freeDirect hP

/-! ### Other memory -/

/-- The words of a chunk that are not in use: the header and the free buffers. -/
lemma not_inBuffer (h : MdbInv s A) (hP : (P, i) ∈ A.chunks) (hi : Small i) (ho : o < 4096)
    (hfree : o < 20 ∨ ∃ j ∈ A.free P, o = bufOff i j) (hb : b ∈ s.live) :
    ¬ InBuffer b (pg P o) := by
  rintro ⟨h1, h2⟩
  rw [pg_toNat (h.pool.lt hP) ho] at h1 h2
  obtain ⟨Q, hQ⟩ := (h.live b).mp hb
  have hbounds := hQ.bounds h.pool
  obtain rfl : Q = P := by omega
  obtain ⟨j, hj, hjf, rfl⟩ := (Shape.liveAt_small h.pool hP hi).mp hQ
  simp only [bufAddr_toNat hi (h.pool.valid Q i hP) hj.le] at h1 h2
  have hoff := hi.off hj
  rcases hfree with ho' | ⟨n, hn, rfl⟩
  · omega
  · have hne : j ≠ n := fun he => hjf (he ▸ hn)
    have hn' := hi.off ((h.pool.page Q i hP hi).lt n hn)
    have := hi.disjoint hne
    omega

/-- Writes to live buffers, and to memory that is not the allocator's. -/
lemma store (h : MdbInv s A) {m : Word → Word} (hm : ∀ P i, (P, i) ∈ s.chunks → ∀ o < 4096,
      (∀ b ∈ s.live, ¬ InBuffer b (pg P o)) → m (pg P o) = s.pool.mem (pg P o)) :
    MdbInv { s with pool := { s.pool with mem := m } } A := by
  rw [← h.chunks] at hm
  have hheader : ∀ P i, (P, i) ∈ A.chunks → Small i → ∀ o < 20, m (pg P o) = s.pool.mem (pg P o) :=
    fun P i hP hi o ho => hm P i hP o (by omega) fun b hb =>
      h.not_inBuffer hP hi (by omega) (.inl ho) hb
  refine ⟨⟨h.pool.valid, h.pool.nodup, ?_, ?_, h.pool.lolNodup, h.pool.lolMem⟩, h.chunks, h.listed,
    h.nodup, h.live⟩
  · intro P i hP hi
    have hpage := h.pool.page P i hP hi
    refine ⟨hpage.chain.congr fun q hq => ?_, ?_, ?_, hpage.nodup, hpage.lt⟩
    · rcases hq with rfl | ⟨a, ha, rfl⟩
      · exact hheader P i hP hi 0 (by omega)
      · obtain ⟨j, hj, rfl⟩ := List.mem_map.mp ha
        have hoff := hi.off (hpage.lt j hj)
        exact hm P i hP _ hoff.2.2.1 fun b hb =>
          h.not_inBuffer hP hi hoff.2.2.1 (.inr ⟨j, hj, rfl⟩) hb
    · exact (hheader P i hP hi 4 (by omega)).trans hpage.num
    · exact (hheader P i hP hi 16 (by omega)).trans hpage.entry
  · intro i
    refine (h.pool.lol i).congr rfl fun P hP => ?_
    obtain ⟨hP', hi⟩ := h.pool.lolMem i P hP
    exact ⟨hheader P i hP' hi 8 (by omega), hheader P i hP' hi 12 (by omega)⟩

lemma step (h : MdbInv s A) (hs : MdbStep s s') : ∃ A', MdbInv s' A' := by
  cases hs with
  | alloc hi hP hnew heq =>
      obtain ⟨buf, took, p', A', heq', hinv⟩ := h.alloc hi hP hnew
      obtain ⟨rfl, rfl, rfl⟩ : _ ∧ _ ∧ _ := by
        simpa only [Option.some.injEq, Prod.mk.injEq] using heq'.symm.trans heq
      exact ⟨A', hinv⟩
  | free hb => exact h.free hb
  | store m hm => exact ⟨A, h.store hm⟩

end MdbInv

lemma MdbReach.inv (h : MdbReach s) : ∃ A, MdbInv s A := by
  induction h with
  | @init pool h =>
      refine ⟨⟨[], fun _ => [], fun _ => []⟩, ⟨by simp, by simp, by simp, h, by simp, by simp⟩, rfl,
        ?_, by simp, ?_⟩
      · intro i P hP
        simp at hP
      · intro b
        simp [Shape.Live, Shape.LiveAt]
  | step _ hs ih =>
      obtain ⟨A, hA⟩ := ih
      exact hA.step hs

/-! ### Safety -/

/-- Two buffers do not overlap. -/
def Apart (b c : Word × Nat) : Prop :=
  b.1.toNat + sizeN b.2 ≤ c.1.toNat ∨ c.1.toNat + sizeN c.2 ≤ b.1.toNat

/-- Live buffers do not overlap, and lie in chunks of their size behind the header. -/
def BuffersOk (s : MdbSys) : Prop :=
  s.live.Pairwise Apart ∧ ∀ b ∈ s.live, ∃ P, (P, b.2) ∈ s.chunks ∧ 4096 * P ≤ b.1.toNat ∧
    b.1.toNat + sizeN b.2 ≤ 4096 * P + 4096 ∧ (Small b.2 → 4096 * P + 20 ≤ b.1.toNat)

/-- The chunk `P` has the free buffers `l`, and counts them. -/
def FreeBuffers (p : MdbPool) (P : Nat) (l : List Word) : Prop :=
  Chain.IsChain (freeLink p.mem P) 0 none l ∧ l.Nodup ∧ (p.numFree (pg P 0)).toNat = l.length

/-- The free lists are counted, and the lists of chunks hold those with free buffers. -/
def ListsOk (s : MdbSys) : Prop :=
  (∀ P i, (P, i) ∈ s.chunks → Small i → ∃ l, FreeBuffers s.pool P l) ∧
    ∀ i, Small i → ∃ l : List Nat, l.Nodup ∧ LolOk s.pool i l ∧
      ∀ P, P ∈ l ↔ (P, i) ∈ s.chunks ∧ s.pool.freelist (pg P 0) ≠ 0

/-- If freeing the buffer `b` gives a chunk back, no other buffer is left in it. -/
def ReleaseOk (s : MdbSys) (b : Word × Nat) : Prop :=
  ∀ c, (mdbFreeBuffer b.1 (bufSize b.2) s.pool).1 = some c → ∀ b' ∈ s.live.erase b,
    b'.1.toNat + sizeN b'.2 ≤ c.toNat ∨ c.toNat + 4096 ≤ b'.1.toNat

namespace MdbInv

lemma apart (h : MdbInv s A) : s.live.Pairwise Apart := by
  refine h.nodup.imp_of_mem fun {b c} hb hc hne => ?_
  obtain ⟨P, hP⟩ := (h.live b).mp hb
  obtain ⟨Q, hQ⟩ := (h.live c).mp hc
  have hbP := hP.bounds h.pool
  have hcQ := hQ.bounds h.pool
  rw [Apart]
  by_cases hPQ : P = Q
  · subst hPQ
    have hPage := h.pool.valid P _ hP.1
    rcases hP.2 with ⟨hi, j, hj, -, hbj⟩ | ⟨h2, -⟩
    · obtain ⟨n, hn, -, rfl⟩ := (Shape.liveAt_small h.pool hP.1 hi).mp hQ
      have hjn : j ≠ n := fun he => hne (Prod.ext (by rw [hbj, he]) rfl)
      have := hi.disjoint hjn
      simp only [hbj, bufAddr_toNat hi hPage hj.le, bufAddr_toNat hi hPage hn.le]
      omega
    · have hP2 : (P, 2) ∈ A.chunks := h2 ▸ hP.1
      have hb := (Shape.liveAt_two h.pool hP2).mp hP
      have hc := (Shape.liveAt_two h.pool hP2).mp hQ
      exact absurd (hb.trans hc.symm) hne
  · omega

lemma listsOk (h : MdbInv s A) : ListsOk s := by
  rw [ListsOk, ← h.chunks]
  refine ⟨fun P i hP hi => ?_, fun i hi => ⟨A.lol i, h.pool.lolNodup i, h.pool.lol i, fun P => ?_⟩⟩
  · have hpage := h.pool.page P i hP hi
    have hlen := hpage.length_lt hi
    refine ⟨(A.free P).map (bufAddr P i), hpage.chain, ?_, ?_⟩
    · refine hpage.nodup.map_on fun j hj k hk he => ?_
      exact bufAddr_inj hi (h.pool.valid P i hP) (hpage.lt j hj) (hpage.lt k hk) he
    · rw [numFree_pg, hpage.num, BitVec.toNat_ofNat, Nat.mod_eq_of_lt (by omega), List.length_map]
  · have hiff : (P, i) ∈ A.chunks → (s.pool.freelist (pg P 0) = 0 ↔ A.free P = []) := by
      intro hP
      have hnil := (h.pool.page P i hP hi).chain.eq_nil_iff
      rw [List.map_eq_nil_iff] at hnil
      exact hnil
    constructor
    · intro hm
      have hP := (h.pool.lolMem i P hm).1
      exact ⟨hP, (hiff hP).not.mpr ((h.listed i P hP hi).mp hm)⟩
    · rintro ⟨hP, hne⟩
      exact (h.listed i P hP hi).mpr ((hiff hP).not.mp hne)

/-- What is given back is the chunk of the buffer. -/
lemma released (h : MdbInv s A) (hb : b ∈ s.live) {c : Word}
    (hc : (mdbFreeBuffer b.1 (bufSize b.2) s.pool).1 = some c) :
    ∃ P, (P, b.2) ∈ A.chunks ∧ c = pg P 0 := by
  obtain ⟨P, hP, hcase⟩ := (h.live b).mp hb
  obtain ⟨a, i⟩ := b
  simp only at hP hcase hc
  refine ⟨P, hP, ?_⟩
  rcases hcase with ⟨hi, j, hj, hjf, rfl⟩ | ⟨rfl, rfl⟩
  · rw [mdbFreeBuffer_eq h hP hi hj hjf] at hc
    simp only at hc
    split_ifs at hc with h1 h2
    exact (Option.some.inj hc).symm
  · exact (Option.some.inj hc).symm

lemma releaseOk (h : MdbInv s A) (hb : b ∈ s.live) : ReleaseOk s b := by
  intro c hc b' hb'
  obtain ⟨P, hP, rfl⟩ := h.released hb hc
  obtain ⟨A', hA'⟩ := h.free hb
  obtain ⟨Q, hQ⟩ := (hA'.live b').mp hb'
  have hmem := hQ.1
  rw [hA'.chunks, hc, ← h.chunks, filter_page h.pool (h.pool.lt hP)] at hmem
  have hne := hmem.2
  have hbounds := hQ.bounds hA'.pool
  rw [pg_toNat (h.pool.lt hP) (by omega)]
  omega

end MdbInv

/-- **The buffer allocator is safe.**  In every state reached from `mdb_buflist_init`, live
buffers are apart and behind the headers of their chunks, the lists are in order, a chunk is
given back only without live buffers, and `mdb_alloc_buffer` returns. -/
theorem mdbAlloc_sound {s : MdbSys} (hs : MdbReach s) :
    BuffersOk s ∧ ListsOk s ∧ (∀ b ∈ s.live, ReleaseOk s b) ∧
      ∀ i < 4, ∀ P, IsPage P → P ∉ s.chunks.map Prod.fst →
        ∃ r, mdbAllocBuffer (pg P 0) (bufSize i) s.pool = some r := by
  obtain ⟨A, h⟩ := hs.inv
  refine ⟨⟨h.apart, fun b hb => ?_⟩, h.listsOk, fun b hb => h.releaseOk hb,
    fun i hi P hP hnew => ?_⟩
  · obtain ⟨P, hP⟩ := (h.live b).mp hb
    have hbounds := hP.bounds h.pool
    exact ⟨P, h.chunks ▸ hP.1, hbounds.1, hbounds.2.1, hbounds.2.2.1⟩
  · obtain ⟨buf, took, p', A', heq, -⟩ := h.alloc hi hP hnew
    exact ⟨_, heq⟩

/-- Two mapping nodes from one chunk, and a dual node from another. -/
def nodesRun : Option ((Word × Bool) × (Word × Bool) × (Word × Bool) × MdbPool) := do
  let (a, ta, p) ← mdbAllocBuffer (pg 256 0) (bufSize 0) ⟨fun _ => 0, fun _ => 0⟩
  let (b, tb, p) ← mdbAllocBuffer (pg 257 0) (bufSize 0) p
  let (c, tc, p) ← mdbAllocBuffer (pg 257 0) (bufSize 1) p
  return ((a, ta), (b, tb), (c, tc), p)

lemma nodesRun_eq : nodesRun.map (fun r => (r.1, r.2.1, r.2.2.1,
      (mdbFreeBuffer 0x101018 (bufSize 1) r.2.2.2).1,
      (mdbFreeBuffer 0x10001C (bufSize 0) (mdbFreeBuffer 0x101018 (bufSize 1) r.2.2.2).2).1)) =
    some ((0x10001C, true), (0x100028, false), (0x101018, true), some 0x101000, none) := by
  decide +kernel

/-- Three buffers are live, two of them in one chunk.  Freeing the dual node gives its chunk
back, and freeing the first mapping node leaves the second one alone in its chunk. -/
theorem mdbAlloc_sound_node : ∃ s s', MdbReach s ∧
    s.live = [(0x101018, 1), (0x100028, 0), (0x10001C, 0)] ∧ BuffersOk s ∧ ListsOk s ∧
    ReleaseOk s (0x101018, 1) ∧ (mdbFreeBuffer 0x101018 (bufSize 1) s.pool).1 = some 0x101000 ∧
    MdbReach s' ∧ s'.live = [(0x100028, 0)] ∧ s'.chunks = [(256, 0)] ∧ BuffersOk s' ∧ ListsOk s' ∧
    ∃ r, mdbAllocBuffer (pg 257 0) (bufSize 2) s'.pool = some r := by
  obtain ⟨⟨⟨a, ta⟩, ⟨b, tb⟩, ⟨c, tc⟩, p₃⟩, hrun, heq⟩ := Option.map_eq_some_iff.mp nodesRun_eq
  simp only [Prod.mk.injEq] at heq
  obtain ⟨⟨rfl, rfl⟩, ⟨rfl, rfl⟩, ⟨rfl, rfl⟩, hc, ha⟩ := heq
  simp only [nodesRun, Option.bind_eq_bind, Option.bind_eq_some_iff, Option.pure_def,
    Option.some.injEq, Prod.mk.injEq, Prod.exists] at hrun
  obtain ⟨_, _, p₁, h1, _, _, p₂, h2, _, _, _, h3, ⟨rfl, rfl⟩, ⟨rfl, rfl⟩, ⟨rfl, rfl⟩, rfl⟩ := hrun
  have hp : IsPage 256 ∧ IsPage 257 := by
    unfold IsPage
    omega
  have r0 : MdbReach ⟨⟨fun _ => 0, fun _ => 0⟩, [], []⟩ := .init fun _ => rfl
  have r1 := r0.step (.alloc (by decide) hp.1 (by simp) h1)
  have r2 := r1.step (.alloc (by decide) hp.2 (by simp) h2)
  have r3 := r2.step (.alloc (by decide) hp.2 (by simp) h3)
  have r4 := r3.step (.free (b := (0x101018, 1)) (by simp))
  have r5 := r4.step (.free (b := (0x10001C, 0)) (by simp))
  simp only [hc, ha] at r5
  have hchunks : giveBack none (giveBack (some 0x101000) [(257, 1), (256, 0)]) = [(256, 0)] := by
    decide
  have hnew : 257 ∉ ([(256, 0)] : List (Nat × Nat)).map Prod.fst := by decide
  obtain ⟨hbuffers, hlists, hrelease, -⟩ := mdbAlloc_sound r3
  obtain ⟨hbuffers', hlists', -, halloc⟩ := mdbAlloc_sound r5
  refine ⟨_, _, r3, rfl, hbuffers, hlists, hrelease _ (by simp), hc, r5, by simp, hchunks,
    hbuffers', hlists', halloc 2 (by decide) 257 hp.2 ?_⟩
  exact hchunks ▸ hnew

end Hazelnut

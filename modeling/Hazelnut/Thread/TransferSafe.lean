import Hazelnut.Thread.Transfer

/-!
What a long message copies.

* `copyBytes_apply`: a copy, at an address.
* `dwords_respected`: the dword area.
* `strLoop_spec`: the string loop against `Gather.pairs`, from any state of it.
-/

namespace Hazelnut

variable {src m : ByteMem} {M : Type} {put : Word → Word → M → M} {dst frm a : Word}
  {len n k : Nat}

/-! ### Copies -/

lemma copyBytes_add (n k : Nat) (dst frm : Word) (m : M) :
    copyBytes put (n + k) dst frm m =
      copyBytes put k (dst + BitVec.ofNat 32 n) (frm + BitVec.ofNat 32 n)
        (copyBytes put n dst frm m) := by
  induction n generalizing dst frm m with
  | zero => simp [copyBytes]
  | succ n ih =>
      have hone : ∀ x : Word, x + 1 + BitVec.ofNat 32 n = x + BitVec.ofNat 32 (n + 1) := by
        intro x
        rw [BitVec.add_assoc, BitVec.add_comm 1, BitVec.ofNat_add]
        rfl
      rw [Nat.succ_add, copyBytes, ih, copyBytes, hone, hone]

/-- The pieces of a copy make up the whole. -/
lemma ipcCopy_eq (put : Word → Word → M → M) (dst frm : Word) (len : Nat) (m : M) :
    ipcCopy put dst frm len m = copyBytes put len dst frm m := by
  unfold ipcCopy
  dsimp only
  rw [← copyBytes_add, ← copyBytes_add]
  split_ifs with h1 h2 h2
  · congr 1
    omega
  · congr 1
    omega
  · rw [← copyBytes_add]
    congr 1
    omega
  · rw [← copyBytes_add]
    congr 1
    omega

/-- A copy that does not wrap around onto itself. -/
lemma copyBytes_apply (h : n ≤ 2 ^ 32) : copyBytes (putByte src) n dst frm m a =
    if (a - dst).toNat < n then src (frm + (a - dst)) else m a := by
  induction n generalizing dst frm m with
  | zero => rw [copyBytes, if_neg (by omega)]
  | succ n ih =>
      rw [copyBytes, ih (by omega)]
      by_cases ha : a = dst
      · subst ha
        have hout : ¬(a - (a + 1)).toNat < n := by
          rw [show a - (a + 1) = (-1 : Word) by bv_omega]
          have : (-1 : Word).toNat = 2 ^ 32 - 1 := by decide
          omega
        rw [if_neg hout, putByte, Function.update_self, BitVec.sub_self, if_pos (by simp)]
        simp
      · have hsub : (a - dst).toNat = (a - (dst + 1)).toNat + 1 := by
          bv_omega
        rw [putByte, Function.update_of_ne ha, hsub]
        by_cases hlt : (a - (dst + 1)).toNat < n
        · rw [if_pos hlt, if_pos (by omega)]
          congr 1
          bv_omega
        · rw [if_neg hlt, if_neg (by omega)]

/-! ### The dword area -/

/-- The dword part of a message with `s` dwords respects a buffer for `r`: whatever the memory is,
the dwords from the gap on to the smaller of both are copied, to equal indices, and nothing else;
no dword at `r` or above is written; beyond the gap, the smaller number is reported, and a cut
message if the buffer is too small. -/
def DwordsRespected (snd rcv : Word) (s r : BitVec 19) (strings : BitVec 5) : Prop :=
  ∀ src m : ByteMem,
    (∀ a, (dwordPart src snd rcv s r strings m).mem a =
      if (a - (rcv + 12)).toNat < 4 * (min s.toNat r.toNat - 3) then
        src (snd + 12 + (a - (rcv + 12))) else m a) ∧
    (∀ i k : Nat, r.toNat ≤ i → i < 2 ^ 30 → k < 4 →
      (dwordPart src snd rcv s r strings m).mem (rcv + BitVec.ofNat 32 (4 * i + k)) =
        m (rcv + BitVec.ofNat 32 (4 * i + k))) ∧
    (3 < s.toNat →
      (dwordPart src snd rcv s r strings m).dwords.toNat = min s.toNat r.toNat ∧
      ((dwordPart src snd rcv s r strings m).cut = true ↔ r.toNat < s.toNat))

variable {snd rcv : Word} {s r : BitVec 19} {strings : BitVec 5}

lemma toNat_setWidth_19 (x : BitVec 19) : (x.setWidth 32).toNat = x.toNat := by
  bv_omega

/-- A message that goes through the registers. -/
lemma dwordPart_short (h : s.toNat ≤ 3) : (dwordPart src snd rcv s r strings m).mem = m := by
  have hgap : ¬ipcDwordGap < s.setWidth 32 := by
    rw [BitVec.lt_def, toNat_setWidth_19]
    exact Nat.not_lt.mpr h
  unfold dwordPart copyDwords
  dsimp only
  rw [if_neg hgap]
  split_ifs <;> rfl

/-- A message beyond the registers. -/
lemma dwordPart_long (src m : ByteMem) (snd rcv : Word) (r : BitVec 19) (strings : BitVec 5)
    (h : 3 < s.toNat) : ∃ num : Word, num.toNat = min s.toNat r.toNat ∧
    dwordPart src snd rcv s r strings m =
      ⟨copyBytes (putByte src) ((num - 3) * 4).toNat (rcv + 12) (snd + 12) m, num,
        decide (r.toNat < s.toNat)⟩ := by
  have hgap : ipcDwordGap < s.setWidth 32 := by
    rw [BitVec.lt_def, toNat_setWidth_19]
    exact h
  have hlt : r.setWidth 32 < s.setWidth 32 ↔ r.toNat < s.toNat := by
    rw [BitVec.lt_def, toNat_setWidth_19, toNat_setWidth_19]
  refine ⟨if r.setWidth 32 < s.setWidth 32 then r.setWidth 32 else s.setWidth 32, ?_, ?_⟩
  · split_ifs with h1
    · rw [hlt] at h1
      rw [toNat_setWidth_19]
      omega
    · rw [hlt] at h1
      rw [toNat_setWidth_19]
      omega
  · unfold dwordPart copyDwords
    dsimp only
    rw [if_neg fun hc => absurd hc.1 (BitVec.not_le.mpr hgap), if_pos hgap, ipcCopy_eq]
    simp only [hlt]
    rfl

/-- Without room for the dwords in the registers, the first byte behind them is copied. -/
lemma not_respected (hs : 3 < s.toNat) (hr : r.toNat < 3) :
    ¬DwordsRespected snd rcv s r strings := by
  intro h
  obtain ⟨num, hnum, hpart⟩ :=
    dwordPart_long (fun _ => 1) (fun _ => 0) snd rcv r strings hs
  have hbyte := (h (fun _ => 1) (fun _ => 0)).1 (rcv + 12)
  have hlen : 0 < ((num - 3) * 4).toNat := by
    have : num.toNat < 3 := by omega
    bv_omega
  have hle : ((num - 3) * 4).toNat ≤ 2 ^ 32 := Nat.le_of_lt (BitVec.isLt _)
  rw [hpart] at hbyte
  dsimp only at hbyte
  rw [copyBytes_apply hle, BitVec.sub_self, if_pos (by simpa using hlen),
    if_neg (by omega)] at hbyte
  exact absurd hbyte (by decide)

/-- **The dword part respects both sizes** if and only if the message has no dwords beyond the
registers or the buffer has room for those in the registers. -/
theorem dwords_respected (snd rcv : Word) (s r : BitVec 19) (strings : BitVec 5) :
    DwordsRespected snd rcv s r strings ↔ s.toNat ≤ 3 ∨ 3 ≤ r.toNat := by
  have hs := s.isLt
  have hr := r.isLt
  constructor
  · intro h
    by_contra hc
    exact not_respected (by omega) (by omega) h
  · intro h src m
    rcases Nat.lt_or_ge 3 s.toNat with hs3 | hs3
    · obtain ⟨num, hnum, hpart⟩ := dwordPart_long src m snd rcv r strings hs3
      have hlen : ((num - 3) * 4).toNat = 4 * (min s.toNat r.toNat - 3) := by
        rw [← hnum]
        have h3 : 3 ≤ num.toNat := by omega
        have hlt : num.toNat < 2 ^ 19 := by omega
        bv_omega
      have hle : 4 * (min s.toNat r.toNat - 3) ≤ 2 ^ 32 := by omega
      rw [hpart, hlen]
      refine ⟨fun a => copyBytes_apply hle, fun i k hi hi' hk => ?_, fun _ => ⟨hnum, by simp⟩⟩
      have hat : ((rcv + BitVec.ofNat 32 (4 * i + k)) - (rcv + 12)).toNat = 4 * i + k - 12 := by
        have hlt : 4 * i + k < 2 ^ 32 := by omega
        have hge : 12 ≤ 4 * i + k := by omega
        generalize 4 * i + k = j at hlt hge ⊢
        bv_omega
      dsimp only
      rw [copyBytes_apply hle, hat, if_neg (by omega)]
    · rw [dwordPart_short hs3]
      refine ⟨fun a => ?_, fun i k _ _ _ => rfl, fun h3 => by omega⟩
      rw [if_neg (by omega)]

/-- Four dwords are sent to a receiver without a buffer for dwords. -/
theorem dwords_no_room : ¬DwordsRespected 0x1000 0x2000 4 0 0 :=
    not_respected (by decide) (by decide)

/-! ### The strings -/

/-- The addresses of a part. -/
def bytesAt (a : Word) (n : Nat) : List Word := (List.range n).map fun i => a + BitVec.ofNat 32 i

def StringDope.srcBytes (d : StringDope) : List Word := bytesAt d.sendAddress d.sendSize.toNat

/-- The addresses of a part of the receiver, with the number of its dope. -/
def destBytes (x : StringDope × Nat) : List (Nat × Word) :=
  (bytesAt x.1.rcvAddress x.1.rcvSize.toNat).map fun a => (x.2, a)

/-- Whether a part of the receiver continues the one before it. -/
def destContinue (x : StringDope × Nat) : Bool := x.1.rcvContinue

/-- The send strings, and the receive strings. -/
def srcStrings (ds : List StringDope) : List (List Word) :=
  Gather.compounds (·.sendContinue) StringDope.srcBytes ds

def destStrings (ds : List StringDope) : List (List (Nat × Word)) :=
  Gather.compounds destContinue destBytes ds.zipIdx

/-- The number of bytes that get to the part of a dope. -/
def placed (j : Nat) (l : List (Word × Nat × Word)) : Nat := l.countP fun x => x.2.1 = j

lemma bytesAt_succ (a : Word) (n : Nat) : bytesAt a (n + 1) = a :: bytesAt (a + 1) n := by
  unfold bytesAt
  rw [List.range_succ_eq_map, List.map_cons, List.map_map]
  congr 1
  · simp
  · refine List.map_congr_left fun i _ => ?_
    simp only [Function.comp_apply, Nat.succ_eq_add_one, BitVec.ofNat_add]
    rw [BitVec.add_assoc, BitVec.add_comm (BitVec.ofNat 32 i)]
    rfl

lemma length_bytesAt (a : Word) (n : Nat) : (bytesAt a n).length = n := by
  simp [bytesAt]

lemma bytesAt_add (a : Word) (n k : Nat) :
    bytesAt a (n + k) = bytesAt a n ++ bytesAt (a + BitVec.ofNat 32 n) k := by
  induction n generalizing a with
  | zero => simp [bytesAt]
  | succ n ih =>
      rw [Nat.succ_add, bytesAt_succ, ih, bytesAt_succ, List.cons_append]
      congr 3
      rw [BitVec.ofNat_add, BitVec.add_assoc, BitVec.add_comm 1]
      rfl

/-- The bytes of a piece are placed in one part. -/
lemma placed_piece (i j : Nat) (n : Nat) : placed j ((bytesAt frm n).zip
    ((bytesAt dst n).map fun a => (i, a))) = if j = i then n else 0 := by
  induction n generalizing dst frm with
  | zero => simp [bytesAt, placed]
  | succ n ih =>
      have hih : placed j ((bytesAt (frm + 1) n).zip ((bytesAt (dst + 1) n).map fun a => (i, a))) =
          if j = i then n else 0 := ih
      rw [bytesAt_succ, bytesAt_succ, List.map_cons, List.zip_cons_cons]
      unfold placed at hih ⊢
      rw [List.countP_cons, hih]
      by_cases hj : j = i
      · simp [hj]
      · simp [hj, Ne.symm hj]

lemma placed_append (j : Nat) (l l' : List (Word × Nat × Word)) :
    placed j (l ++ l') = placed j l + placed j l' := List.countP_append ..

/-- Two dopes describe the same buffer of the receiver. -/
structure StringDope.SameBuffer (w o : StringDope) : Prop where
  size : w.rcvSize = o.rcvSize
  cont : w.rcvContinue = o.rcvContinue
  address : w.rcvAddress = o.rcvAddress

/-- The dopes from number `i` on have been written, with the sizes `f`. -/
def Wrote (f : Nat → Nat) : Nat → List StringDope → List StringDope → Prop
  | _, [], [] => True
  | i, o :: os, w :: ws => w.SameBuffer o ∧ w.sendSize.toNat = f i ∧ Wrote f (i + 1) os ws
  | _, _, _ => False

namespace Wrote

variable {f g : Nat → Nat} {i : Nat} {os ws os' ws' : List StringDope}

lemma length_eq (h : Wrote f i os ws) : ws.length = os.length := by
  induction os generalizing i ws with
  | nil =>
      cases ws with
      | nil => rfl
      | cons w ws => exact h.elim
  | cons o os ih =>
      cases ws with
      | nil => exact h.elim
      | cons w ws => rw [List.length_cons, List.length_cons, ih h.2.2]

lemma congr (h : Wrote f i os ws) (hfg : ∀ j, i ≤ j → j < i + os.length → f j = g j) :
    Wrote g i os ws := by
  induction os generalizing i ws with
  | nil =>
      cases ws with
      | nil => trivial
      | cons w ws => exact h.elim
  | cons o os ih =>
      cases ws with
      | nil => exact h.elim
      | cons w ws =>
          rw [List.length_cons] at hfg
          exact ⟨h.1, h.2.1.trans (hfg i (Nat.le_refl i) (by omega)),
            ih h.2.2 fun j h1 h2 => hfg j (by omega) (by omega)⟩

lemma append (h : Wrote f i os ws) (h' : Wrote f (i + os.length) os' ws') :
    Wrote f i (os ++ os') (ws ++ ws') := by
  induction os generalizing i ws with
  | nil =>
      cases ws with
      | nil => exact h'
      | cons w ws => exact h.elim
  | cons o os ih =>
      cases ws with
      | nil => exact h.elim
      | cons w ws =>
          refine ⟨h.1, h.2.1, ih h.2.2 ?_⟩
          rw [List.length_cons] at h'
          rwa [Nat.add_assoc, Nat.add_comm 1]

/-- A dope that has been written. -/
lemma get (h : Wrote f i os ws) {k : Nat} {o w : StringDope} (ho : os[k]? = some o)
    (hw : ws[k]? = some w) : w.SameBuffer o ∧ w.sendSize.toNat = f (i + k) := by
  induction os generalizing i ws k with
  | nil => simp at ho
  | cons o' os ih =>
      cases ws with
      | nil => exact h.elim
      | cons w' ws =>
          cases k with
          | zero =>
              obtain rfl : o' = o := by simpa using ho
              obtain rfl : w' = w := by simpa using hw
              exact ⟨h.1, h.2.1⟩
          | succ k =>
              have hk := ih h.2.2 (by simpa using ho) (by simpa using hw)
              rwa [Nat.add_assoc, Nat.add_comm 1] at hk

end Wrote

/-- From a state of the loop, the moves `l` remain, and all strings fit or not. -/
structure StrSpec (s : StrState M) (l : List (Word × Nat × Word)) (fits : Bool)
    (r : StrState M) : Prop where
  cut : r.cut = (s.cut || !fits)
  dopes : ∃ os ws rest, s.dests = os ++ rest ∧ r.done ++ r.dests = s.done ++ (ws ++ rest) ∧
    r.strings = s.strings + ws.length ∧ 0 < ws.length ∧
    Wrote (fun j => (if j = s.done.length then s.sizeTotal.toNat else 0) + placed j l)
      s.done.length os ws ∧
    ∀ x ∈ l, s.done.length ≤ x.2.1 ∧ x.2.1 < s.done.length + ws.length

namespace StrSpec

variable {s s' r : StrState M} {l : List (Word × Nat × Word)} {fits : Bool}
    {os ws : List StringDope}

/-- The places of a piece are in one part. -/
lemma piece_tag {i : Nat} {x : Word × Nat × Word} (hx : x ∈ (bytesAt frm n).zip
    ((bytesAt dst n).map fun a => (i, a))) : x.2.1 = i := by
  obtain ⟨a, -, ha⟩ := List.mem_map.mp (List.of_mem_zip (show (x.1, x.2) ∈ _ from hx)).2
  rw [← ha]

/-- Behind a piece, in the same receive dope. -/
lemma piece (h : StrSpec s' l fits r) (hcut : s'.cut = s.cut) (hdone : s'.done = s.done)
    (hdests : s'.dests = s.dests)
    (hstr : s'.strings = s.strings) (htot : s'.sizeTotal.toNat = s.sizeTotal.toNat + n) :
    StrSpec s
      ((bytesAt frm n).zip ((bytesAt dst n).map fun a => (s.done.length, a)) ++ l) fits r := by
  obtain ⟨hc, os, ws, rest, h1, h2, h3, hpos, h4, h5⟩ := h
  rw [hdone] at h2 h4 h5
  refine ⟨?_, os, ws, rest, hdests ▸ h1, h2, hstr ▸ h3, hpos, h4.congr fun j _ _ => ?_,
    fun x hx => ?_⟩
  · rw [hc, hcut]
  · rw [placed_append, placed_piece, htot]
    split_ifs <;> omega
  · rcases List.mem_append.mp hx with hx | hx
    · rw [piece_tag hx]
      omega
    · exact h5 x hx

/-- Behind a piece and some receive dopes. -/
lemma next {os₀ ws₀ : List StringDope} (h : StrSpec s' l fits r)
    (hcut : s'.cut = s.cut) (hdone : s'.done = s.done ++ ws₀) (hdests : s.dests = os₀ ++ s'.dests)
    (hstr : s'.strings = s.strings + ws₀.length) (htot : s'.sizeTotal = 0) (hpos₀ : 0 < ws₀.length)
    (hw : Wrote (fun j => if j = s.done.length then s.sizeTotal.toNat + n else 0) s.done.length
      os₀ ws₀) :
    StrSpec s
      ((bytesAt frm n).zip ((bytesAt dst n).map fun a => (s.done.length, a)) ++ l) fits r := by
  obtain ⟨hc, os, ws, rest, h1, h2, h3, hpos, h4, h5⟩ := h
  have hlen := hw.length_eq
  have hat : s'.done.length = s.done.length + os₀.length := by
    rw [hdone, List.length_append, hlen]
  rw [hat] at h4 h5
  -- nothing more gets to the dopes that have been left
  have hzero : ∀ j, j < s.done.length + os₀.length → placed j l = 0 := by
    intro j hj
    refine List.countP_eq_zero.mpr fun x hx => ?_
    have := (h5 x hx).1
    simp only [decide_eq_true_eq]
    omega
  refine ⟨?_, os₀ ++ os, ws₀ ++ ws, rest, ?_, ?_, ?_, ?_, ?_, fun x hx => ?_⟩
  · rw [hc, hcut]
  · rw [hdests, h1, List.append_assoc]
  · rw [h2, hdone]
    simp only [List.append_assoc]
  · rw [h3, hstr, List.length_append]
    omega
  · rw [List.length_append]
    omega
  · refine Wrote.append (hw.congr fun j h6 h7 => ?_) (h4.congr fun j h6 h7 => ?_)
    · rw [placed_append, placed_piece, hzero j h7]
      split_ifs <;> omega
    · have h0 : s'.sizeTotal.toNat = 0 := by
        rw [htot]
        rfl
      rw [placed_append, placed_piece, h0]
      split_ifs <;> omega
  · rcases List.mem_append.mp hx with hx | hx
    · rw [piece_tag hx, List.length_append]
      omega
    · have := h5 x hx
      rw [List.length_append]
      omega

/-- The end behind a piece, with the receive dopes that are written then. -/
lemma last {os₀ ws₀ : List StringDope} (rest₀ : List StringDope)
    (hcut : r.cut = (s.cut || !fits)) (hdests : s.dests = os₀ ++ rest₀)
    (hres : r.done ++ r.dests = s.done ++ (ws₀ ++ rest₀))
    (hstr : r.strings = s.strings + ws₀.length) (hpos₀ : 0 < ws₀.length)
    (hw : Wrote (fun j => if j = s.done.length then s.sizeTotal.toNat + n else 0) s.done.length
      os₀ ws₀) :
    StrSpec s ((bytesAt frm n).zip ((bytesAt dst n).map fun a => (s.done.length, a))) fits r := by
  refine ⟨hcut, os₀, ws₀, rest₀, hdests, hres, hstr, hpos₀, hw.congr fun j _ _ => ?_,
    fun x hx => ?_⟩
  · rw [placed_piece]
    split_ifs <;> omega
  · rw [piece_tag hx]
    omega

end StrSpec

/-- What the loop over the receive dopes does: it leaves those of the current string. -/
structure Skipped (s : StrState M) (ws rest : List StringDope) (s' : StrState M) : Prop where
  done : s'.done = s.done ++ ws
  dests : s'.dests = rest
  numDest : s'.numDest = rest.length
  strings : s'.strings = s.strings + ws.length
  mem : s'.mem = s.mem
  srcs : s'.srcs = s.srcs
  numSrc : s'.numSrc = s.numSrc
  cut : s'.cut = (s.cut || rest.isEmpty)
  total : rest ≠ [] → s'.sizeTotal = 0
  pos : 0 < ws.length

variable {s : StrState M} {copy : Word → Word → Nat → M → M}

lemma skipDest_spec {fuel : Nat} {d : StringDope} {D : List StringDope} (hd : s.dests = d :: D)
    (hn : s.numDest = D.length + 1) (hfuel : D.length < fuel)
    (htot : s.sizeTotal.toNat < 2 ^ 31) :
    ∃ os ws rest s', skipDest fuel s = some (!rest.isEmpty, s') ∧ Skipped s ws rest s' ∧
      d :: D = os ++ rest ∧
      (∀ i, Wrote (fun j => if j = i then s.sizeTotal.toNat else 0) i os ws) ∧
      ∀ {α : Type} (block : StringDope × Nat → List α) (i : Nat) (b : List α), ∃ c,
        Gather.start destContinue block b (D.zipIdx (i + 1)) =
          (b ++ c) :: Gather.compounds destContinue block (rest.zipIdx (i + os.length)) := by
  induction fuel generalizing s d D with
  | zero => omega
  | succ fuel ih =>
      have hsize : (s.sizeTotal.setWidth 31).toNat = s.sizeTotal.toNat := by
        rw [BitVec.toNat_setWidth]
        exact Nat.mod_eq_of_lt htot
      rw [skipDest, hd]
      dsimp only
      rw [hn, Nat.add_sub_cancel]
      cases D with
      | nil =>
          rw [if_pos (by simp)]
          refine ⟨[d], [{ d with sendSize := s.sizeTotal.setWidth 31, sendContinue := false }], [],
            _, rfl, ⟨rfl, rfl, rfl, rfl, rfl, rfl, rfl, by simp, fun h => absurd rfl h, by simp⟩,
            rfl, fun i => ⟨⟨rfl, rfl, rfl⟩, by simpa using hsize, trivial⟩, fun _ i b => ⟨[], ?_⟩⟩
          rw [List.append_nil]
          rfl
      | cons e D =>
          rw [if_neg (by simp)]
          dsimp only
          by_cases he : e.rcvContinue = true
          · -- the next part belongs to the same string
            rw [if_pos he]
            obtain ⟨os, ws, rest, s', hrun, hsk, hos, hw, hstart⟩ := ih (s :=
              { s with
                done := s.done ++
                  [{ d with sendSize := s.sizeTotal.setWidth 31, sendContinue := false }]
                dests := e :: D
                numDest := D.length + 1
                strings := s.strings + 1
                sizeTotal := 0 }) rfl rfl (by simpa using hfuel) (by simp)
            refine ⟨d :: os, { d with sendSize := s.sizeTotal.setWidth 31, sendContinue := false }
              :: ws, rest, s', hrun, ⟨?_, hsk.dests, hsk.numDest, ?_, hsk.mem, hsk.srcs,
              hsk.numSrc, hsk.cut, hsk.total, by simp⟩, ?_, fun i => ⟨⟨rfl, rfl, rfl⟩, ?_, ?_⟩,
              fun block i b => ?_⟩
            · rw [hsk.done, List.append_assoc, List.singleton_append]
            · rw [hsk.strings, List.length_cons, Nat.add_assoc, Nat.add_comm 1]
            · rw [hos, List.cons_append]
            · simpa using hsize
            · refine (hw (i + 1)).congr fun j h1 h2 => ?_
              rw [if_neg (show j ≠ i by omega)]
              split_ifs <;> rfl
            · obtain ⟨c, hc⟩ := hstart block (i + 1) (b ++ block (e, i + 1))
              refine ⟨block (e, i + 1) ++ c, ?_⟩
              have he' : destContinue (e, i + 1) = true := he
              rw [List.zipIdx_cons, Gather.start_cont he', hc, List.append_assoc, List.length_cons,
                Nat.add_assoc, Nat.add_comm 1]
          · -- the next string begins
            rw [if_neg he]
            refine ⟨[d], [{ d with sendSize := s.sizeTotal.setWidth 31, sendContinue := false }],
              e :: D, _, rfl, ⟨rfl, rfl, rfl, rfl, rfl, rfl, rfl, by simp, fun _ => rfl, by simp⟩,
              rfl, fun i => ⟨⟨rfl, rfl, rfl⟩, by simpa using hsize, trivial⟩, fun _ i b => ⟨[], ?_⟩⟩
            have he' : ¬destContinue (e, i + 1) = true := he
            rw [List.zipIdx_cons, Gather.start_next he', List.append_nil]
            rfl

/-! ### The loop -/

lemma toNat_setWidth_31 (x : BitVec 31) : (x.setWidth 32).toNat = x.toNat := by
  bv_omega

namespace StrState

/-- The rest of the current send string and those behind it, and the same of the receiver. -/
def srcLeft (s : StrState M) (S : List StringDope) : List (List Word) :=
  Gather.start (·.sendContinue) StringDope.srcBytes (bytesAt s.pSrc s.sizeSrc.toNat) S

def destLeft (s : StrState M) (D : List StringDope) : List (List (Nat × Word)) :=
  Gather.start destContinue destBytes
    ((bytesAt s.pDest s.sizeDest.toNat).map fun a => (s.done.length, a))
    (D.zipIdx (s.done.length + 1))

/-- The moves of `n` bytes from where the loop is. -/
def pieceMoves (s : StrState M) (n : Nat) : List (Word × Nat × Word) :=
  (bytesAt s.pSrc n).zip ((bytesAt s.pDest n).map fun a => (s.done.length, a))

/-- The state after `n` bytes have been copied. -/
def copied (copy : Word → Word → Nat → M → M) (s : StrState M) (n : Word) : StrState M :=
  { s with
    mem := copy s.pDest s.pSrc n.toNat s.mem
    sizeSrc := s.sizeSrc - n
    sizeDest := s.sizeDest - n
    sizeTotal := s.sizeTotal + n }

end StrState

/-- A state of the loop at the dopes `d` and `f`, with `S` and `D` behind them. -/
structure AtDopes (s : StrState M) (d : StringDope) (S : List StringDope) (f : StringDope)
    (D : List StringDope) : Prop where
  srcs : s.srcs = d :: S
  dests : s.dests = f :: D
  numSrc : s.numSrc = S.length + 1
  numDest : s.numDest = D.length + 1
  size : s.sizeTotal.toNat + s.sizeDest.toNat = f.rcvSize.toNat

namespace AtDopes

variable {d f e : StringDope} {S D : List StringDope} {fuel : Nat} {r : StrState M}

lemma copySize_src (hle : s.sizeSrc ≤ s.sizeDest) :
    (if s.sizeSrc < s.sizeDest then s.sizeSrc else s.sizeDest) = s.sizeSrc := by
  split_ifs with hlt
  · rfl
  · bv_omega

/-- A turn at the end of the last send string. -/
lemma step_last (h : AtDopes s d [] f D) (hle : s.sizeSrc ≤ s.sizeDest) :
    strStep copy s = some (false, { s.copied copy s.sizeSrc with
      numSrc := 0
      dests := { f.written (s.sizeTotal + s.sizeSrc) with sendContinue := false } :: D
      strings := s.strings + 1 }) := by
  have hn : s.numSrc - 1 = 0 := by rw [h.numSrc, List.length_nil]
  rw [strStep, if_neg (by rw [h.numDest]; omega), if_neg (by rw [h.numSrc]; simp),
    copySize_src hle]
  dsimp only
  rw [h.dests]
  dsimp only
  rw [if_pos (show s.sizeSrc - s.sizeSrc = 0 from BitVec.sub_self _), hn, if_pos rfl]
  rfl

/-- A turn at the end of a part that another continues. -/
lemma step_part (h : AtDopes s d (e :: S) f D) (hle : s.sizeSrc ≤ s.sizeDest)
    (he : e.sendContinue = true) :
    strStep copy s = some (true, { s.copied copy s.sizeSrc with
      numSrc := S.length + 1
      srcs := e :: S
      dests := f :: D
      pSrc := e.sendAddress
      sizeSrc := e.sendSize.setWidth 32
      pDest := s.pDest + s.sizeSrc }) := by
  have hn : s.numSrc - 1 = S.length + 1 := by rw [h.numSrc, List.length_cons, Nat.add_sub_cancel]
  rw [strStep, if_neg (by rw [h.numDest]; omega), if_neg (by rw [h.numSrc]; simp),
    copySize_src hle]
  dsimp only
  rw [h.dests]
  dsimp only
  rw [if_pos (show s.sizeSrc - s.sizeSrc = 0 from BitVec.sub_self _), hn, if_neg (by omega), h.srcs]
  dsimp only
  rw [if_pos he]
  rfl

/-- A turn at the end of a string behind which another begins. -/
lemma step_string (h : AtDopes s d (e :: S) f D) (hle : s.sizeSrc ≤ s.sizeDest)
    (he : ¬e.sendContinue = true) :
    strStep copy s =
      (skipDest s.numDest { s.copied copy s.sizeSrc with
        numSrc := S.length + 1
        srcs := e :: S
        dests := { f with sendAddress := f.rcvAddress } :: D }).bind fun (found, s) =>
          if found then
            match s.dests with
            | [] => none
            | f :: _ =>
                some (true, { s with
                  sizeDest := f.rcvSize.setWidth 32
                  pDest := f.rcvAddress
                  sizeSrc := e.sendSize.setWidth 32
                  pSrc := e.sendAddress })
          else some (false, s) := by
  have hn : s.numSrc - 1 = S.length + 1 := by rw [h.numSrc, List.length_cons, Nat.add_sub_cancel]
  rw [strStep, if_neg (by rw [h.numDest]; omega), if_neg (by rw [h.numSrc]; simp),
    copySize_src hle]
  dsimp only
  rw [h.dests]
  dsimp only
  rw [if_pos (show s.sizeSrc - s.sizeSrc = 0 from BitVec.sub_self _), hn, if_neg (by omega), h.srcs]
  dsimp only
  rw [if_neg he]
  rfl

/-- A turn at the end of a receive part. -/
lemma step_full (h : AtDopes s d S f D) (hlt : s.sizeDest < s.sizeSrc) :
    strStep copy s =
      let s' := { s.copied copy s.sizeDest with
        done := s.done ++ [f.written (s.sizeTotal + s.sizeDest)]
        dests := D
        numDest := D.length
        strings := s.strings + 1 }
      match D with
      | [] => some (false, { s' with cut := true })
      | g :: _ =>
          if g.rcvContinue then
            some (true, { s' with
              pDest := g.rcvAddress
              sizeDest := g.rcvSize.setWidth 32
              pSrc := s.pSrc + s.sizeDest
              sizeTotal := 0 })
          else some (false, { s' with cut := true }) := by
  have hcopy : (if s.sizeSrc < s.sizeDest then s.sizeSrc else s.sizeDest) = s.sizeDest :=
    if_neg (BitVec.not_lt.mpr (BitVec.le_of_lt hlt))
  have hne : ¬s.sizeSrc - s.sizeDest = 0 := by bv_omega
  have hn : s.numDest - 1 = D.length := by rw [h.numDest, Nat.add_sub_cancel]
  rw [strStep, if_neg (by rw [h.numDest]; omega), if_neg (by rw [h.numSrc]; simp), hcopy]
  dsimp only
  rw [h.dests]
  dsimp only
  rw [if_neg hne, hn]
  cases D with
  | nil => rfl
  | cons g D =>
      rw [if_neg (by simp)]
      rfl

/-- What is left when the part of the sender ends in the part of the receiver. -/
lemma left_src (hle : s.sizeSrc ≤ s.sizeDest) (D : List StringDope) : s.destLeft D =
    Gather.start destContinue destBytes
      (((bytesAt s.pDest s.sizeSrc.toNat).map fun a => (s.done.length, a)) ++
        (bytesAt (s.pDest + s.sizeSrc) (s.sizeDest - s.sizeSrc).toNat).map
          fun a => (s.done.length, a)) (D.zipIdx (s.done.length + 1)) := by
  have hsize : s.sizeDest.toNat = s.sizeSrc.toNat + (s.sizeDest - s.sizeSrc).toNat := by bv_omega
  rw [StrState.destLeft, hsize, bytesAt_add, List.map_append, BitVec.ofNat_toNat,
    BitVec.setWidth_eq]

/-- What is left when the part of the receiver ends in the part of the sender. -/
lemma left_dest (hlt : s.sizeDest < s.sizeSrc) (S : List StringDope) : s.srcLeft S =
    Gather.start (·.sendContinue) StringDope.srcBytes (bytesAt s.pSrc s.sizeDest.toNat ++
      bytesAt (s.pSrc + s.sizeDest) (s.sizeSrc - s.sizeDest).toNat) S := by
  have hsize : s.sizeSrc.toNat = s.sizeDest.toNat + (s.sizeSrc - s.sizeDest).toNat := by bv_omega
  rw [StrState.srcLeft, hsize, bytesAt_add, BitVec.ofNat_toNat, BitVec.setWidth_eq]

/-- At the beginning of a string, or of a receive string. -/
lemma srcLeft_start (hp : s.pSrc = e.sendAddress) (hz : s.sizeSrc = e.sendSize.setWidth 32) :
    s.srcLeft S = srcStrings (e :: S) := by
  rw [StrState.srcLeft, hp, hz, toNat_setWidth_31]
  rfl

lemma destLeft_start {g : StringDope} (hp : s.pDest = g.rcvAddress)
    (hz : s.sizeDest = g.rcvSize.setWidth 32) : s.destLeft D =
      Gather.compounds destContinue destBytes ((g :: D).zipIdx s.done.length) := by
  rw [StrState.destLeft, hp, hz, toNat_setWidth_31]
  rfl

lemma length_piece (a b : Word) (n i : Nat) :
    (bytesAt a n).length = ((bytesAt b n).map fun a => (i, a)).length := by
  rw [List.length_map, length_bytesAt, length_bytesAt]

/-- A dope that is written at the end of its part. -/
lemma wrote_one (f w : StringDope) (n : Word) (hw : w.SameBuffer f)
    (hsize : w.sendSize = (s.sizeTotal + n).setWidth 31)
    (hlt : s.sizeTotal.toNat + n.toNat < 2 ^ 31) (i : Nat) :
    Wrote (fun j => if j = i then s.sizeTotal.toNat + n.toNat else 0) i [f] [w] := by
  refine ⟨hw, ?_, trivial⟩
  dsimp only
  rw [hsize, if_pos rfl]
  bv_omega

/-- The last turn, at the end of the strings of the sender. -/
lemma spec_last (h : AtDopes s d [] f D) (hle : s.sizeSrc ≤ s.sizeDest) :
    StrSpec s (Gather.pairs (s.srcLeft []) (s.destLeft D))
      (Gather.Fits (s.srcLeft []) (s.destLeft D)) { s.copied copy s.sizeSrc with
        numSrc := 0
        dests := { f.written (s.sizeTotal + s.sizeSrc) with sendContinue := false } :: D
        strings := s.strings + 1 } := by
  have hle' : s.sizeSrc.toNat ≤ s.sizeDest.toNat := hle
  have hrcv := f.rcvSize.isLt
  have hsize := h.size
  have hsrc : s.srcLeft [] = Gather.start (·.sendContinue) StringDope.srcBytes
      (bytesAt s.pSrc s.sizeSrc.toNat ++ []) [] := by
    rw [List.append_nil, StrState.srcLeft]
  have hlen := length_piece s.pSrc s.pDest s.sizeSrc.toNat s.done.length
  rw [hsrc, left_src hle, Gather.pairs_start hlen, Gather.fits_start hlen, Gather.pairs_done,
    Gather.fits_done, List.append_nil]
  have hw := wrote_one (s := s) f { f.written (s.sizeTotal + s.sizeSrc) with sendContinue := false }
    s.sizeSrc ⟨rfl, rfl, rfl⟩ rfl (by omega) s.done.length
  refine StrSpec.last D ?_ ?_ ?_ ?_ ?_ hw
  · simp [StrState.copied]
  · exact h.dests
  · rfl
  · rfl
  · exact Nat.one_pos

/-- A turn within a string, to the next part of the sender. -/
lemma spec_part (hle : s.sizeSrc ≤ s.sizeDest) (hlt : s.sizeTotal.toNat + s.sizeSrc.toNat < 2 ^ 31)
    (he : e.sendContinue = true) {s' : StrState M}
    (hs' : StrSpec s' (Gather.pairs (s'.srcLeft S) (s'.destLeft D))
      (Gather.Fits (s'.srcLeft S) (s'.destLeft D)) r)
    (hcut : s'.cut = s.cut) (hdone : s'.done = s.done) (hdests : s'.dests = s.dests)
    (hstr : s'.strings = s.strings) (htot : s'.sizeTotal = s.sizeTotal + s.sizeSrc)
    (hpSrc : s'.pSrc = e.sendAddress) (hsizeSrc : s'.sizeSrc = e.sendSize.setWidth 32)
    (hpDest : s'.pDest = s.pDest + s.sizeSrc) (hsizeDest : s'.sizeDest = s.sizeDest - s.sizeSrc) :
    StrSpec s (Gather.pairs (s.srcLeft (e :: S)) (s.destLeft D))
      (Gather.Fits (s.srcLeft (e :: S)) (s.destLeft D)) r := by
  have hlen := length_piece s.pSrc s.pDest s.sizeSrc.toNat s.done.length
  have hsrc : s'.srcLeft S = Gather.start (·.sendContinue) StringDope.srcBytes e.srcBytes S := by
    rw [StrState.srcLeft, hpSrc, hsizeSrc, StringDope.srcBytes, toNat_setWidth_31]
  rw [hsrc, StrState.destLeft, hpDest, hsizeDest, hdone] at hs'
  rw [StrState.srcLeft, Gather.start_cont he, left_src hle, Gather.pairs_start hlen,
    Gather.fits_start hlen]
  refine hs'.piece hcut hdone hdests hstr ?_
  rw [htot]
  bv_omega

/-- A turn at the end of a receive part that another continues. -/
lemma spec_full {g : StringDope} (h : AtDopes s d S f (g :: D)) (hlt : s.sizeDest < s.sizeSrc)
    (hg : g.rcvContinue = true) {s' : StrState M}
    (hs' : StrSpec s' (Gather.pairs (s'.srcLeft S) (s'.destLeft D))
      (Gather.Fits (s'.srcLeft S) (s'.destLeft D)) r)
    (hcut : s'.cut = s.cut) (hdone : s'.done = s.done ++ [f.written (s.sizeTotal + s.sizeDest)])
    (hdests : s'.dests = g :: D) (hstr : s'.strings = s.strings + 1) (htot : s'.sizeTotal = 0)
    (hpSrc : s'.pSrc = s.pSrc + s.sizeDest) (hsizeSrc : s'.sizeSrc = s.sizeSrc - s.sizeDest)
    (hpDest : s'.pDest = g.rcvAddress) (hsizeDest : s'.sizeDest = g.rcvSize.setWidth 32) :
    StrSpec s (Gather.pairs (s.srcLeft S) (s.destLeft (g :: D)))
      (Gather.Fits (s.srcLeft S) (s.destLeft (g :: D))) r := by
  have hrcv := f.rcvSize.isLt
  have hsize := h.size
  have hlen := length_piece s.pSrc s.pDest s.sizeDest.toNat s.done.length
  have hat : s'.done.length = s.done.length + 1 := by rw [hdone, List.length_append]; rfl
  have hg' : destContinue (g, s.done.length + 1) = true := hg
  have hdest : s'.destLeft D = Gather.start destContinue destBytes
      (destBytes (g, s.done.length + 1)) (D.zipIdx (s.done.length + 1 + 1)) := by
    rw [StrState.destLeft, hpDest, hsizeDest, destBytes, toNat_setWidth_31, hat]
  rw [hdest, StrState.srcLeft, hpSrc, hsizeSrc] at hs'
  rw [left_dest hlt, StrState.destLeft, List.zipIdx_cons, Gather.start_cont hg',
    Gather.pairs_start hlen, Gather.fits_start hlen]
  have hw := wrote_one (s := s) f (f.written (s.sizeTotal + s.sizeDest)) s.sizeDest
    ⟨rfl, rfl, rfl⟩ rfl (by omega) s.done.length
  refine hs'.next hcut hdone ?_ hstr htot Nat.one_pos hw
  · rw [hdests, h.dests]
    rfl

/-- A turn at the end of a receive string that is too small. -/
lemma spec_cut (h : AtDopes s d S f D) (hlt : s.sizeDest < s.sizeSrc)
    (hD : ∀ g ∈ D.head?, ¬g.rcvContinue = true) {s' : StrState M}
    (hcut : s'.cut = true) (hdone : s'.done = s.done ++ [f.written (s.sizeTotal + s.sizeDest)])
    (hdests : s'.dests = D) (hstr : s'.strings = s.strings + 1) :
    StrSpec s (Gather.pairs (s.srcLeft S) (s.destLeft D))
      (Gather.Fits (s.srcLeft S) (s.destLeft D)) s' := by
  have hrcv := f.rcvSize.isLt
  have hsize := h.size
  have hlen := length_piece s.pSrc s.pDest s.sizeDest.toNat s.done.length
  have hne : bytesAt (s.pSrc + s.sizeDest) (s.sizeSrc - s.sizeDest).toNat ≠ [] := by
    refine List.ne_nil_of_length_pos ?_
    rw [length_bytesAt]
    bv_omega
  -- nothing is left of the receive string
  obtain ⟨Bs, hBs⟩ : ∃ Bs, ∀ b : List (Nat × Word), Gather.start destContinue destBytes b
      (D.zipIdx (s.done.length + 1)) = b :: Bs := by
    cases D with
    | nil => exact ⟨[], fun b => rfl⟩
    | cons g D =>
        have hg' : ¬destContinue (g, s.done.length + 1) = true := hD g rfl
        exact ⟨_, fun b => by rw [List.zipIdx_cons, Gather.start_next hg']⟩
  have hdest : s.destLeft D = Gather.start destContinue destBytes
      (((bytesAt s.pDest s.sizeDest.toNat).map fun a => (s.done.length, a)) ++ [])
      (D.zipIdx (s.done.length + 1)) := by
    rw [List.append_nil, StrState.destLeft]
  rw [left_dest hlt, hdest, Gather.pairs_start hlen, Gather.fits_start hlen, hBs,
    Gather.pairs_full hne, Gather.fits_full hne, List.append_nil]
  have hw := wrote_one (s := s) f (f.written (s.sizeTotal + s.sizeDest)) s.sizeDest
    ⟨rfl, rfl, rfl⟩ rfl (by omega) s.done.length
  refine StrSpec.last D ?_ ?_ ?_ ?_ ?_ hw
  · rw [hcut, Bool.not_false, Bool.or_true]
  · exact h.dests
  · rw [hdone, hdests, List.append_assoc]
  · exact hstr
  · exact Nat.one_pos

/-- What is left at the end of a string of the sender, when the receive strings from `rest` on are
not part of the current one. -/
lemma left_string (hle : s.sizeSrc ≤ s.sizeDest) (he : ¬e.sendContinue = true)
    {Bs : List (List (Nat × Word))} (hstart : ∀ b, ∃ c, Gather.start destContinue destBytes b
      (D.zipIdx (s.done.length + 1)) = (b ++ c) :: Bs) :
    Gather.pairs (s.srcLeft (e :: S)) (s.destLeft D) = s.pieceMoves s.sizeSrc.toNat ++
      Gather.pairs (srcStrings (e :: S)) Bs ∧
    Gather.Fits (s.srcLeft (e :: S)) (s.destLeft D) = Gather.Fits (srcStrings (e :: S)) Bs := by
  have hlen := length_piece s.pSrc s.pDest s.sizeSrc.toNat s.done.length
  have hsrc : s.srcLeft (e :: S) = Gather.start (·.sendContinue) StringDope.srcBytes
      (bytesAt s.pSrc s.sizeSrc.toNat ++ []) (e :: S) := by
    rw [List.append_nil, StrState.srcLeft]
  obtain ⟨c, hc⟩ := hstart ((bytesAt (s.pDest + s.sizeSrc) (s.sizeDest - s.sizeSrc).toNat).map
    fun a => (s.done.length, a))
  rw [hsrc, left_src hle, Gather.pairs_start hlen, Gather.fits_start hlen, hc,
    Gather.start_next he, Gather.pairs_nil, Gather.fits_nil]
  exact ⟨rfl, rfl⟩

/-- Dopes that are written have the same buffers as those that the skip found. -/
lemma wrote_skip {o : StringDope} {os ws : List StringDope} {g : Nat → Nat} {i : Nat}
    (ho : o.SameBuffer f) (h : Wrote g i (o :: os) ws) : Wrote g i (f :: os) ws := by
  cases ws with
  | nil => exact h.elim
  | cons w ws =>
      exact ⟨⟨h.1.size.trans ho.size, h.1.cont.trans ho.cont, h.1.address.trans ho.address⟩, h.2⟩

/-- A turn at the end of a string behind which another begins: the receive dopes of the string are
skipped.  If any are left, the loop goes on there. -/
lemma spec_string (h : AtDopes s d (e :: S) f D) (hle : s.sizeSrc ≤ s.sizeDest)
    (he : ¬e.sendContinue = true) :
    (∃ s', strStep copy s = some (false, s') ∧
      StrSpec s (Gather.pairs (s.srcLeft (e :: S)) (s.destLeft D))
        (Gather.Fits (s.srcLeft (e :: S)) (s.destLeft D)) s') ∨
    ∃ s' g R, strStep copy s = some (true, s') ∧ AtDopes s' e S g R ∧
      R.length < D.length ∧ ∀ r, StrSpec s' (Gather.pairs (s'.srcLeft S) (s'.destLeft R))
        (Gather.Fits (s'.srcLeft S) (s'.destLeft R)) r →
        StrSpec s (Gather.pairs (s.srcLeft (e :: S)) (s.destLeft D))
          (Gather.Fits (s.srcLeft (e :: S)) (s.destLeft D)) r := by
  have hle' : s.sizeSrc.toNat ≤ s.sizeDest.toNat := hle
  have hrcv := f.rcvSize.isLt
  have hsize := h.size
  have htot : (s.sizeTotal + s.sizeSrc).toNat = s.sizeTotal.toNat + s.sizeSrc.toNat := by bv_omega
  have hfuel : D.length < s.numDest := by
    rw [h.numDest]
    omega
  obtain ⟨os, ws, rest, s', hrun, hsk, hos, hw, hstart⟩ := skipDest_spec (s :=
    { s.copied copy s.sizeSrc with
      numSrc := S.length + 1
      srcs := e :: S
      dests := { f with sendAddress := f.rcvAddress } :: D }) rfl h.numDest hfuel
    (by show (s.sizeTotal + s.sizeSrc).toNat < _; omega)
  have hdone : s'.done = s.done ++ ws := hsk.done
  have hstr : s'.strings = s.strings + ws.length := hsk.strings
  have hcut : s'.cut = (s.cut || rest.isEmpty) := hsk.cut
  -- the first of the dopes is the one at which the loop is
  obtain ⟨os', rfl, hos'⟩ : ∃ os', os = { f with sendAddress := f.rcvAddress } :: os' ∧
      D = os' ++ rest := by
    cases os with
    | nil =>
        have := (hw 0).length_eq
        have := hsk.pos
        simp_all
    | cons o os =>
        rw [List.cons_append, List.cons.injEq] at hos
        exact ⟨os, by rw [hos.1], hos.2⟩
  have hdests : s.dests = (f :: os') ++ rest := by rw [h.dests, hos', List.cons_append]
  have hws : Wrote (fun j => if j = s.done.length then s.sizeTotal.toNat + s.sizeSrc.toNat else 0)
      s.done.length (f :: os') ws := by
    have hw' := hw s.done.length
    dsimp only [StrState.copied] at hw'
    rw [htot] at hw'
    have hsame : ({ f with sendAddress := f.rcvAddress } : StringDope).SameBuffer f :=
      ⟨rfl, rfl, rfl⟩
    exact wrote_skip hsame hw'
  obtain ⟨hpairs, hfits⟩ := left_string (S := S) hle he (hstart destBytes s.done.length)
  rw [step_string h hle he, hrun, hpairs, hfits]
  cases rest with
  | nil =>
      refine .inl ⟨s', rfl, ?_⟩
      rw [List.zipIdx_nil, Gather.compounds, Gather.pairs_none, List.append_nil]
      refine StrSpec.last [] ?_ hdests ?_ hstr hsk.pos hws
      · rw [hcut, srcStrings, Gather.fits_none]
        rfl
      · rw [hdone, hsk.dests, List.append_nil, List.append_nil]
  | cons g R =>
      have hat : s'.done.length = s.done.length + (f :: os').length := by
        rw [hdone, List.length_append, hws.length_eq]
      refine .inr ⟨{ s' with
          sizeDest := g.rcvSize.setWidth 32
          pDest := g.rcvAddress
          sizeSrc := e.sendSize.setWidth 32
          pSrc := e.sendAddress }, g, R, ?_, ⟨hsk.srcs, hsk.dests, hsk.numSrc, ?_, ?_⟩, ?_,
        fun r hr => ?_⟩
      · rw [Option.bind_some]
        dsimp only
        rw [hsk.dests]
        rfl
      · exact hsk.numDest
      · dsimp only
        rw [hsk.total (by simp), toNat_setWidth_31]
        exact Nat.zero_add _
      · rw [hos', List.length_append, List.length_cons]
        omega
      · rw [srcLeft_start rfl rfl, destLeft_start rfl rfl] at hr
        dsimp only at hr
        rw [hat] at hr
        refine hr.next ?_ hdone ?_ hstr (hsk.total (by simp)) hsk.pos hws
        · rw [hcut]
          exact Bool.or_false _
        · rw [hdests]
          dsimp only
          rw [hsk.dests]

end AtDopes

open AtDopes in
/-- **The string loop**, from any turn on. -/
lemma strLoop_spec (copy : Word → Word → Nat → M → M) {fuel : Nat} {d f : StringDope}
    {S D : List StringDope}
    (h : AtDopes s d S f D) (hfuel : S.length + D.length < fuel) :
    ∃ r, strLoop copy fuel s = some r ∧
      StrSpec s (Gather.pairs (s.srcLeft S) (s.destLeft D))
        (Gather.Fits (s.srcLeft S) (s.destLeft D)) r := by
  induction fuel generalizing s d f S D with
  | zero => omega
  | succ fuel ih =>
      have hrcv := f.rcvSize.isLt
      have hsize := h.size
      rw [strLoop]
      by_cases hle : s.sizeSrc ≤ s.sizeDest
      · have hle' : s.sizeSrc.toNat ≤ s.sizeDest.toNat := hle
        cases S with
        | nil =>
            rw [step_last h hle]
            exact ⟨_, rfl, spec_last h hle⟩
        | cons e S =>
            rw [List.length_cons] at hfuel
            by_cases he : e.sendContinue = true
            · -- the next part of the same string, in the same receive part
              rw [step_part h hle he]
              obtain ⟨r, hr, hspec⟩ := ih (s := { s.copied copy s.sizeSrc with
                numSrc := S.length + 1
                srcs := e :: S
                dests := f :: D
                pSrc := e.sendAddress
                sizeSrc := e.sendSize.setWidth 32
                pDest := s.pDest + s.sizeSrc }) ⟨rfl, rfl, rfl, h.numDest, by
                  dsimp only [StrState.copied]; bv_omega⟩ (by omega)
              exact ⟨r, hr, spec_part hle (by omega) he hspec rfl rfl h.dests.symm rfl rfl rfl
                rfl rfl rfl⟩
            · rcases spec_string h hle he with ⟨s', hs', hspec⟩ |
                ⟨s', g, R, hs', hat, hlen, hspec⟩
              · rw [hs']
                exact ⟨s', rfl, hspec⟩
              · obtain ⟨r, hr, hr'⟩ := ih hat (by omega)
                rw [hs']
                exact ⟨r, hr, hspec r hr'⟩
      · have hlt : s.sizeDest < s.sizeSrc := BitVec.not_le.mp hle
        rw [step_full h hlt]
        cases D with
        | nil => exact ⟨_, rfl, spec_cut h hlt (by simp) rfl rfl rfl rfl⟩
        | cons g D =>
            rw [List.length_cons] at hfuel
            dsimp only
            by_cases hg : g.rcvContinue = true
            · -- the next part of the same receive string
              rw [if_pos hg]
              obtain ⟨r, hr, hspec⟩ := ih (s := { s.copied copy s.sizeDest with
                done := s.done ++ [f.written (s.sizeTotal + s.sizeDest)]
                dests := g :: D
                numDest := D.length + 1
                strings := s.strings + 1
                pDest := g.rcvAddress
                sizeDest := g.rcvSize.setWidth 32
                pSrc := s.pSrc + s.sizeDest
                sizeTotal := 0 }) ⟨h.srcs, rfl, h.numSrc, rfl, by
                  dsimp only; rw [toNat_setWidth_31]; exact Nat.zero_add _⟩ (by omega)
              exact ⟨r, hr, spec_full h hlt hg hspec rfl rfl rfl rfl rfl rfl rfl rfl rfl⟩
            · rw [if_neg hg]
              exact ⟨_, rfl, spec_cut h hlt (by simpa using hg) rfl rfl rfl rfl⟩

end Hazelnut

import Hazelnut.Thread.TransferSafe

/-!
The pieces in which the strings of a long message are copied, and the copy areas.

* `pieces`: the parts of the sender, cut at the ends of those of the receiver and the other way
  round.
* `strLoop_mem`: the string loop copies the pieces, whatever a copy does.
* `pieces_moves`: the bytes of the pieces.
* `Piece.Shown`: a piece of which the copy areas show every byte.
* `strings_faithful_iff`: the loop and the copy areas.
-/

namespace Hazelnut

/-! ### Pieces -/

/-- A part of a string. -/
structure Part where
  addr : Word
  size : Nat

/-- What is copied in one turn. -/
structure Piece where
  dst : Word
  frm : Word
  size : Nat

/-- The parts of a string of the sender, cut to those of the receiver, and whether they fit. -/
def cutParts : List Part → List Part → List Piece × Bool
  | [], _ => ([], true)
  | _ :: _, [] => ([], false)
  | p :: A, q :: B =>
      if p.size ≤ q.size then
        let r := cutParts A (⟨q.addr + BitVec.ofNat 32 p.size, q.size - p.size⟩ :: B)
        (⟨q.addr, p.addr, p.size⟩ :: r.1, r.2)
      else
        let r := cutParts (⟨p.addr + BitVec.ofNat 32 q.size, p.size - q.size⟩ :: A) B
        (⟨q.addr, p.addr, q.size⟩ :: r.1, r.2)
termination_by A B => A.length + B.length

/-- The pieces of the strings, until one does not fit. -/
def cutStrings : List (List Part) → List (List Part) → List Piece
  | A :: As, B :: Bs => (cutParts A B).1 ++ if (cutParts A B).2 then cutStrings As Bs else []
  | _, _ => []

def srcPart (d : StringDope) : List Part := [⟨d.sendAddress, d.sendSize.toNat⟩]

def destPart (x : StringDope × Nat) : List Part := [⟨x.1.rcvAddress, x.1.rcvSize.toNat⟩]

/-- The pieces of a message. -/
def pieces (srcs dests : List StringDope) : List Piece :=
  cutStrings (Gather.compounds (·.sendContinue) srcPart srcs)
    (Gather.compounds destContinue destPart dests.zipIdx)

variable {p q : Part} {A B : List Part} {As Bs : List (List Part)}

/-- The first part of the sender ends in the first one of the receiver. -/
lemma cutStrings_src (h : p.size ≤ q.size) :
    cutStrings ((p :: A) :: As) ((q :: B) :: Bs) = ⟨q.addr, p.addr, p.size⟩ ::
      cutStrings (A :: As) ((⟨q.addr + BitVec.ofNat 32 p.size, q.size - p.size⟩ :: B) :: Bs) := by
  rw [cutStrings, cutStrings, cutParts, if_pos h, List.cons_append]

/-- The first part of the receiver is full. -/
lemma cutStrings_dest (h : ¬p.size ≤ q.size) :
    cutStrings ((p :: A) :: As) ((q :: B) :: Bs) = ⟨q.addr, p.addr, q.size⟩ ::
      cutStrings ((⟨p.addr + BitVec.ofNat 32 q.size, p.size - q.size⟩ :: A) :: As) (B :: Bs) := by
  rw [cutStrings, cutStrings, cutParts, if_neg h, List.cons_append]

/-- The first string is through. -/
lemma cutStrings_done : cutStrings ([] :: As) (B :: Bs) = cutStrings As Bs := by
  rw [cutStrings, cutParts, List.nil_append, if_pos rfl]

/-- There is no room for what is left. -/
lemma cutStrings_full : cutStrings ((p :: A) :: As) ([] :: Bs) = [] := by
  rw [cutStrings, cutParts, List.nil_append, if_neg Bool.false_ne_true]

lemma cutStrings_none : cutStrings As [] = [] := by
  cases As with
  | nil => rfl
  | cons A As => rfl

lemma cutStrings_nil : cutStrings [] Bs = [] := rfl

/-! ### The loop -/

variable {M : Type} {copy : Word → Word → Nat → M → M} {s r : StrState M} {d e f : StringDope}
  {S D : List StringDope} {fuel : Nat}

/-- A piece is copied. -/
def Piece.run (copy : Word → Word → Nat → M → M) (m : M) (c : Piece) : M :=
  copy c.dst c.frm c.size m

namespace StrState

/-- The rest of the current part of the sender and those behind it, and the same of the receiver. -/
def srcRest (s : StrState M) (S : List StringDope) : List (List Part) :=
  Gather.start (·.sendContinue) srcPart [⟨s.pSrc, s.sizeSrc.toNat⟩] S

def destRest (s : StrState M) (D : List StringDope) : List (List Part) :=
  Gather.start destContinue destPart [⟨s.pDest, s.sizeDest.toNat⟩] (D.zipIdx (s.done.length + 1))

/-- At the beginning of a string, or of a receive string. -/
lemma srcRest_start (hp : s.pSrc = e.sendAddress) (hz : s.sizeSrc = e.sendSize.setWidth 32) :
    s.srcRest S = Gather.compounds (·.sendContinue) srcPart (e :: S) := by
  rw [srcRest, hp, hz, toNat_setWidth_31]
  rfl

lemma destRest_start {g : StringDope} (hp : s.pDest = g.rcvAddress)
    (hz : s.sizeDest = g.rcvSize.setWidth 32) : s.destRest D =
      Gather.compounds destContinue destPart ((g :: D).zipIdx s.done.length) := by
  rw [destRest, hp, hz, toNat_setWidth_31]
  rfl

end StrState

namespace AtDopes

/-- A turn at the end of the last send string. -/
lemma mem_last (hle : s.sizeSrc ≤ s.sizeDest)
    (hr : r.mem = (s.copied copy s.sizeSrc).mem) :
    r.mem = (cutStrings (s.srcRest []) (s.destRest D)).foldl (Piece.run copy) s.mem := by
  obtain ⟨B, Bs, hB⟩ := Gather.exists_start destContinue destPart (D.zipIdx (s.done.length + 1))
  have hle' : s.sizeSrc.toNat ≤ s.sizeDest.toNat := hle
  rw [StrState.destRest, hB, List.singleton_append, StrState.srcRest, Gather.start,
    cutStrings_src hle', cutStrings_done, cutStrings_nil]
  exact hr

/-- A turn at the end of a part that another continues. -/
lemma mem_part (hle : s.sizeSrc ≤ s.sizeDest) (he : e.sendContinue = true) {s' : StrState M}
    (hr : r.mem = (cutStrings (s'.srcRest S) (s'.destRest D)).foldl (Piece.run copy) s'.mem)
    (hmem : s'.mem = (s.copied copy s.sizeSrc).mem) (hdone : s'.done = s.done)
    (hpSrc : s'.pSrc = e.sendAddress) (hsizeSrc : s'.sizeSrc = e.sendSize.setWidth 32)
    (hpDest : s'.pDest = s.pDest + s.sizeSrc) (hsizeDest : s'.sizeDest = s.sizeDest - s.sizeSrc) :
    r.mem = (cutStrings (s.srcRest (e :: S)) (s.destRest D)).foldl (Piece.run copy) s.mem := by
  obtain ⟨A, As, hA⟩ := Gather.exists_start (·.sendContinue) srcPart S
  obtain ⟨B, Bs, hB⟩ := Gather.exists_start destContinue destPart (D.zipIdx (s.done.length + 1))
  have hle' : s.sizeSrc.toNat ≤ s.sizeDest.toNat := hle
  have hsize : (s.sizeDest - s.sizeSrc).toNat = s.sizeDest.toNat - s.sizeSrc.toNat := by bv_omega
  rw [StrState.srcRest, StrState.destRest, hpSrc, hsizeSrc, hpDest, hsizeDest, hdone, hA, hB,
    toNat_setWidth_31, hsize, hmem] at hr
  rw [StrState.srcRest, StrState.destRest, Gather.start_cont he, hA, hB, List.append_assoc,
    List.singleton_append, List.singleton_append, cutStrings_src hle', List.foldl_cons]
  rw [BitVec.ofNat_toNat, BitVec.setWidth_eq]
  exact hr

/-- A turn at the end of a receive part that another continues. -/
lemma mem_full {g : StringDope} (hlt : s.sizeDest < s.sizeSrc) (hg : g.rcvContinue = true)
    {s' : StrState M}
    (hr : r.mem = (cutStrings (s'.srcRest S) (s'.destRest D)).foldl (Piece.run copy) s'.mem)
    (hmem : s'.mem = (s.copied copy s.sizeDest).mem)
    (hdone : s'.done = s.done ++ [f.written (s.sizeTotal + s.sizeDest)])
    (hpSrc : s'.pSrc = s.pSrc + s.sizeDest) (hsizeSrc : s'.sizeSrc = s.sizeSrc - s.sizeDest)
    (hpDest : s'.pDest = g.rcvAddress) (hsizeDest : s'.sizeDest = g.rcvSize.setWidth 32) :
    r.mem = (cutStrings (s.srcRest S) (s.destRest (g :: D))).foldl (Piece.run copy) s.mem := by
  have hat : s'.done.length = s.done.length + 1 := by rw [hdone, List.length_append]; rfl
  have hg' : destContinue (g, s.done.length + 1) = true := hg
  obtain ⟨A, As, hA⟩ := Gather.exists_start (·.sendContinue) srcPart S
  obtain ⟨B, Bs, hB⟩ :=
    Gather.exists_start destContinue destPart (D.zipIdx (s.done.length + 1 + 1))
  have hlt' : ¬s.sizeSrc.toNat ≤ s.sizeDest.toNat := by bv_omega
  have hsize : (s.sizeSrc - s.sizeDest).toNat = s.sizeSrc.toNat - s.sizeDest.toNat := by bv_omega
  rw [StrState.srcRest, StrState.destRest, hpSrc, hsizeSrc, hpDest, hsizeDest, hat, hA, hB,
    toNat_setWidth_31, hsize, hmem] at hr
  rw [StrState.srcRest, StrState.destRest, List.zipIdx_cons, Gather.start_cont hg', hA, hB,
    List.append_assoc, List.singleton_append, List.singleton_append, cutStrings_dest hlt',
    List.foldl_cons]
  rw [BitVec.ofNat_toNat, BitVec.setWidth_eq]
  exact hr

/-- A turn at the end of a receive string that is too small. -/
lemma mem_cut (hlt : s.sizeDest < s.sizeSrc) (hD : ∀ g ∈ D.head?, ¬g.rcvContinue = true)
    (hr : r.mem = (s.copied copy s.sizeDest).mem) :
    r.mem = (cutStrings (s.srcRest S) (s.destRest D)).foldl (Piece.run copy) s.mem := by
  obtain ⟨A, As, hA⟩ := Gather.exists_start (·.sendContinue) srcPart S
  have hlt' : ¬s.sizeSrc.toNat ≤ s.sizeDest.toNat := by bv_omega
  -- nothing is left of the receive string
  obtain ⟨Bs, hBs⟩ : ∃ Bs, ∀ b : List Part, Gather.start destContinue destPart b
      (D.zipIdx (s.done.length + 1)) = b :: Bs := by
    cases D with
    | nil => exact ⟨[], fun b => rfl⟩
    | cons g D =>
        have hg' : ¬destContinue (g, s.done.length + 1) = true := hD g rfl
        exact ⟨_, fun b => by rw [List.zipIdx_cons, Gather.start_next hg']⟩
  rw [StrState.srcRest, StrState.destRest, hA, hBs, List.singleton_append, cutStrings_dest hlt',
    cutStrings_full]
  exact hr

/-- A turn at the end of a string behind which another begins, when the receive strings `Bs` are
behind the current one. -/
lemma mem_string (hle : s.sizeSrc ≤ s.sizeDest) (he : ¬e.sendContinue = true)
    {Bs : List (List Part)} (hstart : ∀ b, ∃ c, Gather.start destContinue destPart b
      (D.zipIdx (s.done.length + 1)) = (b ++ c) :: Bs) :
    (cutStrings (s.srcRest (e :: S)) (s.destRest D)).foldl (Piece.run copy) s.mem =
      (cutStrings (Gather.compounds (·.sendContinue) srcPart (e :: S)) Bs).foldl (Piece.run copy)
        (s.copied copy s.sizeSrc).mem := by
  obtain ⟨B, hB⟩ := hstart [⟨s.pDest, s.sizeDest.toNat⟩]
  have hle' : s.sizeSrc.toNat ≤ s.sizeDest.toNat := hle
  rw [StrState.srcRest, StrState.destRest, Gather.start_next he, hB, List.singleton_append,
    cutStrings_src hle', cutStrings_done]
  rfl

end AtDopes

lemma strLoop_more {s' : StrState M} (h : strStep copy s = some (true, s')) :
    strLoop copy (fuel + 1) s = strLoop copy fuel s' := by
  rw [strLoop, h]

lemma strLoop_stop {s' : StrState M} (h : strStep copy s = some (false, s')) :
    strLoop copy (fuel + 1) s = some s' := by
  rw [strLoop, h]

open AtDopes in
/-- **The loop copies the pieces**, one after the other, whatever a copy does. -/
lemma strLoop_mem (h : AtDopes s d S f D) (hr : strLoop copy fuel s = some r) :
    r.mem = (cutStrings (s.srcRest S) (s.destRest D)).foldl (Piece.run copy) s.mem := by
  induction fuel generalizing s d f S D with
  | zero => cases hr
  | succ fuel ih =>
      have hrcv := f.rcvSize.isLt
      have hsize := h.size
      by_cases hle : s.sizeSrc ≤ s.sizeDest
      · have hle' : s.sizeSrc.toNat ≤ s.sizeDest.toNat := hle
        cases S with
        | nil =>
            rw [strLoop_stop (step_last h hle)] at hr
            obtain rfl := Option.some.inj hr
            exact mem_last hle rfl
        | cons e S =>
            by_cases he : e.sendContinue = true
            · -- the next part of the same string, in the same receive part
              rw [strLoop_more (step_part h hle he)] at hr
              have hnext := fun h' => ih (d := e) (S := S) (f := f) (D := D) h' hr
              refine mem_part hle he (hnext ⟨rfl, rfl, rfl, h.numDest, ?_⟩) rfl rfl rfl rfl rfl rfl
              dsimp only [StrState.copied]
              bv_omega
            · obtain ⟨os, ws, rest, s', hrun, hsk, hos, hw, hstart⟩ := skipDest_spec (s :=
                { s.copied copy s.sizeSrc with
                  numSrc := S.length + 1
                  srcs := e :: S
                  dests := { f with sendAddress := f.rcvAddress } :: D }) rfl h.numDest
                (show D.length < s.numDest by rw [h.numDest]; omega)
                (show (s.sizeTotal + s.sizeSrc).toNat < 2 ^ 31 by bv_omega)
              have hmem : s'.mem = (s.copied copy s.sizeSrc).mem := hsk.mem
              have hstep : strStep copy s = _ := step_string h hle he
              rw [hrun, Option.bind_some] at hstep
              rw [mem_string hle he (hstart destPart s.done.length)]
              cases rest with
              | nil =>
                  rw [strLoop_stop hstep] at hr
                  obtain rfl := Option.some.inj hr
                  rw [List.zipIdx_nil, Gather.compounds, cutStrings_none]
                  exact hmem
              | cons g R =>
                  have hdests : s'.dests = g :: R := hsk.dests
                  have hat : s'.done.length = s.done.length + os.length := by
                    rw [hsk.done, List.length_append, (hw 0).length_eq]
                    rfl
                  dsimp only at hstep
                  rw [hdests] at hstep
                  rw [strLoop_more hstep] at hr
                  have hnext := fun h' => ih (d := e) (S := S) (f := g) (D := R) h' hr
                  have hzero : s'.sizeTotal.toNat + (g.rcvSize.setWidth 32).toNat =
                      g.rcvSize.toNat := by
                    rw [hsk.total (by simp), toNat_setWidth_31]
                    exact Nat.zero_add _
                  have hnext := hnext ⟨hsk.srcs, rfl, hsk.numSrc, hsk.numDest, hzero⟩
                  rw [StrState.srcRest_start rfl rfl, StrState.destRest_start rfl rfl] at hnext
                  dsimp only at hnext
                  rw [hat, hmem] at hnext
                  exact hnext
      · have hlt : s.sizeDest < s.sizeSrc := BitVec.not_le.mp hle
        have hstep : strStep copy s = _ := step_full h hlt
        cases D with
        | nil =>
            rw [strLoop_stop hstep] at hr
            obtain rfl := Option.some.inj hr
            exact mem_cut hlt (by simp) rfl
        | cons g D =>
            dsimp only at hstep
            by_cases hg : g.rcvContinue = true
            · -- the next part of the same receive string
              rw [if_pos hg] at hstep
              rw [strLoop_more hstep] at hr
              have hnext := fun h' => ih (d := d) (S := S) (f := g) (D := D) h' hr
              refine mem_full hlt hg (hnext ⟨h.srcs, rfl, h.numSrc, rfl, ?_⟩) rfl rfl
                rfl rfl rfl rfl
              dsimp only
              rw [toNat_setWidth_31]
              exact Nat.zero_add _
            · rw [if_neg hg] at hstep
              rw [strLoop_stop hstep] at hr
              obtain rfl := Option.some.inj hr
              exact mem_cut hlt (by simpa using hg) rfl

/-! ### What the loop reports -/

/-- What is expected of the dopes and of the flag: the dopes that were written have the numbers of
their bytes, and the others are as before and have none; the message is not cut if and only if all
strings fit. -/
structure DopesFaithful (srcs dests : List StringDope) (cut : Bool) (r : StrState M) : Prop where
  length : (r.done ++ r.dests).length = dests.length
  dope : ∀ (j : Nat) (d w : StringDope), dests[j]? = some d → (r.done ++ r.dests)[j]? = some w →
    w.SameBuffer d ∧
    (j < r.strings → w.sendSize.toNat =
      placed j (Gather.pairs (srcStrings srcs) (destStrings dests))) ∧
    (r.strings ≤ j → w = d ∧ placed j (Gather.pairs (srcStrings srcs) (destStrings dests)) = 0)
  cut : r.cut = false ↔ cut = false ∧ (srcStrings srcs).length ≤ (destStrings dests).length ∧
    ∀ (k : Nat) (A : List Word) (B : List (Nat × Word)), (srcStrings srcs)[k]? = some A →
      (destStrings dests)[k]? = some B → A.length ≤ B.length

variable {srcs dests : List StringDope} {cut : Bool}

/-- Nothing is sent, or there is no string to copy to. -/
lemma faithful_none (hdopes : r.done ++ r.dests = dests) (hstr : r.strings = 0)
    (hcut : r.cut = (cut || !Gather.Fits (srcStrings srcs) (destStrings dests)))
    (hpairs : Gather.pairs (srcStrings srcs) (destStrings dests) = []) :
    DopesFaithful srcs dests cut r := by
  refine ⟨by rw [hdopes], fun j d w hd hw => ?_, ?_⟩
  · obtain rfl : d = w := by simpa [hdopes, hd] using hw
    refine ⟨⟨rfl, rfl, rfl⟩, fun hj => by omega, fun _ => ⟨rfl, ?_⟩⟩
    rw [hpairs]
    rfl
  · rw [hcut, Bool.or_eq_false_iff, Bool.not_eq_false', Gather.fits_iff]

/-- A run of the loop from its first turn. -/
lemma StrSpec.faithful (h : StrSpec s (Gather.pairs (srcStrings srcs) (destStrings dests))
    (Gather.Fits (srcStrings srcs) (destStrings dests)) r) (hcut : s.cut = cut)
    (hdests : s.dests = dests) (hdone : s.done = []) (hstr : s.strings = 0)
    (htot : s.sizeTotal = 0) : DopesFaithful srcs dests cut r := by
  obtain ⟨hc, os, ws, rest, h1, h2, h3, -, h4, h5⟩ := h
  rw [hdests] at h1
  rw [hdone, List.nil_append] at h2
  rw [hstr, Nat.zero_add] at h3
  rw [hdone, List.length_nil] at h4 h5
  have hlen := h4.length_eq
  refine ⟨?_, fun j d w hd hw => ?_, ?_⟩
  · rw [h1, h2, List.length_append, List.length_append, hlen]
  · rw [h1] at hd
    rw [h2] at hw
    rcases Nat.lt_or_ge j ws.length with hj | hj
    · rw [List.getElem?_append_left (by omega)] at hd hw
      obtain ⟨hsame, hsize⟩ := h4.get hd hw
      refine ⟨hsame, fun _ => ?_, fun hge => by omega⟩
      rw [hsize, htot, Nat.zero_add]
      split_ifs <;> simp
    · rw [List.getElem?_append_right (by omega)] at hd hw
      rw [hlen] at hw
      obtain rfl : d = w := by simpa [hd] using hw
      refine ⟨⟨rfl, rfl, rfl⟩, fun hlt => by omega, fun _ => ⟨rfl, ?_⟩⟩
      refine List.countP_eq_zero.mpr fun x hx => ?_
      have := (h5 x hx).2
      simp only [decide_eq_true_eq]
      omega
  · rw [hc, hcut, Bool.or_eq_false_iff, Bool.not_eq_false', Gather.fits_iff]

/-- **The loop ends**, whatever a copy does, and reads and writes no dope that is not there. -/
lemma stringLoop_spec (copy : Word → Word → Nat → M → M) (srcs dests : List StringDope) (cut : Bool)
    (m : M) : ∃ r, stringLoop copy srcs dests cut m = some r ∧ DopesFaithful srcs dests cut r ∧
      r.mem = (pieces srcs dests).foldl (Piece.run copy) m := by
  cases srcs with
  | nil =>
      refine ⟨_, rfl, faithful_none rfl rfl ?_ rfl, rfl⟩
      simp [srcStrings, Gather.compounds, Gather.Fits]
  | cons d S =>
      cases dests with
      | nil =>
          refine ⟨_, rfl, faithful_none rfl rfl ?_ (Gather.pairs_none _), ?_⟩
          · rw [srcStrings, destStrings, List.zipIdx_nil, Gather.compounds, Gather.fits_none]
            simp
          · rw [pieces, List.zipIdx_nil, Gather.compounds, cutStrings_none]
            rfl
      | cons f D =>
          have h : AtDopes { srcs := d :: S, dests := f :: D, done := [], numSrc := S.length + 1
                             numDest := D.length + 1, pSrc := d.sendAddress, pDest := f.rcvAddress
                             sizeSrc := d.sendSize.setWidth 32, sizeDest := f.rcvSize.setWidth 32
                             sizeTotal := 0, strings := 0, cut := cut, mem := m } d S f D :=
            ⟨rfl, rfl, rfl, rfl, by rw [toNat_setWidth_31]; exact Nat.zero_add _⟩
          obtain ⟨r, hr, hspec⟩ := strLoop_spec copy h
            (show S.length + D.length < S.length + 1 + (D.length + 1) + 1 by omega)
          have hmem := strLoop_mem h hr
          rw [AtDopes.srcLeft_start rfl rfl, AtDopes.destLeft_start rfl rfl] at hspec
          rw [StrState.srcRest_start rfl rfl, StrState.destRest_start rfl rfl] at hmem
          exact ⟨r, hr, hspec.faithful rfl rfl rfl rfl rfl, hmem⟩

/-! ### The bytes of the pieces -/

def Part.bytes (p : Part) : List Word := bytesAt p.addr p.size

/-- From where to where the bytes of a piece should get. -/
def Piece.moves (c : Piece) : List (Word × Word) :=
    (bytesAt c.frm c.size).zip (bytesAt c.dst c.size)

lemma bytesAt_split {n k : Nat} (a : Word) (h : n ≤ k) :
    bytesAt a k = bytesAt a n ++ bytesAt (a + BitVec.ofNat 32 n) (k - n) := by
  rw [← bytesAt_add, Nat.add_sub_cancel' h]

/-- The pieces of two strings; without a part of the receiver, a byte of the sender is left. -/
lemma cutParts_moves (A B : List Part) (h : B = [] → ∀ p ∈ A.head?, 0 < p.size) :
    (cutParts A B).1.flatMap Piece.moves = (A.flatMap Part.bytes).zip (B.flatMap Part.bytes) ∧
      ((cutParts A B).2 = true ↔
      (A.flatMap Part.bytes).length ≤ (B.flatMap Part.bytes).length) := by
  fun_induction cutParts A B with
  | case1 B => simp
  | case2 p A =>
      have hp := h rfl p rfl
      simp [Part.bytes, length_bytesAt]
      omega
  | case3 p A q B hle r ih =>
      obtain ⟨h1, h2⟩ := ih fun hnil => absurd hnil (by simp)
      have hq : q.bytes = bytesAt q.addr p.size ++
          bytesAt (q.addr + BitVec.ofNat 32 p.size) (q.size - p.size) := bytesAt_split q.addr hle
      have hlen : p.bytes.length = (bytesAt q.addr p.size).length := by
        rw [Part.bytes, length_bytesAt, length_bytesAt]
      rw [List.flatMap_cons, Part.bytes] at h1 h2
      dsimp only at h1 h2
      rw [List.flatMap_cons, List.flatMap_cons, List.flatMap_cons, hq, List.append_assoc,
        List.zip_append hlen, h1, h2]
      refine ⟨rfl, ?_⟩
      simp only [List.length_append, hlen, Nat.add_le_add_iff_left]
  | case4 p A q B hle r ih =>
      obtain ⟨h1, h2⟩ := ih fun _ p' hp' => by
        obtain rfl : _ = p' := by simpa using hp'
        dsimp only
        omega
      have hp : p.bytes = bytesAt p.addr q.size ++
          bytesAt (p.addr + BitVec.ofNat 32 q.size) (p.size - q.size) :=
        bytesAt_split p.addr (by omega)
      have hlen : (bytesAt p.addr q.size).length = q.bytes.length := by
        rw [Part.bytes, length_bytesAt, length_bytesAt]
      rw [List.flatMap_cons, Part.bytes] at h1 h2
      dsimp only at h1 h2
      rw [List.flatMap_cons, List.flatMap_cons, List.flatMap_cons, hp, List.append_assoc,
        List.zip_append hlen, h1, h2]
      refine ⟨rfl, ?_⟩
      simp only [List.length_append, hlen, Nat.add_le_add_iff_left]

lemma cutStrings_moves (As Bs : List (List Part)) (h : ∀ B ∈ Bs, B ≠ []) :
    (cutStrings As Bs).flatMap Piece.moves =
      Gather.pairs (As.map (List.flatMap Part.bytes)) (Bs.map (List.flatMap Part.bytes)) := by
  induction As generalizing Bs with
  | nil => rfl
  | cons A As ih =>
      cases Bs with
      | nil => rfl
      | cons B Bs =>
          obtain ⟨h1, h2⟩ := cutParts_moves A B fun hB => absurd hB (h B List.mem_cons_self)
          rw [cutStrings, List.flatMap_append, h1, List.map_cons, List.map_cons, Gather.pairs]
          by_cases hfit : (cutParts A B).2 = true
          · rw [if_pos hfit, if_pos (h2.mp hfit), ih Bs fun B hB => h B (List.mem_cons_of_mem _ hB)]
          · rw [if_neg hfit, if_neg (mt h2.mpr hfit)]
            rfl

/-- **The bytes of the pieces** are those of the strings, each with its place. -/
lemma pieces_moves (srcs dests : List StringDope) : (pieces srcs dests).flatMap Piece.moves =
    (Gather.pairs (srcStrings srcs) (destStrings dests)).map fun x => (x.1, x.2.2) := by
  have hsrc : srcStrings srcs = (Gather.compounds (·.sendContinue) srcPart srcs).map
      (List.flatMap Part.bytes) := by
    rw [Gather.compounds_map fun a b => List.flatMap_append, srcStrings]
    congr 1
    funext d
    rw [srcPart, List.flatMap_singleton]
    rfl
  have hdest : (destStrings dests).map (List.map Prod.snd) =
      (Gather.compounds destContinue destPart dests.zipIdx).map (List.flatMap Part.bytes) := by
    rw [Gather.compounds_map fun a b => List.flatMap_append, destStrings,
      Gather.compounds_map fun a b => List.map_append]
    congr 1
    funext x
    rw [destPart, List.flatMap_singleton, destBytes, List.map_map]
    exact List.map_id _
  have hne : ∀ B ∈ Gather.compounds destContinue destPart dests.zipIdx, B ≠ [] :=
    Gather.forall_compounds (fun a b ha _ => by simp [ha]) fun d _ => by simp [destPart]
  rw [pieces, cutStrings_moves _ _ hne, Gather.pairs_map, hsrc, hdest]

/-- No piece has 2 GB. -/
lemma cutParts_size (A B : List Part) (h : ∀ p ∈ A, p.size < 2 ^ 31) :
    ∀ c ∈ (cutParts A B).1, c.size < 2 ^ 31 := by
  fun_induction cutParts A B with
  | case1 B => simp
  | case2 p A => simp
  | case3 p A q B hle r ih =>
      have hp := h p List.mem_cons_self
      rintro c hc
      rcases List.mem_cons.mp hc with rfl | hc
      · exact hp
      · exact ih (fun p hp => h p (List.mem_cons_of_mem _ hp)) c hc
  | case4 p A q B hle r ih =>
      have hp := h p List.mem_cons_self
      intro c hc
      rcases List.mem_cons.mp hc with rfl | hc
      · dsimp only
        omega
      · refine ih (fun p' hp' => ?_) c hc
        rcases List.mem_cons.mp hp' with rfl | hp'
        · dsimp only
          omega
        · exact h p' (List.mem_cons_of_mem _ hp')

lemma cutStrings_size (As Bs : List (List Part)) (h : ∀ A ∈ As, ∀ p ∈ A, p.size < 2 ^ 31) :
    ∀ c ∈ cutStrings As Bs, c.size < 2 ^ 31 := by
  induction As generalizing Bs with
  | nil => simp [cutStrings]
  | cons A As ih =>
      cases Bs with
      | nil => simp [cutStrings]
      | cons B Bs =>
          intro c hc
          rw [cutStrings, List.mem_append] at hc
          rcases hc with hc | hc
          · exact cutParts_size A B (h A List.mem_cons_self) c hc
          · split_ifs at hc
            · exact ih Bs (fun A hA => h A (List.mem_cons_of_mem _ hA)) c hc
            · simp at hc

lemma pieces_size (srcs dests : List StringDope) : ∀ c ∈ pieces srcs dests, c.size < 2 ^ 31 := by
  refine cutStrings_size _ _ (Gather.forall_compounds (fun a b ha hb p hp => ?_) fun d _ p hp => ?_)
  · rcases List.mem_append.mp hp with hp | hp
    · exact ha p hp
    · exact hb p hp
  · obtain rfl : p = ⟨d.sendAddress, d.sendSize.toNat⟩ := by simpa [srcPart] using hp
    exact d.sendSize.isLt

/-! ### The copy areas -/

/-- Where the first byte of a piece is in its region. -/
def Piece.offset (c : Piece) : Nat := c.dst.toNat % 2 ^ 22

/-- The copy areas show all of a piece: it ends within the two regions of its copy area, or it is in
the first one, and the second one shows the regions behind it. -/
def Piece.Shown (c : Piece) (area1 : Word) (area2 : Option Word) : Prop :=
  c.offset + c.size ≤ 2 ^ 23 ∨
    area1 = pagedirBase c.dst ∧ area2 = some (area1 + 0x800000) ∧ c.offset + c.size ≤ 2 ^ 24

/-- The second copy area behind the call for a piece. -/
def Piece.area2 (c : Piece) (area1 : Word) (area2 : Option Word) : Option Word :=
  if area1 = pagedirBase c.dst then area2 else some (pagedirBase c.dst)

/-- Every piece is shown when it is copied. -/
def AllShown (area1 : Word) : Option Word → List Piece → Prop
  | _, [] => True
  | area2, c :: cs => c.Shown area1 area2 ∧ AllShown area1 (c.area2 area1 area2) cs

lemma toNat_offset (a : Word) : (a &&& ~~~0xffc00000).toNat = a.toNat % 2 ^ 22 := by
  have hmask : (~~~0xffc00000 : Word).toNat = 2 ^ 22 - 1 := by decide
  rw [BitVec.toNat_and, hmask, Nat.and_two_pow_sub_one_eq_mod]

lemma and_and_not (a m : Word) : (a &&& m) &&& (a &&& ~~~m) = 0#32 := by
  ext i hi
  simp only [BitVec.getElem_and, BitVec.getElem_not, BitVec.getElem_zero]
  cases a[i] <;> cases m[i] <;> rfl

lemma pagedirBase_add (a : Word) : pagedirBase a + (a &&& ~~~0xffc00000) = a := by
  rw [pagedirBase, BitVec.add_eq_or_of_and_eq_zero _ _ (and_and_not a _),
    ← BitVec.and_or_distrib_left, show (0xffc00000 ||| ~~~0xffc00000 : Word) = BitVec.allOnes 32 by
      decide, BitVec.and_allOnes]

/-- A byte of the region of an address. -/
lemma pagedirBase_byte (a : Word) (i : Nat) :
    pagedirBase a + BitVec.ofNat 32 (a.toNat % 2 ^ 22 + i) = a + BitVec.ofNat 32 i := by
  rw [BitVec.ofNat_add, ← toNat_offset, BitVec.ofNat_toNat, BitVec.setWidth_eq, ← BitVec.add_assoc,
    pagedirBase_add]

namespace CopyAreas

variable {w : CopyAreas}

/-- The kernel addresses from the first copy area on. -/
lemma target_at (w : CopyAreas) {n : Nat} (hn : n < 2 ^ 32) :
    w.target (copyArea1At + BitVec.ofNat 32 n) =
      if n < 2 ^ 23 then some (w.area1 + BitVec.ofNat 32 n)
      else if n < 2 ^ 24 then w.area2.map (· + BitVec.ofNat 32 (n - 2 ^ 23))
      else none := by
  have hsub : copyArea1At + BitVec.ofNat 32 n - copyArea1At = BitVec.ofNat 32 n := by bv_omega
  have hlt : ∀ k : Nat, k < 2 ^ 32 → (BitVec.ofNat 32 n < BitVec.ofNat 32 k ↔ n < k) := by
    intro k hk
    rw [BitVec.lt_def, BitVec.toNat_ofNat, BitVec.toNat_ofNat, Nat.mod_eq_of_lt hn,
      Nat.mod_eq_of_lt hk]
  have h1 : BitVec.ofNat 32 n < 0x800000 ↔ n < 2 ^ 23 := hlt (2 ^ 23) (by decide)
  have h2 : BitVec.ofNat 32 n < 0x1000000 ↔ n < 2 ^ 24 := hlt (2 ^ 24) (by decide)
  rw [target, hsub]
  simp only [h1, h2]
  split_ifs with h3 h4
  · rfl
  · have hsub2 : copyArea1At + BitVec.ofNat 32 n - copyArea2At = BitVec.ofNat 32 (n - 2 ^ 23) := by
      rw [copyArea1At, copyArea2At]
      bv_omega
    rw [hsub2]
  · rfl

/-- The second copy area goes on where the first one ends. -/
lemma behind_first (x y : Word) {n : Nat} (hn : 2 ^ 23 ≤ n) :
    y + BitVec.ofNat 32 (n - 2 ^ 23) = x + BitVec.ofNat 32 n ↔ y = x + 0x800000 := by
  have hsplit : BitVec.ofNat 32 n = 0x800000 + BitVec.ofNat 32 (n - 2 ^ 23) := by
    conv_lhs => rw [← Nat.add_sub_cancel' hn, BitVec.ofNat_add]
    rfl
  rw [hsplit, ← BitVec.add_assoc, BitVec.add_left_inj]

/-- What the kernel addresses of a piece are in the receiver. -/
def targets (w : CopyAreas) (c : Piece) : List (Option Word) :=
  (bytesAt (w.getCopyArea c.dst).2 c.size).map (w.getCopyArea c.dst).1.target

lemma area1_getCopyArea (w : CopyAreas) (a : Word) : (w.getCopyArea a).1.area1 = w.area1 := by
  unfold getCopyArea
  split_ifs <;> rfl

lemma area2_getCopyArea (w : CopyAreas) (c : Piece) :
    (w.getCopyArea c.dst).1.area2 = c.area2 w.area1 w.area2 := by
  unfold getCopyArea Piece.area2
  split_ifs <;> rfl

lemma moves_getCopyArea (w : CopyAreas) (a : Word) : (w.getCopyArea a).1.moves = w.moves := by
  unfold getCopyArea
  split_ifs <;> rfl

/-- A byte of a piece. -/
lemma target_byte (w : CopyAreas) (c : Piece) {i : Nat} (hi : i < 2 ^ 31) :
    (w.getCopyArea c.dst).1.target ((w.getCopyArea c.dst).2 + BitVec.ofNat 32 i) =
        some (c.dst + BitVec.ofNat 32 i) ↔
      c.offset + i < 2 ^ 23 ∨ w.area1 = pagedirBase c.dst ∧ w.area2 = some (w.area1 + 0x800000) ∧
        c.offset + i < 2 ^ 24 := by
  have hoff : c.offset < 2 ^ 22 := Nat.mod_lt _ (by decide)
  have hbase := pagedirBase_byte c.dst i
  have hword : (c.dst &&& ~~~0xffc00000) = BitVec.ofNat 32 c.offset := by
    rw [Piece.offset, ← toNat_offset, BitVec.ofNat_toNat, BitVec.setWidth_eq]
  unfold getCopyArea
  rw [hword]
  rw [← Piece.offset] at hbase
  by_cases h1 : w.area1 = pagedirBase c.dst
  · -- the first copy area
    have hk : BitVec.ofNat 32 c.offset + copyArea1At + BitVec.ofNat 32 i =
        copyArea1At + BitVec.ofNat 32 (c.offset + i) := by
      rw [BitVec.ofNat_add]
      bv_omega
    rw [if_pos h1]
    dsimp only
    rw [hk, target_at w (by omega), ← hbase, ← h1]
    split_ifs with h2 h3
    · exact iff_of_true rfl (.inl h2)
    · rw [Option.map_eq_some_iff]
      constructor
      · rintro ⟨b, hb, heq⟩
        have hb' := (behind_first _ b (by omega)).mp heq
        exact .inr ⟨rfl, hb.trans (congrArg some hb'), h3⟩
      · rintro (h4 | ⟨-, hb, -⟩)
        · exact absurd h4 h2
        · exact ⟨_, hb, (behind_first _ _ (by omega)).mpr rfl⟩
    · exact iff_of_false (by simp) (by omega)
  · -- the second one, for the region of the piece
    have hk : BitVec.ofNat 32 c.offset + copyArea2At + BitVec.ofNat 32 i =
        copyArea1At + BitVec.ofNat 32 (2 ^ 23 + (c.offset + i)) := by
      rw [copyArea1At, copyArea2At]
      bv_omega
    rw [if_neg h1]
    dsimp only
    rw [hk, target_at _ (by omega), if_neg (by omega), Nat.add_sub_cancel_left, Option.map_some,
      hbase]
    split_ifs with h2
    · exact iff_of_true rfl (.inl (by omega))
    · exact iff_of_false (by simp) (by rintro (h3 | h3); exacts [by omega, h1 h3.1])

/-- The copy areas show all of a piece if and only if every byte gets to its address. -/
lemma targets_eq (w : CopyAreas) (c : Piece) (hc : c.size < 2 ^ 31) :
    w.targets c = (bytesAt c.dst c.size).map some ↔ c.Shown w.area1 w.area2 := by
  have hbytes : w.targets c = (bytesAt c.dst c.size).map some ↔ ∀ i < c.size,
      (w.getCopyArea c.dst).1.target ((w.getCopyArea c.dst).2 + BitVec.ofNat 32 i) =
        some (c.dst + BitVec.ofNat 32 i) := by
    rw [targets, bytesAt, bytesAt, List.map_map, List.map_map, List.map_inj_left]
    simp only [List.mem_range, Function.comp_apply]
  have hoff : c.offset < 2 ^ 22 := Nat.mod_lt _ (by decide)
  rw [hbytes]
  constructor
  · intro h
    by_contra hnot
    rw [Piece.Shown, not_or, Nat.not_le] at hnot
    obtain ⟨hlong, hnot⟩ := hnot
    -- the first byte behind the copy area
    have hbyte := (target_byte w c (by omega)).mp (h (2 ^ 23 - c.offset) (by omega))
    rcases hbyte with hbyte | ⟨h1, h2, -⟩
    · omega
    · have h3 : ¬c.offset + c.size ≤ 2 ^ 24 := fun h3 => hnot ⟨h1, h2, h3⟩
      have hbyte := (target_byte w c (by omega)).mp (h (2 ^ 24 - c.offset) (by omega))
      omega
  · rintro (h | ⟨h1, h2, h3⟩) i hi
    · exact (target_byte w c (Nat.lt_trans hi hc)).mpr (.inl (by omega))
    · exact (target_byte w c (Nat.lt_trans hi hc)).mpr (.inr ⟨h1, h2, by omega⟩)

end CopyAreas

/-! ### The strings through the copy areas -/

/-- The bytes with their places in the receiver. -/
def received (l : List (Word × Word)) : List (Word × Option Word) := l.map fun x => (x.1, some x.2)

lemma copyBytes_put (n : Nat) (k frm : Word) (w : CopyAreas) : copyBytes CopyAreas.put n k frm w =
    { w with moves := w.moves ++ (bytesAt frm n).zip ((bytesAt k n).map w.target) } := by
  induction n generalizing k frm w with
  | zero => simp [copyBytes, bytesAt]
  | succ n ih =>
      rw [copyBytes, ih, bytesAt_succ, bytesAt_succ, List.map_cons, List.zip_cons_cons]
      simp only [CopyAreas.put, List.append_assoc, List.singleton_append]
      rfl

/-- What is recorded of a piece. -/
lemma run_windowCopy (w : CopyAreas) (c : Piece) : Piece.run windowCopy w c =
    { (w.getCopyArea c.dst).1 with
      moves := w.moves ++ (bytesAt c.frm c.size).zip (w.targets c) } := by
  rw [Piece.run, windowCopy, ipcCopy_eq, copyBytes_put, w.moves_getCopyArea]
  rfl

/-- The bytes of a piece get to their places if and only if the copy areas show all of it. -/
lemma zip_targets (w : CopyAreas) (c : Piece) (hc : c.size < 2 ^ 31) :
    (bytesAt c.frm c.size).zip (w.targets c) = received c.moves ↔ c.Shown w.area1 w.area2 := by
  have hz : received c.moves = (bytesAt c.frm c.size).zip ((bytesAt c.dst c.size).map some) := by
    rw [received, Piece.moves, List.zip_map_right]
    rfl
  have hlen : (bytesAt c.frm c.size).length = (w.targets c).length := by
    rw [CopyAreas.targets, List.length_map, length_bytesAt, length_bytesAt]
  have hlen' : (bytesAt c.frm c.size).length = ((bytesAt c.dst c.size).map some).length := by
    rw [List.length_map, length_bytesAt, length_bytesAt]
  rw [hz, ← w.targets_eq c hc]
  constructor
  · intro h
    have hsnd := congrArg (List.map Prod.snd) h
    rwa [List.map_snd_zip (Nat.le_of_eq hlen.symm),
      List.map_snd_zip (Nat.le_of_eq hlen'.symm)] at hsnd
  · intro h
    rw [h]

/-- The pieces one after the other. -/
lemma foldl_windowCopy (cs : List Piece) (hcs : ∀ c ∈ cs, c.size < 2 ^ 31) (w : CopyAreas) :
    ∃ X, (cs.foldl (Piece.run windowCopy) w).moves = w.moves ++ X ∧
      (X = received (cs.flatMap Piece.moves) ↔ AllShown w.area1 w.area2 cs) := by
  induction cs generalizing w with
  | nil => exact ⟨[], (List.append_nil _).symm, iff_of_true rfl trivial⟩
  | cons c cs ih =>
      obtain ⟨X, hX, hiff⟩ := ih (fun c hc => hcs c (List.mem_cons_of_mem _ hc))
        (Piece.run windowCopy w c)
      rw [run_windowCopy] at hX hiff
      dsimp only at hX hiff
      rw [w.area1_getCopyArea, w.area2_getCopyArea] at hiff
      have hpiece := zip_targets w c (hcs c List.mem_cons_self)
      have hlen : ((bytesAt c.frm c.size).zip (w.targets c)).length =
          (received c.moves).length := by
        simp [received, Piece.moves, CopyAreas.targets, length_bytesAt]
      refine ⟨(bytesAt c.frm c.size).zip (w.targets c) ++ X, ?_, ?_⟩
      · rw [List.foldl_cons, run_windowCopy, hX, List.append_assoc]
      · have hsplit : received ((c :: cs).flatMap Piece.moves) =
            received c.moves ++ received (cs.flatMap Piece.moves) := List.map_append
        rw [hsplit, AllShown, ← hpiece, ← hiff]
        exact ⟨fun h => List.append_inj h hlen, fun h => by rw [h.1, h.2]⟩

/-- What is expected of the result: the bytes of the `k`-th string of the sender get, from the first
on, to the parts of the `k`-th string of the receiver, as far as these go, and none of a string
behind one that does not fit; and the dopes and the flag tell what was copied. -/
structure StringsFaithful (srcs dests : List StringDope) (cut : Bool) (w : CopyAreas)
    (r : StrState CopyAreas) : Prop extends DopesFaithful srcs dests cut r where
  moves : r.mem.moves = w.moves ++
    (Gather.pairs (srcStrings srcs) (destStrings dests)).map fun x => (x.1, some x.2.2)

/-- The copy of the strings ends, and is faithful if the copy areas show all pieces. -/
lemma copyStrings_spec (srcs dests : List StringDope) (cut : Bool) (w : CopyAreas) :
    ∃ r, copyStrings srcs dests cut w = some r ∧ DopesFaithful srcs dests cut r ∧
      (StringsFaithful srcs dests cut w r ↔ AllShown w.area1 w.area2 (pieces srcs dests)) := by
  obtain ⟨r, hr, hdopes, hmem⟩ := stringLoop_spec windowCopy srcs dests cut w
  obtain ⟨X, hX, hiff⟩ := foldl_windowCopy (pieces srcs dests) (pieces_size srcs dests) w
  have hgather : (Gather.pairs (srcStrings srcs) (destStrings dests)).map
      (fun x => (x.1, some x.2.2)) = received ((pieces srcs dests).flatMap Piece.moves) := by
    rw [pieces_moves, received, List.map_map]
    rfl
  refine ⟨r, hr, hdopes, ?_⟩
  rw [← hiff]
  constructor
  · intro h
    have hm := h.moves
    rw [hmem, hX, hgather] at hm
    exact List.append_cancel_left hm
  · intro h
    refine ⟨hdopes, ?_⟩
    rw [hmem, hX, hgather, h]

/-- A string of 8 MB and 4 KB, to a buffer as large. -/
def largeDope : StringDope :=
  ⟨0x801000, false, 0x10000000, 0x801000, false, 0x20001000⟩

end Hazelnut

import Hazelnut.Thread.Tcb

/-!
The slots of small address spaces, after `make_small_space` and `small_space_to_large` of
`kernel/src/x86/memory.c` and `smallid_t` of `kernel/include/x86/space.h`.

* `SmallSpaces`: `small_space_owner` and the small id in every page directory.
* `tryAlloc`, `rollback`: the loops of `make_small_space`; `make_first`, `make_stuck` and
  `make_granted` say where they lead.
* `SlotsOwned`: what the two functions are to keep.
* `smallSpaces_iff`: when a call does so.
-/

namespace Hazelnut

/-! ### Small ids -/

def maxSmallSpaces : Nat := 128
def smallSpaceInvalid : Word := 0xff

/-- The search of `lsb` from bit `i` on. -/
def lsbFrom (x : Word) : Nat → Nat → Nat
  | 0, i => i
  | k + 1, i => if x.getLsbD i then i else lsbFrom x k (i + 1)

/-- `lsb`; the hardware leaves the result for zero undefined. -/
def lsb (x : Word) : Nat := lsbFrom x 32 0

namespace SmallId

/-- `set_value`. -/
def setValue (v : Word) : Word := v &&& 0xff

def isValid (x : Word) : Prop := x ≠ smallSpaceInvalid ∧ x ≠ 0

instance (x : Word) : Decidable (isValid x) := inferInstanceAs (Decidable (_ ∧ _))

def size (x : Word) : Nat := 2 ^ lsb x

def idx (x : Word) : Nat := x.toNat / 2 ^ (lsb x + 1) * 2 ^ lsb x

/-- The slots that an id denotes. -/
def Denotes (x : Word) (i : Nat) : Prop := isValid x ∧ idx x ≤ i ∧ i < idx x + size x

end SmallId

/-! ### The functions -/

/-- `small_space_owner`, and the small ids of the spaces. -/
structure SmallSpaces where
  owner : Nat → Word
  smallid : Word → Word

/-- The loop that tries to allocate the slots: where it ends.  A slot is marked by bit 0 of the
pointer. -/
def tryAlloc (space : Word) (idx : Nat) : Nat → Nat → (Nat → Word) → Nat × (Nat → Word)
  | 0, i, owner => (i, owner)
  | k + 1, i, owner =>
      if owner (idx + i) = 0 then
        tryAlloc space idx k (i + 1) (Function.update owner (idx + i) (space ||| 1))
      else if owner (idx + i) ≠ space then (i, owner)
      else tryAlloc space idx k (i + 1) owner

/-- The loop behind a conflict; none if the fuel is used up.  It does not change `i`. -/
def rollback (space : Word) (idx i : Nat) : Nat → (Nat → Word) → Option (Nat → Word)
  | 0, owner => if 0 < i then none else some owner
  | fuel + 1, owner =>
      if 0 < i then
        rollback space idx i fuel
          (if owner (idx + i) ≠ space then Function.update owner (idx + i) 0 else owner)
      else some owner

/-- The loops that write `v` to `k` slots. -/
def writeSlots (v : Word) (idx : Nat) : Nat → Nat → (Nat → Word) → Nat → Word
  | 0, _, owner => owner
  | k + 1, i, owner => writeSlots v idx k (i + 1) (Function.update owner (idx + i) v)

/-- The check for slots that have been allocated before. -/
def ownsOutside (space : Word) (idx size : Nat) (owner : Nat → Word) : Prop :=
  ∃ i < maxSmallSpaces, owner i = space ∧ (i < idx ∨ idx + size ≤ i)

instance (space : Word) (idx size : Nat) (owner : Nat → Word) :
    Decidable (ownsOutside space idx size owner) :=
  inferInstanceAs (Decidable (∃ i < maxSmallSpaces, _))

/-- `make_small_space`; none if a loop does not end. -/
def makeSmallSpace (fuel : Nat) (space smallid : Word) (s : SmallSpaces) :
    Option (Int × SmallSpaces) :=
  let small := SmallId.setValue smallid
  let size := SmallId.size small
  let idx := SmallId.idx small
  if ownsOutside space idx size s.owner then some (-1, s)
  else
    let (i, owner) := tryAlloc space idx size 0 s.owner
    if i < size then (rollback space idx i fuel owner).map fun owner =>
      (-1, { s with owner := owner })
    else
      some (0,
        { owner := writeSlots space idx size 0 owner
          smallid := Function.update s.smallid space (SmallId.setValue small) })

/-- `small_space_to_large`. -/
def smallSpaceToLarge (space : Word) (s : SmallSpaces) : SmallSpaces :=
  let small := s.smallid space
  { owner := writeSlots 0 (SmallId.idx small) (SmallId.size small) 0 s.owner
    smallid := Function.update s.smallid space (SmallId.setValue smallSpaceInvalid) }

/-! ### The loops -/

section loops

variable {space v : Word} {idx k i m fuel : Nat} {owner : Nat → Word}

lemma writeSlots_apply :
    writeSlots v idx k i owner m = if idx + i ≤ m ∧ m < idx + i + k then v else owner m := by
  induction k generalizing i owner with
  | zero => rw [writeSlots, if_neg (by omega)]
  | succ k ih =>
    rw [writeSlots, ih, Function.update_apply]
    split_ifs <;> first | rfl | omega

/-- What the allocation loop has done when it ends. -/
structure AllocEnds (space : Word) (idx k i : Nat) (owner : Nat → Word) (r : Nat × (Nat → Word)) :
    Prop where
  ge : i ≤ r.1
  le : r.1 ≤ i + k
  passed : ∀ j, i ≤ j → j < r.1 → owner (idx + j) = 0 ∨ owner (idx + j) = space
  stopped : r.1 < i + k → owner (idx + r.1) ≠ 0 ∧ owner (idx + r.1) ≠ space
  kept : ∀ m, m < idx + i ∨ idx + r.1 ≤ m → r.2 m = owner m

lemma tryAlloc_ends : AllocEnds space idx k i owner (tryAlloc space idx k i owner) := by
  induction k generalizing i owner with
  | zero => exact ⟨Nat.le_refl _, Nat.le_refl _,
      fun j h₁ h₂ => absurd h₂ (by simp [tryAlloc]; omega),
      fun h => absurd h (by simp [tryAlloc]), fun m _ => rfl⟩
  | succ k ih =>
    rw [tryAlloc]
    split_ifs with hzero hother
    · have h := @ih (i + 1) (Function.update owner (idx + i) (space ||| 1))
      have hnew : ∀ j, i + 1 ≤ j →
          Function.update owner (idx + i) (space ||| 1) (idx + j) = owner (idx + j) := fun j hj =>
        Function.update_of_ne (by omega) _ _
      have hge := h.ge
      have hle := h.le
      refine ⟨by omega, by omega, fun j hj hlt => ?_, fun hlt => ?_, fun m hm => ?_⟩
      · rcases Nat.eq_or_lt_of_le hj with rfl | hj
        · exact Or.inl hzero
        · rw [← hnew j hj]
          exact h.passed j hj hlt
      · rw [← hnew _ h.ge]
        exact h.stopped (by omega)
      · rw [h.kept m (by omega), Function.update_of_ne (by omega)]
    · exact ⟨Nat.le_refl _, by omega, fun j h₁ h₂ => by omega, fun _ => ⟨hzero, hother⟩,
        fun m _ => rfl⟩
    · have h := @ih (i + 1) owner
      have hge := h.ge
      have hle := h.le
      refine ⟨by omega, by omega, fun j hj hlt => ?_, fun hlt => h.stopped (by omega),
        fun m hm => h.kept m (by omega)⟩
      rcases Nat.eq_or_lt_of_le hj with rfl | hj
      · exact Or.inr (not_not.mp hother)
      · exact h.passed j hj hlt

lemma tryAlloc_exists (space : Word) (idx k : Nat) (owner : Nat → Word) :
    ∃ i owner', tryAlloc space idx k 0 owner = (i, owner') ∧
      AllocEnds space idx k 0 owner (i, owner') :=
  ⟨_, _, rfl, tryAlloc_ends⟩

/-- With slots to take back the loop never ends. -/
lemma rollback_pos (hi : 0 < i) : rollback space idx i fuel owner = none := by
  induction fuel generalizing owner with
  | zero => rw [rollback, if_pos hi]
  | succ fuel ih => rw [rollback, if_pos hi, ih]

lemma rollback_zero : rollback space idx 0 fuel owner = some owner := by
  cases fuel <;> rw [rollback, if_neg (Nat.lt_irrefl 0)]

end loops

/-! ### Where the calls lead -/

namespace SmallId

set_option maxRecDepth 4000 in
lemma idx_byte : ∀ n < 256, n ≠ 0 → idx (BitVec.ofNat 32 n) + size (BitVec.ofNat 32 n) ≤ 128 := by
  decide

/-- A small id denotes slots that there are. -/
lemma idx_add_size_le {x : Word} (hx : setValue x = x) (h0 : x ≠ 0) :
    idx x + size x ≤ maxSmallSpaces := by
  have hlt : x.toNat < 256 := by
    rw [← hx, setValue, BitVec.toNat_and]
    exact Nat.lt_of_le_of_lt Nat.and_le_right (by decide)
  have hn := idx_byte x.toNat hlt fun h => h0 (BitVec.eq_of_toNat_eq h)
  rwa [BitVec.ofNat_toNat, BitVec.setWidth_eq] at hn

lemma setValue_setValue {v : Word} : setValue (setValue v) = setValue v := by
  rw [setValue, setValue, BitVec.and_assoc, BitVec.and_self]

lemma size_pos {x : Word} : 0 < size x := Nat.two_pow_pos _

end SmallId

/-- Another space owns the slot. -/
def Taken (space : Word) (owner : Nat → Word) (i : Nat) : Prop := owner i ≠ 0 ∧ owner i ≠ space

section cases

variable {space smallid : Word} {s : SmallSpaces} {fuel m : Nat}

lemma make_outside
    (h : ownsOutside space (SmallId.idx (SmallId.setValue smallid))
      (SmallId.size (SmallId.setValue smallid)) s.owner) :
    makeSmallSpace fuel space smallid s = some (-1, s) := by
  rw [makeSmallSpace, if_pos h]

variable
  (hin : ¬ownsOutside space (SmallId.idx (SmallId.setValue smallid))
    (SmallId.size (SmallId.setValue smallid)) s.owner)

include hin

/-- A conflict in the first slot: nothing has been marked. -/
lemma make_first (h : Taken space s.owner (SmallId.idx (SmallId.setValue smallid))) :
    makeSmallSpace fuel space smallid s = some (-1, s) := by
  obtain ⟨i, owner, hr, hend⟩ := tryAlloc_exists space (SmallId.idx (SmallId.setValue smallid))
    (SmallId.size (SmallId.setValue smallid)) s.owner
  have hi : i = 0 := by
    refine Nat.eq_zero_of_not_pos fun hpos => ?_
    rcases hend.passed 0 (Nat.le_refl 0) hpos with h0 | h0
    · exact h.1 h0
    · exact h.2 h0
  subst hi
  have howner : owner = s.owner := funext fun m => hend.kept m (by omega)
  rw [makeSmallSpace, if_neg hin, hr]
  dsimp only
  rw [if_pos SmallId.size_pos, rollback_zero, howner]
  rfl

/-- A conflict behind the first slot. -/
lemma make_stuck (hfirst : ¬Taken space s.owner (SmallId.idx (SmallId.setValue smallid)))
    (h : ∃ j < SmallId.size (SmallId.setValue smallid),
      Taken space s.owner (SmallId.idx (SmallId.setValue smallid) + j)) :
    makeSmallSpace fuel space smallid s = none := by
  obtain ⟨j, hj, ht⟩ := h
  obtain ⟨i, owner, hr, hend⟩ := tryAlloc_exists space (SmallId.idx (SmallId.setValue smallid))
    (SmallId.size (SmallId.setValue smallid)) s.owner
  have hlt : i < SmallId.size (SmallId.setValue smallid) := by
    by_contra hge
    rcases hend.passed j (Nat.zero_le j) (by omega) with h0 | h0
    · exact ht.1 h0
    · exact ht.2 h0
  have hpos : 0 < i := by
    refine Nat.pos_of_ne_zero fun h0 => hfirst ?_
    subst h0
    exact hend.stopped (by omega)
  rw [makeSmallSpace, if_neg hin, hr]
  dsimp only
  rw [if_pos hlt, rollback_pos hpos]
  rfl

/-- No conflict: the space gets the slots and the id. -/
lemma make_granted
    (h : ∀ j < SmallId.size (SmallId.setValue smallid),
      ¬Taken space s.owner (SmallId.idx (SmallId.setValue smallid) + j)) :
    makeSmallSpace fuel space smallid s =
      some (0,
        { owner := fun m =>
            if SmallId.idx (SmallId.setValue smallid) ≤ m ∧
                m < SmallId.idx (SmallId.setValue smallid) + SmallId.size (SmallId.setValue smallid)
            then space else s.owner m
          smallid := Function.update s.smallid space (SmallId.setValue smallid) }) := by
  obtain ⟨i, owner, hr, hend⟩ := tryAlloc_exists space (SmallId.idx (SmallId.setValue smallid))
    (SmallId.size (SmallId.setValue smallid)) s.owner
  have hge : ¬i < SmallId.size (SmallId.setValue smallid) := fun hlt =>
    h i hlt (hend.stopped (by omega))
  have hle := hend.le
  rw [makeSmallSpace, if_neg hin, hr]
  dsimp only at hle ⊢
  rw [if_neg hge, SmallId.setValue_setValue]
  congr 3
  funext m
  rw [writeSlots_apply]
  split_ifs with hm hm'
  · rfl
  · omega
  · omega
  · exact hend.kept m (by dsimp only; omega)

end cases

/-! ### Runs -/

/-- The address of a page directory. -/
def IsSpace (sp : Word) : Prop := sp ≠ 0 ∧ sp &&& 1 = 0

/-- Every slot is empty or owned by one space, and a space owns the slots its small id denotes. -/
structure SlotsOwned (s : SmallSpaces) : Prop where
  slots : ∀ i, s.owner i = 0 ∨ IsSpace (s.owner i)
  denotes : ∀ sp, IsSpace sp → ∀ i, s.owner i = sp ↔ SmallId.Denotes (s.smallid sp) i
  ids : ∀ sp, IsSpace sp → SmallId.setValue (s.smallid sp) = s.smallid sp ∧ s.smallid sp ≠ 0

inductive SmallCall where
  | make (space smallid : Word)
  | large (space : Word)
  deriving DecidableEq, Repr

namespace SmallCall

/-- A call; its result is zero where the function returns none. -/
def run (fuel : Nat) : SmallCall → SmallSpaces → Option (Int × SmallSpaces)
  | make space smallid, s => makeSmallSpace fuel space smallid s
  | large space, s => some (0, smallSpaceToLarge space s)

/-- Calls are on spaces, and with an id in which the hardware finds a bit. -/
def Legal : SmallCall → Prop
  | make space smallid => IsSpace space ∧ SmallId.setValue smallid ≠ 0
  | large space => IsSpace space

/-- A conflict that `make_small_space` meets is in the first slot, and it does not make a space
small with the id of the large ones; `small_space_to_large` takes from no other space. -/
def Fits : SmallCall → SmallSpaces → Prop
  | make space smallid, s =>
      ownsOutside space (SmallId.idx (SmallId.setValue smallid))
        (SmallId.size (SmallId.setValue smallid)) s.owner ∨
      Taken space s.owner (SmallId.idx (SmallId.setValue smallid)) ∨
      SmallId.setValue smallid ≠ smallSpaceInvalid ∧
        ∀ j < SmallId.size (SmallId.setValue smallid),
          ¬Taken space s.owner (SmallId.idx (SmallId.setValue smallid) + j)
  | large space, s =>
      SmallId.isValid (s.smallid space) ∨ s.owner (SmallId.idx smallSpaceInvalid) = 0

/-- The call ends; if it returns -1 then nothing has changed; and slots and ids still agree. -/
def Keeps (c : SmallCall) (s : SmallSpaces) : Prop :=
  ∃ fuel r s', c.run fuel s = some (r, s') ∧ (r = -1 → s' = s) ∧ SlotsOwned s'

end SmallCall

namespace SlotsOwned

variable {s : SmallSpaces} {space x : Word}

lemma large_id : SmallId.setValue smallSpaceInvalid = smallSpaceInvalid ∧
    smallSpaceInvalid ≠ 0 := by
  decide

lemma start : SlotsOwned ⟨fun _ => 0, fun _ => smallSpaceInvalid⟩ where
  slots _ := Or.inl rfl
  denotes _ hsp _ := ⟨fun h => absurd h.symm hsp.1, fun h => absurd rfl h.1.1⟩
  ids _ _ := large_id

/-- A slot that nobody else owns is empty or the space's own. -/
lemma owner_of_not_taken {i : Nat} (h : ¬Taken space s.owner i) :
    s.owner i = 0 ∨ s.owner i = space := by
  by_contra hne
  exact h ⟨fun h0 => hne (Or.inl h0), fun h0 => hne (Or.inr h0)⟩

/-- The space has been made small. -/
lemma make (hs : SlotsOwned s) (hsp : IsSpace space) (hx : SmallId.setValue x = x)
    (hvalid : SmallId.isValid x)
    (hin : ¬ownsOutside space (SmallId.idx x) (SmallId.size x) s.owner)
    (hfree : ∀ j < SmallId.size x, ¬Taken space s.owner (SmallId.idx x + j)) :
    SlotsOwned
      { owner := fun m =>
          if SmallId.idx x ≤ m ∧ m < SmallId.idx x + SmallId.size x then space else s.owner m
        smallid := Function.update s.smallid space x } where
  slots i := by
    dsimp only
    split_ifs
    · exact Or.inr hsp
    · exact hs.slots i
  denotes sp hsp' i := by
    dsimp only
    by_cases heq : sp = space
    · subst heq
      rw [Function.update_self]
      constructor
      · intro h
        refine ⟨hvalid, ?_⟩
        by_contra hout
        rw [if_neg hout] at h
        -- what the space owned before lies in the new range
        have hids := hs.ids sp hsp
        have hd := (hs.denotes sp hsp i).mp h
        have hle := SmallId.idx_add_size_le hids.1 hids.2
        have hlt := hd.2.2
        exact hin ⟨i, by omega, h, by omega⟩
      · exact fun h => if_pos h.2
    · rw [Function.update_of_ne heq, ← hs.denotes sp hsp' i]
      split_ifs with hr
      · obtain ⟨j, rfl⟩ := Nat.exists_eq_add_of_le hr.1
        constructor
        · exact fun h => absurd h.symm heq
        · intro h
          rcases owner_of_not_taken (hfree j (by omega)) with h0 | h0
          · exact absurd (h.symm.trans h0) hsp'.1
          · exact absurd (h.symm.trans h0) heq
      · exact Iff.rfl
  ids sp hsp' := by
    dsimp only
    rw [Function.update_apply]
    split_ifs
    · exact ⟨hx, hvalid.2⟩
    · exact hs.ids sp hsp'

lemma toLarge_owner {m : Nat} :
    (smallSpaceToLarge space s).owner m =
      if SmallId.idx (s.smallid space) ≤ m ∧
          m < SmallId.idx (s.smallid space) + SmallId.size (s.smallid space)
      then 0 else s.owner m := by
  rw [smallSpaceToLarge]
  dsimp only
  rw [writeSlots_apply, Nat.add_zero]

lemma toLarge_smallid {sp : Word} :
    (smallSpaceToLarge space s).smallid sp = if sp = space then smallSpaceInvalid
    else s.smallid sp := by
  rw [smallSpaceToLarge]
  dsimp only
  rw [Function.update_apply, large_id.1]

/-- A small space has been made large. -/
lemma large (hs : SlotsOwned s) (hsp : IsSpace space) (hsmall : SmallId.isValid (s.smallid space)) :
    SlotsOwned (smallSpaceToLarge space s) where
  slots i := by
    rw [toLarge_owner]
    split_ifs
    · exact Or.inl rfl
    · exact hs.slots i
  denotes sp hsp' i := by
    rw [toLarge_owner, toLarge_smallid]
    have hown := hs.denotes space hsp i
    have hown' := hs.denotes sp hsp' i
    split_ifs with hr heq heq
    · exact ⟨fun h => absurd h.symm hsp'.1, fun h => absurd rfl h.1.1⟩
    · rw [← hown', hown.mpr ⟨hsmall, hr⟩]
      exact ⟨fun h => absurd h.symm hsp'.1, fun h => absurd h.symm heq⟩
    · rw [heq, hown]
      exact ⟨fun h => absurd h.2 hr, fun h => absurd rfl h.1.1⟩
    · exact hown'
  ids sp hsp' := by
    rw [toLarge_smallid]
    split_ifs
    · exact large_id
    · exact hs.ids sp hsp'

/-- Where the space was large already, nothing is lost if the slot is empty. -/
lemma large_of_empty (hs : SlotsOwned s) (hx : s.smallid space = smallSpaceInvalid)
    (h : s.owner (SmallId.idx smallSpaceInvalid) = 0) : SlotsOwned (smallSpaceToLarge space s) := by
  have howner : (smallSpaceToLarge space s).owner = s.owner := by
    funext m
    rw [toLarge_owner, hx]
    split_ifs with hm
    · have hsize : SmallId.size smallSpaceInvalid = 1 := by decide
      have hidx : m = SmallId.idx smallSpaceInvalid := by omega
      rw [hidx, h]
    · rfl
  have hid : ∀ sp, (smallSpaceToLarge space s).smallid sp = s.smallid sp := by
    intro sp
    rw [toLarge_smallid]
    split_ifs with heq
    · rw [heq, hx]
    · rfl
  exact ⟨fun i => by rw [howner]; exact hs.slots i,
    fun sp hsp i => by rw [howner, hid]; exact hs.denotes sp hsp i,
    fun sp hsp => by rw [hid]; exact hs.ids sp hsp⟩

end SlotsOwned

namespace SmallCall

variable {s s' : SmallSpaces} {c : SmallCall} {fuel : Nat} {r : Int}

/-- What a fitting call leaves, whenever it ends. -/
lemma Fits.run (hs : SlotsOwned s) (hc : c.Legal) (hf : c.Fits s)
    (h : c.run fuel s = some (r, s')) :
    (r = -1 → s' = s) ∧ SlotsOwned s' := by
  cases c with
  | make space smallid =>
    by_cases hin : ownsOutside space (SmallId.idx (SmallId.setValue smallid))
        (SmallId.size (SmallId.setValue smallid)) s.owner
    · rw [SmallCall.run, make_outside hin] at h
      cases h
      exact ⟨fun _ => rfl, hs⟩
    · rcases hf with hout | hfirst | ⟨hvalid, hfree⟩
      · exact absurd hout hin
      · rw [SmallCall.run, make_first hin hfirst] at h
        cases h
        exact ⟨fun _ => rfl, hs⟩
      · rw [SmallCall.run, make_granted hin hfree] at h
        cases h
        exact ⟨fun hr => absurd hr (by decide),
          hs.make hc.1 SmallId.setValue_setValue ⟨hvalid, hc.2⟩ hin hfree⟩
  | large space =>
    cases h
    refine ⟨fun hr => absurd hr (by decide), ?_⟩
    by_cases hsmall : SmallId.isValid (s.smallid space)
    · exact hs.large hc hsmall
    · have hids := hs.ids space hc
      have hx : s.smallid space = smallSpaceInvalid := by
        by_contra hne
        exact hsmall ⟨hne, hids.2⟩
      exact hs.large_of_empty hx (hf.resolve_left hsmall)

lemma Fits.ends (fuel : Nat) (hf : c.Fits s) : ∃ r s', c.run fuel s = some (r, s') := by
  cases c with
  | make space smallid =>
    rw [SmallCall.run]
    by_cases hin : ownsOutside space (SmallId.idx (SmallId.setValue smallid))
        (SmallId.size (SmallId.setValue smallid)) s.owner
    · rw [make_outside hin]
      exact ⟨_, _, rfl⟩
    · rcases hf with hout | hfirst | ⟨_, hfree⟩
      · exact absurd hout hin
      · rw [make_first hin hfirst]
        exact ⟨_, _, rfl⟩
      · rw [make_granted hin hfree]
        exact ⟨_, _, rfl⟩
  | large space => exact ⟨_, _, rfl⟩

lemma Fits.keeps (hs : SlotsOwned s) (hc : c.Legal) (hf : c.Fits s) : c.Keeps s := by
  obtain ⟨r, s', h⟩ := hf.ends 0
  exact ⟨0, r, s', h, hf.run hs hc h⟩

/-- A call that keeps slots and ids in agreement is one that fits. -/
lemma Keeps.fits (hs : SlotsOwned s) (hc : c.Legal) (hk : c.Keeps s) : c.Fits s := by
  obtain ⟨fuel, r, s', h, -, hs'⟩ := hk
  cases c with
  | make space smallid =>
    by_contra hf
    have hin : ¬ownsOutside space (SmallId.idx (SmallId.setValue smallid))
        (SmallId.size (SmallId.setValue smallid)) s.owner := fun hout => hf (Or.inl hout)
    have hfirst : ¬Taken space s.owner (SmallId.idx (SmallId.setValue smallid)) := fun ht =>
      hf (Or.inr (Or.inl ht))
    by_cases hfree : ∀ j < SmallId.size (SmallId.setValue smallid),
        ¬Taken space s.owner (SmallId.idx (SmallId.setValue smallid) + j)
    · have hx : SmallId.setValue smallid = smallSpaceInvalid := by
        by_contra hne
        exact hf (Or.inr (Or.inr ⟨hne, hfree⟩))
      rw [SmallCall.run, make_granted hin hfree] at h
      cases h
      -- the space owns a slot and is large
      have hd := (hs'.denotes space hc.1 (SmallId.idx (SmallId.setValue smallid))).mp
        (if_pos ⟨Nat.le_refl _, Nat.lt_add_of_pos_right SmallId.size_pos⟩)
      dsimp only at hd
      rw [Function.update_self] at hd
      exact hd.1.1 hx
    · rw [SmallCall.run, make_stuck hin hfirst (by simpa using hfree)] at h
      cases h
  | large space =>
    by_contra hf
    have hsmall : ¬SmallId.isValid (s.smallid space) := fun hv => hf (Or.inl hv)
    have hne : s.owner (SmallId.idx smallSpaceInvalid) ≠ 0 := fun h0 => hf (Or.inr h0)
    have hx : s.smallid space = smallSpaceInvalid := by
      by_contra hx
      exact hsmall ⟨hx, (hs.ids space hc).2⟩
    cases h
    -- the slot of another space has been cleared
    have hsp := (hs.slots (SmallId.idx smallSpaceInvalid)).resolve_left hne
    have hd := (hs.denotes _ hsp _).mp rfl
    have hother : s.owner (SmallId.idx smallSpaceInvalid) ≠ space := by
      intro heq
      rw [heq, hx] at hd
      exact hd.1.1 rfl
    have hd' := hs'.denotes _ hsp (SmallId.idx smallSpaceInvalid)
    rw [SlotsOwned.toLarge_owner, SlotsOwned.toLarge_smallid, if_neg hother, hx,
      if_pos ⟨Nat.le_refl _, Nat.lt_add_of_pos_right SmallId.size_pos⟩] at hd'
    exact hsp.1 (hd'.mpr hd).symm

end SmallCall

/-- The states that calls lead to, while every call fits. -/
inductive SmallRun : SmallSpaces → Prop
  | start : SmallRun ⟨fun _ => 0, fun _ => smallSpaceInvalid⟩
  | call {s s' : SmallSpaces} {c : SmallCall} {fuel : Nat} {r : Int} : SmallRun s → c.Legal →
      c.Fits s → c.run fuel s = some (r, s') → SmallRun s'

lemma SmallRun.owned {s : SmallSpaces} (h : SmallRun s) : SlotsOwned s := by
  induction h with
  | start => exact SlotsOwned.start
  | call _ hc hf hr ih => exact (hf.run ih hc hr).2

/-- **Small spaces**: while every call fits, slots and small ids agree in every state, every further
call that fits ends, and one that returns -1 changes nothing.  A call that does not fit goes wrong.
-/
theorem smallSpaces_iff (s : SmallSpaces) :
    (SmallRun s → SlotsOwned s ∧ ∀ c : SmallCall, c.Legal → c.Fits s → c.Keeps s) ∧
      ∀ c : SmallCall, SlotsOwned s → c.Legal → (c.Keeps s ↔ c.Fits s) :=
  ⟨fun h => ⟨h.owned, fun _ hc hf => hf.keeps h.owned hc⟩,
    fun _ hs hc => ⟨fun hk => hk.fits hs hc, fun hf => hf.keeps hs hc⟩⟩

instance (c : SmallCall) : Decidable c.Legal := by
  cases c <;> unfold SmallCall.Legal IsSpace <;> infer_instance

instance (c : SmallCall) (s : SmallSpaces) : Decidable (c.Fits s) := by
  cases c <;> unfold SmallCall.Fits Taken SmallId.isValid <;> infer_instance

/-- Calls that fit, with their results. -/
def fittingCalls : List SmallCall → SmallSpaces → Option (List Int × SmallSpaces)
  | [], s => some ([], s)
  | c :: cs, s =>
    if c.Legal ∧ c.Fits s then
      (c.run 0 s).bind fun r => (fittingCalls cs r.2).map fun rs => (r.1 :: rs.1, rs.2)
    else none

lemma SmallRun.fitting {cs : List SmallCall} {s : SmallSpaces} {rs : List Int × SmallSpaces}
    (h : SmallRun s) (heq : fittingCalls cs s = some rs) : SmallRun rs.2 := by
  induction cs generalizing s rs with
  | nil =>
    cases heq
    exact h
  | cons c cs ih =>
    rw [fittingCalls] at heq
    split_ifs at heq with hc
    obtain ⟨r, hr, heq⟩ := Option.bind_eq_some_iff.mp heq
    obtain ⟨rs', hrs, rfl⟩ := Option.map_eq_some_iff.mp heq
    have hrest := ih (h.call hc.1 hc.2 hr) hrs
    exact hrest

/-- Space 0x1000 gets slot 1, space 0x2000 the slots 2 and 3, and then the first one slot 0 as well;
for space 0x3000 there is nothing left there. -/
theorem smallSpaces_start : ∃ s,
    fittingCalls [.make 0x1000 3, .make 0x2000 6, .make 0x1000 2, .make 0x3000 4]
      ⟨fun _ => 0, fun _ => smallSpaceInvalid⟩ = some ([0, 0, 0, -1], s) ∧
    (List.range 5).map s.owner = [0x1000, 0x1000, 0x2000, 0x2000, 0] ∧
    SlotsOwned s ∧ (SmallCall.make 0x3000 5).Keeps s ∧ (SmallCall.large 0x2000).Keeps s := by
  have hrun : (fittingCalls [.make 0x1000 3, .make 0x2000 6, .make 0x1000 2, .make 0x3000 4]
      ⟨fun _ => 0, fun _ => smallSpaceInvalid⟩).map (fun rs => (rs.1, (List.range 5).map rs.2.owner,
        decide ((SmallCall.make 0x3000 5).Fits rs.2),
        decide ((SmallCall.large 0x2000).Fits rs.2))) =
      some ([0, 0, 0, -1], [0x1000, 0x1000, 0x2000, 0x2000, 0], true, true) := by
    decide +kernel
  obtain ⟨⟨_, s⟩, hs, heq⟩ := Option.map_eq_some_iff.mp hrun
  simp only [Prod.mk.injEq, decide_eq_true_eq] at heq
  obtain ⟨rfl, howner, hmake, hlarge⟩ := heq
  obtain ⟨howned, hkeeps⟩ := (smallSpaces_iff s).1 (SmallRun.start.fitting hs)
  exact ⟨s, hs, howner, howned, hkeeps _ (by decide) hmake, hkeeps _ (by decide) hlarge⟩

/-- A space of 4 MB at slot 1, and one of 8 MB that asks for slots 0 and 1: the call does not end.
-/
theorem makeSmallSpace_conflict :
    ∃ s, makeSmallSpace 0 0x1000 3 ⟨fun _ => 0, fun _ => smallSpaceInvalid⟩ = some (0, s) ∧
      ∀ fuel, makeSmallSpace fuel 0x2000 2 s = none := by
  have h₁ : ¬ownsOutside 0x1000 (SmallId.idx (SmallId.setValue 3))
      (SmallId.size (SmallId.setValue 3)) (fun _ => 0) := by
    rintro ⟨i, -, h0, -⟩
    exact absurd h0.symm (by decide : (0x1000 : Word) ≠ 0)
  refine ⟨_, make_granted h₁ fun j _ ht => ht.1 rfl, fun fuel => make_stuck ?_ ?_ ⟨1, ?_, ?_⟩⟩
  · rintro ⟨i, -, h0, -⟩
    dsimp only at h0
    split_ifs at h0
    · exact absurd h0 (by decide)
    · exact absurd h0 (by decide)
  · exact fun ht => ht.1 (by decide)
  · decide
  · exact ⟨by decide, by decide⟩

end Hazelnut

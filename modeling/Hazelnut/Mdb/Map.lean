import Hazelnut.Mdb.Arrays
import Hazelnut.Mdb.Safe

/-!
`mdb_map` on a database.

* `mdbMap_same`: a mapping of the same size goes right behind the node it is made from.
* `mdbMap_small`, `mdbMap_sigma0`: a mapping of a smaller size goes to the front of a chain in the
  array below, which is created if need be.
* `mdbInit_wellFormed`: the database the kernel starts with.
-/

namespace Hazelnut

open List

variable {pool : Pool} {h : Mdb} {db : Db} {r p : Word} {e f n : Ent} {pre post : List Ent}
  {a : Arr} {l : Link} {w tPg tSpace fPg : Word} {sz : Nat}

/-! ### The new node -/

/-- What `mdb_map` stores in a new mapping node but for its links. -/
def MNode.owned (n : MNode) (tSpace newdepth : Word) : MNode :=
  (n.setSpace tSpace).setDepth newdepth

lemma owned_getDepth (n : MNode) (tSpace newdepth : Word) :
    (n.owned tSpace newdepth).getDepth = newdepth &&& depthMask := Word.setField_and

lemma owned_getSpace (n : MNode) (tSpace newdepth : Word) :
    (n.owned tSpace newdepth).getSpace = tSpace &&& spaceMask := by
  simp only [MNode.owned, MNode.setDepth, MNode.getSpace]
  rw [Word.setField_and_of_disjoint (by decide)]
  exact Word.setField_and

lemma clearLocks_getDepth (n : MNode) : n.clearLocks.getDepth = n.getDepth :=
  Word.and_not_and_of_disjoint (by decide)

lemma clearLocks_getSpace (n : MNode) : n.clearLocks.getSpace = n.getSpace :=
  Word.and_not_and_of_disjoint (by decide)

lemma setNextR_getDepth (n : MNode) (d : Word) : (n.setNextR d).getDepth = n.getDepth := rfl

lemma setNextR_getSpace (n : MNode) (d : Word) : (n.setNextR d).getSpace = n.getSpace := rfl

/-- One more than a depth below 255 is again a depth. -/
lemma succ_depth {d : Word} (hd : (d &&& depthMask).toNat < 255) :
    (((d &&& depthMask) + 1) &&& depthMask).toNat = (d &&& depthMask).toNat + 1 := by
  generalize d &&& depthMask = x at hd ⊢
  have hm : depthMask.toNat = 2 ^ 8 - 1 := by decide
  rw [BitVec.toNat_and, hm, Nat.and_two_pow_sub_one_eq_mod, BitVec.toNat_add]
  have h1 : (1 : Word).toNat = 1 := by decide
  rw [h1]
  omega

/-- The memory after `mdb_alloc_buffer`. -/
lemma allocBuffer_eq {b : Buf} (hp : p ∈ (h.free b).head?) :
    h.allocBuffer b = some (p, h.take b) := by
  cases hf : h.free b with
  | nil => rw [hf] at hp; simp at hp
  | cons q qs =>
      rw [hf] at hp
      obtain rfl : q = p := by simpa using hp
      simp [Mdb.allocBuffer, Mdb.take, hf]

/-- The page table entry of a node, decoded by means of the link that leads to it. -/
def Link.pgent (n : MNode) : Link → Word
  | .root r => n.getPgentR r
  | .node q => n.getPgentM q

/-- The entry is the one the node has been linked with. -/
lemma Link.pgent_eq {n : MNode} {pg : Word} (hn : n.w1 = l.back pg) (hpg : pg &&& 3 = 0) :
    l.pgent n = pg := by
  cases l with
  | root r =>
      rw [Link.pgent, MNode.getPgentR, hn, Link.back, BitVec.xor_comm r pg]
      exact Word.xor_or_and_not (and_one_of_aligned hpg)
  | node q =>
      rw [Link.pgent, MNode.getPgentM, hn, Link.back]
      exact Word.xor_xor_left

/-- What `mdb_map` does once it knows the link `l` to hook the new node `p` in behind, what
follows it and the words of the node. -/
def hookIn (h : Mdb) (l : Link) (p : Word) (nw : MNode) (dual nmap : Word) : Mdb :=
  let h := h.setMNode p nw
  let h := if dual ≠ 0 then h.setDual dual { h.dual dual with map := p } else h.setNext p l
  if nmap ≠ 0 then h.setBack nmap (l.pgent (h.mnode nmap)) (.node p) else h

lemma hookIn_eq (hs : Links pool h db) (hr : r ∈ db.slots) (hc : db.chain r = pre ++ post)
    (hp : n.ptr ∈ h.free .mnode) (nw : MNode) :
    hookIn h (lastLink (.root r) pre) n.ptr nw (h.next (lastLink (.root r) pre)).1
      (headPtr post) = hooked h (lastLink (.root r) pre) n nw post := by
  have hne : ∀ q, lastLink (.root r) pre = .node q → q ≠ n.ptr := by
    rintro q hq rfl
    rcases lastLink_mem (l := .root r) (u := pre) with h0 | ⟨x, hx, h0⟩
    · rw [h0] at hq
      simp at hq
    · rw [h0] at hq
      exact hs.ptr_not_free (Links.mem_ents hr (by simp [hc, hx])) (Link.node.inj hq ▸ hp)
  have hnext : (h.setMNode n.ptr nw).next (lastLink (.root r) pre) =
      h.next (lastLink (.root r) pre) := by
    cases hl : lastLink (.root r) pre with
    | root r' => rfl
    | node q =>
        have hq := hne q hl
        simp [Mdb.next, mnodeNext, Mdb.setMNode, hq]
  have hred : (if (h.next (lastLink (.root r) pre)).1 ≠ 0 then
        (h.setMNode n.ptr nw).setDual (h.next (lastLink (.root r) pre)).1
          { (h.setMNode n.ptr nw).dual (h.next (lastLink (.root r) pre)).1 with map := n.ptr }
      else (h.setMNode n.ptr nw).setNext n.ptr (lastLink (.root r) pre)) =
      (h.setMNode n.ptr nw).redirect (lastLink (.root r) pre) n.ptr := by
    rw [Mdb.redirect, hnext]
  simp only [hookIn, hooked, hred]
  cases post with
  | nil => exact if_neg (by simp [headPtr])
  | cons f post =>
      have hmem : f ∈ db.ents := Links.mem_ents hr (by simp [hc])
      have hf : headPtr (f :: post) ≠ 0 := hs.ptr_ne_zero hmem
      have hfn : f.ptr ≠ n.ptr := fun heq => hs.ptr_not_free hmem (heq ▸ hp)
      have hpg : (lastLink (.root r) pre).pgent
          (((h.setMNode n.ptr nw).redirect (lastLink (.root r) pre) n.ptr).mnode f.ptr) = f.pg := by
        refine Link.pgent_eq ?_ (hs.pg f hmem)
        rw [Mdb.redirect_w1, ← (hs.entAt hr hc).back]
        simp [Mdb.setMNode, hfn]
      rw [if_pos hf, headPtr, hpg]

lemma setNext_take (b : Buf) : (h.take b).setNext p l = (h.setNext p l).take b := by
  cases l <;> rfl

lemma setBack_take (b : Buf) (pg : Word) :
    (h.take b).setBack p pg l = (h.setBack p pg l).take b := by
  cases l <;> rfl

lemma hookIn_take (b : Buf) {nw : MNode} {dual nmap : Word} :
    hookIn (h.take b) l p nw dual nmap = (hookIn h l p nw dual nmap).take b := by
  have hset : (h.take b).setMNode p nw = (h.setMNode p nw).take b := rfl
  have hlink : (if dual ≠ 0 then ((h.take b).setMNode p nw).setDual dual
        { ((h.take b).setMNode p nw).dual dual with map := p }
      else ((h.take b).setMNode p nw).setNext p l) =
      (if dual ≠ 0 then (h.setMNode p nw).setDual dual
          { (h.setMNode p nw).dual dual with map := p }
        else (h.setMNode p nw).setNext p l).take b := by
    split
    · rfl
    · rw [hset, setNext_take]
  simp only [hookIn, hlink]
  split
  · exact setBack_take ..
  · rfl

/-- A new node that is hooked in. -/
lemma hookIn_links (hs : Links pool h db) (hr : r ∈ db.slots) (hc : db.chain r = pre ++ post)
    (hp : p ∈ (h.free .mnode).head?) (hpg : tPg &&& 3 = 0) (nw : MNode) (newdepth : Word)
    (h1 : nw.w1 = (lastLink (.root r) pre).back tPg)
    (h2 : nw.getDepth = newdepth &&& depthMask) (h3 : nw.getSpace = tSpace &&& spaceMask)
    (h4 : nw.w3 = headPtr post) :
    Links pool (hookIn (h.take .mnode) (lastLink (.root r) pre) p nw
        (h.next (lastLink (.root r) pre)).1 (headPtr post))
      (db.setChain r (pre ++
        ⟨p, tPg, tSpace &&& spaceMask, (newdepth &&& depthMask).toNat⟩ :: post)) := by
  rw [hookIn_take]
  have heq := hookIn_eq (n := ⟨p, tPg, tSpace &&& spaceMask, (newdepth &&& depthMask).toNat⟩)
    hs hr hc (List.mem_of_mem_head? hp) nw
  rw [heq]
  exact hs.insert hr hc hp hpg h1 (congrArg BitVec.toNat h2) h3 h4

/-! ### Mappings of the same size -/

/-- The words of a new node below a mapping node. -/
def sameNode (h : Mdb) (p q tPg tSpace nmap : Word) : MNode :=
  ((((h.mnode p).setBacklinkM q tPg).owned tSpace ((h.mnode q).getDepth + 1)).clearLocks).setNextM
    nmap

lemma mdbMap_same_eq {q : Word} (hw : w &&& 1 = 0) (hp : p ∈ (h.free .mnode).head?) :
    mdbMap h q fPg sz w tPg sz tSpace = some (p, hookIn (h.take .mnode) (.node q) p
      (sameNode h p q tPg tSpace (mnodeNext h q).2) (mnodeNext h q).1 (mnodeNext h q).2) := by
  have hw' : ¬ w &&& 1 ≠ 0 := fun hne => hne hw
  simp only [mdbMap, if_neg hw', allocBuffer_eq hp, if_true, Option.bind_eq_bind, Option.bind_some,
    pure, Option.some.injEq, Prod.mk.injEq, true_and]
  rfl

/-- **A mapping of the same size** goes right behind the node it is made from, one deeper. -/
theorem mdbMap_same (fPg tSpace : Word) (hw : WellFormed pool h db) (hr : r ∈ db.slots)
    (hc : db.chain r = pre ++ e :: post) (hd : e.depth < 255) (hpg : tPg &&& 3 = 0)
    (hg : w &&& 1 = 0) (hp : p ∈ (h.free .mnode).head?) :
    ∃ h', mdbMap h e.ptr fPg sz w tPg sz tSpace = some (p, h') ∧
      WellFormed pool h' (db.setChain r (pre ++ e ::
        ⟨p, tPg, tSpace &&& spaceMask, e.depth + 1⟩ :: post)) := by
  have hs := hw.toLinks
  refine ⟨_, mdbMap_same_eq hg hp, ?_, ?_⟩
  · have hc' : db.chain r = (pre ++ [e]) ++ post := by simpa using hc
    have hnext := hs.next_node hr hc
    have hent := hs.entAt hr hc
    have hdep : (((h.mnode e.ptr).getDepth + 1) &&& depthMask).toNat = e.depth + 1 := by
      rw [← hent.depth]
      exact succ_depth (by have := hent.depth; rw [MNode.getDepth] at this; omega)
    have hl := hookIn_links hs hr hc' hp hpg (sameNode h p e.ptr tPg tSpace (headPtr post))
      ((h.mnode e.ptr).getDepth + 1) (by rw [lastLink_concat]; rfl)
      ((clearLocks_getDepth _).trans (owned_getDepth ..))
      ((clearLocks_getSpace _).trans (owned_getSpace ..)) rfl
    rw [lastLink_concat, hdep, List.append_assoc] at hl
    have hn : (mnodeNext h e.ptr).2 = headPtr post := hnext
    rw [hn]
    exact hl
  · refine hw.ordered.setChain fun a ha hra => ?_
    have ho := hw.ordered a ha r hra
    rw [hc] at ho
    exact ho.insert rfl

/-! ### Mappings of a smaller size -/

/-- The words of a new node below a root node. -/
def frontNode (h : Mdb) (p root tPg tSpace newdepth nmap : Word) : MNode :=
  (((h.mnode p).setBacklinkR root tPg).owned tSpace newdepth).setNextM nmap

lemma frontNode_getDepth (h : Mdb) (p root tPg tSpace newdepth nmap : Word) :
    (frontNode h p root tPg tSpace newdepth nmap).getDepth = newdepth &&& depthMask :=
  owned_getDepth ((h.mnode p).setBacklinkR root tPg) tSpace newdepth

lemma frontNode_getSpace (h : Mdb) (p root tPg tSpace newdepth nmap : Word) :
    (frontNode h p root tPg tSpace newdepth nmap).getSpace = tSpace &&& spaceMask :=
  owned_getSpace ((h.mnode p).setBacklinkR root tPg) tSpace newdepth

/-- What `mdb_map` does once it has found the root node for the new node. -/
def hookFront (h : Mdb) (p root tPg tSpace newdepth : Word) : Mdb :=
  hookIn h (.root root) p (frontNode h p root tPg tSpace newdepth (rnodeNext h root).2)
    (rnodeNext h root).1 (rnodeNext h root).2

/-- A new node in front of a chain. -/
lemma hookFront_links (hs : Links pool h db) (hr : r ∈ db.slots)
    (hp : p ∈ (h.free .mnode).head?) (hpg : tPg &&& 3 = 0) {newdepth : Word} :
    Links pool (hookFront (h.take .mnode) p r tPg tSpace newdepth) (db.setChain r
      (⟨p, tPg, tSpace &&& spaceMask, (newdepth &&& depthMask).toNat⟩ :: db.chain r)) := by
  have hn : rnodeNext (h.take .mnode) r = h.next (.root r) := Mdb.next_take (l := .root r) .mnode
  have hl := hookIn_links hs hr (List.nil_append (db.chain r)).symm hp hpg
    (frontNode h p r tPg tSpace newdepth (headPtr (db.chain r))) newdepth rfl
    (frontNode_getDepth ..) (frontNode_getSpace ..) rfl
  rw [hookFront, hn, hs.next_root hr]
  exact hl

/-! #### Creating the array -/

variable {b d : Word}

lemma clearRoots_take (c : Buf) (n : Nat) :
    clearRoots n p (h.take c) = (clearRoots n p h).take c := by
  induction n generalizing p h with
  | zero => rw [clearRoots, clearRoots]
  | succ n ih =>
      rw [clearRoots, clearRoots, ← ih]
      rfl

/-- The memory after `mdb_create_roots`. -/
def created (h : Mdb) (d b : Word) : Mdb :=
  (((clearRoots 1024 b h).setDual d { map := 0, root := b }).take .roots).take .dual

lemma mdbCreateRoots_eq (hsz : sz ≤ 1) (hb : b ∈ (h.free .roots).head?)
    (hd : d ∈ (h.free .dual).head?) : mdbCreateRoots sz h = some (d, created h d b) := by
  have ht : tableSize sz = 1024 := by
    obtain rfl | rfl : sz = 0 ∨ sz = 1 := by omega
    · rfl
    · rfl
  have hrest : ∀ g : Mdb, d ∈ (g.free .dual).head? →
      ((g.take .roots).allocBuffer .dual).bind (fun x =>
        some (x.1, x.2.setDual x.1 { map := 0, root := b })) =
      some (d, ((g.setDual d { map := 0, root := b }).take .roots).take .dual) := by
    intro g hg
    have hg' : d ∈ ((g.take .roots).free .dual).head? := by simpa [Mdb.take] using hg
    rw [allocBuffer_eq hg']
    rfl
  have hfree : d ∈ ((clearRoots 1024 b h).free .dual).head? := by simpa using hd
  simp only [mdbCreateRoots, allocBuffer_eq hb, Option.bind_eq_bind, Option.bind_some, ht,
    clearRoots_take, pure, created]
  exact hrest _ hfree

/-- The array hung off the link. -/
lemma arrayed_eq (hl : (h.next l).2 = p) : arrayed h l d b =
    ((created h d b).setDual d { (created h d b).dual d with map := p }).setNextDual d l := by
  subst hl
  have hdual : (created h d b).dual d = { map := 0, root := b } := by
    simp [created, Mdb.take, Mdb.setDual]
  have hset : (created h d b).setDual d { map := (h.next l).2, root := b } =
      (((clearRoots 1024 b h).setDual d { map := (h.next l).2, root := b }).take .roots).take
        .dual := by
    simp [created, Mdb.take, Mdb.setDual]
  have hlink : ∀ g : Mdb, ((g.take .roots).take .dual).setNextDual d l =
      ((g.setNextDual d l).take .roots).take .dual := by
    intro g
    cases l <;> rfl
  rw [hdual, hset, arrayed, hlink]

lemma arrayed_take_mnode : arrayed (h.take .mnode) l d b = (arrayed h l d b).take .mnode := by
  have hn : (h.take .mnode).next l = h.next l := Mdb.next_take .mnode
  have hcomm : ∀ g : Mdb, ((g.take .mnode).take .roots).take .dual =
      ((g.take .roots).take .dual).take .mnode := by
    intro g
    simp only [Mdb.take]
    congr 1
    funext c
    cases c <;> simp [Function.update]
  have hset : ∀ g : Mdb, (g.take .mnode).setDual d ⟨(h.next l).2, b⟩ =
      (g.setDual d ⟨(h.next l).2, b⟩).take .mnode := fun g => rfl
  have hlink : ∀ g : Mdb, (g.take .mnode).setNextDual d l = (g.setNextDual d l).take .mnode := by
    intro g
    cases l <;> rfl
  rw [arrayed, arrayed, hn, clearRoots_take, hset, hlink, hcomm]

/-- The root nodes of a new array lead nowhere. -/
lemma next_arrayed_slot {i : Nat} (hi : i < 1024) (hl : .root (slot b i) ≠ l) :
    rnodeNext (arrayed h l d b) (slot b i) = (0, 0) := by
  have h0 : ¬ (clearRoots 1024 b h).Tagged (.root (slot b i)) := not_tagged_clearRoots_slot hi
  have hn : (arrayed h l d b).next (.root (slot b i)) = (0, 0) := by
    rw [arrayed, Mdb.next_take, Mdb.next_take, Mdb.next_setNextDual_of_ne hl,
      Mdb.next_setDual_of_ne fun h => absurd h h0, next_clearRoots_slot hi]
  exact hn

lemma tableIndex_lt (addr : Word) (hsz : sz ≤ 1) : tableIndex addr sz < 1024 := by
  obtain rfl | rfl : sz = 0 ∨ sz = 1 := by omega
  · exact Nat.mod_lt _ (by decide)
  · exact Nat.mod_lt _ (by decide)

/-- The last part of `mdb_map`. -/
lemma hookFront_eq (p tPg tSpace newdepth : Word) {root dual nmap : Word}
    (hn : rnodeNext h root = (dual, nmap)) :
    (let n := (((h.mnode p).setBacklinkR root tPg).setSpace tSpace).setDepth newdepth
     let h := h.setMNode p (n.setNextM nmap)
     let h := if dual ≠ 0 then h.setDual dual { h.dual dual with map := p }
       else h.setRNode root (RNode.ptrM p)
     if nmap ≠ 0 then
       h.setMNode nmap ((h.mnode nmap).setBacklinkM p ((h.mnode nmap).getPgentR root))
     else h) = hookFront h p root tPg tSpace newdepth := by
  rw [hookFront, hn]
  rfl

/-- A smaller mapping, where the node has no array yet. -/
lemma mdbMap_small_new {q : Word} (hw : w &&& 1 = 0) (hp : p ∈ (h.free .mnode).head?)
    (hb : b ∈ (h.free .roots).head?) (hd : d ∈ (h.free .dual).head?)
    (hq : (mnodeNext h q).1 = 0) :
    mdbMap h q fPg 1 w tPg 0 tSpace = some (p, hookFront ((arrayed h (.node q) d b).take .mnode) p
      (slot b (tableIndex w 0)) tPg tSpace ((h.mnode q).getDepth + 1)) := by
  have hw' : ¬ w &&& 1 ≠ 0 := fun hne => hne hw
  have hb' : b ∈ ((h.take .mnode).free .roots).head? := by simpa [Mdb.take] using hb
  have hd' : d ∈ ((h.take .mnode).free .dual).head? := by simpa [Mdb.take] using hd
  have hn : (h.take .mnode).next (.node q) = h.next (.node q) := Mdb.next_take .mnode
  have harr := arrayed_eq (h := h.take .mnode) (l := .node q) (d := d) (b := b)
    (p := (mnodeNext h q).2) (by rw [hn]; rfl)
  have hroot : ((created (h.take .mnode) d b).setDual d
      { (created (h.take .mnode) d b).dual d with map := (mnodeNext h q).2 }).dual d =
      { map := (mnodeNext h q).2, root := b } := by
    simp [created, Mdb.take, Mdb.setDual]
  have hslot := next_arrayed_slot (h := h.take .mnode) (l := .node q) (d := d) (b := b)
    (tableIndex_lt w (Nat.zero_le 1)) (by simp)
  simp only [mdbMap, if_neg hw', allocBuffer_eq hp, Option.bind_eq_bind, Option.bind_some,
    if_neg (show ¬ (1 : Nat) = 0 by omega), if_pos (show (0 : Nat) < 1 by omega), if_pos hq,
    Nat.sub_self, mdbCreateRoots_eq (Nat.zero_le 1) hb' hd', hroot, mdbDescend, mdbIndexRoot,
    pure]
  refine congrArg (fun x => some (p, x)) ?_
  rw [← arrayed_take_mnode]
  have hlast := hookFront_eq p tPg tSpace ((h.mnode q).getDepth + 1) hslot
  rw [harr] at hlast ⊢
  exact hlast

lemma mdbDescend_self {t : Nat} {root dual nmap : Word} :
    mdbDescend w t t root dual nmap h = some (root, dual, nmap, h) := by
  cases t with
  | zero => rfl
  | succ t => exact if_neg (Nat.lt_irrefl _)

/-- A mapping of the next smaller size, where the node has an array. -/
lemma mdbMap_small_old (fPg tPg tSpace : Word) {q : Word} {t : Nat} (hw : w &&& 1 = 0)
    (hp : p ∈ (h.free .mnode).head?)
    (hq : (mnodeNext h q).1 ≠ 0) :
    mdbMap h q fPg (t + 1) w tPg t tSpace = some (p, hookFront (h.take .mnode) p
      (slot (h.dual (mnodeNext h q).1).root (tableIndex w t)) tPg tSpace
      ((h.mnode q).getDepth + 1)) := by
  have hw' : ¬ w &&& 1 ≠ 0 := fun hne => hne hw
  have hd : (h.take .mnode).dual = h.dual := rfl
  simp only [mdbMap, if_neg hw', allocBuffer_eq hp, Option.bind_eq_bind, Option.bind_some,
    if_neg (show ¬ t + 1 = t by omega), if_pos (show t < t + 1 by omega), if_neg hq,
    Nat.add_sub_cancel, mdbDescend_self, mdbIndexRoot, pure, hd]
  refine congrArg (fun x => some (p, x)) ?_
  exact hookFront_eq p tPg tSpace ((h.mnode q).getDepth + 1) rfl

/-- A small mapping made from the root, where the large page has an array. -/
lemma mdbMap_tiny_old (fPg tPg tSpace : Word) {q root : Word} (hw : w &&& 1 = 0)
    (hp : p ∈ (h.free .mnode).head?)
    (hq : (mnodeNext h q).1 ≠ 0)
    (hroot : slot (h.dual (mnodeNext h q).1).root (tableIndex w 1) = root)
    (hr : (rnodeNext h root).1 ≠ 0) :
    mdbMap h q fPg 2 w tPg 0 tSpace = some (p, hookFront (h.take .mnode) p
      (slot (h.dual (rnodeNext h root).1).root (tableIndex w 0)) tPg tSpace
      ((h.mnode q).getDepth + 1)) := by
  have hw' : ¬ w &&& 1 ≠ 0 := fun hne => hne hw
  have hd : (h.take .mnode).dual = h.dual := rfl
  have hn : rnodeNext (h.take .mnode) root = rnodeNext h root :=
    Mdb.next_take (l := .root root) .mnode
  simp only [mdbMap, if_neg hw', allocBuffer_eq hp, Option.bind_eq_bind, Option.bind_some,
    if_neg (show ¬ (2 : Nat) = 0 by omega), if_pos (show (0 : Nat) < 2 by omega), if_neg hq,
    mdbIndexRoot, pure, hd, hroot, hn, show (2 : Nat) - 1 = 0 + 1 by omega, mdbDescend,
    if_pos (show (0 : Nat) < 0 + 1 by omega), if_neg hr]
  refine congrArg (fun x => some (p, x)) ?_
  exact hookFront_eq p tPg tSpace ((h.mnode q).getDepth + 1) rfl

/-- A small mapping made from the root, where the large page has no array yet. -/
lemma mdbMap_tiny_new (fPg tPg tSpace : Word) {q root : Word} (hw : w &&& 1 = 0)
    (hp : p ∈ (h.free .mnode).head?)
    (hb : b ∈ (h.free .roots).head?) (hd : d ∈ (h.free .dual).head?)
    (hq : (mnodeNext h q).1 ≠ 0)
    (hroot : slot (h.dual (mnodeNext h q).1).root (tableIndex w 1) = root)
    (hun : ¬ (h.rnode root).isNextRoot) (hrb : ∀ i < 1024, slot b i ≠ root) :
    mdbMap h q fPg 2 w tPg 0 tSpace = some (p, hookFront
      ((arrayed h (.root root) d b).take .mnode) p (slot b (tableIndex w 0)) tPg tSpace
      ((h.mnode q).getDepth + 1)) := by
  have hw' : ¬ w &&& 1 ≠ 0 := fun hne => hne hw
  have hdual : (h.take .mnode).dual = h.dual := rfl
  have hn : rnodeNext (h.take .mnode) root = rnodeNext h root :=
    Mdb.next_take (l := .root root) .mnode
  have hb' : b ∈ ((h.take .mnode).free .roots).head? := by simpa [Mdb.take] using hb
  have hd' : d ∈ ((h.take .mnode).free .dual).head? := by simpa [Mdb.take] using hd
  have hmap : (rnodeNext h root).2 = ((created (h.take .mnode) d b).rnode root).getMap := by
    have hc : (created (h.take .mnode) d b).rnode root = h.rnode root := by
      simp only [created, Mdb.take, Mdb.setDual]
      exact clearRoots_of_ne fun i hi heq => hrb i hi heq.symm
    rw [hc]
    simp [rnodeNext, hun]
  have harr := arrayed_eq (h := h.take .mnode) (l := .root root) (d := d) (b := b)
    (p := ((created (h.take .mnode) d b).rnode root).getMap) (by rw [← hmap, ← hn]; rfl)
  have hr : (rnodeNext h root).1 = 0 := by simp [rnodeNext, hun]
  have hdroot : ((created (h.take .mnode) d b).setDual d
      { (created (h.take .mnode) d b).dual d with
        map := ((created (h.take .mnode) d b).rnode root).getMap }).dual d =
      { map := ((created (h.take .mnode) d b).rnode root).getMap, root := b } := by
    simp [created, Mdb.take, Mdb.setDual]
  have hset : ∀ g : Mdb, (g.setRNode root (RNode.ptrR d)).dual = g.dual := fun _ => rfl
  have hlink : ∀ g : Mdb, g.setNextDual d (.root root) = g.setRNode root (RNode.ptrR d) :=
    fun _ => rfl
  rw [hlink] at harr
  simp only [mdbMap, if_neg hw', allocBuffer_eq hp, Option.bind_eq_bind, Option.bind_some,
    if_neg (show ¬ (2 : Nat) = 0 by omega), if_pos (show (0 : Nat) < 2 by omega), if_neg hq,
    mdbIndexRoot, pure, hdual, hroot, hn, show (2 : Nat) - 1 = 0 + 1 by omega, mdbDescend,
    if_pos (show (0 : Nat) < 0 + 1 by omega), if_pos hr,
    mdbCreateRoots_eq (Nat.zero_le 1) hb' hd', hset, hdroot]
  refine congrArg (fun x => some (p, x)) ?_
  rw [← arrayed_take_mnode, ← harr]
  exact hookFront_eq p tPg tSpace ((h.mnode q).getDepth + 1) rfl

/-! #### The database after a smaller mapping -/

/-- The array below the link `l`, in the database once it has been created if need be. -/
inductive Db.Below (db : Db) (l : Link) (a : Arr) : Db → Prop
  | old (ha : a ∈ db.arrs) (hl : a.link = l) : Below db l a db
  | new (hl : a.link = l) (hn : ∀ x ∈ db.arrs, x.link ≠ l) (hr : ∀ r ∈ a.slots, r ∉ db.slots) :
      Below db l a (db.addArr a)

/-- A node of the next depth in front of a chain whose array lies at `a.depth`. -/
lemma hookFront_wellFormed (tSpace newdepth : Word) (hw : WellFormed pool h db)
    (ha : a ∈ db.arrays) {i : Nat} (hi : i < 1024) (hp : p ∈ (h.free .mnode).head?)
    (hpg : tPg &&& 3 = 0) (hd : (newdepth &&& depthMask).toNat = a.depth + 1) :
    WellFormed pool (hookFront (h.take .mnode) p (slot a.base i) tPg tSpace newdepth)
      (db.setChain (slot a.base i)
        (⟨p, tPg, tSpace &&& spaceMask, a.depth + 1⟩ :: db.chain (slot a.base i))) := by
  have hr : slot a.base i ∈ a.slots := slot_mem hi
  refine ⟨?_, hw.ordered.setChain fun x hx hrx => ?_⟩
  · rw [← hd]
    exact hookFront_links hw.toLinks (Links.mem_slots ha hr) hp hpg
  · obtain rfl := hw.arr_unique hx ha hrx hr
    exact (hw.ordered x hx _ hrx).insert_front rfl

/-- The depth of a new node, for a node of depth below 255. -/
lemma newdepth_eq (hs : Links pool h db) (hr : r ∈ db.slots)
    (hc : db.chain r = pre ++ e :: post) (hd : e.depth < 255) :
    (((h.mnode e.ptr).getDepth + 1) &&& depthMask).toNat = e.depth + 1 := by
  have hent := hs.entAt hr hc
  rw [← hent.depth]
  exact succ_depth (by have := hent.depth; rw [MNode.getDepth] at this; omega)

/-- An array below a node of a chain has the depth of the node. -/
lemma Links.depth_arr (hs : Links pool h db) (hr : r ∈ db.slots) (he : e ∈ db.chain r)
    (ha : a ∈ db.arrs) (hl : a.link = .node e.ptr) : a.depth = e.depth := by
  obtain ⟨r', hr', hcase⟩ := hs.link a ha
  rcases hcase with ⟨heq, -⟩ | ⟨x, hx, heq, hdx⟩
  · rw [hl] at heq
    simp at heq
  · rw [hdx, hs.ptr_inj (Links.mem_ents (Links.mem_top_slots hr') hx) (Links.mem_ents hr he)
      (Link.node.inj (heq.symm.trans hl))]

/-- The array is there already. -/
lemma mdbMap_small_tagged (fPg tSpace : Word) (hw : WellFormed pool h db) (hr : r ∈ db.slots)
    (hc : db.chain r = pre ++ e :: post) (hd : e.depth < 255) (hpg : tPg &&& 3 = 0)
    (hg : w &&& 1 = 0) (hp : p ∈ (h.free .mnode).head?) (ht : h.Tagged (.node e.ptr)) :
    ∃ h' a, mdbMap h e.ptr fPg 1 w tPg 0 tSpace = some (p, h') ∧
      db.Below (.node e.ptr) a db ∧ a.depth = e.depth ∧
      WellFormed pool h' (db.setChain (slot a.base (tableIndex w 0))
        (⟨p, tPg, tSpace &&& spaceMask, e.depth + 1⟩ ::
          db.chain (slot a.base (tableIndex w 0)))) := by
  have hs := hw.toLinks
  have hmem : e ∈ db.chain r := by simp [hc]
  obtain ⟨a, ha, hl⟩ := hs.owner r hr _ (Db.mem_chainLinks hmem) ht
  have ha' : a ∈ db.arrays := List.mem_cons_of_mem _ ha
  have hdual : (mnodeNext h e.ptr).1 = a.dual := by
    have := hs.dual a ha'
    rwa [hl] at this
  have hdep : a.depth = e.depth := hs.depth_arr hr hmem ha hl
  have hmap := mdbMap_small_old fPg tPg tSpace (t := 0) hg hp
    (by rw [hdual]; exact hs.dual_ne_zero ha')
  rw [hdual, hs.base a ha'] at hmap
  refine ⟨_, a, hmap, .old ha hl, hdep, ?_⟩
  rw [← hdep]
  exact hookFront_wellFormed _ _ hw ha' (tableIndex_lt w (Nat.zero_le 1)) hp hpg
    (by rw [newdepth_eq hs hr hc hd, hdep])

/-- **A mapping of a smaller size** goes to the front of a chain in the array below the node
it is made from. -/
theorem mdbMap_small (fPg tSpace : Word) (hw : WellFormed pool h db) (hr : r ∈ db.top.slots)
    (hc : db.chain r = pre ++ e :: post) (hd : e.depth < 255) (hpg : tPg &&& 3 = 0)
    (hg : w &&& 1 = 0) (hp : p ∈ (h.free .mnode).head?) (hb : b ∈ (h.free .roots).head?)
    (hdl : d ∈ (h.free .dual).head?) :
    ∃ h' a db', mdbMap h e.ptr fPg 1 w tPg 0 tSpace = some (p, h') ∧
      db.Below (.node e.ptr) a db' ∧ a.depth = e.depth ∧
      WellFormed pool h' (db'.setChain (slot a.base (tableIndex w 0))
        (⟨p, tPg, tSpace &&& spaceMask, e.depth + 1⟩ ::
          db'.chain (slot a.base (tableIndex w 0)))) := by
  have hs := hw.toLinks
  have hrs := Links.mem_top_slots hr
  by_cases ht : h.Tagged (.node e.ptr)
  · obtain ⟨h', a, hmap, hbelow, hdep, hw'⟩ :=
      mdbMap_small_tagged fPg tSpace hw hrs hc hd hpg hg hp ht
    exact ⟨h', a, db, hmap, hbelow, hdep, hw'⟩
  · have hz : (mnodeNext h e.ptr).1 = 0 := Mdb.next_fst_of_not_tagged ht
    have hnew : ∀ x ∈ (⟨.node e.ptr, d, b, e.depth⟩ : Arr).slots, x ∉ db.slots := by
      intro x hx
      obtain ⟨i, hi, rfl⟩ := Arr.mem_slots.mp hx
      exact hs.new_slot_not_mem hb hi
    have hw' : WellFormed pool (arrayed h (.node e.ptr) d b)
        (db.addArr ⟨.node e.ptr, d, b, e.depth⟩) :=
      ⟨hs.addArray hr (.inr ⟨e, by simp [hc], rfl, rfl⟩) ht hb hdl, hw.ordered.addArr hnew⟩
    refine ⟨_, ⟨.node e.ptr, d, b, e.depth⟩, _, mdbMap_small_new hg hp hb hdl hz,
      .new rfl (fun x hx heq => ht (heq ▸ hs.tagged_of_arr (List.mem_cons_of_mem _ hx))) hnew,
      rfl, ?_⟩
    refine hookFront_wellFormed (a := ⟨.node e.ptr, d, b, e.depth⟩) _ _ hw'
      (List.mem_cons_of_mem _ List.mem_cons_self) (tableIndex_lt w (Nat.zero_le 1)) ?_ hpg
      (newdepth_eq hs hrs hc hd)
    simpa [arrayed, Mdb.take, Mdb.setDual] using hp

/-- The array of `sigma0_mapnode`, as the code finds it. -/
lemma Links.next_sigma0 (hs : Links pool h db) :
    (mnodeNext h pool.sigma0).1 = db.top.dual ∧ (mnodeNext h pool.sigma0).1 ≠ 0 ∧
      (h.dual (mnodeNext h pool.sigma0).1).root = db.top.base := by
  have htop : db.top ∈ db.arrays := List.mem_cons_self
  have hdual : (mnodeNext h pool.sigma0).1 = db.top.dual := by
    have := hs.dual _ htop
    rwa [hs.top_link] at this
  rw [hdual]
  exact ⟨rfl, hs.dual_ne_zero htop, hs.base _ htop⟩

/-- **A mapping from the root** of the larger size goes to the front of a chain of the top
array. -/
theorem mdbMap_sigma0 (fPg tSpace : Word) (hw : WellFormed pool h db) (hpg : tPg &&& 3 = 0)
    (hg : w &&& 1 = 0)
    (hp : p ∈ (h.free .mnode).head?) :
    ∃ h', mdbMap h pool.sigma0 fPg 2 w tPg 1 tSpace = some (p, h') ∧
      WellFormed pool h' (db.setChain (slot db.top.base (tableIndex w 1))
        (⟨p, tPg, tSpace &&& spaceMask, 1⟩ :: db.chain (slot db.top.base (tableIndex w 1)))) := by
  have hs := hw.toLinks
  have htop : db.top ∈ db.arrays := List.mem_cons_self
  obtain ⟨-, hne, hbase⟩ := hs.next_sigma0
  have hmap := mdbMap_small_old fPg tPg tSpace (t := 1) hg hp hne
  rw [hbase, hs.sigma0_depth] at hmap
  refine ⟨_, hmap, ?_⟩
  have hwf := hookFront_wellFormed tSpace (0 + 1) hw htop
    (tableIndex_lt w le_rfl) hp hpg (by rw [hs.top_depth]; decide)
  rw [hs.top_depth] at hwf
  exact hwf

/-- A mapping of the smaller size made from the root, where the root node of the large page
has an array. -/
lemma mdbMap_tiny_tagged (fPg tSpace : Word) (hw : WellFormed pool h db) (hpg : tPg &&& 3 = 0)
    (hg : w &&& 1 = 0) (hp : p ∈ (h.free .mnode).head?)
    (ht : h.Tagged (.root (slot db.top.base (tableIndex w 1)))) :
    ∃ h' a, mdbMap h pool.sigma0 fPg 2 w tPg 0 tSpace = some (p, h') ∧
      db.Below (.root (slot db.top.base (tableIndex w 1))) a db ∧ a.depth = 0 ∧
      WellFormed pool h' (db.setChain (slot a.base (tableIndex w 0))
        (⟨p, tPg, tSpace &&& spaceMask, 1⟩ :: db.chain (slot a.base (tableIndex w 0)))) := by
  have hs := hw.toLinks
  obtain ⟨-, hne, hbase⟩ := hs.next_sigma0
  have hr : slot db.top.base (tableIndex w 1) ∈ db.slots :=
    Links.mem_top_slots (slot_mem (tableIndex_lt w le_rfl))
  obtain ⟨a, ha, hl⟩ := hs.owner _ hr _ List.mem_cons_self ht
  have ha' : a ∈ db.arrays := List.mem_cons_of_mem _ ha
  have hdual : (rnodeNext h (slot db.top.base (tableIndex w 1))).1 = a.dual := by
    have := hs.dual a ha'
    rwa [hl] at this
  have hdep : a.depth = 0 := by
    obtain ⟨r', hr', hcase⟩ := hs.link a ha
    rcases hcase with ⟨-, hd⟩ | ⟨x, -, heq, -⟩
    · exact hd
    · rw [hl] at heq
      simp at heq
  have hmap := mdbMap_tiny_old fPg tPg tSpace hg hp hne
    (congrArg (fun x => slot x (tableIndex w 1)) hbase) (by rw [hdual]; exact hs.dual_ne_zero ha')
  rw [hdual, hs.base a ha', hs.sigma0_depth] at hmap
  refine ⟨_, a, hmap, .old ha hl, hdep, ?_⟩
  have hwf := hookFront_wellFormed tSpace (0 + 1) hw ha' (tableIndex_lt w (Nat.zero_le 1)) hp hpg
    (by rw [hdep]; decide)
  rw [hdep] at hwf
  exact hwf

/-- The same, where the array has to be created. -/
lemma mdbMap_tiny_untagged (fPg tSpace : Word) (hw : WellFormed pool h db) (hpg : tPg &&& 3 = 0)
    (hg : w &&& 1 = 0) (hp : p ∈ (h.free .mnode).head?) (hb : b ∈ (h.free .roots).head?)
    (hdl : d ∈ (h.free .dual).head?)
    (ht : ¬ h.Tagged (.root (slot db.top.base (tableIndex w 1)))) :
    ∃ h' a db', mdbMap h pool.sigma0 fPg 2 w tPg 0 tSpace = some (p, h') ∧
      db.Below (.root (slot db.top.base (tableIndex w 1))) a db' ∧ a.depth = 0 ∧
      WellFormed pool h' (db'.setChain (slot a.base (tableIndex w 0))
        (⟨p, tPg, tSpace &&& spaceMask, 1⟩ :: db'.chain (slot a.base (tableIndex w 0)))) := by
  have hs := hw.toLinks
  obtain ⟨-, hne, hbase⟩ := hs.next_sigma0
  have hr : slot db.top.base (tableIndex w 1) ∈ db.top.slots := slot_mem (tableIndex_lt w le_rfl)
  generalize hroot : slot db.top.base (tableIndex w 1) = root at ht hr ⊢
  have hnew : ∀ x ∈ (⟨.root root, d, b, 0⟩ : Arr).slots, x ∉ db.slots := by
    intro x hx
    obtain ⟨i, hi, rfl⟩ := Arr.mem_slots.mp hx
    exact hs.new_slot_not_mem hb hi
  have hw' : WellFormed pool (arrayed h (.root root) d b) (db.addArr ⟨.root root, d, b, 0⟩) :=
    ⟨hs.addArray hr (.inl ⟨rfl, rfl⟩) ht hb hdl, hw.ordered.addArr hnew⟩
  have hmap := mdbMap_tiny_new fPg tPg tSpace hg hp hb hdl hne
    (by rw [hbase]; exact hroot) ht
    (fun i hi heq => hs.new_slot_not_mem hb hi (heq ▸ Links.mem_top_slots hr))
  rw [hs.sigma0_depth] at hmap
  refine ⟨_, ⟨.root root, d, b, 0⟩, _, hmap,
    .new rfl (fun x hx heq => ht (heq ▸ hs.tagged_of_arr (List.mem_cons_of_mem _ hx))) hnew,
    rfl, ?_⟩
  refine hookFront_wellFormed (a := ⟨.root root, d, b, 0⟩) _ _ hw'
    (List.mem_cons_of_mem _ List.mem_cons_self) (tableIndex_lt w (Nat.zero_le 1)) ?_ hpg
    (show ((0 + 1 : Word) &&& depthMask).toNat = 0 + 1 by decide)
  simpa [arrayed, Mdb.take, Mdb.setDual] using hp

/-! ### The database the kernel starts with -/

/-- The memory before `mdb_init`: all buffers are free. -/
structure Fresh (pool : Pool) (h : Mdb) : Prop where
  sigma0 : h.sigma0Mapnode = pool.sigma0
  free : ∀ c, h.free c = pool.bufs c

/-- The database with nothing in it. -/
def Db.initial (pool : Pool) (d b : Word) : Db where
  top := ⟨.node pool.sigma0, d, b, 0⟩
  arrs := []
  chain := fun _ => []

lemma Db.initial_slots : (Db.initial pool d b).slots = (Db.initial pool d b).top.slots := by
  simp only [Db.slots, Db.arrays, Db.initial, List.flatMap_cons, List.flatMap_nil, List.append_nil]

lemma Db.initial_ents : (Db.initial pool d b).ents = [] := by
  rw [Db.ents, List.flatMap_eq_nil_iff]
  exact fun _ _ => rfl

lemma Mdb.setMNode_sigma0 (n : MNode) :
    (h.setMNode p n).sigma0Mapnode = h.sigma0Mapnode := rfl

lemma Mdb.next_root_setMNode (n : MNode) :
    (h.setMNode p n).next (.root r) = h.next (.root r) := rfl

lemma Mdb.tagged_root_setMNode (n : MNode) :
    (h.setMNode p n).Tagged (.root r) ↔ h.Tagged (.root r) := Iff.rfl

/-- A memory with one array, whose root nodes lead nowhere, holds the empty database. -/
lemma initial_wellFormed (hσ : h.sigma0Mapnode = pool.sigma0)
    (hback : (h.mnode pool.sigma0).w1 = 0) (hdep : (h.mnode pool.sigma0).getDepth = 0)
    (hsp : (h.mnode pool.sigma0).getSpace = 0) (hnext : h.next (.node pool.sigma0) = (d, 0))
    (hzero : ∀ i < 1024, h.next (.root (slot b i)) = (0, 0))
    (hun : ∀ i < 1024, ¬ h.Tagged (.root (slot b i))) (hbase : (h.dual d).root = b)
    (hm : h.free .mnode ~ pool.bufs .mnode) (hd : d :: h.free .dual ~ pool.bufs .dual)
    (hb : b :: h.free .roots ~ pool.bufs .roots) : WellFormed pool h (Db.initial pool d b) := by
  have hslot : ∀ r ∈ (Db.initial pool d b).slots, ∃ i < 1024, r = slot b i := by
    intro r hr
    rw [Db.initial_slots] at hr
    exact Arr.mem_slots.mp hr
  refine
    { sigma0 := hσ
      sigma0_back := hback
      sigma0_depth := hdep
      sigma0_space := hsp
      sigma0_next := by rw [hnext]
      top_link := rfl
      top_depth := rfl
      path := fun _ _ => trivial
      path_end := fun r hr => ?_
      dual := fun a ha => ?_
      base := fun a ha => ?_
      owner := fun r hr l hl ht => ?_
      link := fun a ha => absurd ha List.not_mem_nil
      pg := fun e he => ?_
      mnodes := ?_
      duals := hd
      roots := hb
      ordered := fun _ _ _ _ => trivial }
  · obtain ⟨i, hi, rfl⟩ := hslot r hr
    exact congrArg Prod.snd (hzero i hi)
  · obtain rfl := List.mem_singleton.mp ha
    exact congrArg Prod.fst hnext
  · obtain rfl := List.mem_singleton.mp ha
    exact hbase
  · obtain rfl := List.mem_singleton.mp hl
    obtain ⟨i, hi, rfl⟩ := hslot r hr
    exact absurd ht (hun i hi)
  · rw [Db.initial_ents] at he
    exact absurd he List.not_mem_nil
  · rw [Db.initial_ents]
    exact hm

/-- **`mdb_init`** leaves a well-formed database. -/
theorem mdbInit_wellFormed (hf : Fresh pool h) (hb : b ∈ (h.free .roots).head?)
    (hd : d ∈ (h.free .dual).head?) :
    ∃ h', mdbInit h = some h' ∧ WellFormed pool h' (Db.initial pool d b) := by
  have hdal : d &&& 3 = 0 := by
    refine pool.aligned .dual d ?_
    rw [← hf.free]
    exact List.mem_of_mem_head? hd
  have hcons : ∀ c p, p ∈ (h.free c).head? → p :: (h.free c).tail = pool.bufs c := by
    intro c p hp
    rw [← hf.free]
    cases hc : h.free c with
    | nil => rw [hc] at hp; simp at hp
    | cons q qs =>
        rw [hc] at hp
        obtain rfl : q = p := by simpa using hp
        rfl
  have hσ : (created h d b).sigma0Mapnode = pool.sigma0 := by
    simpa [created, Mdb.take, Mdb.setDual] using hf.sigma0
  have hdual : (created h d b).dual d = { map := 0, root := b } := by
    simp [created, Mdb.take, Mdb.setDual]
  have hfree : (created h d b).free .mnode = pool.bufs .mnode ∧
      (created h d b).free .dual = (h.free .dual).tail ∧
      (created h d b).free .roots = (h.free .roots).tail := by
    simp [created, Mdb.take, Mdb.setDual, hf.free]
  have htag : ∀ i < 1024, ¬ (created h d b).Tagged (.root (slot b i)) := by
    intro i hi
    rw [created, Mdb.tagged_take, Mdb.tagged_take, Mdb.tagged_setDual]
    exact not_tagged_clearRoots_slot hi
  have hzero : ∀ i < 1024, (created h d b).next (.root (slot b i)) = (0, 0) := by
    intro i hi
    have h0 : ¬ (clearRoots 1024 b h).Tagged (.root (slot b i)) := not_tagged_clearRoots_slot hi
    rw [created, Mdb.next_take, Mdb.next_take, Mdb.next_setDual_of_ne fun h => absurd h h0,
      next_clearRoots_slot hi]
  rw [mdbInit, mdbCreateRoots_eq le_rfl hb hd]
  -- from here on only these facts about the memory matter
  revert hσ hdual hfree htag hzero
  generalize created h d b = g
  intro hσ hdual hfree htag hzero
  simp only [Option.bind_eq_bind, Option.bind_some, hσ, pure]
  refine ⟨_, rfl, ?_⟩
  apply initial_wellFormed
  · rw [Mdb.setMNode_sigma0]
    exact hσ
  · simp [Mdb.setMNode, MNode.setNextR, MNode.clearLocks, MNode.setDepth, MNode.setSpace,
      MNode.setBacklinkM]
  · simp only [Mdb.setMNode, Function.update_self]
    rw [setNextR_getDepth, clearLocks_getDepth, ← MNode.owned, owned_getDepth]
    rfl
  · simp only [Mdb.setMNode, Function.update_self]
    rw [setNextR_getSpace, clearLocks_getSpace, ← MNode.owned, owned_getSpace]
    rfl
  · have ht : (d ||| 1) &&& 1 ≠ 0 := by
      rw [show (d ||| 1) &&& 1 = 1 from Word.or_and_self]
      decide
    have hg : (d ||| 1) &&& ~~~1 = d := Word.or_and_not (and_one_of_aligned hdal) (by decide)
    simp only [Mdb.next, mnodeNext, Mdb.setMNode, Function.update_self, MNode.isNextRoot,
      MNode.setNextR, MNode.getNext, if_pos ht, hg, hdual]
  · intro i hi
    rw [Mdb.next_root_setMNode]
    exact hzero i hi
  · intro i hi
    rw [Mdb.tagged_root_setMNode]
    exact htag i hi
  · simp [Mdb.setMNode, hdual]
  · simp only [Mdb.setMNode, hfree.1]
    exact List.Perm.refl _
  · have hd' := hcons .dual d hd
    simp only [Mdb.setMNode, hfree.2.1, hd']
    exact List.Perm.refl _
  · have hb' := hcons .roots b hb
    simp only [Mdb.setMNode, hfree.2.2, hb']
    exact List.Perm.refl _

end Hazelnut

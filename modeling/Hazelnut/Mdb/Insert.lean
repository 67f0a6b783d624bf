import Hazelnut.Mdb.Walk

/-!
New nodes and new arrays.

* `Mdb.redirect`: a link is made to lead to another mapping node, through its dual node
  if it has one.
* `Links.insert`: hooking a new mapping node in behind a link.
* `Links.addArray`: a root array below a link that has none.
* `Links.grant`: a mapping node changes hands.
-/

namespace Hazelnut

open List

variable {pool : Pool} {h h' : Mdb} {db : Db} {r : Word} {e f n : Ent} {pre post : List Ent}
  {l k : Link} {p q : Word} {a : Arr}

/-! ### Redirecting a link -/

namespace Mdb

/-- `dual->map = p` if the link has a dual node, else `set_next` or `set_ptr`. -/
def redirect (h : Mdb) (l : Link) (p : Word) : Mdb :=
  if (h.next l).1 ≠ 0 then h.setDual (h.next l).1 { h.dual (h.next l).1 with map := p }
  else h.setNext p l

lemma next_of_tagged (ht : h.Tagged l) : (h.next l).2 = (h.dual (h.next l).1).map := by
  cases l with
  | root r => simp only [Tagged] at ht; simp [next, rnodeNext, ht]
  | node p => simp only [Tagged] at ht; simp [next, mnodeNext, ht]

lemma next_setDual_fst (d : Word) (x : DualNode) : ((h.setDual d x).next l).1 = (h.next l).1 := by
  cases l with
  | root r =>
      by_cases hr : (h.rnode r).isNextRoot
      · simp [next, rnodeNext, setDual, hr]
      · simp [next, rnodeNext, setDual, hr]
  | node p =>
      by_cases hp : (h.mnode p).isNextRoot
      · simp [next, mnodeNext, setDual, hp]
      · simp [next, mnodeNext, setDual, hp]

@[simp] lemma tagged_setDual (d : Word) (x : DualNode) :
    (h.setDual d x).Tagged l ↔ h.Tagged l := by
  cases l <;> rfl

lemma next_setDual_self (ht : h.Tagged l) (x : DualNode) :
    ((h.setDual (h.next l).1 x).next l).2 = x.map := by
  rw [next_of_tagged (by simpa using ht), next_setDual_fst]
  simp [setDual]

lemma next_setDual_of_ne {d : Word} (hd : h.Tagged l → (h.next l).1 ≠ d) (x : DualNode) :
    (h.setDual d x).next l = h.next l := by
  refine Prod.ext (next_setDual_fst ..) ?_
  by_cases ht : h.Tagged l
  · rw [next_of_tagged (by simpa using ht), next_setDual_fst, next_of_tagged ht]
    simp [setDual, hd ht]
  · cases l with
    | root r => simp only [Tagged] at ht; simp [next, rnodeNext, setDual, ht]
    | node p => simp only [Tagged] at ht; simp [next, mnodeNext, setDual, ht]

lemma next_redirect (hp : p &&& 3 = 0) : (h.redirect l p).next l = ((h.next l).1, p) := by
  unfold redirect
  split
  · rename_i hd
    have ht : h.Tagged l := by
      by_contra hn
      exact hd (next_fst_of_not_tagged hn)
    refine Prod.ext ?_ ?_
    · rw [next_setDual_fst]
    · exact next_setDual_self ht _
  · rename_i hd
    rw [next_setNext hp, not_not.mp hd]

/-- Links with other dual nodes are kept. -/
lemma next_redirect_of_ne (hk : k ≠ l)
    (hd : h.Tagged k → h.Tagged l → (h.next k).1 ≠ (h.next l).1) :
    (h.redirect l p).next k = h.next k := by
  unfold redirect
  split
  · rename_i hl
    have ht : h.Tagged l := by
      by_contra hn
      exact hl (next_fst_of_not_tagged hn)
    exact next_setDual_of_ne (fun hk => hd hk ht) _
  · exact next_setNext_of_ne hk

lemma tagged_redirect (hp : p &&& 3 = 0) (hl : h.Tagged l → (h.next l).1 ≠ 0) :
    (h.redirect l p).Tagged k ↔ h.Tagged k := by
  unfold redirect
  split
  · exact tagged_setDual ..
  · rename_i hd
    have hn : ¬ h.Tagged l := fun ht => hd (hl ht)
    by_cases hk : k = l
    · subst hk
      exact ⟨fun ht => absurd ht (not_tagged_setNext hp k), fun ht => absurd ht hn⟩
    · exact tagged_setNext_of_ne hk

@[simp] lemma redirect_w1 : ((h.redirect l p).mnode q).w1 = (h.mnode q).w1 := by
  unfold redirect
  split
  · rfl
  · simp

@[simp] lemma redirect_w2 : ((h.redirect l p).mnode q).w2 = (h.mnode q).w2 := by
  unfold redirect
  split
  · rfl
  · simp

@[simp] lemma redirect_free : (h.redirect l p).free = h.free := by
  unfold redirect
  split
  · rfl
  · simp

@[simp] lemma redirect_sigma0 : (h.redirect l p).sigma0Mapnode = h.sigma0Mapnode := by
  unfold redirect
  split
  · rfl
  · simp

@[simp] lemma redirect_root (d : Word) : ((h.redirect l p).dual d).root = (h.dual d).root := by
  unfold redirect
  split
  · by_cases hd : d = (h.next l).1
    · subst hd; simp [setDual]
    · simp [setDual, hd]
  · simp

/-- `mdb_alloc_buffer` takes the first free buffer. -/
def take (h : Mdb) (b : Buf) : Mdb := { h with free := Function.update h.free b (h.free b).tail }

@[simp] lemma next_take (b : Buf) : (h.take b).next l = h.next l := by cases l <;> rfl

@[simp] lemma tagged_take (b : Buf) : (h.take b).Tagged l ↔ h.Tagged l := by cases l <;> rfl

end Mdb

/-! ### Hooking in a node -/

/-- The memory after the node `n`, whose words are `w`, has been hooked in between the
link `l` and `post`. -/
def hooked (h : Mdb) (l : Link) (n : Ent) (w : MNode) (post : List Ent) : Mdb :=
  let h := (h.setMNode n.ptr w).redirect l n.ptr
  match post with
  | [] => h
  | f :: _ => h.setBack f.ptr f.pg (.node n.ptr)

section hooked

variable {w : MNode}

lemma hooked_next_eq (k : Link) :
    (hooked h l n w post).next k = ((h.setMNode n.ptr w).redirect l n.ptr).next k := by
  cases post <;> simp [hooked]

lemma hooked_tagged (k : Link) : (hooked h l n w post).Tagged k ↔
    ((h.setMNode n.ptr w).redirect l n.ptr).Tagged k := by
  cases post <;> simp [hooked]

lemma hooked_w2 (q : Word) :
    ((hooked h l n w post).mnode q).w2 = ((h.setMNode n.ptr w).mnode q).w2 := by
  cases post <;> simp [hooked]

lemma hooked_w1 {q : Word} (hq : ∀ f ∈ post.head?, q ≠ f.ptr) :
    ((hooked h l n w post).mnode q).w1 = ((h.setMNode n.ptr w).mnode q).w1 := by
  cases post with
  | nil => simp [hooked]
  | cons f post =>
      have hne : q ≠ f.ptr := hq f (by simp)
      simp [hooked, Mdb.setBack_mnode_of_ne hne]

@[simp] lemma hooked_free : (hooked h l n w post).free = h.free := by
  cases post <;> simp [hooked, Mdb.setMNode]

@[simp] lemma hooked_sigma0 : (hooked h l n w post).sigma0Mapnode = h.sigma0Mapnode := by
  cases post <;> simp [hooked, Mdb.setMNode]

@[simp] lemma hooked_root (d : Word) : ((hooked h l n w post).dual d).root = (h.dual d).root := by
  cases post <;> simp [hooked, Mdb.setMNode]

end hooked

namespace Links

/-- Two live links lead to the same dual node only if they are the same. -/
lemma dual_ne (hs : Links pool h db) (hl : Live pool db l) (hk : Live pool db k) (hne : k ≠ l)
    (ht : h.Tagged k) (ht' : h.Tagged l) : (h.next k).1 ≠ (h.next l).1 := by
  have harr : ∀ j, Live pool db j → h.Tagged j → ∃ a ∈ db.arrays, a.link = j := by
    rintro j (rfl | ⟨r, hr, hj⟩) htj
    · exact ⟨db.top, List.mem_cons_self, hs.top_link⟩
    · obtain ⟨a, ha, heq⟩ := hs.owner r hr j hj htj
      exact ⟨a, List.mem_cons_of_mem _ ha, heq⟩
  obtain ⟨a, ha, rfl⟩ := harr k hk ht
  obtain ⟨b, hb, rfl⟩ := harr l hl ht'
  rw [hs.dual a ha, hs.dual b hb]
  exact fun heq => hne (congrArg Arr.link (hs.dual_inj ha hb heq))

/-- What is read after a node has been hooked in behind the link `l`. -/
structure Hooked (pool : Pool) (h h' : Mdb) (db : Db) (l : Link) (n : Ent) (w : MNode)
    (post : List Ent) :
    Prop where
  next : ∀ j, Live pool db j → j ≠ l → h'.next j = h.next j
  tag : ∀ j, j ≠ .node n.ptr → (h'.Tagged j ↔ h.Tagged j)
  not_tag : ¬h'.Tagged (.node n.ptr)
  next_link : h'.next l = ((h.next l).1, n.ptr)
  next_new : h'.next (.node n.ptr) = (0, headPtr post)
  w1 : ∀ q, q ≠ n.ptr → (∀ f ∈ post.head?, q ≠ f.ptr) → (h'.mnode q).w1 = (h.mnode q).w1
  w2 : ∀ q, q ≠ n.ptr → (h'.mnode q).w2 = (h.mnode q).w2
  w2_new : (h'.mnode n.ptr).w2 = w.w2

/-- The free buffers are none of the database. -/
lemma live_ne_free (hs : Links pool h db) (hfr : q ∈ h.free .mnode) (hl : Live pool db l) :
    l ≠ .node q := by
  have hpool : q ∈ pool.bufs .mnode := hs.mnodes.subset (List.mem_append_right _ hfr)
  rcases hl with rfl | ⟨r', hr', hj⟩
  · exact fun heq => pool.sigma0_static ((Link.node.inj heq) ▸ hpool)
  · rintro rfl
    rcases List.mem_cons.mp hj with h0 | hj
    · simp at h0
    · obtain ⟨x, hx, hxe⟩ := List.mem_map.mp hj
      exact hs.ptr_not_free (mem_ents hr' hx) ((Link.node.inj hxe) ▸ hfr)

lemma hooked_spec (hs : Links pool h db) {w : MNode} (hfr : n.ptr ∈ h.free .mnode)
    (hlive : Live pool db l)
    (ht : h.Tagged l → (h.next l).1 ≠ 0) (h4 : w.w3 = headPtr post)
    (hpost : headPtr post &&& 3 = 0) :
    Hooked pool h (hooked h l n w post) db l n w post := by
  have hal : n.ptr &&& 3 = 0 := pool.aligned _ _ (hs.mnodes.subset (List.mem_append_right _ hfr))
  have hwal : w.w3 &&& 3 = 0 := by rw [h4, hpost]
  -- what is read through links that are not the new node
  have hset : ∀ j, j ≠ .node n.ptr → (h.setMNode n.ptr w).next j = h.next j ∧
      ((h.setMNode n.ptr w).Tagged j ↔ h.Tagged j) := by
    intro j hj
    cases j with
    | root r' => exact ⟨rfl, Iff.rfl⟩
    | node q =>
        have hq : q ≠ n.ptr := fun heq => hj (heq ▸ rfl)
        constructor
        · simp [Mdb.next, mnodeNext, Mdb.setMNode, hq]
        · simp [Mdb.Tagged, Mdb.setMNode, hq]
  have hself : ¬ (h.setMNode n.ptr w).Tagged (.node n.ptr) := by
    simpa [Mdb.Tagged, Mdb.setMNode, MNode.isNextRoot] using and_one_of_aligned hwal
  have hselfn : (h.setMNode n.ptr w).next (.node n.ptr) = (0, headPtr post) := by
    have hun : ¬ w.isNextRoot := by
      simpa [MNode.isNextRoot] using and_one_of_aligned hwal
    have hgn : w.getNext = headPtr post := by
      rw [MNode.getNext, Word.and_not_eq (and_one_of_aligned hwal), h4]
    simp [Mdb.next, mnodeNext, Mdb.setMNode, hun, hgn]
  have hL := hset _ (hs.live_ne_free hfr hlive)
  have htagL : (h.setMNode n.ptr w).Tagged l → ((h.setMNode n.ptr w).next l).1 ≠ 0 := by
    intro h0
    rw [hL.1]
    exact ht (hL.2.mp h0)
  refine ⟨fun j hj hjl => ?_, fun j hj => ?_, ?_, ?_, ?_, fun q hq hf => ?_, fun q hq => ?_, ?_⟩
  · have hj' := hset j (hs.live_ne_free hfr hj)
    rw [hooked_next_eq, Mdb.next_redirect_of_ne hjl, hj'.1]
    intro h0 h0'
    rw [hj'.1, hL.1]
    exact hs.dual_ne hlive hj hjl (hj'.2.mp h0) (hL.2.mp h0')
  · rw [hooked_tagged, Mdb.tagged_redirect hal htagL, (hset j hj).2]
  · rwa [hooked_tagged, Mdb.tagged_redirect hal htagL]
  · rw [hooked_next_eq, Mdb.next_redirect hal, hL.1]
  · rw [hooked_next_eq,
      Mdb.next_redirect_of_ne (hs.live_ne_free hfr hlive).symm (fun h0 => absurd h0 hself), hselfn]
  · rw [hooked_w1 hf]
    simp [Mdb.setMNode, hq]
  · rw [hooked_w2]
    simp [Mdb.setMNode, hq]
  · rw [hooked_w2]
    simp [Mdb.setMNode]

/-- The chain with the new node in it. -/
lemma hooked_path (hs : Links pool h db) (hr : r ∈ db.slots) (hc : db.chain r = pre ++ post)
    {w : MNode}
    (hH : Hooked pool h (hooked h (lastLink (.root r) pre) n w post) db
    (lastLink (.root r) pre) n w post)
    (hnew : ∀ x ∈ db.ents, x.ptr ≠ n.ptr) (h1 : w.w1 = (lastLink (.root r) pre).back n.pg)
    (h2 : w.getDepth.toNat = n.depth) (h3 : w.getSpace = n.space) :
    Path ((hooked h (lastLink (.root r) pre) n w post).take .mnode) (.root r) (pre ++ n :: post) ∧
      (((hooked h (lastLink (.root r) pre) n w post).take .mnode).next
        (lastLink (.root r) (pre ++ n :: post))).2 = 0 := by
  have hmem : ∀ x ∈ pre ++ post, x ∈ db.ents := fun x hx => mem_ents hr (hc ▸ hx)
  have hpost_ne : ∀ f ∈ post.head?, n.ptr ≠ f.ptr := fun f hf =>
    (hnew f (hmem f (by simp [List.mem_of_mem_head? hf]))).symm
  have hnd : (pre.map Ent.ptr ++ post.map Ent.ptr).Nodup := by
    simpa [hc] using hs.nodup_chain hr
  have hndl := hs.nodup_chainLinks hr
  rw [Db.chainLinks, hc, List.map_append, ← List.cons_append] at hndl
  have hpath := hs.path r hr
  rw [hc, path_append] at hpath
  have hend := hs.path_end r hr
  rw [hc, lastLink_append] at hend
  have hpost_link : ∀ j ∈ post.map (fun e => Link.node e.ptr), j ≠ lastLink (.root r) pre := by
    rintro j hj rfl
    exact (List.nodup_append.mp hndl).2.2 _ lastLink_mem_links _ hj rfl
  have hpost_live : ∀ j ∈ post.map (fun e => Link.node e.ptr), Live pool db j := by
    intro j hj
    refine .inr ⟨r, hr, ?_⟩
    rw [Db.chainLinks, hc, List.map_append]
    exact List.mem_cons_of_mem _ (List.mem_append_right _ hj)
  constructor
  · rw [path_append]
    refine ⟨hpath.1.congr (fun j hj hjm => ?_) (List.nodup_append.mp hndl).1 (fun x hx => ?_)
      (fun x hx => ?_), ⟨?_, ?_, ?_, ?_⟩, ?_⟩
    · rw [Mdb.next_take, hH.next j ?_ hj]
      refine .inr ⟨r, hr, ?_⟩
      rw [Db.chainLinks, hc]
      rcases hjm with rfl | ⟨x, hx, rfl⟩
      · exact List.mem_cons_self
      · exact List.mem_cons_of_mem _ (List.mem_map.mpr ⟨x, by simp [hx], rfl⟩)
    · refine hH.w1 _ (hnew x (hmem x (by simp [hx]))) fun f hf heq => ?_
      exact (List.nodup_append.mp hnd).2.2 _ (List.mem_map_of_mem hx) _
        (List.mem_map_of_mem (List.mem_of_mem_head? hf)) heq
    · exact hH.w2 _ (hnew x (hmem x (by simp [hx])))
    · rw [Mdb.next_take, hH.next_link]
    · change ((hooked h _ n w post).mnode n.ptr).w1 = _
      rw [hooked_w1 hpost_ne]
      simpa [Mdb.setMNode] using h1
    · rw [← h2, MNode.getDepth, MNode.getDepth]
      exact congrArg (fun x => (x &&& depthMask).toNat) hH.w2_new
    · rw [← h3, MNode.getSpace, MNode.getSpace]
      exact congrArg (fun x => x &&& spaceMask) hH.w2_new
    · cases post with
      | nil => trivial
      | cons f post =>
          obtain ⟨hf, htail⟩ := hpath.2
          have hfn : f.ptr ≠ n.ptr := hnew f (hmem f (by simp))
          refine ⟨⟨?_, ?_, ?_, ?_⟩, htail.congr (fun j _ hj => ?_) ?_ (fun x hx => ?_)
            (fun x hx => ?_)⟩
          · rw [Mdb.next_take, hH.next_new]; rfl
          · change ((hooked h _ n w (f :: post)).mnode f.ptr).w1 = _
            rw [hooked]
            exact Mdb.setBack_w1 ..
          · rw [← hf.depth, MNode.getDepth, MNode.getDepth]
            exact congrArg (fun x => (x &&& depthMask).toNat) (hH.w2 _ hfn)
          · rw [← hf.space, MNode.getSpace, MNode.getSpace]
            exact congrArg (fun x => x &&& spaceMask) (hH.w2 _ hfn)
          · have hjm : j ∈ (f :: post).map (fun e => Link.node e.ptr) := by
              rcases hj with rfl | ⟨x, hx, rfl⟩
              · simp
              · exact List.mem_map.mpr ⟨x, by simp [hx], rfl⟩
            rw [Mdb.next_take, hH.next j (hpost_live j hjm) (hpost_link j hjm)]
          · exact (List.nodup_append.mp hndl).2.1
          · refine hH.w1 _ (hnew x (hmem x (by simp [hx]))) fun g hg heq => ?_
            obtain rfl : f = g := by simpa using hg
            have hn := (List.nodup_append.mp hnd).2.1
            exact (List.nodup_cons.mp hn).1 (heq ▸ List.mem_map_of_mem hx)
          · exact hH.w2 _ (hnew x (hmem x (by simp [hx])))
  · rw [Mdb.next_take, lastLink_append, lastLink]
    cases post with
    | nil => rw [lastLink, hH.next_new]; rfl
    | cons f post =>
        have hj : lastLink (.node n.ptr) (f :: post) ∈ (f :: post).map (fun e => Link.node e.ptr) :=
          lastLink_mem_links
        rw [hH.next _ (hpost_live _ hj) (hpost_link _ hj)]
        exact hend

/-- **Hooking in.**  A free buffer becomes a mapping node between a link of a chain and
what follows it. -/
theorem insert (hs : Links pool h db) (hr : r ∈ db.slots) (hc : db.chain r = pre ++ post)
    {w : MNode} (hfree : n.ptr ∈ (h.free .mnode).head?) (hpg : n.pg &&& 3 = 0)
    (h1 : w.w1 = (lastLink (.root r) pre).back n.pg) (h2 : w.getDepth.toNat = n.depth)
    (h3 : w.getSpace = n.space) (h4 : w.w3 = headPtr post) :
    Links pool ((hooked h (lastLink (.root r) pre) n w post).take .mnode)
      (db.setChain r (pre ++ n :: post)) := by
  have hmem : ∀ x ∈ pre ++ post, x ∈ db.ents := fun x hx => mem_ents hr (hc ▸ hx)
  have hfr : n.ptr ∈ h.free .mnode := List.mem_of_mem_head? hfree
  have hnew : ∀ x ∈ db.ents, x.ptr ≠ n.ptr := fun x hx heq =>
    hs.ptr_not_free hx (heq ▸ hfr)
  have hlast : lastLink (.root r) pre ∈ db.chainLinks r := by
    rw [Db.chainLinks, hc, List.map_append, ← List.cons_append]
    exact List.mem_append_left _ lastLink_mem_links
  have hpost : headPtr post &&& 3 = 0 := by
    cases post with
    | nil => rfl
    | cons f post => exact hs.ptr_aligned (hmem f (by simp))
  have hH := hs.hooked_spec hfr (.inr ⟨r, hr, hlast⟩) (hs.tagged_iff hr hlast).mp h4 hpost
  obtain ⟨hpath, hend⟩ := hs.hooked_path hr hc hH hnew h1 h2 h3
  refine hs.setChain hr
    { sigma0 := by simp [Mdb.take]
      next := ?_
      tagged := ?_
      mnode := ?_
      base := by simp [Mdb.take]
      dual := ?_
      owner := ?_
      depth := ?_
      pg := ?_
      mnodes := ?_
      duals := by simp [Mdb.take]
      roots := by simp [Mdb.take] } hpath hend
  · intro j hj hj' _
    rw [Mdb.next_take]
    exact hH.next j hj fun heq => hj' (heq ▸ hlast)
  · intro j hj _ _
    rw [Mdb.tagged_take]
    exact hH.tag j (hs.live_ne_free hfr hj)
  · intro q hq hq'
    have hqn : q ≠ n.ptr := fun heq => hq' (by simp [heq])
    refine ⟨hH.w1 q hqn fun f hf heq => hq ?_, hH.w2 q hqn⟩
    rw [hc, heq]
    exact List.mem_map_of_mem (by simp [List.mem_of_mem_head? hf])
  · intro a ha _
    have hlv := hs.live_link ha
    rw [Mdb.next_take]
    by_cases hal : a.link = lastLink (.root r) pre
    · rw [hal, hH.next_link]
    · rw [hH.next _ hlv hal]
  · intro j hj ht
    rw [Mdb.tagged_take] at ht
    have hjn : j ≠ .node n.ptr := by
      rintro rfl
      exact hH.not_tag ht
    refine ⟨?_, (hH.tag j hjn).mp ht⟩
    rcases hj with rfl | hj
    · exact List.mem_cons_self
    · obtain ⟨x, hx, rfl⟩ := List.mem_map.mp hj
      refine Db.mem_chainLinks ?_
      rw [hc]
      rcases List.mem_append.mp hx with hx | hx
      · simp [hx]
      · rcases List.mem_cons.mp hx with rfl | hx
        · exact absurd rfl hjn
        · simp [hx]
  · intro x hx _
    refine ⟨x, ?_, rfl, rfl⟩
    rw [hc] at hx
    rcases List.mem_append.mp hx with hx | hx <;> simp [hx]
  · intro x hx
    rcases List.mem_append.mp hx with hx | hx
    · exact hs.pg x (hmem x (by simp [hx]))
    · rcases List.mem_cons.mp hx with rfl | hx
      · exact hpg
      · exact hs.pg x (hmem x (by simp [hx]))
  · obtain ⟨ps, hps⟩ : ∃ ps, h.free .mnode = n.ptr :: ps := ⟨_, List.eq_cons_of_mem_head? hfree⟩
    simp only [Mdb.take, hooked_free, Function.update_self, hps, List.tail_cons, hc,
      List.map_append, List.map_cons, List.append_assoc, List.cons_append]
    refine List.Perm.append_left _ ?_
    exact List.perm_middle.symm

end Links

/-! ### Changing hands -/

lemma mdbGrant_mnode_of_ne {fPg tPg tSpace : Word} (hq : q ≠ p) :
    (mdbGrant h p fPg tPg tSpace).mnode q = h.mnode q := by
  simp [mdbGrant, Mdb.setMNode, hq]

/-- Only the words of the node itself change, and not its successor. -/
lemma mdbGrant_w3 (fPg tPg tSpace : Word) :
    ((mdbGrant h p fPg tPg tSpace).mnode p).w3 = (h.mnode p).w3 := by
  simp only [mdbGrant, Mdb.setMNode, Function.update_self, MNode.setSpace]
  split <;> rfl

lemma next_mdbGrant (fPg tPg tSpace : Word) (j : Link) :
    (mdbGrant h p fPg tPg tSpace).next j = h.next j := by
  refine Mdb.next_setMNode_of_w3 ?_ j
  simpa [mdbGrant, Mdb.setMNode] using mdbGrant_w3 (h := h) (p := p) fPg tPg tSpace

lemma tagged_mdbGrant (fPg tPg tSpace : Word) (j : Link) :
    (mdbGrant h p fPg tPg tSpace).Tagged j ↔ h.Tagged j := by
  refine Mdb.tagged_setMNode_of_w3 ?_ j
  simpa [mdbGrant, Mdb.setMNode] using mdbGrant_w3 (h := h) (p := p) fPg tPg tSpace

/-- The node behind the link `l` after it has changed hands. -/
lemma EntAt.grant (he : EntAt h l e) (hl : l.addr &&& 3 = 0) (hpg : e.pg &&& 3 = 0)
    (tPg tSpace : Word) : EntAt (mdbGrant h e.ptr e.pg tPg tSpace) l
      { e with pg := tPg, space := tSpace &&& spaceMask } := by
  have hprev := getPrev_eq he.back hl
  have hroot := isPrevRoot_iff he.back hl hpg
  refine ⟨by rw [next_mdbGrant]; exact he.next, ?_, ?_, ?_⟩
  · simp only [mdbGrant, Mdb.setMNode, Function.update_self, MNode.setSpace, hprev]
    cases l with
    | root r =>
        rw [if_pos (hroot.mpr ⟨r, rfl⟩)]
        rfl
    | node q =>
        rw [if_neg fun hr => by simpa using hroot.mp hr]
        rfl
  · rw [← he.depth]
    simp only [mdbGrant, Mdb.setMNode, Function.update_self, MNode.setSpace, MNode.getDepth]
    rw [Word.setField_and_of_disjoint (by decide)]
    split <;> rfl
  · simp only [mdbGrant, Mdb.setMNode, Function.update_self, MNode.setSpace, MNode.getSpace]
    exact Word.setField_and

namespace Links

/-- **Granting.**  The node of a mapping gets another page table entry and another
space, and stays where it is. -/
theorem grant (hs : Links pool h db) (hr : r ∈ db.slots) (hc : db.chain r = pre ++ e :: post)
    {tPg : Word} (hpg : tPg &&& 3 = 0) (tSpace : Word) :
    Links pool (mdbGrant h e.ptr e.pg tPg tSpace)
      (db.setChain r (pre ++ { e with pg := tPg, space := tSpace &&& spaceMask } :: post)) := by
  have hmem : ∀ x ∈ pre ++ e :: post, x ∈ db.ents := fun x hx => mem_ents hr (hc ▸ hx)
  have hnd := hs.nodup_split hr hc
  have hlinks := chainLinks_split hc
  have hndl := hs.nodup_chainLinks hr
  rw [hlinks] at hndl
  have hpath := hs.path r hr
  rw [hc, path_append] at hpath
  obtain ⟨hpre, hent, hpost⟩ := hpath
  have hptrs : ∀ x ∈ pre ++ post, x.ptr ≠ e.ptr := by
    intro x hx heq
    rcases List.mem_append.mp hx with hx | hx
    · exact (List.nodup_append.mp hnd).2.2 _ (List.mem_map_of_mem hx) _ List.mem_cons_self heq
    · exact (List.nodup_cons.mp (List.nodup_append.mp hnd).2.1).1 (heq ▸ List.mem_map_of_mem hx)
  have hsame : ∀ x ∈ pre ++ post,
      (mdbGrant h e.ptr e.pg tPg tSpace).mnode x.ptr = h.mnode x.ptr :=
    fun x hx => mdbGrant_mnode_of_ne (hptrs x hx)
  refine hs.setChain hr
    { sigma0 := rfl
      next := fun j _ _ _ => next_mdbGrant ..
      tagged := fun j _ _ _ => tagged_mdbGrant ..
      mnode := fun q hq _ => ?_
      base := fun _ _ => rfl
      dual := fun a _ _ => by rw [next_mdbGrant]
      owner := fun j hj ht => ⟨?_, (tagged_mdbGrant ..).mp ht⟩
      depth := fun x hx _ => ?_
      pg := fun x hx => ?_
      mnodes := ?_
      duals := rfl
      roots := rfl } ?_ ?_
  · have hq' : q ≠ e.ptr := fun heq => hq (by simp [hc, heq])
    rw [mdbGrant_mnode_of_ne hq']
    exact ⟨rfl, rfl⟩
  · rw [hlinks]
    simpa using hj
  · rw [hc] at hx
    rcases List.mem_append.mp hx with hx | hx
    · exact ⟨x, by simp [hx], rfl, rfl⟩
    · rcases List.mem_cons.mp hx with rfl | hx
      · exact ⟨_, List.mem_append_right _ List.mem_cons_self, rfl, rfl⟩
      · exact ⟨x, by simp [hx], rfl, rfl⟩
  · rcases List.mem_append.mp hx with hx | hx
    · exact hs.pg x (hmem x (by simp [hx]))
    · rcases List.mem_cons.mp hx with rfl | hx
      · exact hpg
      · exact hs.pg x (hmem x (by simp [hx]))
  · simp [mdbGrant, Mdb.setMNode, hc]
  · rw [path_append]
    refine ⟨hpre.congr (fun j _ _ => by rw [next_mdbGrant]) (List.nodup_append.mp hndl).1
      (fun x hx => by rw [hsame x (by simp [hx])]) (fun x hx => by rw [hsame x (by simp [hx])]),
      ?_, ?_⟩
    · refine hent.grant (hs.link_aligned hr fun x hx => ?_) (hs.pg e (hmem e (by simp))) tPg tSpace
      rw [hc]
      simp [hx]
    · exact hpost.congr (fun j _ _ => by rw [next_mdbGrant]) (List.nodup_append.mp hndl).2.1
        (fun x hx => by rw [hsame x (by simp [hx])]) (fun x hx => by rw [hsame x (by simp [hx])])
  · have hend := hs.path_end r hr
    rw [hc, lastLink_append] at hend
    rw [next_mdbGrant, lastLink_append]
    exact hend

end Links

end Hazelnut

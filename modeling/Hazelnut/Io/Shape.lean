import Hazelnut.Io.Map
import Hazelnut.Lib.Linked
import Hazelnut.Lib.Ring

/-!
The two kinds of lists of the I/O mapping database.

* `TreeOk`: the mapping tree as a doubly linked list; `TasksOk`: the lists of the tasks as rings
  with the dummy node in them.
* `TreeOk.deq`, `TreeOk.enq`, `TasksOk.deq`, `TasksOk.enq`: what hooking in and taking out a node
  does, from live nodes only.
-/

namespace Hazelnut.Io

open Linked Ring

variable {s s' : IoMdb} {p q n x y z t : Word} {u v l : List Word} {own : Word → List Word}

/-! ### Reading and writing live nodes -/

/-- The node may be dereferenced. -/
def Live (s : IoMdb) (p : Word) : Prop := p ≠ 0 ∧ p ∉ s.free

lemma deref_live (h : Live s p) : deref p s = .ok (s.node p, s) := by
  rw [deref, if_neg h.1, if_neg h.2]

/-- The database after a node has been written. -/
def IoMdb.write (s : IoMdb) (p : Word) (f : IoNode → IoNode) : IoMdb :=
  { s with node := Function.update s.node p (f (s.node p)) }

namespace IoMdb

variable {f : IoNode → IoNode}

@[simp] lemma write_free : (s.write p f).free = s.free := rfl

@[simp] lemma write_iospace : (s.write p f).iospace = s.iospace := rfl

lemma write_node : (s.write p f).node q = if q = p then f (s.node p) else s.node q := by
  simp [write, Function.update_apply]

@[simp] lemma write_node_self : (s.write p f).node p = f (s.node p) := by simp [write_node]

lemma write_node_ne (h : q ≠ p) : (s.write p f).node q = s.node q := by simp [write_node, h]

/-- A field of the nodes after one of them has been written. -/
lemma write_field {β : Type} (g : IoNode → β) :
    g ((s.write p f).node q) = if q = p then g (f (s.node p)) else g (s.node q) := by
  rw [write_node, apply_ite g]

/-- A field that is not written. -/
lemma write_field_same {β : Type} (g : IoNode → β) (h : ∀ n, g (f n) = g n) :
    g ((s.write p f).node q) = g (s.node q) := by
  rw [write_field g, h]
  split
  · next he => rw [he]
  · rfl

end IoMdb

/-- A list that an element has been hooked into. -/
lemma perm_behind {α : Type} (u : List α) (z x : α) (v : List α) : (u ++ z :: x :: v).Perm
    (x :: (u ++ z :: v)) := by
  have : (u ++ [z] ++ x :: v).Perm (x :: (u ++ [z] ++ v)) := List.perm_middle
  simpa using this

section links

variable {a : Word}

lemma next_setNext : ((s.write p fun n => { n with next := a }).node q).next =
    if q = p then a else (s.node q).next := IoMdb.write_field IoNode.next

lemma next_setPrev : ((s.write p fun n => { n with prev := a }).node q).next = (s.node q).next :=
  IoMdb.write_field_same IoNode.next fun _ => rfl

lemma prev_setPrev : ((s.write p fun n => { n with prev := a }).node q).prev =
    if q = p then a else (s.node q).prev := IoMdb.write_field IoNode.prev

lemma prev_setNext : ((s.write p fun n => { n with next := a }).node q).prev = (s.node q).prev :=
  IoMdb.write_field_same IoNode.prev fun _ => rfl

lemma nextSt_setNextSt : ((s.write p fun n => { n with nextSt := a }).node q).nextSt =
    if q = p then a else (s.node q).nextSt := IoMdb.write_field IoNode.nextSt

lemma nextSt_setPrevSt :
    ((s.write p fun n => { n with prevSt := a }).node q).nextSt = (s.node q).nextSt :=
  IoMdb.write_field_same IoNode.nextSt fun _ => rfl

lemma prevSt_setPrevSt : ((s.write p fun n => { n with prevSt := a }).node q).prevSt =
    if q = p then a else (s.node q).prevSt := IoMdb.write_field IoNode.prevSt

lemma prevSt_setNextSt :
    ((s.write p fun n => { n with nextSt := a }).node q).prevSt = (s.node q).prevSt :=
  IoMdb.write_field_same IoNode.prevSt fun _ => rfl

end links

@[simp] lemma live_write {f : IoNode → IoNode} : Live (s.write p f) q ↔ Live s q := Iff.rfl

/-- A step of a `do` block that returns. -/
lemma bind_ok {α β : Type} {m : IoM α} {f : α → IoM β} {a : α} (h : m s = .ok (a, s')) :
    (m >>= f) s = f a s' := by
  simp only [bind, StateT.bind, h, Except.bind]

lemma writeNode_live {f : IoNode → IoNode} (h : Live s p) :
    writeNode p f s = .ok ((), s.write p f) :=
  bind_ok (deref_live h)

lemma setNext_live (h : Live s p) :
    setNext p q s = .ok ((), s.write p fun n => { n with next := q }) := writeNode_live h

lemma setPrev_live (h : Live s p) :
    setPrev p q s = .ok ((), s.write p fun n => { n with prev := q }) := writeNode_live h

lemma setNextSt_live (h : Live s p) :
    setNextSt p q s = .ok ((), s.write p fun n => { n with nextSt := q }) := writeNode_live h

lemma setPrevSt_live (h : Live s p) :
    setPrevSt p q s = .ok ((), s.write p fun n => { n with prevSt := q }) := writeNode_live h

lemma setParent_live (h : Live s p) :
    setParent p q s = .ok ((), s.write p fun n => { n with parent := q }) := writeNode_live h

/-- What a task list sees of the database is the same. -/
structure SameTasks (s s' : IoMdb) : Prop where
  w1 : ∀ x, (s'.node x).w1 = (s.node x).w1
  w2 : ∀ x, (s'.node x).w2 = (s.node x).w2
  nextSt : ∀ x, (s'.node x).nextSt = (s.node x).nextSt
  prevSt : ∀ x, (s'.node x).prevSt = (s.node x).prevSt
  iospace : s'.iospace = s.iospace
  free : s'.free = s.free

/-- What the mapping tree sees of the database is the same. -/
structure SameTree (s s' : IoMdb) : Prop where
  w1 : ∀ x, (s'.node x).w1 = (s.node x).w1
  w2 : ∀ x, (s'.node x).w2 = (s.node x).w2
  next : ∀ x, (s'.node x).next = (s.node x).next
  prev : ∀ x, (s'.node x).prev = (s.node x).prev
  iospace : s'.iospace = s.iospace
  free : s'.free = s.free

lemma SameTasks.trans {s'' : IoMdb} (h : SameTasks s s') (h' : SameTasks s' s'') :
    SameTasks s s'' :=
  ⟨fun x => (h'.w1 x).trans (h.w1 x), fun x => (h'.w2 x).trans (h.w2 x),
    fun x => (h'.nextSt x).trans (h.nextSt x), fun x => (h'.prevSt x).trans (h.prevSt x),
    h'.iospace.trans h.iospace, h'.free.trans h.free⟩

lemma SameTree.trans {s'' : IoMdb} (h : SameTree s s') (h' : SameTree s' s'') : SameTree s s'' :=
  ⟨fun x => (h'.w1 x).trans (h.w1 x), fun x => (h'.w2 x).trans (h.w2 x),
    fun x => (h'.next x).trans (h.next x), fun x => (h'.prev x).trans (h.prev x),
    h'.iospace.trans h.iospace, h'.free.trans h.free⟩

lemma sameTasks_next : SameTasks s (s.write p fun n => { n with next := q }) :=
  ⟨fun _ => IoMdb.write_field_same IoNode.w1 fun _ => rfl,
    fun _ => IoMdb.write_field_same IoNode.w2 fun _ => rfl,
    fun _ => IoMdb.write_field_same IoNode.nextSt fun _ => rfl,
    fun _ => IoMdb.write_field_same IoNode.prevSt fun _ => rfl, rfl, rfl⟩

lemma sameTasks_prev : SameTasks s (s.write p fun n => { n with prev := q }) :=
  ⟨fun _ => IoMdb.write_field_same IoNode.w1 fun _ => rfl,
    fun _ => IoMdb.write_field_same IoNode.w2 fun _ => rfl,
    fun _ => IoMdb.write_field_same IoNode.nextSt fun _ => rfl,
    fun _ => IoMdb.write_field_same IoNode.prevSt fun _ => rfl, rfl, rfl⟩

lemma sameTree_nextSt : SameTree s (s.write p fun n => { n with nextSt := q }) :=
  ⟨fun _ => IoMdb.write_field_same IoNode.w1 fun _ => rfl,
    fun _ => IoMdb.write_field_same IoNode.w2 fun _ => rfl,
    fun _ => IoMdb.write_field_same IoNode.next fun _ => rfl,
    fun _ => IoMdb.write_field_same IoNode.prev fun _ => rfl, rfl, rfl⟩

lemma sameTree_prevSt : SameTree s (s.write p fun n => { n with prevSt := q }) :=
  ⟨fun _ => IoMdb.write_field_same IoNode.w1 fun _ => rfl,
    fun _ => IoMdb.write_field_same IoNode.w2 fun _ => rfl,
    fun _ => IoMdb.write_field_same IoNode.next fun _ => rfl,
    fun _ => IoMdb.write_field_same IoNode.prev fun _ => rfl, rfl, rfl⟩

/-! ### The mapping tree -/

/-- The mapping tree is the list `l`. -/
structure TreeOk (s : IoMdb) (l : List Word) : Prop where
  linked : IsLinked (fun x => (s.node x).next) (fun x => (s.node x).prev) l
  nodup : l.Nodup
  live : ∀ x ∈ l, Live s x

namespace TreeOk

/-- Only the links of the nodes matter. -/
lemma congr (h : TreeOk s l) (hn : ∀ x ∈ l, (s'.node x).next = (s.node x).next)
    (hp : ∀ x ∈ l, (s'.node x).prev = (s.node x).prev) (hl : ∀ x ∈ l, Live s' x) : TreeOk s' l :=
  ⟨h.linked.congr (fun x hx => hn x ((List.dropLast_sublist l).subset hx))
    fun x hx => hp x (List.mem_of_mem_tail hx), h.nodup, hl⟩

lemma sameTree (h : TreeOk s l) (hs : SameTree s s') : TreeOk s' l :=
  h.congr (fun x _ => hs.next x) (fun x _ => hs.prev x) fun x hx => by
    rw [Live, hs.free]
    exact h.live x hx

lemma links (h : TreeOk s (u ++ p :: q :: v)) : (s.node p).next = q ∧ (s.node q).prev = p :=
  (isLinked_split.mp h.linked).2.1

/-- **A node is taken out** of the mapping tree. -/
lemma deq (h : TreeOk s (u ++ p :: n :: q :: v)) :
    ∃ s', deqSubtree n s = .ok ((), s') ∧ TreeOk s' (u ++ p :: q :: v) ∧ SameTasks s s' ∧
      (s'.node n).prev = p := by
  have hpn := h.links.2
  have hnq : (s.node n).next = q :=
    (links (u := u ++ [p]) (v := v) (by simpa using h)).1
  have hnd := h.nodup
  have hn : n ≠ p ∧ n ≠ q := by
    simp only [List.nodup_append, List.nodup_cons, List.mem_cons, not_or] at hnd
    exact ⟨fun he => hnd.2.1.1.1 he.symm, hnd.2.1.2.1.1⟩
  have hl : Live s p ∧ Live s n ∧ Live s q :=
    ⟨h.live p (by simp), h.live n (by simp), h.live q (by simp)⟩
  refine ⟨(s.write q fun x => { x with prev := p }).write p fun x => { x with next := q }, ?_, ?_,
    ?_, ?_⟩
  · have h1 : deref n (s.write q fun x => { x with prev := p }) =
        .ok (s.node n, s.write q fun x => { x with prev := p }) := by
      rw [deref_live (by simpa using hl.2.1), IoMdb.write_node_ne hn.2]
    unfold deqSubtree
    rw [bind_ok (deref_live hl.2.1), bind_ok (deref_live hl.2.1), hnq, hpn,
      bind_ok (setPrev_live hl.2.2), bind_ok h1, bind_ok h1, hnq, hpn]
    exact setNext_live (by simpa using hl.1)
  · refine ⟨h.linked.remove_ite hnd (fun y _ => ?_) (fun y _ => ?_), ?_, fun y hy => ?_⟩
    · simp only [next_setNext, next_setPrev, eq_comm]
    · simp only [prev_setNext, prev_setPrev, eq_comm]
    · exact hnd.sublist (List.Sublist.append_left ((List.sublist_cons_self n _).cons_cons p) u)
    · exact h.live y (List.Sublist.subset
        (List.Sublist.append_left ((List.sublist_cons_self n _).cons_cons p) u) hy)
  · exact sameTasks_prev.trans sameTasks_next
  · rw [IoMdb.write_node_ne hn.1, IoMdb.write_node_ne hn.2, hpn]

/-- **A node is hooked in** behind another one. -/
lemma enq (h : TreeOk s (u ++ p :: q :: v)) (hx : x ∉ u ++ p :: q :: v) (hl : Live s x) :
    ∃ s', enqSubtree x p s = .ok ((), s') ∧ TreeOk s' (u ++ p :: x :: q :: v) ∧ SameTasks s s' := by
  have hpq := h.links
  have hne : x ≠ p ∧ x ≠ q := by
    simp only [List.mem_append, List.mem_cons, not_or] at hx
    exact ⟨hx.2.1, hx.2.2.1⟩
  have hlp : Live s p ∧ Live s q := ⟨h.live p (by simp), h.live q (by simp)⟩
  have hperm : (u ++ p :: x :: q :: v).Perm (x :: (u ++ p :: q :: v)) := perm_behind u p x (q :: v)
  refine ⟨(((s.write x fun y => { y with next := q }).write x fun y => { y with prev := p }).write q
    fun y => { y with prev := x }).write p fun y => { y with next := x }, ?_, ?_, ?_⟩
  · unfold enqSubtree
    have h1 : deref x ((s.write x fun y => { y with next := q }).write x
      fun y => { y with prev := p }) =
        .ok ({ s.node x with next := q, prev := p },
          (s.write x fun y => { y with next := q }).write x fun y => { y with prev := p }) := by
      rw [deref_live (by simpa using hl), IoMdb.write_node_self, IoMdb.write_node_self]
    rw [bind_ok (deref_live hlp.1), hpq.1, bind_ok (setNext_live hl),
      bind_ok (setPrev_live (by simpa using hl)), bind_ok h1,
      bind_ok (setPrev_live (by simpa using hlp.2))]
    exact setNext_live (by simpa using hlp.1)
  · refine ⟨h.linked.insert_ite h.nodup ?_ ?_ (fun y hy => ?_) (fun y hy => ?_), ?_, fun y hy => ?_⟩
    · simp [IoMdb.write_node, hne.1, hne.2]
    · simp [IoMdb.write_node, hne.1, hne.2]
    · have hyx : y ≠ x := fun he => hx (he ▸ hy)
      rw [next_setNext, next_setPrev, next_setPrev, next_setNext, if_neg hyx]
      simp only [eq_comm]
    · have hyx : y ≠ x := fun he => hx (he ▸ hy)
      rw [prev_setNext, prev_setPrev, prev_setPrev, prev_setNext, if_neg hyx]
      simp only [eq_comm]
    · exact hperm.nodup_iff.mpr (List.nodup_cons.mpr ⟨hx, h.nodup⟩)
    · rcases List.mem_cons.mp (hperm.mem_iff.mp hy) with rfl | hy
      · exact hl
      · exact h.live y hy
  · exact ((sameTasks_next.trans sameTasks_prev).trans sameTasks_prev).trans sameTasks_next

end TreeOk

/-! ### The lists of the tasks -/

/-- The nodes in the ring of a task, its dummy node in front. -/
def ringOf (s : IoMdb) (own : Word → List Word) (t : Word) : List Word := s.iospace t :: own t

/-- The nodes of task `t` are the list `own t`, in a ring with the dummy node of the task. -/
structure TasksOk (s : IoMdb) (own : Word → List Word) : Prop where
  absent : ∀ t, s.iospace t = 0 → own t = []
  ring : ∀ t, s.iospace t ≠ 0 →
    IsRing (fun x => some (s.node x).nextSt) (fun x => some (s.node x).prevSt) (ringOf s own t)
  nodup : ∀ t, (ringOf s own t).Nodup
  tid : ∀ t, s.iospace t ≠ 0 → ∀ x ∈ ringOf s own t, (s.node x).getTid = t
  dummy : ∀ t, s.iospace t ≠ 0 → (s.node (s.iospace t)).getDummy ≠ 0
  notDummy : ∀ t, ∀ x ∈ own t, (s.node x).getDummy = 0
  live : ∀ t, s.iospace t ≠ 0 → ∀ x ∈ ringOf s own t, Live s x

namespace TasksOk

lemma task_of_mem (h : TasksOk s own) (hx : x ∈ own t) : s.iospace t ≠ 0 := fun h0 => by
  simp [h.absent t h0] at hx

lemma tid_of_mem (h : TasksOk s own) (hx : x ∈ own t) : (s.node x).getTid = t :=
  h.tid t (h.task_of_mem hx) x (List.mem_cons_of_mem _ hx)

/-- The rings of two tasks have no node in common. -/
lemma ring_unique (h : TasksOk s own) {t t' : Word} (ht : s.iospace t ≠ 0) (ht' : s.iospace t' ≠ 0)
    (hx : x ∈ ringOf s own t) (hx' : x ∈ ringOf s own t') : t = t' :=
  (h.tid t ht x hx).symm.trans (h.tid t' ht' x hx')

/-- Only the links, the tasks and the dummy marks of the nodes matter. -/
lemma congr (h : TasksOk s own) (hi : s'.iospace = s.iospace)
    (hr : ∀ t, s.iospace t ≠ 0 → ∀ x ∈ ringOf s own t, (s'.node x).nextSt = (s.node x).nextSt ∧
      (s'.node x).prevSt = (s.node x).prevSt ∧ (s'.node x).getTid = (s.node x).getTid ∧
      (s'.node x).getDummy = (s.node x).getDummy ∧ Live s' x) : TasksOk s' own where
  absent t ht := h.absent t (by rwa [hi] at ht)
  ring t ht := by
    rw [ringOf, hi] at *
    refine (h.ring t ht).congr (fun x hx => ?_) fun x hx => ?_
    · rw [(hr t ht x hx).1]
    · rw [(hr t ht x hx).2.1]
  nodup t := by rw [ringOf, hi]; exact h.nodup t
  tid t ht x hx := by
    rw [ringOf, hi] at *
    rw [(hr t ht x hx).2.2.1]
    exact h.tid t ht x hx
  dummy t ht := by
    rw [hi] at *
    rw [(hr t ht _ List.mem_cons_self).2.2.2.1]
    exact h.dummy t ht
  notDummy t x hx := by
    rw [(hr t (h.task_of_mem hx) x (List.mem_cons_of_mem _ hx)).2.2.2.1]
    exact h.notDummy t x hx
  live t ht x hx := by
    rw [ringOf, hi] at *
    exact (hr t ht x hx).2.2.2.2

lemma sameTasks (h : TasksOk s own) (hs : SameTasks s s') : TasksOk s' own :=
  h.congr hs.iospace fun t ht x hx => ⟨hs.nextSt x, hs.prevSt x, by
    rw [IoNode.getTid, hs.w1, IoNode.getTid], by rw [IoNode.getDummy, hs.w2, IoNode.getDummy], by
    rw [Live, hs.free]
    exact h.live t ht x hx⟩

/-- A node of the ring is linked to the one behind it. -/
lemma nextSt_of_split (h : TasksOk s own) (ht : s.iospace t ≠ 0)
    (hz : ringOf s own t = u ++ z :: y :: v) : (s.node z).nextSt = y := by
  have hr := h.ring t ht
  rw [hz] at hr
  have hlink := (IsRing.links (IsRing.rotate_append hr)).1
  simpa using hlink

/-- The ring of one task is exchanged; what is written lies in it. -/
lemma exchange (h : TasksOk s own) (hs : SameTree s s') (ht : s.iospace t ≠ 0) {r : List Word}
    (hout : ∀ x, x ∉ ringOf s own t → x ∉ r → (s'.node x).nextSt = (s.node x).nextSt ∧
      (s'.node x).prevSt = (s.node x).prevSt)
    (hother : ∀ t', t' ≠ t → s.iospace t' ≠ 0 → ∀ x ∈ ringOf s own t', x ∉ r)
    (hring : IsRing (fun x => some (s'.node x).nextSt) (fun x => some (s'.node x).prevSt)
      (s.iospace t :: r))
    (hnd : (s.iospace t :: r).Nodup)
    (hr : ∀ x ∈ r, (s.node x).getTid = t ∧ (s.node x).getDummy = 0 ∧ Live s x) :
    TasksOk s' (Function.update own t r) := by
  have htid : ∀ x, (s'.node x).getTid = (s.node x).getTid := fun x => by
    rw [IoNode.getTid, hs.w1, IoNode.getTid]
  have hdummy : ∀ x, (s'.node x).getDummy = (s.node x).getDummy := fun x => by
    rw [IoNode.getDummy, hs.w2, IoNode.getDummy]
  have hlive : ∀ x, Live s' x ↔ Live s x := fun x => by rw [Live, hs.free, Live]
  have hself : ringOf s' (Function.update own t r) t = s.iospace t :: r := by
    rw [ringOf, Function.update_self, hs.iospace]
  have hne : ∀ t', t' ≠ t → ringOf s' (Function.update own t r) t' = ringOf s own t' :=
    fun t' ht' => by rw [ringOf, Function.update_of_ne ht', hs.iospace, ringOf]
  refine ⟨fun t' h0 => ?_, fun t' h0 => ?_, fun t' => ?_, fun t' h0 x hx => ?_, fun t' h0 => ?_,
    fun t' x hx => ?_, fun t' h0 x hx => ?_⟩
  all_goals rcases eq_or_ne t' t with rfl | htt
  all_goals try rw [hs.iospace] at h0
  · exact absurd h0 ht
  · rw [Function.update_of_ne htt]
    exact h.absent t' h0
  · rw [hself]
    exact hring
  · rw [hne t' htt]
    refine (h.ring t' h0).congr (fun x hx => ?_) fun x hx => ?_
    all_goals
      have hx' : x ∉ ringOf s own t := fun hxt => htt (h.ring_unique h0 ht hx hxt)
      have hxr := hout x hx' (hother t' htt h0 x hx)
    · rw [hxr.1]
    · rw [hxr.2]
  · rw [hself]
    exact hnd
  · rw [hne t' htt]
    exact h.nodup t'
  · rw [hself] at hx
    rw [htid]
    rcases List.mem_cons.mp hx with rfl | hx
    · exact h.tid t' h0 _ List.mem_cons_self
    · exact (hr x hx).1
  · rw [hne t' htt] at hx
    rw [htid]
    exact h.tid t' h0 x hx
  · rw [hs.iospace, hdummy]
    exact h.dummy t' h0
  · rw [hs.iospace, hdummy]
    exact h.dummy t' h0
  · rw [Function.update_self] at hx
    rw [hdummy]
    exact (hr x hx).2.1
  · rw [Function.update_of_ne htt] at hx
    rw [hdummy]
    exact h.notDummy t' x hx
  · rw [hself] at hx
    rw [hlive]
    rcases List.mem_cons.mp hx with rfl | hx
    · exact h.live t' h0 _ List.mem_cons_self
    · exact (hr x hx).2.2
  · rw [hne t' htt] at hx
    rw [hlive]
    exact h.live t' h0 x hx

/-- **A node is taken out** of the list of its task. -/
lemma deq (h : TasksOk s own) (hn : own t = u ++ n :: v) :
    ∃ s', deqThreadList n s = .ok ((), s') ∧ TasksOk s' (Function.update own t (u ++ v)) ∧
      SameTree s s' := by
  have hmem : n ∈ own t := by rw [hn]; simp
  have ht : s.iospace t ≠ 0 := h.task_of_mem hmem
  have hring := h.ring t ht
  have hnd := h.nodup t
  have hnr : n ∈ ringOf s own t := List.mem_cons_of_mem _ hmem
  have hself : (s.node n).nextSt ≠ n := by
    intro he
    have hone := IsRing.singleton_of_next_self hnd hring hnr (by simp only [he])
    rw [ringOf, hn] at hone
    have hlen := congrArg List.length hone
    simp only [List.length_cons, List.length_append, List.length_nil] at hlen
    omega
  obtain ⟨nx, hnx⟩ : ∃ nx, (s.node n).nextSt = nx := ⟨_, rfl⟩
  obtain ⟨pv, hpv⟩ : ∃ pv, (s.node n).prevSt = pv := ⟨_, rfl⟩
  have hnxr : nx ∈ ringOf s own t := hring.next_mem hnr (by simp only [hnx])
  have hpvr : pv ∈ ringOf s own t := hring.prev_mem hnr (by simp only [hpv])
  have hpn : pv ≠ n := by
    rintro rfl
    have hback := hring.next_of_prev (y := pv) hnr (congrArg some hpv)
    exact hself (by simpa using hback)
  have hnn : nx ≠ n := hnx ▸ hself
  have hl := h.live t ht
  let s₁ := s.write nx fun x => { x with prevSt := pv }
  have h1 : deref n s₁ = .ok (s.node n, s₁) := by
    rw [deref_live (by simpa [s₁] using hl n hnr), IoMdb.write_node_ne hnn.symm]
  have hsame : SameTree s (s₁.write pv fun x => { x with nextSt := nx }) :=
    sameTree_prevSt.trans sameTree_nextSt
  refine ⟨s₁.write pv fun x => { x with nextSt := nx }, ?_, ?_, hsame⟩
  · unfold deqThreadList
    rw [bind_ok (deref_live (hl n hnr)), bind_ok (deref_live (hl n hnr)), hnx, hpv,
      bind_ok (setPrevSt_live (hl nx hnxr)), bind_ok h1, bind_ok h1, hnx, hpv]
    exact setNextSt_live (by simpa [s₁] using hl pv hpvr)
  have hnext : ∀ y, ((s₁.write pv fun x => { x with nextSt := nx }).node y).nextSt =
      if y = pv then nx else (s.node y).nextSt := fun y => by
    rw [nextSt_setNextSt, nextSt_setPrevSt]
  have hprev : ∀ y, ((s₁.write pv fun x => { x with nextSt := nx }).node y).prevSt =
      if y = nx then pv else (s.node y).prevSt := fun y => by
    rw [prevSt_setNextSt, prevSt_setPrevSt]
  have herase : (ringOf s own t).erase n = s.iospace t :: (u ++ v) := by
    have hd : s.iospace t ≠ n := fun he => (List.nodup_cons.mp hnd).1 (he ▸ hmem)
    have hu : n ∉ u := by
      rw [ringOf, hn] at hnd
      exact fun hu => (List.nodup_append.mp (List.nodup_cons.mp hnd).2).2.2 n hu n (by simp) rfl
    rw [ringOf, hn, List.erase_cons_tail (by simpa using hd), List.erase_append_right _ hu,
      List.erase_cons_head]
  have hsub : ∀ x ∈ u ++ v, x ∈ ringOf s own t := fun x hx => by
    rw [ringOf, hn]
    simp only [List.mem_append, List.mem_cons] at hx ⊢
    exact .inr (hx.imp_right .inr)
  refine h.exchange hsame ht (fun x hx _ => ?_) (fun t' ht' h0 x hx hxr => ?_) ?_ ?_ fun x hx => ?_
  · have hxp : x ≠ pv := fun he => hx (he ▸ hpvr)
    have hxn : x ≠ nx := fun he => hx (he ▸ hnxr)
    rw [hnext, hprev, if_neg hxp, if_neg hxn]
    exact ⟨rfl, rfl⟩
  · exact ht' (h.ring_unique h0 ht hx (hsub x hxr))
  · rw [← herase]
    refine hring.erase hnd hnr (by simpa using hself) (congrArg some hpv)
      (congrArg some hnx) ?_ ?_ ?_
      ?_
    · simp only [hnext, if_pos]
    · intro y hy _
      simp only [hnext, if_neg hy]
    · simp only [hprev, if_pos]
    · intro y hy _
      simp only [hprev, if_neg hy]
  · rw [← herase]
    exact hnd.erase n
  · have hx' : x ∈ own t := by
      rw [hn]
      simp only [List.mem_append, List.mem_cons] at hx ⊢
      exact hx.imp_right .inr
    exact ⟨h.tid_of_mem hx', h.notDummy t x hx', hl x (hsub x hx)⟩

/-- The ring read from the node behind `z`, so that `z` comes last. -/
lemma ring_behind (h : TasksOk s own) (ht : s.iospace t ≠ 0) (hz : ringOf s own t = u ++ z :: v) :
    ∃ l, v ++ (u ++ [z]) = (s.node z).nextSt :: l ∧ ((s.node z).nextSt :: l).Nodup ∧
      IsRing (fun x => some (s.node x).nextSt) (fun x => some (s.node x).prevSt)
      ((s.node z).nextSt :: l) ∧
      (s.node (s.node z).nextSt).prevSt = z := by
  have hring := h.ring t ht
  have hnd := h.nodup t
  have hrot : IsRing (fun x => some (s.node x).nextSt) (fun x => some (s.node x).prevSt)
      (v ++ (u ++ [z])) := by
    refine IsRing.rotate_append ?_
    simpa [hz] using hring
  have hrotnd : (v ++ (u ++ [z])).Nodup := by
    rw [List.nodup_append_comm]
    simpa [hz] using hnd
  have hlast : IsRing (fun x => some (s.node x).nextSt) (fun x => some (s.node x).prevSt)
      (z :: (v ++ u)) := by
    have h' := IsRing.rotate_append (u := v ++ u) (v := [z]) (by simpa using hrot)
    simpa using h'
  obtain ⟨l, hl⟩ : ∃ l, v ++ (u ++ [z]) = (s.node z).nextSt :: l := by
    have h1 := (IsRing.links hlast).1
    rw [List.append_assoc] at h1
    cases hv : v ++ (u ++ [z]) with
    | nil => simp at hv
    | cons c l =>
        rw [hv] at h1
        obtain rfl : (s.node z).nextSt = c := by simpa using h1
        exact ⟨l, rfl⟩
  rw [hl] at hrot hrotnd
  refine ⟨l, hl, hrotnd, hrot, ?_⟩
  have h1 := (IsRing.links hrot).2
  rw [← hl, ← List.append_assoc, List.getLast?_concat] at h1
  simpa using h1

end TasksOk

/-- What `enq_thread_list` writes, from live nodes only. -/
lemma enqThreadList_live {b : Word} (hx : Live s x) (hb : Live s b) (hz : Live s z) (hxb : x ≠ b)
    (hbz : (s.node b).prevSt = z) :
    ∃ s', enqThreadList x b s = .ok ((), s') ∧ SameTree s s' ∧
      (∀ y, (s'.node y).nextSt = if y = z then x else if y = x then b else (s.node y).nextSt) ∧
      ∀ y, (s'.node y).prevSt = if y = b then x else if y = x then z else (s.node y).prevSt := by
  let s₁ := (s.write x fun y => { y with nextSt := b }).write x fun y => { y with prevSt := z }
  let s₂ := s₁.write b fun y => { y with prevSt := x }
  have h1 : deref b (s.write x fun y => { y with nextSt := b }) =
      .ok (s.node b, s.write x fun y => { y with nextSt := b }) := by
    rw [deref_live (by simpa using hb), IoMdb.write_node_ne hxb.symm]
  have h2 : deref x s₂ = .ok ({ s.node x with nextSt := b, prevSt := z }, s₂) := by
    rw [deref_live (by simpa [s₁, s₂] using hx), IoMdb.write_node_ne hxb, IoMdb.write_node_self,
      IoMdb.write_node_self]
  have hsame : SameTree s (s₂.write z fun y => { y with nextSt := x }) :=
    ((sameTree_nextSt.trans sameTree_prevSt).trans sameTree_prevSt).trans sameTree_nextSt
  refine ⟨s₂.write z fun y => { y with nextSt := x }, ?_, hsame, fun y => ?_, fun y => ?_⟩
  · unfold enqThreadList
    rw [bind_ok (setNextSt_live hx), bind_ok h1, hbz, bind_ok (setPrevSt_live (by simpa using hx)),
      bind_ok (setPrevSt_live (by simpa using hb)), bind_ok h2]
    exact setNextSt_live (by simpa [s₁, s₂] using hz)
  · rw [nextSt_setNextSt, nextSt_setPrevSt, nextSt_setPrevSt, nextSt_setNextSt]
  · rw [prevSt_setNextSt, prevSt_setPrevSt, prevSt_setPrevSt, prevSt_setNextSt]

namespace TasksOk

/-- **A node is hooked in** behind the node `z` of the ring of its task. -/
lemma enq (h : TasksOk s own) (ht : s.iospace t ≠ 0) (hz : ringOf s own t = u ++ z :: v)
    (hx : ∀ t', s.iospace t' ≠ 0 → x ∉ ringOf s own t') (hl : Live s x)
    (htid : (s.node x).getTid = t) (hdummy : (s.node x).getDummy = 0) :
    ∃ s', enqThreadList x (s.node z).nextSt s = .ok ((), s') ∧
      TasksOk s' (Function.update own t (u ++ z :: x :: v).tail) ∧ SameTree s s' := by
  have hring := h.ring t ht
  have hnd := h.nodup t
  have hzr : z ∈ ringOf s own t := by rw [hz]; simp
  obtain ⟨l, hl', hrotnd, hrot, hbz⟩ := h.ring_behind ht hz
  have hbr : (s.node z).nextSt ∈ ringOf s own t := hring.next_mem hzr rfl
  generalize (s.node z).nextSt = b at hl' hrotnd hrot hbz hbr
  have hxz : x ≠ z := fun he => hx t ht (he ▸ hzr)
  have hxb : x ≠ b := fun he => hx t ht (he ▸ hbr)
  have hlive := h.live t ht
  obtain ⟨s', hrun, hsame, hnext, hprev⟩ :=
    enqThreadList_live hl (hlive b hbr) (hlive z hzr) hxb hbz
  refine ⟨s', hrun, ?_, hsame⟩
  have hhead : u ++ z :: x :: v = s.iospace t :: (u ++ z :: x :: v).tail := by
    rw [ringOf] at hz
    cases u with
    | nil =>
        obtain ⟨rfl, -⟩ : s.iospace t = z ∧ own t = v := by simpa using hz
        rfl
    | cons c u =>
        obtain ⟨rfl, -⟩ : s.iospace t = c ∧ own t = u ++ z :: v := by simpa using hz
        rfl
  have hperm : (u ++ z :: x :: v).Perm (x :: ringOf s own t) := by
    rw [hz]
    exact perm_behind u z x v
  have hsub : ∀ y ∈ (u ++ z :: x :: v).tail, y = x ∨ y ∈ own t := fun y hy => by
    rcases List.mem_cons.mp (hperm.mem_iff.mp (List.mem_of_mem_tail hy)) with rfl | hy'
    · exact .inl rfl
    · rcases List.mem_cons.mp hy' with rfl | hy'
      · have hnd' := hperm.nodup_iff.mpr (List.nodup_cons.mpr ⟨hx t ht, hnd⟩)
        rw [hhead] at hnd'
        exact absurd hy (List.nodup_cons.mp hnd').1
      · exact .inr hy'
  refine h.exchange hsame ht (fun y hy hyr => ?_) (fun t' ht' h0 y hy hyr => ?_) ?_ ?_
    fun y hy => ?_
  · have hyx : y ≠ x := by
      rintro rfl
      have : y ∈ u ++ z :: y :: v := by simp
      rw [hhead] at this
      rcases List.mem_cons.mp this with he | hy'
      · exact hx t ht (he ▸ List.mem_cons_self)
      · exact hyr hy'
    have hyz : y ≠ z := fun he => hy (he ▸ hzr)
    have hyb : y ≠ b := fun he => hy (he ▸ hbr)
    rw [hnext, hprev, if_neg hyz, if_neg hyx, if_neg hyb, if_neg hyx]
    exact ⟨rfl, rfl⟩
  · rcases hsub y hyr with rfl | hyo
    · exact hx t' h0 hy
    · exact ht' (h.ring_unique h0 ht hy (List.mem_cons_of_mem _ hyo))
  · rw [← hhead]
    have hins := @IsRing.insert _ _ _
      (fun y => some (s'.node y).nextSt) (fun y => some (s'.node y).prevSt) b x z l hrotnd hrot
      (fun hxl => hx t ht ?_) (congrArg some hbz) ?_ ?_ ?_ ?_ ?_ ?_
    · rw [← hl', List.append_assoc] at hins
      have hfin := IsRing.rotate_append hins
      simpa using hfin
    · rw [← hl'] at hxl
      rw [hz]
      simp only [List.mem_append, List.mem_cons, List.not_mem_nil, or_false] at hxl ⊢
      rcases hxl with h | h | h
      · exact .inr (.inr h)
      · exact .inl h
      · exact .inr (.inl h)
    · simp only [hnext, if_neg hxz, if_pos]
    · simp only [hnext, if_pos]
    · intro y hyx hyz
      simp only [hnext, if_neg hyz, if_neg hyx]
    · simp only [hprev, if_neg hxb, if_pos]
    · simp only [hprev, if_pos]
    · intro y hyx hyb
      simp only [hprev, if_neg hyb, if_neg hyx]
  · rw [← hhead]
    exact hperm.nodup_iff.mpr (List.nodup_cons.mpr ⟨hx t ht, hnd⟩)
  · rcases hsub y hy with rfl | hyo
    · exact ⟨htid, hdummy, hl⟩
    · exact ⟨h.tid_of_mem hyo, h.notDummy t y hyo, hlive y (List.mem_cons_of_mem _ hyo)⟩

end TasksOk

end Hazelnut.Io

import Mathlib.Data.Fintype.EquivFin
import Mathlib.Logic.Relation
import Mathlib.Order.WellFounded

/-!
Who waits for whom.

Among finitely many parties, if every one of a set waits for one of the set, some wait in a cycle.
-/

namespace WaitFor

open Relation

variable {α : Type*} {r : α → α → Prop} {S : Set α}

/-- **Cycles**: a set whose members all wait for a member has a cycle. -/
theorem exists_cycle [Finite α] (hne : S.Nonempty) (h : ∀ a ∈ S, ∃ b ∈ S, r a b) :
    ∃ a ∈ S, TransGen r a a := by
  by_contra hno
  push Not at hno
  have htrans : IsTrans S fun x y => TransGen r y.1 x.1 := ⟨fun _ _ _ h1 h2 => h2.trans h1⟩
  have hirr : Std.Irrefl fun x y : S => TransGen r y.1 x.1 := ⟨fun x => hno x.1 x.2⟩
  have hwf := Finite.wellFounded_of_trans_of_irrefl fun x y : S => TransGen r y.1 x.1
  obtain ⟨a, ha⟩ := hne
  obtain ⟨m, -, hmin⟩ := hwf.has_min Set.univ ⟨⟨a, ha⟩, trivial⟩
  obtain ⟨b, hb, hmb⟩ := h m.1 m.2
  exact hmin ⟨b, hb⟩ trivial (.single hmb)

end WaitFor

import Mathlib.Algebra.BigOperators.Group.List.Basic
import Mathlib.Tactic.Linarith

/-!
# Reserves

A balance that holds back one price for every unit in flight. Holding a unit that the balance
covers, and settling one at no more than its price, keeps every unit covered, whatever the order.
-/

namespace Reserve

structure Account where
  balance : Int
  held : Nat

/-- The balance covers every unit that is held. -/
def Covered (price : Int) (a : Account) : Prop := a.held * price ≤ a.balance

/-- The balance covers one more unit. -/
def Spare (price : Int) (a : Account) : Prop := (a.held + 1) * price ≤ a.balance

/-- What may happen to a reserve. -/
inductive Moves (price : Int) : Account → Account → Prop
  | eased {a b : Account} (held : b.held ≤ a.held) (balance : a.balance ≤ b.balance) :
    Moves price a b
  | settled {a b : Account} (held : b.held < a.held) (balance : a.balance - price ≤ b.balance) :
      Moves price a b
  | held {a b : Account} (spare : Spare price a) (held : b.held = a.held + 1)
      (balance : a.balance ≤ b.balance) : Moves price a b
  /-- A unit that was not held is paid at once. -/
  | paid {a b : Account} (spare : Spare price a) (held : b.held ≤ a.held)
      (balance : a.balance - price ≤ b.balance) : Moves price a b

variable {price : Int} {a b : Account}

theorem covered_moves (hprice : 0 ≤ price) (h : Covered price a) (hm : Moves price a b) :
    Covered price b := by
  unfold Covered at *
  cases hm with
  | eased held balance =>
    have hle : (b.held : Int) * price ≤ a.held * price := by gcongr
    linarith
  | settled held balance =>
    have hle : ((b.held : Int) + 1) * price ≤ a.held * price := by
      gcongr
      exact_mod_cast held
    linarith
  | held spare held balance =>
    unfold Spare at spare
    rw [held]
    push_cast
    exact spare.trans balance
  | paid spare held balance =>
    have hle : (b.held : Int) * price ≤ a.held * price := by gcongr
    unfold Spare at spare
    linarith

theorem Covered.balance_nonneg (hprice : 0 ≤ price) (h : Covered price a) : 0 ≤ a.balance :=
  (mul_nonneg (Int.natCast_nonneg a.held) hprice).trans h

end Reserve

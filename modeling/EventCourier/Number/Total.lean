/-!
# Totals

The sum of a list of counts.
-/

namespace EventCourier

/-- The sum of counts. -/
def total : List Nat → Nat
  | [] => 0
  | n :: ns => n + total ns

end EventCourier

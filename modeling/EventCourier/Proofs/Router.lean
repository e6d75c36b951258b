import EventCourier.Proofs.Dictionary
import EventCourier.Router

/-!
# What a router selects

The last route of a key counts, whatever the case of either (`select_route`). Of the keys of events, one goes to
the time series (`select_forEvents`).
-/

namespace EventCourier.Router

variable {α : Type}

theorem select_only (fallback : α) (key : String) : (only fallback).select key = fallback := rfl

/-- A new route is taken by the keys that are the same in lower case, and by no other. -/
theorem select_route (r : Router α) (key : String) (sink : α) (k : String) :
    (r.route key sink).select k = if lower k = lower (trim key) then sink else r.select k := by
  rw [select, route, Dictionary.get?_insert]
  by_cases h : lower k = lower (trim key)
  · rw [if_pos h, if_pos h.symm, Option.getD_some]
  · rw [if_neg h, if_neg (Ne.symm h), select]

theorem lower_trim_redirectKey : lower (trim redirectKey) = "link.redirected" := by decide +kernel

/-- The time series gets the key of redirects, in any case; the documents get every other key. -/
theorem select_forEvents (timeSeries documents : α) (key : String) :
    (forEvents timeSeries documents).select key =
      if lower key = "link.redirected" then timeSeries else documents := by
  rw [forEvents, select_route, lower_trim_redirectKey, select_only]

end EventCourier.Router

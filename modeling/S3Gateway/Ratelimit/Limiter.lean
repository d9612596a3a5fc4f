import S3Gateway.Lib.TokenBucket
import S3Gateway.S3.Service

/-!
# Rate limiting (`internal/ratelimit/limiter.go`)

A `Limiter` is a token bucket: `Allow` adds what has accrued since the last call, at most
up to `burst`, and takes one token if there is one. Times are in nanoseconds and tokens
are exact rationals, where the code computes with `float64`; the duration between two
calls is exact as well, which it is in the code below 292 years.

`allow_windows`: in any window of any run at most `burst + rate * d` calls are allowed,
and a call is refused only if allowing it would break this for some window.
-/

namespace S3Gateway

open Lib

/-- `Limiter`. -/
structure Limiter where
  rate : ℚ
  burst : Int
  tokens : ℚ
  lastTime : Time
  disabled : Bool

/-- `Duration.Seconds`. -/
def seconds (d : Time) : ℚ := d / 10 ^ 9

theorem seconds_sub (t u : Time) : seconds (t - u) = seconds t - seconds u := by
  unfold seconds
  push_cast
  ring

theorem seconds_mono {t u : Time} (h : t ≤ u) : seconds t ≤ seconds u := by
  unfold seconds
  have hcast : (t : ℚ) ≤ u := by exact_mod_cast h
  gcongr

/-- `NewLimiter`. -/
def newLimiter (now : Time) (rate : ℚ) (burst : Int) : Limiter :=
  if rate ≤ 0 then { rate := 0, burst := 0, tokens := 0, lastTime := 0, disabled := true }
  else { rate, burst, tokens := burst, lastTime := now, disabled := false }

namespace Limiter

/-- `Allow`. -/
def allow (l : Limiter) (now : Time) : Bool × Limiter :=
  if l.disabled then (true, l)
  else
    let elapsed := seconds (now - l.lastTime)
    let tokens := l.tokens + elapsed * l.rate
    let tokens := if tokens > l.burst then (l.burst : ℚ) else tokens
    let l := { l with tokens, lastTime := now }
    if tokens < 1 then (false, l)
    else (true, { l with tokens := tokens - 1 })

/-- The calls of `Allow` at the given times. -/
def calls (l : Limiter) (times : List Time) : List (Grant Time) :=
  outputs (fun l now => (l.allow now).2) (fun l now => ⟨now, (l.allow now).1⟩) l times

/-! ## The limiter is a token bucket -/

/-- An enabled limiter with the parameters and the state of a token bucket. -/
structure Meters (rate : ℚ) (burst : Int) (l : Limiter) (b : TokenBucket ℚ) : Prop where
  enabled : l.disabled = false
  rate_eq : l.rate = rate
  burst_eq : l.burst = burst
  tokens : l.tokens = b.tokens
  last : seconds l.lastTime = b.last

variable {rate : ℚ} {burst : Int} {l : Limiter} {b : TokenBucket ℚ}

theorem meters_newLimiter (hrate : 0 < rate) (start : Time) :
    Meters rate burst (newLimiter start rate burst) ⟨burst, seconds start⟩ := by
  rw [newLimiter, if_neg (not_le.mpr hrate)]
  exact ⟨rfl, rfl, rfl, rfl, rfl⟩

/-- The limiter clips with a comparison, the bucket with a minimum. -/
theorem Meters.refill (h : Meters rate burst l b) (now : Time) :
    (if l.tokens + seconds (now - l.lastTime) * l.rate > l.burst then (l.burst : ℚ)
      else l.tokens + seconds (now - l.lastTime) * l.rate)
      = b.refill (burst : ℚ) rate (seconds now) := by
  rw [TokenBucket.refill, seconds_sub, h.last, h.tokens, h.rate_eq, h.burst_eq]
  split
  · next hgt => exact (min_eq_left hgt.le).symm
  · next hle => exact (min_eq_right (not_lt.mp hle)).symm

theorem Meters.allow (h : Meters rate burst l b) (now : Time) :
    (l.allow now).1 = b.grants (burst : ℚ) rate (seconds now) ∧
      Meters rate burst (l.allow now).2 (b.take (burst : ℚ) rate (seconds now)) := by
  have hrefill := h.refill now
  unfold Limiter.allow TokenBucket.take TokenBucket.grants
  rw [h.enabled, if_neg (by decide)]
  dsimp only
  rw [hrefill]
  split
  · next hlt =>
    rw [decide_eq_false (not_le.mpr hlt), if_neg (by decide), sub_zero]
    exact ⟨rfl, rfl, h.rate_eq, h.burst_eq, rfl, rfl⟩
  · next hge =>
    rw [decide_eq_true (not_lt.mp hge), if_pos rfl]
    exact ⟨rfl, rfl, h.rate_eq, h.burst_eq, rfl, rfl⟩

/-- A call, timed in seconds. -/
def inSeconds (c : Grant Time) : Grant ℚ := ⟨seconds c.time, c.granted⟩

theorem Meters.calls (h : Meters rate burst l b) (times : List Time) :
    (l.calls times).map inSeconds = b.calls (burst : ℚ) rate (times.map seconds) := by
  induction times generalizing l b with
  | nil => rfl
  | cons now times ih =>
    obtain ⟨hgrant, hnext⟩ := h.allow now
    show inSeconds ⟨now, (l.allow now).1⟩ :: ((l.allow now).2.calls times).map inSeconds = _
    rw [ih hnext, hgrant]
    rfl

theorem granted_inSeconds (calls : List (Grant Time)) :
    granted (calls.map inSeconds) = granted calls := by
  rw [granted, List.countP_map]
  rfl

/-- Windows are the same in nanoseconds and in seconds. -/
theorem window_inSeconds {start : Time} {calls : List (Grant Time)} {s : ℚ} {n : Nat}
    (h : Window (seconds start) (calls.map inSeconds) s n) :
    ∃ t, s = seconds t ∧ Window start calls t n := by
  cases h with
  | whole => exact ⟨start, rfl, granted_inSeconds calls ▸ .whole⟩
  | since c rest hsuf =>
    obtain ⟨before, hbefore⟩ := hsuf
    obtain ⟨l₁, l₂, rfl, -, hmap⟩ := List.map_eq_append_iff.mp hbefore.symm
    obtain ⟨d, l, rfl, rfl, rfl⟩ := List.map_eq_cons_iff.mp hmap
    refine ⟨d.time, rfl, ?_⟩
    rw [← List.map_cons, granted_inSeconds]
    exact .since d l (List.suffix_append l₁ (d :: l))

end Limiter

/-- The limiter keeps the bound, and refuses no call that the bound has room for. For every
rate and burst and all calls of `Allow` at non-decreasing times:

- of the calls of a window that starts with `c` and ends with `d`, at most
  `burst + rate * (d - c)` are allowed;
- if a call is refused, then some window that ends with it, and starts at a call or when the
  limiter was created, would have got more if it had been allowed. -/
theorem allow_windows {rate : ℚ} {burst : Int} (hrate : 0 < rate) (hburst : 0 ≤ burst)
    (start : Time) {times : List Time} (hmono : times.Pairwise (· ≤ ·)) :
    (∀ before window after c d,
      (newLimiter start rate burst).calls times = before ++ window ++ after →
      window.head? = some c → window.getLast? = some d →
      (granted window : ℚ) ≤ burst + rate * seconds (d.time - c.time)) ∧
    ∀ before c after, (newLimiter start rate burst).calls times = before ++ c :: after →
      c.granted = false → ∃ s n, Window start (before ++ [⟨c.time, true⟩]) s n ∧
        burst + rate * seconds (c.time - s) < n := by
  have hcalls := (Limiter.meters_newLimiter hrate start : Limiter.Meters rate burst _ _).calls times
  constructor
  · intro before window after c d h hc hd
    rw [h, List.map_append, List.map_append] at hcalls
    have hle := TokenBucket.granted_le (by exact_mod_cast hburst) hrate.le
      (hmono.map seconds fun _ _ => seconds_mono) hcalls.symm
      (c := Limiter.inSeconds c) (d := Limiter.inSeconds d) (by simp [hc]) (by simp [hd])
    rw [Limiter.granted_inSeconds] at hle
    rw [seconds_sub, mul_comm]
    exact hle
  · intro before c after h hc
    rw [h, List.map_append, List.map_cons] at hcalls
    have hiff := (TokenBucket.granted_iff hcalls.symm).not.mp (by simp [Limiter.inSeconds, hc])
    push Not at hiff
    obtain ⟨s, n, hw, hlt⟩ := hiff
    have hmap : before.map Limiter.inSeconds ++ [⟨seconds c.time, true⟩]
        = (before ++ [(⟨c.time, true⟩ : Grant Time)]).map Limiter.inSeconds := by
      simp [Limiter.inSeconds]
    obtain ⟨t, rfl, ht⟩ := Limiter.window_inSeconds (hmap ▸ hw)
    refine ⟨t, n, ht, ?_⟩
    rw [seconds_sub, mul_comm]
    exact hlt

/-- One token, one call a second: of the calls at 0 s, 0 s and 1 s the second is refused. -/
theorem allow_windows_three :
    (newLimiter 0 1 1).calls [0, 0, 10 ^ 9] = [⟨0, true⟩] ++ ⟨0, false⟩ :: [⟨10 ^ 9, true⟩] ∧
      ∃ s n, Window 0 ([⟨0, true⟩] ++ [⟨0, true⟩]) s n ∧
        (1 : Int) + (1 : ℚ) * seconds (0 - s) < n := by
  have hcalls : (newLimiter 0 1 1).calls [0, 0, 10 ^ 9]
      = [⟨0, true⟩] ++ ⟨0, false⟩ :: [⟨10 ^ 9, true⟩] := by decide +kernel
  exact ⟨hcalls, (allow_windows one_pos one_pos.le 0 (by decide)).2 _ _ _ hcalls rfl⟩

end S3Gateway

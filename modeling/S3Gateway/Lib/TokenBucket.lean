import S3Gateway.Lib.Run

/-!
# Token buckets

A token bucket fills at a constant rate up to `burst` and pays one token for each call it
grants. It keeps one number, but decides about windows: `le_refill_iff` says that the
tokens at hand are the least that any window ending now leaves, over all windows that
start at an earlier call or at the beginning. So a call is granted exactly if no window
that ends with it gets more than `burst` calls and `rate` per unit of time
(`grants_iff`), and no window of a run ever gets more (`granted_le`).
-/

namespace S3Gateway.Lib

/-- A call and whether it was granted. -/
structure Grant (K : Type) where
  time : K
  granted : Bool
  deriving DecidableEq

/-- The number of granted calls. -/
def granted {K : Type} (calls : List (Grant K)) : Nat := calls.countP (·.granted)

theorem granted_append {K : Type} (calls calls' : List (Grant K)) :
    granted (calls ++ calls') = granted calls + granted calls' :=
  List.countP_append ..

/-- A window that ends after `calls`, which began at `start`: where it starts and how many
calls were granted in it. -/
inductive Window {K : Type} (start : K) (calls : List (Grant K)) : K → Nat → Prop where
  | whole : Window start calls start (granted calls)
  | since (c : Grant K) (rest : List (Grant K)) (h : c :: rest <:+ calls) :
      Window start calls c.time (granted (c :: rest))

/-- A window after one more call is a window before it, or starts with the call. -/
theorem window_concat {K : Type} {start : K} {calls : List (Grant K)} {c : Grant K} {s : K}
    {n : Nat} : Window start (calls ++ [c]) s n ↔
      (s = c.time ∧ n = granted [c]) ∨ ∃ m, Window start calls s m ∧ n = m + granted [c] := by
  constructor
  · intro h
    cases h with
    | whole => exact Or.inr ⟨_, .whole, granted_append calls [c]⟩
    | since d rest hsuf =>
      rcases List.suffix_concat_iff.mp hsuf with h | ⟨l, hl, hsuf'⟩
      · cases h
      · cases l with
        | nil =>
          cases hl
          exact Or.inl ⟨rfl, rfl⟩
        | cons d' l =>
          obtain ⟨rfl, rfl⟩ := List.cons.inj hl
          exact Or.inr ⟨_, .since d l hsuf', granted_append (d :: l) [c]⟩
  · rintro (⟨rfl, rfl⟩ | ⟨m, h, rfl⟩)
    · exact .since c [] (List.suffix_append calls [c])
    · cases h with
      | whole => exact granted_append calls [c] ▸ .whole
      | since d rest hsuf =>
        rw [← granted_append (d :: rest) [c]]
        exact .since d (rest ++ [c]) (List.suffix_concat_iff.mpr (Or.inr ⟨d :: rest, rfl, hsuf⟩))

/-- What a token bucket keeps. -/
structure TokenBucket (K : Type) where
  tokens : K
  last : K

namespace TokenBucket

variable {K : Type} [Field K] [LinearOrder K]

/-- The tokens at hand at `now`. -/
def refill (burst rate : K) (b : TokenBucket K) (now : K) : K :=
  min burst (b.tokens + (now - b.last) * rate)

/-- Whether a call at `now` is granted. -/
def grants (burst rate : K) (b : TokenBucket K) (now : K) : Bool :=
  decide (1 ≤ b.refill burst rate now)

/-- The bucket after a call at `now`. -/
def take (burst rate : K) (b : TokenBucket K) (now : K) : TokenBucket K :=
  ⟨b.refill burst rate now - if b.grants burst rate now then 1 else 0, now⟩

/-- The calls of a run. -/
def calls (burst rate : K) (b : TokenBucket K) (times : List K) : List (Grant K) :=
  outputs (take burst rate) (fun b now => ⟨now, b.grants burst rate now⟩) b times

variable {burst rate start : K}

/-- The tokens are the least that any window leaves. -/
def Tracks (burst rate start : K) (calls : List (Grant K)) (b : TokenBucket K) : Prop :=
  ∀ x now, x ≤ b.tokens + (now - b.last) * rate ↔
    ∀ s n, Window start calls s n → x + n ≤ burst + (now - s) * rate

theorem tracks_nil : Tracks burst rate start [] ⟨burst, start⟩ := by
  intro x now
  constructor
  · intro hx s n hw
    cases hw with
    | whole => simpa [granted] using hx
    | since c rest h => cases List.suffix_nil.mp h
  · intro h
    simpa [granted] using h start 0 .whole

theorem le_refill_iff {calls : List (Grant K)} {b : TokenBucket K}
    (h : Tracks burst rate start calls b) {x now : K} :
    x ≤ b.refill burst rate now ↔
      x ≤ burst ∧ ∀ s n, Window start calls s n → x + n ≤ burst + (now - s) * rate := by
  rw [refill, le_min_iff, h x now]

/-- A call is granted exactly if every window that ends with it has room for it. -/
theorem grants_iff {calls : List (Grant K)} {b : TokenBucket K}
    (h : Tracks burst rate start calls b) {now : K} :
    b.grants burst rate now = true ↔
      1 ≤ burst ∧ ∀ s n, Window start calls s n → 1 + (n : K) ≤ burst + (now - s) * rate := by
  rw [grants, decide_eq_true_iff, le_refill_iff h]

theorem calls_concat (b : TokenBucket K) (times : List K) (now : K) :
    calls burst rate b (times ++ [now]) = calls burst rate b times ++
      [⟨now, (times.foldl (take burst rate) b).grants burst rate now⟩] :=
  outputs_concat ..

theorem time_mem_of_getLast {b : TokenBucket K} {times : List K} {d : Grant K}
    (h : (calls burst rate b times).getLast? = some d) : d.time ∈ times := by
  rcases List.eq_nil_or_concat' times with rfl | ⟨times, t, rfl⟩
  · cases h
  · rw [calls_concat, List.getLast?_concat] at h
    cases h
    exact List.mem_append_right _ (List.mem_singleton_self t)

variable [IsStrictOrderedRing K]

theorem Tracks.take {calls : List (Grant K)} {b : TokenBucket K}
    (h : Tracks burst rate start calls b) (now : K) :
    Tracks burst rate start (calls ++ [⟨now, b.grants burst rate now⟩])
      (b.take burst rate now) := by
  intro x later
  have hg : (granted [(⟨now, b.grants burst rate now⟩ : Grant K)] : K)
      = if b.grants burst rate now then 1 else 0 := by
    cases b.grants burst rate now <;> simp [granted]
  have hshift : x ≤ (b.take burst rate now).tokens + (later - (b.take burst rate now).last) * rate ↔
      x + granted [(⟨now, b.grants burst rate now⟩ : Grant K)] - (later - now) * rate
        ≤ b.refill burst rate now := by
    rw [hg, TokenBucket.take]
    constructor <;> intro hx <;> linarith
  rw [hshift, le_refill_iff h]
  constructor
  · rintro ⟨hnow, hearlier⟩ s n hw
    rcases window_concat.mp hw with ⟨rfl, rfl⟩ | ⟨m, hm, rfl⟩
    · linarith
    · have := hearlier s m hm
      push_cast
      linarith
  · intro hall
    refine ⟨?_, fun s n hw => ?_⟩
    · have := hall now _ (window_concat.mpr (Or.inl ⟨rfl, rfl⟩))
      linarith
    · have := hall s _ (window_concat.mpr (Or.inr ⟨n, hw, rfl⟩))
      push_cast at this
      linarith

/-- After every run the tokens are the least that any window leaves. -/
theorem tracks_calls (times : List K) :
    Tracks burst rate start (calls burst rate ⟨burst, start⟩ times)
      (times.foldl (take burst rate) ⟨burst, start⟩) := by
  induction times using List.reverseRecOn with
  | nil => exact tracks_nil
  | append_singleton times now ih =>
    rw [calls_concat, List.foldl_append]
    exact ih.take now

/-- A call of a run is granted exactly if, with it, no window that ends there gets more than
`burst` calls and `rate` per unit of time. -/
theorem granted_iff {times : List K} {before after : List (Grant K)} {c : Grant K}
    (h : calls burst rate ⟨burst, start⟩ times = before ++ c :: after) :
    c.granted = true ↔
      ∀ s n, Window start (before ++ [⟨c.time, true⟩]) s n →
        (n : K) ≤ burst + (c.time - s) * rate := by
  have hcalls : calls burst rate ⟨burst, start⟩ (times.take (before ++ [c]).length)
      = before ++ [c] := by
    rw [calls, outputs_take]
    exact (congrArg _ (h.trans (List.append_cons ..))).trans (List.take_left ..)
  rcases List.eq_nil_or_concat' (times.take (before ++ [c]).length)
    with hnil | ⟨times', now, htimes⟩
  · rw [hnil] at hcalls
    exact absurd hcalls.symm (List.concat_ne_nil c before)
  · rw [htimes, calls_concat] at hcalls
    obtain rfl := List.append_inj_left' hcalls rfl
    obtain rfl := List.singleton_inj.mp (List.append_inj_right' hcalls rfl)
    have hone : (granted [(⟨now, true⟩ : Grant K)] : K) = 1 := by simp [granted]
    refine (grants_iff (tracks_calls times')).trans ⟨fun ⟨hnow, hall⟩ s n hw => ?_, fun hall => ?_⟩
    · rcases window_concat.mp hw with ⟨rfl, rfl⟩ | ⟨m, hm, rfl⟩
      · rw [hone, sub_self, zero_mul, add_zero]
        exact hnow
      · have := hall s m hm
        push_cast
        rw [hone]
        linarith
    · refine ⟨?_, fun s n hw => ?_⟩
      · have := hall now _ (window_concat.mpr (Or.inl ⟨rfl, rfl⟩))
        rw [hone] at this
        linarith
      · have := hall s _ (window_concat.mpr (Or.inr ⟨n, hw, rfl⟩))
        push_cast at this
        rw [hone] at this
        linarith

/-- No window that ends with the last call gets more than `burst` calls and `rate` per
unit of time. -/
theorem granted_suffix_le (hburst : 0 ≤ burst) (hrate : 0 ≤ rate) {times : List K}
    (hmono : times.Pairwise (· ≤ ·)) {c d : Grant K} {rest : List (Grant K)}
    (h : c :: rest <:+ calls burst rate ⟨burst, start⟩ times)
    (hd : (calls burst rate ⟨burst, start⟩ times).getLast? = some d) :
    (granted (c :: rest) : K) ≤ burst + (d.time - c.time) * rate := by
  induction times using List.reverseRecOn generalizing c d rest with
  | nil => cases List.suffix_nil.mp h
  | append_singleton times now ih =>
    obtain ⟨htimes, -, hle⟩ := List.pairwise_append.mp hmono
    rw [calls_concat] at h hd
    rw [List.getLast?_concat] at hd
    cases hd
    obtain ⟨l, hl, hsuf⟩ := (List.suffix_concat_iff.mp h).resolve_left (List.cons_ne_nil c rest)
    cases hg : (times.foldl (take burst rate) ⟨burst, start⟩).grants burst rate now with
    | true =>
      -- the last call has room in every window, in this one too
      obtain ⟨hone, hall⟩ := (grants_iff (tracks_calls times)).mp hg
      rw [hg] at hl
      cases l with
      | nil =>
        cases hl
        simpa [granted] using hone
      | cons d l =>
        obtain rfl := (List.cons.inj hl).1
        have hcount : granted (c :: l ++ [⟨now, true⟩]) = granted (c :: l) + 1 := granted_append ..
        have hroom := hall c.time _ (.since c l hsuf)
        rw [hl, hcount]
        push_cast
        linarith
    | false =>
      -- the last call adds nothing, and the window before it was shorter
      rw [hg] at hl
      cases l with
      | nil =>
        cases hl
        simpa [granted] using hburst
      | cons d l =>
        obtain rfl := (List.cons.inj hl).1
        have hcount : granted (c :: l ++ [⟨now, false⟩]) = granted (c :: l) := granted_append ..
        obtain ⟨e, he⟩ : ∃ e, (calls burst rate ⟨burst, start⟩ times).getLast? = some e := by
          obtain ⟨before, hbefore⟩ := hsuf
          rw [← hbefore, List.getLast?_append, List.getLast?_cons]
          exact ⟨_, rfl⟩
        have hnow := hle e.time (time_mem_of_getLast he) now (List.mem_singleton_self now)
        have hmul := mul_le_mul_of_nonneg_right (sub_le_sub_right hnow c.time) hrate
        rw [hl, hcount]
        exact (ih htimes hsuf he).trans (by linarith)

/-- No window of a run gets more than `burst` calls and `rate` per unit of time. -/
theorem granted_le (hburst : 0 ≤ burst) (hrate : 0 ≤ rate) {times : List K}
    (hmono : times.Pairwise (· ≤ ·)) {before window after : List (Grant K)} {c d : Grant K}
    (h : calls burst rate ⟨burst, start⟩ times = before ++ window ++ after)
    (hc : window.head? = some c) (hd : window.getLast? = some d) :
    (granted window : K) ≤ burst + (d.time - c.time) * rate := by
  have hcalls : calls burst rate ⟨burst, start⟩ (times.take (before ++ window).length)
      = before ++ window := by
    rw [calls, outputs_take]
    exact (congrArg _ h).trans (List.take_left ..)
  obtain ⟨rest, rfl⟩ := List.head?_eq_some_iff.mp hc
  refine granted_suffix_le hburst hrate (hmono.sublist (List.take_sublist _ _))
    (hcalls ▸ List.suffix_append before (c :: rest)) ?_
  rw [hcalls, List.getLast?_append, hd]
  rfl

end TokenBucket

end S3Gateway.Lib

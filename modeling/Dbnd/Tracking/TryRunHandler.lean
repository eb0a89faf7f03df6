import Dbnd.Tracking.Python

/-! `try_run_handler`: call a store's handler until it returns, giving up on try
number `tries`. The handler is any call that changes the state it runs in, so
a store may fail, recover or fail again from one attempt to the next. -/
namespace Dbnd.Tracking

variable {σ α : Type}

/-- The `while True` loop of `try_run_handler`, at try number `tryNum`. Each turn
spends one unit of `fuel`; `none` is a loop that has not ended. -/
def tryRunHandler.loop (tries : Int) (handler : σ → Outcome α × σ) :
    Nat → Int → σ → Option (Outcome α × σ)
  | 0, _, _ => none
  | fuel + 1, tryNum, s =>
    match handler s with
    | (.returned value, s') => some (.returned value, s')
    | (.raised exc, s') =>
      if tryNum = tries then some (.raised exc, s')
      else tryRunHandler.loop tries handler fuel (tryNum + 1) s'

/-- `try_run_handler(tries, store, handler_name, kwargs)`, where `handler` is the
call `getattr(store, handler_name)(**kwargs)`. -/
def tryRunHandler (tries : Int) (handler : σ → Outcome α × σ) (fuel : Nat) (s : σ) :
    Option (Outcome α × σ) :=
  tryRunHandler.loop tries handler fuel 1 s

/-! ### Consecutive calls -/

/-- The state after `n` consecutive calls of `handler` from `s`. -/
def afterCalls (handler : σ → Outcome α × σ) : Nat → σ → σ
  | 0, s => s
  | n + 1, s => afterCalls handler n (handler s).2

/-- How each of `n` consecutive calls of `handler` from `s` ends. -/
def outcomesFrom (handler : σ → Outcome α × σ) : Nat → σ → List (Outcome α)
  | 0, _ => []
  | n + 1, s => (handler s).1 :: outcomesFrom handler n (handler s).2

/-- How call `j + 1` of the consecutive calls from `s` ends. -/
def nthOutcome (handler : σ → Outcome α × σ) (j : Nat) (s : σ) : Outcome α :=
  (handler (afterCalls handler j s)).1

/-- `min k b`, for `k` the 1-based index of the first of the consecutive calls
from `s` that returns (`k = ∞` when none does). -/
def callsWithin (handler : σ → Outcome α × σ) (b : Nat) (s : σ) : Nat :=
  min ((outcomesFrom handler b s).findIdx Outcome.isReturned + 1) b

variable (handler : σ → Outcome α × σ)

@[simp] theorem afterCalls_zero (s : σ) : afterCalls handler 0 s = s := rfl

theorem afterCalls_succ (n : Nat) (s : σ) :
    afterCalls handler (n + 1) s = afterCalls handler n (handler s).2 := rfl

@[simp] theorem nthOutcome_zero (s : σ) : nthOutcome handler 0 s = (handler s).1 := rfl

theorem nthOutcome_succ (j : Nat) (s : σ) :
    nthOutcome handler (j + 1) s = nthOutcome handler j (handler s).2 := rfl

theorem outcomesFrom_getElem (n j : Nat) (s : σ) (h : j < (outcomesFrom handler n s).length) :
    (outcomesFrom handler n s)[j] = nthOutcome handler j s := by
  induction n generalizing j s with
  | zero => simp [outcomesFrom] at h
  | succ n ih =>
    cases j with
    | zero => rfl
    | succ j => exact ih j _ (by simpa [outcomesFrom] using h)

@[simp] theorem length_outcomesFrom (n : Nat) (s : σ) :
    (outcomesFrom handler n s).length = n := by
  induction n generalizing s <;> simp_all [outcomesFrom]

theorem callsWithin_succ (b : Nat) (s : σ) :
    callsWithin handler (b + 1) s =
      if (handler s).1.isReturned then 1 else callsWithin handler b (handler s).2 + 1 := by
  unfold callsWithin
  rw [outcomesFrom, List.findIdx_cons]
  cases (handler s).1.isReturned <;> simp; omega

@[simp] theorem callsWithin_zero (s : σ) : callsWithin handler 0 s = 0 := by
  simp [callsWithin]

theorem callsWithin_pos {b : Nat} (hb : 0 < b) (s : σ) : 0 < callsWithin handler b s := by
  unfold callsWithin
  omega

theorem callsWithin_le (b : Nat) (s : σ) : callsWithin handler b s ≤ b :=
  Nat.min_le_right _ _

theorem callsWithin_of_first_returned {b k : Nat} (s : σ) (hk : 1 ≤ k) (hkb : k ≤ b)
    (hret : (nthOutcome handler (k - 1) s).isReturned)
    (hbefore : ∀ j < k - 1, (nthOutcome handler j s).isReturned = false) :
    callsWithin handler b s = k := by
  have hidx : (outcomesFrom handler b s).findIdx Outcome.isReturned = k - 1 := by
    rw [List.findIdx_eq (by simp; omega)]
    refine ⟨by rwa [outcomesFrom_getElem], fun j hj => ?_⟩
    rw [outcomesFrom_getElem]
    exact hbefore j hj
  unfold callsWithin
  omega

theorem callsWithin_of_all_raised {b : Nat} (s : σ)
    (hraised : ∀ j < b, (nthOutcome handler j s).isReturned = false) :
    callsWithin handler b s = b := by
  have hall : ∀ x ∈ outcomesFrom handler b s, x.isReturned = false := by
    intro x hx
    obtain ⟨j, hj, rfl⟩ := List.getElem_of_mem hx
    rw [outcomesFrom_getElem]
    exact hraised j (by simpa using hj)
  have hidx := List.findIdx_eq_length.mpr hall
  rw [length_outcomesFrom] at hidx
  unfold callsWithin
  omega

/-! ### The loop against its budget -/

namespace tryRunHandler

theorem loop_mono (tries : Int) {fuel fuel' : Nat} (hle : fuel ≤ fuel') {tryNum : Int} {s : σ}
    {r : Outcome α × σ} (h : loop tries handler fuel tryNum s = some r) :
    loop tries handler fuel' tryNum s = some r := by
  induction fuel generalizing fuel' tryNum s with
  | zero => simp [loop] at h
  | succ fuel ih =>
    obtain ⟨fuel', rfl⟩ : ∃ f, fuel' = f + 1 := ⟨fuel' - 1, by omega⟩
    rcases hs : handler s with ⟨_ | exc, s'⟩
    · simpa [loop, hs] using h
    · by_cases htry : tryNum = tries
      · simpa [loop, hs, htry] using h
      · simp only [loop, hs, htry, if_false] at h ⊢
        exact ih (by omega) h

theorem loop_eq (tries : Int) (m : Nat) (tryNum : Int) (s : σ) (fuel : Nat) (hfuel : m < fuel)
    (htry : tryNum + m = tries) :
    loop tries handler fuel tryNum s =
      some (nthOutcome handler (callsWithin handler (m + 1) s - 1) s,
        afterCalls handler (callsWithin handler (m + 1) s) s) := by
  obtain ⟨f, rfl⟩ : ∃ f, fuel = f + 1 := ⟨fuel - 1, by omega⟩
  induction m generalizing tryNum s f with
  | zero =>
    rcases hs : handler s with ⟨_ | exc, s'⟩ <;>
      simp [loop, hs, callsWithin_succ, afterCalls_succ, show tryNum = tries by omega]
  | succ m ih =>
    rcases hs : handler s with ⟨_ | exc, s'⟩
    · simp [loop, hs, callsWithin_succ, afterCalls_succ]
    · obtain ⟨c, hc⟩ : ∃ c, callsWithin handler (m + 1) s' = c + 1 :=
        ⟨_, (Nat.succ_pred_eq_of_pos (callsWithin_pos handler (Nat.succ_pos m) s')).symm⟩
      obtain ⟨f, rfl⟩ : ∃ g, f = g + 1 := ⟨f - 1, by omega⟩
      rw [loop, hs]
      simp only [show tryNum ≠ tries by omega, if_false]
      rw [ih (tryNum + 1) s' (by omega) f (by omega), callsWithin_succ handler (m + 1) s, hs]
      simp [hc, nthOutcome_succ, afterCalls_succ, hs]

/-- Past try number `tries` the re-raise never fires: the loop only returns. -/
theorem loop_ne_raised (tries : Int) {fuel : Nat} {tryNum : Int} (htry : tries < tryNum) (s : σ)
    (exc : Exc) (s' : σ) : loop tries handler fuel tryNum s ≠ some (.raised exc, s') := by
  induction fuel generalizing tryNum s with
  | zero => simp [loop]
  | succ fuel ih =>
    rcases hs : handler s with ⟨_ | e, t⟩
    · simp [loop, hs]
    · simp only [loop, hs, show tryNum ≠ tries by omega, if_false]
      exact ih (by omega) t

theorem loop_eq_none (tries : Int) {fuel : Nat} {tryNum : Int} (htry : tries < tryNum) (s : σ)
    (hraised : ∀ j, (nthOutcome handler j s).isReturned = false) :
    loop tries handler fuel tryNum s = none := by
  induction fuel generalizing tryNum s with
  | zero => rfl
  | succ fuel ih =>
    rcases hs : handler s with ⟨_ | e, t⟩
    · simpa [hs] using hraised 0
    · simp only [loop, hs, show tryNum ≠ tries by omega, if_false]
      have ht : t = (handler s).2 := by rw [hs]
      rw [ht]
      exact ih (by omega) _ fun j => hraised (j + 1)

theorem loop_eq_of_first_returned (tries : Int) {tryNum : Int} (htry : tries < tryNum) (k : Nat)
    (s : σ) (hret : (nthOutcome handler k s).isReturned)
    (hbefore : ∀ j < k, (nthOutcome handler j s).isReturned = false) {fuel : Nat} (hfuel : k < fuel) :
    loop tries handler fuel tryNum s = some (nthOutcome handler k s, afterCalls handler (k + 1) s) := by
  obtain ⟨fuel, rfl⟩ : ∃ f, fuel = f + 1 := ⟨fuel - 1, by omega⟩
  induction k generalizing tryNum s fuel with
  | zero =>
    rcases hs : handler s with ⟨_ | e, t⟩
    · simp [loop, hs, afterCalls_succ]
    · simp [hs] at hret
  | succ k ih =>
    rcases hs : handler s with ⟨_ | e, t⟩
    · simpa [hs] using hbefore 0 (by omega)
    · obtain ⟨f, rfl⟩ : ∃ g, fuel = g + 1 := ⟨fuel - 1, by omega⟩
      rw [loop, hs]
      simp only [show tryNum ≠ tries by omega, if_false]
      have ht : t = (handler s).2 := by rw [hs]
      rw [ht, nthOutcome_succ, afterCalls_succ handler (k + 1)]
      exact ih (by omega) _ hret (fun j hj => hbefore (j + 1) (by omega)) f (by omega)

end tryRunHandler

theorem tryRunHandler_eq (s : σ) {tries : Int} (htries : 1 ≤ tries) {fuel : Nat}
    (hfuel : tries.toNat ≤ fuel) :
    tryRunHandler tries handler fuel s =
      some (nthOutcome handler (callsWithin handler tries.toNat s - 1) s,
        afterCalls handler (callsWithin handler tries.toNat s) s) := by
  have h := tryRunHandler.loop_eq handler tries (tries.toNat - 1) 1 s fuel (by omega) (by omega)
  rwa [show tries.toNat - 1 + 1 = tries.toNat by omega] at h

theorem tryRunHandler_eq_of_some {s : σ} {tries : Int} (htries : 1 ≤ tries) {fuel : Nat}
    {r : Outcome α × σ} (h : tryRunHandler tries handler fuel s = some r) :
    r = (nthOutcome handler (callsWithin handler tries.toNat s - 1) s,
      afterCalls handler (callsWithin handler tries.toNat s) s) := by
  have hmax := tryRunHandler.loop_mono handler tries (Nat.le_max_left fuel tries.toNat) h
  rw [← tryRunHandler, tryRunHandler_eq handler s htries (Nat.le_max_right _ _)] at hmax
  exact (Option.some.inj hmax).symm

theorem tryRunHandler_of_returned (tries : Int) {s : σ} (hret : (handler s).1.isReturned)
    {fuel : Nat} (hfuel : 0 < fuel) : tryRunHandler tries handler fuel s = some (handler s) := by
  obtain ⟨fuel, rfl⟩ : ∃ f, fuel = f + 1 := ⟨fuel - 1, by omega⟩
  rcases hs : handler s with ⟨_ | e, s'⟩
  · simp [tryRunHandler, tryRunHandler.loop, hs]
  · simp [hs] at hret

/-- For `tries ≥ 1`, `try_run_handler` ends after `min k tries` calls, `k` the
first call that returns: with the value of call `k` when `k ≤ tries`, and
otherwise raising what call `tries` raised. -/
theorem tryRunHandler_first_return_or_last_raise (s : σ) {tries : Int} (htries : 1 ≤ tries)
    {fuel : Nat} (hfuel : tries.toNat ≤ fuel) :
    (∀ k : Nat, 1 ≤ k → (k : Int) ≤ tries → (nthOutcome handler (k - 1) s).isReturned →
      (∀ j < k - 1, (nthOutcome handler j s).isReturned = false) →
      tryRunHandler tries handler fuel s =
        some (nthOutcome handler (k - 1) s, afterCalls handler k s)) ∧
    ((∀ j < tries.toNat, (nthOutcome handler j s).isReturned = false) →
      tryRunHandler tries handler fuel s =
        some (nthOutcome handler (tries.toNat - 1) s, afterCalls handler tries.toNat s)) := by
  rw [tryRunHandler_eq handler s htries hfuel]
  refine ⟨fun k hk hkt hret hbefore => ?_, fun hraised => ?_⟩
  · rw [callsWithin_of_first_returned handler s hk (by omega) hret hbefore]
  · rw [callsWithin_of_all_raised handler s hraised]

theorem tryRunHandler_busy_twice :
    tryRunHandler 3 (fun n : Nat => (if n < 2 then .raised ⟨false, "busy"⟩ else .returned n, n + 1))
      3 0 = some (.returned 2, 3) :=
  (tryRunHandler_first_return_or_last_raise _ 0 (by decide) (by decide)).1 3 (by decide) (by decide)
    (by decide) (by decide)

/-- With `tries ≤ 0` the re-raise of `try_run_handler` never fires: it never
raises, it ends after exactly `k` calls with the value of call `k` when `k` is
the first that returns, and it runs forever when no call returns. -/
theorem tryRunHandler_unbounded (s : σ) {tries : Int} (htries : tries < 1) :
    (∀ fuel exc s', tryRunHandler tries handler fuel s ≠ some (.raised exc, s')) ∧
    (∀ k : Nat, 1 ≤ k → (nthOutcome handler (k - 1) s).isReturned →
      (∀ j < k - 1, (nthOutcome handler j s).isReturned = false) → ∀ fuel, k ≤ fuel →
      tryRunHandler tries handler fuel s = some (nthOutcome handler (k - 1) s, afterCalls handler k s)) ∧
    ((∀ j, (nthOutcome handler j s).isReturned = false) → ∀ fuel, tryRunHandler tries handler fuel s = none) := by
  refine ⟨fun fuel exc s' => tryRunHandler.loop_ne_raised handler tries htries s exc s',
    fun k hk hret hbefore fuel hfuel => ?_, fun hraised fuel => ?_⟩
  · have h : tryRunHandler.loop tries handler fuel 1 s =
        some (nthOutcome handler (k - 1) s, afterCalls handler (k - 1 + 1) s) :=
      tryRunHandler.loop_eq_of_first_returned handler tries htries (k - 1) s hret hbefore (by omega)
    rwa [show k - 1 + 1 = k by omega] at h
  · exact tryRunHandler.loop_eq_none handler tries htries s hraised

theorem tryRunHandler_zero_tries_busy_twice :
    tryRunHandler 0 (fun n : Nat => (if n < 2 then .raised ⟨false, "busy"⟩ else .returned n, n + 1))
      3 0 = some (.returned 2, 3) :=
  (tryRunHandler_unbounded _ 0 (by decide)).2.1 3 (by decide) (by decide) (by decide) 3 le_rfl

end Dbnd.Tracking

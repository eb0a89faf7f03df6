import Dbnd.Tracking.FanOut
import Dbnd.Tracking.Run

/-! A run as a caller makes it: operations applied in turn, each with the same fuel,
a caller going on after an operation that raised. With `max_retries ≥ 1` every
retry loop is bounded, so every run ends, and its handler calls are bounded by the
number of operations, of stores at the start and of tries. -/
namespace Dbnd.Tracking

open List

variable {Store Kwargs Val : Type} (env : Env Store Kwargs Val)

namespace CompositeTrackingStore

variable (c : CompositeTrackingStore Store) {fuel : Nat} {name : String} {kwargs : Kwargs}
  {itr : Bool} {bound : Nat}

theorem invokeLoop_within (htries : 1 ≤ c.tries env name)
    (hbound : (c.tries env name).toNat ≤ bound) (hfuel : (c.tries env name).toNat ≤ fuel) :
    ∀ (stores : List Store) (res : Option Val) (failed : List Store) (t : Trace Store Kwargs Val),
      ∃ o calls, c.invokeLoop env fuel name kwargs itr stores res failed t = some (o, t ++ calls) ∧
        calls.length ≤ stores.length * bound
  | [], res, failed, t => ⟨.returned (res, failed), [], by simp [invokeLoop], by simp⟩
  | store :: rest, res, failed, t => by
    obtain ⟨o, t₁, hs⟩ : ∃ o t₁, tryRunHandler (c.tries env name) (callHandler env store name kwargs)
        fuel t = some (o, t₁) := ⟨_, _, tryRunHandler_eq _ t htries hfuel⟩
    obtain ⟨block, rfl, hlen, -⟩ := tryRunHandler_block env htries hbound hs
    have hnext : ∀ res' failed', ∃ o calls, c.invokeLoop env fuel name kwargs itr rest res' failed'
        (t ++ block) = some (o, t ++ calls) ∧ calls.length ≤ (store :: rest).length * bound :=
      fun res' failed' => by
        obtain ⟨o, calls, h, hcalls⟩ := invokeLoop_within htries hbound hfuel rest res' failed' (t ++ block)
        exact ⟨o, block ++ calls, by rw [h, append_assoc],
          by rw [length_append, length_cons, Nat.succ_mul]; omega⟩
    cases o with
    | returned value =>
      simp only [invokeLoop, hs]
      exact hnext _ _
    | raised exc =>
      by_cases hp : (exc.trackerPanic && c.raiseOnError) = true
      · exact ⟨.raised exc, block, by simp [invokeLoop, hs, hp],
          by rw [length_cons, Nat.succ_mul]; omega⟩
      · simp only [invokeLoop, hs, hp, if_false]
        exact hnext _ _

variable [DecidableEq Store]

theorem invoke_within (htries : 1 ≤ c.tries env name) (hbound : (c.tries env name).toNat ≤ bound)
    (hfuel : (c.tries env name).toNat ≤ fuel) (t : Trace Store Kwargs Val) :
    ∃ o c' calls, c.invoke env fuel name kwargs itr t = some (o, c', t ++ calls) ∧
      calls.length ≤ c.stores.length * bound := by
  obtain ⟨o, calls, hl, hlen⟩ : ∃ o calls, c.invokeLoop env fuel name kwargs itr c.stores none [] t =
      some (o, t ++ calls) ∧ calls.length ≤ c.stores.length * bound :=
    c.invokeLoop_within env htries hbound hfuel c.stores none [] t
  rcases o with ⟨res, failed⟩ | exc
  · rcases hr : removeEach c.stores failed with ⟨stores, _ | e⟩
    · exact ⟨.returned res, { c with stores }, calls, by simp [invoke, hl, hr], hlen⟩
    · exact ⟨.raised e, { c with stores }, calls, by simp [invoke, hl, hr], hlen⟩
  · exact ⟨.raised exc, c, calls, by simp [invoke, hl], hlen⟩

end CompositeTrackingStore

variable [DecidableEq Store]

/-- The operations `ops` applied in turn: how each ended, and the state after the last. -/
def runOps (fuel : Nat) : List (Op Kwargs) → CompositeTrackingStore Store × Trace Store Kwargs Val →
    Option (List (Outcome (Option Val)) × CompositeTrackingStore Store × Trace Store Kwargs Val)
  | [], s => some ([], s)
  | op :: ops, s =>
    (step env fuel op s).bind fun (o, s') => (runOps fuel ops s').map fun (os, s'') => (o :: os, s'')

theorem reachable_of_step {fuel : Nat} {op : Op Kwargs} {o : Outcome (Option Val)}
    {s s₁ s₂ : CompositeTrackingStore Store × Trace Store Kwargs Val}
    (hstep : step env fuel op s = some (o, s₁)) (h : Reachable env s₁ s₂) : Reachable env s s₂ := by
  induction h with
  | start => exact .step .start hstep
  | step _ hstep' ih => exact .step ih hstep'

theorem step_maxRetries {fuel : Nat} {op : Op Kwargs} {c c' : CompositeTrackingStore Store}
    {t t' : Trace Store Kwargs Val} {o : Outcome (Option Val)}
    (h : step env fuel op (c, t) = some (o, c', t')) : c'.maxRetries = c.maxRetries := by
  cases op with
  | invoke name kwargs itr =>
    rcases c.invoke_cases env h with ⟨-, -, rfl, -⟩ | ⟨-, -, -, -, -, rfl⟩ <;> rfl
  | disableTrackingApi =>
    cases h
    rfl

theorem step_within (c : CompositeTrackingStore Store) (hmax : 1 ≤ c.maxRetries) {fuel : Nat}
    (hfuel : c.maxRetries.toNat ≤ fuel) (op : Op Kwargs) (t : Trace Store Kwargs Val) :
    ∃ o c' calls, step env fuel op (c, t) = some (o, c', t ++ calls) ∧
      calls.length ≤ c.stores.length * c.maxRetries.toNat := by
  cases op with
  | invoke name kwargs itr =>
    have hbound : (c.tries env name).toNat ≤ c.maxRetries.toNat := by
      unfold CompositeTrackingStore.tries
      split <;> omega
    exact c.invoke_within env (c.one_le_tries env hmax name) hbound (hbound.trans hfuel) t
  | disableTrackingApi => exact ⟨.returned none, c.disableTrackingApi env, [], by simp [step], by simp⟩

/-- With `max_retries ≥ 1` and fuel for `max_retries` turns, every sequence of
operations runs to its end with one outcome per operation, whatever the stores
answer and whichever operations raise, in a state reachable from its start; the
`n` operations call the store handlers at most `n · s · max_retries` times, `s` the
number of stores at the start. -/
theorem runOps_ends_within_budget (c : CompositeTrackingStore Store) (hmax : 1 ≤ c.maxRetries)
    {fuel : Nat} (hfuel : c.maxRetries.toNat ≤ fuel) (ops : List (Op Kwargs))
    (t : Trace Store Kwargs Val) :
    ∃ os c' calls, runOps env fuel ops (c, t) = some (os, c', t ++ calls) ∧ os.length = ops.length ∧
      Reachable env (c, t) (c', t ++ calls) ∧
      calls.length ≤ ops.length * (c.stores.length * c.maxRetries.toNat) := by
  induction ops generalizing c t with
  | nil => exact ⟨[], c, [], by simp [runOps], rfl, by simpa using .start, by simp⟩
  | cons op ops ih =>
    obtain ⟨o, c₁, calls₁, hstep, hlen₁⟩ := step_within env c hmax hfuel op t
    have hm := step_maxRetries env hstep
    have hs : c₁.stores.length * c.maxRetries.toNat ≤ c.stores.length * c.maxRetries.toNat :=
      Nat.mul_le_mul_right _ (step_sublist env hstep).length_le
    obtain ⟨os, c', calls, hrun, hos, hreach, hlen⟩ :=
      ih c₁ (hm ▸ hmax) (hm ▸ hfuel) (t ++ calls₁)
    rw [hm] at hlen
    refine ⟨o :: os, c', calls₁ ++ calls, by simp [runOps, hstep, hrun], by simp [hos],
      by simpa using reachable_of_step env hstep hreach, ?_⟩
    have := Nat.mul_le_mul_left ops.length hs
    rw [length_append, length_cons, Nat.succ_mul]
    omega

theorem failing_run_ends :
    1 ≤ (⟨[()], true, true, 2⟩ : CompositeTrackingStore Unit).maxRetries ∧
    ∃ os c' calls, runOps (alwaysRaising ⟨false, "error"⟩) 2
        [.invoke "init_run" () true, .disableTrackingApi] (⟨[()], true, true, 2⟩, []) =
        some (os, c', [] ++ calls) ∧ os.length = 2 ∧
      Reachable (alwaysRaising ⟨false, "error"⟩) (⟨[()], true, true, 2⟩, []) (c', [] ++ calls) ∧
      calls.length ≤ 2 * (1 * (2 : Int).toNat) :=
  ⟨by decide, runOps_ends_within_budget (alwaysRaising ⟨false, "error"⟩) ⟨[()], true, true, 2⟩
    (by decide) (by decide) [.invoke "init_run" () true, .disableTrackingApi] []⟩

end Dbnd.Tracking

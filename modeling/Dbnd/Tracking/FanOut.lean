import Dbnd.Tracking.Invoke

/-! The fan-out `_invoke` performs, said without its loop: each store in list order
gets the calls its budget allows, and the value kept is the last one returned.
`_invoke` refines it whenever its dispatches are bounded. -/
namespace Dbnd.Tracking

open List

variable {Store Kwargs Val : Type} (env : Env Store Kwargs Val) {name : String} {kwargs : Kwargs}

theorem afterCalls_callHandler (store : Store) (n : Nat) (t : Trace Store Kwargs Val) :
    ∃ block, afterCalls (callHandler env store name kwargs) n t = t ++ block ∧ block.length = n ∧
      ∀ call ∈ block, call.store = store ∧ call.name = name ∧ call.kwargs = kwargs ∧
        ∃ t', call.result = env.handler t' store name kwargs := by
  induction n generalizing t with
  | zero => exact ⟨[], by simp⟩
  | succ n ih =>
    obtain ⟨block, hblock, hlen, hall⟩ := ih (callHandler env store name kwargs t).2
    refine ⟨⟨store, name, kwargs, env.handler t store name kwargs⟩ :: block,
      by rw [afterCalls_succ, hblock]; simp [callHandler], by simp [hlen], ?_⟩
    rintro call (_ | ⟨_, hcall⟩)
    · exact ⟨rfl, rfl, rfl, t, rfl⟩
    · exact hall call hcall

variable (name kwargs)

/-- The fan-out as the composite describes it: every store, in list order, gets
`min k b` consecutive calls of its handler (`k` its first call that returns),
and the value kept is that of the last store whose last call returned. -/
def fanOut (b : Nat) : List Store → Option Val → Trace Store Kwargs Val →
    Option Val × Trace Store Kwargs Val
  | [], res, t => (res, t)
  | store :: rest, res, t =>
    fanOut b rest
      ((nthOutcome (callHandler env store name kwargs)
        (callsWithin (callHandler env store name kwargs) b t - 1) t).value?.or res)
      (afterCalls (callHandler env store name kwargs)
        (callsWithin (callHandler env store name kwargs) b t) t)

variable {name kwargs}

theorem dispatches_eq_fanOut {tries : Int} (htries : 1 ≤ tries) {fuel : Nat} {stores : List Store}
    {t t' : Trace Store Kwargs Val} {ds : List (Store × Outcome Val)}
    (h : dispatches env tries fuel name kwargs stores t = some (ds, t')) (res : Option Val) :
    (lastValue ds res, t') = fanOut env name kwargs tries.toNat stores res t := by
  induction stores generalizing res t ds with
  | nil =>
    obtain ⟨rfl, rfl⟩ := by simpa using h
    rfl
  | cons store rest ih =>
    obtain ⟨o, t₁, ds, hs, hrest, rfl⟩ := (dispatches_cons_eq_some env).mp h
    obtain ⟨rfl, rfl⟩ := Prod.mk.inj (tryRunHandler_eq_of_some _ htries hs)
    simpa [fanOut] using ih hrest _

/-- `calls` are, in order, the handler calls of the dispatches of the first stores
of `stores`: one block per store, of at most `bound` calls of that store. -/
inductive DispatchBlocks (bound : Nat) : List Store → Trace Store Kwargs Val → Prop
  | stop (stores : List Store) : DispatchBlocks bound stores []
  | block {store : Store} {rest : List Store} {block calls : Trace Store Kwargs Val} :
      block.length ≤ bound → (∀ call ∈ block, call.store = store) →
      DispatchBlocks bound rest calls → DispatchBlocks bound (store :: rest) (block ++ calls)

theorem tryRunHandler_block {tries : Int} (htries : 1 ≤ tries) {bound : Nat}
    (hbound : tries.toNat ≤ bound) {store : Store} {fuel : Nat} {t t₁ : Trace Store Kwargs Val}
    {o : Outcome Val} (h : tryRunHandler tries (callHandler env store name kwargs) fuel t = some (o, t₁)) :
    ∃ block, t₁ = t ++ block ∧ block.length ≤ bound ∧ ∀ call ∈ block, call.store = store := by
  obtain ⟨-, rfl⟩ := Prod.mk.inj (tryRunHandler_eq_of_some _ htries h)
  obtain ⟨block, hblock, hlen, hall⟩ := afterCalls_callHandler env store
    (callsWithin (callHandler env store name kwargs) tries.toNat t) t
  refine ⟨block, hblock, ?_, fun call hcall => (hall call hcall).1⟩
  have := callsWithin_le (callHandler env store name kwargs) tries.toNat t
  omega

theorem dispatches_blocks {tries : Int} (htries : 1 ≤ tries) {bound : Nat}
    (hbound : tries.toNat ≤ bound) {fuel : Nat} {pre : List Store} {t t₁ : Trace Store Kwargs Val}
    {ds : List (Store × Outcome Val)} (h : dispatches env tries fuel name kwargs pre t = some (ds, t₁)) :
    ∃ calls, t₁ = t ++ calls ∧ ∀ rest more, DispatchBlocks bound rest more →
      DispatchBlocks bound (pre ++ rest) (calls ++ more) := by
  induction pre generalizing t ds with
  | nil =>
    obtain ⟨rfl, rfl⟩ := by simpa using h
    exact ⟨[], by simp, fun rest more h => h⟩
  | cons store pre ih =>
    obtain ⟨o, t₂, ds, hs, hrest, rfl⟩ := (dispatches_cons_eq_some env).mp h
    obtain ⟨block, rfl, hlen, hall⟩ := tryRunHandler_block env htries hbound hs
    obtain ⟨calls, rfl, hblocks⟩ := ih hrest
    refine ⟨block ++ calls, by simp, fun rest more hmore => ?_⟩
    rw [cons_append, append_assoc]
    exact .block hlen hall (hblocks rest more hmore)

namespace CompositeTrackingStore

variable (c : CompositeTrackingStore Store)

theorem one_le_tries (hmax : 1 ≤ c.maxRetries) (name : String) : 1 ≤ c.tries env name := by
  unfold tries
  split <;> omega

variable [DecidableEq Store]

/-- For `max_retries ≥ 1`, an `_invoke` that returns is the fan-out: every store
dispatched once in list order, store `s` called `min k_s b` times in a row with
the call's name and arguments, and the value of the last store that returned. -/
theorem invoke_returned_eq_fanOut (hmax : 1 ≤ c.maxRetries) {fuel : Nat} {itr : Bool}
    {t t' : Trace Store Kwargs Val} {r : Option Val} {c' : CompositeTrackingStore Store}
    (h : c.invoke env fuel name kwargs itr t = some (.returned r, c', t')) :
    (r, t') = fanOut env name kwargs (c.tries env name).toNat c.stores none t := by
  obtain ⟨ds, hd, rfl, -⟩ := c.invoke_returned env h
  exact dispatches_eq_fanOut env (c.one_le_tries env hmax name) hd none

end CompositeTrackingStore

/-- Each store times out on the first call ever made and answers with its own name
afterwards; every name is a state call. -/
def flakyFirstCall : Env Bool Unit Bool :=
  ⟨fun _ => true, fun _ => false, fun _ => true,
    fun t store _ _ => if t.isEmpty then .raised ⟨false, "timeout"⟩ else .returned store⟩

theorem invoke_flaky_store_fans_out :
    1 ≤ (⟨[false, true], true, false, 2⟩ : CompositeTrackingStore Bool).maxRetries ∧
    (⟨[false, true], true, false, 2⟩ : CompositeTrackingStore Bool).invoke flakyFirstCall 2
        "set_run_state" () true [] =
      some (.returned (some true), ⟨[false, true], true, false, 2⟩,
        [⟨false, "set_run_state", (), .raised ⟨false, "timeout"⟩⟩,
          ⟨false, "set_run_state", (), .returned false⟩, ⟨true, "set_run_state", (), .returned true⟩]) ∧
    (some true, [⟨false, "set_run_state", (), .raised ⟨false, "timeout"⟩⟩,
        ⟨false, "set_run_state", (), .returned false⟩, ⟨true, "set_run_state", (), .returned true⟩]) =
      fanOut flakyFirstCall "set_run_state" ()
        ((⟨[false, true], true, false, 2⟩ : CompositeTrackingStore Bool).tries flakyFirstCall
          "set_run_state").toNat [false, true] none [] :=
  have h : (⟨[false, true], true, false, 2⟩ : CompositeTrackingStore Bool).invoke flakyFirstCall 2
      "set_run_state" () true [] =
      some (.returned (some true), ⟨[false, true], true, false, 2⟩,
        [⟨false, "set_run_state", (), .raised ⟨false, "timeout"⟩⟩,
          ⟨false, "set_run_state", (), .returned false⟩, ⟨true, "set_run_state", (), .returned true⟩]) :=
    rfl
  ⟨by decide, h, CompositeTrackingStore.invoke_returned_eq_fanOut flakyFirstCall _ (by decide) h⟩

/-! ### One attempt per store -/

theorem tryRunHandler_one_try {store : Store} {fuel : Nat} {t t' : Trace Store Kwargs Val}
    {o : Outcome Val} (h : tryRunHandler 1 (callHandler env store name kwargs) fuel t = some (o, t')) :
    t' = t ++ [⟨store, name, kwargs, env.handler t store name kwargs⟩] := by
  have hcalls : callsWithin (callHandler env store name kwargs) (1 : Int).toNat t = 1 := by
    rw [show (1 : Int).toNat = 0 + 1 from rfl, callsWithin_succ]
    split <;> simp
  rw [(Prod.mk.inj (tryRunHandler_eq_of_some _ (Int.le_refl 1) h)).2, hcalls]
  rfl

theorem dispatches_one_try {fuel : Nat} {stores : List Store} {t t' : Trace Store Kwargs Val}
    {ds : List (Store × Outcome Val)} (h : dispatches env 1 fuel name kwargs stores t = some (ds, t')) :
    ∃ calls, t' = t ++ calls ∧ calls.map Call.store = stores ∧
      ∀ call ∈ calls, call.name = name ∧ call.kwargs = kwargs := by
  induction stores generalizing t ds with
  | nil =>
    obtain ⟨rfl, rfl⟩ := by simpa using h
    exact ⟨[], by simp, rfl, by simp⟩
  | cons store rest ih =>
    obtain ⟨o, t₁, ds, hs, hrest, rfl⟩ := (dispatches_cons_eq_some env).mp h
    obtain ⟨calls, rfl, hmap, hall⟩ := ih hrest
    refine ⟨⟨store, name, kwargs, env.handler t store name kwargs⟩ :: calls,
      by rw [tryRunHandler_one_try env hs]; simp, by simp [hmap], ?_⟩
    rintro call (_ | ⟨_, hcall⟩)
    · exact ⟨rfl, rfl⟩
    · exact hall call hcall

namespace CompositeTrackingStore

variable [DecidableEq Store] (c : CompositeTrackingStore Store)

/-- A call that is not a state call gets one attempt per store, whatever
`max_retries` is: `_invoke` calls a prefix of the active stores once each, in list
order, with the call's name and arguments, and all of them when it returns. -/
theorem invoke_calls_each_store_once (hns : env.isStateCall name = false) {fuel : Nat} {itr : Bool}
    {t t' : Trace Store Kwargs Val} {o : Outcome (Option Val)} {c' : CompositeTrackingStore Store}
    (h : c.invoke env fuel name kwargs itr t = some (o, c', t')) :
    ∃ calls, t' = t ++ calls ∧ calls.map Call.store <+: c.stores ∧
      (∀ call ∈ calls, call.name = name ∧ call.kwargs = kwargs) ∧
      (o.isReturned → calls.map Call.store = c.stores) := by
  have htries : c.tries env name = 1 := by simp [tries, hns]
  cases o with
  | raised exc =>
    obtain ⟨-, ⟨-, pre, store, post, ds, t₁, hsplit, hd, -, hs⟩, -⟩ := (c.invoke_raised_iff env).mp h
    rw [htries] at hd hs
    obtain ⟨calls, rfl, hmap, hall⟩ := dispatches_one_try env hd
    refine ⟨calls ++ [⟨store, name, kwargs, env.handler (t ++ calls) store name kwargs⟩],
      by rw [tryRunHandler_one_try env hs, append_assoc], ⟨post, by simp [hsplit, hmap]⟩, ?_, by simp⟩
    simp only [mem_append, mem_singleton]
    rintro call (hcall | rfl)
    · exact hall call hcall
    · exact ⟨rfl, rfl⟩
  | returned r =>
    obtain ⟨ds, hd, -⟩ := c.invoke_returned env h
    rw [htries] at hd
    obtain ⟨calls, rfl, hmap, hall⟩ := dispatches_one_try env hd
    exact ⟨calls, rfl, hmap ▸ prefix_refl _, hall, fun _ => hmap⟩

end CompositeTrackingStore

theorem invoke_flaky_store_tried_once :
    ({ flakyFirstCall with isStateCall := fun _ => false } : Env Bool Unit Bool).isStateCall
      "log_metrics" = false ∧
    (⟨[false, true], true, false, -1⟩ : CompositeTrackingStore Bool).invoke
        { flakyFirstCall with isStateCall := fun _ => false } 1 "log_metrics" () true [] =
      some (.returned (some true), ⟨[false, true], true, false, -1⟩,
        [⟨false, "log_metrics", (), .raised ⟨false, "timeout"⟩⟩, ⟨true, "log_metrics", (), .returned true⟩]) ∧
    ∃ calls, ([⟨false, "log_metrics", (), .raised ⟨false, "timeout"⟩⟩,
        ⟨true, "log_metrics", (), .returned true⟩] : Trace Bool Unit Bool) = [] ++ calls ∧
      calls.map Call.store <+: [false, true] ∧
      (∀ call ∈ calls, call.name = "log_metrics" ∧ call.kwargs = ()) ∧
      ((.returned (some true) : Outcome (Option Bool)).isReturned → calls.map Call.store = [false, true]) :=
  have h : (⟨[false, true], true, false, -1⟩ : CompositeTrackingStore Bool).invoke
      { flakyFirstCall with isStateCall := fun _ => false } 1 "log_metrics" () true [] =
      some (.returned (some true), ⟨[false, true], true, false, -1⟩,
        [⟨false, "log_metrics", (), .raised ⟨false, "timeout"⟩⟩, ⟨true, "log_metrics", (), .returned true⟩]) :=
    rfl
  ⟨rfl, h, CompositeTrackingStore.invoke_calls_each_store_once _ _ rfl h⟩

namespace CompositeTrackingStore

variable [DecidableEq Store] (c : CompositeTrackingStore Store)

/-- For `max_retries ≥ 1`, or a call that is not a state call, `_invoke` ends
with fuel for `max(1, max_retries)` turns, and every store it dispatched had its
handler called at most `max(1, max_retries)` times. -/
theorem invoke_ends_within_budget (hbounded : 1 ≤ c.maxRetries ∨ env.isStateCall name = false)
    (itr : Bool) (t : Trace Store Kwargs Val) {fuel : Nat}
    (hfuel : (max 1 c.maxRetries).toNat ≤ fuel) :
    ∃ o c' calls, c.invoke env fuel name kwargs itr t = some (o, c', t ++ calls) ∧
      DispatchBlocks (max 1 c.maxRetries).toNat c.stores calls := by
  have hbound : (c.tries env name).toNat ≤ (max 1 c.maxRetries).toNat := by
    unfold tries
    split <;> omega
  have htries : 1 ≤ c.tries env name := by
    unfold tries
    split <;> simp_all
  by_cases hpanic : c.raiseOnError ∧
      ∃ exc t', FirstPanic env (c.tries env name) fuel name kwargs c.stores t exc t'
  · obtain ⟨hr, exc, t', hfp⟩ := hpanic
    obtain ⟨hp, pre, store, post, ds, t₁, hsplit, hd, hnp, hs⟩ := hfp
    obtain ⟨calls, rfl, hpre⟩ := dispatches_blocks env htries hbound hd
    obtain ⟨block, rfl, hlen, hall⟩ := tryRunHandler_block env htries hbound hs
    refine ⟨.raised exc, c, calls ++ block, (c.invoke_raised_iff env).mpr ⟨hr, ?_, rfl⟩, ?_⟩
    · exact ⟨hp, pre, store, post, ds, t ++ calls, hsplit, hd, hnp, by simpa using hs⟩
    · rw [hsplit, ← append_nil block]
      simpa using hpre _ _ (.block hlen hall (.stop post))
  · obtain ⟨ds, t', hd, h⟩ := c.invoke_returns_of_quiet env htries (hbound.trans hfuel) t hpanic
    obtain ⟨calls, rfl, hblocks⟩ := dispatches_blocks env htries hbound hd
    exact ⟨_, _, calls, h, by simpa using hblocks [] [] (.stop [])⟩

end CompositeTrackingStore

theorem invoke_failing_store_ends :
    ∃ o c' calls, (⟨[true, false], false, true, 2⟩ : CompositeTrackingStore Bool).invoke
        (answeringAndRaising ⟨false, "error"⟩) 2 "set_task_run_state" () true [] =
        some (o, c', [] ++ calls) ∧
      DispatchBlocks (max 1 (2 : Int)).toNat [true, false] calls :=
  CompositeTrackingStore.invoke_ends_within_budget (answeringAndRaising ⟨false, "error"⟩)
    ⟨[true, false], false, true, 2⟩ (.inl (by decide)) true [] (by decide)

/-- With `max_retries = -1`, a store that keeps raising, behind one that answers,
makes `_invoke` of a state call run forever: no fuel is enough. -/
theorem invoke_negative_retries_never_ends :
    ¬ ∃ fuel result, (⟨[true, false], false, true, -1⟩ : CompositeTrackingStore Bool).invoke
      (answeringAndRaising ⟨false, "error"⟩) fuel "set_task_run_state" () true [] = some result := by
  rintro ⟨fuel, result, h⟩
  rw [CompositeTrackingStore.invoke_eq_none (answeringAndRaising ⟨false, "error"⟩)
    ⟨[true, false], false, true, -1⟩ (by simp : false ∈ [true, false]) (by decide) (fun _ => rfl)
    fuel []] at h
  cases h

end Dbnd.Tracking

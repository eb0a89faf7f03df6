import Dbnd.Tracking.FanOut

/-! Failure isolation. When each store either fails every attempt at a call or
answers it, `_invoke` calls the failing stores their whole budget and the others
once, in list order, returns the last answer, and under the removal policy keeps
exactly the stores that answered, which go on answering every later call. -/
namespace Dbnd.Tracking

open List

variable {Store Kwargs Val : Type} (env : Env Store Kwargs Val) {name : String} {kwargs : Kwargs}
  (answers : Store → Bool)

theorem tryRunHandler_classified {store : Store} {tries : Int} {fuel : Nat} (hfuel : 0 < fuel)
    (hfail : answers store = false →
      1 ≤ tries ∧ tries.toNat ≤ fuel ∧ ∀ t, (env.handler t store name kwargs).isReturned = false)
    (hans : answers store = true → ∀ t, (env.handler t store name kwargs).isReturned)
    (t : Trace Store Kwargs Val) :
    ∃ t' block, tryRunHandler tries (callHandler env store name kwargs) fuel t =
        some (env.handler t' store name kwargs, t ++ block) ∧
      block.map Call.store = (if answers store then [store] else replicate tries.toNat store) ∧
      (env.handler t' store name kwargs).isReturned = answers store ∧
      (block.reverse.findSome? fun call => call.result.value?) =
        (env.handler t' store name kwargs).value? := by
  cases hs : answers store
  · obtain ⟨htries, hbudget, hraise⟩ := hfail hs
    obtain ⟨block, hblock, hlen, hall⟩ := afterCalls_callHandler env store tries.toNat t
    refine ⟨afterCalls (callHandler env store name kwargs) (tries.toNat - 1) t, block, ?_, ?_,
      hraise _, ?_⟩
    · rw [tryRunHandler_eq _ t htries hbudget, callsWithin_of_all_raised (callHandler env store name kwargs) t
        fun _ _ => hraise _,
        hblock]
      rfl
    · rw [if_neg Bool.false_ne_true]
      refine eq_replicate_iff.mpr ⟨by rw [length_map, hlen], ?_⟩
      simp only [mem_map]
      rintro _ ⟨call, hcall, rfl⟩
      exact (hall call hcall).1
    · rw [Outcome.value?_eq_none (hraise _), findSome?_eq_none_iff]
      intro call hcall
      obtain ⟨-, -, -, t'', hres⟩ := hall call (mem_reverse.mp hcall)
      rw [hres, Outcome.value?_eq_none (hraise t'')]
  · exact ⟨t, [⟨store, name, kwargs, env.handler t store name kwargs⟩],
      tryRunHandler_of_returned _ _ (hans hs t) hfuel, by simp, hans hs t,
      by cases env.handler t store name kwargs <;> rfl⟩

theorem dispatches_classified {tries : Int} {fuel : Nat} (hfuel : 0 < fuel) :
    ∀ (stores : List Store),
      (∀ s ∈ stores, answers s = false →
        1 ≤ tries ∧ tries.toNat ≤ fuel ∧ ∀ t, (env.handler t s name kwargs).isReturned = false) →
      (∀ s ∈ stores, answers s = true → ∀ t, (env.handler t s name kwargs).isReturned) →
      ∀ t : Trace Store Kwargs Val, ∃ ds calls,
        dispatches env tries fuel name kwargs stores t = some (ds, t ++ calls) ∧
        calls.map Call.store =
          stores.flatMap (fun s => if answers s then [s] else replicate tries.toNat s) ∧
        raisedStores ds = stores.filter (fun s => !answers s) ∧
        (∀ d ∈ ds, ∃ t', d.2 = env.handler t' d.1 name kwargs) ∧
        ∀ res, lastValue ds res = (calls.reverse.findSome? fun call => call.result.value?).or res
  | [], _, _, t => ⟨[], [], by simp, by simp, by simp, by simp, fun _ => by simp⟩
  | s :: rest, hfail, hans, t => by
    obtain ⟨t', block, hs, hmap, hret, hval⟩ := tryRunHandler_classified env answers hfuel
      (hfail s (mem_cons_self s rest)) (hans s (mem_cons_self s rest)) t
    obtain ⟨ds, calls, hd, hmaps, hraised, hout, hlast⟩ := dispatches_classified hfuel rest
      (fun s' h => hfail s' (mem_cons_of_mem s h)) (fun s' h => hans s' (mem_cons_of_mem s h))
      (t ++ block)
    refine ⟨(s, env.handler t' s name kwargs) :: ds, block ++ calls,
      (dispatches_cons_eq_some env).mpr ⟨_, _, ds, hs, by rw [hd, append_assoc], rfl⟩,
      by simp [hmap, hmaps], ?_, ?_, fun res => ?_⟩
    · cases h : answers s <;> simp_all [filter_cons]
    · rintro d (_ | ⟨_, hd⟩)
      · exact ⟨t', rfl⟩
      · exact hout d hd
    · rw [lastValue_cons, hlast, reverse_append, findSome?_append, hval, Option.or_assoc]

namespace CompositeTrackingStore

variable [DecidableEq Store] (c : CompositeTrackingStore Store)

theorem invoke_classified {fuel : Nat} (hfuel : 0 < fuel) {itr : Bool}
    (hfail : ∀ s ∈ c.stores, answers s = false → 1 ≤ c.tries env name ∧
      (c.tries env name).toNat ≤ fuel ∧ ∀ t, ∃ e,
        env.handler t s name kwargs = .raised e ∧ (e.trackerPanic && c.raiseOnError) = false)
    (hans : ∀ s ∈ c.stores, answers s = true → ∀ t, (env.handler t s name kwargs).isReturned)
    (hremoves : c.removes env name itr ∨ ∀ s ∈ c.stores, answers s)
    (t : Trace Store Kwargs Val) :
    ∃ r calls, c.invoke env fuel name kwargs itr t =
        some (.returned r, { c with stores := c.stores.filter answers }, t ++ calls) ∧
      calls.map Call.store =
        c.stores.flatMap (fun s => if answers s then [s] else replicate (c.tries env name).toNat s) ∧
      r = (calls.reverse.findSome? fun call => call.result.value?) := by
  obtain ⟨ds, calls, hd, hmap, hraised, hout, hlast⟩ := dispatches_classified env answers hfuel
    c.stores (fun s hs ha => let ⟨h1, h2, h3⟩ := hfail s hs ha
      ⟨h1, h2, fun t => by obtain ⟨e, he, -⟩ := h3 t; simp [he]⟩) hans t
  have hnp : c.raiseOnError → ∀ d ∈ ds, d.2.isPanic = false := by
    intro hr d hdm
    obtain ⟨t', ho⟩ := hout d hdm
    have hmem : d.1 ∈ c.stores := dispatches_map_fst env hd ▸ mem_map_of_mem Prod.fst hdm
    cases ha : answers d.1
    · obtain ⟨e, he, hq⟩ := (hfail d.1 hmem ha).2.2 t'
      simp_all
    · exact ho ▸ Outcome.isPanic_of_isReturned (hans d.1 hmem ha t')
  have hkeep : (removeEach c.stores (c.queued env name itr ds)).1 = c.stores.filter answers := by
    unfold queued
    rcases hremoves with h | h
    · simp [h, hraised, removeEach_filter_not]
    · have hnone : c.stores.filter (fun s => !answers s) = [] := by simpa using h
      split <;> simp [hraised, hnone, removeEach, filter_eq_self.mpr h]
  exact ⟨_, calls, by rw [c.invoke_of_dispatches env hd hnp, hkeep], hmap,
    by rw [hlast, Option.or_none]⟩

/-- Failure isolation under the removal policy, with `max_retries ≥ 1`, for stores
each of which either raises on every attempt at a state call, never a
`TrackerPanicError` that `raise_on_error` re-raises, or answers every call: the
call tries each failing store `max_retries` times and each answering store once,
in list order, returns the value of the last call that returned, and keeps
exactly the answering stores; from then on every call of any handler calls each
of them once, in order, returns the last one's value and keeps them all. -/
theorem invoke_isolates_failing_stores
    (hfail : ∀ s ∈ c.stores, answers s = false → ∀ t, ∃ e,
      env.handler t s name kwargs = .raised e ∧ (e.trackerPanic && c.raiseOnError) = false)
    (hans : ∀ s ∈ c.stores, answers s = true →
      ∀ t name kwargs, (env.handler t s name kwargs).isReturned)
    {itr : Bool} (hremoves : c.removes env name itr) (hmax : 1 ≤ c.maxRetries)
    (hstate : env.isStateCall name) {fuel : Nat} (hfuel : c.maxRetries.toNat ≤ fuel)
    (t : Trace Store Kwargs Val) :
    ∃ r calls, c.invoke env fuel name kwargs itr t =
        some (.returned r, { c with stores := c.stores.filter answers }, t ++ calls) ∧
      calls.map Call.store =
        c.stores.flatMap (fun s => if answers s then [s] else replicate c.maxRetries.toNat s) ∧
      r = (calls.reverse.findSome? fun call => call.result.value?) ∧
      ∀ fuel' name' kwargs' itr' t', 0 < fuel' → ∃ r' calls',
        ({ c with stores := c.stores.filter answers } : CompositeTrackingStore Store).invoke env fuel'
            name' kwargs' itr' t' =
          some (.returned r', { c with stores := c.stores.filter answers }, t' ++ calls') ∧
        calls'.map Call.store = c.stores.filter answers ∧
        r' = (calls'.reverse.findSome? fun call => call.result.value?) := by
  have htries : c.tries env name = c.maxRetries := by simp [tries, hstate]
  obtain ⟨r, calls, h, hmap, hr⟩ := c.invoke_classified env answers (by omega)
    (fun s hs ha => ⟨htries ▸ hmax, htries ▸ hfuel, hfail s hs ha⟩)
    (fun s hs ha t => hans s hs ha t name kwargs) (.inl hremoves) t
  refine ⟨r, calls, h, htries ▸ hmap, hr, fun fuel' name' kwargs' itr' t' hfuel' => ?_⟩
  obtain ⟨r', calls', h', hmap', hr'⟩ := invoke_classified env (fun _ => true)
    { c with stores := c.stores.filter answers } hfuel' (by simp)
    (fun s hs _ t => hans s (mem_filter.mp hs).1 (mem_filter.mp hs).2 t name' kwargs')
    (.inr fun _ _ => rfl) t'
  simp only [filter_true, if_true, flatMap_singleton'] at h' hmap'
  exact ⟨r', calls', h', hmap', hr'⟩

end CompositeTrackingStore

theorem failing_stores_isolated :
    ∃ r calls, (⟨[false, true, false], true, true, 2⟩ : CompositeTrackingStore Bool).invoke
        (answeringAndRaising ⟨false, "error"⟩) 2 "set_task_run_state" () false [] =
        some (.returned r, ⟨[true], true, true, 2⟩, [] ++ calls) ∧
      calls.map Call.store = [false, false, true, false, false] ∧
      r = (calls.reverse.findSome? fun call => call.result.value?) ∧
      ∀ fuel' name' kwargs' itr' t', 0 < fuel' → ∃ r' calls',
        (⟨[true], true, true, 2⟩ : CompositeTrackingStore Bool).invoke
            (answeringAndRaising ⟨false, "error"⟩) fuel' name' kwargs' itr' t' =
          some (.returned r', ⟨[true], true, true, 2⟩, t' ++ calls') ∧
        calls'.map Call.store = [true] ∧
        r' = (calls'.reverse.findSome? fun call => call.result.value?) :=
  CompositeTrackingStore.invoke_isolates_failing_stores (answeringAndRaising ⟨false, "error"⟩) id
    ⟨[false, true, false], true, true, 2⟩
    (fun s _ hs _ => by cases s <;> simp_all [answeringAndRaising])
    (fun s _ hs _ _ _ => by cases s <;> simp_all [answeringAndRaising]) rfl (by decide) rfl
    (by decide) []

end Dbnd.Tracking

import Mathlib.Data.List.Nodup
import Dbnd.Tracking.Invoke

/-! Runs of a composite: any sequence of `_invoke` calls and `disable_tracking_api`,
the stores answering as they will. The active list only ever loses stores, and
an `_invoke` that returns loses exactly the occurrences that failed under the
removal policy. -/
namespace Dbnd.Tracking

open List

variable {Store Kwargs Val : Type} (env : Env Store Kwargs Val)

theorem loop_calls_on (tries : Int) (store : Store) {name : String} {kwargs : Kwargs} {fuel : Nat}
    {tryNum : Int} {t t' : Trace Store Kwargs Val} {o : Outcome Val}
    (h : tryRunHandler.loop tries (callHandler env store name kwargs) fuel tryNum t = some (o, t')) :
    ∃ block, t' = t ++ block ∧ ∀ call ∈ block, call.store = store := by
  induction fuel generalizing tryNum t with
  | zero => simp [tryRunHandler.loop] at h
  | succ fuel ih =>
    rw [tryRunHandler.loop] at h
    rcases ho : env.handler t store name kwargs with v | e <;> simp only [callHandler, ho] at h
    · simp only [Option.some.injEq, Prod.mk.injEq] at h
      exact ⟨_, h.2.symm, by simp⟩
    · split at h
      · simp only [Option.some.injEq, Prod.mk.injEq] at h
        exact ⟨_, h.2.symm, by simp⟩
      · obtain ⟨block, rfl, hall⟩ := ih h
        refine ⟨⟨store, name, kwargs, .raised e⟩ :: block, by simp, ?_⟩
        rintro call (_ | ⟨_, hcall⟩)
        · rfl
        · exact hall call hcall

theorem dispatches_calls {tries : Int} {fuel : Nat} {name : String} {kwargs : Kwargs}
    {stores : List Store} {t t' : Trace Store Kwargs Val} {ds : List (Store × Outcome Val)}
    (h : dispatches env tries fuel name kwargs stores t = some (ds, t')) :
    ∃ calls, t' = t ++ calls ∧ ∀ call ∈ calls, call.store ∈ stores := by
  induction stores generalizing t ds with
  | nil =>
    obtain ⟨rfl, rfl⟩ := by simpa using h
    exact ⟨[], by simp, by simp⟩
  | cons store rest ih =>
    obtain ⟨o, t₁, ds, hs, hrest, rfl⟩ := (dispatches_cons_eq_some env).mp h
    obtain ⟨block, rfl, hblock⟩ := loop_calls_on env _ store hs
    obtain ⟨calls, rfl, hcalls⟩ := ih hrest
    refine ⟨block ++ calls, by simp, ?_⟩
    simp only [mem_append, mem_cons]
    rintro call (hc | hc)
    · exact .inl (hblock call hc)
    · exact .inr (hcalls call hc)

/-- An operation on the composite: a call of `_invoke` (each public method is one)
or `disable_tracking_api`. -/
inductive Op (Kwargs : Type) where
  | invoke (name : String) (kwargs : Kwargs) (inTrackingRun : Bool)
  | disableTrackingApi

variable [DecidableEq Store]

/-- One operation on the composite and the calls made so far. -/
def step (fuel : Nat) : Op Kwargs → CompositeTrackingStore Store × Trace Store Kwargs Val →
    Option (Outcome (Option Val) × CompositeTrackingStore Store × Trace Store Kwargs Val)
  | .invoke name kwargs itr, (c, t) => c.invoke env fuel name kwargs itr t
  | .disableTrackingApi, (c, t) => some (.returned none, c.disableTrackingApi env, t)

/-- The states reached from `start` by operations that end, returning or raising. -/
inductive Reachable (s₀ : CompositeTrackingStore Store × Trace Store Kwargs Val) :
    CompositeTrackingStore Store × Trace Store Kwargs Val → Prop
  | start : Reachable s₀ s₀
  | step {s s' : CompositeTrackingStore Store × Trace Store Kwargs Val} {fuel : Nat}
      {op : Op Kwargs} {o : Outcome (Option Val)} :
      Reachable s₀ s → step env fuel op s = some (o, s') → Reachable s₀ s'

theorem step_sublist {fuel : Nat} {op : Op Kwargs} {c c' : CompositeTrackingStore Store}
    {t t' : Trace Store Kwargs Val} {o : Outcome (Option Val)}
    (h : step env fuel op (c, t) = some (o, c', t')) : c'.stores <+ c.stores := by
  cases op with
  | invoke name kwargs itr =>
    rcases c.invoke_cases env h with ⟨-, -, rfl, -⟩ | ⟨ds, -, hd, -, -, rfl⟩
    · exact Sublist.refl _
    · exact (removeEach_of_subperm (c.queued_subperm env itr hd)).2.1
  | disableTrackingApi =>
    simp only [step, Option.some.injEq, Prod.mk.injEq] at h
    obtain ⟨-, rfl, -⟩ := h
    exact filter_sublist _

theorem reachable_sublist {s₀ s : CompositeTrackingStore Store × Trace Store Kwargs Val}
    (h : Reachable env s₀ s) : s.1.stores <+ s₀.1.stores := by
  induction h with
  | start => exact Sublist.refl _
  | step _ hstep ih => exact (step_sublist env hstep).trans ih


/-! ### Which stores are called -/


theorem step_calls {fuel : Nat} {op : Op Kwargs} {c c' : CompositeTrackingStore Store}
    {t t' : Trace Store Kwargs Val} {o : Outcome (Option Val)}
    (h : step env fuel op (c, t) = some (o, c', t')) :
    ∃ calls, t' = t ++ calls ∧ ∀ call ∈ calls, call.store ∈ c.stores := by
  cases op with
  | invoke name kwargs itr =>
    cases o with
    | raised exc =>
      obtain ⟨-, ⟨-, pre, store, post, ds, t₁, hsplit, hd, -, hs⟩, -⟩ := (c.invoke_raised_iff env).mp h
      obtain ⟨calls, rfl, hcalls⟩ := dispatches_calls env hd
      obtain ⟨block, rfl, hblock⟩ := loop_calls_on env _ store hs
      refine ⟨calls ++ block, by simp, ?_⟩
      simp only [hsplit, mem_append, mem_cons]
      rintro call (hc | hc)
      · exact .inl (hcalls call hc)
      · exact .inr (.inl (hblock call hc))
    | returned r =>
      obtain ⟨ds, hd, -⟩ := c.invoke_returned env h
      exact dispatches_calls env hd
  | disableTrackingApi =>
    simp only [step, Option.some.injEq, Prod.mk.injEq] at h
    exact ⟨[], by simp [h.2.2], by simp⟩

theorem reachable_calls (Q : Store → Prop) {s₀ s : CompositeTrackingStore Store × Trace Store Kwargs Val}
    (h : Reachable env s₀ s) (h₀ : ∀ x ∈ s₀.1.stores, Q x) :
    (∀ x ∈ s.1.stores, Q x) ∧ ∃ calls, s.2 = s₀.2 ++ calls ∧ ∀ call ∈ calls, Q call.store := by
  induction h with
  | start => exact ⟨h₀, [], by simp, by simp⟩
  | step _ hstep ih =>
    obtain ⟨hs, calls, hcalls, hon⟩ := ih
    obtain ⟨new, hnew, hnewon⟩ := step_calls env hstep
    refine ⟨fun x hx => hs x ((step_sublist env hstep).subset hx), calls ++ new,
      by rw [hnew, hcalls, append_assoc], ?_⟩
    simp only [mem_append]
    rintro call (hc | hc)
    · exact hon call hc
    · exact hs _ (hnewon call hc)

namespace CompositeTrackingStore

variable (c : CompositeTrackingStore Store) {fuel : Nat} {name : String} {kwargs : Kwargs}
  {itr : Bool}

theorem mem_of_returned {t t' : Trace Store Kwargs Val} {ds : List (Store × Outcome Val)}
    (hd : dispatches env (c.tries env name) fuel name kwargs c.stores t = some (ds, t'))
    {after : List Store} (hcount : ∀ x, after.count x + (c.queued env name itr ds).count x =
      c.stores.count x)
    (hnodup : c.stores.Nodup) {d : Store × Outcome Val} (hmem : d ∈ ds) (hret : d.2.isReturned) :
    d.1 ∈ after := by
  have hfst := dispatches_map_fst env hd
  have hin : d.1 ∈ c.stores := hfst ▸ mem_map_of_mem Prod.fst hmem
  by_contra hout
  have hq : d.1 ∈ c.queued env name itr ds := by
    have := hcount d.1
    rw [count_eq_zero_of_not_mem hout, count_eq_one_of_mem hnodup hin] at this
    exact count_pos_iff.mp (by omega)
  unfold queued raisedStores at hq
  split at hq
  · obtain ⟨d', hd', heq⟩ := mem_map.mp hq
    obtain ⟨hd'mem, hd'raised⟩ := mem_filter.mp hd'
    have := inj_on_of_nodup_map (hfst ▸ hnodup) hd'mem hmem heq
    subst this
    simp [hret] at hd'raised
  · simp at hq

end CompositeTrackingStore

/-- Over every run of a composite built on `c₀.stores`, every operation, returning
or raising, leaves the active list a sublist of the one before it and of the
list it was built on. An `_invoke` that raises raises a store's
`TrackerPanicError` (never `list.remove`'s `ValueError`) and changes nothing; one
that returns drops, for each store, one occurrence per dispatch of it that
raised when the removal policy holds and none otherwise, so with pairwise
distinct stores no store whose dispatch returned is dropped. -/
theorem composite_stores_only_lose_failed (c₀ : CompositeTrackingStore Store)
    (t₀ : Trace Store Kwargs Val) :
    ∀ c t, Reachable env (c₀, t₀) (c, t) → ∀ fuel op o c' t',
      step env fuel op (c, t) = some (o, c', t') →
      c'.stores <+ c.stores ∧ c'.stores <+ c₀.stores ∧
      ∀ name kwargs itr, op = .invoke name kwargs itr →
        (∀ exc, o = .raised exc → exc.trackerPanic ∧ c' = c) ∧
        (∀ r, o = .returned r → ∃ ds,
          dispatches env (c.tries env name) fuel name kwargs c.stores t = some (ds, t') ∧
          (∀ x, c'.stores.count x +
            (if c.removes env name itr then (raisedStores ds).count x else 0) = c.stores.count x) ∧
          (c.stores.Nodup → ∀ d ∈ ds, d.2.isReturned → d.1 ∈ c'.stores)) := by
  intro c t hreach fuel op o c' t' hstep
  have hsub := step_sublist env hstep
  refine ⟨hsub, hsub.trans (reachable_sublist env hreach), ?_⟩
  rintro name kwargs itr rfl
  refine ⟨fun exc ho => ?_, fun r ho => ?_⟩
  · subst ho
    obtain ⟨hr, ⟨hp, -⟩, hc⟩ := (c.invoke_raised_iff env).mp hstep
    exact ⟨hp, hc⟩
  · subst ho
    obtain ⟨ds, hd, -, -, hcount⟩ := c.invoke_returned env hstep
    refine ⟨ds, hd, fun x => ?_, fun hnodup d hmem hret =>
      c.mem_of_returned env hd hcount hnodup hmem hret⟩
    have := hcount x
    unfold CompositeTrackingStore.queued at this
    split at this <;> simp_all

theorem failing_store_dropped_first_step :
    ∃ t', step (answeringAndRaising ⟨false, "error"⟩) 2 (.invoke "init_run" () true)
        (⟨[false, true, false], true, false, 2⟩, []) =
        some (.returned (some true), ⟨[true], true, false, 2⟩, t') ∧
      [true] <+ [false, true, false] ∧ [true] <+ [false, true, false] ∧
      ∀ name kwargs itr, (Op.invoke "init_run" () true : Op Unit) = .invoke name kwargs itr →
        (∀ exc, (.returned (some true) : Outcome (Option Bool)) = .raised exc →
          exc.trackerPanic ∧
            (⟨[true], true, false, 2⟩ : CompositeTrackingStore Bool) = ⟨[false, true, false], true, false, 2⟩) ∧
        (∀ r, (.returned (some true) : Outcome (Option Bool)) = .returned r → ∃ ds,
          dispatches (answeringAndRaising ⟨false, "error"⟩)
            ((⟨[false, true, false], true, false, 2⟩ : CompositeTrackingStore Bool).tries
              (answeringAndRaising ⟨false, "error"⟩) name) 2 name kwargs [false, true, false] [] =
            some (ds, t') ∧
          (∀ x, [true].count x +
            (if (⟨[false, true, false], true, false, 2⟩ : CompositeTrackingStore Bool).removes
                (answeringAndRaising ⟨false, "error"⟩) name itr
              then (raisedStores ds).count x else 0) = [false, true, false].count x) ∧
          ([false, true, false].Nodup → ∀ d ∈ ds, d.2.isReturned → d.1 ∈ [true])) :=
  ⟨_, rfl, composite_stores_only_lose_failed (answeringAndRaising ⟨false, "error"⟩)
    ⟨[false, true, false], true, false, 2⟩ [] ⟨[false, true, false], true, false, 2⟩ [] .start 2
    (.invoke "init_run" () true) _ _ _ rfl⟩

/-! ### What a run never undoes -/

/-- After `disable_tracking_api`, over every run that follows, no active store is a
`TrackingStoreThroughChannel` and no handler call reaches one. -/
theorem disabled_api_never_reached (c : CompositeTrackingStore Store) (t : Trace Store Kwargs Val)
    {s : CompositeTrackingStore Store × Trace Store Kwargs Val}
    (h : Reachable env (c.disableTrackingApi env, t) s) :
    (∀ store ∈ s.1.stores, env.isThroughChannel store = false) ∧
      ∃ calls, s.2 = t ++ calls ∧ ∀ call ∈ calls, env.isThroughChannel call.store = false :=
  reachable_calls env (fun x => env.isThroughChannel x = false) h fun x hx => by
    simpa [CompositeTrackingStore.disableTrackingApi] using (mem_filter.mp hx).2

theorem disabled_api_skips_channel_store :
    Reachable (answeringAndRaising ⟨false, "error"⟩)
      ((⟨[true, false], true, false, 2⟩ : CompositeTrackingStore Bool).disableTrackingApi
        (answeringAndRaising ⟨false, "error"⟩), [])
      (⟨[false], true, false, 2⟩, [⟨false, "log_metrics", (), .raised ⟨false, "error"⟩⟩,
        ⟨false, "log_metrics", (), .raised ⟨false, "error"⟩⟩]) ∧
    (∀ store ∈ [false], (answeringAndRaising ⟨false, "error"⟩).isThroughChannel store = false) ∧
    ∃ calls, ([⟨false, "log_metrics", (), .raised ⟨false, "error"⟩⟩,
        ⟨false, "log_metrics", (), .raised ⟨false, "error"⟩⟩] : Trace Bool Unit Bool) = [] ++ calls ∧
      ∀ call ∈ calls, (answeringAndRaising ⟨false, "error"⟩).isThroughChannel call.store = false :=
  have h : Reachable (answeringAndRaising ⟨false, "error"⟩)
      ((⟨[true, false], true, false, 2⟩ : CompositeTrackingStore Bool).disableTrackingApi
        (answeringAndRaising ⟨false, "error"⟩), [])
      (⟨[false], true, false, 2⟩, [⟨false, "log_metrics", (), .raised ⟨false, "error"⟩⟩,
        ⟨false, "log_metrics", (), .raised ⟨false, "error"⟩⟩]) :=
    .step .start (rfl : step _ 2 (.invoke "log_metrics" () false) _ = _)
  ⟨h, disabled_api_never_reached (answeringAndRaising ⟨false, "error"⟩) ⟨[true, false], true, false, 2⟩ [] h⟩

/-- Quarantine is permanent: a store missing from the active list at some point of
a run never comes back and is never called again. -/
theorem quarantined_store_stays_out {x : Store}
    {s₁ s₂ : CompositeTrackingStore Store × Trace Store Kwargs Val}
    (h : Reachable env s₁ s₂) (hx : x ∉ s₁.1.stores) :
    x ∉ s₂.1.stores ∧ ∃ calls, s₂.2 = s₁.2 ++ calls ∧ ∀ call ∈ calls, call.store ≠ x := by
  obtain ⟨hs, hcalls⟩ := reachable_calls env (· ≠ x) h fun y hy hyx => hx (hyx ▸ hy)
  exact ⟨fun hx' => hs x hx' rfl, hcalls⟩

theorem dropped_store_stays_out :
    ∃ t₁, step (answeringAndRaising ⟨false, "error"⟩) 2 (.invoke "init_run" () true)
        (⟨[false, true], true, true, 2⟩, []) = some (.returned (some true), ⟨[true], true, true, 2⟩, t₁) ∧
      Reachable (answeringAndRaising ⟨false, "error"⟩) (⟨[true], true, true, 2⟩, t₁)
        (⟨[true], true, true, 2⟩, t₁ ++ [⟨true, "log_metrics", (), .returned true⟩]) ∧
      false ∉ [true] ∧ false ∉ [true] ∧
      ∃ calls, t₁ ++ [⟨true, "log_metrics", (), .returned true⟩] = t₁ ++ calls ∧
        ∀ call ∈ calls, call.store ≠ false :=
  have h : Reachable (answeringAndRaising ⟨false, "error"⟩)
      (⟨[true], true, true, 2⟩, [⟨false, "init_run", (), .raised ⟨false, "error"⟩⟩,
        ⟨false, "init_run", (), .raised ⟨false, "error"⟩⟩, ⟨true, "init_run", (), .returned true⟩])
      (⟨[true], true, true, 2⟩, [⟨false, "init_run", (), .raised ⟨false, "error"⟩⟩,
        ⟨false, "init_run", (), .raised ⟨false, "error"⟩⟩, ⟨true, "init_run", (), .returned true⟩] ++
        [⟨true, "log_metrics", (), .returned true⟩]) :=
    .step .start (rfl : step _ 2 (.invoke "log_metrics" () true) _ = _)
  ⟨_, rfl, h, by decide, quarantined_store_stays_out (answeringAndRaising ⟨false, "error"⟩) h (by decide)⟩

end Dbnd.Tracking

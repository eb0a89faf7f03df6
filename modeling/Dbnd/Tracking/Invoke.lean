import Dbnd.Tracking.Dispatch

/-! What one `_invoke` does to the composite: it re-raises a store's
`TrackerPanicError` and leaves the store list alone, or it returns and drops one
occurrence of each store it queued; `list.remove` never raises there. -/
namespace Dbnd.Tracking

open List

variable {Store Kwargs Val : Type} (env : Env Store Kwargs Val)

namespace CompositeTrackingStore

variable (c : CompositeTrackingStore Store) {fuel : Nat} {name : String} {kwargs : Kwargs}
  {itr : Bool}

def queued (name : String) (itr : Bool) (ds : List (Store × Outcome Val)) : List Store :=
  if c.removes env name itr then raisedStores ds else []

theorem queued_subperm (itr : Bool) {t t' : Trace Store Kwargs Val} {ds : List (Store × Outcome Val)}
    (h : dispatches env (c.tries env name) fuel name kwargs c.stores t = some (ds, t')) :
    (c.queued env name itr ds).Subperm c.stores := by
  unfold queued
  split
  · exact (raisedStores_sublist env h).subperm
  · exact nil_subperm

/-! ### When `_invoke` raises -/

/-- Some store, dispatched in list order, ends its `try_run_handler` raising the
`TrackerPanicError` `exc` at trace `t'`, and every store before it ended without one. -/
def FirstPanic (tries : Int) (fuel : Nat) (name : String) (kwargs : Kwargs) (stores : List Store)
    (t : Trace Store Kwargs Val) (exc : Exc) (t' : Trace Store Kwargs Val) : Prop :=
  exc.trackerPanic ∧ ∃ pre store post ds t₁, stores = pre ++ store :: post ∧
    dispatches env tries fuel name kwargs pre t = some (ds, t₁) ∧ (∀ d ∈ ds, d.2.isPanic = false) ∧
    tryRunHandler tries (callHandler env store name kwargs) fuel t₁ = some (.raised exc, t')

theorem invokeLoop_raised_iff {stores : List Store} {res : Option Val} {failed : List Store}
    {t t' : Trace Store Kwargs Val} {exc : Exc} :
    c.invokeLoop env fuel name kwargs itr stores res failed t = some (.raised exc, t') ↔
      c.raiseOnError ∧ FirstPanic env (c.tries env name) fuel name kwargs stores t exc t' := by
  refine ⟨c.invokeLoop_eq_raised env, ?_⟩
  rintro ⟨hr, hp, pre, store, post, ds, t₁, rfl, hd, hnp, hs⟩
  exact c.invokeLoop_eq_raised_of env post hr hd hnp hs hp

theorem dispatches_isSome {tries : Int} (htries : 1 ≤ tries) (hfuel : tries.toNat ≤ fuel)
    (stores : List Store) (t : Trace Store Kwargs Val) :
    ∃ ds t', dispatches env tries fuel name kwargs stores t = some (ds, t') := by
  induction stores generalizing t with
  | nil => exact ⟨[], t, rfl⟩
  | cons store rest ih =>
    obtain ⟨ds, t', hrest⟩ := ih (afterCalls (callHandler env store name kwargs)
      (callsWithin (callHandler env store name kwargs) tries.toNat t) t)
    exact ⟨_, t', (dispatches_cons_eq_some env).mpr
      ⟨_, _, ds, tryRunHandler_eq _ t htries hfuel, hrest, rfl⟩⟩

theorem firstPanic_of_mem {tries : Int} {stores : List Store} {t t' : Trace Store Kwargs Val}
    {ds : List (Store × Outcome Val)} (h : dispatches env tries fuel name kwargs stores t = some (ds, t'))
    {d : Store × Outcome Val} (hd : d ∈ ds) (hp : d.2.isPanic) :
    ∃ exc t'', FirstPanic env tries fuel name kwargs stores t exc t'' := by
  induction stores generalizing t ds with
  | nil => simp_all
  | cons store rest ih =>
    obtain ⟨o, t₁, ds', hs, hrest, rfl⟩ := (dispatches_cons_eq_some env).mp h
    by_cases ho : o.isPanic
    · obtain _ | exc := o
      · simp at ho
      · exact ⟨exc, t₁, by simpa using ho, [], store, rest, [], t, rfl, rfl, by simp, hs⟩
    · obtain ⟨exc, t'', hpe, pre, s, post, ds'', t₂, hsplit, hd', hnp, hs'⟩ :=
        ih hrest ((mem_cons.mp hd).resolve_left (by rintro rfl; exact ho hp))
      refine ⟨exc, t'', hpe, store :: pre, s, post, _, t₂, by rw [hsplit]; rfl,
        (dispatches_cons_eq_some env).mpr ⟨o, t₁, ds'', hs, hd', rfl⟩, ?_, hs'⟩
      simpa [ho] using hnp

/-- With `tries < 1` no dispatch raises, and the dispatch of a store whose handler
keeps raising never ends: wherever such a store stands, the loop never ends. -/
theorem invokeLoop_eq_none {store : Store} (htries : c.tries env name < 1)
    (hraise : ∀ t, (env.handler t store name kwargs).isReturned = false) (fuel : Nat) :
    ∀ (stores : List Store), store ∈ stores → ∀ (res : Option Val) (failed : List Store)
      (t : Trace Store Kwargs Val), c.invokeLoop env fuel name kwargs itr stores res failed t = none
  | s :: rest, hmem, res, failed, t => by
    rcases h : tryRunHandler (c.tries env name) (callHandler env s name kwargs) fuel t with
      _ | ⟨_ | exc, t₁⟩
    · simp [invokeLoop, h]
    · have hrest : store ∈ rest := (mem_cons.mp hmem).resolve_left fun hs => by
        subst hs
        have hnone : tryRunHandler (c.tries env name) (callHandler env store name kwargs) fuel t =
            none := tryRunHandler.loop_eq_none _ _ (by omega) t fun _ => hraise _
        simp [hnone] at h
      simp [invokeLoop, h, invokeLoop_eq_none htries hraise fuel rest hrest]
    · exact absurd h (tryRunHandler.loop_ne_raised _ _ (by omega) t exc t₁)

variable [DecidableEq Store]

theorem invoke_cases {t t' : Trace Store Kwargs Val} {o : Outcome (Option Val)}
    {c' : CompositeTrackingStore Store}
    (h : c.invoke env fuel name kwargs itr t = some (o, c', t')) :
    (∃ exc, o = .raised exc ∧ c' = c ∧
      c.invokeLoop env fuel name kwargs itr c.stores none [] t = some (.raised exc, t')) ∨
    (∃ ds, o = .returned (lastValue ds none) ∧
      dispatches env (c.tries env name) fuel name kwargs c.stores t = some (ds, t') ∧
      (c.raiseOnError → ∀ d ∈ ds, d.2.isPanic = false) ∧
      (removeEach c.stores (c.queued env name itr ds)).2 = none ∧
      c' = { c with stores := (removeEach c.stores (c.queued env name itr ds)).1 }) := by
  unfold invoke at h
  rcases hl : c.invokeLoop env fuel name kwargs itr c.stores none [] t with
    _ | ⟨⟨⟨res, failed⟩⟩ | exc, t₁⟩ <;> simp only [hl] at h
  · simp at h
  · obtain ⟨ds, hd, hp, rfl, hfailed⟩ := dispatches_of_invokeLoop env c hl
    rw [nil_append] at hfailed
    subst hfailed
    have hnone := (removeEach_of_subperm (c.queued_subperm env itr hd)).1
    rw [← queued, ← Prod.eta (removeEach c.stores (c.queued env name itr ds)), hnone] at h
    simp only [Option.some.injEq, Prod.mk.injEq] at h
    obtain ⟨rfl, rfl, rfl⟩ := h
    exact .inr ⟨ds, rfl, hd, hp, hnone, rfl⟩
  · simp only [Option.some.injEq, Prod.mk.injEq] at h
    obtain ⟨rfl, rfl, rfl⟩ := h
    exact .inl ⟨exc, rfl, rfl, rfl⟩

theorem invoke_returned {t t' : Trace Store Kwargs Val} {r : Option Val}
    {c' : CompositeTrackingStore Store}
    (h : c.invoke env fuel name kwargs itr t = some (.returned r, c', t')) :
    ∃ ds, dispatches env (c.tries env name) fuel name kwargs c.stores t = some (ds, t') ∧
      r = lastValue ds none ∧ c'.stores <+ c.stores ∧
      ∀ x, c'.stores.count x + (c.queued env name itr ds).count x = c.stores.count x := by
  rcases c.invoke_cases env h with ⟨exc, ho, -⟩ | ⟨ds, ho, hd, -, -, rfl⟩
  · cases ho
  · obtain ⟨-, hsub, hcount⟩ := removeEach_of_subperm (c.queued_subperm env itr hd)
    exact ⟨ds, hd, Outcome.returned.inj ho, hsub, hcount⟩

theorem invoke_raised {t t' : Trace Store Kwargs Val} {exc : Exc}
    {c' : CompositeTrackingStore Store}
    (h : c.invoke env fuel name kwargs itr t = some (.raised exc, c', t')) :
    c' = c ∧ c.invokeLoop env fuel name kwargs itr c.stores none [] t = some (.raised exc, t') := by
  rcases c.invoke_cases env h with ⟨exc', ho, rfl, hl⟩ | ⟨ds, ho, -⟩
  · cases ho
    exact ⟨rfl, hl⟩
  · cases ho

theorem invoke_raised_iff {t t' : Trace Store Kwargs Val} {exc : Exc}
    {c' : CompositeTrackingStore Store} :
    c.invoke env fuel name kwargs itr t = some (.raised exc, c', t') ↔
      c.raiseOnError ∧ FirstPanic env (c.tries env name) fuel name kwargs c.stores t exc t' ∧
        c' = c := by
  constructor
  · intro h
    obtain ⟨hc, hl⟩ := c.invoke_raised env h
    obtain ⟨hr, hfp⟩ := (invokeLoop_raised_iff env c).mp hl
    exact ⟨hr, hfp, hc⟩
  · rintro ⟨hr, hfp, hc⟩
    rw [hc]
    have hl : c.invokeLoop env fuel name kwargs itr c.stores none [] t = some (.raised exc, t') :=
      (invokeLoop_raised_iff env c).mpr ⟨hr, hfp⟩
    simp [invoke, hl]

theorem invoke_of_dispatches {t t' : Trace Store Kwargs Val} {ds : List (Store × Outcome Val)}
    (hd : dispatches env (c.tries env name) fuel name kwargs c.stores t = some (ds, t'))
    (hnp : c.raiseOnError → ∀ d ∈ ds, d.2.isPanic = false) :
    c.invoke env fuel name kwargs itr t =
      some (.returned (lastValue ds none),
        { c with stores := (removeEach c.stores (c.queued env name itr ds)).1 }, t') := by
  have hl : c.invokeLoop env fuel name kwargs itr c.stores none [] t =
      some (.returned (lastValue ds none, [] ++ c.queued env name itr ds), t') :=
    c.invokeLoop_of_dispatches env hd hnp
  have hnone := (removeEach_of_subperm (c.queued_subperm env itr hd)).1
  simp only [invoke, hl, nil_append]
  rw [← Prod.eta (removeEach c.stores (c.queued env name itr ds)), hnone]

theorem invoke_returns_of_quiet (htries : 1 ≤ c.tries env name)
    (hfuel : (c.tries env name).toNat ≤ fuel) (t : Trace Store Kwargs Val)
    (hquiet : ¬ (c.raiseOnError ∧
      ∃ exc t', FirstPanic env (c.tries env name) fuel name kwargs c.stores t exc t')) :
    ∃ ds t', dispatches env (c.tries env name) fuel name kwargs c.stores t = some (ds, t') ∧
      c.invoke env fuel name kwargs itr t =
        some (.returned (lastValue ds none),
          { c with stores := (removeEach c.stores (c.queued env name itr ds)).1 }, t') := by
  obtain ⟨ds, t', hd⟩ := dispatches_isSome env htries hfuel c.stores t
  refine ⟨ds, t', hd, c.invoke_of_dispatches env hd fun hr d hmem => ?_⟩
  by_contra hp
  exact hquiet ⟨hr, firstPanic_of_mem env hd hmem (by simpa using hp)⟩

/-- `_invoke` raises exactly when `raise_on_error` is set and some store, dispatched
in list order, ends its tries with a `TrackerPanicError`: it raises that of the
first such store, dispatches no store after it and leaves the store list as it
was. When every dispatch is bounded (`1 ≤ tries`: `max_retries ≥ 1` or a call
that is not a state call) `_invoke` otherwise returns; when it is not, it never
raises. -/
theorem invoke_raises_iff_first_panic (name : String) (kwargs : Kwargs) (itr : Bool)
    (t : Trace Store Kwargs Val) :
    (∀ fuel exc c' t', c.invoke env fuel name kwargs itr t = some (.raised exc, c', t') ↔
      c.raiseOnError ∧ FirstPanic env (c.tries env name) fuel name kwargs c.stores t exc t' ∧
        c' = c) ∧
    (1 ≤ c.tries env name → ∀ fuel, (c.tries env name).toNat ≤ fuel →
      ¬ (c.raiseOnError ∧ ∃ exc t', FirstPanic env (c.tries env name) fuel name kwargs c.stores t exc t') →
      ∃ r c' t', c.invoke env fuel name kwargs itr t = some (.returned r, c', t')) ∧
    (c.tries env name < 1 → ∀ fuel exc c' t',
      c.invoke env fuel name kwargs itr t ≠ some (.raised exc, c', t')) := by
  refine ⟨fun fuel exc c' t' => c.invoke_raised_iff env, fun htries fuel hfuel hquiet => ?_,
    fun htries fuel exc c' t' h => ?_⟩
  · obtain ⟨ds, t', -, h⟩ := c.invoke_returns_of_quiet env htries hfuel t hquiet
    exact ⟨_, _, t', h⟩
  · obtain ⟨-, ⟨-, pre, store, post, ds, t₁, -, -, -, hs⟩, -⟩ := (c.invoke_raised_iff env).mp h
    exact tryRunHandler.loop_ne_raised _ _ (by omega) t₁ exc t' hs

theorem invoke_eq_none {store : Store} (hmem : store ∈ c.stores) (htries : c.tries env name < 1)
    (hraise : ∀ t, (env.handler t store name kwargs).isReturned = false) (fuel : Nat)
    (t : Trace Store Kwargs Val) : c.invoke env fuel name kwargs itr t = none := by
  simp [invoke, c.invokeLoop_eq_none env htries hraise fuel c.stores hmem]

end CompositeTrackingStore

/-- One store that raises `exc` on every call, every name being a state call. -/
def alwaysRaising (exc : Exc) : Env Unit Unit Unit :=
  ⟨fun _ => true, fun _ => false, fun _ => true, fun _ _ _ _ => .raised exc⟩

/-- Two stores, every name being a state call: `true`, a `TrackingStoreThroughChannel`,
answers every call with `true`; `false` raises `exc` on every call. -/
def answeringAndRaising (exc : Exc) : Env Bool Unit Bool :=
  ⟨fun _ => true, id, fun _ => true,
    fun _ store _ _ => if store then .returned true else .raised exc⟩

/-- With `max_retries = 0`, a store that raises `TrackerPanicError` on every try,
behind one that answers, makes `_invoke` of a state call neither raise nor return. -/
theorem invoke_panicking_store_never_ends :
    ¬ ∃ fuel result, (⟨[true, false], true, false, 0⟩ : CompositeTrackingStore Bool).invoke
      (answeringAndRaising ⟨true, "panic"⟩) fuel "set_task_run_state" () false [] = some result := by
  rintro ⟨fuel, result, h⟩
  rw [CompositeTrackingStore.invoke_eq_none (answeringAndRaising ⟨true, "panic"⟩)
    ⟨[true, false], true, false, 0⟩ (by simp : false ∈ [true, false]) (by decide) (fun _ => rfl)
    fuel []] at h
  cases h

end Dbnd.Tracking

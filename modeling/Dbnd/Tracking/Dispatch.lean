import Dbnd.Tracking.Composite

/-! How `_invoke` ends, in terms of how each store's `try_run_handler` ended: it
re-raises only a store's `TrackerPanicError`, and otherwise removes exactly the
stores it queued, which never makes `list.remove` raise. -/
namespace Dbnd.Tracking

open List

variable {Store Kwargs Val : Type} (env : Env Store Kwargs Val)

/-- `try_run_handler` on each of `stores` in turn: each store with how its
dispatch ended, and the trace after the last. -/
def dispatches (tries : Int) (fuel : Nat) (name : String) (kwargs : Kwargs) :
    List Store → Trace Store Kwargs Val →
      Option (List (Store × Outcome Val) × Trace Store Kwargs Val)
  | [], t => some ([], t)
  | store :: rest, t =>
    (tryRunHandler tries (callHandler env store name kwargs) fuel t).bind fun r =>
      (dispatches tries fuel name kwargs rest r.2).map fun ds => ((store, r.1) :: ds.1, ds.2)

/-- `res` after the dispatches `ds`: the value of the last one that returned. -/
def lastValue (ds : List (Store × Outcome Val)) (res : Option Val) : Option Val :=
  ds.foldl (fun res d => d.2.value?.or res) res

/-- The stores whose dispatch raised, in list order. -/
def raisedStores (ds : List (Store × Outcome Val)) : List Store :=
  (ds.filter fun d => !d.2.isReturned).map Prod.fst

section Lemmas

variable {tries : Int} {fuel : Nat} {name : String} {kwargs : Kwargs}

@[simp] theorem dispatches_nil (t : Trace Store Kwargs Val) :
    dispatches env tries fuel name kwargs [] t = some ([], t) := rfl

theorem dispatches_cons_eq_some {store : Store} {rest : List Store} {t t'' : Trace Store Kwargs Val}
    {ds : List (Store × Outcome Val)} :
    dispatches env tries fuel name kwargs (store :: rest) t = some (ds, t'') ↔
      ∃ o t' ds', tryRunHandler tries (callHandler env store name kwargs) fuel t = some (o, t') ∧
        dispatches env tries fuel name kwargs rest t' = some (ds', t'') ∧ ds = (store, o) :: ds' := by
  simp only [dispatches, Option.bind_eq_some, Option.map_eq_some', Prod.mk.injEq]
  constructor
  · rintro ⟨⟨o, t'⟩, h, ⟨ds', t₂⟩, hrest, rfl, rfl⟩
    exact ⟨o, t', ds', h, hrest, rfl⟩
  · rintro ⟨o, t', ds', h, hrest, rfl⟩
    exact ⟨(o, t'), h, (ds', t''), hrest, rfl, rfl⟩

@[simp] theorem lastValue_nil (res : Option Val) : lastValue ([] : List (Store × Outcome Val)) res = res :=
  rfl

@[simp] theorem lastValue_cons (d : Store × Outcome Val) (ds : List (Store × Outcome Val))
    (res : Option Val) : lastValue (d :: ds) res = lastValue ds (d.2.value?.or res) := rfl

@[simp] theorem raisedStores_nil : raisedStores ([] : List (Store × Outcome Val)) = [] := rfl

@[simp] theorem raisedStores_cons (d : Store × Outcome Val) (ds : List (Store × Outcome Val)) :
    raisedStores (d :: ds) = if d.2.isReturned then raisedStores ds else d.1 :: raisedStores ds := by
  cases h : d.2.isReturned <;> simp [raisedStores, h]

theorem raisedStores_sublist {stores : List Store} {t t' : Trace Store Kwargs Val}
    {ds : List (Store × Outcome Val)} (h : dispatches env tries fuel name kwargs stores t = some (ds, t')) :
    raisedStores ds <+ stores := by
  induction stores generalizing t ds with
  | nil => simp_all
  | cons store rest ih =>
    obtain ⟨o, t₁, ds', -, hrest, rfl⟩ := (dispatches_cons_eq_some env).mp h
    rw [raisedStores_cons]
    split
    · exact (ih hrest).cons store
    · exact (ih hrest).cons₂ store

theorem dispatches_map_fst {stores : List Store} {t t' : Trace Store Kwargs Val}
    {ds : List (Store × Outcome Val)} (h : dispatches env tries fuel name kwargs stores t = some (ds, t')) :
    ds.map Prod.fst = stores := by
  induction stores generalizing t ds with
  | nil => simp_all
  | cons store rest ih =>
    obtain ⟨o, t₁, ds', -, hrest, rfl⟩ := (dispatches_cons_eq_some env).mp h
    simp [ih hrest]

end Lemmas

namespace CompositeTrackingStore

variable (c : CompositeTrackingStore Store) {fuel : Nat} {name : String} {kwargs : Kwargs}
  {itr : Bool}

theorem invokeLoop_of_dispatches {stores : List Store} {res : Option Val} {failed : List Store}
    {t t' : Trace Store Kwargs Val} {ds : List (Store × Outcome Val)}
    (h : dispatches env (c.tries env name) fuel name kwargs stores t = some (ds, t'))
    (hpanic : c.raiseOnError → ∀ d ∈ ds, d.2.isPanic = false) :
    c.invokeLoop env fuel name kwargs itr stores res failed t =
      some (.returned (lastValue ds res,
        failed ++ if c.removes env name itr then raisedStores ds else []), t') := by
  induction stores generalizing res failed t ds with
  | nil =>
    obtain ⟨rfl, rfl⟩ := by simpa using h
    simp [invokeLoop]
  | cons store rest ih =>
    obtain ⟨o, t₁, ds, hs, hrest, rfl⟩ := (dispatches_cons_eq_some env).mp h
    have hpanic' := fun hr d hd => hpanic hr d (mem_cons_of_mem _ hd)
    cases o with
    | returned value =>
      simp only [invokeLoop, hs]
      rw [ih hrest hpanic']
      simp
    | raised exc =>
      have hquiet : (exc.trackerPanic && c.raiseOnError) = false := by
        cases hr : c.raiseOnError
        · simp
        · simpa using hpanic hr _ (mem_cons_self _ _)
      simp only [invokeLoop, hs, hquiet]
      rw [ih hrest hpanic']
      cases c.removes env name itr <;> simp

theorem dispatches_of_invokeLoop {stores : List Store} {res res' : Option Val}
    {failed failed' : List Store} {t t' : Trace Store Kwargs Val}
    (h : c.invokeLoop env fuel name kwargs itr stores res failed t =
      some (.returned (res', failed'), t')) :
    ∃ ds, dispatches env (c.tries env name) fuel name kwargs stores t = some (ds, t') ∧
      (c.raiseOnError → ∀ d ∈ ds, d.2.isPanic = false) ∧ res' = lastValue ds res ∧
      failed' = failed ++ if c.removes env name itr then raisedStores ds else [] := by
  induction stores generalizing res failed t with
  | nil =>
    simp only [invokeLoop, Option.some.injEq, Prod.mk.injEq, Outcome.returned.injEq] at h
    obtain ⟨⟨rfl, rfl⟩, rfl⟩ := h
    exact ⟨[], rfl, by simp, rfl, by simp⟩
  | cons store rest ih =>
    simp only [invokeLoop] at h
    rcases hs : tryRunHandler (c.tries env name) (callHandler env store name kwargs) fuel t with
      _ | ⟨_ | exc, t₁⟩ <;> simp only [hs] at h
    · simp at h
    · obtain ⟨ds, hd, hp, hr, hf⟩ := ih h
      refine ⟨_, (dispatches_cons_eq_some env).mpr ⟨_, _, ds, hs, hd, rfl⟩, ?_, by simpa using hr,
        by simpa using hf⟩
      simpa using hp
    · split at h
      · simp at h
      · rename_i hquiet
        obtain ⟨ds, hd, hp, hr, hf⟩ := ih h
        refine ⟨_, (dispatches_cons_eq_some env).mpr ⟨_, _, ds, hs, hd, rfl⟩, ?_, by simpa using hr,
          ?_⟩
        · intro hro d hd
          simp only [mem_cons] at hd
          rcases hd with rfl | hd
          · simpa [hro] using hquiet
          · exact hp hro d hd
        · cases hrm : c.removes env name itr <;> simpa [hrm] using hf

theorem invokeLoop_eq_raised {stores : List Store} {res : Option Val} {failed : List Store}
    {t t' : Trace Store Kwargs Val} {exc : Exc}
    (h : c.invokeLoop env fuel name kwargs itr stores res failed t = some (.raised exc, t')) :
    c.raiseOnError ∧ exc.trackerPanic ∧ ∃ pre store post ds t₁, stores = pre ++ store :: post ∧
      dispatches env (c.tries env name) fuel name kwargs pre t = some (ds, t₁) ∧
      (∀ d ∈ ds, d.2.isPanic = false) ∧
      tryRunHandler (c.tries env name) (callHandler env store name kwargs) fuel t₁ =
        some (.raised exc, t') := by
  induction stores generalizing res failed t with
  | nil => simp [invokeLoop] at h
  | cons store rest ih =>
    simp only [invokeLoop] at h
    rcases hs : tryRunHandler (c.tries env name) (callHandler env store name kwargs) fuel t with
      _ | ⟨_ | e, t₁⟩ <;> simp only [hs] at h
    · simp at h
    · obtain ⟨hr, hp, pre, s, post, ds, t₂, rfl, hd, hnp, hlast⟩ := ih h
      refine ⟨hr, hp, store :: pre, s, post, _, t₂, rfl,
        (dispatches_cons_eq_some env).mpr ⟨_, _, ds, hs, hd, rfl⟩, ?_, hlast⟩
      simpa using hnp
    · split at h
      · rename_i hpanic
        simp only [Option.some.injEq, Prod.mk.injEq, Outcome.raised.injEq] at h
        obtain ⟨rfl, rfl⟩ := h
        simp only [Bool.and_eq_true] at hpanic
        exact ⟨hpanic.2, hpanic.1, [], store, rest, [], t, rfl, rfl, by simp, hs⟩
      · rename_i hquiet
        obtain ⟨hr, hp, pre, s, post, ds, t₂, rfl, hd, hnp, hlast⟩ := ih h
        refine ⟨hr, hp, store :: pre, s, post, _, t₂, rfl,
          (dispatches_cons_eq_some env).mpr ⟨_, _, ds, hs, hd, rfl⟩, ?_, hlast⟩
        simpa [hr] using And.intro hquiet hnp

theorem invokeLoop_eq_raised_of {pre : List Store} {store : Store} (post : List Store)
    {res : Option Val} {failed : List Store} {t t₁ t' : Trace Store Kwargs Val}
    {ds : List (Store × Outcome Val)} {exc : Exc} (hr : c.raiseOnError)
    (hd : dispatches env (c.tries env name) fuel name kwargs pre t = some (ds, t₁))
    (hnp : ∀ d ∈ ds, d.2.isPanic = false)
    (hs : tryRunHandler (c.tries env name) (callHandler env store name kwargs) fuel t₁ =
      some (.raised exc, t'))
    (hp : exc.trackerPanic) :
    c.invokeLoop env fuel name kwargs itr (pre ++ store :: post) res failed t =
      some (.raised exc, t') := by
  induction pre generalizing res failed t ds with
  | nil =>
    obtain ⟨rfl, rfl⟩ := by simpa using hd
    simp [invokeLoop, hs, hp, hr]
  | cons s rest ih =>
    obtain ⟨o, t₂, ds, hs', hrest, rfl⟩ := (dispatches_cons_eq_some env).mp hd
    have hnp' := fun d hd => hnp d (mem_cons_of_mem _ hd)
    cases o with
    | returned value =>
      simp only [cons_append, invokeLoop, hs']
      exact ih hrest hnp'
    | raised e =>
      have hquiet : (e.trackerPanic && c.raiseOnError) = false := by
        simp [show e.trackerPanic = false by simpa using hnp _ (mem_cons_self _ _)]
      simp only [cons_append, invokeLoop, hs', hquiet]
      exact ih hrest hnp'

end CompositeTrackingStore

end Dbnd.Tracking

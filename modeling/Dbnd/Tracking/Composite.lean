import Dbnd.Tracking.TryRunHandler

/-! `CompositeTrackingStore`: one tracking call fanned out to every active store,
with retries for state calls, and the stores that failed dropped after the call.
The stores are opaque; what they do is the environment's answer to each call. -/
namespace Dbnd.Tracking

/-- One call of a store's handler, as the composite made it, and how it ended. -/
structure Call (Store Kwargs Val : Type) where
  store : Store
  name : String
  kwargs : Kwargs
  result : Outcome Val

abbrev Trace (Store Kwargs Val : Type) := List (Call Store Kwargs Val)

/-- What the composite calls but does not define. A handler's answer may depend
on every call made before it, so any behaviour of the stores over time is an `Env`. -/
structure Env (Store Kwargs Val : Type) where
  /-- `is_state_call(name)` of the abstract tracking store. -/
  isStateCall : String → Bool
  /-- `isinstance(store, TrackingStoreThroughChannel)`. -/
  isThroughChannel : Store → Bool
  /-- `store.is_ready()`. -/
  isReady : Store → Bool
  /-- `getattr(store, name)(**kwargs)`, after the calls already made. -/
  handler : Trace Store Kwargs Val → Store → String → Kwargs → Outcome Val

variable {Store Kwargs Val : Type}

/-- One call of `store`'s handler: it ends as the environment says, and is recorded. -/
def callHandler (env : Env Store Kwargs Val) (store : Store) (name : String) (kwargs : Kwargs)
    (t : Trace Store Kwargs Val) : Outcome Val × Trace Store Kwargs Val :=
  (env.handler t store name kwargs, t ++ [⟨store, name, kwargs, env.handler t store name kwargs⟩])

/-- The settings `__init__` keeps, and `self._stores`. -/
structure CompositeTrackingStore (Store : Type) where
  stores : List Store
  raiseOnError : Bool
  removeFailedStore : Bool
  maxRetries : Int

namespace CompositeTrackingStore

variable (env : Env Store Kwargs Val) (c : CompositeTrackingStore Store)

/-- `self._max_retries if is_state_call(name) else 1`. -/
def tries (name : String) : Int := if env.isStateCall name then c.maxRetries else 1

/-- `self._remove_failed_store or (in_tracking_run() and is_state_call(name))`. -/
def removes (name : String) (inTrackingRun : Bool) : Bool :=
  c.removeFailedStore || (inTrackingRun && env.isStateCall name)

/-- The `for store in self._stores` loop of `_invoke` over the stores still to
dispatch, with `res` and `failed_stores` so far. -/
def invokeLoop (fuel : Nat) (name : String) (kwargs : Kwargs) (inTrackingRun : Bool) :
    List Store → Option Val → List Store → Trace Store Kwargs Val →
      Option (Outcome (Option Val × List Store) × Trace Store Kwargs Val)
  | [], res, failedStores, t => some (.returned (res, failedStores), t)
  | store :: rest, res, failedStores, t =>
    match tryRunHandler (c.tries env name) (callHandler env store name kwargs) fuel t with
    | none => none
    | some (.returned value, t') =>
      invokeLoop fuel name kwargs inTrackingRun rest (some value) failedStores t'
    | some (.raised exc, t') =>
      let failedStores :=
        if c.removes env name inTrackingRun then failedStores ++ [store] else failedStores
      if exc.trackerPanic && c.raiseOnError then some (.raised exc, t')
      else invokeLoop fuel name kwargs inTrackingRun rest res failedStores t'

variable [DecidableEq Store]

/-- `_invoke(name, kwargs)`: the loop, then `self._stores.remove(store)` for each
queued store. How it ended, the composite after it, and the trace. -/
def invoke (fuel : Nat) (name : String) (kwargs : Kwargs) (inTrackingRun : Bool)
    (t : Trace Store Kwargs Val) :
    Option (Outcome (Option Val) × CompositeTrackingStore Store × Trace Store Kwargs Val) :=
  match c.invokeLoop env fuel name kwargs inTrackingRun c.stores none [] t with
  | none => none
  | some (.raised exc, t') => some (.raised exc, c, t')
  | some (.returned (res, failedStores), t') =>
    match removeEach c.stores failedStores with
    | (stores, none) => some (.returned res, { c with stores }, t')
    | (stores, some exc) => some (.raised exc, { c with stores }, t')

/-- `disable_tracking_api`: keep the stores that are not `TrackingStoreThroughChannel`. -/
def disableTrackingApi : CompositeTrackingStore Store :=
  { c with stores := c.stores.filter fun store => !env.isThroughChannel store }

/-- `is_ready`: every active store is ready. -/
def isReady : Bool := c.stores.all env.isReady

/-! The public methods forward to `_invoke` under their own `__name__`. -/

def initScheduledJob (fuel : Nat) := c.invoke env fuel "init_scheduled_job"
def initRun (fuel : Nat) := c.invoke env fuel "init_run"
def initRunFromArgs (fuel : Nat) := c.invoke env fuel "init_run_from_args"
def setRunState (fuel : Nat) := c.invoke env fuel "set_run_state"
def setTaskReused (fuel : Nat) := c.invoke env fuel "set_task_reused"
def setTaskRunState (fuel : Nat) := c.invoke env fuel "set_task_run_state"
def setTaskRunStates (fuel : Nat) := c.invoke env fuel "set_task_run_states"
def setUnfinishedTasksState (fuel : Nat) := c.invoke env fuel "set_unfinished_tasks_state"
def saveTaskRunLog (fuel : Nat) := c.invoke env fuel "save_task_run_log"
def saveExternalLinks (fuel : Nat) := c.invoke env fuel "save_external_links"
def logTarget (fuel : Nat) := c.invoke env fuel "log_target"
def logTargets (fuel : Nat) := c.invoke env fuel "log_targets"
def logHistograms (fuel : Nat) := c.invoke env fuel "log_histograms"
def logMetrics (fuel : Nat) := c.invoke env fuel "log_metrics"
def logArtifact (fuel : Nat) := c.invoke env fuel "log_artifact"
def addTaskRuns (fuel : Nat) := c.invoke env fuel "add_task_runs"
def heartbeat (fuel : Nat) := c.invoke env fuel "heartbeat"
def saveAirflowTaskInfos (fuel : Nat) := c.invoke env fuel "save_airflow_task_infos"
def updateTaskRunAttempts (fuel : Nat) := c.invoke env fuel "update_task_run_attempts"
def saveAirflowMonitorData (fuel : Nat) := c.invoke env fuel "save_airflow_monitor_data"

end CompositeTrackingStore

end Dbnd.Tracking

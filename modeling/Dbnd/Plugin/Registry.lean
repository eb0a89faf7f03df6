import Dbnd.Tracking.Python

/-! `dbnd_plugins`: `register_dbnd_plugins`, which loads the plugins' setuptools entry
points behind the module flag `_dbnd_plugins_registered`, and `is_plugin_enabled`
with its fallback from `-` to `_` in a plugin's name. The plugin manager, the
importer and `fix_sys_path_str` are the environment. -/
namespace Dbnd.Plugin

open List Dbnd.Tracking

/-! ### `register_dbnd_plugins` -/

/-- The fields of `get_dbnd_project_config()` that `register_dbnd_plugins` reads. -/
structure ProjectConfig where
  isNoPlugins : Bool
  disablePluggyEntrypointLoading : Bool
  deriving DecidableEq, Repr

/-- The calls `register_dbnd_plugins` makes outside the module, in its order. -/
inductive Effect where
  | fixSysPathStr
  | loadSetuptoolsEntrypoints
  | checkPending
  deriving DecidableEq, Repr

abbrev EffectLog := List (Effect × Outcome Unit)

/-- The module's state: `_dbnd_plugins_registered` and the effects made so far. -/
structure Registry where
  registered : Bool
  log : EffectLog
  deriving DecidableEq, Repr

def Registry.fresh : Registry := ⟨false, []⟩

/-- How an effect ends, given the effects made before it. -/
abbrev EffectEnv := EffectLog → Effect → Outcome Unit

def Registry.call (env : EffectEnv) (e : Effect) (r : Registry) : Outcome Unit × Registry :=
  (env r.log e, { r with log := r.log ++ [(e, env r.log e)] })

/-- `register_dbnd_plugins()` under the project configuration `cfg`. -/
def registerDbndPlugins (env : EffectEnv) (cfg : ProjectConfig) (r : Registry) :
    Outcome Unit × Registry :=
  if cfg.isNoPlugins then (.returned (), r)
  else if r.registered then (.returned (), r)
  else
    match Registry.call env .fixSysPathStr { r with registered := true } with
    | (.raised exc, r) => (.raised exc, r)
    | (.returned _, r) =>
      if !cfg.disablePluggyEntrypointLoading then
        match r.call env .loadSetuptoolsEntrypoints with
        | (.raised exc, r) => (.raised exc, r)
        | (.returned _, r) => r.call env .checkPending
      else (.returned (), r)

/-- `register_dbnd_plugins()` called in turn under each configuration of `cfgs`. -/
def registerEach (env : EffectEnv) : List ProjectConfig → Registry → List (Outcome Unit) × Registry
  | [], r => ([], r)
  | cfg :: cfgs, r =>
    ((registerDbndPlugins env cfg r).1 :: (registerEach env cfgs (registerDbndPlugins env cfg r).2).1,
      (registerEach env cfgs (registerDbndPlugins env cfg r).2).2)

section Register

variable (env : EffectEnv) {cfg : ProjectConfig} {r : Registry}

@[simp] theorem call_registered (e : Effect) : (r.call env e).2.registered = r.registered := rfl

@[simp] theorem call_log (e : Effect) : (r.call env e).2.log = r.log ++ [(e, env r.log e)] := rfl

theorem registerDbndPlugins_of_registered (h : r.registered) :
    registerDbndPlugins env cfg r = (.returned (), r) := by
  simp [registerDbndPlugins, h]

theorem registerDbndPlugins_of_noPlugins (h : cfg.isNoPlugins) :
    registerDbndPlugins env cfg r = (.returned (), r) := by
  simp [registerDbndPlugins, h]

theorem registerDbndPlugins_first (hcfg : cfg.isNoPlugins = false) (hr : r.registered = false) :
    (registerDbndPlugins env cfg r).2.registered = true ∧
      ∃ effects, (registerDbndPlugins env cfg r).2.log = r.log ++ effects ∧
        effects.map Prod.fst <+: [.fixSysPathStr, .loadSetuptoolsEntrypoints, .checkPending] ∧
        (.loadSetuptoolsEntrypoints ∈ effects.map Prod.fst → cfg.disablePluggyEntrypointLoading = false) := by
  unfold registerDbndPlugins
  simp only [hcfg, hr, Bool.false_eq_true, if_false]
  rcases hfix : env r.log .fixSysPathStr with _ | exc
  · cases hdis : cfg.disablePluggyEntrypointLoading
    · rcases hload : env (r.log ++ [(.fixSysPathStr, .returned ())]) .loadSetuptoolsEntrypoints with
        _ | exc <;> simp [Registry.call, hfix, hload]
    · simp [Registry.call, hfix, hdis]
  · simp [Registry.call, hfix]

theorem registerEach_of_registered (cfgs : List ProjectConfig) (h : r.registered) :
    registerEach env cfgs r = (cfgs.map fun _ => .returned (), r) := by
  induction cfgs with
  | nil => rfl
  | cons cfg cfgs ih => simp [registerEach, registerDbndPlugins_of_registered env h, ih]

theorem registerEach_eq (cfgs : List ProjectConfig) (hr : r.registered = false) :
    (registerEach env cfgs r).2 = match cfgs.find? (fun cfg => !cfg.isNoPlugins) with
      | none => r
      | some cfg => (registerDbndPlugins env cfg r).2 := by
  induction cfgs with
  | nil => rfl
  | cons cfg cfgs ih =>
    cases hcfg : cfg.isNoPlugins
    · simp [registerEach, hcfg, registerEach_of_registered env cfgs (registerDbndPlugins_first env hcfg hr).1]
    · simp [registerEach, hcfg, registerDbndPlugins_of_noPlugins env hcfg, ih]

/-- Over every sequence of `register_dbnd_plugins()` calls in a process, whatever the
project configuration at each call and whichever effect raises, only the first call
made with plugins on does anything: the process ends in the state that call left.
Its effects are a prefix of `fix_sys_path_str`, `load_setuptools_entrypoints`,
`check_pending`, so the entry points are loaded at most once, never again after a
failure, and only when that first call allowed loading them. -/
theorem registerEach_acts_once (cfgs : List ProjectConfig) :
    (registerEach env cfgs .fresh).2 = (match cfgs.find? (fun cfg => !cfg.isNoPlugins) with
      | none => .fresh
      | some cfg => (registerDbndPlugins env cfg .fresh).2) ∧
    (registerEach env cfgs .fresh).2.log.map Prod.fst <+:
      [.fixSysPathStr, .loadSetuptoolsEntrypoints, .checkPending] ∧
    (.loadSetuptoolsEntrypoints ∈ (registerEach env cfgs .fresh).2.log.map Prod.fst →
      ∃ cfg, cfgs.find? (fun cfg => !cfg.isNoPlugins) = some cfg ∧
        cfg.disablePluggyEntrypointLoading = false) := by
  rw [registerEach_eq env cfgs rfl]
  rcases hfind : cfgs.find? (fun cfg => !cfg.isNoPlugins) with _ | cfg <;> simp only [hfind]
  · exact ⟨trivial, nil_prefix, by simp [Registry.fresh]⟩
  · have hcfg : cfg.isNoPlugins = false := by simpa using find?_some hfind
    obtain ⟨-, effects, hlog, hprefix, hload⟩ := registerDbndPlugins_first env hcfg (r := .fresh) rfl
    rw [hlog]
    exact ⟨trivial, by simpa [Registry.fresh] using hprefix,
      fun h => ⟨cfg, rfl, hload (by simpa [Registry.fresh] using h)⟩⟩

end Register

/-! ### `is_plugin_enabled` -/

/-- What `importlib.import_module` does with a name. -/
inductive ImportResult where
  | imported
  /-- One of `import_errors`, which `is_plugin_enabled` catches. -/
  | importError
  /-- Any other exception, which propagates. -/
  | raised (exc : Exc)
  deriving DecidableEq, Repr

/-- The plugin manager and the importer, as `is_plugin_enabled` sees them. -/
structure PluginEnv where
  /-- `pm.has_plugin(module)`. -/
  hasPlugin : List Char → Bool
  /-- `importlib.import_module(name)`. -/
  importModule : String → ImportResult

/-- `module.replace("-", "_")`: a one-character pattern, replaced character by character. -/
def underscored (moduleName : List Char) : List Char :=
  moduleName.map fun ch => if ch = '-' then '_' else ch

theorem dash_not_mem_underscored (moduleName : List Char) : '-' ∉ underscored moduleName := by
  simp only [underscored, mem_map, not_exists, not_and]
  intro ch _
  split_ifs with h
  · decide
  · exact h

/-- `if module_import:` and its `try`: whether the import succeeded; an exception
other than an import error propagates. -/
def tryImport (env : PluginEnv) : Option String → Outcome Bool
  | none => .returned false
  | some name =>
    if name = "" then .returned false
    else
      match env.importModule name with
      | .imported => .returned true
      | .importError => .returned false
      | .raised exc => .raised exc

/-- `is_plugin_enabled(module, module_import)`. -/
def isPluginEnabled (env : PluginEnv) (moduleName : List Char) (moduleImport : Option String) :
    Outcome Bool :=
  if env.hasPlugin moduleName then .returned true
  else
    match tryImport env moduleImport with
    | .raised exc => .raised exc
    | .returned true => .returned true
    | .returned false =>
      if _h : '-' ∈ moduleName then isPluginEnabled env (underscored moduleName) moduleImport
      else .returned false
termination_by moduleName.count '-'
decreasing_by
  rw [count_eq_zero.mpr (dash_not_mem_underscored moduleName)]
  exact count_pos_iff.mpr _h

/-- The `missing_module` configuration error `assert_plugin_enabled` raises. -/
def missingModule (moduleName : List Char) : Exc := ⟨false, String.mk moduleName⟩

/-- `assert_plugin_enabled(module, reason, module_import)`. -/
def assertPluginEnabled (env : PluginEnv) (moduleName : List Char) (moduleImport : Option String) :
    Outcome Bool :=
  match isPluginEnabled env moduleName moduleImport with
  | .raised exc => .raised exc
  | .returned false => .raised (missingModule moduleName)
  | .returned true => .returned true

end Dbnd.Plugin

import CLogging.Stack.SearchPath

/-!
# The directories of the modules

A refresh looks for the directory of a module anywhere in the search path. It also finds those that
are only a part of another one there, and leaves them out.
-/

namespace CLogging

open C Separated

/-- Split at the separators, the search path is the directories of the modules, each where it is
first seen. -/
def CoversDirs (modules : List CString) (path : List UInt8) : Prop :=
  path.splitOn semicolon = (modules.map moduleDir).eraseDups

/-- The calls of a refresh that re-initialises the symbol handler. -/
def refreshEvents (env : RefreshEnv) (g : SymbolHandler) (snapshot : ℕ) (path : List UInt8) :
    List StackEvent :=
  [.acquireSRWLockExclusive, .createToolhelp32Snapshot (some snapshot),
    .closeHandle (some snapshot) env.closeHandle, .symCleanup g.processHandle env.symCleanup,
    .symInitialize g.processHandle (some path) env.symInitialize, .releaseSRWLockExclusive]

variable {env : RefreshEnv} {g : SymbolHandler} {snapshot : ℕ}

lemma moduleDirs_ne_nil {modules : List CString} (hdirs : ∀ m ∈ modules, HasDir m) :
    ∀ dir ∈ modules.map moduleDir, dir ≠ [] := by
  intro dir hdir
  obtain ⟨m, hm, rfl⟩ := List.mem_map.mp hdir
  exact (hdirs m hm).moduleDir_ne_nil.1

/-- `SymInitialize` is given what is collected of the directories. -/
lemma refreshModuleList_eq (hstate : g.symbolsState = .initialized)
    (hsnapshot : env.createToolhelp32Snapshot = some snapshot) (hmodules : env.modules ≠ [])
    (hdirs : ∀ m ∈ env.modules, HasDir m)
    (hfit : ([semicolon].intercalate (env.modules.map moduleDir).eraseDups).length <
      SEARCH_PATH_SIZE) :
    getThreadStackRefreshModuleList env g = some (refreshEvents env g snapshot
      ([semicolon].intercalate (collect semicolon (env.modules.map moduleDir)))) := by
  have hle := length_intercalate_le semicolon
    (collect_sublist semicolon (env.modules.map moduleDir))
  obtain ⟨s, hs, hholds⟩ := SearchPath.addModules_start env.garbage hdirs (hle.trans_lt hfit)
  have hlength : s.length ≠ 0 := by
    rw [Ne, hholds.length_eq_zero_iff]
    exact collect_ne_nil (List.map_eq_nil_iff.not.mpr hmodules) (moduleDirs_ne_nil hdirs)
  rw [getThreadStackRefreshModuleList, if_neg (not_not.mpr hstate), hsnapshot]
  simp only [hs, Option.bind_some, reinitialization, if_neg hlength, if_pos hholds.zero_mem,
    Option.map_some, hholds.cstr_eq]
  rfl

/-- The search path covers the directories of the modules exactly if none of them holds a separator,
and none is a part of that of an earlier module but for one that is there already. -/
theorem coversDirs_iff (hstate : g.symbolsState = .initialized)
    (hsnapshot : env.createToolhelp32Snapshot = some snapshot) (hmodules : env.modules ≠ [])
    (hdirs : ∀ m ∈ env.modules, HasDir m)
    (hfit : ([semicolon].intercalate (env.modules.map moduleDir).eraseDups).length <
      SEARCH_PATH_SIZE) :
    ∃ path, getThreadStackRefreshModuleList env g = some (refreshEvents env g snapshot path) ∧
      (CoversDirs env.modules path ↔ (∀ dir ∈ env.modules.map moduleDir, semicolon ∉ dir) ∧
        NoNewPart (env.modules.map moduleDir)) :=
  ⟨_, refreshModuleList_eq hstate hsnapshot hmodules hdirs hfit,
    splitOn_collect_iff (List.map_eq_nil_iff.not.mpr hmodules) (moduleDirs_ne_nil hdirs)⟩

/-- A process with some modules. -/
def loadedModules (modules : List CString) : RefreshEnv where
  createToolhelp32Snapshot := some 5
  symRefreshModuleList     := true
  garbage _                := 0
  modules                  := modules
  closeHandle              := true
  symCleanup               := true
  symInitialize            := true

def fooModule : CString := ⟨ascii "C:\\foo\\y.dll", by decide⟩

def barModule : CString := ⟨ascii "C:\\foo\\bar\\x.dll", by decide⟩

lemma hasDir_fooModule : HasDir fooModule ∧ moduleDir fooModule = ascii "C:\\foo" := by
  have hbytes : fooModule.bytes = ascii "C:\\foo" ++ backslash :: ascii "y.dll" := rfl
  exact hasDir_of_eq hbytes (by decide) (by decide) (by decide)

lemma hasDir_barModule : HasDir barModule ∧ moduleDir barModule = ascii "C:\\foo\\bar" := by
  have hbytes : barModule.bytes = ascii "C:\\foo\\bar" ++ backslash :: ascii "x.dll" := rfl
  exact hasDir_of_eq hbytes (by decide) (by decide) (by decide)

theorem coversDirs_iff_sample : ∃ path,
    getThreadStackRefreshModuleList (loadedModules [fooModule, barModule]) x64 =
      some (refreshEvents (loadedModules [fooModule, barModule]) x64 5 path) ∧
    CoversDirs [fooModule, barModule] path := by
  have hdirs : ∀ m ∈ (loadedModules [fooModule, barModule]).modules, HasDir m := by
    rw [loadedModules, List.forall_mem_cons, List.forall_mem_singleton]
    exact ⟨hasDir_fooModule.1, hasDir_barModule.1⟩
  have hsnapshot : (loadedModules [fooModule, barModule]).createToolhelp32Snapshot = some 5 := rfl
  have hstate : x64.symbolsState = .initialized := rfl
  obtain ⟨path, hpath, hiff⟩ :=
    coversDirs_iff hstate hsnapshot (List.cons_ne_nil _ _) hdirs (by decide +kernel)
  have hsep : ∀ dir ∈ (loadedModules [fooModule, barModule]).modules.map moduleDir,
      semicolon ∉ dir := by decide +kernel
  refine ⟨path, hpath, hiff.mpr ⟨hsep, ?_⟩⟩
  exact (collect_eq_iff hsep (moduleDirs_ne_nil hdirs)).mp (by decide +kernel)

/-- A directory that is part of the one before it is left out. -/
theorem not_coversDirs_part : ¬ ∀ (env : RefreshEnv) (g : SymbolHandler) (snapshot : ℕ),
    g.symbolsState = .initialized → env.createToolhelp32Snapshot = some snapshot →
    env.modules ≠ [] → (∀ m ∈ env.modules, HasDir m) →
    ([semicolon].intercalate (env.modules.map moduleDir).eraseDups).length < SEARCH_PATH_SIZE →
    ∃ path, getThreadStackRefreshModuleList env g = some (refreshEvents env g snapshot path) ∧
      CoversDirs env.modules path := by
  intro h
  have hdirs : ∀ m ∈ (loadedModules [barModule, fooModule]).modules, HasDir m := by
    rw [loadedModules, List.forall_mem_cons, List.forall_mem_singleton]
    exact ⟨hasDir_barModule.1, hasDir_fooModule.1⟩
  have hne : (loadedModules [barModule, fooModule]).modules ≠ [] := List.cons_ne_nil _ _
  have hfit : ([semicolon].intercalate
      ((loadedModules [barModule, fooModule]).modules.map moduleDir).eraseDups).length <
        SEARCH_PATH_SIZE := by decide +kernel
  obtain ⟨path, hpath, hcovers⟩ := h _ x64 5 rfl rfl hne hdirs hfit
  rw [refreshModuleList_eq rfl rfl hne hdirs hfit] at hpath
  have hevents := Option.some.inj hpath
  rw [refreshEvents, refreshEvents] at hevents
  simp only [List.cons.injEq, StackEvent.symInitialize.injEq, Option.some.injEq, true_and,
    and_true] at hevents
  rw [CoversDirs, ← hevents] at hcovers
  revert hcovers
  decide +kernel

end CLogging

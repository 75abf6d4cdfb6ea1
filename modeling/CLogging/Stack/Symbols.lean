import CLogging.Context.Reservation

/-!
# The symbol handler

The module keeps a handle of its own process, for which it initialises the symbol handler. A refresh
re-initialises the symbol handler with a search path made of the directories of all loaded modules.
-/

namespace CLogging

open C Memory

/-- `SYM_INIT`. -/
inductive SymInit where
  | initialized | notInitialized
  deriving DecidableEq

/-- The variables of the module. `none` stands for `NULL`, and for the mask on x64, where there is
none. -/
structure SymbolHandler where
  symbolsState  : SymInit
  processHandle : Option ℕ
  addressMask   : Option UInt64
  deriving DecidableEq

/-- On x64, with the symbol handler initialised. -/
def x64 : SymbolHandler := ⟨.initialized, some 8, none⟩

/-- The calls of the operating system, with what they are called with and whether they succeed. -/
inductive StackEvent where
  | duplicateHandle (target : Option ℕ)
  | symInitialize (process : Option ℕ) (searchPath : Option (List UInt8)) (succeeded : Bool)
  | symCleanup (process : Option ℕ) (succeeded : Bool)
  | symRefreshModuleList (process : Option ℕ) (succeeded : Bool)
  | symFromAddr (process : Option ℕ) (pc : UInt64)
  | symGetLineFromAddr64 (process : Option ℕ) (pc : UInt64)
  | createToolhelp32Snapshot (snapshot : Option ℕ)
  | openThread (thread : Option ℕ)
  | rtlCaptureContext
  | suspendThread (succeeded : Bool)
  | getThreadContext (succeeded : Bool)
  | resumeThread (succeeded : Bool)
  | closeHandle (handle : Option ℕ) (succeeded : Bool)
  | acquireSRWLockExclusive
  | releaseSRWLockExclusive
  deriving DecidableEq

def MAX_PATH : ℕ := 260

/-- `'\\'`. -/
def backslash : UInt8 := 92

def semicolon : UInt8 := 59

/-! ### Initialisation -/

/-- What the calls of `get_thread_stack_init` return. The name of the executable is empty if
`GetModuleFileName` fails, and has at least `MAX_PATH` characters if it does not fit. -/
structure InitEnv where
  duplicateHandle           : Option ℕ
  moduleFileName            : CString
  symInitialize             : Bool
  closeHandle               : Bool
  maximumApplicationAddress : UInt64

/-- The directory of the executable, `NULL` if it is not known. -/
def userSearchPath (exePath : CString) : Option (List UInt8) :=
  if exePath.bytes.length ≠ 0 ∧ exePath.bytes.length < MAX_PATH then
    (strrchr backslash exePath.bytes).map fun lastBackslash => exePath.bytes.take lastBackslash
  else none

/-- An address with all bits set below its highest bit. -/
def fillBits (mask : UInt64) : UInt64 :=
  let mask := mask ||| mask >>> 1
  let mask := mask ||| mask >>> 2
  let mask := mask ||| mask >>> 4
  let mask := mask ||| mask >>> 8
  let mask := mask ||| mask >>> 16
  mask ||| mask >>> 32

/-- `strip_pac`. -/
def stripPac (g : SymbolHandler) (address : UInt64) : UInt64 :=
  match g.addressMask with
  | none      => address
  | some mask => address &&& mask

/-- `get_thread_stack_init`: the module, whether it returns 0, and the calls it makes. -/
def getThreadStackInit (env : InitEnv) (g : SymbolHandler) :
    SymbolHandler × Bool × List StackEvent :=
  if g.symbolsState = .notInitialized then
    match env.duplicateHandle with
    | none   => (g, false, [.duplicateHandle none])
    | some h =>
      let g := { g with processHandle := some h }
      let path := userSearchPath env.moduleFileName
      if env.symInitialize then
        ({ g with
            symbolsState := .initialized
            addressMask  := g.addressMask.map fun _ => fillBits env.maximumApplicationAddress },
          true, [.duplicateHandle (some h), .symInitialize g.processHandle path true])
      else
        ({ g with processHandle := none }, false,
          [.duplicateHandle (some h), .symInitialize g.processHandle path false,
            .closeHandle g.processHandle env.closeHandle])
  else (g, true, [])

/-! ### The search path -/

def SEARCH_PATH_SIZE : ℕ := 32768

/-- `searchPath` and `searchPathLen`. -/
structure SearchPath where
  buffer : List UInt8
  length : ℕ

/-- The empty search path. -/
def SearchPath.start (garbage : ℕ → UInt8) : SearchPath :=
  ⟨(uninitialised garbage SEARCH_PATH_SIZE).set 0 0, 0⟩

/-- A separator, if there is room for it and another byte. -/
def SearchPath.addSeparator (s : SearchPath) : SearchPath :=
  if 0 < s.length ∧ s.length + 1 < SEARCH_PATH_SIZE then
    ⟨s.buffer.set s.length semicolon, s.length + 1⟩
  else s

/-- A directory, if there is room for it and a terminator. -/
def SearchPath.addDir (s : SearchPath) (dir : List UInt8) : SearchPath :=
  if s.length + dir.length < SEARCH_PATH_SIZE then
    ⟨(Write.mk (s.length : ℤ) (dir ++ [0])).apply s.buffer, s.length + dir.length⟩
  else s

/-- One turn of the loop over the modules. `none` where the search path has no terminator: `strstr`
would read behind it. -/
def SearchPath.addModule (s : SearchPath) (exePath : CString) : Option SearchPath :=
  match strrchr backslash exePath.bytes with
  | none        => some s
  | some dirLen =>
    if dirLen ≥ MAX_PATH then some s
    else
      let dir := exePath.bytes.take dirLen
      if 0 ∈ s.buffer then
        if dir <:+: cstr s.buffer then some s else some (s.addSeparator.addDir dir)
      else none

def SearchPath.addModules : List CString → SearchPath → Option SearchPath
  | [], s      => some s
  | m :: ms, s => (s.addModule m).bind (addModules ms)

lemma SearchPath.start_buffer (garbage : ℕ → UInt8) :
    (SearchPath.start garbage).buffer.length = SEARCH_PATH_SIZE ∧
      0 ∈ (SearchPath.start garbage).buffer ∧ cstr (SearchPath.start garbage).buffer = [] := by
  have hlength := length_uninitialised garbage SEARCH_PATH_SIZE
  obtain ⟨b, buffer, hbuffer⟩ : ∃ b buffer, uninitialised garbage SEARCH_PATH_SIZE = b :: buffer := by
    refine List.exists_cons_of_length_pos ?_
    rw [hlength]
    norm_num [SEARCH_PATH_SIZE]
  rw [start, hbuffer, List.set_cons_zero]
  rw [hbuffer, List.length_cons] at hlength
  exact ⟨by rw [List.length_cons, hlength], List.mem_cons_self, rfl⟩

/-- The path of a module names a directory that can be added. -/
def HasDir (exePath : CString) : Prop :=
  ∃ dirLen, strrchr backslash exePath.bytes = some dirLen ∧ dirLen ≠ 0 ∧ dirLen < MAX_PATH

lemma length_take_dir {exePath : CString} {dirLen : ℕ}
    (h : strrchr backslash exePath.bytes = some dirLen) :
    (exePath.bytes.take dirLen).length = dirLen := by
  rw [List.length_take]
  exact Nat.min_eq_left (strrchr_lt h).le

/-- The first directory is always added. -/
lemma SearchPath.addModule_start (garbage : ℕ → UInt8) {exePath : CString} {dirLen : ℕ}
    (hslash : strrchr backslash exePath.bytes = some dirLen) (hne : dirLen ≠ 0)
    (hlt : dirLen < MAX_PATH) :
    (SearchPath.start garbage).addModule exePath =
      some ((SearchPath.start garbage).addDir (exePath.bytes.take dirLen)) := by
  obtain ⟨-, hzero, hempty⟩ := start_buffer garbage
  have hnew : ¬ exePath.bytes.take dirLen <:+: [] := by
    intro h
    rw [← length_take_dir hslash, List.eq_nil_of_infix_nil h] at hne
    exact hne rfl
  have hfirst : (SearchPath.start garbage).addSeparator = SearchPath.start garbage :=
    if_neg fun h => absurd h.1 (Nat.lt_irrefl 0)
  rw [addModule, hslash]
  simp only [ge_iff_le, if_neg (not_le.mpr hlt), if_pos hzero, hempty, if_neg hnew, hfirst]

lemma SearchPath.addModules_singleton (garbage : ℕ → UInt8) {exePath : CString} {dirLen : ℕ}
    (hslash : strrchr backslash exePath.bytes = some dirLen) (hne : dirLen ≠ 0)
    (hlt : dirLen < MAX_PATH) :
    (SearchPath.start garbage).addModules [exePath] =
      some ((SearchPath.start garbage).addDir (exePath.bytes.take dirLen)) := by
  rw [addModules, addModule_start garbage hslash hne hlt, Option.bind_some, addModules]

/-- Other modules are skipped as long as there is no directory. -/
lemma SearchPath.addModule_start_of_not_hasDir (garbage : ℕ → UInt8) {exePath : CString}
    (h : ¬ HasDir exePath) :
    (SearchPath.start garbage).addModule exePath = some (SearchPath.start garbage) := by
  obtain ⟨-, hzero, -⟩ := start_buffer garbage
  rw [addModule]
  match hslash : strrchr backslash exePath.bytes with
  | none => rfl
  | some dirLen =>
    simp only
    by_cases hlong : dirLen ≥ MAX_PATH
    · rw [if_pos hlong]
    · have hempty : dirLen = 0 := by
        by_contra hne
        exact h ⟨dirLen, hslash, hne, not_le.mp hlong⟩
      have hfound : exePath.bytes.take dirLen <:+: cstr (SearchPath.start garbage).buffer := by
        rw [hempty]
        exact List.nil_infix
      rw [if_neg hlong, if_pos hzero, if_pos hfound]

lemma SearchPath.length_le_addDir (s : SearchPath) (dir : List UInt8) :
    s.length ≤ (s.addDir dir).length := by
  rw [addDir]
  split_ifs
  · exact Nat.le_add_right _ _
  · exact le_refl _

lemma SearchPath.length_le_addSeparator (s : SearchPath) : s.length ≤ s.addSeparator.length := by
  rw [addSeparator]
  split_ifs
  · exact Nat.le_succ _
  · exact le_refl _

/-- The search path only grows. -/
lemma SearchPath.length_le_addModule {s s' : SearchPath} {exePath : CString}
    (h : s.addModule exePath = some s') : s.length ≤ s'.length := by
  rw [addModule] at h
  match hslash : strrchr backslash exePath.bytes with
  | none =>
    rw [hslash] at h
    obtain rfl := Option.some.inj h
    exact le_refl _
  | some dirLen =>
    rw [hslash] at h
    simp only at h
    split_ifs at h
    · obtain rfl := Option.some.inj h
      exact le_refl _
    · obtain rfl := Option.some.inj h
      exact le_refl _
    · obtain rfl := Option.some.inj h
      exact s.length_le_addSeparator.trans (length_le_addDir _ _)

lemma SearchPath.length_le_addModules {modules : List CString} {s s' : SearchPath}
    (h : s.addModules modules = some s') : s.length ≤ s'.length := by
  induction modules generalizing s with
  | nil =>
    obtain rfl := Option.some.inj h
    exact le_refl _
  | cons m modules ih =>
    obtain ⟨t, ht, hrest⟩ := Option.bind_eq_some_iff.mp h
    exact (length_le_addModule ht).trans (ih hrest)

/-- There is a search path exactly if some module has a directory. -/
lemma SearchPath.length_ne_zero_iff {garbage : ℕ → UInt8} {modules : List CString} {s : SearchPath}
    (h : (SearchPath.start garbage).addModules modules = some s) :
    s.length ≠ 0 ↔ ∃ m ∈ modules, HasDir m := by
  induction modules with
  | nil =>
    obtain rfl := Option.some.inj h
    exact iff_of_false (not_not.mpr rfl) fun ⟨m, hm, _⟩ => absurd hm List.not_mem_nil
  | cons m modules ih =>
    obtain ⟨t, ht, hrest⟩ := Option.bind_eq_some_iff.mp h
    rw [List.exists_mem_cons_iff]
    by_cases hdir : HasDir m
    · -- the directory of this module is added, so the length is not 0
      refine iff_of_true ?_ (Or.inl hdir)
      obtain ⟨dirLen, hslash, hne, hlt⟩ := hdir
      rw [addModule_start garbage hslash hne hlt] at ht
      obtain rfl := Option.some.inj ht
      have hfits : (SearchPath.start garbage).length + (m.bytes.take dirLen).length <
          SEARCH_PATH_SIZE := by
        rw [length_take_dir hslash, start, Nat.zero_add]
        exact hlt.trans (by norm_num [MAX_PATH, SEARCH_PATH_SIZE])
      have hle := length_le_addModules hrest
      rw [addDir, if_pos hfits, length_take_dir hslash] at hle
      exact Nat.ne_zero_of_lt (hle.trans_lt' (Nat.lt_of_lt_of_le (Nat.pos_of_ne_zero hne)
        (Nat.le_add_left _ _)))
    · rw [addModule_start_of_not_hasDir garbage hdir] at ht
      obtain rfl := Option.some.inj ht
      rw [or_iff_right hdir]
      exact ih hrest

/-- A directory that fits is terminated. -/
lemma SearchPath.zero_mem_addDir {s : SearchPath} (hlength : s.buffer.length = SEARCH_PATH_SIZE)
    {dir : List UInt8} (h : s.length + dir.length < SEARCH_PATH_SIZE) :
    0 ∈ (s.addDir dir).buffer := by
  have hfit : s.length + (dir ++ [0]).length ≤ s.buffer.length := by
    rw [List.length_append, List.length_singleton, hlength]
    exact h
  rw [addDir, if_pos h, Write.apply_eq_append _ _ _ hfit]
  refine List.mem_append_right _ (List.mem_append_left _ ?_)
  exact List.mem_append_right _ (List.mem_singleton_self 0)

/-! ### Refreshing and de-initialisation -/

/-- What the calls of `get_thread_stack_refresh_module_list` return, and what is in `searchPath`
before. There are no modules if `Module32First` fails. -/
structure RefreshEnv where
  createToolhelp32Snapshot : Option ℕ
  symRefreshModuleList     : Bool
  garbage                  : ℕ → UInt8
  modules                  : List CString
  closeHandle              : Bool
  symCleanup               : Bool
  symInitialize            : Bool

/-- The calls that re-initialise the symbol handler, if there is a search path. `none` where it has
no terminator. -/
def reinitialization (env : RefreshEnv) (g : SymbolHandler) (s : SearchPath) :
    Option (List StackEvent) :=
  if s.length = 0 then some []
  else if 0 ∈ s.buffer then
    some [.symCleanup g.processHandle env.symCleanup,
      .symInitialize g.processHandle (some (cstr s.buffer)) env.symInitialize]
  else none

/-- `get_thread_stack_refresh_module_list`: the calls it makes. It leaves the variables of the
module as they are. -/
def getThreadStackRefreshModuleList (env : RefreshEnv) (g : SymbolHandler) :
    Option (List StackEvent) :=
  if g.symbolsState ≠ .initialized then some []
  else
    match env.createToolhelp32Snapshot with
    | none          =>
      some [.acquireSRWLockExclusive, .createToolhelp32Snapshot none,
        .symRefreshModuleList g.processHandle env.symRefreshModuleList, .releaseSRWLockExclusive]
    | some snapshot =>
      ((SearchPath.start env.garbage).addModules env.modules).bind fun s =>
        (reinitialization env g s).map fun events =>
          [.acquireSRWLockExclusive, .createToolhelp32Snapshot (some snapshot),
            .closeHandle (some snapshot) env.closeHandle] ++ events ++ [.releaseSRWLockExclusive]

/-- `get_thread_stack_deinit`, given whether its calls succeed. -/
def getThreadStackDeinit (symCleanup closeHandle : Bool) (g : SymbolHandler) :
    SymbolHandler × List StackEvent :=
  if g.symbolsState = .initialized then
    ({ g with processHandle := none, symbolsState := .notInitialized },
      [.symCleanup g.processHandle symCleanup, .closeHandle g.processHandle closeHandle])
  else (g, [])

end CLogging

import CLogging.Lib.Separated
import CLogging.Stack.Symbols

/-!
# The search path buffer

A turn of the loop over the modules appends a separator, and then a directory with a terminator. They
are appended for themselves: where there is room for the separator but not for the directory behind
it, the search path ends with a separator, and behind that there is no terminator.
-/

namespace CLogging

open C Memory Separated

variable {s : SearchPath} {dirs : List (List UInt8)} {dir : List UInt8} {exePath : CString}

/-! ### One turn of the loop -/

/-- The directory a turn of the loop tries to add: that of the module, if it is not found in the
search path. -/
def SearchPath.newDir (s : SearchPath) (exePath : CString) : Option (List UInt8) :=
  match strrchr backslash exePath.bytes with
  | none        => none
  | some dirLen =>
    if dirLen ≥ MAX_PATH then none
    else if exePath.bytes.take dirLen <:+: cstr s.buffer then none
    else some (exePath.bytes.take dirLen)

lemma SearchPath.addModule_eq (h : 0 ∈ s.buffer) :
    s.addModule exePath = some ((s.newDir exePath).elim s s.addSeparator.addDir) := by
  rw [addModule, newDir]
  cases strrchr backslash exePath.bytes with
  | none => rfl
  | some dirLen =>
    simp only [if_pos h]
    split_ifs
    all_goals rfl

lemma SearchPath.newDir_eq_some (h : s.newDir exePath = some dir) :
    dir ≠ [] ∧ 0 ∉ dir ∧ dir.length < MAX_PATH ∧ ¬ dir <:+: cstr s.buffer := by
  rw [newDir] at h
  match hslash : strrchr backslash exePath.bytes with
  | none =>
    rw [hslash] at h
    cases h
  | some dirLen =>
    rw [hslash] at h
    simp only at h
    split_ifs at h with hlong hfound
    obtain rfl := Option.some.inj h
    refine ⟨?_, fun hzero => exePath.noNul (List.mem_of_mem_take hzero), ?_, hfound⟩
    · intro hnil
      rw [hnil] at hfound
      exact hfound List.nil_infix
    · rw [length_take_dir hslash]
      exact not_le.mp hlong

/-! ### Search paths that hold directories -/

/-- The search path is the directories, joined by separators and terminated. -/
structure SearchPath.Holds (s : SearchPath) (dirs : List (List UInt8)) : Prop where
  size       : s.buffer.length = SEARCH_PATH_SIZE
  length_lt  : s.length < SEARCH_PATH_SIZE
  terminated : s.buffer[s.length]? = some 0
  joined     : s.buffer.take s.length = [semicolon].intercalate dirs
  dirs       : ∀ dir ∈ dirs, dir ≠ [] ∧ 0 ∉ dir

lemma SearchPath.Holds.length_eq (h : s.Holds dirs) :
    s.length = ([semicolon].intercalate dirs).length := by
  rw [← h.joined, List.length_take, h.size]
  exact (Nat.min_eq_left h.length_lt.le).symm

lemma SearchPath.Holds.length_eq_zero_iff (h : s.Holds dirs) : s.length = 0 ↔ dirs = [] := by
  rw [h.length_eq, List.length_eq_zero_iff]
  exact intercalate_eq_nil_iff fun dir hdir => (h.dirs dir hdir).1

lemma SearchPath.Holds.zero_mem (h : s.Holds dirs) : 0 ∈ s.buffer := List.mem_of_getElem? h.terminated

/-- `strstr` and `SymInitialize` read the directories. -/
lemma SearchPath.Holds.cstr_eq (h : s.Holds dirs) :
    cstr s.buffer = [semicolon].intercalate dirs := by
  obtain ⟨hlt, hzero⟩ := List.getElem?_eq_some_iff.mp h.terminated
  rw [← List.take_append_drop s.length s.buffer, h.joined, List.drop_eq_getElem_cons hlt, hzero]
  refine cstr_append_zero _ _ fun hmem => ?_
  rcases mem_intercalate hmem with hsep | ⟨dir, hdir, hin⟩
  · exact absurd hsep (by decide)
  · exact (h.dirs dir hdir).2 hin

lemma SearchPath.holds_start (garbage : ℕ → UInt8) : (start garbage).Holds [] where
  size       := (start_buffer garbage).1
  length_lt  := by norm_num [start, SEARCH_PATH_SIZE]
  terminated := by
    have hpos : 0 < (uninitialised garbage SEARCH_PATH_SIZE).length := by
      rw [length_uninitialised]
      norm_num [SEARCH_PATH_SIZE]
    rw [start]
    generalize uninitialised garbage SEARCH_PATH_SIZE = buffer at hpos
    exact List.getElem?_set_self hpos
  joined     := rfl
  dirs dir h := absurd h List.not_mem_nil

/-- A directory that fits is appended with a terminator. -/
lemma SearchPath.addDir_eq (hsize : s.buffer.length = SEARCH_PATH_SIZE)
    (h : s.length + dir.length < SEARCH_PATH_SIZE) :
    ∃ rest, s.addDir dir =
      ⟨s.buffer.take s.length ++ (dir ++ 0 :: rest), s.length + dir.length⟩ := by
  have hfit : s.length + (dir ++ [0]).length ≤ s.buffer.length := by
    rw [List.length_append, List.length_singleton, hsize]
    exact h
  rw [addDir, if_pos h, Write.apply_eq_append _ _ _ hfit]
  exact ⟨_, by rw [List.append_assoc, List.singleton_append]⟩

lemma SearchPath.addSeparator_start (h : s.length = 0) : s.addSeparator = s :=
  if_neg fun hpos => hpos.1.ne' h

lemma SearchPath.addSeparator_eq (hpos : 0 < s.length) (h : s.length + 1 < SEARCH_PATH_SIZE) :
    s.addSeparator = ⟨s.buffer.set s.length semicolon, s.length + 1⟩ := if_pos ⟨hpos, h⟩

lemma SearchPath.take_addSeparator (hsize : s.buffer.length = SEARCH_PATH_SIZE)
    (hpos : 0 < s.length) (h : s.length + 1 < SEARCH_PATH_SIZE) :
    s.addSeparator.buffer.take s.addSeparator.length =
      s.buffer.take s.length ++ [semicolon] := by
  have hlt : s.length < s.buffer.length := by omega
  have htake : (s.buffer.take s.length).length = s.length := by
    rw [List.length_take]
    exact Nat.min_eq_left hlt.le
  rw [addSeparator_eq hpos h, List.set_eq_take_append_cons_drop, if_pos hlt]
  simp only
  rw [List.take_append, htake, Nat.add_sub_cancel_left, List.take_of_length_le (by omega)]
  rfl

@[simp] lemma SearchPath.length_buffer_addSeparator (s : SearchPath) :
    s.addSeparator.buffer.length = s.buffer.length := by
  rw [addSeparator]
  split_ifs
  · exact List.length_set
  · rfl

/-- Where the separator has room, the search path with another directory is as long as it should
be. -/
lemma SearchPath.Holds.length_addSeparator (h : s.Holds dirs) (hroom : s.length + 1 < SEARCH_PATH_SIZE)
    (dir : List UInt8) : s.addSeparator.length + dir.length =
      ([semicolon].intercalate (dirs ++ [dir])).length := by
  by_cases hdirs : dirs = []
  · rw [addSeparator_start (h.length_eq_zero_iff.mpr hdirs), h.length_eq_zero_iff.mpr hdirs, hdirs,
      List.nil_append, List.intercalate_singleton, Nat.zero_add]
  · have hpos := Nat.pos_of_ne_zero (mt h.length_eq_zero_iff.mp hdirs)
    rw [addSeparator_eq hpos hroom, intercalate_concat hdirs, List.length_append, List.length_cons,
      ← h.length_eq]
    simp only
    omega

/-- A directory that fits with its separator is added. -/
lemma SearchPath.Holds.add (h : s.Holds dirs) (hroom : s.length + 1 < SEARCH_PATH_SIZE)
    (hdir : dir ≠ [] ∧ 0 ∉ dir) (hfit : s.addSeparator.length + dir.length < SEARCH_PATH_SIZE) :
    (s.addSeparator.addDir dir).Holds (dirs ++ [dir]) := by
  have hsize : s.addSeparator.buffer.length = SEARCH_PATH_SIZE := by
    rw [length_buffer_addSeparator, h.size]
  have hlength : s.addSeparator.length ≤ s.addSeparator.buffer.length := by omega
  have htake : (s.addSeparator.buffer.take s.addSeparator.length).length = s.addSeparator.length := by
    rw [List.length_take]
    exact Nat.min_eq_left hlength
  have hjoined : s.addSeparator.buffer.take s.addSeparator.length ++ dir =
      [semicolon].intercalate (dirs ++ [dir]) := by
    by_cases hdirs : dirs = []
    · -- the first directory: no separator
      rw [addSeparator_start (h.length_eq_zero_iff.mpr hdirs), h.joined, hdirs, List.nil_append,
        List.intercalate_singleton, List.intercalate_nil, List.nil_append]
    · have hpos := Nat.pos_of_ne_zero (mt h.length_eq_zero_iff.mp hdirs)
      rw [take_addSeparator h.size hpos hroom, h.joined, intercalate_concat hdirs,
        List.append_assoc, List.singleton_append]
  obtain ⟨rest, heq⟩ := addDir_eq hsize hfit
  have hbuffer := (Write.length_apply (Write.mk (s.addSeparator.length : ℤ) (dir ++ [0]))
    s.addSeparator.buffer)
  have hadd : s.addSeparator.addDir dir = ⟨_, _⟩ := if_pos hfit
  have htext : (s.addSeparator.buffer.take s.addSeparator.length ++ dir).length =
      s.addSeparator.length + dir.length := by
    rw [List.length_append, htake]
  refine ⟨?_, ?_, ?_, ?_, ?_⟩
  · rw [hadd]
    exact hbuffer.trans hsize
  · rw [heq]
    exact hfit
  · rw [heq, ← List.append_assoc]
    simp only
    rw [← htext, List.getElem?_append_right (le_refl _), Nat.sub_self]
    rfl
  · -- the text is the directories with the separators between them
    rw [heq, ← List.append_assoc, ← hjoined]
    simp only
    rw [← htext, List.take_left]
  · rw [List.forall_mem_append, List.forall_mem_singleton]
    exact ⟨h.dirs, hdir⟩

/-- In a full search path nothing changes. -/
lemma SearchPath.addDir_full (hroom : s.length + 1 = SEARCH_PATH_SIZE) (hdir : dir ≠ []) :
    s.addSeparator.length + dir.length ≥ SEARCH_PATH_SIZE ∧ s.addSeparator.addDir dir = s := by
  have hpos := List.length_pos_iff.mpr hdir
  have hsep : s.addSeparator = s := if_neg fun h => by omega
  rw [hsep]
  exact ⟨by omega, if_neg (by omega)⟩

/-- A separator that is left without a directory. -/
lemma SearchPath.Holds.addModule_overflow (h : s.Holds dirs) (hnew : s.newDir exePath = some dir)
    (hroom : s.length + 1 < SEARCH_PATH_SIZE)
    (hfit : ¬ s.addSeparator.length + dir.length < SEARCH_PATH_SIZE) :
    s.addModule exePath = some s.addSeparator ∧
      ¬ Clean semicolon (s.addSeparator.buffer.take s.addSeparator.length) := by
  have hpos : 0 < s.length := by
    refine Nat.pos_of_ne_zero fun hempty => hfit ?_
    rw [addSeparator_start hempty, hempty, Nat.zero_add]
    exact (newDir_eq_some hnew).2.2.1.trans (by norm_num [MAX_PATH, SEARCH_PATH_SIZE])
  rw [addModule_eq h.zero_mem, hnew, Option.elim_some, addDir, if_neg hfit,
    take_addSeparator h.size hpos hroom]
  exact ⟨rfl, not_clean_concat _⟩

/-! ### Modules with a directory -/

/-- The directory of a module. -/
def moduleDir (exePath : CString) : List UInt8 :=
  match strrchr backslash exePath.bytes with
  | none        => []
  | some dirLen => exePath.bytes.take dirLen

lemma HasDir.moduleDir_ne_nil (h : HasDir exePath) : moduleDir exePath ≠ [] ∧ 0 ∉ moduleDir exePath := by
  obtain ⟨dirLen, hslash, hne, -⟩ := h
  have hlength := length_take_dir hslash
  have hdir : moduleDir exePath = exePath.bytes.take dirLen := by rw [moduleDir, hslash]
  rw [hdir]
  refine ⟨fun hnil => hne ?_, fun hzero => exePath.noNul (List.mem_of_mem_take hzero)⟩
  rw [← hlength, hnil, List.length_nil]

lemma HasDir.newDir_eq (h : HasDir exePath) (s : SearchPath) : s.newDir exePath =
    if moduleDir exePath <:+: cstr s.buffer then none else some (moduleDir exePath) := by
  obtain ⟨dirLen, hslash, -, hlt⟩ := h
  rw [SearchPath.newDir, moduleDir, hslash]
  exact if_neg (not_le.mpr hlt)

lemma hasDir_of_eq {name : List UInt8} (h : exePath.bytes = dir ++ backslash :: name)
    (hname : backslash ∉ name) (hne : dir ≠ []) (hlt : dir.length < MAX_PATH) :
    HasDir exePath ∧ moduleDir exePath = dir := by
  have hslash : strrchr backslash exePath.bytes = some dir.length := by
    rw [h, strrchr_append_cons dir hname]
  refine ⟨⟨dir.length, hslash, fun hzero => hne (List.length_eq_zero_iff.mp hzero), hlt⟩, ?_⟩
  rw [moduleDir, hslash, h]
  exact List.take_left

/-- Where there is room for it, the directory is added unless it is found. -/
lemma SearchPath.Holds.addModule_hasDir (h : s.Holds dirs) (hdir : HasDir exePath)
    (hfit : ([semicolon].intercalate (addNew semicolon dirs (moduleDir exePath))).length <
      SEARCH_PATH_SIZE) :
    ∃ s', s.addModule exePath = some s' ∧ s'.Holds (addNew semicolon dirs (moduleDir exePath)) := by
  refine ⟨_, addModule_eq h.zero_mem, ?_⟩
  rw [hdir.newDir_eq, h.cstr_eq]
  rw [addNew] at hfit ⊢
  by_cases hfound : moduleDir exePath <:+: [semicolon].intercalate dirs
  · -- the directory is found in the path already
    rw [if_pos hfound, if_pos hfound]
    exact h
  · -- the directory is added, and there is room for the separator
    rw [if_neg hfound] at hfit
    rw [if_neg hfound, if_neg hfound]
    have hroom : s.length + 1 < SEARCH_PATH_SIZE := by
      have hpos := List.length_pos_iff.mpr hdir.moduleDir_ne_nil.1
      by_cases hdirs : dirs = []
      · rw [h.length_eq_zero_iff.mpr hdirs]
        norm_num [SEARCH_PATH_SIZE]
      · rw [intercalate_concat hdirs, List.length_append, List.length_cons, ← h.length_eq] at hfit
        omega
    refine h.add hroom hdir.moduleDir_ne_nil ?_
    rw [h.length_addSeparator hroom]
    exact hfit

lemma SearchPath.Holds.addModules_hasDir {modules : List CString} (h : s.Holds dirs)
    (hdirs : ∀ m ∈ modules, HasDir m)
    (hfit : ([semicolon].intercalate ((modules.map moduleDir).foldl (addNew semicolon) dirs)).length <
      SEARCH_PATH_SIZE) :
    ∃ s', s.addModules modules = some s' ∧
      s'.Holds ((modules.map moduleDir).foldl (addNew semicolon) dirs) := by
  induction modules generalizing s dirs with
  | nil => exact ⟨s, rfl, h⟩
  | cons m ms ih =>
    rw [List.forall_mem_cons] at hdirs
    rw [List.map_cons, List.foldl_cons] at hfit ⊢
    have hprefix := prefix_foldl_addNew semicolon (ms.map moduleDir) (addNew semicolon dirs (moduleDir m))
    obtain ⟨t, hstep, hholds⟩ := h.addModule_hasDir hdirs.1
      ((length_intercalate_le semicolon hprefix.sublist).trans_lt hfit)
    obtain ⟨s', hrest, hlast⟩ := ih hholds hdirs.2 hfit
    exact ⟨s', by rw [addModules, hstep, Option.bind_some, hrest], hlast⟩

/-- The search path is what is collected of the directories, if there is room for that. -/
theorem SearchPath.addModules_start (garbage : ℕ → UInt8) {modules : List CString}
    (hdirs : ∀ m ∈ modules, HasDir m)
    (hfit : ([semicolon].intercalate (collect semicolon (modules.map moduleDir))).length <
      SEARCH_PATH_SIZE) :
    ∃ s, (start garbage).addModules modules = some s ∧
      s.Holds (collect semicolon (modules.map moduleDir)) :=
  (holds_start garbage).addModules_hasDir hdirs hfit

/-! ### The invariant -/

/-- The search path ends where its length says, and is the directories joined by single
separators. -/
structure SearchPath.WellFormed (s : SearchPath) (dirs : List (List UInt8)) : Prop where
  length_lt  : s.length < SEARCH_PATH_SIZE
  terminated : s.buffer[s.length]? = some 0
  joined     : s.buffer.take s.length = [semicolon].intercalate dirs
  clean      : Clean semicolon (s.buffer.take s.length)

/-- The directory a turn of the loop adds, if it does. -/
def SearchPath.addedDir (s : SearchPath) (exePath : CString) : List (List UInt8) :=
  match s.newDir exePath with
  | none     => []
  | some dir => if s.addSeparator.length + dir.length < SEARCH_PATH_SIZE then [dir] else []

/-- The directories some turns of the loop add. -/
def SearchPath.addedDirs : List CString → SearchPath → List (List UInt8)
  | [], _      => []
  | m :: ms, s =>
    s.addedDir m ++ match s.addModule m with
      | none    => []
      | some s' => addedDirs ms s'

/-- If there is room for a separator in front of a new directory, there is room for the directory
too, and it can be told apart from its neighbours. -/
def SearchPath.Accepts (s : SearchPath) (exePath : CString) : Prop :=
  ∀ dir, s.newDir exePath = some dir → s.length + 1 = SEARCH_PATH_SIZE ∨
    s.addSeparator.length + dir.length < SEARCH_PATH_SIZE ∧ Clean semicolon dir

/-- All turns of the loop find the search path and the next module like that. -/
def SearchPath.AcceptsAll : List CString → SearchPath → Prop
  | [], _      => True
  | m :: ms, s => s.Accepts m ∧ ∀ s', s.addModule m = some s' → AcceptsAll ms s'

lemma SearchPath.Holds.wellFormed_iff_clean (h : s.Holds dirs) :
    s.WellFormed dirs ↔ Clean semicolon ([semicolon].intercalate dirs) := by
  rw [← h.joined]
  exact ⟨fun hwell => hwell.clean, fun hclean => ⟨h.length_lt, h.terminated, h.joined, hclean⟩⟩

/-- One turn of the loop keeps the invariant exactly if the module is accepted. -/
lemma SearchPath.Holds.addModule (h : s.Holds dirs)
    (hclean : Clean semicolon ([semicolon].intercalate dirs)) (exePath : CString) :
    ∃ s', s.addModule exePath = some s' ∧
      (s'.WellFormed (dirs ++ s.addedDir exePath) ↔ s.Accepts exePath) ∧
      (s.Accepts exePath → s'.Holds (dirs ++ s.addedDir exePath)) := by
  refine ⟨_, addModule_eq h.zero_mem, ?_⟩
  rw [addedDir, Accepts]
  match hnew : s.newDir exePath with
  | none =>
    rw [List.append_nil, Option.elim_none]
    exact ⟨iff_of_true (h.wellFormed_iff_clean.mpr hclean) nofun, fun _ => h⟩
  | some dir =>
    obtain ⟨hne, hzero, -, -⟩ := newDir_eq_some hnew
    simp only [Option.elim_some, Option.some.injEq, forall_eq']
    rcases Nat.lt_or_eq_of_le (Nat.succ_le_of_lt h.length_lt) with hroom | hroom
    · rw [or_iff_right hroom.ne]
      by_cases hfit : s.addSeparator.length + dir.length < SEARCH_PATH_SIZE
      · have hadd := h.add hroom ⟨hne, hzero⟩ hfit
        rw [if_pos hfit, and_iff_right hfit, hadd.wellFormed_iff_clean,
          clean_intercalate_concat_iff (fun d hd => (h.dirs d hd).1) hne]
        exact ⟨and_iff_right hclean, fun _ => hadd⟩
      · -- the separator is left without a directory
        have hunclean := (h.addModule_overflow hnew hroom hfit).2
        have hsep : s.addSeparator.addDir dir = s.addSeparator := if_neg hfit
        rw [if_neg hfit, hsep]
        exact ⟨iff_of_false (fun hwell => hunclean hwell.clean) fun hboth => hfit hboth.1,
          fun hboth => absurd hboth.1 hfit⟩
    · -- the path is full: neither separator nor directory is stored
      obtain ⟨hfull, hsame⟩ := addDir_full hroom hne
      rw [if_neg (not_lt.mpr hfull), List.append_nil, hsame]
      exact ⟨iff_of_true (h.wellFormed_iff_clean.mpr hclean) (Or.inl hroom), fun _ => h⟩

lemma SearchPath.wellFormed_addModules_iff (modules : List CString) (h : s.Holds dirs)
    (hclean : Clean semicolon ([semicolon].intercalate dirs)) :
    (∀ before, before <+: modules → ∃ s', s.addModules before = some s' ∧
      s'.WellFormed (dirs ++ s.addedDirs before)) ↔ s.AcceptsAll modules := by
  induction modules generalizing s dirs with
  | nil =>
    refine iff_of_true (fun before hbefore => ?_) trivial
    rw [List.prefix_nil.mp hbefore, addedDirs, List.append_nil]
    exact ⟨s, rfl, h.wellFormed_iff_clean.mpr hclean⟩
  | cons m ms ih =>
    obtain ⟨s', hstep, hiff, hholds⟩ := h.addModule hclean m
    have hcons : ∀ before, s.addModules (m :: before) = s'.addModules before ∧
        dirs ++ s.addedDirs (m :: before) = dirs ++ s.addedDir m ++ s'.addedDirs before := by
      intro before
      rw [addModules, hstep, Option.bind_some, addedDirs, hstep, List.append_assoc]
      exact ⟨rfl, rfl⟩
    have hnext : s.Accepts m → Clean semicolon ([semicolon].intercalate (dirs ++ s.addedDir m)) :=
      fun haccept => (hholds haccept).wellFormed_iff_clean.mp (hiff.mpr haccept)
    rw [AcceptsAll, hstep]
    simp only [Option.some.injEq, forall_eq']
    constructor
    · intro hall
      have hone : s.Accepts m := by
        obtain ⟨t, ht, hwell⟩ := hall [m] (List.prefix_append [m] ms)
        rw [(hcons []).1, (hcons []).2, addedDirs, List.append_nil] at *
        obtain rfl := Option.some.inj ht
        exact hiff.mp hwell
      refine ⟨hone, (ih (hholds hone) (hnext hone)).mp fun before hbefore => ?_⟩
      obtain ⟨t, ht, hwell⟩ := hall (m :: before) ((List.prefix_cons_inj m).mpr hbefore)
      rw [(hcons before).1] at ht
      rw [(hcons before).2] at hwell
      exact ⟨t, ht, hwell⟩
    · -- this module is accepted; the path it leaves holds its directories
      rintro ⟨hone, hrest⟩ before hbefore
      cases before with
      | nil =>
        rw [addedDirs, List.append_nil]
        exact ⟨s, rfl, h.wellFormed_iff_clean.mpr hclean⟩
      | cons m' before =>
        obtain ⟨rfl, hprefix⟩ := List.cons_prefix_cons.mp hbefore
        rw [(hcons before).1, (hcons before).2]
        exact (ih (hholds hone) (hnext hone)).mpr hrest before hprefix

/-- The search path stays well-formed exactly if all turns of the loop find room for what they add,
and no directory begins or ends with a separator, or holds two in a row. -/
theorem SearchPath.wellFormed_iff (garbage : ℕ → UInt8) (modules : List CString) :
    (∀ before, before <+: modules → ∃ s, (start garbage).addModules before = some s ∧
      s.WellFormed ((start garbage).addedDirs before)) ↔ (start garbage).AcceptsAll modules :=
  wellFormed_addModules_iff modules (holds_start garbage) clean_nil

lemma SearchPath.addModules_concat (s : SearchPath) (modules : List CString) (exePath : CString) :
    s.addModules (modules ++ [exePath]) =
      (s.addModules modules).bind fun s' => s'.addModule exePath := by
  induction modules generalizing s with
  | nil =>
    rw [List.nil_append, addModules, addModules, Option.bind_some]
    exact Option.bind_fun_some _
  | cons m ms ih =>
    rw [List.cons_append, addModules, addModules, Option.bind_assoc]
    exact congrArg _ (funext ih)

/-- One of many directories of modules, all but the last of the greatest length. -/
def longDir (i : ℕ) : List UInt8 :=
  List.replicate (i + 1) 97 ++ List.replicate ((if i < 126 then 256 else 250) - i) 98

def longModule (i : ℕ) : CString := ⟨longDir i ++ [backslash, 120], by simp [longDir, backslash]⟩

def shortModule : CString := ⟨List.replicate 20 99 ++ [backslash, 120], by decide⟩

lemma length_longDir {i : ℕ} (h : i ≤ 126) :
    (longDir i).length = if i < 126 then 257 else 251 := by
  rw [longDir, List.length_append, List.length_replicate, List.length_replicate]
  split_ifs
  · omega
  · omega

lemma length_longModule {i : ℕ} (h : i ≤ 126) : (longModule i).bytes.length < MAX_PATH := by
  have hlength := length_longDir h
  have hpath : (longModule i).bytes.length = (longDir i).length + 2 := List.length_append
  rw [MAX_PATH]
  split_ifs at hlength
  · omega
  · omega

lemma hasDir_longModule {i : ℕ} (h : i ≤ 126) :
    HasDir (longModule i) ∧ moduleDir (longModule i) = longDir i := by
  have hlength := length_longDir h
  refine hasDir_of_eq rfl (by decide) (fun hnil => ?_) ?_
  · rw [longDir] at hnil
    exact absurd (List.append_eq_nil_iff.mp hnil).1 (List.replicate_succ_ne_nil)
  · rw [hlength]
    split_ifs
    · decide
    · decide

lemma notMem_longDir {b : UInt8} (ha : b ≠ 97) (hb : b ≠ 98) (i : ℕ) : b ∉ longDir i := by
  rw [longDir, List.mem_append, List.mem_replicate, List.mem_replicate, not_or]
  exact ⟨fun h => ha h.2, fun h => hb h.2⟩

lemma count_longDir (i : ℕ) : (longDir i).count 97 = i + 1 := by
  simp [longDir, List.count_replicate]

lemma pairwise_longDir : ((List.range 127).map longDir).Pairwise fun a x => ¬ x <:+: a := by
  rw [List.pairwise_map]
  refine List.pairwise_lt_range.imp fun {i j} hlt hpart => ?_
  have hcount := hpart.sublist.count_le 97
  rw [count_longDir, count_longDir] at hcount
  omega

lemma collect_longDir :
    collect semicolon ((List.range 127).map longDir) = (List.range 127).map longDir := by
  refine collect_eq_self ?_ ?_ pairwise_longDir
  · intro d hd
    obtain ⟨i, -, rfl⟩ := List.mem_map.mp hd
    exact notMem_longDir (by decide) (by decide) i
  · intro d hd
    obtain ⟨i, -, rfl⟩ := List.mem_map.mp hd
    refine List.ne_nil_of_mem (a := 97) (List.count_pos_iff.mp ?_)
    rw [count_longDir]
    exact Nat.succ_pos i

lemma length_join_longDir :
    ([semicolon].intercalate ((List.range 127).map longDir)).length = 32759 := by
  have hne : (List.range 127).map longDir ≠ [] := by simp
  have hlengths : ((List.range 127).map longDir).map (fun x => x.length + 1) =
      List.replicate 126 258 ++ [252] := by
    rw [List.range_succ, List.map_append, List.map_append]
    refine congrArg₂ _ (List.eq_replicate_iff.mpr ⟨by simp, fun n hn => ?_⟩) ?_
    · rw [List.map_map] at hn
      obtain ⟨i, hi, rfl⟩ := List.mem_map.mp hn
      have hi := List.mem_range.mp hi
      rw [Function.comp_apply, length_longDir hi.le, if_pos hi]
    · rw [List.map_singleton, List.map_singleton, length_longDir le_rfl, if_neg (lt_irrefl 126)]
  have hsum := length_intercalate semicolon hne
  rw [hlengths, List.sum_append, List.sum_singleton, List.sum_replicate, smul_eq_mul] at hsum
  omega

/-- Behind 127 long directories, each of which fits in the path of a module, there is room for a
separator, but not for 20 bytes behind it. -/
theorem SearchPath.not_wellFormed_full : ¬ ∀ (garbage : ℕ → UInt8) (modules before : List CString),
    (∀ m ∈ modules, m.bytes.length < MAX_PATH) → before <+: modules → ∃ s, (start garbage).addModules before = some s ∧
      s.WellFormed ((start garbage).addedDirs before) := by
  intro h
  have hrange : ∀ i ∈ List.range 127, i ≤ 126 := fun i hi => Nat.le_of_lt_succ (List.mem_range.mp hi)
  have hdirs : ∀ m ∈ (List.range 127).map longModule, HasDir m := by
    intro m hm
    obtain ⟨i, hi, rfl⟩ := List.mem_map.mp hm
    exact (hasDir_longModule (hrange i hi)).1
  have hlengths : ∀ m ∈ (List.range 127).map longModule ++ [shortModule],
      m.bytes.length < MAX_PATH := by
    intro m hm
    rcases List.mem_append.mp hm with hm | hm
    · obtain ⟨i, hi, rfl⟩ := List.mem_map.mp hm
      exact length_longModule (hrange i hi)
    · obtain rfl := List.mem_singleton.mp hm
      decide
  have hmap : ((List.range 127).map longModule).map moduleDir = (List.range 127).map longDir := by
    rw [List.map_map]
    exact List.map_congr_left fun i hi => (hasDir_longModule (hrange i hi)).2
  have hfit : ([semicolon].intercalate
      (collect semicolon (((List.range 127).map longModule).map moduleDir))).length <
        SEARCH_PATH_SIZE := by
    rw [hmap, collect_longDir, length_join_longDir]
    norm_num [SEARCH_PATH_SIZE]
  obtain ⟨s, hs, hholds⟩ := addModules_start (fun _ => 0) hdirs hfit
  rw [hmap, collect_longDir] at hholds
  have hlength : s.length = 32759 := hholds.length_eq.trans length_join_longDir
  have hshort : HasDir shortModule ∧ moduleDir shortModule = List.replicate 20 99 :=
    hasDir_of_eq rfl (by decide) (by decide) (by decide)
  have hnew : s.newDir shortModule = some (List.replicate 20 99) := by
    rw [hshort.1.newDir_eq, hshort.2, hholds.cstr_eq]
    refine if_neg fun hfound => ?_
    have hmem := hfound.subset (List.mem_replicate.mpr ⟨by norm_num, rfl⟩)
    rcases mem_intercalate hmem with hsep | ⟨d, hd, hin⟩
    · exact absurd hsep (by decide)
    · obtain ⟨i, -, rfl⟩ := List.mem_map.mp hd
      exact notMem_longDir (by decide) (by decide) i hin
  have hsep : s.addSeparator.length = 32760 := by
    rw [addSeparator_eq (by omega) (by rw [hlength]; norm_num [SEARCH_PATH_SIZE]), hlength]
  obtain ⟨hstep, hunclean⟩ := hholds.addModule_overflow hnew
    (by rw [hlength]; norm_num [SEARCH_PATH_SIZE])
    (by rw [hsep, List.length_replicate]; norm_num [SEARCH_PATH_SIZE])
  obtain ⟨t, ht, hwell⟩ := h (fun _ => 0) _ ((List.range 127).map longModule ++ [shortModule])
    hlengths List.prefix_rfl
  rw [addModules_concat, hs, Option.bind_some, hstep] at ht
  obtain rfl := Option.some.inj ht
  exact hunclean hwell.clean

end CLogging

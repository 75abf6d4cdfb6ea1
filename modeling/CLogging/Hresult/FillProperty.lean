import CLogging.Hresult.FormatMessage
import CLogging.ToString.Algorithm

/-!
# The message of an HRESULT

`log_hresult_fill_property` asks the system for a message, and then one loaded module after the
other. The array of module handles has 100 entries, but the loop runs up to the number of modules
that `EnumProcessModules` reports.
-/

namespace CLogging

open C Memory Printf

def MESSAGE_BUFFER_SIZE : ℕ := 512

def N_MAX_MODULES : ℕ := 100

/-- Where a message is looked up. -/
inductive MessageSource where
  | system
  | module (handle : ℕ)
  deriving DecidableEq

/-- What a call of `FormatMessageA` does with a buffer of `MESSAGE_BUFFER_SIZE` bytes: the number of
characters it reports, and the bytes it stores. If it succeeds, a terminator is behind them. -/
structure Lookup where
  result  : UInt32
  stored  : List UInt8
  bounded : stored.length ≤ MESSAGE_BUFFER_SIZE
  counted : result ≠ 0 → result.toNat < stored.length

def Lookup.call (l : Lookup) (buffer : List UInt8) : FormatMessageA :=
  ⟨l.result, (Write.mk 0 l.stored).apply buffer⟩

/-- The message that is found, without the newlines at its end; empty if none is found. -/
def Lookup.message (l : Lookup) : List UInt8 :=
  (l.stored.take l.result.toNat).rdropWhile isNewline

/-- What the calls of `log_hresult_fill_property` return. `EnumProcessModules` stores handles and
reports a number of bytes, unless it fails. Where no handle was stored, and behind the array, there
is anything. -/
structure HresultEnv where
  hresult            : UInt32
  formatMessageA     : MessageSource → Lookup
  enumProcessModules : Option (List ℕ × UInt32)
  garbage            : ℕ → ℕ
  sizeofHmodule      : ℕ
  lastError          : UInt32
  snprintf           : Option Failure

def snprintfFailureMessage : CString := ⟨ascii "snprintf failed", by decide⟩

/-- `"unknown HRESULT 0x%x"`. -/
def HresultEnv.unknownText (env : HresultEnv) : CString :=
  .concat [⟨ascii "unknown HRESULT 0x", by decide⟩, .hexadecimal env.hresult.toNat]

/-- `"failure in EnumProcessModules, LE=%lu, unknown HRESULT 0x%x"`. -/
def HresultEnv.enumFailedText (env : HresultEnv) : CString :=
  .concat [⟨ascii "failure in EnumProcessModules, LE=", by decide⟩,
    .unsigned env.lastError.toNat, ⟨ascii ", ", by decide⟩, env.unknownText]

/-- `snprintf` into the buffer, and another text if it fails. -/
def HresultEnv.print (env : HresultEnv) (text : CString) (buffer : List UInt8) : List UInt8 :=
  let printed := match env.snprintf with
    | none         => Printf.snprintf text.bytes MESSAGE_BUFFER_SIZE
    | some failure => (failure.result, failure.text.take MESSAGE_BUFFER_SIZE)
  let buffer := (Write.mk 0 printed.2).apply buffer
  if printed.1 < 0 then (Write.mk 0 snprintfFailureMessage.terminated).apply buffer else buffer

/-- `module_handles[iModule]`. -/
def HresultEnv.moduleHandle (env : HresultEnv) (handles : List ℕ) (iModule : ℕ) : ℕ :=
  handles.getD iModule (env.garbage iModule)

/-- The loop over the modules, given how many turns are left: where it ends, the buffer, and the
indices of the handles that were used. -/
def lookUpModules (env : HresultEnv) (handles : List ℕ) :
    ℕ → ℕ → List UInt8 → Option (ℕ × List UInt8 × List ℕ)
  | 0, iModule, buffer     => some (iModule, buffer, [])
  | n + 1, iModule, buffer =>
    (formatMessageANoNewline ((env.formatMessageA
      (.module (env.moduleHandle handles iModule))).call buffer)).bind fun t =>
    if t.result ≠ 0 then some (iModule, t.buffer, [iModule])
    else
      (lookUpModules env handles n (iModule + 1) t.buffer).map fun (last, buffer, used) =>
        (last, buffer, iModule :: used)

/-- What `log_hresult_fill_property` returns and leaves in the buffer, the sources that were asked
for a message, and the indices of the handles that were used. -/
structure HresultProperty where
  returned : ℕ
  buffer   : Option (List UInt8)
  queried  : List MessageSource
  indices  : List ℕ

/-- `log_hresult_fill_property`. -/
def logHresultFillProperty (env : HresultEnv) (buffer : Option (List UInt8)) :
    Option HresultProperty :=
  match buffer with
  | none     => some ⟨MESSAGE_BUFFER_SIZE, none, [], []⟩
  | some mem =>
    (formatMessageANoNewline ((env.formatMessageA .system).call mem)).bind fun t =>
    if t.result ≠ 0 then some ⟨MESSAGE_BUFFER_SIZE, some t.buffer, [.system], []⟩
    else
      match env.enumProcessModules with
      | none =>
        some ⟨MESSAGE_BUFFER_SIZE, some (env.print env.enumFailedText t.buffer), [.system], []⟩
      | some (handles, enumModulesUsedBytes) =>
        let count := enumModulesUsedBytes.toNat / env.sizeofHmodule
        (lookUpModules env handles count 0 t.buffer).map fun (iModule, buffer, used) =>
          ⟨MESSAGE_BUFFER_SIZE,
            some (if iModule = count then env.print env.unknownText buffer else buffer),
            .system :: used.map fun i => .module (env.moduleHandle handles i), used⟩

/-! ### One lookup -/

/-- The buffer holds a terminated text. -/
def HoldsText (buffer text : List UInt8) : Prop := ∃ rest, buffer = text ++ 0 :: rest

lemma Lookup.message_eq_nil {l : Lookup} (h : l.result = 0) : l.message = [] := by
  rw [message, h]
  rfl

lemma Lookup.message_call {l : Lookup} {buffer : List UInt8}
    (hbuffer : MESSAGE_BUFFER_SIZE ≤ buffer.length) : (l.call buffer).message = l.message := by
  by_cases hresult : l.result = 0
  · rw [message_eq_nil hresult, FormatMessageA.message, call, hresult]
    rfl
  · have hcounted := l.counted hresult
    have hbounded := l.bounded
    have hstored := Write.apply_eq_append 0 l.stored buffer (by omega)
    rw [List.take_zero, List.nil_append] at hstored
    rw [FormatMessageA.message, message, call]
    simp only
    rw [show ((0 : ℤ)) = ((0 : ℕ) : ℤ) from rfl, hstored,
      List.take_append_of_le_length hcounted.le]

/-- What a lookup leaves: a result that is zero exactly if there is no message, or the message in the
buffer. -/
lemma Lookup.exists_trimmed (l : Lookup) {buffer : List UInt8}
    (hbuffer : MESSAGE_BUFFER_SIZE ≤ buffer.length) :
    ∃ t, formatMessageANoNewline (l.call buffer) = some t ∧ t.buffer.length = buffer.length ∧
      (t.result ≠ 0 ↔ l.message ≠ []) ∧ (l.message ≠ [] → HoldsText t.buffer l.message) := by
  have hlength : (l.call buffer).buffer.length = buffer.length := Write.length_apply _ _
  by_cases hresult : l.result = 0
  · -- FormatMessageA has failed: no message
    have hnil := message_eq_nil hresult
    refine ⟨_, if_pos hresult, hlength, ?_, fun hne => absurd hnil hne⟩
    exact iff_of_false (fun h => h rfl) fun h => h hnil
  · -- what is left without the newlines at its end is the message
    have hcounted := l.counted hresult
    have hbounded := l.bounded
    have hfit : (l.call buffer).result.toNat < (l.call buffer).buffer.length := by
      rw [hlength]
      exact (hcounted.trans_le hbounded).trans_le hbuffer
    obtain ⟨reads, -, heq⟩ := formatMessageANoNewline_eq (m := l.call buffer) hresult hfit
    have hmessage := l.message_call hbuffer
    have hin := (l.call buffer).length_message_le.trans_lt hfit
    refine ⟨_, heq, ?_, ?_, fun _ => ?_⟩
    · exact (Write.length_apply _ _).trans hlength
    · have htoNat := (l.call buffer).toNat_trimmed_result
      rw [hmessage] at htoNat
      rw [not_iff_not, ← List.length_eq_zero_iff, ← htoNat, ← UInt32.toNat_inj]
      rfl
    · have hbuffer' := FormatMessageA.trimmed_buffer hin
      rw [hmessage] at hbuffer'
      exact ⟨_, hbuffer'⟩

/-! ### The loop over the modules -/

section

variable (env : HresultEnv)

/-- The message of a source. -/
def HresultEnv.message (s : MessageSource) : List UInt8 := (env.formatMessageA s).message

/-- The source of an entry of the array. -/
def HresultEnv.entry (handles : List ℕ) (i : ℕ) : MessageSource :=
  .module (env.moduleHandle handles i)

/-- The loop ends at the first entry that has a message, or behind all of them. -/
lemma exists_lookUpModules (handles : List ℕ) (n : ℕ) : ∀ (iModule : ℕ) (buffer : List UInt8),
    MESSAGE_BUFFER_SIZE ≤ buffer.length → ∃ last buffer' used,
      lookUpModules env handles n iModule buffer = some (last, buffer', used) ∧
      buffer'.length = buffer.length ∧
      ((∃ k < n, (∀ j < k, env.message (env.entry handles (iModule + j)) = []) ∧
          env.message (env.entry handles (iModule + k)) ≠ [] ∧ last = iModule + k ∧
          used = List.range' iModule (k + 1) ∧
          HoldsText buffer' (env.message (env.entry handles (iModule + k)))) ∨
        ((∀ j < n, env.message (env.entry handles (iModule + j)) = []) ∧ last = iModule + n ∧
          used = List.range' iModule n)) := by
  induction n with
  | zero =>
    intro iModule buffer _
    refine ⟨iModule, buffer, [], rfl, rfl, Or.inr ⟨fun j hj => ?_, rfl, rfl⟩⟩
    exact absurd hj (Nat.not_lt_zero j)
  | succ n ih =>
    intro iModule buffer hbuffer
    obtain ⟨t, ht, hlength, hresult, hholds⟩ :=
      (env.formatMessageA (env.entry handles iModule)).exists_trimmed hbuffer
    rw [lookUpModules, ← HresultEnv.entry, ht, Option.bind_some]
    by_cases hfound : t.result ≠ 0
    · -- the first entry has the message
      have hmessage := hresult.mp hfound
      rw [if_pos hfound]
      refine ⟨_, _, _, rfl, hlength, Or.inl ⟨0, Nat.succ_pos n, fun j hj => ?_, hmessage, rfl, rfl,
        hholds hmessage⟩⟩
      exact absurd hj (Nat.not_lt_zero j)
    · -- it has none: the search goes on behind it
      have hmessage : env.message (env.entry handles iModule) = [] := by
        by_contra hne
        exact hfound (hresult.mpr hne)
      have hfirst : ∀ {j}, (∀ i < j, env.message (env.entry handles (iModule + 1 + i)) = []) →
          ∀ i < j + 1, env.message (env.entry handles (iModule + i)) = [] := by
        intro j h i hi
        match i with
        | 0 => exact hmessage
        | i + 1 =>
          rw [← Nat.add_assoc, Nat.add_right_comm]
          exact h i (Nat.lt_of_succ_lt_succ hi)
      obtain ⟨last, buffer', used, hrest, hlength', hcases⟩ :=
        ih (iModule + 1) t.buffer (hlength.symm ▸ hbuffer)
      rw [if_neg hfound, hrest, Option.map_some]
      refine ⟨_, _, _, rfl, hlength'.trans hlength, ?_⟩
      rcases hcases with ⟨k, hk, hbefore, hne, rfl, rfl, htext⟩ | ⟨hnone, rfl, rfl⟩
      · refine Or.inl ⟨k + 1, Nat.succ_lt_succ hk, hfirst hbefore, ?_, ?_, rfl, ?_⟩
        · rwa [← Nat.add_assoc, Nat.add_right_comm]
        · exact Nat.add_right_comm _ _ _
        · rwa [← Nat.add_assoc, Nat.add_right_comm]
      · exact Or.inr ⟨hfirst hnone, Nat.add_right_comm _ _ _, rfl⟩

/-! ### The sources -/

/-- The system, and then the modules whose handles can be stored. -/
def sources (modules : List ℕ) : List MessageSource :=
  .system :: (modules.take N_MAX_MODULES).map .module

/-- Only handles that were stored are used. The first source that has a message is the last that is
asked, and its message is in the buffer. If there is none, the buffer says so. -/
structure LooksUp (modules : List ℕ) (r : HresultProperty) : Prop where
  stored  : ∀ i ∈ r.indices, i < min modules.length N_MAX_MODULES
  found   : ∀ before s behind, sources modules = before ++ s :: behind →
    (∀ s' ∈ before, env.message s' = []) → env.message s ≠ [] →
      r.queried = before ++ [s] ∧ ∃ buffer, r.buffer = some buffer ∧ HoldsText buffer (env.message s)
  unknown : (∀ s ∈ sources modules, env.message s = []) →
    ∃ buffer, r.buffer = some buffer ∧ HoldsText buffer env.unknownText.bytes

lemma length_unknownText_lt : env.unknownText.bytes.length < MESSAGE_BUFFER_SIZE := by
  have hdigits : (hexadecimalDigits env.hresult.toNat).length ≤ 8 :=
    length_hexadecimalDigits_le (by decide) env.hresult.toNat_lt
  have hlength : env.unknownText.bytes.length =
      18 + (hexadecimalDigits env.hresult.toNat).length := by
    simp only [HresultEnv.unknownText, CString.concat, CString.hexadecimal, List.map_cons,
      List.map_nil, List.flatten_cons, List.flatten_nil, List.length_append, List.length_nil]
    rfl
  rw [hlength, MESSAGE_BUFFER_SIZE]
  omega

/-- The text is in the buffer, unless `snprintf` fails. -/
lemma holdsText_print_iff {buffer : List UInt8} (hbuffer : MESSAGE_BUFFER_SIZE ≤ buffer.length) :
    HoldsText (env.print env.unknownText buffer) env.unknownText.bytes ↔ env.snprintf = none := by
  have hlt := length_unknownText_lt env
  rw [HresultEnv.print]
  cases hsnprintf : env.snprintf with
  | none =>
    have hstored : stored env.unknownText.bytes MESSAGE_BUFFER_SIZE =
        env.unknownText.bytes ++ [0] := by
      rw [stored, if_neg (by decide), List.take_of_length_le (Nat.le_sub_one_of_lt hlt)]
    have hfit : 0 + (env.unknownText.bytes ++ [0]).length ≤ buffer.length := by
      rw [List.length_append, List.length_singleton]
      omega
    have happly := Write.apply_eq_append 0 (env.unknownText.bytes ++ [0]) buffer hfit
    refine iff_of_true ?_ rfl
    simp only [snprintf, if_neg (not_lt.mpr (Int.natCast_nonneg _)), hstored]
    refine ⟨buffer.drop (0 + (env.unknownText.bytes ++ [0]).length), ?_⟩
    rw [show (0 : ℤ) = ((0 : ℕ) : ℤ) from rfl, happly]
    simp
  | some failure =>
    refine iff_of_false ?_ (Option.some_ne_none failure)
    simp only [if_pos failure.negative]
    rintro ⟨rest, hrest⟩
    set printed := (Write.mk 0 (failure.text.take MESSAGE_BUFFER_SIZE)).apply buffer with hprinted
    have hlength : printed.length = buffer.length := Write.length_apply _ _
    have hfit : 0 + snprintfFailureMessage.terminated.length ≤ printed.length := by
      rw [hlength]
      exact le_trans (by decide) hbuffer
    have happly := Write.apply_eq_append 0 snprintfFailureMessage.terminated printed hfit
    -- one text begins with an s, the other with a u
    rw [show (0 : ℤ) = ((0 : ℕ) : ℤ) from rfl, happly] at hrest
    have hs : (printed.take 0 ++ (snprintfFailureMessage.terminated ++
        printed.drop (0 + snprintfFailureMessage.terminated.length))).head? = some 115 := rfl
    have hu : (env.unknownText.bytes ++ 0 :: rest).head? = some 117 := rfl
    rw [hrest, hu] at hs
    exact absurd hs (by decide)

/-- Some source has a message, or there is a place for every handle, and the message for unknown
codes can be printed. -/
def SourceKnown (modules : List ℕ) : Prop :=
  (∃ s ∈ sources modules, env.message s ≠ []) ∨
    (modules.length ≤ N_MAX_MODULES ∧ env.snprintf = none)

variable {env} {modules : List ℕ}

/-- An entry of the array that was stored is one of the sources. -/
lemma entry_eq_getElem {i : ℕ} (hi : i < (modules.take N_MAX_MODULES).length) :
    env.entry (modules.take N_MAX_MODULES) i = .module ((modules.take N_MAX_MODULES)[i]) := by
  rw [HresultEnv.entry, HresultEnv.moduleHandle, List.getD_eq_getElem?_getD,
    List.getElem?_eq_getElem hi, Option.getD_some]

lemma map_entry_range' {n : ℕ} (hn : n ≤ (modules.take N_MAX_MODULES).length) :
    (List.range' 0 n).map (env.entry (modules.take N_MAX_MODULES)) =
      ((modules.take N_MAX_MODULES).take n).map .module := by
  apply List.ext_getElem
  · rw [List.length_map, List.length_range', List.length_map, List.length_take,
      Nat.min_eq_left hn]
  · intro i hi hi'
    rw [List.length_map, List.length_range'] at hi
    rw [List.getElem_map, List.getElem_range', List.getElem_map, List.getElem_take, Nat.zero_add,
      Nat.one_mul, entry_eq_getElem (hi.trans_le hn)]

/-- No source has a message if neither the system nor any handle that was stored has one. -/
lemma sources_unknown (hsystem : env.message .system = [])
    (h : ∀ j < (modules.take N_MAX_MODULES).length,
      env.message (env.entry (modules.take N_MAX_MODULES) (0 + j)) = []) :
    ∀ s ∈ sources modules, env.message s = [] := by
  intro s hs
  rcases List.mem_cons.mp hs with rfl | hmodule
  · exact hsystem
  · obtain ⟨handle, hhandle, rfl⟩ := List.mem_map.mp hmodule
    obtain ⟨j, hj, rfl⟩ := List.getElem_of_mem hhandle
    have hentry := h j hj
    rwa [Nat.zero_add, entry_eq_getElem hj] at hentry

/-- One handle that was never stored is used, and no source has a message. -/
lemma not_looksUp_of_beyond {r : HresultProperty} (hlong : N_MAX_MODULES < modules.length)
    (hused : N_MAX_MODULES ∈ r.indices) (hnone : ∀ s ∈ sources modules, env.message s = []) :
    ¬ LooksUp env modules r ∧ ¬ SourceKnown env modules := by
  refine ⟨fun h => ?_, ?_⟩
  · have hlt := h.stored _ hused
    rw [Nat.min_eq_right hlong.le] at hlt
    exact absurd hlt (Nat.lt_irrefl _)
  · rintro (⟨s, hs, hne⟩ | ⟨hle, -⟩)
    · exact hne (hnone s hs)
    · exact absurd hlong (not_lt.mpr hle)

/-- It is enough to know one source that is the first with a message. -/
lemma looksUp_of_first {r : HresultProperty} {before behind : List MessageSource}
    {s : MessageSource} (hsources : sources modules = before ++ s :: behind)
    (hbefore : ∀ s' ∈ before, env.message s' = []) (hmessage : env.message s ≠ [])
    (hstored : ∀ i ∈ r.indices, i < min modules.length N_MAX_MODULES)
    (hqueried : r.queried = before ++ [s])
    (hbuffer : ∃ buffer, r.buffer = some buffer ∧ HoldsText buffer (env.message s)) :
    LooksUp env modules r where
  stored := hstored
  found before' s' behind' hsources' hbefore' hmessage' := by
    have hsplit := hsources.symm.trans hsources'
    rcases List.append_eq_append_iff.mp hsplit with ⟨middle, rfl, hmiddle⟩ | ⟨middle, rfl, hmiddle⟩
    · cases middle with
      | nil =>
        obtain ⟨rfl, -⟩ := List.cons.inj hmiddle
        rw [List.append_nil]
        exact ⟨hqueried, hbuffer⟩
      | cons e middle =>
        obtain ⟨rfl, -⟩ := List.cons.inj hmiddle
        exact absurd (hbefore' s (List.mem_append_right _ List.mem_cons_self)) hmessage
    · -- one stands before the other, but the first with a message is unique
      cases middle with
      | nil =>
        obtain ⟨rfl, -⟩ := List.cons.inj hmiddle
        rw [List.append_nil] at hqueried
        exact ⟨hqueried, hbuffer⟩
      | cons e middle =>
        obtain ⟨rfl, -⟩ := List.cons.inj hmiddle
        exact absurd (hbefore s' (List.mem_append_right _ List.mem_cons_self)) hmessage'
  unknown hnone := by
    refine absurd (hnone s ?_) hmessage
    rw [hsources]
    exact List.mem_append_right _ List.mem_cons_self

/-- The loop ended at a handle that was stored. -/
lemma looksUp_of_entry {r : HresultProperty} {k : ℕ} (hsystem : env.message .system = [])
    (hk : k < (modules.take N_MAX_MODULES).length)
    (hbefore : ∀ j < k, env.message (env.entry (modules.take N_MAX_MODULES) (0 + j)) = [])
    (hmessage : env.message (env.entry (modules.take N_MAX_MODULES) k) ≠ [])
    (hindices : r.indices = List.range' 0 (k + 1))
    (hqueried : r.queried =
      .system :: (List.range' 0 (k + 1)).map (env.entry (modules.take N_MAX_MODULES)))
    (hbuffer : ∃ buffer, r.buffer = some buffer ∧
      HoldsText buffer (env.message (env.entry (modules.take N_MAX_MODULES) k))) :
    LooksUp env modules r ∧ SourceKnown env modules := by
  rw [entry_eq_getElem hk] at hmessage hbuffer
  have hsources : sources modules =
      (.system :: ((modules.take N_MAX_MODULES).take k).map .module) ++
        .module (modules.take N_MAX_MODULES)[k] ::
          ((modules.take N_MAX_MODULES).drop (k + 1)).map .module := by
    conv_lhs => rw [sources, ← List.take_append_drop k (modules.take N_MAX_MODULES),
      List.drop_eq_getElem_cons hk]
    simp only [List.map_append, List.map_cons, List.cons_append]
  have hmem : .module (modules.take N_MAX_MODULES)[k] ∈ sources modules := by
    rw [hsources]
    exact List.mem_append_right _ List.mem_cons_self
  refine ⟨looksUp_of_first hsources ?_ hmessage ?_ ?_ hbuffer, Or.inl ⟨_, hmem, hmessage⟩⟩
  · intro s' hs'
    rcases List.mem_cons.mp hs' with rfl | hmodule
    · exact hsystem
    · have hentries : (List.range' 0 k).map (env.entry (modules.take N_MAX_MODULES)) = _ :=
        map_entry_range' hk.le
      rw [← hentries] at hmodule
      obtain ⟨j, hj, rfl⟩ := List.mem_map.mp hmodule
      have hlt := (List.mem_range'_1.mp hj).2
      have hentry := hbefore j (by omega)
      rwa [Nat.zero_add] at hentry
  · intro i hi
    rw [hindices] at hi
    have hlt := (List.mem_range'_1.mp hi).2
    rw [List.length_take] at hk
    omega
  · rw [hqueried, map_entry_range' hk, List.take_succ_eq_append_getElem hk, List.map_append]
    rfl

/-- The loop went past all handles that were stored. -/
lemma looksUp_iff_of_none {r : HresultProperty} (hnone : ∀ s ∈ sources modules, env.message s = [])
    (hindices : r.indices = List.range' 0 modules.length) {buffer : List UInt8}
    (hlength : MESSAGE_BUFFER_SIZE ≤ buffer.length)
    (hbuffer : r.buffer = some (env.print env.unknownText buffer)) :
    LooksUp env modules r ↔ SourceKnown env modules := by
  by_cases hlong : N_MAX_MODULES < modules.length
  · -- the loop reads behind the 100 handles that were stored
    have hused : N_MAX_MODULES ∈ r.indices := by
      rw [hindices, List.mem_range'_1]
      omega
    have hnot := not_looksUp_of_beyond hlong hused hnone
    exact iff_of_false hnot.1 hnot.2
  · -- every source was asked, so the text of the unknown code is printed
    have hle := not_lt.mp hlong
    have hholds := holdsText_print_iff env hlength
    constructor
    · intro h
      obtain ⟨buffer', hbuffer', htext⟩ := h.unknown hnone
      obtain rfl := Option.some.inj (hbuffer.symm.trans hbuffer')
      exact Or.inr ⟨hle, hholds.mp htext⟩
    · rintro (⟨s, hs, hne⟩ | ⟨-, hsnprintf⟩)
      · exact absurd (hnone s hs) hne
      · refine ⟨fun i hi => ?_, fun before s behind hsources hbefore hne => ?_, fun _ =>
          ⟨_, hbuffer, hholds.mpr hsnprintf⟩⟩
        · rw [hindices] at hi
          rw [Nat.min_eq_left hle, ← Nat.zero_add modules.length]
          exact (List.mem_range'_1.mp hi).2
        · refine absurd (hnone s ?_) hne
          rw [hsources]
          exact List.mem_append_right _ List.mem_cons_self

/-- The function looks up the message as it should exactly if some source knows it, or there are no
more modules than handles can be stored. -/
theorem looksUp_iff (env : HresultEnv) (modules : List ℕ) {enumModulesUsedBytes : UInt32}
    (henum : env.enumProcessModules = some (modules.take N_MAX_MODULES, enumModulesUsedBytes))
    (hsize : 0 < env.sizeofHmodule)
    (hbytes : enumModulesUsedBytes.toNat = modules.length * env.sizeofHmodule) {mem : List UInt8}
    (hmem : MESSAGE_BUFFER_SIZE ≤ mem.length) :
    ∃ r, logHresultFillProperty env (some mem) = some r ∧
      (LooksUp env modules r ↔ SourceKnown env modules) := by
  obtain ⟨t, ht, hlength, hresult, hholds⟩ := (env.formatMessageA .system).exists_trimmed hmem
  have hcount : enumModulesUsedBytes.toNat / env.sizeofHmodule = modules.length := by
    rw [hbytes, Nat.mul_div_cancel _ hsize]
  rw [logHresultFillProperty]
  simp only [ht, Option.bind_some, henum, hcount]
  by_cases hfound : t.result ≠ 0
  · -- the system knows the code: no module is asked
    have hmessage : env.message .system ≠ [] := hresult.mp hfound
    rw [if_pos hfound]
    refine ⟨_, rfl, iff_of_true ?_ (Or.inl ⟨.system, List.mem_cons_self, hmessage⟩)⟩
    have hsources : sources modules = [] ++ sources modules := rfl
    exact looksUp_of_first hsources (fun s' hs' => absurd hs' List.not_mem_nil) hmessage
      (fun i hi => absurd hi List.not_mem_nil) rfl ⟨_, rfl, hholds hmessage⟩
  · have hsystem : env.message .system = [] := by
      by_contra hne
      exact hfound (hresult.mpr hne)
    have hstored : (modules.take N_MAX_MODULES).length = min modules.length N_MAX_MODULES := by
      rw [List.length_take, Nat.min_comm]
    obtain ⟨last, buffer, used, hloop, hbuffer, hcases⟩ := exists_lookUpModules env
      (modules.take N_MAX_MODULES) modules.length 0 t.buffer (hlength.symm ▸ hmem)
    rw [if_neg hfound, hloop, Option.map_some]
    refine ⟨_, rfl, ?_⟩
    rcases hcases with ⟨k, hk, hbefore, hmessage, rfl, rfl, htext⟩ | ⟨hnone, rfl, rfl⟩
    · rw [Nat.zero_add] at hmessage htext
      by_cases hin : k < (modules.take N_MAX_MODULES).length
      · -- a module among the first hundred has the message
        have hlast : 0 + k ≠ modules.length := by omega
        simp only [if_neg hlast]
        refine (fun h => iff_of_true h.1 h.2) (looksUp_of_entry hsystem hin hbefore hmessage ?_ ?_ ?_)
        · rfl
        · rfl
        · exact ⟨buffer, rfl, htext⟩
      · -- a handle that was never stored has a message
        rw [hstored] at hin
        have hnone := sources_unknown hsystem fun j hj => hbefore j (by omega)
        have hused : N_MAX_MODULES ∈ List.range' 0 (k + 1) := by
          rw [List.mem_range'_1]
          omega
        refine (fun h => iff_of_false h.1 h.2) (not_looksUp_of_beyond (by omega) ?_ hnone)
        exact hused
    · have hsources := sources_unknown hsystem fun j hj => hnone j (by omega)
      have hroom : MESSAGE_BUFFER_SIZE ≤ buffer.length := by
        rw [hbuffer, hlength]
        exact hmem
      refine looksUp_iff_of_none hsources rfl hroom ?_
      simp only [Nat.zero_add, if_true]

end

/-- No source has a message. -/
def noMessage : Lookup := ⟨0, [], by decide, fun h => absurd rfl h⟩

/-- A process with some modules, and a code that none of them knows. -/
def unknownCode (handles : List ℕ) (enumModulesUsedBytes : UInt32) : HresultEnv where
  hresult            := 0x80004005
  formatMessageA _   := noMessage
  enumProcessModules := some (handles, enumModulesUsedBytes)
  garbage _          := 0
  sizeofHmodule      := 8
  lastError          := 0
  snprintf           := none

/-- Three modules, of which the second has a message. -/
def knownCode : HresultEnv where
  hresult            := 0x80004005
  formatMessageA s   :=
    if s = .module 8 then ⟨6, ascii "oops" ++ [13, 10, 0], by decide, fun _ => by decide⟩
    else noMessage
  enumProcessModules := some ([7, 8, 9], 24)
  garbage _          := 0
  sizeofHmodule      := 8
  lastError          := 0
  snprintf           := none

/-- The third module is not asked. -/
theorem looksUp_iff_sample : ∃ r,
    logHresultFillProperty knownCode (some (List.replicate 512 0)) = some r ∧
      LooksUp knownCode [7, 8, 9] r ∧ r.queried = [.system, .module 7, .module 8] ∧
        ∃ buffer, r.buffer = some buffer ∧ HoldsText buffer (ascii "oops") := by
  have hmem : MESSAGE_BUFFER_SIZE ≤ (List.replicate 512 (0 : UInt8)).length := by
    rw [List.length_replicate, MESSAGE_BUFFER_SIZE]
  have hmessage : knownCode.message (.module 8) = ascii "oops" := by decide
  have hne : knownCode.message (.module 8) ≠ [] := by decide
  obtain ⟨r, hr, hiff⟩ := looksUp_iff knownCode [7, 8, 9] rfl (by decide) rfl hmem
  have hlooks : LooksUp knownCode [7, 8, 9] r := hiff.mpr (Or.inl ⟨.module 8, by decide, hne⟩)
  obtain ⟨hqueried, hbuffer⟩ :=
    hlooks.found [.system, .module 7] (.module 8) [.module 9] rfl (by decide) hne
  exact ⟨r, hr, hlooks, hqueried, hmessage ▸ hbuffer⟩

/-- With 101 modules a handle behind the array is used. -/
theorem not_looksUp_manyModules : ∃ r,
    logHresultFillProperty (unknownCode ((List.range' 1 101).take N_MAX_MODULES) 808)
      (some (List.replicate 512 0)) = some r ∧
    ¬ LooksUp (unknownCode ((List.range' 1 101).take N_MAX_MODULES) 808) (List.range' 1 101) r := by
  have hmem : MESSAGE_BUFFER_SIZE ≤ (List.replicate 512 (0 : UInt8)).length := by
    rw [List.length_replicate, MESSAGE_BUFFER_SIZE]
  obtain ⟨t, ht, hlength, hresult, -⟩ := noMessage.exists_trimmed hmem
  have hzero : ¬ t.result ≠ 0 := fun h => hresult.mp h rfl
  generalize (List.range' 1 101).take N_MAX_MODULES = handles
  obtain ⟨last, buffer, used, hloop, -, hcases⟩ :=
    exists_lookUpModules (unknownCode handles 808) handles 101 0 t.buffer (hlength.symm ▸ hmem)
  have hcount : (808 : UInt32).toNat / 8 = 101 := rfl
  rw [logHresultFillProperty]
  simp only [unknownCode] at hloop ⊢
  simp only [ht, Option.bind_some, if_neg hzero, hcount, hloop, Option.map_some]
  refine ⟨_, rfl, fun h => ?_⟩
  rcases hcases with ⟨k, -, -, hmessage, -⟩ | ⟨-, -, rfl⟩
  · exact hmessage rfl
  · have hlt := h.stored 100 (List.mem_range'_1.mpr (by decide))
    rw [List.length_range'] at hlt
    exact absurd hlt (by decide)

end CLogging

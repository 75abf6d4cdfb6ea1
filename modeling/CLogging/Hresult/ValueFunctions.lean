import CLogging.Hresult.FillProperty
import CLogging.Context.Layout

/-!
# The value functions for errors

`LOG_ERRNO`, `LOG_LASTERROR` and `LOG_HRESULT` reserve 512 bytes for the message of the system. If
there is none, the value functions store a text of their own.
-/

namespace CLogging

open C Memory Printf

/-- What `strerror_r` or `strerror_s` does with a buffer of `MESSAGE_BUFFER_SIZE` bytes. If it
succeeds, there is a terminator in what it stores. -/
structure Strerror where
  succeeded  : Bool
  stored     : List UInt8
  bounded    : stored.length ≤ MESSAGE_BUFFER_SIZE
  terminated : succeeded = true → 0 ∈ stored

/-- `log_errno_fill_property`, with the text for the case that there is no message: what it returns,
and the buffer. -/
def fillFromStrerror (failureMessage : CString) (call : Strerror) :
    Option (List UInt8) → ℕ × Option (List UInt8)
  | none     => (MESSAGE_BUFFER_SIZE, none)
  | some mem =>
    let buffer := (Write.mk 0 call.stored).apply mem
    (MESSAGE_BUFFER_SIZE,
      some (if call.succeeded then buffer
        else (Write.mk 0 failureMessage.terminated).apply buffer))

def strerrorRFailureMessage : CString := ⟨ascii "failure in strerror_r", by decide⟩

def strerrorSFailureMessage : CString := ⟨ascii "failure in strerror_s", by decide⟩

/-- `log_errno_fill_property` in `log_errno_linux.c`. -/
def logErrnoFillPropertyLinux : Strerror → Option (List UInt8) → ℕ × Option (List UInt8) :=
  fillFromStrerror strerrorRFailureMessage

/-- `log_errno_fill_property` in `log_errno_win32.c`. -/
def logErrnoFillPropertyWin32 : Strerror → Option (List UInt8) → ℕ × Option (List UInt8) :=
  fillFromStrerror strerrorSFailureMessage

def formatMessageAFailureMessage : CString := ⟨ascii "failure in FormatMessageA", by decide⟩

/-- `log_lasterror_fill_property`. `none` where it leaves the buffer. -/
def logLasterrorFillProperty (l : Lookup) :
    Option (List UInt8) → Option (ℕ × Option (List UInt8))
  | none     => some (MESSAGE_BUFFER_SIZE, none)
  | some mem =>
    (formatMessageANoNewline (l.call mem)).map fun t =>
      (MESSAGE_BUFFER_SIZE,
        some (if t.result = 0 then
            (Write.mk 0 formatMessageAFailureMessage.terminated).apply t.buffer
          else t.buffer))

/-! ### The macros -/

/-- `LOG_ERRNO`, `LOG_LASTERROR` and `LOG_HRESULT`, with what the system does. -/
inductive ErrorProperty where
  | logErrnoLinux (call : Strerror)
  | logErrnoWin32 (call : Strerror)
  | logLasterror (l : Lookup)
  | logHresult (env : HresultEnv)

/-- The name of the property. -/
def ErrorProperty.name : ErrorProperty → CString
  | .logErrnoLinux _ => ⟨ascii "errno_value", by decide⟩
  | .logErrnoWin32 _ => ⟨ascii "errno_value", by decide⟩
  | .logLasterror _  => ⟨ascii "LastError", by decide⟩
  | .logHresult _    => ⟨ascii "hresult", by decide⟩

/-- The value function: what it returns, and the buffer. -/
def ErrorProperty.fill (p : ErrorProperty) (buffer : Option (List UInt8)) :
    Option (ℕ × Option (List UInt8)) :=
  match p with
  | .logErrnoLinux call => some (logErrnoFillPropertyLinux call buffer)
  | .logErrnoWin32 call => some (logErrnoFillPropertyWin32 call buffer)
  | .logLasterror l     => logLasterrorFillProperty l buffer
  | .logHresult env     => (logHresultFillProperty env buffer).map fun r => (r.returned, r.buffer)

/-! ### The texts -/

/-- The message of the system if there is one, and a text otherwise. -/
def messageOr (message : List UInt8) (failureMessage : CString) : List UInt8 :=
  if message = [] then failureMessage.bytes else message

/-- What is left of a text in the buffer. -/
def HresultEnv.printed (env : HresultEnv) (text : CString) : List UInt8 :=
  match env.snprintf with
  | none   => text.bytes.take (MESSAGE_BUFFER_SIZE - 1)
  | some _ => snprintfFailureMessage.bytes

/-- The message of the first source that has one, and otherwise a text with the code. -/
def HresultEnv.text (env : HresultEnv) : List UInt8 :=
  if env.message .system ≠ [] then env.message .system
  else
    match env.enumProcessModules with
    | none                                 => env.printed env.enumFailedText
    | some (handles, enumModulesUsedBytes) =>
      let messages := (List.range (enumModulesUsedBytes.toNat / env.sizeofHmodule)).map fun i =>
        env.message (env.entry handles i)
      (messages.find? (· ≠ [])).getD (env.printed env.unknownText)

/-- The text a value function is meant to store. -/
def ErrorProperty.text : ErrorProperty → List UInt8
  | .logErrnoLinux call =>
    if call.succeeded then cstr call.stored else strerrorRFailureMessage.bytes
  | .logErrnoWin32 call =>
    if call.succeeded then cstr call.stored else strerrorSFailureMessage.bytes
  | .logLasterror l     => cstr (messageOr l.message formatMessageAFailureMessage)
  | .logHresult env     => cstr env.text

/-! ### The bytes behind the text -/

/-- Only the first `MESSAGE_BUFFER_SIZE` bytes change. -/
structure Kept (mem buffer : List UInt8) : Prop where
  length_eq : buffer.length = mem.length
  drop_eq   : buffer.drop MESSAGE_BUFFER_SIZE = mem.drop MESSAGE_BUFFER_SIZE

lemma Kept.refl (mem : List UInt8) : Kept mem mem := ⟨rfl, rfl⟩

lemma Kept.trans {mem buffer buffer' : List UInt8} (h : Kept mem buffer) (h' : Kept buffer buffer') :
    Kept mem buffer' :=
  ⟨h'.length_eq.trans h.length_eq, h'.drop_eq.trans h.drop_eq⟩

lemma kept_apply (mem : List UInt8) {n : ℕ} {cells : List UInt8}
    (h : n + cells.length ≤ MESSAGE_BUFFER_SIZE) : Kept mem ((Write.mk (n : ℤ) cells).apply mem) := by
  refine ⟨Write.length_apply _ _, List.ext_getElem? fun i => ?_⟩
  rw [List.getElem?_drop, List.getElem?_drop, Write.apply_getElem?_of_not_covers]
  simp only [Write.Covers]
  omega

lemma kept_apply_zero (mem : List UInt8) {cells : List UInt8}
    (h : cells.length ≤ MESSAGE_BUFFER_SIZE) : Kept mem ((Write.mk 0 cells).apply mem) := by
  have hkept := kept_apply mem (n := 0) (by rwa [Nat.zero_add])
  rwa [Nat.cast_zero] at hkept

/-- Trimming a message stores its terminator in the part of the buffer that was filled. -/
lemma Lookup.kept (l : Lookup) {buffer : List UInt8} (hbuffer : MESSAGE_BUFFER_SIZE ≤ buffer.length)
    {t : Trimmed} (h : formatMessageANoNewline (l.call buffer) = some t) : Kept buffer t.buffer := by
  have hcall : Kept buffer (l.call buffer).buffer := kept_apply_zero buffer l.bounded
  by_cases hresult : l.result = 0
  · rw [formatMessageANoNewline, if_pos (show (l.call buffer).result = 0 from hresult)] at h
    obtain rfl := Option.some.inj h
    exact hcall
  · have hcounted := l.counted hresult
    have hbounded := l.bounded
    have hresult' : (l.call buffer).result = l.result := rfl
    have hfit : (l.call buffer).result.toNat < (l.call buffer).buffer.length := by
      rw [hcall.length_eq, hresult']
      omega
    obtain ⟨reads, -, heq⟩ := formatMessageANoNewline_eq (m := l.call buffer) hresult hfit
    obtain rfl := Option.some.inj (heq.symm.trans h)
    have hlength := (l.call buffer).length_message_le
    rw [hresult'] at hlength
    refine hcall.trans (kept_apply _ ?_)
    rw [List.length_singleton]
    omega

lemma lookUpModules_kept (env : HresultEnv) {handles : List ℕ} {n iModule last : ℕ}
    {buffer buffer' : List UInt8} {used : List ℕ} (hbuffer : MESSAGE_BUFFER_SIZE ≤ buffer.length)
    (h : lookUpModules env handles n iModule buffer = some (last, buffer', used)) :
    Kept buffer buffer' := by
  induction n generalizing iModule buffer last used with
  | zero =>
    obtain ⟨-, heq⟩ := Prod.mk.inj (Option.some.inj h)
    obtain ⟨rfl, -⟩ := Prod.mk.inj heq
    exact .refl buffer
  | succ n ih =>
    obtain ⟨t, ht, hrest⟩ := Option.bind_eq_some_iff.mp h
    have hkept := Lookup.kept _ hbuffer ht
    split_ifs at hrest
    · obtain ⟨-, heq⟩ := Prod.mk.inj (Option.some.inj hrest)
      obtain ⟨rfl, -⟩ := Prod.mk.inj heq
      exact hkept
    · obtain ⟨⟨last', buffer'', used'⟩, hloop, heq⟩ := Option.map_eq_some_iff.mp hrest
      simp only [Prod.mk.injEq] at heq
      obtain ⟨-, rfl, -⟩ := heq
      exact hkept.trans (ih (hkept.length_eq ▸ hbuffer) hloop)

/-! ### The text in the buffer -/

/-- The C string in the buffer is the text, which is terminated in the part that was reserved, and
no byte behind it changes. -/
structure FillsText (mem text buffer : List UInt8) : Prop where
  kept    : Kept mem buffer
  cstr_eq : cstr buffer = text
  short   : text.length < MESSAGE_BUFFER_SIZE

lemma cstr_append_of_mem {s : List UInt8} (h : 0 ∈ s) (rest : List UInt8) :
    cstr (s ++ rest) = cstr s := by
  obtain ⟨a, b, rfl⟩ := List.append_of_mem h
  rw [List.append_assoc, List.cons_append, cstr_append_zero_cons, cstr_append_zero_cons]

lemma length_cstr_le (s : List UInt8) : (cstr s).length ≤ s.length :=
  (List.takeWhile_prefix _).length_le

lemma length_cstr_lt {s : List UInt8} (h : 0 ∈ s) : (cstr s).length < s.length := by
  obtain ⟨a, b, rfl⟩ := List.append_of_mem h
  have hle := length_cstr_le a
  rw [cstr_append_zero_cons, List.length_append, List.length_cons]
  omega

/-- What is stored at the start of the buffer, with a terminator. -/
lemma fillsText_apply {mem buffer cells : List UInt8} (hmem : MESSAGE_BUFFER_SIZE ≤ mem.length)
    (hkept : Kept mem buffer) (hlength : cells.length ≤ MESSAGE_BUFFER_SIZE) (hzero : 0 ∈ cells) :
    FillsText mem (cstr cells) ((Write.mk 0 cells).apply buffer) := by
  have hfit : 0 + cells.length ≤ buffer.length := by
    rw [Nat.zero_add, hkept.length_eq]
    exact hlength.trans hmem
  have happly := Write.apply_eq_append 0 cells buffer hfit
  rw [List.take_zero, List.nil_append, Nat.cast_zero] at happly
  refine ⟨hkept.trans (kept_apply_zero buffer hlength), ?_, (length_cstr_lt hzero).trans_le hlength⟩
  rw [happly, cstr_append_of_mem hzero]

lemma fillsText_terminated {mem buffer : List UInt8} (hmem : MESSAGE_BUFFER_SIZE ≤ mem.length)
    (hkept : Kept mem buffer) {text : CString} (hlength : text.bytes.length < MESSAGE_BUFFER_SIZE) :
    FillsText mem text.bytes ((Write.mk 0 text.terminated).apply buffer) := by
  have hfit : text.terminated.length ≤ MESSAGE_BUFFER_SIZE := by
    rw [text.length_terminated]
    exact hlength
  have hzero : 0 ∈ text.terminated := List.mem_append_right _ List.mem_cons_self
  have hfills := fillsText_apply hmem hkept hfit hzero
  have hcstr : cstr text.terminated = text.bytes := cstr_append_zero _ _ text.noNul
  rwa [hcstr] at hfills

/-- A lookup that finds a message. -/
lemma fillsText_message {l : Lookup} {mem buffer : List UInt8} (hkept : Kept mem buffer)
    (hmessage : l.message ≠ []) (hholds : HoldsText buffer l.message) :
    FillsText mem (cstr l.message) buffer := by
  obtain ⟨rest, hrest⟩ := hholds
  refine ⟨hkept, ?_, ?_⟩
  · rw [hrest, cstr_append_zero_cons]
  · have hresult : l.result ≠ 0 := fun h => hmessage (Lookup.message_eq_nil h)
    have hcounted := l.counted hresult
    have hbounded := l.bounded
    have hprefix : l.message.length ≤ l.result.toNat :=
      (List.rdropWhile_prefix _ _).length_le.trans (List.length_take_le _ _)
    have hle := length_cstr_le l.message
    omega

lemma fillFromStrerror_fills {failureMessage : CString}
    (hfailure : failureMessage.bytes.length < MESSAGE_BUFFER_SIZE) (call : Strerror)
    {mem : List UInt8} (hmem : MESSAGE_BUFFER_SIZE ≤ mem.length) :
    ∃ buffer, fillFromStrerror failureMessage call (some mem) =
        (MESSAGE_BUFFER_SIZE, some buffer) ∧
      FillsText mem (if call.succeeded then cstr call.stored else failureMessage.bytes) buffer := by
  refine ⟨_, rfl, ?_⟩
  by_cases hsucceeded : call.succeeded = true
  · rw [if_pos hsucceeded, if_pos hsucceeded]
    exact fillsText_apply hmem (.refl mem) call.bounded (call.terminated hsucceeded)
  · rw [if_neg hsucceeded, if_neg hsucceeded]
    exact fillsText_terminated hmem (kept_apply_zero mem call.bounded) hfailure

lemma logLasterrorFillProperty_fills (l : Lookup) {mem : List UInt8}
    (hmem : MESSAGE_BUFFER_SIZE ≤ mem.length) :
    ∃ buffer, logLasterrorFillProperty l (some mem) = some (MESSAGE_BUFFER_SIZE, some buffer) ∧
      FillsText mem (cstr (messageOr l.message formatMessageAFailureMessage)) buffer := by
  obtain ⟨t, ht, -, hresult, hholds⟩ := l.exists_trimmed hmem
  have hkept := l.kept hmem ht
  rw [logLasterrorFillProperty, ht, Option.map_some]
  refine ⟨_, rfl, ?_⟩
  by_cases hmessage : l.message = []
  · have hzero : t.result = 0 := by
      by_contra hne
      exact hresult.mp hne hmessage
    rw [messageOr, if_pos hmessage, if_pos hzero, cstr_eq_self formatMessageAFailureMessage.noNul]
    exact fillsText_terminated hmem hkept (by decide)
  · rw [messageOr, if_neg hmessage, if_neg (hresult.mpr hmessage)]
    exact fillsText_message hkept hmessage (hholds hmessage)

/-- What is printed into the buffer, whatever it holds already. -/
lemma HresultEnv.print_fills (env : HresultEnv) (text : CString) {mem buffer : List UInt8}
    (hmem : MESSAGE_BUFFER_SIZE ≤ mem.length) (hkept : Kept mem buffer) :
    FillsText mem (cstr (env.printed text)) (env.print text buffer) := by
  rw [print, printed]
  cases hsnprintf : env.snprintf with
  | none =>
    have hstored : stored text.bytes MESSAGE_BUFFER_SIZE =
        text.bytes.take (MESSAGE_BUFFER_SIZE - 1) ++ [0] := if_neg (by decide)
    have hlength : (stored text.bytes MESSAGE_BUFFER_SIZE).length ≤ MESSAGE_BUFFER_SIZE := by
      have hle := List.length_take_le (MESSAGE_BUFFER_SIZE - 1) text.bytes
      rw [hstored, List.length_append, List.length_singleton]
      exact Nat.add_le_of_le_sub (by decide) hle
    have hzero : 0 ∈ stored text.bytes MESSAGE_BUFFER_SIZE := by
      rw [hstored]
      exact List.mem_append_right _ List.mem_cons_self
    have hfills := fillsText_apply hmem hkept hlength hzero
    have hprinted : ¬ (Printf.snprintf text.bytes MESSAGE_BUFFER_SIZE).1 < 0 :=
      not_lt.mpr (Int.natCast_nonneg _)
    rw [if_neg hprinted]
    rwa [hstored, cstr_append_zero_cons, ← hstored] at hfills
  | some failure =>
    have hfirst : Kept mem ((Write.mk 0 (failure.text.take MESSAGE_BUFFER_SIZE)).apply buffer) :=
      hkept.trans (kept_apply_zero buffer (List.length_take_le _ _))
    simp only [if_pos failure.negative, cstr_eq_self snprintfFailureMessage.noNul]
    exact fillsText_terminated hmem hfirst (by decide)

/-- The first of some messages that is not empty. -/
lemma find?_messages {f : ℕ → List UInt8} {n k : ℕ} (hk : k < n) (hbefore : ∀ j < k, f j = [])
    (hfound : f k ≠ []) : ((List.range n).map f).find? (· ≠ []) = some (f k) := by
  obtain ⟨m, rfl⟩ := Nat.exists_eq_add_of_lt hk
  rw [Nat.add_assoc, List.range_add, List.map_append, List.find?_append,
    List.find?_eq_none.mpr, Option.none_or, Nat.add_comm m 1, List.range_add]
  · simp [hfound]
  · intro message hmessage
    obtain ⟨j, hj, rfl⟩ := List.mem_map.mp hmessage
    rw [hbefore j (List.mem_range.mp hj)]
    decide

lemma logHresultFillProperty_fills (env : HresultEnv) {mem : List UInt8}
    (hmem : MESSAGE_BUFFER_SIZE ≤ mem.length) :
    ∃ r buffer, logHresultFillProperty env (some mem) = some r ∧ r.returned = MESSAGE_BUFFER_SIZE ∧
      r.buffer = some buffer ∧ FillsText mem (cstr env.text) buffer := by
  obtain ⟨t, ht, -, hresult, hholds⟩ := (env.formatMessageA .system).exists_trimmed hmem
  have hkept := Lookup.kept _ hmem ht
  rw [logHresultFillProperty, HresultEnv.text]
  simp only [ht, Option.bind_some]
  by_cases hfound : t.result ≠ 0
  · have hmessage : env.message .system ≠ [] := hresult.mp hfound
    rw [if_pos hfound, if_pos hmessage]
    exact ⟨_, _, rfl, rfl, rfl, fillsText_message hkept hmessage (hholds hmessage)⟩
  have hsystem : ¬ env.message .system ≠ [] := fun hmessage => hfound (hresult.mpr hmessage)
  rw [if_neg hfound, if_neg hsystem]
  cases henum : env.enumProcessModules with
  | none => exact ⟨_, _, rfl, rfl, rfl, env.print_fills _ hmem hkept⟩
  | some modules =>
    obtain ⟨handles, enumModulesUsedBytes⟩ := modules
    simp only
    generalize enumModulesUsedBytes.toNat / env.sizeofHmodule = count
    have hbuffer : MESSAGE_BUFFER_SIZE ≤ t.buffer.length := hkept.length_eq ▸ hmem
    obtain ⟨last, buffer, used, hloop, -, hcases⟩ :=
      exists_lookUpModules env handles count 0 t.buffer hbuffer
    have hkept' := hkept.trans (lookUpModules_kept env hbuffer hloop)
    rw [hloop, Option.map_some]
    refine ⟨_, _, rfl, rfl, rfl, ?_⟩
    simp only [Nat.zero_add] at hcases
    rcases hcases with ⟨k, hk, hbefore, hmessage, rfl, -, htext⟩ | ⟨hnone, rfl, -⟩
    · -- the message of the first module that knows the code
      rw [if_neg hk.ne, find?_messages hk hbefore hmessage, Option.getD_some]
      exact fillsText_message hkept' hmessage htext
    · -- none does: the text that says so
      have hall : ((List.range last).map fun i => env.message (env.entry handles i)).find?
          (· ≠ []) = none := by
        rw [List.find?_eq_none]
        intro message hmem'
        obtain ⟨j, hj, rfl⟩ := List.mem_map.mp hmem'
        rw [hnone j (List.mem_range.mp hj)]
        decide
      rw [if_pos rfl, hall, Option.getD_none]
      exact env.print_fills _ hmem hkept'

/-- Whatever the system does, the buffer holds its message or another text. -/
lemma ErrorProperty.fills (p : ErrorProperty) {mem : List UInt8}
    (hmem : MESSAGE_BUFFER_SIZE ≤ mem.length) :
    ∃ buffer, p.fill (some mem) = some (MESSAGE_BUFFER_SIZE, some buffer) ∧
      FillsText mem p.text buffer := by
  cases p with
  | logErrnoLinux call =>
    have hfailure : strerrorRFailureMessage.bytes.length < MESSAGE_BUFFER_SIZE := by decide
    obtain ⟨buffer, hfill, htext⟩ := fillFromStrerror_fills hfailure call hmem
    exact ⟨buffer, congrArg some hfill, htext⟩
  | logErrnoWin32 call =>
    have hfailure : strerrorSFailureMessage.bytes.length < MESSAGE_BUFFER_SIZE := by decide
    obtain ⟨buffer, hfill, htext⟩ := fillFromStrerror_fills hfailure call hmem
    exact ⟨buffer, congrArg some hfill, htext⟩
  | logLasterror l => exact logLasterrorFillProperty_fills l hmem
  | logHresult env =>
    obtain ⟨r, buffer, hr, hreturned, hbuffer, htext⟩ := logHresultFillProperty_fills env hmem
    refine ⟨buffer, ?_, htext⟩
    rw [fill, hr, Option.map_some, hreturned, hbuffer]

lemma ErrorProperty.zero_notMem_text (p : ErrorProperty) : 0 ∉ p.text := by
  cases p with
  | logErrnoLinux call =>
    rw [text]
    split_ifs
    · exact zero_notMem_cstr _
    · exact strerrorRFailureMessage.noNul
  | logErrnoWin32 call =>
    rw [text]
    split_ifs
    · exact zero_notMem_cstr _
    · exact strerrorSFailureMessage.noNul
  | logLasterror l => exact zero_notMem_cstr _
  | logHresult env => exact zero_notMem_cstr _

/-! ### The properties -/

/-- What the first pass is told to reserve. -/
def ErrorProperty.reserved (p : ErrorProperty) : ℕ := ((p.fill none).map Prod.fst).getD 0

lemma ErrorProperty.reserved_eq (p : ErrorProperty) : p.reserved = MESSAGE_BUFFER_SIZE := by
  cases p <;> rfl

/-- The value function as the macros for a context call it, given what the memory holds behind the
place of the value. -/
def ErrorProperty.valueFunction (p : ErrorProperty) (mem : List UInt8) : ValueFunction where
  result  := p.reserved
  written := (((p.fill (some mem)).bind Prod.snd).getD []).take p.reserved
  fits    := by
    rw [Int.toNat_natCast]
    exact List.length_take_le _ _

lemma ErrorProperty.written_eq {p : ErrorProperty} {mem buffer : List UInt8}
    (h : p.fill (some mem) = some (MESSAGE_BUFFER_SIZE, some buffer)) :
    (p.valueFunction mem).written = buffer.take MESSAGE_BUFFER_SIZE := by
  have hbuffer : ((p.fill (some mem)).bind Prod.snd).getD [] = buffer := by
    rw [h]
    rfl
  rw [← hbuffer, ← p.reserved_eq]
  rfl

lemma ErrorProperty.stores (p : ErrorProperty) {mem : List UInt8}
    (hmem : MESSAGE_BUFFER_SIZE ≤ mem.length) :
    asciiCharPtr.Stores (p.valueFunction mem).written (p.text ++ [0]) := by
  obtain ⟨buffer, hfill, hkept, hcstr, hshort⟩ := p.fills hmem
  have hlength : MESSAGE_BUFFER_SIZE ≤ buffer.length := hkept.length_eq ▸ hmem
  have htext : cstr (buffer.take MESSAGE_BUFFER_SIZE) = p.text := by
    rw [cstr_take, hcstr, List.take_of_length_le hshort.le]
  have hzero : 0 ∈ buffer.take MESSAGE_BUFFER_SIZE := by
    by_contra hnot
    have hself := cstr_eq_self hnot
    rw [htext] at hself
    rw [hself, List.length_take_of_le hlength] at hshort
    exact absurd hshort (Nat.lt_irrefl _)
  rw [written_eq hfill]
  constructor
  · rw [List.length_append, List.length_singleton, List.length_take_of_le hlength]
    exact hshort
  · intro rest
    exact congrArg (fun text => some (text ++ [0])) ((cstr_append_of_mem hzero rest).trans htext)

/-- Both passes of a value function agree on the size of the value. Whatever the system does, this is
where the value function stores, and the value is its message or another text. -/
theorem errorProperty_passes_agree (p : ErrorProperty) {mem : List UInt8}
    (hmem : MESSAGE_BUFFER_SIZE ≤ mem.length) :
    p.fill none = some ((p.valueFunction mem).result.toNat, none) ∧
      p.fill (some mem) = some ((p.valueFunction mem).result.toNat,
        some ((p.valueFunction mem).written ++ mem.drop (p.valueFunction mem).result.toNat)) ∧
      asciiCharPtr.Stores (p.valueFunction mem).written (p.text ++ [0]) := by
  obtain ⟨buffer, hfill, hkept, -⟩ := p.fills hmem
  have hresult : (p.valueFunction mem).result.toNat = MESSAGE_BUFFER_SIZE := by
    rw [ErrorProperty.valueFunction, Int.toNat_natCast, p.reserved_eq]
  have hstores := p.stores hmem
  rw [ErrorProperty.written_eq hfill] at hstores ⊢
  rw [hresult, hfill, ← hkept.drop_eq, List.take_append_drop]
  refine ⟨?_, rfl, hstores⟩
  cases p <;> rfl

theorem errorProperty_passes_agree_sample : ∃ n buffer,
    (ErrorProperty.logHresult (unknownCode [7] 8)).fill none = some (n, none) ∧
    (ErrorProperty.logHresult (unknownCode [7] 8)).fill (some (List.replicate 600 3)) =
      some (n, some (buffer ++ List.replicate 88 3)) ∧
    asciiCharPtr.Stores buffer (ascii "unknown HRESULT 0x80004005" ++ [0]) := by
  have hmem : MESSAGE_BUFFER_SIZE ≤ (List.replicate 600 (3 : UInt8)).length := by
    rw [List.length_replicate]
    decide
  obtain ⟨hnone, hfill, hstores⟩ :=
    errorProperty_passes_agree (.logHresult (unknownCode [7] 8)) hmem
  have hresult : ((ErrorProperty.logHresult (unknownCode [7] 8)).valueFunction
      (List.replicate 600 3)).result.toNat = 512 := rfl
  rw [hresult, List.drop_replicate] at hfill
  have htext : (ErrorProperty.logHresult (unknownCode [7] 8)).text =
      ascii "unknown HRESULT 0x80004005" := by
    decide +kernel
  rw [htext] at hstores
  exact ⟨512, _, hnone, hfill, hstores⟩

end CLogging

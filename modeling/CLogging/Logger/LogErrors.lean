import CLogging.Hresult.ValueFunctions
import CLogging.Logger.LogEx

/-!
# Errors of the system in a message

`LOGGER_LOG_EX` with `LOG_ERRNO`, `LOG_LASTERROR` and `LOG_HRESULT`. Each of them takes 512 bytes,
and as no two properties of a context have the same name, there are at most three, which fit.
-/

namespace CLogging

open C Forest Machine Printf TraceLogging

lemma asciiCharPtr_ne_struct : asciiCharPtr.getType ≠ .struct := by decide

section

variable [Platform]

/-- The property among the arguments of `LOGGER_LOG_EX`, given what the memory holds behind its
place. -/
def ErrorProperty.exField (p : ErrorProperty) (mem : List UInt8) : ExField :=
  .logContextPropertyCustomFunction asciiCharPtr asciiCharPtr_ne_struct p.name (p.valueFunction mem)

/-- Properties for errors, and a message. -/
def errorFields (errors : List (ErrorProperty × List UInt8)) (message : FormattedMessage) :
    List ExField :=
  errors.map (fun e => e.1.exField e.2) ++ [.logMessage message]

/-- The properties in a line. -/
def errorsText (errors : List (ErrorProperty × List UInt8)) : List UInt8 :=
  ascii " \x7b" ++ errors.flatMap (fun e => 32 :: (e.1.name.bytes ++ 61 :: e.1.text)) ++
    ascii " \x7d"

/-- Which errors are logged: one of a name, with as much memory as is reserved. -/
structure LogsErrors (errors : List (ErrorProperty × List UInt8)) : Prop where
  ne_nil : errors ≠ []
  names  : (errors.map fun e => e.1.name.bytes).Nodup
  memory : ∀ e ∈ errors, MESSAGE_BUFFER_SIZE ≤ e.2.length

variable {errors : List (ErrorProperty × List UInt8)} {message : FormattedMessage}

omit [Platform] in
/-- There are three names. -/
lemma LogsErrors.length_le (h : LogsErrors errors) : errors.length ≤ 3 := by
  have hsubset : (errors.map fun e => e.1.name.bytes) ⊆
      [ascii "errno_value", ascii "LastError", ascii "hresult"] := by
    intro name hname
    obtain ⟨⟨p, mem⟩, -, rfl⟩ := List.mem_map.mp hname
    cases p with
    | logErrnoLinux _ => exact List.mem_cons_self
    | logErrnoWin32 _ => exact List.mem_cons_self
    | logLasterror _  => exact List.mem_cons_of_mem _ List.mem_cons_self
    | logHresult _    => exact List.mem_cons_of_mem _ (List.mem_cons_of_mem _ List.mem_cons_self)
  have hlength := (List.subperm_of_subset h.names hsubset).length_le
  rwa [List.length_map] at hlength

lemma map_desc_errorFields : (errorFields errors message).map ExField.desc =
    errors.map (fun e => (e.1.exField e.2).desc) ++ [.logMessage] := by
  rw [errorFields, List.map_append, List.map_map]
  rfl

lemma propertyCount_errorFields :
    propertyCount ((errorFields errors message).map ExField.desc) = errors.length := by
  have hcount : countProperty ∘ (fun e : ErrorProperty × List UInt8 => (e.1.exField e.2).desc) =
      fun _ => 1 := rfl
  rw [map_desc_errorFields, propertyCount, List.map_append, List.map_map, hcount, List.sum_append,
    List.map_const', List.sum_replicate, nsmul_one]
  rfl

lemma dataBytes_errorFields : dataBytes ((errorFields errors message).map ExField.desc) =
    errors.length * MESSAGE_BUFFER_SIZE := by
  have hbytes : countDataBytes ∘ (fun e : ErrorProperty × List UInt8 => (e.1.exField e.2).desc) =
      fun _ => (MESSAGE_BUFFER_SIZE : ℤ) := by
    funext e
    exact congrArg Nat.cast e.1.reserved_eq
  have hmessage : ([FieldDesc.logMessage].map countDataBytes).sum = 0 := rfl
  rw [map_desc_errorFields, dataBytes, List.map_append, List.map_map, hbytes, List.sum_append,
    hmessage, List.map_const', List.sum_replicate, nsmul_eq_mul, add_zero]

lemma LogsErrors.exFormats (h : LogsErrors errors) : ExFormats (errorFields errors message) where
  message   := by
    have hnone : (errors.map fun e => e.1.exField e.2).filterMap ExField.expandMessage = [] := by
      rw [List.filterMap_map, List.filterMap_eq_nil_iff]
      exact fun _ _ => rfl
    rw [errorFields, List.filterMap_append, hnone]
    exact le_refl 1
  formatted := by
    intro f hf
    rcases List.mem_append.mp hf with hf | hf
    · -- an error property: its two texts fit into the memory it asks for
      obtain ⟨e, he, rfl⟩ := List.mem_map.mp hf
      exact ⟨_, e.1.stores (h.memory e he)⟩
    · obtain rfl := List.mem_singleton.mp hf
      trivial
  total     := by
    have hle := h.length_le
    rw [dataBytes_errorFields, MESSAGE_BUFFER_SIZE]
    omega
  textual   := by
    intro f hf
    rcases List.mem_append.mp hf with hf | hf
    · obtain ⟨e, -, rfl⟩ := List.mem_map.mp hf
      exact ⟨.asciiCharPtr, rfl⟩
    · obtain rfl := List.mem_singleton.mp hf
      trivial

omit [Platform] in
lemma LogsErrors.hasAnyProperties (h : LogsErrors errors) :
    (errorFields errors message).any ExField.hasAnyProperties = true := by
  obtain ⟨e, es, rfl⟩ := List.exists_cons_of_ne_nil h.ne_nil
  rfl

/-- Only a long header keeps the properties from fitting. -/
lemma LogsErrors.exFits_iff (h : LogsErrors errors) (header : List UInt8) :
    ExFits header (errorFields errors message) ↔ header.length < LOG_MAX_MESSAGE_LENGTH := by
  have hle := h.length_le
  have hstack : FitsOnStack none ((errorFields errors message).map ExField.desc) := by
    rw [FitsOnStack, propertyCount_errorFields, dataBytes_errorFields]
    simp only [logContextGetPropertyValuePairCount, internalLogContextGetValuesDataLengthOrZero,
      LOG_MAX_STACK_PROPERTY_VALUE_PAIR_COUNT, LOG_MAX_STACK_DATA_SIZE, MESSAGE_BUFFER_SIZE]
    omega
  constructor
  · intro hfits
    exact (hfits h.hasAnyProperties).2
  · intro hheader _
    exact ⟨hstack, hheader⟩

lemma LogsErrors.suppliedLeaves_eq (h : LogsErrors errors) :
    suppliedLeaves ((errorFields errors message).map ExField.desc) =
      errors.map fun e => .leaf ⟨e.1.name, asciiCharPtr, e.1.text ++ [0]⟩ := by
  have hsupplied : supplied ((errorFields errors message).map ExField.desc) =
      errors.map fun e => (e.1.name, asciiCharPtr, e.1.text ++ [0]) := by
    rw [map_desc_errorFields, supplied, List.filterMap_append, List.filterMap_map]
    refine (List.append_nil _).trans ?_
    rw [← List.filterMap_eq_map]
    refine List.filterMap_congr fun e he => ?_
    have hvalue := storedValue_eq (e.1.stores (h.memory e he))
    simp only [Function.comp_apply, ErrorProperty.exField, ExField.desc, FieldDesc.supplied, hvalue]
  rw [suppliedLeaves, hsupplied, List.map_map]
  rfl

/-- The text of the properties. -/
lemma LogsErrors.labelsText_eq (h : LogsErrors errors) :
    labelsText (exTrees (errorFields errors message)) = errorsText errors := by
  have hleaf : ∀ p : ErrorProperty, Leaf.text ⟨p.name, asciiCharPtr, p.text ++ [0]⟩ = p.text := by
    intro p
    have hcstr : cstr (p.text ++ [0]) = p.text := cstr_append_zero _ _ p.zero_notMem_text
    exact (text_snprintf _).trans hcstr
  have hbrackets : ∀ es : List (ErrorProperty × List UInt8),
      spaced (brackets (leafLabels (es.map fun e =>
        .leaf ⟨e.1.name, asciiCharPtr, e.1.text ++ [0]⟩))) =
        es.flatMap fun e => 32 :: (e.1.name.bytes ++ 61 :: e.1.text) := by
    intro es
    induction es with
    | nil => simp [leafLabels, relabel, brackets, spaced]
    | cons e es ih =>
      rw [List.map_cons, List.flatMap_cons, ← ih]
      simp [leafLabels, relabel, brackets, spaced, LabelWord.text, hleaf]
  rw [exTrees, if_pos h.hasAnyProperties, h.suppliedLeaves_eq, errorsText, ← hbrackets]
  simp [labelsText, leafLabels, relabel, brackets, spaced, LabelWord.text, CString.empty, ascii]

/-- In every run, the callback that was set last gets as much of the texts for the errors and of the
message as the buffer holds, unless the header fills the line. -/
theorem loggerLogEx_errors [TlgIn] {β κ : Type*} {sinks : List (Sink β)} {mask : Option UInt64}
    {calls : List (LibraryCall β κ)} {env : ℕ → SinkLogEnv} {l : Library β κ}
    {outputs : List (LibraryOutput β κ)} {garbage : ℕ → UInt8} {level : LogLevel}
    {file func : CString} {line : ℤ} (h : LogsErrors errors)
    (henv : ∀ j site index, (env j).print site index = none)
    (hrun : run Library.step (.start sinks mask) (calls ++ [.loggerLog env
      (loggerLogEx garbage level file func line (errorFields errors message))]) =
        some (l, outputs)) :
    ∃ before o, ∃ cs : List CallbackCall, outputs = before ++ [o] ∧
      callbackEvents o.events = cs.map ((lastCallback calls, ·)) ∧
      cs.length = (if level.toNat ≤ (lastMaxLevel calls).toNat then
        (lastConfig sinks calls).countP Sink.isCallback else 0) ∧
      ∀ c ∈ cs, ∃ j header, header = headerText ((loggerLogEx garbage level file func line
          (errorFields errors message)).arguments (env j).time) ∧
        if header.length < LOG_MAX_MESSAGE_LENGTH then
          ∃ temp, c = ⟨level, .line temp⟩ ∧
            HoldsLine (header ++ errorsText errors ++ 32 :: message.text) temp
        else c = ⟨.critical, .literal errorString⟩ := by
  obtain ⟨before, o, cs, houtputs, hevents, hlength, hcs⟩ := exists_calls_loggerLogEx hrun
  refine ⟨before, o, cs, houtputs, hevents, hlength, fun c hc => ?_⟩
  obtain ⟨j, hlog⟩ := hcs c hc
  obtain ⟨hfits, hfitsNot⟩ := h.exFormats.delivers garbage (henv j) rfl hlog
  have hmessage : exMessage (errorFields errors message) = message := by
    have hnone : (errors.map fun e => e.1.exField e.2).findSome? ExField.expandMessage = none := by
      rw [List.findSome?_map, List.findSome?_eq_none_iff]
      exact fun _ _ => rfl
    rw [exMessage, errorFields, List.findSome?_append, hnone]
    rfl
  rw [h.labelsText_eq, hmessage] at hfits
  refine ⟨j, _, rfl, ?_⟩
  split_ifs with hheader
  · -- the header leaves room for a line
    exact hfits ((h.exFits_iff _).mpr hheader)
  · -- the header fills it: the error text of the sink is delivered
    exact hfitsNot fun hfits' => hheader ((h.exFits_iff _).mp hfits')

end

section

attribute [local instance] posix tlgIn

/-- A system without messages: `strerror_r` fails, and no module knows the code. -/
def sampleErrors : List (ErrorProperty × List UInt8) :=
  [(.logErrnoLinux ⟨false, [], Nat.zero_le _, fun h => absurd h Bool.false_ne_true⟩,
      List.replicate 512 0),
    (.logHresult (unknownCode [7] 8), List.replicate 512 0)]

lemma logsErrors_sample : LogsErrors sampleErrors where
  ne_nil := List.cons_ne_nil _ _
  names  := by decide
  memory := by
    intro e he
    simp only [sampleErrors, List.mem_cons, List.not_mem_nil, or_false] at he
    rcases he with rfl | rfl
    · rw [List.length_replicate, MESSAGE_BUFFER_SIZE]
    · rw [List.length_replicate, MESSAGE_BUFFER_SIZE]

/-- There are texts for both errors. -/
theorem loggerLogEx_errors_sample : ∃ (l : Library ℕ ℕ) (outputs before : _) (o : _)
    (c : CallbackCall) (temp : List UInt8),
    run Library.step (.start [.callback] none) ([.loggerInit sampleInitEnv,
      .setCallback (some 3) 4] ++ [.loggerLog (fun _ => ⟨fun _ _ => none, fun _ => 0, 0, none⟩)
        (loggerLogEx (fun _ => 0) .error .empty .empty 7
          (errorFields sampleErrors ⟨ascii "hello", none, none⟩))]) = some (l, outputs) ∧
    outputs = before ++ [o] ∧ callbackEvents o.events = [((some 3, 4), c)] ∧
    c = ⟨.error, .line temp⟩ ∧
    HoldsLine (ascii "Time:NULL File::7 Func: \x7b errno_value=failure in strerror_r" ++
      ascii " hresult=unknown HRESULT 0x80004005 \x7d hello") temp := by
  have hruns : (run Library.step (.start [.callback] none : Library ℕ ℕ)
      ([.loggerInit sampleInitEnv, .setCallback (some 3) 4] ++
        [.loggerLog (fun _ => ⟨fun _ _ => none, fun _ => 0, 0, none⟩)
          (loggerLogEx (fun _ => 0) .error .empty .empty 7
            (errorFields sampleErrors ⟨ascii "hello", none, none⟩))])).isSome := by
    decide +kernel
  obtain ⟨⟨l, outputs⟩, hrun⟩ := Option.isSome_iff_exists.mp hruns
  obtain ⟨before, o, cs, houtputs, hevents, hlength, hcs⟩ :=
    loggerLogEx_errors logsErrors_sample (fun _ _ _ => rfl) hrun
  obtain ⟨c, rfl⟩ := List.length_eq_one_iff.mp hlength
  obtain ⟨j, header, rfl, hline⟩ := hcs c (List.mem_singleton_self c)
  rw [if_pos (by decide)] at hline
  obtain ⟨temp, hc, hholds⟩ := hline
  refine ⟨l, outputs, before, o, c, temp, hrun, houtputs, hevents, hc, ?_⟩
  have htext : headerText ((loggerLogEx (fun _ => 0) .error .empty .empty 7
      (errorFields sampleErrors ⟨ascii "hello", none, none⟩)).arguments none) ++
        errorsText sampleErrors ++ 32 :: ascii "hello" =
      ascii "Time:NULL File::7 Func: \x7b errno_value=failure in strerror_r" ++
        ascii " hresult=unknown HRESULT 0x80004005 \x7d hello" := by
    decide +kernel
  rwa [htext] at hholds

end

end CLogging

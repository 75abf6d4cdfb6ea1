import CLogging.Etw.Sink
import CLogging.Sink.Line
import CLogging.ToString.Types

/-!
# What the sinks read of a context

The sinks use a pair only through its name, its type, and what printing it, counting its fields and
pointing to its value yields. Arrays that agree in that are logged alike.
-/

namespace CLogging

open C Memory Printf TraceLogging

section

variable [Platform]

/-- The sinks cannot tell the pairs apart. -/
structure SameReading (p q : PropertyView) : Prop where
  name_eq   : p.name = q.name
  type_eq   : p.type = q.type
  print_eq  : p.type.toString p.memory = q.type.toString q.memory
  headD_eq  : p.type.getType = .struct → p.memory.headD 0 = q.memory.headD 0
  create_eq : ∀ d, p.create d = q.create d

/-- Reading a value of the type from some bytes on, nothing behind them matters. -/
def LogContextPropertyTypeIf.ReadsOnly (type : LogContextPropertyTypeIf) (bytes : List UInt8) :
    Prop :=
  ∀ name rest rest', SameReading ⟨name, type, bytes ++ rest⟩ ⟨name, type, bytes ++ rest'⟩

/-! ### `log_n_properties` -/

lemma SameReading.calls_eq {p q : PropertyView} (h : SameReading p q) (index : ℕ) :
    p.openCall index = q.openCall index ∧ p.closeCall index = q.closeCall index ∧
      p.nameCall index = q.nameCall index ∧ p.valueCall index = q.valueCall index := by
  refine ⟨?_, rfl, ?_, ?_⟩
  · rw [PropertyView.openCall, PropertyView.openCall, h.name_eq]
  · rw [PropertyView.nameCall, PropertyView.nameCall, h.name_eq]
  · rw [PropertyView.valueCall, PropertyView.valueCall, h.print_eq]

lemma loop_congr (env : PrintEnv) (bound : ℕ) : ∀ (ps qs : List PropertyView)
    (count depth index : ℕ) (s : PrintState), ps.length ≤ bound → List.Forall₂ SameReading ps qs →
      logNPropertiesLoop env count depth ps index s =
        logNPropertiesLoop env count depth qs index s := by
  induction bound with
  | zero =>
    intro ps qs count depth index s hbound h
    obtain rfl := List.length_eq_zero_iff.mp (Nat.le_zero.mp hbound)
    obtain rfl := List.forall₂_nil_left_iff.mp h
    rfl
  | succ bound ih =>
    intro ps qs count depth index s hbound h
    cases h with
    | nil => rfl
    | @cons p q ps qs hp hps =>
      have hbound' : ps.length ≤ bound := Nat.le_of_succ_le_succ hbound
      have hloop : ∀ (n : ℕ) (count depth index : ℕ) (s : PrintState),
          logNPropertiesLoop env count depth (ps.drop n) index s =
            logNPropertiesLoop env count depth (qs.drop n) index s := by
        intro n count depth index s
        refine ih _ _ count depth index s ?_ (List.forall₂_drop n hps)
        exact (List.length_drop ▸ Nat.sub_le _ _).trans hbound'
      have hrest := hloop 0
      rw [List.drop_zero, List.drop_zero] at hrest
      obtain ⟨hopen, hclose, hname, hvalue⟩ := hp.calls_eq index
      rw [logNPropertiesLoop, logNPropertiesLoop]
      by_cases hstruct : p.type.getType = .struct
      · have hfields : p.fieldCount = q.fieldCount := by
          rw [PropertyView.fieldCount, PropertyView.fieldCount, hp.headD_eq hstruct]
        have hstruct' : q.type.getType = .struct := hp.type_eq ▸ hstruct
        simp only [if_pos hstruct, if_pos hstruct', hopen, hclose, hfields, hrest, hloop]
      · have hstruct' : ¬ q.type.getType = .struct := hp.type_eq ▸ hstruct
        simp only [if_neg hstruct, if_neg hstruct', hname, hvalue, hrest]

lemma toString_congr (env : PrintEnv) (buffer : Cursor) {ps qs : List PropertyView} (count : ℕ)
    (h : List.Forall₂ SameReading ps qs) :
    logContextPropertyToString env buffer ps count =
      logContextPropertyToString env buffer qs count := by
  rw [logContextPropertyToString, logContextPropertyToString, logNProperties, logNProperties,
    loop_congr env _ ps qs count 0 0 _ (le_refl _) h]

/-! ### Events -/

section

variable [TlgIn]

omit [Platform] in
lemma addProperty_congr {p q : PropertyView} (hname : p.name = q.name) (htype : p.type = q.type)
    (hhead : p.type.getType = .struct → p.memory.headD 0 = q.memory.headD 0) (b : MetadataBuffer) :
    addProperty p b = addProperty q b := by
  rw [addProperty, addProperty, hname, ← htype]
  cases htypes : p.type.getType with
  | struct => rw [hhead htypes]
  | asciiCharPtr | wcharTPtr | bool | int64 | uint64 | int32 | uint32 | int16 | uint16 | int8
  | uint8 | other => rfl

lemma addProperties_congr {ps qs : List PropertyView} (h : List.Forall₂ SameReading ps qs)
    (n : ℕ) (b : MetadataBuffer) : addProperties n ps b = addProperties n qs b := by
  induction h generalizing n b with
  | nil => rfl
  | cons hp _ ih =>
    match n with
    | 0 => rfl
    | n + 1 =>
      rw [addProperties, addProperties,
        addProperty_congr hp.name_eq hp.type_eq hp.headD_eq]
      simp only [ih]

end

lemma createProperties_congr {ps qs : List PropertyView} (h : List.Forall₂ SameReading ps qs)
    (n : ℕ) (d : Descriptors) : createProperties n ps d = createProperties n qs d := by
  induction h generalizing n d with
  | nil => rfl
  | cons hp _ ih =>
    match n with
    | 0 => rfl
    | n + 1 =>
      rw [createProperties, createProperties, hp.create_eq]
      simp only [ih]

lemma writeEvent_congr {ps qs : List PropertyView} (h : List.Forall₂ SameReading ps qs)
    (traceLevel : ℕ) (b : MetadataBuffer) (metadataSize : ℕ) (file func : Option CString) (line : ℤ)
    (added : Bool) (count : ℕ) :
    writeEvent traceLevel b metadataSize file func line added ps count =
      writeEvent traceLevel b metadataSize file func line added qs count := by
  simp only [writeEvent, createDescriptors, createProperties_congr h]

lemma internalEmit_congr [TlgIn] {ps qs : List PropertyView}
    (h : List.Forall₂ SameReading ps qs) (levelPlus1 : ℕ) (garbage : ℕ → UInt8)
    (eventName : EventName) (traceLevel count : ℕ) (file func : Option CString) (line : ℤ)
    (message : FormattedMessage) :
    internalEmitSelfDescribedEventVa levelPlus1 garbage eventName traceLevel ps count file func line
        message =
      internalEmitSelfDescribedEventVa levelPlus1 garbage eventName traceLevel qs count file func
        line message := by
  simp only [internalEmitSelfDescribedEventVa, addProperties_congr h, printMessage,
    writeEvent_congr h]

/-! ### The sinks -/

/-- Every sink does the same for both contexts. -/
structure SameOutput [TlgIn] (a b : LogContext) : Prop where
  callback : ∀ env garbage maxLevel level args,
    logSinkCallbackLog env garbage maxLevel level (some a) args =
      logSinkCallbackLog env garbage maxLevel level (some b) args
  console  : ∀ env garbage level args,
    logSinkConsoleLog env garbage level (some a) args =
      logSinkConsoleLog env garbage level (some b) args
  etw      : ∀ levelPlus1 garbage level file func line message,
    logSinkEtwLog levelPlus1 garbage level (some a) file func line message =
      logSinkEtwLog levelPlus1 garbage level (some b) file func line message

/-- Contexts with the same number of pairs are logged alike if the sinks cannot tell their pairs
apart. -/
theorem sameOutput_of_sameReading [TlgIn] {a b : LogContext}
    (hcount : a.propertyValuePairCount = b.propertyValuePairCount)
    (h : List.Forall₂ SameReading a.views b.views) : SameOutput a b := by
  have hformat : ∀ env garbage header message,
      formatLine env garbage header (some a) message =
        formatLine env garbage header (some b) message := by
    intro env garbage header message
    simp only [formatLine, toString_congr env _ _ h, hcount]
  refine ⟨fun env garbage maxLevel level args => ?_, fun env garbage level args => ?_,
    fun levelPlus1 garbage level file func line message => ?_⟩
  · simp only [logSinkCallbackLog, hformat]
  · simp only [logSinkConsoleLog, hformat]
  · simp only [logSinkEtwLog, logContextGetPropertyValuePairCount, internalEmit_congr h, hcount]

/-! ### The built-in types -/

omit [Platform] in
lemma headD_eq_of_memcpy {mem mem' : List UInt8} (h : memcpy 1 mem = memcpy 1 mem') :
    mem.headD 0 = mem'.headD 0 := by
  rw [← headD_memcpy_one, h, headD_memcpy_one]

/-- Of a scalar only its bytes are read. -/
lemma ScalarType.sameReading (type : ScalarType) (name : CString) {mem mem' : List UInt8}
    (h : memcpy type.sizeof mem = memcpy type.sizeof mem') :
    SameReading ⟨name, type.typeIf, mem⟩ ⟨name, type.typeIf, mem'⟩ := by
  refine ⟨rfl, rfl, ?_, fun hstruct => absurd hstruct type.typeIf_getType_ne_struct, fun d => ?_⟩
  · cases type with
    | int64 => exact congrArg (fun bytes => snprintf (printSigned 64 (leNat bytes))) h
    | uint64 => exact congrArg (fun bytes => snprintf (unsignedDecimal (leNat bytes))) h
    | int32 => exact congrArg (fun bytes => snprintf (printSigned 32 (leNat bytes))) h
    | uint32 => exact congrArg (fun bytes => snprintf (unsignedDecimal (leNat bytes))) h
    | int16 => exact congrArg (fun bytes => snprintf (printSigned 16 (leNat bytes))) h
    | uint16 => exact congrArg (fun bytes => snprintf (unsignedDecimal (leNat bytes))) h
    | int8 => exact congrArg (fun bytes => snprintf (printSigned 8 (leNat bytes))) h
    | uint8 => exact congrArg (fun bytes => snprintf (unsignedDecimal (leNat bytes))) h
    | bool => exact congrArg (fun bytes => snprintf (printBool (leNat bytes))) h
  · cases type with
    | bool =>
      exact congrArg (fun b : UInt8 => d.create (leBytes 4 (if b = 0 then 0 else 1)))
        (headD_eq_of_memcpy h)
    | _ => exact congrArg d.create h

/-- A built-in type reads nothing behind one of its values. -/
theorem BuiltIn.readsOnly {type : LogContextPropertyTypeIf} (h : BuiltIn type)
    {bytes value : List UInt8} (hstores : type.Stores bytes value) : type.ReadsOnly bytes := by
  intro name rest rest'
  have hcopy : type.copy (bytes ++ rest) = type.copy (bytes ++ rest') :=
    (hstores.2 rest).trans (hstores.2 rest').symm
  cases h with
  | scalar type =>
    rw [type.copy_typeIf, type.copy_typeIf] at hcopy
    exact type.sameReading name (Option.some.inj hcopy)
  | asciiCharPtr =>
    have hcstr := List.append_cancel_right (Option.some.inj hcopy)
    refine ⟨rfl, rfl, congrArg snprintf hcstr, ?_, fun d => ?_⟩
    · intro hstruct
      cases hstruct
    · exact congrArg (fun s => d.create (s ++ [0])) hcstr
  | struct =>
    have hhead := headD_eq_of_memcpy (Option.some.inj hcopy)
    exact ⟨rfl, rfl, rfl, fun _ => hhead, fun d => rfl⟩
  | wcharTPtr =>
    have hwcs : wcs sizeofWchar (bytes ++ rest) = wcs sizeofWchar (bytes ++ rest') := by
      rw [← wideBytes_wcs_append sizeofWchar_pos _ [], Option.some.inj hcopy,
        wideBytes_wcs_append sizeofWchar_pos]
    refine ⟨rfl, rfl, ?_, ?_, fun d => ?_⟩
    · exact congrArg (fun chars => wcstombs (chars.map Platform.wcrtomb)) hwcs
    · intro hstruct
      cases hstruct
    · exact congrArg (fun chars => d.create (wideBytes sizeofWchar chars)) hwcs

end

end CLogging

import CLogging.Logger.Callbacks
import CLogging.Sink.ReadBack

/-!
# `LOGGER_LOG_EX`

`LOGGER_LOG_EX` puts its properties into a context on the stack and logs a message with it. If the
context gets too large, the sinks report an error, and the message is lost.
-/

namespace CLogging

open C Machine Printf Forest TraceLogging

/-! ### The macro -/

section

variable [Platform]

/-- The arguments `...` that the macros of `LOGGER_LOG_EX` expand: a message, and properties. -/
inductive ExField where
  | logMessage (format : FormattedMessage)
  | logContextProperty (type : ScalarType) (name : CString) (value : Scalar type)
  | logContextStringProperty (name : CString) (text : Sprintf)
  | logContextPropertyCustomFunction (type : LogContextPropertyTypeIf)
      (notStruct : type.getType ≠ .struct) (name : CString) (call : ValueFunction)

/-- The argument as the macros for a context expand it. -/
def ExField.desc : ExField → FieldDesc
  | .logMessage _                                        => .logMessage
  | .logContextProperty type name value                  => .logContextProperty type name value
  | .logContextStringProperty name text                  => .logContextStringProperty name text
  | .logContextPropertyCustomFunction type notStruct name call =>
    .logContextPropertyCustomFunction type notStruct name call

/-- `HAS_ANY_PROPERTIES`: whether it expands to something. There is no such macro for a property with
a custom function, whose name is then left as it is. -/
def ExField.hasAnyProperties : ExField → Bool
  | .logMessage _ => false
  | _             => true

/-- `EXPAND_MESSAGE`. -/
def ExField.expandMessage : ExField → Option FormattedMessage
  | .logMessage format => some format
  | _                  => none

/-- The message, which is `""` if none is given. There is at most one. -/
def exMessage (fields : List ExField) : FormattedMessage :=
  (fields.findSome? ExField.expandMessage).getD ⟨[], none, none⟩

/-- `LOGGER_LOG_EX`: the arguments of `logger_log`, given what the stack holds. -/
def loggerLogEx (garbage : ℕ → UInt8) (level : LogLevel) (file func : CString) (line : ℤ)
    (fields : List ExField) : LogMessage where
  level   := level
  context :=
    if fields.any ExField.hasAnyProperties then
      (logContextLocalDefine garbage none (fields.map ExField.desc)).context
    else none
  file    := some file
  func    := some func
  line    := line
  format  := some (exMessage fields)

/-- The chain of contexts that is logged. -/
def exChain (garbage : ℕ → UInt8) (fields : List ExField) : List Level :=
  if fields.any ExField.hasAnyProperties then [⟨.localDefine garbage, fields.map ExField.desc⟩]
  else []

/-- The tree of the properties. -/
def exTrees (fields : List ExField) : List (RoseTree CString Leaf) :=
  if fields.any ExField.hasAnyProperties then
    [.node CString.empty (suppliedLeaves (fields.map ExField.desc))]
  else []

/-- The type of the property is one of those whose values are printed as a text. -/
def ExField.Textual : ExField → Prop
  | .logContextPropertyCustomFunction type _ _ _ => ∃ t : TextType, type = t.typeIf
  | _                                            => True

/-- There is at most one message, formatting succeeds, the size of the properties, counted without
bound, fits in 32 bits, and their values are printed as texts. -/
structure ExFormats (fields : List ExField) : Prop where
  message   : (fields.filterMap ExField.expandMessage).length ≤ 1
  formatted : ∀ f ∈ fields, f.desc.Formatted
  total     : 1 + dataBytes (fields.map ExField.desc) < 2 ^ 32
  textual   : ∀ f ∈ fields, f.Textual

/-- The context fits on the stack, and the header in the line, if there are properties. -/
def ExFits (header : List UInt8) (fields : List ExField) : Prop :=
  fields.any ExField.hasAnyProperties = true →
    FitsOnStack none (fields.map ExField.desc) ∧ header.length < LOG_MAX_MESSAGE_LENGTH

/-- What a callback gets: as much of the line with the properties and the message as the buffer
holds, if the context fits on the stack and the header in the line, and the error text in place of
it otherwise. -/
structure ExDelivers (header : List UInt8) (level : LogLevel) (fields : List ExField)
    (c : CallbackCall) : Prop where
  fits     : ExFits header fields → ∃ temp, c = ⟨level, .line temp⟩ ∧
    HoldsLine (header ++ labelsText (exTrees fields) ++ 32 :: (exMessage fields).text) temp
  fits_not : ¬ ExFits header fields → c = ⟨.critical, .literal errorString⟩

/-! ### The context -/

section

variable (garbage : ℕ → UInt8) {fields : List ExField}

lemma contextName_desc (fields : List ExField) :
    contextName (fields.map ExField.desc) = CString.empty := by
  have hnone : (fields.map ExField.desc).filterMap FieldDesc.contextName = [] := by
    rw [List.filterMap_map, List.filterMap_eq_nil_iff]
    intro f _
    cases f with
    | logMessage format => rfl
    | logContextProperty type name value => rfl
    | logContextStringProperty name text => rfl
    | logContextPropertyCustomFunction type notStruct name call => rfl
  rw [contextName, hnone]
  rfl

lemma trees_exChain (fields : List ExField) :
    trees (exChain garbage fields) = exTrees fields := by
  rw [exChain, exTrees]
  split_ifs
  · rw [trees, contextName_desc, trees, List.nil_append]
  · rfl

lemma loggerLogEx_context (level : LogLevel) (file func : CString) (line : ℤ)
    (fields : List ExField) :
    (loggerLogEx garbage level file func line fields).context = build (exChain garbage fields) := by
  simp only [loggerLogEx, exChain]
  split_ifs
  · rfl
  · rfl

lemma ExFormats.formats (h : ExFormats fields) : Formats (exChain garbage fields) := by
  rw [exChain]
  split_ifs
  · refine ⟨fun d hd => ?_, ?_, trivial⟩
    · obtain ⟨f, hf, rfl⟩ := List.mem_map.mp hd
      exact h.formatted f hf
    · have htotal := h.total
      rw [build, internalLogContextGetValuesDataLengthOrZero]
      push_cast
      omega
  · trivial

/-- The types of the properties. -/
lemma ExFormats.exists_type (h : ExFormats fields) {p : Property}
    (hp : p ∈ properties (fields.map ExField.desc)) : ∃ t : TextType, p.type = t.typeIf := by
  obtain ⟨d, hd, hdp⟩ := List.mem_filterMap.mp hp
  obtain ⟨f, hf, rfl⟩ := List.mem_map.mp hd
  cases f with
  | logMessage format => cases hdp
  | logContextProperty type name value =>
    obtain rfl := Option.some.inj hdp
    exact ⟨.scalar type, rfl⟩
  | logContextStringProperty name text =>
    obtain rfl := Option.some.inj hdp
    exact ⟨.asciiCharPtr, rfl⟩
  | logContextPropertyCustomFunction type notStruct name call =>
    obtain rfl := Option.some.inj hdp
    exact h.textual _ hf

lemma ExFormats.formatted_descs (h : ExFormats fields) :
    ∀ d ∈ fields.map ExField.desc, d.Formatted := by
  intro d hd
  obtain ⟨f, hf, rfl⟩ := List.mem_map.mp hd
  exact h.formatted f hf

lemma ExFormats.exists_leaf_type (h : ExFormats fields) :
    ∀ l ∈ leaves (trees (exChain garbage fields)), ∃ t : TextType, l.type = t.typeIf := by
  intro l hl
  rw [trees_exChain, exTrees] at hl
  split_ifs at hl
  · have hmap : suppliedLeaves (fields.map ExField.desc) =
        ((properties (fields.map ExField.desc)).map fun p => ⟨p.name, p.type, p.value⟩).map
          RoseTree.leaf := by
      rw [suppliedLeaves, supplied_eq h.formatted_descs, List.map_map, List.map_map]
      rfl
    rw [leaves, leaves, List.append_nil, hmap, leaves_map_leaf] at hl
    obtain ⟨p, hp, rfl⟩ := List.mem_map.mp hl
    exact h.exists_type hp
  · rw [leaves] at hl
    cases hl

/-! ### Contexts that fit -/

lemma ExFormats.accepts_iff (h : ExFormats fields) :
    (ContextMacro.localDefine garbage).Accepts none (fields.map ExField.desc) ↔
      FitsOnStack none (fields.map ExField.desc) := by
  have hparent : HandleRepresents none [] := rfl
  refine accepts_localDefine_iff hparent h.formatted_descs ?_ garbage
  rw [internalLogContextGetValuesDataLengthOrZero, Nat.cast_zero, zero_add]
  exact h.total

/-- A context that fits is stored. -/
lemma ExFormats.storedChain (h : ExFormats fields)
    (hfits : fields.any ExField.hasAnyProperties = true →
      FitsOnStack none (fields.map ExField.desc)) : StoredChain (exChain garbage fields) := by
  rw [exChain]
  split_ifs with hany
  · have hstack := hfits hany
    have hcount : 0 + 1 + propertyCount (fields.map ExField.desc) ≤ 64 := hstack.1
    refine ⟨(stores_iff_accepts _ _).mpr ((h.accepts_iff garbage).mpr hstack), ?_, trivial⟩
    have hfields : fieldCount none (fields.map ExField.desc) = propertyCount (fields.map ExField.desc) :=
      Nat.zero_add _
    rw [build, hfields]
    omega
  · trivial

/-- A context that does not fit is left empty. -/
lemma ExFormats.not_renderable (h : ExFormats fields)
    (hany : fields.any ExField.hasAnyProperties = true)
    (hnot : ¬ FitsOnStack none (fields.map ExField.desc)) (header : List UInt8) :
    ¬ Renderable header (build (exChain garbage fields)) := by
  have hrejected : (Level.define ⟨.localDefine garbage, fields.map ExField.desc⟩ none).Rejected :=
    rejected_of_not_accepts rfl fun haccepts => hnot ((h.accepts_iff garbage).mp haccepts)
  obtain ⟨⟨c, hc, hcount, -⟩, -⟩ := hrejected
  rw [exChain, if_pos hany, build, build, hc]
  exact fun hrender => hrender.2 hcount

/-- When a line comes out if nothing fails. -/
lemma ExFormats.deliverable_iff (h : ExFormats fields) (header : List UInt8) :
    Deliverable header (build (exChain garbage fields)) ↔ ExFits header fields := by
  by_cases hany : fields.any ExField.hasAnyProperties = true
  · by_cases hstack : FitsOnStack none (fields.map ExField.desc)
    · have hstored := h.storedChain garbage fun _ => hstack
      have hformats := h.formats garbage
      rw [exChain, if_pos hany] at hstored hformats ⊢
      rw [deliverable_build_iff hstored hformats]
      exact ⟨fun hheader _ => ⟨hstack, hheader⟩, fun hfits => (hfits hany).2⟩
    · constructor
      · rintro ⟨hrender, -⟩
        exact absurd hrender (h.not_renderable garbage hany hstack header)
      · intro hfits
        exact absurd (hfits hany).1 hstack
  · rw [exChain, if_neg hany]
    exact iff_of_true ⟨trivial, rfl⟩ fun h => absurd h hany

/-- If no printing function fails, nothing does. -/
lemma ExFormats.noFailure (h : ExFormats fields) {env : PrintEnv}
    (henv : ∀ site index, env site index = none) (garbage' : ℕ → UInt8)
    (header message : List UInt8) :
    NoFailure (lineLog env garbage' header (build (exChain garbage fields)) message) := by
  have htypes : FieldTypes PrintsText (fields.map ExField.desc) := by
    intro p hp
    obtain ⟨t, ht⟩ := h.exists_type hp
    rw [ht]
    exact t.printsText
  refine noFailure_lineLog henv (FollowsSnprintf.nonneg ?_) garbage' header message
  rw [exChain]
  split_ifs
  · exact (allTypes_none.run printsText_struct htypes (.localDefine garbage)).followsSnprintf
  · exact allTypes_none.followsSnprintf

/-! ### Messages -/

omit [Platform] in
/-- What the callback is called with, if it is called. -/
lemma logSinkCallbackLog_singleton {env : PrintEnv} {garbage : ℕ → UInt8}
    {maxLevel level : LogLevel} {context : LogContextHandle} {args : LogArguments}
    {message : List UInt8} (hmessage : args.message = some message) {c : CallbackCall}
    (h : logSinkCallbackLog env garbage maxLevel level context args = some [c]) :
    (∃ temp, formatLine env garbage (headerText args) context message = some (.line temp) ∧
      c = ⟨level, .line temp⟩) ∨
    (formatLine env garbage (headerText args) context message = some .error ∧
      c = ⟨.critical, .literal errorString⟩) := by
  rw [logSinkCallbackLog, hmessage] at h
  simp only at h
  split_ifs at h
  · cases h
  · cases hline : formatLine env garbage (headerText args) context message with
    | none =>
      rw [hline] at h
      cases h
    | some result =>
      rw [hline] at h
      cases result with
      | error => exact Or.inr ⟨rfl, (List.singleton_inj.mp (Option.some.inj h)).symm⟩
      | line temp => exact Or.inl ⟨temp, rfl, (List.singleton_inj.mp (Option.some.inj h)).symm⟩

/-- What a callback gets of a message. -/
lemma ExFormats.delivers (h : ExFormats fields) {env : PrintEnv}
    (henv : ∀ site index, env site index = none) {garbage' : ℕ → UInt8}
    {maxLevel level : LogLevel} {args : LogArguments}
    (hmessage : args.message = some (exMessage fields).text) {c : CallbackCall}
    (hlog : logSinkCallbackLog env garbage' maxLevel level (build (exChain garbage fields)) args =
      some [c]) : ExDelivers (headerText args) level fields c := by
  have hnone := h.noFailure garbage henv garbage' (headerText args) (exMessage fields).text
  have hline := exists_line_iff hnone
  rw [h.deliverable_iff garbage] at hline
  rcases logSinkCallbackLog_singleton hmessage hlog with ⟨temp, hformat, rfl⟩ | ⟨herror, rfl⟩
  · -- a line: the temporary holds header, properties and message
    have hfits := hline.mp ⟨temp, hformat⟩
    refine ⟨fun _ => ⟨temp, rfl, ?_⟩, fun hnot => absurd hfits hnot⟩
    have hstored := h.storedChain garbage fun hany => (hfits hany).1
    obtain ⟨-, message, hsome, hholds⟩ := callback_line_labels hstored (h.formats garbage)
      (h.exists_leaf_type garbage) hnone.of_lineLog.2
      ⟨_, hlog, level, List.mem_singleton_self _⟩
    obtain rfl := Option.some.inj (hmessage.symm.trans hsome)
    rwa [trees_exChain] at hholds
  · -- no line: formatting has failed, so the properties do not fit
    refine ⟨fun hfits => ?_, fun _ => rfl⟩
    obtain ⟨temp, hformat⟩ := hline.mpr hfits
    cases hformat.symm.trans herror

end

/-- What is called for a message of `LOGGER_LOG_EX` depends on what was set last. -/
lemma exists_calls_loggerLogEx [TlgIn] {β κ : Type*} {sinks : List (Sink β)}
    {mask : Option UInt64} {calls : List (LibraryCall β κ)} {env : ℕ → SinkLogEnv}
    {l : Library β κ} {outputs : List (LibraryOutput β κ)} {garbage : ℕ → UInt8}
    {level : LogLevel} {file func : CString} {line : ℤ} {fields : List ExField}
    (hrun : run Library.step (.start sinks mask)
      (calls ++ [.loggerLog env (loggerLogEx garbage level file func line fields)]) =
        some (l, outputs)) :
    ∃ before o, ∃ cs : List CallbackCall, outputs = before ++ [o] ∧
      callbackEvents o.events = cs.map ((lastCallback calls, ·)) ∧
      cs.length = (if level.toNat ≤ (lastMaxLevel calls).toNat then
        (lastConfig sinks calls).countP Sink.isCallback else 0) ∧
      ∀ c ∈ cs, ∃ j, logSinkCallbackLog (env j).print (env j).garbage (lastMaxLevel calls) level
        (build (exChain garbage fields))
        ((loggerLogEx garbage level file func line fields).arguments (env j).time) = some [c] := by
  obtain ⟨before, o, houtputs, hset, hall⟩ := exists_logAll hrun
  obtain ⟨cs, hevents, hlength, hcs⟩ := callbackEvents_logAll hall
  rw [hset.callback] at hevents
  rw [hset.maxLevel, hset.config] at hlength
  rw [hset.maxLevel, loggerLogEx_context] at hcs
  have hpasses : (loggerLogEx garbage level file func line fields).Passes (lastMaxLevel calls) ↔
      level.toNat ≤ (lastMaxLevel calls).toNat := or_iff_right (Option.some_ne_none _)
  simp only [hpasses] at hlength
  exact ⟨before, o, cs, houtputs, hevents, hlength, hcs⟩

end

section

attribute [local instance] posix tlgIn

/-- A message with a number. -/
def sampleExFields : List ExField :=
  [.logContextProperty .int32 ⟨ascii "x", zero_notMem_x⟩ ⟨[7, 0, 0, 0], length_seven⟩,
    .logMessage ⟨ascii "hello", none, none⟩]

lemma exFormats_sample : ExFormats sampleExFields where
  message   := by decide
  formatted := by
    intro f hf
    simp only [sampleExFields, List.mem_cons, List.not_mem_nil, or_false] at hf
    rcases hf with rfl | rfl
    · trivial
    · trivial
  total     := by decide
  textual   := by
    intro f hf
    simp only [sampleExFields, List.mem_cons, List.not_mem_nil, or_false] at hf
    rcases hf with rfl | rfl
    · trivial
    · trivial

end

end CLogging

import CLogging.Context.Chain
import CLogging.Etw.Emission
import CLogging.ToString.Trees

/-!
# The sink

`log_sink_etw_log` passes the pairs of a context and their number, which it narrows to 16 bits.
The number is compared with the limit only afterwards.
-/

namespace CLogging

open C Memory Printf TraceLogging

/-- The name of the event for a level. `none` stands for a value that is no level. -/
def eventName : Option LogLevel → EventName
  | some .critical => ⟨⟨ascii "LogCritical", by decide⟩, by decide⟩
  | some .error    => ⟨⟨ascii "LogError", by decide⟩, by decide⟩
  | some .warning  => ⟨⟨ascii "LogWarning", by decide⟩, by decide⟩
  | some .info     => ⟨⟨ascii "LogInfo", zero_notMem_logInfo⟩, fits_logInfo⟩
  | some .verbose  => ⟨⟨ascii "LogVerbose", by decide⟩, by decide⟩
  | none           => ⟨⟨ascii "Unknown", by decide⟩, by decide⟩

/-- `TRACE_LEVEL_CRITICAL` and so on, and `TRACE_LEVEL_NONE`. -/
def traceLevel : Option LogLevel → ℕ
  | some .critical => 1
  | some .error    => 2
  | some .warning  => 3
  | some .info     => 4
  | some .verbose  => 5
  | none           => 0

lemma u16_natCast_eq_mod (n : ℕ) : u16 n = n % 65536 := by
  simp only [u16]
  omega

section

variable [Platform] [TlgIn]

/-- `log_sink_etw_log`, with `none` for a format that is `NULL`. -/
def logSinkEtwLog (levelPlus1 : ℕ) (garbage : ℕ → UInt8) (level : Option LogLevel)
    (context : LogContextHandle) (file func : Option CString) (line : ℤ)
    (message : Option FormattedMessage) : Option Emission :=
  match message with
  | none         => some ⟨[], []⟩
  | some message =>
    match context with
    | none   => internalEmitSelfDescribedEventVa levelPlus1 garbage (eventName level)
        (traceLevel level) [] 0 file func line message
    | some c => internalEmitSelfDescribedEventVa levelPlus1 garbage (eventName level)
        (traceLevel level) c.views (u16 (logContextGetPropertyValuePairCount context)) file func
        line message

/-- Every event has the fixed fields and their values only. -/
def CarriesNoProperties (result : Option Emission) : Prop :=
  ∀ emission, result = some emission → ∀ e ∈ emission.events,
    (∃ md, parseEvent e.described = some md ∧ md.fields = fixedFields) ∧ e.descriptors.idx = 6

/-- What is left of the number of pairs is not above the limit, and that many properties fit. -/
structure SlipsThrough (levelPlus1 : ℕ) (level : Option LogLevel) (c : LogContext)
    (message : FormattedMessage) : Prop where
  enabled : traceLevel level < levelPlus1
  prints  : MessagePrints (eventName level) c.views (c.propertyValuePairCount % 65536) message
  pos     : 0 < c.propertyValuePairCount % 65536
  few     : c.propertyValuePairCount % 65536 ≤ 64
  known   : ∀ p ∈ c.views.take (c.propertyValuePairCount % 65536), p.type.getType ≠ .other
  fits    : metadataSize (eventName level) (c.views.take (c.propertyValuePairCount % 65536)) +
    message.text.length + 1 ≤ 4096

/-- A written event carries none of the properties exactly if they are not emitted, or there are
none. -/
lemma Event.Written.carriesNone_iff {e : Event} {eventName : EventName} {pairs : List PropertyView}
    {count : ℕ} {text : List UInt8} {emitted : Bool}
    (h : e.Written eventName pairs count text emitted) (hcount : PairsFilled pairs count)
    {content : List UInt8} {file func : Option CString} {line : ℤ}
    (hholds : e.descriptors.Holds
      ((eventPayloads content file func line pairs count emitted).map Payload.bytes)) :
    ((∃ md, TraceLogging.parseEvent e.described = some md ∧ md.fields = fixedFields) ∧
      e.descriptors.idx = 6) ↔ ¬ (emitted = true ∧ 0 < count) := by
  have hidx := hholds.idx_eq
  rw [List.length_map, eventPayloads] at hidx
  have hparse := h.parseEvent
  rw [eventFields] at hparse
  cases emitted with
  | false =>
    rw [if_neg Bool.false_ne_true, List.append_nil] at hidx hparse
    exact iff_of_true ⟨⟨_, hparse, rfl⟩, hidx⟩ (fun hemitted => Bool.false_ne_true hemitted.1)
  | true =>
    have hemits := h.emitted_iff.mp rfl
    have hlength := (length_propertyFields hemits.known).1
    rw [List.length_take, min_eq_left (hcount hemits.few)] at hlength
    rw [if_pos rfl] at hidx hparse
    constructor
    · -- a property that was carried has a field behind the fixed ones
      rintro ⟨⟨md, hmd, hfields⟩ , -⟩ ⟨-, hpos⟩
      obtain rfl := Option.some.inj (hparse.symm.trans hmd)
      have hnil := List.append_right_eq_self.mp hfields
      rw [hnil, List.length_nil] at hlength
      exact absurd hlength hpos.ne
    · -- no property at all: the fixed fields are all there is
      intro hnone
      obtain rfl : count = 0 := Nat.eq_zero_of_not_pos fun hpos => hnone ⟨rfl, hpos⟩
      rw [List.length_eq_zero_iff.mp hlength, List.append_nil] at hparse
      exact ⟨⟨_, hparse, rfl⟩, hidx⟩

/-- What is passed for a context. -/
lemma carriesNoProperties_some_iff (levelPlus1 : ℕ) (garbage : ℕ → UInt8)
    (level : Option LogLevel) {c : LogContext}
    (hfilled : PairsFilled c.views (c.propertyValuePairCount % 65536))
    (file func : Option CString) (line : ℤ) (m : FormattedMessage) :
    CarriesNoProperties
        (logSinkEtwLog levelPlus1 garbage level (some c) file func line (some m)) ↔
      ¬ SlipsThrough levelPlus1 level c m := by
  have hread : logSinkEtwLog levelPlus1 garbage level (some c) file func line (some m) =
      internalEmitSelfDescribedEventVa levelPlus1 garbage (eventName level) (traceLevel level)
        c.views (c.propertyValuePairCount % 65536) file func line m := by
    rw [← u16_natCast_eq_mod]
    rfl
  obtain ⟨emission, hemit, -, hevents⟩ := internalEmit_spec levelPlus1 garbage (eventName level)
    (traceLevel level) hfilled file func line m
  rw [hread, hemit]
  rcases hevents with ⟨hnil, hnone⟩ | ⟨e, emitted, hone, henabled, hprints, hwritten, hholds⟩
  · refine iff_of_true ?_ fun hslips => hnone ⟨hslips.enabled, hslips.prints⟩
    intro emission' hemission' e he
    obtain rfl := Option.some.inj hemission'
    rw [hnil] at he
    cases he
  · have hcarries : CarriesNoProperties (some emission) ↔
        ¬ (emitted = true ∧ 0 < c.propertyValuePairCount % 65536) := by
      rw [← hwritten.carriesNone_iff hfilled hholds]
      constructor
      · intro h
        exact h emission rfl e (hone ▸ List.mem_cons_self)
      · intro h emission' hemission' e' he'
        obtain rfl := Option.some.inj hemission'
        rw [hone] at he'
        obtain rfl := List.mem_singleton.mp he'
        exact h
    rw [hcarries, not_iff_not, hwritten.emitted_iff, emitsProperties_iff]
    constructor
    · rintro ⟨⟨hfew, hknown, hfits⟩, hpos⟩
      exact ⟨henabled, hprints, hpos, hfew, hknown, hfits⟩
    · intro hslips
      exact ⟨⟨hslips.few, hslips.known, hslips.fits⟩, hslips.pos⟩

/-- Events carry no properties unless the number of pairs slips through, given that the pairs were
filled in of which the sink reads any: it reads none if what is left of their number is 0 or above
the limit. This holds of more than 64 pairs as of any other number. -/
theorem carriesNoProperties_iff (levelPlus1 : ℕ) (garbage : ℕ → UInt8) (level : Option LogLevel)
    {c : LogContext} (hfilled : PairsFilled c.views (c.propertyValuePairCount % 65536))
    (file func : Option CString) (line : ℤ) (message : Option FormattedMessage) :
    CarriesNoProperties (logSinkEtwLog levelPlus1 garbage level (some c) file func line message) ↔
      ¬ ∃ m, message = some m ∧ SlipsThrough levelPlus1 level c m := by
  match message with
  | none =>
    refine iff_of_true ?_ (fun ⟨m, hm, _⟩ => Option.some_ne_none m hm.symm)
    intro emission hemission e he
    obtain rfl := Option.some.inj hemission
    cases he
  | some m =>
    rw [carriesNoProperties_some_iff levelPlus1 garbage level hfilled file func line m, not_iff_not]
    constructor
    · intro hslips
      exact ⟨m, rfl, hslips⟩
    · rintro ⟨m', hm', hslips⟩
      rw [Option.some.inj hm']
      exact hslips

end

/-! ### Nested contexts -/

section

variable [Platform]

/-- A context on the heap without properties of its own. -/
def bareLevel : Level := ⟨.create (some fun _ => 0), []⟩

/-- Every context of a chain of such contexts adds one pair, a struct of one byte. -/
lemma nested_spec (n : ℕ) (hn : n < 2 ^ 31) : Formats (List.replicate n bareLevel) ∧
    (entries (List.replicate n bareLevel)).length = n ∧
    totalSize (entries (List.replicate n bareLevel)) = n ∧
    ∀ e ∈ entries (List.replicate n bareLevel), e.type = struct ∧ e.name = CString.empty := by
  induction n with
  | zero => exact ⟨trivial, rfl, rfl, fun e he => absurd he List.not_mem_nil⟩
  | succ n ih =>
    obtain ⟨hformats, hlength, hsize, hstruct⟩ := ih (Nat.lt_of_succ_lt hn)
    have hrep := represents_build hformats
    have hentries : entries (List.replicate (n + 1) bareLevel) =
        childEntries (build (List.replicate n bareLevel)) (entries (List.replicate n bareLevel))
          [] := if_pos rfl
    rw [hentries]
    refine ⟨⟨fun d hd => absurd hd List.not_mem_nil, ?_, hformats⟩, ?_, ?_, ?_⟩
    · rw [hrep.length_eq, hsize]
      simp only [bareLevel, dataBytes, List.map_nil, List.sum_nil]
      omega
    · rw [length_childEntries hrep, hrep.count_eq, hlength]
      rfl
    · rw [totalSize_childEntries hrep, hrep.length_eq, hsize]
      exact Nat.add_comm 1 n
    · intro e he
      rcases List.mem_cons.mp he with rfl | he
      · exact ⟨rfl, rfl⟩
      · rw [show properties [] = [] from rfl, entriesFrom, List.append_nil] at he
        obtain ⟨e, hmem, rfl⟩ := List.mem_map.mp he
        exact hstruct e hmem

/-- The context at the end of a long chain, and its pairs. -/
lemma exists_nested (n : ℕ) (hn : n + 1 < 2 ^ 31) :
    ∃ c, build (List.replicate (n + 1) bareLevel) = some c ∧ c.propertyValuePairCount = n + 1 ∧
      c.views.length = n + 1 ∧ ∀ p ∈ c.views, p.type = struct ∧ p.name = CString.empty := by
  obtain ⟨hformats, hlength, -, hstruct⟩ := nested_spec (n + 1) hn
  have hrep := represents_build hformats
  match hbuild : build (List.replicate (n + 1) bareLevel) with
  | none =>
    rw [hbuild] at hrep
    rw [show entries (List.replicate (n + 1) bareLevel) = [] from hrep] at hlength
    cases hlength
  | some c =>
    rw [hbuild] at hrep
    have hpairs := Represents.pairs_eq hrep
    have hviews : c.views = (entries (List.replicate (n + 1) bareLevel)).map
        fun e => c.view e.pair := by
      have hall := filterMap_takeWhile_map_some c.view
        ((entries (List.replicate (n + 1) bareLevel)).map Entry.pair) []
      simp only [List.map_map, List.append_nil, List.takeWhile_nil, List.filterMap_nil] at hall
      rw [LogContext.views, hpairs]
      exact hall
    refine ⟨c, rfl, (Represents.count_eq hrep).trans hlength, ?_, fun p hp => ?_⟩
    · rw [hviews, List.length_map, hlength]
    · rw [hviews] at hp
      obtain ⟨e, he, rfl⟩ := List.mem_map.mp hp
      exact hstruct e he

end

section

attribute [local instance] posix tlgIn

/-- The context at the end of a chain of 70 contexts loses its pairs. -/
theorem carriesNoProperties_sample : ∃ c, build (List.replicate 70 bareLevel) = some c ∧
    CarriesNoProperties (logSinkEtwLog 6 (fun _ => 0) (some .info) (some c) none none 7
      (some ⟨ascii "done", none, none⟩)) := by
  obtain ⟨c, hbuild, hcount, hlength, -⟩ := exists_nested 69 (by decide)
  refine ⟨c, hbuild, (carriesNoProperties_iff 6 (fun _ => 0) (some .info)
    (fun _ => (Nat.mod_le _ _).trans (hcount.trans hlength.symm).le) none none 7 _).mpr ?_⟩
  rintro ⟨m, -, hslips⟩
  have hfew := hslips.few
  rw [hcount] at hfew
  exact absurd hfew (by decide)

/-- The context at the end of a chain of 65537 contexts has 65537 pairs, and its events carry the
first of them. -/
theorem not_carriesNoProperties_nested : ∃ c,
    build (List.replicate 65537 bareLevel) = some c ∧ 64 < c.propertyValuePairCount ∧
      ¬ CarriesNoProperties (logSinkEtwLog 6 (fun _ => 0) (some .info) (some c) none none 7
        (some ⟨ascii "done", none, none⟩)) := by
  obtain ⟨c, hbuild, hcount, hlength, hstruct⟩ := exists_nested 65536 (by decide)
  refine ⟨c, hbuild, by rw [hcount]; decide, ?_⟩
  have hone : c.propertyValuePairCount % 65536 = 1 := by rw [hcount]
  match hviews : c.views with
  | [] =>
    rw [hviews] at hlength
    cases hlength
  | p :: ps =>
    obtain ⟨htype, hname⟩ := hstruct p (hviews ▸ List.mem_cons_self)
    have htake : c.views.take (c.propertyValuePairCount % 65536) = [p] := by
      rw [hviews, hone]
      rfl
    have hfilled : PairsFilled c.views (c.propertyValuePairCount % 65536) :=
      fun _ => (Nat.mod_le _ _).trans (hcount.trans hlength.symm).le
    rw [carriesNoProperties_some_iff _ _ _ hfilled, not_not]
    refine ⟨by decide, ⟨rfl, fun _ => rfl⟩, by rw [hone]; decide, by rw [hone]; decide, ?_, ?_⟩
    · rw [htake]
      intro q hq
      rw [List.mem_singleton.mp hq, htype]
      decide
    · have hsize : p.fieldSize = 3 := by
        rw [PropertyView.fieldSize, hname, htype]
        rfl
      rw [htake, metadataSize, List.map_singleton, List.sum_singleton, hsize]
      decide

end

end CLogging

import CLogging.Stack.Released

/-!
# The lines of a stack

For each frame `get_thread_stack` prints a line, with a separator before all but the first. As long as
every line fits, the text is those of the frames that are shown.
-/

namespace CLogging

open C Printf Memory

/-! ### Texts that fit -/

/-- Every text fits where it is printed. -/
def AllFit : List FallbackCall → ℕ → Prop
  | [], _         => True
  | k :: ks, room => k.Fits room ∧ AllFit ks (room - k.text.bytes.length)

/-- The texts of some calls, one behind the other. -/
def texts (ks : List FallbackCall) : List UInt8 := (ks.map fun k => k.text.bytes).flatten

@[simp] lemma texts_nil : texts [] = [] := rfl

@[simp] lemma texts_cons (k : FallbackCall) (ks : List FallbackCall) :
    texts (k :: ks) = k.text.bytes ++ texts ks := rfl

/-- Below two gigabytes it is enough that there is space for all of them. -/
lemma allFit_of_lt {ks : List FallbackCall} {room : ℕ} (hfailure : ∀ k ∈ ks, k.failure = none)
    (hroom : room < 2 ^ 31) (h : (texts ks).length < room) : AllFit ks room := by
  induction ks generalizing room with
  | nil => trivial
  | cons k ks ih =>
    rw [texts_cons, List.length_append] at h
    rw [List.forall_mem_cons] at hfailure
    refine ⟨⟨hfailure.1, ?_⟩, ih hfailure.2 (by omega) (by omega)⟩
    rw [int_natCast hroom]
    omega

lemma printedPieces_of_allFit {ks : List FallbackCall} {room : ℕ} (h : AllFit ks room) :
    printedPieces ks room = texts ks := by
  induction ks generalizing room with
  | nil => rfl
  | cons k ks ih =>
    obtain ⟨hfits, hrest⟩ := h
    rw [printedPieces, piece_of_fits hfits, ih hrest, texts_cons]

/-- A text that fits is terminated. -/
lemma zero_at_snprintfFallback {c : Cursor} (hc : c.Fits) {k : FallbackCall} (h : k.Fits c.room) :
    (snprintfFallback k c).mem[(snprintfFallback k c).pos]? = some 0 := by
  have hstored := bounded_vsnprintf k c.room
  rw [h.vsnprintf_eq] at hstored
  rw [snprintfFallback_mem, if_pos h, snprintfFallback_pos, piece_of_fits h, h.vsnprintf_eq,
    hc.getElem?_put hstored (by simp), List.getElem?_append_right (le_refl _), Nat.sub_self]
  rfl

lemma zero_at_snprintfFallbackAll {ks : List FallbackCall} {c : Cursor} (hc : c.Fits)
    (hzero : c.mem[c.pos]? = some 0) (h : AllFit ks c.room) :
    (snprintfFallbackAll ks c).mem[(snprintfFallbackAll ks c).pos]? = some 0 := by
  induction ks generalizing c with
  | nil => exact hzero
  | cons k ks ih =>
    obtain ⟨hfits, hrest⟩ := h
    refine ih (fits_snprintfFallback hc k) (zero_at_snprintfFallback hc hfits) ?_
    rw [snprintfFallback_room, piece_of_fits hfits]
    exact hrest

/-- The text cannot be mistaken for the fallback string. -/
def FallbackCall.Distinct (k : FallbackCall) : Prop :=
  2 ≤ k.text.bytes.length ∧ k.text.bytes.take 2 ≠ snprintfFailed.bytes.take 2

/-- If what is printed is the beginning of such texts, they all fit. -/
lemma allFit_of_prefix {ks : List FallbackCall} {room : ℕ} (hdistinct : ∀ k ∈ ks, k.Distinct)
    (hroom : (texts ks).length < room)
    (h : (printedPieces ks room).take (room - 1) <+: texts ks) : AllFit ks room := by
  induction ks generalizing room with
  | nil => trivial
  | cons k ks ih =>
    rw [List.forall_mem_cons] at hdistinct
    obtain ⟨⟨hlength, hne⟩, hdistinct⟩ := hdistinct
    rw [texts_cons, List.length_append] at hroom
    rw [printedPieces, texts_cons] at h
    by_cases hfits : k.Fits room
    · rw [piece_of_fits hfits, List.take_append, List.take_of_length_le (by omega),
        List.prefix_append_right_inj, Nat.sub_right_comm] at h
      exact ⟨hfits, ih hdistinct (by omega) h⟩
    · -- the first two bytes are those of the fallback string
      exfalso
      have hlong : 2 ≤ fallbackLength room := by
        rw [fallbackLength]
        split_ifs
        · omega
        · norm_num
      have hpiece : k.piece room = snprintfFailed.bytes.take (fallbackLength room) := if_neg hfits
      have hpieceLength := length_piece_of_not_fits hfits
      have hprinted : ((k.piece room ++ printedPieces ks (room - (k.piece room).length)).take
          (room - 1)).take 2 = snprintfFailed.bytes.take 2 := by
        rw [List.take_take, Nat.min_eq_left (by omega), List.take_append_of_le_length (by omega),
          hpiece, List.take_take, Nat.min_eq_left hlong]
      have hprefix := (List.take_prefix 2 _).trans h
      rw [hprinted] at hprefix
      have heq := List.prefix_iff_eq_take.mp hprefix
      rw [List.length_take, Nat.min_eq_left (by decide), List.take_append_of_le_length hlength]
        at heq
      exact hne heq.symm

section

variable {ks : List FallbackCall} {c : Cursor} (hc : c.Fits) (hpos : c.pos = 0)
  {buffer : List UInt8} (hbuffer : buffer = (snprintfFallbackAll ks c).mem ∨
    buffer = storeLast (snprintfFallbackAll ks c))

include hc hpos

/-- What was printed is where the buffer starts. -/
lemma take_mem_of_start : (snprintfFallbackAll ks c).mem.take (printedPieces ks c.room).length =
    printedPieces ks c.room := by
  have htake := take_snprintfFallbackAll hc ks
  rw [snprintfFallbackAll_pos, hpos, List.take_zero, List.nil_append, Nat.zero_add] at htake
  exact htake

/-- The terminator that may be stored last is in the last byte. -/
lemma storeLast_of_start : storeLast (snprintfFallbackAll ks c) =
    (snprintfFallbackAll ks c).mem.set (c.room - 1) 0 := by
  rw [storeLast, fits_snprintfFallbackAll hc ks, length_mem_snprintfFallbackAll, ← hc, hpos,
    Nat.zero_add]

include hbuffer

/-- In front of the last byte nothing depends on it. -/
lemma take_buffer_of_start :
    buffer.take (c.room - 1) = (snprintfFallbackAll ks c).mem.take (c.room - 1) := by
  rcases hbuffer with rfl | rfl
  · rfl
  · rw [storeLast_of_start hc hpos, List.take_set_of_le (le_refl _)]

/-- If the texts of the calls are in the buffer, they fit. -/
lemma allFit_of_cstr_eq (hdistinct : ∀ k ∈ ks, k.Distinct) (hroom : (texts ks).length < c.room)
    (htext : cstr buffer = texts ks) : AllFit ks c.room := by
  refine allFit_of_prefix hdistinct hroom ?_
  have hcut : cstr (buffer.take (c.room - 1)) = texts ks := by
    rw [cstr_take, htext, List.take_of_length_le (by omega)]
  have hsplit := List.take_append_drop (printedPieces ks c.room).length
    (snprintfFallbackAll ks c).mem
  rw [take_mem_of_start hc hpos] at hsplit
  rw [take_buffer_of_start hc hpos hbuffer, ← hsplit, List.take_append,
    cstr_append_of_notMem] at hcut
  · rw [← hcut]
    exact List.prefix_append _ _
  · exact fun h => zero_notMem_printedPieces ks c.room (List.mem_of_mem_take h)

/-- Behind texts that fit there is a terminator. -/
lemma zero_behind_texts (hzero : c.mem[0]? = some 0) (hall : AllFit ks c.room) :
    buffer[(texts ks).length]? = some 0 := by
  have hend := zero_at_snprintfFallbackAll hc (by rwa [hpos]) hall
  rw [snprintfFallbackAll_pos, hpos, Nat.zero_add, printedPieces_of_allFit hall] at hend
  rcases hbuffer with rfl | rfl
  · exact hend
  · obtain ⟨hlt, -⟩ := List.getElem?_eq_some_iff.mp hend
    rw [storeLast_of_start hc hpos, List.getElem?_set]
    split_ifs with hlast hin
    · rfl
    · exact absurd (hlast ▸ hlt) hin
    · exact hend

/-- If the texts of the calls fit, they are in the buffer. -/
lemma cstr_eq_of_allFit (hzero : c.mem[0]? = some 0) (hroom : (texts ks).length < c.room)
    (hall : AllFit ks c.room) : cstr buffer = texts ks := by
  have hprinted := printedPieces_of_allFit hall
  have hbegin : buffer.take (texts ks).length = texts ks := by
    have hcut := congrArg (List.take (texts ks).length) (take_buffer_of_start hc hpos hbuffer)
    have htake : _ = printedPieces ks c.room := take_mem_of_start hc hpos
    rw [hprinted] at htake
    rwa [List.take_take, List.take_take, Nat.min_eq_left (by omega), htake] at hcut
  obtain ⟨hlt, hget⟩ :=
    List.getElem?_eq_some_iff.mp (zero_behind_texts hc hpos hbuffer hzero hall)
  rw [← List.take_append_drop (texts ks).length buffer, hbegin, List.drop_eq_getElem_cons hlt, hget]
  refine cstr_append_zero _ _ fun h => ?_
  exact zero_notMem_printedPieces ks c.room (hprinted ▸ h)

/-- The text in the buffer is the texts of the calls exactly if these fit. -/
lemma cstr_eq_texts_iff (hzero : c.mem[0]? = some 0) (hdistinct : ∀ k ∈ ks, k.Distinct)
    (hroom : (texts ks).length < c.room) : cstr buffer = texts ks ↔ AllFit ks c.room :=
  ⟨allFit_of_cstr_eq hc hpos hbuffer hdistinct hroom,
    cstr_eq_of_allFit hc hpos hbuffer hzero hroom⟩

end

/-! ### The frames of a thread -/

/-- The lookup and unwind steps deliver these program counters, none of them 0, and then 0. -/
def Delivers (g : SymbolHandler) : UInt64 → List Frame → List UInt64 → Prop
  | pc, [], pcs      => pc = 0 ∧ pcs = []
  | pc, f :: fs, pcs => pc ≠ 0 ∧ ∃ rest, pcs = pc :: rest ∧ Delivers g (f.nextPc g) fs rest

/-- All but the first of the calling thread, which is that of `get_thread_stack` itself. -/
def shown {α : Type*} (env : ThreadEnv) (threadId : UInt32) (frames : List α) : List α :=
  if env.currentThreadId = threadId then frames.drop 1 else frames

/-- The lines of some frames, with a separator between them. -/
def frameText (frames : List Frame) : List UInt8 :=
  (ascii "\n").intercalate (frames.map fun f => f.line.bytes)

/-- The calls that print them. -/
def lineCalls : List Frame → Bool → List FallbackCall
  | [], _            => []
  | f :: fs, isFirst => f.call isFirst :: lineCalls fs false

/-- The calls that look up the symbols for some program counters. -/
def lookups (g : SymbolHandler) (pcs : List UInt64) : List StackEvent :=
  pcs.flatMap fun pc => [.symFromAddr g.processHandle pc, .symGetLineFromAddr64 g.processHandle pc]

def StackEvent.isLookup : StackEvent → Bool
  | .symFromAddr _ _ | .symGetLineFromAddr64 _ _ => true
  | _ => false

/-- The symbols of the frames that are shown are looked up in order, and the text is their lines. -/
structure ListsFrames (g : SymbolHandler) (env : ThreadEnv) (threadId : UInt32) (pcs : List UInt64)
    (r : ThreadStack) : Prop where
  lookups : r.events.filter StackEvent.isLookup = lookups g (shown env threadId pcs)
  text    : ∃ buffer, r.destination = some buffer ∧
    cstr buffer = frameText (shown env threadId env.frames)

lemma texts_lineCalls_cons (f : Frame) (fs : List Frame) (isFirst : Bool) :
    texts (lineCalls (f :: fs) isFirst) = (separator isFirst).bytes ++ frameText (f :: fs) := by
  induction fs generalizing f isFirst with
  | nil =>
    rw [frameText, List.map_cons, List.map_nil, List.intercalate_singleton]
    simp [lineCalls, Frame.call, CString.concat]
  | cons f' fs ih =>
    have hline : (f.call isFirst).text.bytes = (separator isFirst).bytes ++ f.line.bytes := by
      simp [Frame.call, CString.concat]
    have hsep : (separator false).bytes = ascii "\n" := rfl
    rw [lineCalls, texts_cons, ih, hline, hsep, frameText, frameText, List.map_cons, List.map_cons,
      List.map_cons, List.intercalate_cons_cons, List.append_assoc, List.append_assoc]

lemma texts_lineCalls (fs : List Frame) : texts (lineCalls fs true) = frameText fs := by
  match fs with
  | [] => rfl
  | f :: fs => exact texts_lineCalls_cons f fs true

/-- Each line begins with `'!'`, behind the separator. -/
lemma distinct_call (f : Frame) (isFirst : Bool) : (f.call isFirst).Distinct := by
  have hcall : (f.call isFirst).text.bytes = (separator isFirst).bytes ++ f.line.bytes := by
    simp [Frame.call, CString.concat]
  obtain ⟨b, rest, hline⟩ : ∃ b rest, f.line.bytes = 33 :: b :: rest := by
    have hname : ∃ b rest, f.functionName.bytes ++ 32 :: (f.fileName.bytes ++
        58 :: unsignedDecimal f.lineNumber.toNat) = b :: rest :=
      List.exists_cons_of_ne_nil (by simp)
    obtain ⟨b, rest, hname⟩ := hname
    refine ⟨b, rest, ?_⟩
    rw [← hname]
    simp [Frame.line, CString.concat, CString.unsigned, ascii]
  rw [FallbackCall.Distinct, hcall, hline]
  cases isFirst with
  | true => exact ⟨Nat.le_add_left _ _, fun h => absurd (List.cons.inj h).1 (by decide)⟩
  | false =>
    exact ⟨Nat.le_add_left _ _, fun h => absurd (List.cons.inj (List.cons.inj h).2).1 (by decide)⟩

lemma distinct_lineCalls (fs : List Frame) (isFirst : Bool) :
    ∀ k ∈ lineCalls fs isFirst, k.Distinct := by
  induction fs generalizing isFirst with
  | nil => exact fun k hk => absurd hk List.not_mem_nil
  | cons f fs ih =>
    rw [lineCalls, List.forall_mem_cons]
    exact ⟨distinct_call f isFirst, ih false⟩

/-! ### The walk -/

lemma frameCalls_of_delivers {g : SymbolHandler} {fs : List Frame} {pc : UInt64} {pcs : List UInt64}
    (h : Delivers g pc fs pcs) (firstLine : Bool) :
    frameCalls g fs pc firstLine false = lineCalls fs firstLine := by
  induction fs generalizing pc pcs firstLine with
  | nil => rfl
  | cons f fs ih =>
    obtain ⟨hpc, rest, -, hrest⟩ := h
    rw [frameCalls, if_neg hpc, if_neg Bool.false_ne_true, ih hrest, lineCalls]

/-- The calls that print are those for the lines of the frames that are shown. -/
lemma threadCalls_of_delivers {g : SymbolHandler} {env : ThreadEnv} {threadId : UInt32}
    {pcs : List UInt64} (hstate : g.symbolsState = .initialized) (hopen : env.openThread ≠ none)
    (hcontext : env.currentThreadId = threadId ∨ env.suspendThread ∧ env.getThreadContext)
    (hpcs : Delivers g env.pc env.frames pcs) :
    threadCalls g env threadId = lineCalls (shown env threadId env.frames) true := by
  rw [threadCalls, if_neg (not_not.mpr hstate), if_neg hopen, shown]
  by_cases hcurrent : env.currentThreadId = threadId
  · rw [if_pos hcurrent, if_pos hcurrent]
    cases hframes : env.frames with
    | nil => rfl
    | cons f fs =>
      rw [hframes] at hpcs
      obtain ⟨hpc, rest, -, hrest⟩ := hpcs
      rw [frameCalls, if_neg hpc, if_pos rfl, frameCalls_of_delivers hrest, List.drop_one,
        List.tail_cons]
  · obtain ⟨hsuspend, hget⟩ := hcontext.resolve_left hcurrent
    rw [if_neg hcurrent, if_neg hcurrent, if_neg (not_not.mpr hsuspend), if_neg (not_not.mpr hget),
      frameCalls_of_delivers hpcs]

/-- The loop ends, and looks up the symbols of each frame but a skipped one. -/
lemma exists_walk {g : SymbolHandler} {fs : List Frame} {pc : UInt64} {pcs : List UInt64}
    (h : Delivers g pc fs pcs) (s : WalkState) :
    ∃ s', walk g fs pc s = some s' ∧
      s'.events = s.events ++ lookups g (if s.skipFirstFrame then pcs.drop 1 else pcs) := by
  induction fs generalizing pc pcs s with
  | nil =>
    obtain ⟨rfl, rfl⟩ := h
    refine ⟨s, rfl, ?_⟩
    rw [List.drop_nil, ite_self]
    exact (List.append_nil _).symm
  | cons f fs ih =>
    obtain ⟨hpc, rest, rfl, hrest⟩ := h
    rw [walk, if_neg hpc]
    by_cases hskip : s.skipFirstFrame
    · -- the first frame is skipped: nothing is looked up
      obtain ⟨s', hwalk, hevents⟩ := ih hrest { s with skipFirstFrame := false }
      rw [if_pos hskip, if_pos hskip]
      exact ⟨s', hwalk, hevents⟩
    · obtain ⟨s', hwalk, hevents⟩ := ih hrest (s.print g pc f)
      rw [if_neg hskip, if_neg hskip]
      refine ⟨s', hwalk, hevents.trans ?_⟩
      have hfalse : (s.print g pc f).skipFirstFrame = false := eq_false_of_ne_true hskip
      rw [hfalse, if_neg Bool.false_ne_true]
      exact List.append_assoc _ _ _

lemma exists_walkLocked {g : SymbolHandler} {env : ThreadEnv} {pcs : List UInt64}
    (h : Delivers g env.pc env.frames pcs) (threadId : UInt32) (s : WalkState) :
    ∃ s', walkLocked g env threadId s = some s' ∧ s'.events = s.events ++
      [.acquireSRWLockExclusive] ++ lookups g (shown env threadId pcs) ++
        [.releaseSRWLockExclusive] := by
  obtain ⟨t, hwalk, hevents⟩ := exists_walk h
    { s with
      skipFirstFrame := decide (env.currentThreadId = threadId)
      events         := s.events ++ [.acquireSRWLockExclusive] }
  rw [walkLocked, hwalk]
  refine ⟨_, rfl, ?_⟩
  simp only [hevents, decide_eq_true_eq, shown]

lemma filter_lookups (g : SymbolHandler) (pcs : List UInt64) :
    (lookups g pcs).filter StackEvent.isLookup = lookups g pcs := by
  rw [List.filter_eq_self, lookups]
  intro e he
  obtain ⟨pc, -, hpair⟩ := List.mem_flatMap.mp he
  rcases List.mem_pair.mp hpair with rfl | rfl
  · rfl
  · rfl

lemma filter_captureEvents (env : ThreadEnv) (threadId : UInt32) :
    (captureEvents env threadId).filter StackEvent.isLookup = [] := by
  rw [captureEvents]
  split_ifs
  all_goals rfl

lemma filter_endEvents (env : ThreadEnv) (threadId : UInt32) :
    (endEvents env threadId).filter StackEvent.isLookup = [] := by
  rw [endEvents]
  split_ifs
  all_goals rfl

/-- The function returns, and looks up the symbols of the frames that are shown. -/
lemma exists_getThreadStack {g : SymbolHandler} {env : ThreadEnv} {threadId : UInt32}
    {pcs : List UInt64} {mem : List UInt8} (hne : mem.length ≠ 0)
    (hstate : g.symbolsState = .initialized) (hopen : env.openThread ≠ none)
    (hcontext : env.currentThreadId = threadId ∨ env.suspendThread ∧ env.getThreadContext)
    (hpcs : Delivers g env.pc env.frames pcs) :
    ∃ r, getThreadStack g env threadId (some mem) = some r ∧
      r.events.filter StackEvent.isLookup = lookups g (shown env threadId pcs) := by
  obtain ⟨h, hopened⟩ := Option.ne_none_iff_exists'.mp hopen
  have hacquired : ∀ s, (captureContext env threadId s).1 = true := by
    intro s
    rw [captureContext]
    by_cases hcurrent : env.currentThreadId = threadId
    · rw [if_pos hcurrent]
    · obtain ⟨hsuspend, hget⟩ := hcontext.resolve_left hcurrent
      rw [if_neg hcurrent, if_neg (not_not.mpr hsuspend), if_neg (not_not.mpr hget)]
  obtain ⟨s, hwalk, hevents⟩ := exists_walkLocked hpcs threadId (captureContext env threadId
    ⟨⟨mem.set 0 0, 0, mem.length⟩, true, false, [.openThread (some h)]⟩).2.2
  rw [getThreadStack]
  simp only [if_neg hne, if_neg (not_not.mpr hstate), hopened, hacquired, not_true_eq_false,
    if_false, hwalk]
  refine ⟨_, rfl, ?_⟩
  rw [finish_events, hevents, captureContext_events]
  simp only [List.filter_append, filter_captureEvents, filter_endEvents, filter_lookups,
    List.append_nil]
  exact List.append_nil _

/-- The text of a call that returns is the lines of the frames that are shown exactly if these
fit. -/
lemma cstr_destination_iff {g : SymbolHandler} {env : ThreadEnv} {threadId : UInt32}
    {pcs : List UInt64} {mem : List UInt8} {r : ThreadStack}
    (hstate : g.symbolsState = .initialized) (hopen : env.openThread ≠ none)
    (hcontext : env.currentThreadId = threadId ∨ env.suspendThread ∧ env.getThreadContext)
    (hpcs : Delivers g env.pc env.frames pcs)
    (hsize : (frameText (shown env threadId env.frames)).length < mem.length)
    (hr : getThreadStack g env threadId (some mem) = some r) :
    (∃ buffer, r.destination = some buffer ∧
        cstr buffer = frameText (shown env threadId env.frames)) ↔
      AllFit (lineCalls (shown env threadId env.frames) true) mem.length := by
  have hlength : (mem.set 0 0).length = mem.length := List.length_set
  have hstart : (Cursor.mk (mem.set 0 0) 0 mem.length).Fits := by
    rw [Cursor.Fits, hlength, Nat.zero_add]
  have hzero : (mem.set 0 0)[0]? = some 0 := List.getElem?_set_self (by omega)
  have hdistinct := distinct_lineCalls (shown env threadId env.frames) true
  rw [← texts_lineCalls] at hsize ⊢
  have hcases := getThreadStack_initialized (Nat.ne_zero_of_lt hsize) hstate hr
  rw [threadCalls_of_delivers hstate hopen hcontext hpcs] at hcases
  have hbuffer : ∃ buffer, r.destination = some buffer ∧
      (buffer = (snprintfFallbackAll (lineCalls (shown env threadId env.frames) true)
        ⟨mem.set 0 0, 0, mem.length⟩).mem ∨
      buffer = storeLast (snprintfFallbackAll (lineCalls (shown env threadId env.frames) true)
        ⟨mem.set 0 0, 0, mem.length⟩)) := by
    rcases hcases with ⟨-, hdestination⟩ | ⟨-, hdestination⟩
    · exact ⟨_, hdestination, Or.inr rfl⟩
    · exact ⟨_, hdestination, Or.inl rfl⟩
  obtain ⟨buffer, hdestination, hstored⟩ := hbuffer
  rw [hdestination]
  have hiff := cstr_eq_texts_iff hstart rfl hstored hzero hdistinct hsize
  rw [← hiff]
  constructor
  · rintro ⟨buffer', heq, htext⟩
    rwa [Option.some.inj heq]
  · exact fun htext => ⟨buffer, rfl, htext⟩

/-- The text is the lines of the frames that are shown exactly if each of them fits as an `int`. -/
theorem listsFrames_iff {g : SymbolHandler} {env : ThreadEnv} {threadId : UInt32}
    {pcs : List UInt64} {mem : List UInt8}
    (hstate : g.symbolsState = .initialized) (hopen : env.openThread ≠ none)
    (hcontext : env.currentThreadId = threadId ∨ env.suspendThread ∧ env.getThreadContext)
    (hpcs : Delivers g env.pc env.frames pcs)
    (hsize : (frameText (shown env threadId env.frames)).length < mem.length) :
    ∃ r, getThreadStack g env threadId (some mem) = some r ∧
      (ListsFrames g env threadId pcs r ↔
        AllFit (lineCalls (shown env threadId env.frames) true) mem.length) := by
  obtain ⟨r, hr, hlookups⟩ :=
    exists_getThreadStack (Nat.ne_zero_of_lt hsize) hstate hopen hcontext hpcs
  refine ⟨r, hr, ?_⟩
  rw [← cstr_destination_iff hstate hopen hcontext hpcs hsize hr]
  exact ⟨fun h => h.text, fun h => ⟨hlookups, h⟩⟩

/-- Below two gigabytes they all do, unless `vsnprintf` fails. -/
lemma allFit_lineCalls_of_lt {fs : List Frame} {room : ℕ} (hfailure : ∀ f ∈ fs, f.failure = none)
    (hroom : room < 2 ^ 31) (h : (frameText fs).length < room) : AllFit (lineCalls fs true) room := by
  have hcalls : ∀ isFirst, ∀ k ∈ lineCalls fs isFirst, k.failure = none := by
    clear h
    induction fs with
    | nil => exact fun _ k hk => absurd hk List.not_mem_nil
    | cons f fs ih =>
      intro isFirst
      rw [List.forall_mem_cons] at hfailure
      rw [lineCalls, List.forall_mem_cons]
      exact ⟨hfailure.1, ih hfailure.2 false⟩
  rw [← texts_lineCalls] at h
  exact allFit_of_lt (hcalls true) hroom h

lemma zero_notMem_main : 0 ∉ ascii "main" := by decide

lemma zero_notMem_mainC : 0 ∉ ascii "main.c" := by decide

/-- A thread that captures its own stack of two frames. -/
def walkedThread : ThreadEnv where
  stateText        := .empty
  currentThreadId  := 1
  openThread       := some 4
  suspendThread    := true
  getThreadContext := true
  lastError        := 0
  failure          := none
  pc               := 16
  frames           :=
    [⟨none, none, none, .function 32⟩,
      ⟨some ⟨ascii "main", zero_notMem_main⟩, some (⟨ascii "main.c", zero_notMem_mainC⟩, 7), none,
        .function 0⟩]
  resumeThread     := true
  closeHandle      := true

lemma delivers_walkedThread : Delivers x64 walkedThread.pc walkedThread.frames [16, 32] :=
  ⟨by decide, [32], rfl, by decide, [], rfl, rfl, rfl⟩

/-- Another thread is suspended, and both of its frames are shown. -/
theorem listsFrames_iff_sample : (shown walkedThread 2 walkedThread.frames).length = 2 ∧ ∃ r,
    getThreadStack x64 walkedThread 2 (some (List.replicate 200 51)) = some r ∧
      ListsFrames x64 walkedThread 2 [16, 32] r := by
  have hshown : shown walkedThread 2 walkedThread.frames = walkedThread.frames :=
    if_neg (by decide)
  have hsize : (frameText (shown walkedThread 2 walkedThread.frames)).length <
      (List.replicate 200 (51 : UInt8)).length := by decide +kernel
  obtain ⟨r, hr, hiff⟩ :=
    listsFrames_iff rfl (by decide) (Or.inr ⟨rfl, rfl⟩) delivers_walkedThread hsize
  have hroom : (List.replicate 200 (51 : UInt8)).length < 2 ^ 31 := by
    rw [List.length_replicate]
    decide
  refine ⟨by rw [hshown]; rfl, r, hr, hiff.mpr (allFit_lineCalls_of_lt ?_ hroom hsize)⟩
  rw [hshown, walkedThread, List.forall_mem_cons, List.forall_mem_singleton]
  exact ⟨rfl, rfl⟩

theorem not_listsFrames_large : ¬ ∀ (g : SymbolHandler) (env : ThreadEnv) (threadId : UInt32)
    (pcs : List UInt64) (mem : List UInt8), g.symbolsState = .initialized →
    env.openThread ≠ none →
    (env.currentThreadId = threadId ∨ env.suspendThread ∧ env.getThreadContext) →
    Delivers g env.pc env.frames pcs → (∀ f ∈ env.frames, f.failure = none) →
    (frameText (shown env threadId env.frames)).length < mem.length →
    ∃ r, getThreadStack g env threadId (some mem) = some r ∧ ListsFrames g env threadId pcs r := by
  intro h
  obtain ⟨mem, hlength⟩ : ∃ mem : List UInt8, mem.length = 2 ^ 31 :=
    ⟨List.replicate (2 ^ 31) 0, List.length_replicate⟩
  have hsize : (frameText (shown walkedThread 1 walkedThread.frames)).length < mem.length := by
    rw [hlength]
    decide +kernel
  have hfailure : ∀ f ∈ walkedThread.frames, f.failure = none := by
    rw [walkedThread, List.forall_mem_cons, List.forall_mem_singleton]
    exact ⟨rfl, rfl⟩
  obtain ⟨r, hr, hlists⟩ := h x64 walkedThread 1 [16, 32] mem rfl (by decide) (Or.inl rfl)
    delivers_walkedThread hfailure hsize
  have hall := (cstr_destination_iff rfl (by decide) (Or.inl rfl) delivers_walkedThread hsize hr).mp
    hlists.text
  have hfits := hall.1.2
  rw [hlength] at hfits
  -- the size is negative as an `int`
  revert hfits
  decide +kernel

end CLogging

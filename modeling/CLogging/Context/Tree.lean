import CLogging.Context.Chain
import CLogging.Lib.Forest

/-!
# The tree of properties

The pair array of a context lists a tree in preorder: a struct pair carries the number of its
fields, and the pairs behind it are those fields.
-/

namespace CLogging

open C Memory Tiling Forest

/-- A property that is not a struct. -/
structure Leaf where
  name  : CString
  type  : LogContextPropertyTypeIf
  value : List UInt8

/-- What a reader sees of a pair: of a struct its name and field count, of any other property its
name, type and value. -/
def LogContext.token (c : LogContext) (p : LogContextPropertyValuePair) : Token CString Leaf :=
  if p.type.getType = .struct then .node p.name ((c.deref p.value).headD 0).toNat
  else .leaf ⟨p.name, p.type, (c.valueOf p).getD []⟩

/-- What a reader sees of all pairs, provided that they were all filled in. -/
def LogContext.tokens (c : LogContext) : Option (List (Token CString Leaf)) :=
  (c.propertyValuePairs.take c.propertyValuePairCount).mapM (Option.map c.token)

/-- The trees a reader finds, provided that the pairs are complete trees. -/
def decodedTrees : LogContextHandle → List (RoseTree CString Leaf)
  | none   => []
  | some c =>
    match c.tokens.bind (decode 1) with
    | some (ts, []) => ts
    | _             => []

/-- What a reader sees of an entry. -/
def Entry.token (e : Entry) : Token CString Leaf :=
  if e.type.getType = .struct then .node e.name (e.value.headD 0).toNat
  else .leaf ⟨e.name, e.type, e.value⟩

lemma headD_memcpy_one (mem : List UInt8) : (memcpy 1 mem).headD 0 = mem.headD 0 := by
  cases mem <;> rfl

/-- An entry is read as what it is. -/
lemma Represents.token_pair {c : LogContext} {es : List Entry} (h : Represents c es) {e : Entry}
    (he : e ∈ es) : c.token e.pair = e.token := by
  have hcopy := h.copy_deref he
  rw [LogContext.token, Entry.token]
  by_cases hstruct : e.type.getType = .struct
  · have htype := (h.wellFormed e he).structs hstruct
    rw [htype] at hcopy
    have hvalue : memcpy 1 (c.deref e.region.start) = e.value := Option.some.inj hcopy
    rw [if_pos (show e.pair.type.getType = .struct from hstruct), if_pos hstruct, ← hvalue,
      headD_memcpy_one]
    rfl
  · have hvalue : c.valueOf e.pair = some e.value := hcopy
    rw [if_neg (show ¬ e.pair.type.getType = .struct from hstruct), if_neg hstruct, hvalue,
      Option.getD_some]
    rfl

lemma mapM_map_some {α β : Type} (f : α → β) (xs : List α) :
    (xs.map some).mapM (Option.map f) = some (xs.map f) := by
  induction xs with
  | nil => rfl
  | cons x xs ih => simp [ih]

lemma Represents.tokens_eq {c : LogContext} {es : List Entry} (h : Represents c es) :
    c.tokens = some (es.map Entry.token) := by
  have hpairs : es.map (some ·.pair) = (es.map Entry.pair).map some := by simp
  have htoken : (es.map Entry.pair).map c.token = es.map Entry.token := by
    rw [List.map_map]
    exact List.map_congr_left fun e he => h.token_pair he
  rw [LogContext.tokens, h.pairs_eq, h.count_eq, List.take_of_length_le (by simp), hpairs,
    mapM_map_some, htoken]

/-- An entry is read in a child as in the parent. -/
lemma Entry.WellFormed.token_inherited {e : Entry} (h : e.WellFormed) :
    e.inherited.token = e.token := by
  rw [Entry.token, Entry.token, h.value_inherited]
  rfl

section

variable [Platform]

/-- The leaves for the properties given to a macro. -/
def suppliedLeaves (fields : List FieldDesc) : List (RoseTree CString Leaf) :=
  (supplied fields).map fun s => .leaf ⟨s.1, s.2.1, s.2.2⟩

/-- The tree a chain stands for. -/
def trees : List Level → List (RoseTree CString Leaf)
  | []      => []
  | l :: ls => [.node (contextName l.fields) (trees ls ++ suppliedLeaves l.fields)]

lemma entriesFrom_token {fields : List FieldDesc} (h : ∀ d ∈ fields, d.Formatted) (start : ℕ) :
    (entriesFrom start (properties fields)).map Entry.token =
      encodeForest (suppliedLeaves fields) := by
  have hps := formatted_properties h
  rw [suppliedLeaves, supplied_eq h, List.map_map]
  generalize properties fields = ps at hps ⊢
  induction ps generalizing start with
  | nil => simp [entriesFrom]
  | cons p ps ih =>
    have hleaf : (p.entry start).token = .leaf ⟨p.name, p.type, p.value⟩ :=
      if_neg (hps p List.mem_cons_self).not_struct
    rw [entriesFrom, List.map_cons, hleaf,
      ih (start + p.size) fun q hq => hps q (List.mem_cons_of_mem _ hq)]
    simp

lemma length_suppliedLeaves {fields : List FieldDesc} (h : ∀ d ∈ fields, d.Formatted) :
    (suppliedLeaves fields).length = propertyCount fields := by
  rw [suppliedLeaves, supplied_eq h, List.length_map, List.length_map, propertyCount_eq]

/-- Every context of the chain is stored, and has at most 255 fields. -/
def StoredChain : List Level → Prop
  | []      => True
  | l :: ls => (∃ c, (l.define (build ls)).Stores c) ∧ fieldCount (build ls) l.fields ≤ 255 ∧
      StoredChain ls

lemma StoredChain.length_trees {ls : List Level} (h : StoredChain ls) :
    (trees ls).length = if (build ls).isSome then 1 else 0 := by
  cases ls with
  | nil => rfl
  | cons l ls =>
    obtain ⟨⟨c, hc⟩, -⟩ := h
    rw [build, hc.1]
    rfl

/-- The entries of a child list the tree of the parent and the new leaves below a struct. -/
lemma childEntries_token {parent : LogContextHandle} {es : List Entry} {fields : List FieldDesc}
    (hwf : ∀ e ∈ es, e.WellFormed) (hf : ∀ d ∈ fields, d.Formatted)
    {ts : List (RoseTree CString Leaf)} (hts : es.map Entry.token = encodeForest ts)
    (hlength : ts.length = if parent.isSome then 1 else 0)
    (hcount : fieldCount parent fields ≤ 255) :
    (childEntries parent es fields).map Entry.token =
      (RoseTree.node (contextName fields) (ts ++ suppliedLeaves fields)).encode := by
  have hinherited : (es.map (·.inherited)).map Entry.token = encodeForest ts := by
    rw [List.map_map, ← hts]
    exact List.map_congr_left fun e he => (hwf e he).token_inherited
  have hbyte : (u8 (fieldCount parent fields)).toNat = (ts ++ suppliedLeaves fields).length := by
    rw [toNat_u8_natCast (by omega), List.length_append, hlength, length_suppliedLeaves hf,
      fieldCount]
  rw [childEntries, List.map_cons, List.map_append, hinherited, entriesFrom_token hf,
    encode_node, ← hbyte, encodeForest_append]
  rfl

/-- The entries of a chain list its tree. -/
lemma entries_token {chain : List Level} (hstored : StoredChain chain) (h : Formats chain) :
    (entries chain).map Entry.token = encodeForest (trees chain) := by
  induction chain with
  | nil => simp [entries, trees]
  | cons l ls ih =>
    obtain ⟨hc, hcount, hls⟩ := hstored
    obtain ⟨hf, -, hformats⟩ := h
    have hwf := (represents_build hformats).wellFormed
    rw [entries, if_pos ((stores_iff_accepts l (build ls)).mp hc),
      childEntries_token hwf hf (ih hls hformats) hls.length_trees hcount]
    simp [trees]

/-- The pairs of a stored context list the tree of its chain. -/
lemma tokens_build {l : Level} {ls : List Level} (hstored : StoredChain (l :: ls))
    (h : Formats (l :: ls)) :
    ∃ c, (l.define (build ls)).Stores c ∧ c.tokens = some (encodeForest (trees (l :: ls))) ∧
      (encodeForest (trees (l :: ls))).length = c.propertyValuePairCount := by
  have hrep := represents_build h
  obtain ⟨⟨c, hc⟩, -⟩ := id hstored
  rw [build, hc.1] at hrep
  have htokens := Represents.tokens_eq hrep
  rw [entries_token hstored h] at htokens
  refine ⟨c, hc, htokens, ?_⟩
  rw [← entries_token hstored h, List.length_map, Represents.count_eq hrep]

lemma decode_trees (l : Level) (ls : List Level) :
    decode 1 (encodeForest (trees (l :: ls))) = some (trees (l :: ls), []) := by
  have hdecode := decode_encodeForest (trees (l :: ls)) []
  rwa [List.append_nil, show (trees (l :: ls)).length = 1 from rfl] at hdecode

lemma decodedTrees_build {chain : List Level} (hstored : StoredChain chain) (h : Formats chain) :
    decodedTrees (build chain) = trees chain := by
  cases chain with
  | nil => rfl
  | cons l ls =>
    obtain ⟨c, hc, htokens, -⟩ := tokens_build hstored h
    rw [build, hc.1, decodedTrees, htokens, Option.bind_some, decode_trees]

/-- The pairs of a context are read as exactly one tree: a struct with the name of the context,
whose fields are the tree of the parent and then the properties given to the macro. -/
def EncodesTree (l : Level) (ls : List Level) : Prop :=
  ∃ c toks, (l.define (build ls)).Stores c ∧ c.tokens = some toks ∧
    toks.length = c.propertyValuePairCount ∧
    decode 1 toks = some
      ([.node (contextName l.fields) (decodedTrees (build ls) ++ suppliedLeaves l.fields)], [])

lemma StoredChain.of_suffix {chain suffix : List Level} (h : StoredChain chain)
    (hs : suffix <:+ chain) : StoredChain suffix := by
  induction chain with
  | nil => rwa [List.suffix_nil.mp hs]
  | cons l ls ih =>
    rcases List.suffix_cons_iff.mp hs with rfl | hs
    · exact h
    · exact ih h.2.2 hs

lemma Formats.of_suffix {chain suffix : List Level} (h : Formats chain)
    (hs : suffix <:+ chain) : Formats suffix := by
  induction chain with
  | nil => rwa [List.suffix_nil.mp hs]
  | cons l ls ih =>
    rcases List.suffix_cons_iff.mp hs with rfl | hs
    · exact h
    · exact ih h.2.2 hs

/-- In a chain of stored contexts in which all formatting succeeds, every context is read as the
tree it was meant to be. -/
theorem encodesTree_of_formats (chain : List Level) (hstored : StoredChain chain)
    (h : Formats chain) (l : Level) (ls : List Level) (hs : l :: ls <:+ chain) :
    EncodesTree l ls := by
  have hstored' := hstored.of_suffix hs
  have h' := h.of_suffix hs
  obtain ⟨c, hc, htokens, hlength⟩ := tokens_build hstored' h'
  refine ⟨c, _, hc, htokens, hlength, ?_⟩
  rw [decode_trees, decodedTrees_build hstored'.2.2 h'.2.2, trees]

end

lemma storedChain_sample : @StoredChain posix [sampleChild, sampleParent] := by
  refine ⟨?_, by decide, ?_, by decide, trivial⟩
  · exact (@stores_iff_accepts posix _ _).mpr ⟨by decide, by decide⟩
  · exact (@stores_iff_accepts posix _ _).mpr rfl

theorem encodesTree_sample : @EncodesTree posix sampleChild [sampleParent] :=
  @encodesTree_of_formats posix [sampleChild, sampleParent] storedChain_sample formats_sample _ _
    (List.suffix_refl _)

/-- A context with a string that cannot be formatted, counted with one byte less than none. -/
def unformattedParent : @Level posix :=
  @Level.mk posix (.localDefine fun _ => 0)
    [@FieldDesc.logContextStringProperty posix ⟨ascii "s", zero_notMem_s⟩ (.failed (-1) minusOne_negative []),
      @FieldDesc.logContextProperty posix .int32 ⟨ascii "x", zero_notMem_x⟩ ⟨[255, 255, 255, 255], rfl⟩]

def numberChild : @Level posix :=
  @Level.mk posix (.localDefine fun _ => 0)
    [@FieldDesc.logContextProperty posix .int32 ⟨ascii "y", zero_notMem_y⟩ ⟨[0, 0, 0, 0], rfl⟩]

/-- The values of the leaves of some trees. -/
def leafValues (ts : List (RoseTree CString Leaf)) : List (List UInt8) :=
  (encodeForest ts).filterMap fun
    | .leaf l   => some l.value
    | .node _ _ => none

/-- In the child of that context the new number overwrites the end of the inherited one. -/
theorem not_encodesTree_unformattedParent :
    @StoredChain posix [numberChild, unformattedParent] ∧
      ¬ @EncodesTree posix numberChild [unformattedParent] := by
  constructor
  · refine ⟨?_, by decide, ?_, by decide, trivial⟩
    · exact (@stores_iff_accepts posix _ _).mpr ⟨by decide, by decide⟩
    · exact (@stores_iff_accepts posix _ _).mpr ⟨by decide, by decide⟩
  · rintro ⟨c, toks, hc, htoks, -, hdecode⟩
    have htrees : decodedTrees (@build posix [numberChild, unformattedParent]) =
        [.node (@contextName posix (@Level.fields posix numberChild))
          (decodedTrees (@build posix [unformattedParent]) ++
            @suppliedLeaves posix (@Level.fields posix numberChild))] := by
      rw [@build.eq_2 posix, hc.1, decodedTrees, htoks, Option.bind_some, hdecode]
    exact absurd (congrArg leafValues htrees) (by decide +kernel)

end CLogging

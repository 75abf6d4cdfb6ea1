import CLogging.Sink.Delivery
import CLogging.Sink.Text
import CLogging.ToString.CutOff
import CLogging.ToString.Values

/-!
# Reading back a line

The values that were given to the macros are read back from the line that the callback gets, given
their types.
-/

namespace CLogging

open C Printf Forest

/-- The names, and the texts of the values. -/
def leafLabels : List (RoseTree CString Leaf) → List LabelTree :=
  relabel CString.bytes fun l => (l.name.bytes, l.text)

/-- The names and the values of the leaves, given their types from left to right. -/
def readValues (types : List TextType) (ts : List LabelTree) : List (List UInt8 × List UInt8) :=
  List.zipWith (fun type l => (l.1, type.read l.2)) types (leaves ts)

/-- The names and the values of the leaves. -/
def namedValues (ts : List (RoseTree CString Leaf)) : List (List UInt8 × List UInt8) :=
  (leaves ts).map fun l => (l.name.bytes, l.value)

lemma readValues_leafLabels {types : List TextType} {ts : List (RoseTree CString Leaf)}
    (h : List.Forall₂ TextType.Holds types (leaves ts)) :
    readValues types (leafLabels ts) = namedValues ts := by
  rw [readValues, leafLabels, leaves_relabel, namedValues]
  generalize leaves ts = ls at h
  induction h with
  | nil => rfl
  | cons hholds _ ih => rw [List.map_cons, List.zipWith_cons_cons, hholds.read_text, ih, List.map_cons]

/-! ### Contexts -/

/-- A pair is seen as it stands in the flat form of a tree. -/
lemma PropertyView.token_eq_relabel (p : PropertyView) :
    p.token = p.flat.relabel PropertyView.name PropertyView.leaf := by
  rw [token, flat]
  split_ifs
  · rfl
  · rfl

/-- The pairs of a context list the trees that it was made from. -/
lemma exists_labels [Platform] {chain : List Level} (hstored : StoredChain chain)
    (h : Formats chain)
    (htypes : ∀ l ∈ leaves (trees chain), ∃ type : TextType, l.type = type.typeIf) :
    (∃ ts, HoldsTrees (fun p => p.leaf.text) ts (build chain) ∧
        labels (fun p => p.leaf.text) ts = leafLabels (trees chain) ∧
        0 ∉ rendering (fun p => p.leaf.text) ts) ∧
      ∀ l ∈ leaves (trees chain), l.type.copy l.value = some l.value := by
  cases chain with
  | nil =>
    refine ⟨⟨[], rfl, ?_, ?_⟩, ?_⟩
    · simp [labels, leafLabels, trees, relabel]
    · simp [rendering]
    · simp [trees, leaves]
  | cons l ls =>
    obtain ⟨c, hc, htokens, hlength⟩ := tokens_build hstored h
    obtain ⟨pairs, rest, hviews, htoken⟩ := exists_views_of_tokens htokens
    obtain ⟨ts, hts, -⟩ := exists_lists_of_tokens htoken
    have hrelabel : relabel PropertyView.name PropertyView.leaf ts = trees (l :: ls) := by
      refine encodeForest_injective ?_
      rw [encodeForest_relabel, ← hts, ← htoken, List.map_map]
      exact List.map_congr_left fun p _ => (p.token_eq_relabel).symm
    have hleaf : ∀ p ∈ pairs, p.type.getType ≠ .struct → p.leaf ∈ leaves (trees (l :: ls)) := by
      intro p hp hstruct
      rw [mem_leaves_iff, ← htoken]
      exact List.mem_map.mpr ⟨p, hp, if_neg hstruct⟩
    have hspec : ∀ p ∈ pairs, p.type.getType ≠ .struct →
        p.type.toString p.memory = snprintf p.leaf.text ∧ 0 ∉ p.leaf.text := by
      intro p hp hstruct
      obtain ⟨type, htype⟩ := htypes p.leaf (hleaf p hp hstruct)
      exact ⟨(TextType.toString_eq htype).1, (TextType.toString_eq htype).2.1⟩
    rw [build, hc.1]
    refine ⟨⟨ts, ⟨pairs, rest, hviews, ?_, hts, fun p hp hstruct => (hspec p hp hstruct).1⟩, ?_,
      zero_notMem_rendering hts fun p hp hstruct => (hspec p hp hstruct).2⟩, fun l' hl' => ?_⟩
    · rw [← hlength, ← htoken, List.length_map]
    · -- the labels are the names and the texts of the properties
      rw [labels, leafLabels, ← hrelabel, relabel_relabel]
      rfl
    · obtain ⟨type, htype⟩ := htypes l' hl'
      rw [mem_leaves_iff, ← htoken] at hl'
      obtain ⟨p, hp, hpl⟩ := List.mem_map.mp hl'
      have hstruct := PropertyView.token_eq_leaf hpl
      obtain rfl : p.leaf = l' := Token.leaf.inj ((if_neg hstruct).symm.trans hpl)
      exact (TextType.toString_eq htype).2.2

/-! ### Lines -/

/-- A value of the type may be given to a macro: 0 or 1 if it is a truth value. -/
def TextType.Takes (type : TextType) (l : Leaf) : Prop :=
  l.type = type.typeIf ∧ (type = .scalar .bool → l.value = [0] ∨ l.value = [1])

lemma TextType.exists_takes {types : List TextType} {ls : List Leaf}
    (h : List.Forall₂ TextType.Takes types ls) :
    ∀ l ∈ ls, ∃ type : TextType, l.type = type.typeIf := by
  induction h with
  | nil => exact fun l hl => absurd hl List.not_mem_nil
  | cons htakes _ ih => exact List.forall_mem_cons.mpr ⟨⟨_, htakes.1⟩, ih⟩

lemma TextType.holds_of_takes {types : List TextType} {ls : List Leaf}
    (h : List.Forall₂ TextType.Takes types ls)
    (hcopy : ∀ l ∈ ls, l.type.copy l.value = some l.value) :
    List.Forall₂ TextType.Holds types ls := by
  induction h with
  | nil => exact .nil
  | cons htakes _ ih =>
    rw [List.forall_mem_cons] at hcopy
    exact .cons ⟨htakes.1, hcopy.1, htakes.2⟩ (ih hcopy.2)

/-- The text of the properties between the header and the message. -/
def labelsText (ts : List (RoseTree CString Leaf)) : List UInt8 := spaced (brackets (leafLabels ts))

/-- The properties in a line with that header and message: what stands between them, with a blank
in front of the message. -/
def readLine (header message line : List UInt8) : Option (List LabelTree) :=
  readText ((line.drop header.length).take (line.length - header.length - (message.length + 1)))

lemma readLine_eq (header context message : List UInt8) :
    readLine header message (header ++ context ++ 32 :: message) = readText context := by
  have hlength : (header ++ context ++ 32 :: message).length - header.length -
      (message.length + 1) = context.length := by
    simp only [List.length_append, List.length_cons]
    omega
  rw [readLine, hlength, List.append_assoc, List.drop_left, List.take_left]

/-- If no call fails, the callback gets a line with the properties between the header and the
message. -/
lemma callback_line_labels [Platform] {chain : List Level} (hstored : StoredChain chain)
    (h : Formats chain)
    (htypes : ∀ l ∈ leaves (trees chain), ∃ type : TextType, l.type = type.typeIf)
    {env : PrintEnv} {garbage : ℕ → UInt8} {maxLevel level : LogLevel} {args : LogArguments}
    (hnone : NoFailure (contextLog env garbage (headerText args) (build chain)))
    {temp : List UInt8}
    (hemits : CallbackEmits (logSinkCallbackLog env garbage maxLevel level (build chain) args)
      temp) :
    0 ∉ labelsText (trees chain) ∧ ∃ message, args.message = some message ∧
      HoldsLine (headerText args ++ labelsText (trees chain) ++ 32 :: message) temp := by
  obtain ⟨⟨ts, hholds, hlabels, hzero⟩, -⟩ := exists_labels hstored h htypes
  obtain ⟨message, hmessage, -, hformat, -⟩ := callbackEmits_inv hemits
  have hline := holdsLine_of_formatLine hholds (Or.inl hnone) hformat
  rw [fullText, rendering_eq_spaced, hlabels] at hline
  rw [rendering_eq_spaced, hlabels] at hzero
  exact ⟨hzero, message, hmessage, hline⟩

section

attribute [local instance] posix

lemma trees_sample : trees [sampleChild, sampleParent] =
    [.node ⟨ascii "child", by decide⟩
      [.node CString.empty [.leaf ⟨⟨ascii "s", zero_notMem_s⟩, asciiCharPtr, ascii "ab" ++ [0]⟩],
        .leaf ⟨⟨ascii "x", zero_notMem_x⟩, int32, [7, 0, 0, 0]⟩]] := rfl

end

end CLogging

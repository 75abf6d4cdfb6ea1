import CLogging.ToString.Words

/-!
# Renderings that are cut off

A rendering that does not fit in the buffer is cut off. What is left of the rendering of a context is
then not read as a complete one.
-/

namespace CLogging

open C Printf Forest

/-- The words in front, and what is left of the next one. -/
lemma exists_take_spaced {ws : List LabelWord} {n : ℕ} (h : n < (spaced ws).length) :
    ∃ before w after tail, ws = before ++ w :: after ∧
      (spaced ws).take n = spaced before ++ tail.flatMap (32 :: ·) ∧
      (tail = [] ∨ ∃ part, tail = [part] ∧ part <+: LabelWord.text w ∧
        part ≠ LabelWord.text w) := by
  induction ws generalizing n with
  | nil => exact absurd h (Nat.not_lt_zero n)
  | cons w ws ih =>
    have hcons : ∀ ws, spaced (w :: ws) = 32 :: (LabelWord.text w ++ spaced ws) := fun _ => rfl
    rw [hcons, List.length_cons, List.length_append] at h
    cases n with
    | zero => exact ⟨[], w, ws, [], rfl, by simp [spaced], Or.inl rfl⟩
    | succ n =>
      by_cases hn : n < (LabelWord.text w).length
      · -- the cut is in this word: what is left of it is a part
        refine ⟨[], w, ws, [(LabelWord.text w).take n], rfl, ?_, Or.inr ⟨_, rfl,
          List.take_prefix _ _, fun heq => ?_⟩⟩
        · rw [hcons, List.take_succ_cons, List.take_append_of_le_length hn.le]
          simp [spaced]
        · have hlength := congrArg List.length heq
          rw [List.length_take] at hlength
          omega
      · -- this word is whole, and the cut is in one behind it
        obtain ⟨m, rfl⟩ := Nat.exists_eq_add_of_le (not_lt.mp hn)
        obtain ⟨before, w', after, tail, rfl, htake, htail⟩ := ih (n := m) (by omega)
        refine ⟨w :: before, w', after, tail, rfl, ?_, htail⟩
        rw [hcons, List.take_succ_cons, List.take_length_add_append, htake, hcons,
          List.cons_append, List.append_assoc]

/-- What is left of a word does not close a struct, unless its name starts like that. -/
lemma depth_of_readWord_part {w b : LabelWord} {part : List UInt8}
    (hname : w = .closing ∨ (LabelWord.text w).head? ≠ some 125) (hlead : part <+: LabelWord.text w)
    (hne : part ≠ LabelWord.text w) (h : readWord part = some b) : 0 ≤ Word.depth b := by
  cases b with
  | leaf l => exact le_refl _
  | opening name => exact Int.one_nonneg
  | closing =>
    obtain ⟨-, hpart⟩ := readWord_eq_some_iff.mp h
    obtain rfl : ascii "\x7d" = part := hpart
    rcases hname with rfl | hhead
    · exact absurd rfl hne
    · obtain ⟨rest, hrest⟩ := hlead
      rw [← hrest] at hhead
      exact absurd rfl hhead

/-- A rendering of a struct that is cut off behind its first word is not read as anything. -/
theorem readText_cut_off {name : List UInt8} {cs : List LabelTree}
    (hlegible : Legible [.node name cs])
    (hnames : ∀ w ∈ brackets [.node name cs], w = .closing ∨ (LabelWord.text w).head? ≠ some 125)
    {n : ℕ} (hfirst : (LabelWord.text (.opening name)).length < n)
    (hcut : n < (spaced (brackets [.node name cs])).length) :
    readText ((spaced (brackets [.node name cs])).take n) = none := by
  obtain ⟨before, w, after, tail, hwords, htake, htail⟩ := exists_take_spaced hcut
  have hbefore : (brackets [.node name cs]).take before.length = before := by
    rw [hwords, List.take_left]
  have hlt : before.length < (brackets [.node name cs]).length := by
    rw [hwords, List.length_append, List.length_cons]
    omega
  have hpos : 0 < before.length := by
    by_contra hzero
    obtain rfl := List.length_eq_zero_iff.mp (Nat.eq_zero_of_not_pos hzero)
    rw [brackets, List.nil_append] at hwords
    obtain rfl : .opening name = w := (List.cons.inj hwords).1
    have hlength := congrArg List.length htake
    rw [List.length_take_of_le hcut.le] at hlength
    rcases htail with rfl | ⟨part, rfl, hlead, hne⟩
    · rw [hlength] at hfirst
      exact Nat.not_lt_zero _ hfirst
    · have hpart := hlead.length_le
      have hne' : part.length ≠ (LabelWord.text (.opening name)).length :=
        fun heq => hne (hlead.eq_of_length heq)
      simp [spaced] at hlength
      omega
  have hlegible' : ∀ w ∈ before, 32 ∉ LabelWord.text w ∧ LabelWord.Readable w :=
    fun w' hw' => hlegible w' (hwords ▸ List.mem_append_left _ hw')
  have hmem : w ∈ brackets [.node name cs] :=
    hwords ▸ List.mem_append_right _ List.mem_cons_self
  rw [htake]
  rcases htail with rfl | ⟨part, rfl, hlead, hne⟩
  · -- the cut is between two words: some struct stays open
    rw [readText_spaced hlegible' (List.forall_mem_nil _), List.mapM_nil]
    have hdepth : 0 ≤ Forest.depth ([] : List LabelWord) := le_refl _
    have hnone := unbracket_cut_off name cs hpos hlt hdepth
    rwa [hbefore] at hnone
  · -- the cut is in a word, and what is left of it
    have hblank : ∀ p ∈ [part], 32 ∉ p := by
      intro p hp hmem'
      rw [List.mem_singleton.mp hp] at hmem'
      exact (hlegible w hmem).1 (hlead.subset hmem')
    rw [readText_spaced hlegible' hblank]
    cases hread : readWord part with
    | none =>
      rw [List.mapM_cons, hread]
      rfl
    | some b =>
      have hdepth : 0 ≤ Forest.depth [b] := by
        rw [depth_cons, depth_nil, add_zero]
        exact depth_of_readWord_part (hnames w hmem) hlead hne hread
      have hnone := unbracket_cut_off name cs hpos hlt hdepth
      rw [hbefore] at hnone
      rw [List.mapM_cons, hread]
      exact hnone

/-! ### `log_context_property_to_string` -/

/-- The texts of the values hold no terminator. -/
def NoTerminator (text : PropertyView → List UInt8) (pairs : List PropertyView) : Prop :=
  ∀ p ∈ pairs, p.type.getType ≠ .struct → 0 ∉ text p

lemma zero_notMem_rendering {text : PropertyView → List UInt8} :
    ∀ {ts : List PropertyTree} {pairs : List PropertyView}, Lists pairs ts →
      NoTerminator text pairs → 0 ∉ rendering text ts
  | [], _, _, _ => by
    rw [rendering]
    exact List.not_mem_nil
  | .leaf p :: ts, _, hlists, htext => by
    obtain ⟨rest, rfl, hleaf, hrest⟩ := lists_leaf hlists
    have hvalue := htext p List.mem_cons_self hleaf
    have hbehind := zero_notMem_rendering hrest fun q hq => htext q (List.mem_cons_of_mem _ hq)
    rw [← flatten_pieces, pieces, List.flatten_cons, List.flatten_cons, flatten_pieces,
      List.mem_append, List.mem_append, not_or, not_or]
    exact ⟨zero_notMem_leafNameText p.name, hvalue, hbehind⟩
  | .node p cs :: ts, _, hlists, htext => by
    obtain ⟨inside, behind, rfl, -, -, hinside, hbehind⟩ := lists_node hlists
    have hcs := zero_notMem_rendering hinside fun q hq =>
      htext q (List.mem_cons_of_mem _ (List.mem_append_left _ hq))
    have hts := zero_notMem_rendering hbehind fun q hq =>
      htext q (List.mem_cons_of_mem _ (List.mem_append_right _ hq))
    rw [← flatten_pieces, pieces, List.flatten_cons, List.flatten_append, List.flatten_cons,
      flatten_pieces, flatten_pieces, List.mem_append, List.mem_append, List.mem_append, not_or,
      not_or, not_or]
    exact ⟨zero_notMem_structOpenText p.name, hcs, by decide, hts⟩

section

variable {ts : List PropertyTree} {pairs : List PropertyView} {text : PropertyView → List UInt8}

/-- If no call fails, the C string in the buffer is what fits of the rendering. -/
lemma cstr_of_toString (env : PrintEnv) (hne : ts ≠ []) (hlists : Lists pairs ts)
    (htext : PrintsAs text pairs) (hzero : NoTerminator text pairs) (mem : List UInt8)
    {bufferSize : ℕ} (hpos : 0 < bufferSize) (hmax : bufferSize < 2 ^ 31)
    (hmem : bufferSize ≤ mem.length)
    (hnone : ∀ e ∈ toStringLog env ⟨mem, 0, bufferSize⟩ pairs pairs.length, ¬ e.Fails) :
    ∃ used mem', logContextPropertyToString env ⟨mem, 0, bufferSize⟩ pairs pairs.length =
        some (used, mem') ∧ cstr mem' = (rendering text ts).take (bufferSize - 1) := by
  have hint : 0 ≤ int (bufferSize : ℤ) := by
    rw [int_natCast hmax]
    exact Int.natCast_nonneg _
  obtain ⟨s, hrun, hlevel⟩ := exists_run env hlists [] ⟨mem, 0, bufferSize⟩ hint
  obtain ⟨hout, hlog⟩ := toString_eq env ⟨mem, 0, bufferSize⟩ pairs (hlists.not_refused hne hpos)
  rw [List.append_nil] at hrun
  rw [hrun] at hout hlog
  rw [hlog] at hnone
  obtain ⟨hcursor, -⟩ := hlevel.prints hmax hnone
  have hholds : Holds bufferSize (rendering text ts) s.cursor := by
    rw [hcursor, writers_eq_map_pieces hlists htext]
    exact holds_of_pieces hne hpos hmem
  obtain ⟨rest, hrest⟩ := hholds.mem_eq
  refine ⟨s.result, s.cursor.mem, hout, ?_⟩
  rw [hrest, cstr_append_zero]
  exact fun h => zero_notMem_rendering hlists hzero (List.mem_of_mem_take h)

/-- If no call fails, the names and the texts of the values are read back from the buffer exactly if
the rendering fits in it and they are legible. -/
theorem toString_reads_back (env : PrintEnv) (hne : ts ≠ []) (hlists : Lists pairs ts)
    (htext : PrintsAs text pairs) (hzero : NoTerminator text pairs) (mem : List UInt8)
    {bufferSize : ℕ} (hpos : 0 < bufferSize) (hmax : bufferSize < 2 ^ 31)
    (hmem : bufferSize ≤ mem.length)
    (hnone : ∀ e ∈ toStringLog env ⟨mem, 0, bufferSize⟩ pairs pairs.length, ¬ e.Fails) :
    ∃ used mem', logContextPropertyToString env ⟨mem, 0, bufferSize⟩ pairs pairs.length =
        some (used, mem') ∧
      (readText (cstr mem') = some (labels text ts) ↔
        (rendering text ts).length < bufferSize ∧ Legible (labels text ts)) := by
  obtain ⟨used, mem', hrun, hcstr⟩ :=
    cstr_of_toString env hne hlists htext hzero mem hpos hmax hmem hnone
  refine ⟨used, mem', hrun, ?_⟩
  rw [hcstr, readText_eq_some_iff, ← rendering_eq_spaced, and_comm]
  refine and_congr_left fun _ => ?_
  rw [eq_comm, List.take_eq_self_iff]
  omega

lemma noTerminator_numberText (pairs : List PropertyView) : NoTerminator numberText pairs := by
  intro p _ _
  rw [numberText, printSigned]
  exact zero_notMem_decimal _

lemma legible_numberTrees : Legible (labels numberText numberTrees) := by
  simp only [Legible, labels, numberTrees, relabel, brackets]
  decide +kernel

theorem toString_reads_back_sample : ∃ used mem',
    logContextPropertyToString (fun _ _ => none) ⟨List.replicate 20 1, 0, 20⟩ numberPairs 3 =
      some (used, mem') ∧
    readText (cstr mem') = some (labels numberText numberTrees) := by
  obtain ⟨used, mem', hrun, hread⟩ := toString_reads_back (fun _ _ => none) (by decide)
    lists_numberPairs printsAs_numberText (noTerminator_numberText _) (List.replicate 20 1)
    (by decide : 0 < 20) (by decide) (by decide) (by decide +kernel)
  refine ⟨used, mem', hrun, hread.mpr ⟨?_, legible_numberTrees⟩⟩
  rw [rendering_numberTrees]
  decide

/-- A struct with a number in it. -/
def oneNumberTree : List PropertyTree :=
  [.node ⟨⟨ascii "s", zero_notMem_s⟩, struct, [1]⟩ [.leaf ⟨⟨ascii "x", zero_notMem_x⟩, int8, [5]⟩]]

def oneNumberPairs : List PropertyView :=
  [⟨⟨ascii "s", zero_notMem_s⟩, struct, [1]⟩, ⟨⟨ascii "x", zero_notMem_x⟩, int8, [5]⟩]

end

end CLogging

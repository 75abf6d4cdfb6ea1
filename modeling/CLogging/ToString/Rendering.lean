import CLogging.Lib.Terminator
import CLogging.ToString.LevelTurns

/-!
# The rendering of a forest

When no call fails, `log_context_property_to_string` leaves as much of the rendering of the trees in
the buffer as fits.
-/

namespace CLogging

open C Printf Forest

/-- The rendering of some trees, given the texts of the values: `" name=value"` for a leaf, and for
a struct `" name=\x7b"` or `" \x7b"`, the rendering of its fields, and `" \x7d"`. -/
def rendering (text : PropertyView → List UInt8) : List PropertyTree → List UInt8
  | []               => []
  | .leaf p :: ts    => ascii " " ++ p.name.bytes ++ ascii "=" ++ text p ++ rendering text ts
  | .node p cs :: ts =>
    (if p.name.bytes = [] then ascii " \x7b" else ascii " " ++ p.name.bytes ++ ascii "=\x7b") ++
      rendering text cs ++ ascii " \x7d" ++ rendering text ts

/-- The types of the leaves behave like `snprintf` with some texts. -/
def PrintsAs (text : PropertyView → List UInt8) (pairs : List PropertyView) : Prop :=
  ∀ p ∈ pairs, p.type.getType ≠ .struct → p.type.toString p.memory = snprintf (text p)

/-- The texts that are printed one by one. -/
def pieces (text : PropertyView → List UInt8) : List PropertyTree → List (List UInt8)
  | []               => []
  | .leaf p :: ts    => leafNameText p.name :: text p :: pieces text ts
  | .node p cs :: ts => structOpenText p.name :: (pieces text cs ++ structCloseText :: pieces text ts)

lemma flatten_pieces (text : PropertyView → List UInt8) :
    ∀ ts : List PropertyTree, (pieces text ts).flatten = rendering text ts
  | [] => by simp [pieces, rendering]
  | .leaf p :: ts => by
    simp [pieces, rendering, leafNameText, flatten_pieces text ts]
  | .node p cs :: ts => by
    have hname : structOpenText p.name =
        if p.name.bytes = [] then ascii " \x7b" else ascii " " ++ p.name.bytes ++ ascii "=\x7b" := by
      rw [structOpenText]
      split_ifs with hnil
      · rw [hnil]
        rfl
      · rw [List.append_assoc, List.append_assoc, List.append_assoc]
        rfl
    simp [pieces, rendering, hname, structCloseText, flatten_pieces text cs,
      flatten_pieces text ts]

lemma writers_eq_map_pieces {text : PropertyView → List UInt8} :
    ∀ {ts : List PropertyTree} {pairs : List PropertyView}, Lists pairs ts → PrintsAs text pairs →
      writers ts = (pieces text ts).map snprintf
  | [], _, _, _ => by rw [writers, pieces, List.map_nil]
  | .leaf p :: ts, _, hlists, htext => by
    obtain ⟨rest, rfl, hleaf, hrest⟩ := lists_leaf hlists
    have hbehind := writers_eq_map_pieces hrest fun q hq => htext q (List.mem_cons_of_mem _ hq)
    rw [writers, pieces, List.map_cons, List.map_cons, htext p List.mem_cons_self hleaf, hbehind]
  | .node p cs :: ts, _, hlists, htext => by
    obtain ⟨inside, behind, rfl, -, -, hinside, hbehind⟩ := lists_node hlists
    have hcs := writers_eq_map_pieces hinside fun q hq =>
      htext q (List.mem_cons_of_mem _ (List.mem_append_left _ hq))
    have hts := writers_eq_map_pieces hbehind fun q hq =>
      htext q (List.mem_cons_of_mem _ (List.mem_append_right _ hq))
    rw [writers, pieces, List.map_cons, List.map_append, List.map_cons, hcs, hts]

lemma Lists.not_refused {pairs : List PropertyView} {ts : List PropertyTree}
    (h : Lists pairs ts) (hne : ts ≠ []) {bufferSize : ℕ} (hpos : 0 < bufferSize) :
    ¬ (bufferSize = 0 ∨ pairs.length = 0) := by
  have hlength := length_le_encodeForest ts
  have hne' := List.length_pos_iff.mpr hne
  rw [h.length_eq]
  omega

/-- The run of `log_n_properties` over an array that starts with trees. -/
lemma exists_run (env : PrintEnv) {ts : List PropertyTree} {pairs : List PropertyView}
    (hlists : Lists pairs ts) (rest : List PropertyView) (buffer : Cursor)
    (hint : 0 ≤ int buffer.room) :
    ∃ s, logNProperties env buffer (pairs ++ rest) pairs.length 0 = some s ∧
      LevelRun ts 0 ⟨buffer, 0, 0, 0, []⟩ s s.log := by
  obtain ⟨s, events, hrun, hlevel⟩ := runsLevel env ts pairs rest pairs.length 0 0
    ⟨buffer, 0, 0, 0, []⟩ hlists (fun _ => by rw [hlists.length_eq, Nat.zero_add])
    (fun h => absurd h (Nat.lt_irrefl 0)) hint (Int.neg_nonpos_of_nonneg Int.one_nonneg)
  have hlog : s.log = events := by rw [hlevel.log_eq, List.nil_append]
  exact ⟨s, hrun, hlog.symm ▸ hlevel⟩

/-- What is printed behind a text that the buffer holds already. -/
lemma holds_of_levelRun {text : PropertyView → List UInt8} {ts : List PropertyTree}
    {pairs : List PropertyView} (hlists : Lists pairs ts) (htext : PrintsAs text pairs)
    {size : ℕ} {before : List UInt8} {buffer : Cursor} (hbuffer : Holds size before buffer)
    (hroom : buffer.room < 2 ^ 31) {s : PrintState} {events : List PrintEvent}
    (hrun : LevelRun ts 0 ⟨buffer, 0, 0, 0, []⟩ s events) (hnone : ∀ e ∈ events, ¬ e.Fails) :
    Holds size (before ++ rendering text ts) s.cursor := by
  obtain ⟨hcursor, -⟩ := hrun.prints hroom hnone
  rw [hcursor, writers_eq_map_pieces hlists htext, ← flatten_pieces text]
  exact hbuffer.emitAll _

/-- What is printed into a buffer that may hold anything. -/
lemma holds_of_pieces {text : PropertyView → List UInt8} {ts : List PropertyTree} (hne : ts ≠ [])
    {mem : List UInt8} {size : ℕ} (hpos : 0 < size) (hsize : size ≤ mem.length) :
    Holds size (rendering text ts)
      ((Cursor.mk mem 0 size).emitAll ((pieces text ts).map snprintf)) := by
  have hpieces : ∃ t rest, pieces text ts = t :: rest := by
    match ts with
    | [] => exact absurd rfl hne
    | .leaf p :: ts => exact ⟨_, _, by rw [pieces]⟩
    | .node p cs :: ts => exact ⟨_, _, by rw [pieces]⟩
  obtain ⟨t, rest, ht⟩ := hpieces
  rw [← flatten_pieces, ht, List.map_cons, Cursor.emitAll_cons, List.flatten_cons]
  exact (holds_first mem t hpos hsize).emitAll rest

/-- If no call fails, every pair is read once and in order, and the buffer holds as much of the
rendering as fits, behind which nothing is stored. -/
theorem toString_renders (env : PrintEnv) {ts : List PropertyTree} (hne : ts ≠ [])
    {pairs : List PropertyView} (hlists : Lists pairs ts) {text : PropertyView → List UInt8}
    (htext : PrintsAs text pairs) (mem : List UInt8) {bufferSize : ℕ} (hpos : 0 < bufferSize)
    (hmax : bufferSize < 2 ^ 31) (hmem : bufferSize ≤ mem.length)
    (hnone : ∀ e ∈ toStringLog env ⟨mem, 0, bufferSize⟩ pairs pairs.length, ¬ e.Fails) :
    readIndices (toStringLog env ⟨mem, 0, bufferSize⟩ pairs pairs.length) =
        List.range pairs.length ∧
      ∃ mem' rest, logContextPropertyToString env ⟨mem, 0, bufferSize⟩ pairs pairs.length =
          some (((min (rendering text ts).length bufferSize : ℕ) : ℤ), mem') ∧
        mem' = (rendering text ts).take (bufferSize - 1) ++ 0 :: rest ∧
        mem'.length = mem.length ∧ mem'.drop bufferSize = mem.drop bufferSize := by
  have hint : 0 ≤ int (bufferSize : ℤ) := by
    rw [int_natCast hmax]
    exact Int.natCast_nonneg _
  obtain ⟨s, hrun, hlevel⟩ := exists_run env hlists [] ⟨mem, 0, bufferSize⟩ hint
  rw [List.append_nil] at hrun
  obtain ⟨hout, hlog⟩ := toString_eq env ⟨mem, 0, bufferSize⟩ pairs
    (hlists.not_refused hne hpos)
  rw [hrun, Option.map_some] at hout hlog
  rw [hlog, Option.getD_some] at hnone ⊢
  obtain ⟨hcursor, hresult, hreads⟩ := hlevel.prints hmax hnone
  rw [writers_eq_map_pieces hlists htext] at hcursor
  have hholds : Holds bufferSize (rendering text ts) s.cursor := by
    rw [hcursor]
    exact holds_of_pieces hne hpos hmem
  obtain ⟨rest, hrest⟩ := hholds.mem_eq
  refine ⟨?_, s.cursor.mem, rest, ?_, hrest, ?_, ?_⟩
  · rw [hreads, hlists.length_eq, List.range_eq_range']
  · have hroom := hholds.room_eq
    have hused : s.result = ((min (rendering text ts).length bufferSize : ℕ) : ℤ) := by
      rw [hresult]
      simp only [zero_add]
      omega
    rw [hout, hused]
  · rw [hcursor, Cursor.emitAll_mem_length]
  · rw [hcursor]
    refine drop_mem_emitAll (fun w hw => ?_) (le_of_eq (Nat.zero_add _))
    obtain ⟨t, -, rfl⟩ := List.mem_map.mp hw
    exact bounded_snprintf t

/-- A struct with a number in it, and a number behind it. -/
def numberTrees : List PropertyTree :=
  [.node ⟨⟨ascii "s", zero_notMem_s⟩, struct, [1]⟩ [.leaf ⟨⟨ascii "x", zero_notMem_x⟩, int8, [5]⟩],
    .leaf ⟨⟨ascii "y", zero_notMem_y⟩, int8, [255]⟩]

def numberPairs : List PropertyView :=
  [⟨⟨ascii "s", zero_notMem_s⟩, struct, [1]⟩, ⟨⟨ascii "x", zero_notMem_x⟩, int8, [5]⟩,
    ⟨⟨ascii "y", zero_notMem_y⟩, int8, [255]⟩]

lemma lists_numberPairs : Lists numberPairs numberTrees := rfl

/-- The text of an `int8_t`. -/
def numberText (p : PropertyView) : List UInt8 := printSigned 8 (leNat (memcpy 1 p.memory))

lemma printsAs_numberText : PrintsAs numberText numberPairs := by
  intro p hp hleaf
  simp only [numberPairs, List.mem_cons, List.not_mem_nil, or_false] at hp
  rcases hp with rfl | rfl | rfl
  · exact absurd rfl hleaf
  · rfl
  · rfl

lemma rendering_numberTrees :
    rendering numberText numberTrees = ascii " s=\x7b x=5 \x7d y=-1" := by
  simp only [numberTrees, rendering]
  decide +kernel

theorem toString_renders_sample : ∃ mem' rest,
    logContextPropertyToString (fun _ _ => none) ⟨List.replicate 9 1, 0, 8⟩ numberPairs 3 =
      some (8, mem') ∧
    mem' = ascii " s=\x7b x=" ++ 0 :: rest := by
  obtain ⟨-, mem', rest, hrun, hmem, -, -⟩ := toString_renders (fun _ _ => none) (by decide)
    lists_numberPairs printsAs_numberText (List.replicate 9 1) (by decide : 0 < 8) (by decide)
    (by decide) (by decide +kernel)
  rw [rendering_numberTrees] at hrun hmem
  exact ⟨mem', rest, hrun, hmem⟩

end CLogging

import CLogging.Lib.Brackets
import CLogging.Lib.Separated
import CLogging.ToString.Rendering

/-!
# Reading a rendering

A rendering consists of words with a blank in front of each. From the words the names and the texts
of the values are read back, provided that these can be told apart.
-/

namespace CLogging

open C Printf Forest

/-- Of a struct its name, and of any other property its name and the text of its value. -/
abbrev LabelTree := RoseTree (List UInt8) (List UInt8 × List UInt8)

abbrev LabelWord := Word (List UInt8) (List UInt8 × List UInt8)

/-- The names, and the texts of the values. -/
def labels (text : PropertyView → List UInt8) : List PropertyTree → List LabelTree :=
  relabel (fun p => p.name.bytes) fun p => (p.name.bytes, text p)

/-- How a word is written. -/
def LabelWord.text : LabelWord → List UInt8
  | .leaf (name, value) => name ++ 61 :: value
  | .opening name       => if name = [] then ascii "\x7b" else name ++ 61 :: ascii "\x7b"
  | .closing            => ascii "\x7d"

/-- Words with a blank in front of each. -/
def spaced (ws : List LabelWord) : List UInt8 := ws.flatMap fun w => 32 :: LabelWord.text w

/-- A rendering is the words of its trees. -/
lemma rendering_eq_spaced (text : PropertyView → List UInt8) :
    ∀ ts : List PropertyTree, rendering text ts = spaced (brackets (labels text ts))
  | []               => by simp [rendering, labels, relabel, brackets, spaced]
  | .leaf p :: ts    => by
    rw [rendering, rendering_eq_spaced text ts]
    simp [labels, relabel, brackets, spaced, LabelWord.text, ascii]
  | .node p cs :: ts => by
    rw [rendering, rendering_eq_spaced text cs, rendering_eq_spaced text ts]
    simp only [labels, relabel, brackets, spaced, List.flatMap_cons, List.flatMap_append, LabelWord.text]
    split_ifs <;> simp [ascii]

/-- The word reads as what it is: the name ends at the first `'='`, and the value does not look like
the beginning of a struct. -/
def LabelWord.Readable : LabelWord → Prop
  | .leaf (name, value) => 61 ∉ name ∧ (value = ascii "\x7b" → name = [])
  | .opening name       => 61 ∉ name
  | .closing            => True

instance : DecidablePred LabelWord.Readable
  | .leaf (name, value) => inferInstanceAs (Decidable (61 ∉ name ∧ (value = ascii "\x7b" → name = [])))
  | .opening name       => inferInstanceAs (Decidable (61 ∉ name))
  | .closing            => inferInstanceAs (Decidable True)

/-- Read a word. -/
def readWord (w : List UInt8) : Option LabelWord :=
  if w = ascii "\x7b" then some (.opening [])
  else if w = ascii "\x7d" then some .closing
  else match w.dropWhile (· ≠ 61) with
    | []         => none
    | _ :: value =>
      if value = ascii "\x7b" ∧ w.takeWhile (· ≠ 61) ≠ [] then
        some (.opening (w.takeWhile (· ≠ 61)))
      else some (.leaf (w.takeWhile (· ≠ 61), value))

lemma takeWhile_name {name : List UInt8} (h : 61 ∉ name) (value : List UInt8) :
    (name ++ 61 :: value).takeWhile (· ≠ 61) = name ∧
      (name ++ 61 :: value).dropWhile (· ≠ 61) = 61 :: value := by
  have hname : ∀ b ∈ name, (decide (b ≠ 61)) = true := by
    intro b hb
    rw [decide_eq_true_eq]
    rintro rfl
    exact h hb
  rw [List.takeWhile_append_of_pos hname, List.dropWhile_append_of_pos hname]
  simp

/-- A word with an `'='` is not a single brace. -/
lemma ne_brace {w : List UInt8} (h : 61 ∈ w) : w ≠ ascii "\x7b" ∧ w ≠ ascii "\x7d" := by
  constructor
  · rintro rfl
    exact absurd h (by decide)
  · rintro rfl
    exact absurd h (by decide)

/-- A word that is written is read back, and no other words are read. -/
lemma readWord_eq_some_iff {w : List UInt8} {b : LabelWord} :
    readWord w = some b ↔ b.Readable ∧ b.text = w := by
  constructor
  · intro h
    rw [readWord] at h
    split_ifs at h with hopen hclose
    · obtain rfl := Option.some.inj h
      exact ⟨List.not_mem_nil, hopen.symm⟩
    · obtain rfl := Option.some.inj h
      exact ⟨trivial, hclose.symm⟩
    have hsplit := List.takeWhile_append_dropWhile (p := (· ≠ (61 : UInt8))) (l := w)
    have hname : 61 ∉ w.takeWhile (· ≠ 61) := fun hmem => by
      simpa using List.mem_takeWhile_imp hmem
    cases hdrop : w.dropWhile (· ≠ 61) with
    | nil =>
      rw [hdrop] at h
      cases h
    | cons sep value =>
      have hsep : sep = 61 := by
        have hhead := List.head_dropWhile_not (· ≠ (61 : UInt8))
          (hdrop ▸ List.cons_ne_nil sep value)
        simp only [hdrop, List.head_cons] at hhead
        simpa using hhead
      rw [hdrop] at h hsplit
      rw [hsep] at hsplit
      simp only at h
      split_ifs at h with hvalue
      · -- the value is an opening brace: a struct with a name
        obtain rfl := Option.some.inj h
        refine ⟨hname, ?_⟩
        rw [LabelWord.text, if_neg hvalue.2, ← hvalue.1]
        exact hsplit
      · obtain rfl := Option.some.inj h
        exact ⟨⟨hname, fun heq => not_not.mp fun hne => hvalue ⟨heq, hne⟩⟩, hsplit⟩
  · rintro ⟨hreadable, rfl⟩
    cases b with
    | leaf l =>
      obtain ⟨name, value⟩ := l
      obtain ⟨hname, hvalue⟩ := hreadable
      obtain ⟨htake, hdrop⟩ := takeWhile_name hname value
      have hmem : (61 : UInt8) ∈ name ++ 61 :: value := List.mem_append_right _ List.mem_cons_self
      obtain ⟨hopen, hclose⟩ := ne_brace hmem
      rw [LabelWord.text, readWord, if_neg hopen, if_neg hclose, hdrop, htake]
      exact if_neg fun h => h.2 (hvalue h.1)
    | opening name =>
      by_cases hnil : name = []
      · -- a struct without a name is the brace alone
        rw [LabelWord.text, if_pos hnil, readWord, if_pos rfl, hnil]
      · obtain ⟨htake, hdrop⟩ := takeWhile_name hreadable (ascii "\x7b")
        have hmem : (61 : UInt8) ∈ name ++ 61 :: ascii "\x7b" :=
          List.mem_append_right _ List.mem_cons_self
        obtain ⟨hopen, hclose⟩ := ne_brace hmem
        rw [LabelWord.text, if_neg hnil, readWord, if_neg hopen, if_neg hclose, hdrop, htake]
        exact if_pos ⟨rfl, hnil⟩
    | closing => rfl

/-! ### Texts -/

/-- Split a text at the blanks, one of which it starts with, unless it is empty. -/
def splitWords (s : List UInt8) : Option (List (List UInt8)) :=
  match s.splitOn 32 with
  | [] :: ws => some ws
  | _        => none

lemma splitWords_eq_some_iff {s : List UInt8} {ws : List (List UInt8)} :
    splitWords s = some ws ↔ (∀ w ∈ ws, 32 ∉ w) ∧ ws.flatMap (32 :: ·) = s := by
  have hjoin : ∀ ws : List (List UInt8), [32].intercalate ([] :: ws) = ws.flatMap (32 :: ·) := by
    intro ws
    induction ws with
    | nil => rfl
    | cons w ws ih =>
      rw [List.intercalate_cons_cons, List.nil_append, List.flatMap_cons, ← ih]
      cases ws with
      | nil => simp
      | cons w' ws => simp [List.intercalate_cons_cons]
  constructor
  · intro h
    have hsplit : s.splitOn 32 = [] :: ws := by
      rw [splitWords] at h
      rcases hs : s.splitOn 32 with _ | ⟨_ | ⟨b, w⟩, ws'⟩
      · exact absurd hs (List.splitOn_ne_nil 32 s)
      · -- nothing stands before the first blank
        rw [hs] at h
        rw [Option.some.inj h]
      · -- the text does not begin with a blank
        rw [hs] at h
        cases h
    refine ⟨fun w hw => ?_, ?_⟩
    · have hmem : w ∈ s.splitOn 32 := hsplit ▸ List.mem_cons_of_mem _ hw
      exact Separated.notMem_of_mem_splitOn hmem
    · rw [← hjoin, ← hsplit, List.intercalate_splitOn]
  · rintro ⟨hws, rfl⟩
    have hsplit : (ws.flatMap (32 :: ·)).splitOn 32 = [] :: ws := by
      rw [← hjoin]
      refine List.splitOn_intercalate 32 (fun w hw => ?_) (List.cons_ne_nil _ _)
      rcases List.mem_cons.mp hw with rfl | hw
      · exact List.not_mem_nil
      · exact hws w hw
    rw [splitWords, hsplit]

/-- What is read word by word is what was written word by word. -/
lemma mapM_eq_some_iff {α β : Type} {read : α → Option β} {P : β → Prop} {write : β → α}
    (h : ∀ {a b}, read a = some b ↔ P b ∧ write b = a) {as : List α} {bs : List β} :
    as.mapM read = some bs ↔ (∀ b ∈ bs, P b) ∧ bs.map write = as := by
  induction as generalizing bs with
  | nil =>
    rw [List.mapM_nil, List.map_eq_nil_iff]
    constructor
    · intro heq
      obtain rfl := Option.some.inj heq
      simp
    · rintro ⟨-, rfl⟩
      rfl
  | cons a as ih =>
    rw [List.mapM_cons, Option.bind_eq_bind, Option.bind_eq_some_iff]
    constructor
    · rintro ⟨b, hb, hrest⟩
      obtain ⟨bs', hbs', heq⟩ := Option.bind_eq_some_iff.mp hrest
      obtain rfl := Option.some.inj heq
      obtain ⟨hP, rfl⟩ := h.mp hb
      obtain ⟨hall, rfl⟩ := ih.mp hbs'
      exact ⟨List.forall_mem_cons.mpr ⟨hP, hall⟩, rfl⟩
    · rintro ⟨hall, hmap⟩
      obtain ⟨b, bs', rfl, hb, hbs'⟩ := List.map_eq_cons_iff.mp hmap
      rw [List.forall_mem_cons] at hall
      refine ⟨b, h.mpr ⟨hall.1, hb⟩, ?_⟩
      rw [ih.mpr ⟨hall.2, hbs'⟩]
      rfl

/-- Read the names and the texts of the values. -/
def readText (s : List UInt8) : Option (List LabelTree) :=
  (splitWords s).bind fun ws => (ws.mapM readWord).bind unbracket

/-- No word holds a blank, and every word reads as what it is. -/
def Legible (ts : List LabelTree) : Prop := ∀ w ∈ brackets ts, 32 ∉ LabelWord.text w ∧ LabelWord.Readable w

/-- Legible words are read as what they are, whatever comes behind them. -/
lemma readText_spaced {ws : List LabelWord}
    (hws : ∀ w ∈ ws, 32 ∉ LabelWord.text w ∧ LabelWord.Readable w) {tail : List (List UInt8)}
    (htail : ∀ part ∈ tail, 32 ∉ part) :
    readText (spaced ws ++ tail.flatMap (32 :: ·)) =
      (tail.mapM readWord).bind fun bs => unbracket (ws ++ bs) := by
  have hwords : splitWords (spaced ws ++ tail.flatMap (32 :: ·)) =
      some (ws.map LabelWord.text ++ tail) := by
    refine splitWords_eq_some_iff.mpr ⟨fun w hw => ?_, ?_⟩
    · rcases List.mem_append.mp hw with hw | hw
      · obtain ⟨w', hw', rfl⟩ := List.mem_map.mp hw
        exact (hws w' hw').1
      · exact htail w hw
    · rw [List.flatMap_append, List.flatMap_map]
      rfl
  have hread : (ws.map LabelWord.text).mapM readWord = some ws :=
    (mapM_eq_some_iff readWord_eq_some_iff).mpr ⟨fun w hw => (hws w hw).2, rfl⟩
  rw [readText, hwords, Option.bind_some, List.mapM_append, hread]
  cases tail.mapM readWord with
  | none    => rfl
  | some bs => rfl

/-- A text is read as some trees exactly if these are legible, and it is their words. -/
theorem readText_eq_some_iff {s : List UInt8} {ts : List LabelTree} :
    readText s = some ts ↔ Legible ts ∧ spaced (brackets ts) = s := by
  constructor
  · intro h
    obtain ⟨ws, hws, h⟩ := Option.bind_eq_some_iff.mp h
    obtain ⟨bs, hbs, hts⟩ := Option.bind_eq_some_iff.mp h
    obtain ⟨hblank, rfl⟩ := splitWords_eq_some_iff.mp hws
    obtain ⟨hreadable, rfl⟩ := (mapM_eq_some_iff readWord_eq_some_iff).mp hbs
    obtain rfl := unbracket_eq_some_iff.mp hts
    rw [List.forall_mem_map] at hblank
    refine ⟨fun w hw => ⟨hblank w hw, hreadable w hw⟩, ?_⟩
    rw [spaced, List.flatMap_map]
  · rintro ⟨hlegible, rfl⟩
    have hread := readText_spaced hlegible (List.forall_mem_nil fun part : List UInt8 => 32 ∉ part)
    rw [List.flatMap_nil, List.append_nil, List.mapM_nil] at hread
    rw [hread]
    exact (congrArg unbracket (List.append_nil _)).trans (unbracket_eq_some_iff.mpr rfl)

end CLogging

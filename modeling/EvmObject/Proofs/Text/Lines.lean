import Mathlib.Data.List.Nodup

/-!
# Lines and words of a text

A text falls into lines, each ended by a line feed, and a line into words with one blank between
them. `linesOf` and `wordsOf` take a text apart; what was put together from lines without a line
feed, and from words without a blank, is found again (`linesOf_join`, `wordsOf_intercalate`).
-/

namespace EvmObject.Text

/-! ## Taking apart -/

/-- The lines of a text. A line feed ends a line, so nothing is a line behind the last one. -/
def linesOf (text : String) : List String :=
  let pieces := text.toList.splitOn '\n'
  (if pieces.getLast? = some [] then pieces.dropLast else pieces).map String.ofList

/-- The words of a line, between its blanks. -/
def wordsOf (line : String) : List String :=
  (line.toList.splitOn ' ').map String.ofList

/-! ## Words -/

/-- The text breaks neither a line nor a word. -/
def IsWord (text : String) : Prop := ' ' ∉ text.toList ∧ '\n' ∉ text.toList

instance (text : String) : Decidable (IsWord text) :=
  inferInstanceAs (Decidable (_ ∧ _))

theorem isWord_of_forall {text : String} (p : Char → Bool) (hblank : p ' ' = false)
    (hfeed : p '\n' = false) (htext : ∀ c ∈ text.toList, p c = true) : IsWord text :=
  ⟨fun hmem => absurd (htext _ hmem) (by simp [hblank]),
    fun hmem => absurd (htext _ hmem) (by simp [hfeed])⟩

theorem isWord_append {left right : String} (hleft : IsWord left) (hright : IsWord right) :
    IsWord (left ++ right) := by
  simp only [IsWord, String.toList_append, List.mem_append, not_or]
  exact ⟨⟨hleft.1, hright.1⟩, hleft.2, hright.2⟩

theorem map_ofList_toList (texts : List String) :
    (texts.map String.toList).map String.ofList = texts := by
  simp [Function.comp_def]

/-- **Words are found again** in the line that they make up. -/
theorem wordsOf_intercalate {words : List String} (hne : words ≠ [])
    (hwords : ∀ word ∈ words, IsWord word) : wordsOf (" ".intercalate words) = words := by
  have hblank : ∀ piece ∈ words.map String.toList, ' ' ∉ piece := by
    intro piece hpiece
    obtain ⟨word, hword, rfl⟩ := List.mem_map.mp hpiece
    exact (hwords word hword).1
  have hsplit := List.splitOn_intercalate ' ' hblank (by simpa using hne)
  rw [wordsOf, String.toList_intercalate]
  exact (congrArg _ hsplit).trans (map_ofList_toList words)

/-- The words, each behind a blank. -/
def behindBlanks (words : List String) : String := String.join (words.map (" " ++ ·))

theorem behindBlanks_append (front back : List String) :
    behindBlanks (front ++ back) = behindBlanks front ++ behindBlanks back := by
  rw [behindBlanks, List.map_append, String.join_append, behindBlanks, behindBlanks]

/-- In a line each word but the first stands behind a blank. -/
theorem intercalate_eq_append_behindBlanks (word : String) (more : List String) :
    " ".intercalate (word :: more) = word ++ behindBlanks more := by
  induction more generalizing word with
  | nil => simp [behindBlanks]
  | cons next more ih =>
    rw [String.intercalate_cons_cons, ih next, behindBlanks, behindBlanks, List.map_cons,
      String.join_cons, String.append_assoc, String.append_assoc]

/-- Words with blanks between them break no line. -/
theorem newline_notMem_intercalate {words : List String} (hwords : ∀ word ∈ words, IsWord word) :
    '\n' ∉ (" ".intercalate words).toList := by
  cases words with
  | nil => simp
  | cons word more =>
    rw [intercalate_eq_append_behindBlanks, behindBlanks, String.toList_append,
      String.toList_join, List.mem_append, not_or]
    refine ⟨(hwords word List.mem_cons_self).2, fun hmem => ?_⟩
    obtain ⟨_, hblanked, hmem⟩ := List.mem_flatMap.mp hmem
    obtain ⟨other, hother, rfl⟩ := List.mem_map.mp hblanked
    -- neither the blank in front of a word nor the word is a line feed
    rcases List.mem_append.mp (String.toList_append ▸ hmem) with hmem | hmem
    · exact absurd hmem (by decide)
    · exact (hwords other (List.mem_cons_of_mem _ hother)).2 hmem

/-! ## Lines -/

/-- Line feeds split what stands between them. -/
theorem splitOn_flatMap_push {lines : List String} (hlines : ∀ line ∈ lines, '\n' ∉ line.toList) :
    (lines.flatMap fun line => line.toList ++ ['\n']).splitOn '\n' =
      lines.map String.toList ++ [[]] := by
  induction lines with
  | nil => exact List.splitOn_nil '\n'
  | cons line more ih =>
    have hmore := ih fun other hother => hlines other (List.mem_cons_of_mem _ hother)
    rw [List.flatMap_cons, List.append_assoc, List.singleton_append,
      List.splitOn_append_cons_self_of_not_mem (hlines line List.mem_cons_self), hmore]
    rfl

/-- **Lines are found again** in the text that they make up. -/
theorem linesOf_join {lines : List String} (hlines : ∀ line ∈ lines, '\n' ∉ line.toList) :
    linesOf (String.join (lines.map (·.push '\n'))) = lines := by
  have htext : (String.join (lines.map (·.push '\n'))).toList =
      lines.flatMap fun line => line.toList ++ ['\n'] := by
    simp [String.toList_join, List.flatMap_map]
  rw [linesOf, htext, splitOn_flatMap_push hlines]
  simp [Function.comp_def]

end EvmObject.Text

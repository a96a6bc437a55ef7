import DeadReckoning.Feed.Plan
import DeadReckoning.Feed.Replay
import DeadReckoning.Proofs.Json.Structure

namespace DeadReckoning

open Json Binary64

/-!
# Lines — a feed is read line by line

A message is written on one line, from brace to brace, so that the lines of a feed are its messages.

* `Text.lines_join` — lines that end with a line feed each are the lines of their text
* `Batch.newline_not_mem_write` — a message is one line
* `readFeed_writeFeed` — every message of a feed is read by itself
-/

/-! ### Lines of a text -/

namespace Text

/-- The rest of a line up to its end. -/
theorem linesFrom_append {line : List Char} (oneLine : '\n' ∉ line) (start rest : List Char) :
    linesFrom start (line ++ '\n' :: rest) =
      trimReturn (start.reverse ++ line) :: linesFrom [] rest := by
  induction line generalizing start with
  | nil => rw [List.nil_append, List.append_nil, linesFrom]
  | cons c line ih =>
    rw [List.mem_cons, not_or] at oneLine
    rw [List.cons_append, linesFrom.eq_3 _ _ _ (Ne.symm oneLine.1), ih oneLine.2,
      List.reverse_cons, List.append_assoc]
    rfl

/-- A line that does not end in a carriage return stays as it is. -/
theorem trimReturn_of_ne {line : List Char} (noReturn : line.getLast? ≠ some '\r') :
    trimReturn line = line := by
  unfold trimReturn
  split
  · rename_i isReturn
    exact absurd isReturn noReturn
  · rfl

/-- Lines that end with a line feed each are the lines of their text. -/
theorem lines_join {lines : List String} (oneLine : ∀ line ∈ lines, '\n' ∉ line.toList)
    (noReturn : ∀ line ∈ lines, line.toList.getLast? ≠ some '\r') :
    Text.lines (String.join (lines.map (· ++ "\n"))).toList = lines.map String.toList := by
  have text : (String.join (lines.map (· ++ "\n"))).toList =
      lines.flatMap fun line => line.toList ++ ['\n'] := by
    rw [String.toList_join, List.flatMap_map]
    simp
  -- each line is cut off at its own line feed, which is the first one left
  rw [text, Text.lines]
  clear text
  induction lines with
  | nil => rfl
  | cons line lines ih =>
    have others := ih (fun l mem => oneLine l (List.mem_cons_of_mem line mem))
      fun l mem => noReturn l (List.mem_cons_of_mem line mem)
    rw [List.flatMap_cons, List.append_assoc, List.singleton_append,
      linesFrom_append (oneLine line List.mem_cons_self), others, List.map_cons,
      List.reverse_nil, List.nil_append, trimReturn_of_ne (noReturn line List.mem_cons_self)]

end Text

/-! ### Messages on one line -/

namespace Json

variable {text : List Char} {s : ℕ} {k : ℤ}

theorem newline_not_mem_digits {ds : List Char} (isDigit : ∀ c ∈ ds, c.isDigit) : '\n' ∉ ds :=
  fun mem => absurd (isDigit '\n' mem) (by decide)

/-- There is no line feed in an exponent. -/
theorem newline_not_mem_exponentText (p : ℤ) : '\n' ∉ exponentText p := by
  have digits := newline_not_mem_digits (isWhole_digits p.natAbs).isDigit
  unfold exponentText
  split <;> simpa using digits

/-- There is none in what spells a number. -/
theorem Spells.newline_not_mem (h : Spells text s k) : '\n' ∉ text := by
  cases h with
  | point whole isDigit =>
    simpa using ⟨newline_not_mem_digits whole.isDigit, newline_not_mem_digits isDigit⟩
  | exponent whole =>
    simpa using ⟨newline_not_mem_digits whole.isDigit, newline_not_mem_exponentText _⟩
  | both whole isDigit =>
    simpa using ⟨newline_not_mem_digits whole.isDigit, newline_not_mem_digits isDigit,
      newline_not_mem_exponentText _⟩

/-- There is none in a double, finite or not. -/
theorem newline_not_mem_writeFloat (x : Float) : '\n' ∉ writeFloat x := by
  unfold writeFloat
  split
  · rename_i d isDyadic
    have magnitude := (spells_layOut (unpacks_iff.mpr isDyadic)).newline_not_mem
    unfold Layout.writeDyadic
    split
    · simpa using magnitude
    · exact magnitude
  · decide

/-- Commas are no line feeds. -/
theorem newline_not_mem_separate {parts : List (List Char)} (h : ∀ part ∈ parts, '\n' ∉ part) :
    '\n' ∉ separate parts := by
  cases parts with
  | nil => exact List.not_mem_nil
  | cons part parts =>
    rw [separate_cons, List.mem_append, not_or, List.mem_flatMap]
    refine ⟨h part List.mem_cons_self, ?_⟩
    rintro ⟨other, mem, isIn⟩
    rcases List.mem_cons.mp isIn with isComma | isIn
    · exact absurd isComma (by decide)
    · exact h other (List.mem_cons_of_mem part mem) isIn

/-- There is none in an array unless an element has one. -/
theorem newline_not_mem_writeArray {items : List (List Char)} (h : ∀ item ∈ items, '\n' ∉ item) :
    '\n' ∉ writeArray items := by
  simpa [writeArray] using newline_not_mem_separate h

theorem newline_not_mem_writeObject {members : List (List Char)}
    (h : ∀ m ∈ members, '\n' ∉ m) : '\n' ∉ writeObject members := by
  simpa [writeObject] using newline_not_mem_separate h

theorem newline_not_mem_writeMember {name : String} {value : List Char}
    (hn : '\n' ∉ name.toList) (hv : '\n' ∉ value) : '\n' ∉ writeMember name value := by
  simpa [writeMember, writeWord] using ⟨hn, hv⟩

end Json

/-- There is none in a sighting. -/
theorem Sighting.newline_not_mem_write (s : Sighting Float) : '\n' ∉ s.write := by
  have kind : '\n' ∉ s.kind.write := by cases s.kind <;> decide
  have components : '\n' ∉ writeArray (s.components.map writeFloat) := by
    refine newline_not_mem_writeArray fun item mem => ?_
    obtain ⟨x, -, rfl⟩ := List.mem_map.mp mem
    exact newline_not_mem_writeFloat x
  -- three members are always written, and a fourth one if there is a radius
  have always : ∀ m ∈ [writeMember "type" s.kind.write, writeMember "id" (writeNatural s.id),
      writeMember "pos" (writeArray (s.components.map writeFloat))], '\n' ∉ m := by
    simp only [List.forall_mem_cons]
    refine ⟨newline_not_mem_writeMember (by decide) kind,
      newline_not_mem_writeMember (by decide) (newline_not_mem_digits (isWhole_digits _).isDigit),
      newline_not_mem_writeMember (by decide) components, fun m mem => absurd mem List.not_mem_nil⟩
  unfold Sighting.write
  refine newline_not_mem_writeObject fun m mem => ?_
  rcases List.mem_append.mp mem with mem | mem
  · exact always m mem
  · cases isRadius : s.radius with
    | none =>
      rw [isRadius] at mem
      cases mem
    | some r =>
      rw [isRadius] at mem
      obtain rfl := List.mem_singleton.mp mem
      exact newline_not_mem_writeMember (by decide) (newline_not_mem_writeFloat r)

namespace Batch

variable (time : Micros) (sightings : List (Sighting Float))

/-- A message is one line. -/
theorem newline_not_mem_write : '\n' ∉ (Batch.write time sightings).toList := by
  rw [Batch.write, String.toList_ofList]
  refine newline_not_mem_writeObject ?_
  simp only [List.forall_mem_cons]
  refine ⟨newline_not_mem_writeMember (by decide)
    (newline_not_mem_digits (isWhole_digits _).isDigit), newline_not_mem_writeMember (by decide)
      (newline_not_mem_writeArray fun item mem => ?_), fun m mem => absurd mem List.not_mem_nil⟩
  obtain ⟨s, -, rfl⟩ := List.mem_map.mp mem
  exact s.newline_not_mem_write

/-- It ends with a brace. -/
theorem getLast?_write : (Batch.write time sightings).toList.getLast? = some '\x7d' := by
  rw [Batch.write, String.toList_ofList, writeObject, List.getLast?_concat]

/-- It starts with a brace, and so it is not blank. -/
theorem not_isBlank_write : Text.isBlank (Batch.write time sightings).toList = false := by
  rw [Batch.write, String.toList_ofList, writeObject, List.cons_append, Text.isBlank,
    List.all_cons]
  rfl

end Batch

/-- Every message of a feed is read by itself. -/
theorem readFeed_writeFeed (batches : List (Batch Float)) :
    readFeed (String.join ((writeFeed batches).map (· ++ "\n"))).toList =
      (writeFeed batches).map Batch.parse := by
  have written : ∀ line ∈ writeFeed batches, ∃ batch : Batch Float,
      line = Batch.write batch.serverTime batch.sightings := by
    intro line mem
    obtain ⟨batch, -, rfl⟩ := List.mem_map.mp mem
    exact ⟨batch, rfl⟩
  -- no message holds a line feed or ends in a carriage return, so that the lines are the messages
  have lines : Text.lines (String.join ((writeFeed batches).map (· ++ "\n"))).toList =
      (writeFeed batches).map String.toList := by
    refine Text.lines_join (fun line mem => ?_) fun line mem => ?_
    · obtain ⟨batch, rfl⟩ := written line mem
      exact Batch.newline_not_mem_write _ _
    · obtain ⟨batch, rfl⟩ := written line mem
      rw [Batch.getLast?_write]
      decide
  unfold readFeed
  rw [lines, List.filter_eq_self.mpr, List.map_map]
  · exact List.map_congr_left fun line _ => congrArg Batch.parse String.ofList_toList
  · intro text mem
    -- none of them is blank
    obtain ⟨line, listed, rfl⟩ := List.mem_map.mp mem
    obtain ⟨batch, rfl⟩ := written line listed
    rw [Batch.not_isBlank_write]
    rfl

end DeadReckoning

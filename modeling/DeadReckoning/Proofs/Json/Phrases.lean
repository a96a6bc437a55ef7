import DeadReckoning.Proofs.Json.Numerals

namespace DeadReckoning.Json

/-!
# Values — what those of the grammar are read as

A value of the grammar is read as what it stands for, unless it is nested too deep, a number in it
is beyond the doubles, or a string in it has half of a pair without the other half.

* `Phrase.value?` — what a value stands for, at most so many levels deep
* `Phrase.IsReadable` — the values that stand for something
* `Phrase.isSome_value?_iff` — these are all
* `readItems_write`, `readMembers_write` — the contents of arrays and objects
* `readValue_write` — values
* `parse_write` — texts that hold one value
-/

variable {β : Type} {reader : Reader β} {budget : ℕ} {rest : List Char}

/-- A member, if both its name and its value stand for something. -/
def Entry.member? {α : Type} (value? : α → Option β) (entry : Entry α) : Option (String × β) := do
  return (← Glyph.text? entry.name.content, ← value? entry.value.content)

namespace Phrase

/-- What a value stands for, with at most `depth` arrays and objects inside each other. -/
def value? : (depth : ℕ) → Phrase → Option Value
  | _, null => some .null
  | _, bool b => some (.bool b)
  | _, number n => n.number?.map .number
  | _, text s => (Glyph.text? s).map .text
  | 0, array _ _ => none
  | 0, object _ _ => none
  | depth + 1, array _ items =>
    (items.mapM fun item : Padded Phrase => value? depth item.content).map .array
  | depth + 1, object _ entries =>
    (entries.mapM (Entry.member? (value? depth))).map .object

/-- A value that is nested at most `depth` levels deep, with numbers in range and halves of pairs
only beside each other. -/
inductive IsReadable : (depth : ℕ) → Phrase → Prop
  | null {depth : ℕ} : IsReadable depth null
  | bool {depth : ℕ} {b : Bool} : IsReadable depth (bool b)
  | number {depth : ℕ} {n : Numeral} (inRange : n.IsInRange) : IsReadable depth (number n)
  | text {depth : ℕ} {s : List Glyph} (paired : Glyph.IsPaired s) : IsReadable depth (text s)
  | array {depth : ℕ} {blank : Space} {items : List (Padded Phrase)}
    (each : ∀ item ∈ items, IsReadable depth item.content) :
    IsReadable (depth + 1) (array blank items)
  | object {depth : ℕ} {blank : Space} {entries : List (Entry Phrase)}
    (names : ∀ entry ∈ entries, Glyph.IsPaired entry.name.content)
    (each : ∀ entry ∈ entries, IsReadable depth entry.value.content) :
    IsReadable (depth + 1) (object blank entries)

end Phrase

/-- All of several things are there if each of them is. -/
theorem isSome_mapM_iff {α : Type} {f : α → Option β} {xs : List α} :
    (xs.mapM f).isSome ↔ ∀ x ∈ xs, (f x).isSome := by
  induction xs with
  | nil => simp
  | cons x xs ih =>
    rw [List.mapM_cons, List.forall_mem_cons, ← ih]
    cases f x with
    | none => simp
    | some y =>
      cases xs.mapM f with
      | none => simp
      | some ys => simp

/-- As many things come out as went in. -/
theorem length_of_mapM_eq_some {α : Type} {f : α → Option β} {xs : List α} {ys : List β}
    (h : xs.mapM f = some ys) : ys.length = xs.length := by
  induction xs generalizing ys with
  | nil =>
    cases h
    rfl
  | cons x xs ih =>
    rw [List.mapM_cons] at h
    obtain ⟨y, -, h⟩ := Option.bind_eq_some_iff.mp h
    obtain ⟨others, isOthers, h⟩ := Option.bind_eq_some_iff.mp h
    cases h
    rw [List.length_cons, List.length_cons, ih isOthers]

namespace Phrase

/-- A member stands for something if its name and its value do. -/
theorem isSome_member?_iff {value? : Phrase → Option β} (entry : Entry Phrase) :
    (entry.member? value?).isSome ↔
      Glyph.IsPaired entry.name.content ∧ (value? entry.value.content).isSome := by
  rw [← Glyph.isSome_text?_iff, Entry.member?]
  cases Glyph.text? entry.name.content with
  | none => simp
  | some name =>
    cases value? entry.value.content with
    | none => simp
    | some value => simp

/-- The values that stand for something. -/
theorem isSome_value?_iff (depth : ℕ) (phrase : Phrase) :
    (phrase.value? depth).isSome ↔ phrase.IsReadable depth := by
  induction phrase using induct generalizing depth with
  | null =>
    rw [value?]
    exact ⟨fun _ => .null, fun _ => rfl⟩
  | bool b =>
    rw [value?]
    exact ⟨fun _ => .bool, fun _ => rfl⟩
  | number n =>
    rw [value?, Option.isSome_map]
    exact ⟨.number, fun | .number inRange => inRange⟩
  | text s =>
    rw [value?, Option.isSome_map, Glyph.isSome_text?_iff]
    exact ⟨.text, fun | .text paired => paired⟩
  | array blank items ih =>
    -- an array or object takes one level, and on the last there is none
    cases depth with
    | zero => exact ⟨fun isSome => (nomatch isSome), fun readable => (nomatch readable)⟩
    | succ depth =>
      rw [value?, Option.isSome_map, isSome_mapM_iff]
      constructor
      · exact fun each => .array fun item mem => (ih item mem depth).mp (each item mem)
      · rintro (_ | _ | _ | _ | each | _) item mem
        exact (ih item mem depth).mpr (each item mem)
  | object blank entries ih =>
    cases depth with
    | zero => exact ⟨fun isSome => (nomatch isSome), fun readable => (nomatch readable)⟩
    | succ depth =>
      rw [value?, Option.isSome_map, isSome_mapM_iff]
      constructor
      · intro each
        have both := fun entry mem => (isSome_member?_iff entry).mp (each entry mem)
        exact .object (fun entry mem => (both entry mem).1) fun entry mem =>
          (ih entry mem depth).mp (both entry mem).2
      · rintro (_ | _ | _ | _ | _ | ⟨names, each⟩) entry mem
        exact (isSome_member?_iff entry).mpr
          ⟨names entry mem, (ih entry mem depth).mpr (each entry mem)⟩

end Phrase

/-! ### Arrays -/

/-- There are no more elements at the bracket. -/
theorem moreElements_end (first : Bool) (blank : Space) (rest : List Char) :
    moreElements first (blank.chars ++ ']' :: rest) = .ok (false, ']' :: rest) := by
  unfold moreElements
  rw [skipSpace_space]
  rfl

/-- Behind a comma there has to be an element. -/
theorem moreElements_comma (cs : List Char) :
    moreElements false (',' :: cs) =
      match skipSpace cs with
      | [] => .error .endInValue
      | ']' :: _ => .error .trailingComma
      | rest => .ok (true, rest) := rfl

/-- The next element of an array starts behind white space, and behind a comma unless it is the
first. -/
theorem moreElements_write (first : Bool) (blank : Space) (item : Padded Phrase)
    (rest : List Char) :
    moreElements first (blank.chars ++ ((if first then item.write Phrase.write
      else ',' :: item.write Phrase.write) ++ rest)) =
        .ok (true, item.content.write ++ (item.after.chars ++ rest)) := by
  have read := moreElements_read item.content.start first (item.after.chars ++ rest)
  cases first with
  | true =>
    rw [if_pos rfl] at read ⊢
    rw [← read, Padded.write_append, moreElements, skipSpace_space, skipSpace_space, moreElements]
  | false =>
    rw [if_neg Bool.false_ne_true] at read ⊢
    rw [← read, List.cons_append, List.cons_append, moreElements_comma, Padded.write_append,
      ← skipSpace_space item.before, ← moreElements_comma, moreElements, skipSpace_space,
      moreElements]

/-- The elements of an array are read as what they stand for. -/
theorem readItems_write {value? : Phrase → Option β} {items : List (Padded Phrase)}
    (h : ∀ item ∈ items, Yields reader item.content.write (value? item.content))
    (few : items.length < budget) (first : Bool) (blank : Space) (rest : List Char) :
    (readItems reader budget first (blank.chars ++
      (itemsText first (items.map (Padded.write Phrase.write)) ++ ']' :: rest))).toOption =
      (items.mapM fun item => value? item.content).map (·, rest) := by
  -- the white space behind an element stands in front of the next one
  induction items generalizing budget first blank with
  | nil =>
    obtain ⟨budget, rfl⟩ : ∃ b, budget = b + 1 := ⟨budget - 1, by simp at few; omega⟩
    rw [List.map_nil, itemsText_nil, List.nil_append]
    unfold readItems
    exact congrArg Except.toOption (bind_of_ok (moreElements_end first blank rest))
  | cons item items ih =>
    rw [List.length_cons] at few
    obtain ⟨budget, rfl⟩ : ∃ b, budget = b + 1 := ⟨budget - 1, by omega⟩
    have few : items.length < budget := by omega
    have stops := stops_items (items.map (Padded.write Phrase.write)) (stops_bracket rest)
    have head := h item List.mem_cons_self .none _ (stops_space item.after stops)
    have others := ih (fun item mem => h item (List.mem_cons_of_mem _ mem)) few false item.after
    rw [List.map_cons, itemsText_cons, List.append_assoc]
    unfold readItems
    refine (congrArg Except.toOption (bind_of_ok (moreElements_write first blank item _))).trans ?_
    refine (toOption_bind_read head _).trans ?_
    rw [List.mapM_cons]
    cases value? item.content with
    | none => rfl
    | some x =>
      refine (toOption_bind_read others _).trans ?_
      cases items.mapM fun item => value? item.content with
      | none => rfl
      | some xs => rfl

/-! ### Objects -/

/-- There are no more members at the brace. -/
theorem nextKey?_end (first : Bool) (blank : Space) (rest : List Char) :
    nextKey? first (blank.chars ++ '\x7d' :: rest) = .ok (none, '\x7d' :: rest) := by
  unfold nextKey?
  rw [skipSpace_space]
  rfl

/-- Behind a comma there has to be a member. -/
theorem nextKey?_comma (cs : List Char) :
    nextKey? false (',' :: cs) =
      match skipSpace cs with
      | [] => .error .endInValue
      | '\x7d' :: _ => .error .trailingComma
      | rest => keyOr .keyNotText rest := rfl

/-- The next member of an object starts with its name. -/
theorem nextKey?_write (first : Bool) (blank : Space) (entry : Entry Phrase) (rest : List Char) :
    (nextKey? first (blank.chars ++ ((if first then entry.write Phrase.write
      else ',' :: entry.write Phrase.write) ++ rest))).toOption =
        (Glyph.text? entry.name.content).map fun key => (some key,
          entry.name.after.chars ++ ':' :: (entry.value.write Phrase.write ++ rest)) := by
  have key (cs : List Char) :
      (keyOr .keyNotText ('"' :: (Glyph.writeAll entry.name.content ++ '"' :: cs))).toOption =
        (Glyph.text? entry.name.content).map fun key => (some key, cs) := by
    refine (toOption_bind_read (readText_write entry.name.content cs) _).trans ?_
    cases Glyph.text? entry.name.content with
    | none => rfl
    | some key => rfl
  cases first with
  | true =>
    rw [if_pos rfl, Entry.write_append, nextKey?, skipSpace_space, skipSpace_space]
    exact key _
  | false =>
    -- the space in front of a comma is skipped
    have blankless (cs : List Char) : nextKey? false (blank.chars ++ cs) = nextKey? false cs := by
      rw [nextKey?, skipSpace_space, nextKey?]
    rw [if_neg Bool.false_ne_true, List.cons_append, Entry.write_append, blankless,
      nextKey?_comma, skipSpace_space]
    exact key _

/-- The members of an object are read as what they stand for. -/
theorem readMembers_write {value? : Phrase → Option β} {entries : List (Entry Phrase)}
    (h : ∀ entry ∈ entries, Yields reader entry.value.content.write (value? entry.value.content))
    (few : entries.length < budget) (first : Bool) (blank : Space) (rest : List Char) :
    (readMembers reader budget first (blank.chars ++
      (itemsText first (entries.map (Entry.write Phrase.write)) ++ '\x7d' :: rest))).toOption =
      (entries.mapM (Entry.member? value?)).map (·, rest) := by
  induction entries generalizing budget first blank with
  | nil =>
    obtain ⟨budget, rfl⟩ : ∃ b, budget = b + 1 := ⟨budget - 1, by simp at few; omega⟩
    rw [List.map_nil, itemsText_nil, List.nil_append]
    unfold readMembers
    exact congrArg Except.toOption (bind_of_ok (nextKey?_end first blank rest))
  | cons entry entries ih =>
    rw [List.length_cons] at few
    obtain ⟨budget, rfl⟩ : ∃ b, budget = b + 1 := ⟨budget - 1, by omega⟩
    have few : entries.length < budget := by omega
    have stops := stops_items (entries.map (Entry.write Phrase.write)) (stops_brace rest)
    have head := h entry List.mem_cons_self entry.value.before _
      (stops_space entry.value.after stops)
    have others := ih (fun entry mem => h entry (List.mem_cons_of_mem _ mem)) few false
      entry.value.after
    rw [List.map_cons, itemsText_cons, List.append_assoc]
    unfold readMembers
    refine (toOption_bind _ _).trans ?_
    rw [nextKey?_write, List.mapM_cons, Entry.member?]
    -- three things can stand for nothing: the name, the value, and the members that follow
    cases Glyph.text? entry.name.content with
    | none => rfl
    | some key =>
      refine (congrArg Except.toOption (bind_of_ok (readColon_write entry.name.after _))).trans ?_
      rw [Padded.write_append]
      refine (toOption_bind_read head _).trans ?_
      cases value? entry.value.content with
      | none => rfl
      | some x =>
        refine (toOption_bind_read others _).trans ?_
        cases entries.mapM (Entry.member? value?) with
        | none => rfl
        | some xs => rfl

/-! ### Values -/

/-- Values behind white space. -/
theorem readValueWith_space (nested : Option (Reader Value)) (blank : Space) (cs : List Char) :
    readValueWith budget nested (blank.chars ++ cs) = readValueWith budget nested cs := by
  rw [readValueWith, skipSpace_space, readValueWith]

/-- An array is read element by element. -/
theorem yields_array {items : List (Padded Phrase)} {inner : Reader Value}
    {value? : Phrase → Option Value} (blank : Space)
    (h : ∀ item ∈ items, Yields inner item.content.write (value? item.content))
    (few : items.length < budget) :
    Yields (readValueWith budget (some inner)) (Phrase.array blank items).write
      ((items.mapM fun item => value? item.content).map .array) := by
  intro before rest _
  have read := readItems_write h few true blank rest
  rw [readValueWith_space, Phrase.write_array_append]
  refine (toOption_bind_read read _).trans ?_
  cases items.mapM fun item => value? item.content with
  | none => rfl
  | some values => rfl

/-- An object is read member by member. -/
theorem yields_object {entries : List (Entry Phrase)} {inner : Reader Value}
    {value? : Phrase → Option Value} (blank : Space)
    (h : ∀ entry ∈ entries, Yields inner entry.value.content.write (value? entry.value.content))
    (few : entries.length < budget) :
    Yields (readValueWith budget (some inner)) (Phrase.object blank entries).write
      ((entries.mapM (Entry.member? value?)).map .object) := by
  intro before rest _
  have read := readMembers_write h few true blank rest
  rw [readValueWith_space, Phrase.write_object_append]
  refine (toOption_bind_read read _).trans ?_
  cases entries.mapM (Entry.member? value?) with
  | none => rfl
  | some members => rfl

/-- A number is read, however deep the reader may go. -/
theorem yields_number (nested : Option (Reader Value)) (n : Numeral) :
    Yields (readValueWith budget nested) n.write (n.number?.map .number) := by
  intro blank rest stops
  have read := readNumber_write n stops
  obtain ⟨c, cs, isText, start⟩ := n.exists_cons
  rw [isText, List.cons_append] at read
  rw [readValueWith_space, isText, List.cons_append, readValueWith_number start]
  refine (toOption_bind_read read _).trans ?_
  cases n.number? with
  | none => rfl
  | some n => rfl

/-- A string is read, however deep the reader may go. -/
theorem yields_text (nested : Option (Reader Value)) (s : List Glyph) :
    Yields (readValueWith budget nested) (Glyph.writeText s) ((Glyph.text? s).map .text) := by
  intro blank rest _
  rw [readValueWith_space, Glyph.writeText_append]
  refine (toOption_bind_read (readText_write s rest) _).trans ?_
  cases Glyph.text? s with
  | none => rfl
  | some s => rfl

/-- At every depth values are read alike, but for what is nested in them. -/
theorem exists_nested (budget depth : ℕ) :
    ∃ nested, readValue budget depth = readValueWith budget nested := by
  cases depth with
  | zero => exact ⟨_, rfl⟩
  | succ depth => exact ⟨_, rfl⟩

/-- A value is read as what it stands for. -/
theorem readValue_write (phrase : Phrase) (long : phrase.write.length < budget) (depth : ℕ) :
    Yields (readValue budget depth) phrase.write (phrase.value? depth) := by
  -- what is nested in a value has a shorter text, which keeps within the same budget
  induction phrase using Phrase.induct generalizing depth with
  | null =>
    intro blank rest _
    obtain ⟨nested, isReader⟩ := exists_nested budget depth
    rw [isReader, readValueWith_space, Phrase.value?]
    rfl
  | bool b =>
    intro blank rest _
    obtain ⟨nested, isReader⟩ := exists_nested budget depth
    rw [isReader, readValueWith_space, Phrase.value?]
    cases b with
    | true => rfl
    | false => rfl
  | number n =>
    obtain ⟨nested, isReader⟩ := exists_nested budget depth
    rw [isReader, Phrase.value?]
    exact yields_number nested n
  | text s =>
    obtain ⟨nested, isReader⟩ := exists_nested budget depth
    rw [isReader, Phrase.value?]
    exact yields_text nested s
  | array blank items ih =>
    cases depth with
    | zero =>
      intro before rest _
      rw [readValue, readValueWith_space, Phrase.write_array]
      rfl
    | succ depth =>
      rw [readValue, Phrase.value?]
      exact yields_array blank
        (fun item mem => ih item mem ((Phrase.length_item_lt mem).trans long) depth)
        ((Phrase.length_items_lt blank items).trans long)
  | object blank entries ih =>
    cases depth with
    | zero =>
      intro before rest _
      rw [readValue, readValueWith_space, Phrase.write_object]
      rfl
    | succ depth =>
      rw [readValue, Phrase.value?]
      exact yields_object blank
        (fun entry mem => ih entry mem ((Phrase.length_entry_lt mem).trans long) depth)
        ((Phrase.length_entries_lt blank entries).trans long)

/-! ### Texts -/

/-- Nothing is left behind white space. -/
theorem skipSpace_chars (space : Space) : skipSpace space.chars = [] := by
  have nothing := skipSpace_space space []
  rwa [List.append_nil] at nothing

/-- A text is read if its reader goes as far as the white space at its end. -/
theorem readDocument_of_read {document : (budget : ℕ) → Reader β} {text : String} {x? : Option β}
    (after : Space) (read : (document (text.toList.length + 1) text.toList).toOption =
      x?.map (·, after.chars)) :
    (readDocument document text).toOption = x? := by
  unfold readDocument
  refine (toOption_bind_read read _).trans ?_
  cases x? with
  | none => rfl
  | some x =>
    show (if (skipSpace after.chars).isEmpty then _ else _ : Except Fault β).toOption = some x
    rw [skipSpace_chars]
    rfl

/-- A text of the grammar holds what its value stands for. -/
theorem parse_write (p : Padded Phrase) :
    (Value.parse (String.ofList (p.write Phrase.write))).toOption =
      p.content.value? greatestDepth := by
  have long := Nat.lt_succ_of_le (length_content_le p)
  refine readDocument_of_read p.after ?_
  rw [String.toList_ofList]
  exact readValue_write p.content long greatestDepth p.before p.after.chars p.after.stops

end DeadReckoning.Json

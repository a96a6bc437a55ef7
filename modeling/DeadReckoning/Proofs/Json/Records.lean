import DeadReckoning.Proofs.Json.Accepted

namespace DeadReckoning.Json

/-!
# Records — objects with two fields and other members

A record of two fields is read from an object of the grammar that has no field twice, and each field
that may not be missing. Names are compared by what they stand for, so that all of them have to
stand for something; what the other members hold does not matter. A record may also be an array of
its fields in their order, of which those at the end may be missing.

* `Entry.valuesOf` — the values of the members of one name
* `RecordField.given?` — what a field is by the values that are given for it
* `pair?` — the record that a value stands for
* `RecordField.readMember_write` — the member of one field
* `readPairMembers_write`, `readPairElements_write` — what is in an object or an array
* `readPair_write` — a value is read as the record that it stands for
* `takes_readPair` — and nothing else is read as a record
-/

variable {β γ : Type} {f : RecordField β} {g : RecordField γ} {f? : Phrase → Option β}
  {g? : Phrase → Option γ} {x : Option β} {y : Option γ} {entry : Entry Phrase}
  {entries : List (Entry Phrase)} {name : String} {budget space : ℕ}

namespace Entry

/-- The values of the members that have a name. -/
def valuesOf (name : String) (entries : List (Entry Phrase)) : List Phrase :=
  (entries.filter fun entry => Glyph.text? entry.name.content = some name).map
    fun entry => entry.value.content

/-- The names of all members, if they all stand for something. -/
def names? (entries : List (Entry Phrase)) : Option (List String) :=
  entries.mapM fun entry => Glyph.text? entry.name.content

/-- A member of the name gives one more value. -/
theorem valuesOf_cons_same (isName : Glyph.text? entry.name.content = some name) :
    valuesOf name (entry :: entries) = entry.value.content :: valuesOf name entries := by
  rw [valuesOf, List.filter_cons_of_pos (by simpa using isName)]
  rfl

/-- A member of another name gives none. -/
theorem valuesOf_cons_other (isOther : Glyph.text? entry.name.content ≠ some name) :
    valuesOf name (entry :: entries) = valuesOf name entries := by
  rw [valuesOf, List.filter_cons_of_neg (by simpa using isOther)]
  rfl

/-- The names stand for something if each of them does. -/
theorem isSome_names?_iff :
    (names? entries).isSome ↔ ∀ entry ∈ entries, Glyph.IsPaired entry.name.content := by
  simp only [names?, isSome_mapM_iff, Glyph.isSome_text?_iff]

/-- One name that stands for nothing spoils all. -/
theorem names?_cons_none (isName : Glyph.text? entry.name.content = none) :
    names? (entry :: entries) = none := by
  rw [names?, List.mapM_cons, isName]
  rfl

/-- A name that stands for something makes no difference to the others. -/
theorem names?_cons_some (isName : Glyph.text? entry.name.content = some name) (y? : Option γ) :
    ((names? (entry :: entries)).bind fun _ => y?) = (names? entries).bind fun _ => y? := by
  rw [names?, List.mapM_cons, isName, names?]
  cases entries.mapM fun entry => Glyph.text? entry.name.content with
  | none => rfl
  | some names => rfl

end Entry

/-! ### Objects -/

/-- What a field is that these values were given for. -/
def RecordField.given? (field : RecordField β) (value? : Phrase → Option β) :
    List Phrase → Option β
  | [] => field.default?
  | [p] => value? p
  | _ => none

/-- What a field is after the members of its name, if it was found before them. -/
def RecordField.after? (field : RecordField β) (value? : Phrase → Option β) :
    Option β → List Phrase → Option β
  | found, [] => found.or field.default?
  | none, phrase :: phrases => (value? phrase).bind fun x => after? field value? (some x) phrases
  | some _, _ :: _ => none

/-- A field that was not found before is what its members give. -/
theorem RecordField.after?_none (field : RecordField β) (value? : Phrase → Option β)
    (phrases : List Phrase) : field.after? value? none phrases = field.given? value? phrases := by
  match phrases with
  | [] => rfl
  | [p] => exact Option.bind_fun_some (value? p)
  | p :: q :: others => exact Option.bind_fun_none (value? p)

/-- After all members a field is what was found, or what it is when it is missing. -/
theorem RecordField.toOption_settle (field : RecordField β) (value? : Phrase → Option β)
    (found : Option β) : (field.settle found).toOption = field.after? value? found [] := by
  rw [settle, after?]
  cases found.or field.default? with
  | none => rfl
  | some x => rfl

/-- Behind the last member both fields are what was found, or what they are when they are
missing. -/
theorem readPairMembers_end (first : Bool) (blank : Space) (rest : List Char) :
    (readPairMembers f g space (budget + 1) first x y (blank.chars ++ '\x7d' :: rest)).toOption =
      (f.after? f? x []).bind fun x => (g.after? g? y []).map fun y => ((x, y), rest) := by
  unfold readPairMembers
  refine (congrArg Except.toOption (bind_of_ok (nextKey?_end first blank rest))).trans ?_
  refine (toOption_bind _ _).trans ?_
  rw [f.toOption_settle f? x, ← g.toOption_settle g? y]
  cases f.after? f? x [] with
  | none => rfl
  | some x =>
    refine (toOption_bind _ _).trans ?_
    cases (g.settle y).toOption with
    | none => rfl
    | some y => rfl

/-- The member of a field is read unless the field was found before, and reading goes on behind it.
What comes of it all depends on the field alone, and nothing comes of a field that is not read. -/
theorem RecordField.readMember_write {field : RecordField β} {value? : Phrase → Option β}
    {found : Option β} {phrases : List Phrase} {more : List Char}
    (reads : Yields field.read entry.value.content.write (value? entry.value.content))
    (stops : Stops (entry.value.after.chars ++ more)) (next : β × List Char → Except Fault γ)
    (outcome : Option β → Option γ) (failed : outcome none = none)
    (goesOn : ∀ x, (next (x, entry.value.after.chars ++ more)).toOption =
      outcome (field.after? value? (some x) phrases)) :
    (do
      field.once found
      let read ← field.read (← readColon (entry.name.after.chars ++ ':' ::
        (entry.value.before.chars ++ (entry.value.content.write ++
          (entry.value.after.chars ++ more)))))
      next read).toOption =
      outcome (field.after? value? found (entry.value.content :: phrases)) := by
  -- a field that was found before is a fault, whatever its value
  cases found with
  | some x => exact failed.symm
  | none =>
    refine (congrArg Except.toOption (bind_of_ok (readColon_write entry.name.after _))).trans ?_
    refine (toOption_bind_read (reads _ _ stops) _).trans ?_
    rw [after?]
    cases value? entry.value.content with
    | none => exact failed.symm
    | some x => exact goesOn x

/-- The members of a record are read if all names stand for something and both fields are read. -/
theorem readPairMembers_write (distinct : g.name ≠ f.name)
    (hf : ∀ p, p.write.length < space → Yields f.read p.write (f? p))
    (hg : ∀ p, p.write.length < space → Yields g.read p.write (g? p))
    (few : entries.length < budget)
    (long : ∀ entry ∈ entries, entry.value.content.write.length < space)
    (first : Bool) (blank : Space) (rest : List Char) :
    (readPairMembers f g space budget first x y (blank.chars ++
      (itemsText first (entries.map (Entry.write Phrase.write)) ++ '\x7d' :: rest))).toOption =
      (Entry.names? entries).bind fun _ => (f.after? f? x (Entry.valuesOf f.name entries)).bind
        fun x => (g.after? g? y (Entry.valuesOf g.name entries)).map fun y => ((x, y), rest) := by
  -- what was found before differs from member to member, and so does the white space
  induction entries generalizing budget first blank x y with
  | nil =>
    obtain ⟨budget, rfl⟩ : ∃ b, budget = b + 1 := ⟨budget - 1, by simp at few; omega⟩
    rw [List.map_nil, itemsText_nil, List.nil_append]
    exact readPairMembers_end first blank rest
  | cons entry entries ih =>
    rw [List.length_cons] at few
    obtain ⟨budget, rfl⟩ : ∃ b, budget = b + 1 := ⟨budget - 1, by omega⟩
    have few : entries.length < budget := by omega
    have short := long entry List.mem_cons_self
    have long := fun entry mem => long entry (List.mem_cons_of_mem _ mem)
    have stops := stops_space entry.value.after
      (stops_items (entries.map (Entry.write Phrase.write)) (stops_brace rest))
    rw [List.map_cons, itemsText_cons, List.append_assoc]
    unfold readPairMembers
    refine (toOption_bind _ _).trans ?_
    rw [nextKey?_write, Padded.write_append]
    cases isKey : Glyph.text? entry.name.content with
    | none =>
      rw [Entry.names?_cons_none isKey]
      rfl
    | some key =>
      rw [Entry.names?_cons_some isKey]
      dsimp only [Option.map_some, Option.bind_some]
      -- a member is one of the fields, or is passed over
      by_cases isF : key = f.name
      · subst isF
        have notG : Glyph.text? entry.name.content ≠ some g.name :=
          isKey.trans_ne fun same => distinct (Option.some.inj same).symm
        rw [Entry.valuesOf_cons_same isKey, Entry.valuesOf_cons_other notG, if_pos rfl]
        exact RecordField.readMember_write (hf _ short) stops _
          (fun x? => (Entry.names? entries).bind fun _ => x?.bind fun x =>
            (g.after? g? y (Entry.valuesOf g.name entries)).map fun y => ((x, y), rest))
          (Option.bind_fun_none _) fun x => ih few long false entry.value.after
      · have notF : Glyph.text? entry.name.content ≠ some f.name :=
          isKey.trans_ne fun same => isF (Option.some.inj same)
        rw [Entry.valuesOf_cons_other notF, if_neg isF]
        by_cases isG : key = g.name
        · subst isG
          rw [Entry.valuesOf_cons_same isKey, if_pos rfl]
          exact RecordField.readMember_write (hg _ short) stops _
            (fun y? => (Entry.names? entries).bind fun _ =>
              (f.after? f? x (Entry.valuesOf f.name entries)).bind fun x =>
                y?.map fun y => ((x, y), rest))
            (by simp) fun y => ih few long false entry.value.after
        · have notG : Glyph.text? entry.name.content ≠ some g.name :=
            isKey.trans_ne fun same => isG (Option.some.inj same)
          have colon := readColon_write entry.name.after (entry.value.before.chars ++
            (entry.value.content.write ++ (entry.value.after.chars ++
              (itemsText false (entries.map (Entry.write Phrase.write)) ++ '\x7d' :: rest))))
          have passed := passValue_write entry.value.content short entry.value.before stops
          rw [Entry.valuesOf_cons_other notG, if_neg isG]
          refine (congrArg Except.toOption (bind_of_ok colon)).trans ?_
          refine (congrArg Except.toOption (bind_of_ok passed)).trans ?_
          exact ih few long false entry.value.after

/-! ### Arrays -/

/-- The next field of a record that is written as an array is read if there is one, else it has to
be one that may be missing. -/
theorem readElement_nil (field : RecordField β) (first : Bool) (position : ℕ) (wanted : Wanted)
    (blank : Space) (rest : List Char) :
    (field.readElement first position wanted (blank.chars ++ ']' :: rest)).toOption =
      field.default?.map (·, ']' :: rest) := by
  refine (congrArg Except.toOption (bind_of_ok (moreElements_end first blank rest))).trans ?_
  cases isMissing : field.default? with
  | none => rfl
  | some x => rfl

/-- An element is read as the field in its place. -/
theorem readElement_cons {items : List (Padded Phrase)} {item : Padded Phrase}
    (hf : Yields f.read item.content.write x) (first : Bool) (position : ℕ) (wanted : Wanted)
    (blank : Space) (rest : List Char) :
    (f.readElement first position wanted (blank.chars ++ (itemsText first
      ((item :: items).map (Padded.write Phrase.write)) ++ ']' :: rest))).toOption =
      x.map (·, item.after.chars ++
        (itemsText false (items.map (Padded.write Phrase.write)) ++ ']' :: rest)) := by
  have stops := stops_items (items.map (Padded.write Phrase.write)) (stops_bracket rest)
  rw [List.map_cons, itemsText_cons, List.append_assoc]
  refine (congrArg Except.toOption (bind_of_ok (moreElements_write first blank item _))).trans ?_
  exact hf .none _ (stops_space item.after stops)

/-- A comma is no end of an array, whether the array ends behind it or not. -/
theorem closeArray_comma (rest : List Char) : (closeArray (',' :: rest)).toOption = none := by
  unfold closeArray
  rw [skipSpace_cons rfl rest]
  split
  · rfl
  · rename_i isEnd
    exact absurd (List.cons.inj isEnd).1 (by decide)
  · split
    · rfl
    · rfl
  · rfl

/-- The end of an array, with elements before it or not. -/
theorem closeArray_write (blank : Space) (items : List (Padded Phrase)) (rest : List Char) :
    (closeArray (blank.chars ++
      (itemsText false (items.map (Padded.write Phrase.write)) ++ ']' :: rest))).toOption =
      if items = [] then some rest else none := by
  unfold closeArray
  rw [skipSpace_space, ← closeArray.eq_def]
  cases items with
  | nil => rfl
  | cons item items =>
    rw [if_neg (List.cons_ne_nil _ _), List.map_cons, itemsText_cons, if_neg Bool.false_ne_true]
    rw [List.cons_append, List.cons_append]
    exact closeArray_comma _

/-- The last field of a record that is written as an array is read with the end of the array. -/
theorem readLast_write {items : List (Padded Phrase)}
    (hg : ∀ p, p.write.length < space → Yields g.read p.write (g? p))
    (long : ∀ item ∈ items, item.content.write.length < space)
    (record : String) (x : β) (blank : Space) (rest : List Char) :
    (do
      let (y, rest) ← g.readElement false 1 (.recordOf record 2) (blank.chars ++
        (itemsText false (items.map (Padded.write Phrase.write)) ++ ']' :: rest))
      return ((x, y), ← closeArray rest) : Except Fault ((β × γ) × List Char)).toOption =
      (g.given? g? (items.map (·.content))).map fun y => ((x, y), rest) := by
  cases items with
  | nil =>
    rw [List.map_nil, itemsText_nil, List.nil_append]
    refine (toOption_bind_read (readElement_nil g false 1 _ blank rest) _).trans ?_
    show _ = g.default?.map fun y => ((x, y), rest)
    cases g.default? with
    | none => rfl
    | some y => rfl
  | cons item items =>
    -- what is behind the last field has to be the end of the array
    have close := closeArray_write item.after items rest
    refine (toOption_bind_read
      (readElement_cons (hg _ (long item List.mem_cons_self)) false 1 _ blank rest) _).trans ?_
    cases isY : g? item.content with
    | none =>
      cases items with
      | nil => rw [List.map_singleton, RecordField.given?, isY, Option.map_none, Option.bind_none]
      | cons next items => rfl
    | some y =>
      refine (toOption_bind _ _).trans ?_
      rw [close]
      cases items with
      | nil =>
        rw [List.map_singleton, RecordField.given?, isY]
        rfl
      | cons next items => rfl

/-- The record that the elements of an array stand for. -/
def elements? (f : RecordField β) (g : RecordField γ) (f? : Phrase → Option β)
    (g? : Phrase → Option γ) : List Phrase → Option (β × γ)
  | [] => f.default?.bind fun x => (g.given? g? []).map (x, ·)
  | p :: others => (f? p).bind fun x => (g.given? g? others).map (x, ·)

/-- The elements of an array are read as the fields that they stand for. -/
theorem readPairElements_write {items : List (Padded Phrase)}
    (hf : ∀ p, p.write.length < space → Yields f.read p.write (f? p))
    (hg : ∀ p, p.write.length < space → Yields g.read p.write (g? p))
    (long : ∀ item ∈ items, item.content.write.length < space)
    (record : String) (blank : Space) (rest : List Char) :
    (readPairElements record f g (blank.chars ++
      (itemsText true (items.map (Padded.write Phrase.write)) ++ ']' :: rest))).toOption =
      (elements? f g f? g? (items.map (·.content))).map (·, rest) := by
  refine (toOption_bind _ _).trans ?_
  cases items with
  | nil =>
    rw [List.map_nil, itemsText_nil, List.nil_append, readElement_nil, List.map_nil, elements?]
    -- in an empty array both fields are missing
    cases f.default? with
    | none => rfl
    | some x =>
      refine (readLast_write hg long record x .none rest).trans ?_
      rw [Option.bind_some, Option.map_map]
      rfl
  | cons item items =>
    rw [readElement_cons (hf _ (long item List.mem_cons_self)), List.map_cons, elements?]
    cases f? item.content with
    | none => rfl
    | some x =>
      have long := fun item mem => long item (List.mem_cons_of_mem _ mem)
      refine (readLast_write hg long record x item.after rest).trans ?_
      rw [Option.bind_some, Option.map_map]
      rfl

/-! ### Records -/

/-- The record that a value stands for. -/
def pair? (f : RecordField β) (g : RecordField γ) (f? : Phrase → Option β)
    (g? : Phrase → Option γ) : Phrase → Option (β × γ)
  | .object _ entries => do
    let _ ← Entry.names? entries
    let x ← f.given? f? (Entry.valuesOf f.name entries)
    let y ← g.given? g? (Entry.valuesOf g.name entries)
    return (x, y)
  | .array _ items => elements? f g f? g? (items.map (·.content))
  | _ => none

/-- A value that is neither an object nor an array is no record. -/
theorem readPair_other {c : Char} (noSpace : isSpace c = false) (noObject : c ≠ '\x7b')
    (noArray : c ≠ '[') (record : String) (cs : List Char) :
    (readPair budget record f g (c :: cs)).toOption = none := by
  unfold readPair
  rw [skipSpace_cons noSpace]
  split
  · rfl
  · rename_i isObject
    exact absurd (List.cons.inj isObject).1 noObject
  · rename_i isArray
    exact absurd (List.cons.inj isArray).1 noArray
  · rfl

/-- A value is read as the record that it stands for. -/
theorem readPair_write (distinct : g.name ≠ f.name)
    (hf : ∀ p, p.write.length < budget → Yields f.read p.write (f? p))
    (hg : ∀ p, p.write.length < budget → Yields g.read p.write (g? p))
    (record : String) (phrase : Phrase) (long : phrase.write.length < budget) :
    Yields (readPair budget record f g) phrase.write (pair? f g f? g? phrase) := by
  intro before rest _
  have start : readPair budget record f g (before.chars ++ (phrase.write ++ rest)) =
      readPair budget record f g (phrase.write ++ rest) := by
    rw [readPair, skipSpace_space, readPair]
  rw [start]
  cases phrase with
  | object blank entries =>
    have few := (Phrase.length_entries_lt blank entries).trans long
    rw [Phrase.write_object_append]
    refine (readPairMembers_write distinct hf hg few
      (fun entry mem => (Phrase.length_entry_lt mem).trans long) true blank rest).trans ?_
    -- at the start no field was found
    rw [f.after?_none, g.after?_none, pair?]
    cases Entry.names? entries with
    | none => rfl
    | some names =>
      show Option.bind _ _ = (Option.bind _ _).map _
      cases f.given? f? (Entry.valuesOf f.name entries) with
      | none => rfl
      | some x =>
        show Option.map _ _ = (Option.bind _ _).map _
        cases g.given? g? (Entry.valuesOf g.name entries) with
        | none => rfl
        | some y => rfl
  | array blank items =>
    rw [Phrase.write_array_append]
    exact readPairElements_write hf hg (fun item mem => (Phrase.length_item_lt mem).trans long)
      record blank rest
  | null => exact readPair_other rfl (by decide) (by decide) record _
  | bool b =>
    cases b with
    | true => exact readPair_other rfl (by decide) (by decide) record _
    | false => exact readPair_other rfl (by decide) (by decide) record _
  | number n =>
    obtain ⟨c, cs, isText, start⟩ := n.exists_cons
    rw [Phrase.write, isText]
    exact readPair_other (isSpace_of_isNumberStart start) (ne_of_isNumberStart start rfl)
      (ne_of_isNumberStart start rfl) record _
  | text s => exact readPair_other rfl (by decide) (by decide) record _

/-! ### What is read as a record -/

/-- A field of an array is read from an element, or the array has ended and the field was
missing. -/
theorem reaches_of_readElement {first : Bool} {position : ℕ} {wanted : Wanted} {x : β}
    {cs rest : List Char} (h : f.readElement first position wanted cs = .ok (x, rest)) :
    (∃ behind, Reaches .array first cs behind ∧ f.read behind = .ok (x, rest)) ∨
      ∃ more, rest = ']' :: more ∧ Ends .array cs more := by
  obtain ⟨⟨goesOn, behind⟩, more, h⟩ := exists_of_bind_ok h
  cases goesOn with
  | true => exact .inl ⟨behind, reaches_of_moreElements more, h⟩
  | false =>
    obtain ⟨end', rfl, ends⟩ := ends_of_moreElements more
    dsimp only at h
    split at h
    · cases h
      exact .inr ⟨_, rfl, ends⟩
    · cases h

/-- What is read as a record of an array are elements up to the bracket. -/
theorem partsThen_of_readPairElements (takesF : Takes f.read) (takesG : Takes g.read)
    {record : String} {pair : β × γ} {cs rest : List Char}
    (h : readPairElements record f g cs = .ok (pair, rest)) : PartsThen .array true cs rest := by
  obtain ⟨⟨x, more⟩, readF, h⟩ := exists_of_bind_ok h
  obtain ⟨⟨y, last⟩, readG, h⟩ := exists_of_bind_ok h
  obtain ⟨behind, close, h⟩ := exists_of_bind_ok h
  cases h
  have ends := ends_of_closeArray close
  rcases reaches_of_readElement readF with ⟨valueF, reachesF, readF⟩ | ⟨more, rfl, ended⟩
  · rcases reaches_of_readElement readG with ⟨valueG, reachesG, readG⟩ | ⟨last, rfl, ended⟩
    · exact .cons reachesF (takesF readF) (.cons reachesG (takesG readG) (.nil ends false))
    · cases close
      exact .cons reachesF (takesF readF) (.nil ended false)
  · -- the array has ended, so that the other field is missing too
    obtain ⟨⟨goesOn, behind⟩, end', h⟩ := exists_of_bind_ok readG
    cases end'
    dsimp only at h
    split at h
    · cases h
      cases close
      exact .nil ended true
    · cases h

/-- What is read as a record of an object are members up to the brace, whether they are fields or
were passed over. -/
theorem partsThen_of_readPairMembers (takesF : Takes f.read) (takesG : Takes g.read)
    {first : Bool} {pair : β × γ} {cs rest : List Char}
    (h : readPairMembers f g space budget first x y cs = .ok (pair, rest)) :
    PartsThen .object first cs rest := by
  -- what was found so far makes no difference to where the object ends
  induction budget generalizing first x y cs with
  | zero => cases h
  | succ budget ih =>
    obtain ⟨⟨key?, behind⟩, next, h⟩ := exists_of_bind_ok h
    cases key? with
    | none =>
      obtain ⟨more, rfl, ends⟩ := ends_of_nextKey? next
      obtain ⟨x, -, h⟩ := exists_of_bind_ok h
      obtain ⟨y, -, h⟩ := exists_of_bind_ok h
      cases h
      exact .nil ends first
    | some key =>
      dsimp only at h
      split at h
      · obtain ⟨-, -, h⟩ := exists_of_bind_ok h
        obtain ⟨value, colon, h⟩ := exists_of_bind_ok h
        obtain ⟨⟨x, after⟩, read, h⟩ := exists_of_bind_ok h
        exact .cons (reaches_of_nextKey? next colon) (takesF read) (ih h)
      · split at h
        · obtain ⟨-, -, h⟩ := exists_of_bind_ok h
          obtain ⟨value, colon, h⟩ := exists_of_bind_ok h
          obtain ⟨⟨y, after⟩, read, h⟩ := exists_of_bind_ok h
          exact .cons (reaches_of_nextKey? next colon) (takesG read) (ih h)
        · obtain ⟨value, colon, h⟩ := exists_of_bind_ok h
          obtain ⟨after, passed, h⟩ := exists_of_bind_ok h
          exact .cons (reaches_of_nextKey? next colon) (valueThen_of_passValue passed) (ih h)

/-- What is read as a record is a value. -/
theorem takes_readPair (takesF : Takes f.read) (takesG : Takes g.read) (record : String) :
    Takes (readPair budget record f g) := by
  intro cs pair rest h
  refine ValueThen.of_skipSpace ?_
  unfold readPair at h
  split at h
  · cases h
  · rename_i isText
    rw [isText]
    exact .of_parts (partsThen_of_readPairMembers takesF takesG h)
  · rename_i isText
    rw [isText]
    exact .of_parts (partsThen_of_readPairElements takesF takesG h)
  · cases h

end DeadReckoning.Json

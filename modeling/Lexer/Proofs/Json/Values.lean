import Lexer.Json.Tree
import Lexer.Proofs.Json.Numbers
import Lexer.Proofs.Json.Strings

/-! # Values are read back

A written value is read as its tree, without any damage, up to what follows it.  The proof is by recursion
on the value, together with the items of a list and the members of an object; the fuel for a value is twice
the length of its text.  **A value fits** if all its numbers have 64 bits, as larger ones are not read as
natural numbers. -/

namespace Lexer.Json

mutual

/-- **All numbers of a value have 64 bits.** -/
def Value.Fits : Value → Prop
  | .number n => n < UInt64.size
  | .string _ => True
  | .list items => Value.ItemsFit items
  | .object members => Value.MembersFit members

/-- All numbers of some values have 64 bits. -/
def Value.ItemsFit : List Value → Prop
  | [] => True
  | item :: rest => item.Fits ∧ Value.ItemsFit rest

/-- All numbers of some members have 64 bits. -/
def Value.MembersFit : List (Text × Value) → Prop
  | [] => True
  | (_, value) :: rest => value.Fits ∧ Value.MembersFit rest

end

/-- Values fit if each one does. -/
theorem Value.itemsFit_iff {items : List Value} :
    Value.ItemsFit items ↔ ∀ item ∈ items, item.Fits := by
  induction items with
  | nil => simp [Value.ItemsFit]
  | cons item rest ih => rw [Value.ItemsFit, ih, List.forall_mem_cons]

/-! ## (1) The start of a value -/

/-- Nothing is skipped in front of what is no blank. -/
theorem skipSpace_cons {c : Option Char} (noSpace : isSpace c = false) (rest : Marked) :
    skipSpace (c :: rest) = c :: rest := by
  rw [skipSpace, List.dropWhile_cons_of_neg (by rw [noSpace]; exact Bool.false_ne_true)]

/-- **Starts of values**: characters that are no blanks and close nothing. -/
def IsStart (c : Char) : Prop :=
  isSpace (some c) = false ∧ c ≠ ']'

/-- A digit starts a value. -/
theorem isStart_of_isDigit {c : Char} (digit : Decimal.isDigit c = true) : IsStart c := by
  constructor
  · cases space : isSpace (some c) with
    | false => rfl
    | true =>
        simp only [isSpace, Bool.or_eq_true, decide_eq_true_eq, Option.some.injEq] at space
        rcases space with ((rfl | rfl) | rfl) | rfl
        all_goals exact absurd digit (by decide)
  · rintro rfl
    exact absurd digit (by decide)

/-- A written number starts with a digit. -/
theorem write_number_eq_cons (number : Nat) :
    ∃ c rest, Decimal.write number = c :: rest ∧ Decimal.isDigit c = true := by
  have all := Decimal.all_isDigit_write number
  cases same : Decimal.write number with
  | nil => exact absurd same (Decimal.write_ne_nil number)
  | cons c rest =>
      rw [same, List.all_cons, Bool.and_eq_true] at all
      exact ⟨c, rest, rfl, all.1⟩

/-- A written value starts as values do. -/
theorem Value.write_eq_cons (value : Value) : ∃ c rest, value.write = c :: rest ∧ IsStart c := by
  cases value with
  | number n =>
      obtain ⟨c, rest, same, digit⟩ := write_number_eq_cons n
      exact ⟨c, rest, by rw [Value.write, same], isStart_of_isDigit digit⟩
  | string text => exact ⟨_, _, by rw [Value.write, writeString], by decide, by decide⟩
  | list items => exact ⟨_, _, by rw [Value.write], by decide, by decide⟩
  | object members => exact ⟨_, _, by rw [Value.write], by decide, by decide⟩

/-- Some written values start as values do. -/
theorem Value.writeItems_eq_cons (item : Value) (rest : List Value) :
    ∃ c after, Value.writeItems (item :: rest) = c :: after ∧ IsStart c := by
  obtain ⟨c, after, same, start⟩ := item.write_eq_cons
  cases rest with
  | nil => exact ⟨c, after, by rw [Value.writeItems, same], start⟩
  | cons next rest =>
      exact ⟨c, after ++ ',' :: Value.writeItems (next :: rest),
        by rw [Value.writeItems, same, List.cons_append]; simp, start⟩

/-! ## (2) One step of reading -/

/-- A number is read from its first digit. -/
theorem readValue_digit {c : Char} (digit : Decimal.isDigit c = true) (fuel : Nat) (rest : Marked) :
    readValue (fuel + 1) (some c :: rest) = numberTree false (some c :: rest) := by
  rw [readValue, skipSpace_cons (isStart_of_isDigit digit).1]
  -- the special characters are told apart before digits are, and none of them is a digit
  split
  case h_9 same =>
    obtain ⟨rfl, rfl⟩ : c = _ ∧ rest = _ := by simpa using same
    rw [if_pos digit]
  case h_10 none => exact absurd rfl (none c rest)
  all_goals simp_all [Decimal.isDigit]

/-- A string is read from behind its opening quotation mark. -/
theorem readValue_quote (fuel : Nat) (rest : Marked) :
    readValue (fuel + 1) (some '\x22' :: rest) = stringTree rest := by
  rw [readValue, skipSpace_cons (by decide)]
  rfl

/-- An empty list is read. -/
theorem readValue_nil (fuel : Nat) (rest : Marked) :
    readValue (fuel + 1) (some '[' :: some ']' :: rest) = (.list [] .closed, rest) := by
  rw [readValue, skipSpace_cons (by decide)]
  simp only
  rw [skipSpace_cons (by decide)]
  rfl

/-- A list is read from the start of its first item. -/
theorem readValue_list {c : Char} (start : IsStart c) {fuel : Nat} {source rest : Marked}
    {items : List Tree} {ending : Ending}
    (read : readItems fuel (some c :: source) = (items, ending, rest)) :
    readValue (fuel + 1) (some '[' :: some c :: source) = (.list items ending, rest) := by
  rw [readValue, skipSpace_cons (by decide)]
  simp only
  rw [skipSpace_cons start.1]
  split
  · next same => exact absurd same (by simp)
  · next same =>
      obtain ⟨rfl, -⟩ : c = ']' ∧ source = _ := by simpa using same
      exact absurd rfl start.2
  · rw [read]

/-- An object is read from its first key. -/
theorem readValue_object {fuel : Nat} {source rest : Marked} {members : List (Quoted × Tree)}
    {ending : Ending} (read : readMembers fuel .noKey source = (members, ending, rest)) :
    readValue (fuel + 1) (some '{' :: source) = (.object members ending, rest) := by
  rw [readValue, skipSpace_cons (by decide)]
  simp only
  rw [read]

/-- The last item of a list is read. -/
theorem readItems_last {fuel : Nat} {source rest : Marked} {tree : Tree} (whole : tree.isWhole = true)
    (read : readValue fuel source = (tree, some ']' :: rest)) :
    readItems (fuel + 1) source = ([tree], .closed, rest) := by
  rw [readItems, read]
  simp only [whole, Bool.not_true, Bool.false_eq_true, if_false]
  rw [skipSpace_cons (by decide)]
  rfl

/-- An item of a list is read, and the items behind the comma. -/
theorem readItems_cons {c : Char} (start : IsStart c) {fuel : Nat} {source next rest : Marked}
    {tree : Tree} {items : List Tree} {ending : Ending} (whole : tree.isWhole = true)
    (read : readValue fuel source = (tree, some ',' :: some c :: next))
    (others : readItems fuel (some c :: next) = (items, ending, rest)) :
    readItems (fuel + 1) source = (tree :: items, ending, rest) := by
  rw [readItems, read]
  simp only [whole, Bool.not_true, Bool.false_eq_true, if_false]
  rw [skipSpace_cons (by decide)]
  simp only
  rw [skipSpace_cons start.1]
  split
  · next same => exact absurd same (by simp)
  · next same =>
      obtain ⟨rfl, -⟩ : c = ']' ∧ next = _ := by simpa using same
      exact absurd rfl start.2
  · rw [others]

/-- A written key, its colon and what follows. -/
theorem marked_writeString_append (name after : Text) (rest : Marked) :
    Text.marked (writeString name ++ ':' :: after) ++ rest =
      some '\x22' :: (Text.marked (name.flatMap writeChar) ++
        some '\x22' :: some ':' :: (after.marked ++ rest)) := by
  rw [writeString]
  simp

/-- No member is left. -/
theorem readMembers_nil (fuel : Nat) (rest : Marked) :
    readMembers (fuel + 1) .noKey (some '}' :: rest) = ([], .closed, rest) := by
  rw [readMembers, skipSpace_cons (by decide)]
  rfl

/-- The last member of an object is read. -/
theorem readMembers_last {fuel : Nat} {without : Ending} {name : Text} {source rest : Marked}
    {tree : Tree} (whole : tree.isWhole = true)
    (read : readValue fuel source = (tree, some '}' :: rest)) :
    readMembers (fuel + 1) without (some '\x22' :: (Text.marked (name.flatMap writeChar) ++
      some '\x22' :: some ':' :: source)) = ([(.whole (.ok name), tree)], .closed, rest) := by
  rw [readMembers, skipSpace_cons (by decide)]
  simp only
  rw [quoted_writeString]
  simp only
  rw [skipSpace_cons (by decide)]
  simp only
  rw [read]
  simp only [whole, Bool.not_true, Bool.false_eq_true, if_false]
  rw [skipSpace_cons (by decide)]
  rfl

/-- A member of an object is read, and the members behind the comma. -/
theorem readMembers_cons {fuel : Nat} {without : Ending} {name : Text} {source next rest : Marked}
    {tree : Tree} {members : List (Quoted × Tree)} {ending : Ending} (whole : tree.isWhole = true)
    (read : readValue fuel source = (tree, some ',' :: next))
    (others : readMembers fuel .commaClosed next = (members, ending, rest)) :
    readMembers (fuel + 1) without (some '\x22' :: (Text.marked (name.flatMap writeChar) ++
      some '\x22' :: some ':' :: source)) =
      ((.whole (.ok name), tree) :: members, ending, rest) := by
  rw [readMembers, skipSpace_cons (by decide)]
  simp only
  rw [quoted_writeString]
  simp only
  rw [skipSpace_cons (by decide)]
  simp only
  rw [read]
  simp only [whole, Bool.not_true, Bool.false_eq_true, if_false]
  rw [skipSpace_cons (by decide)]
  simp only
  rw [others]

/-! ## (3) Whole values -/

/-- The tree of a value is whole. -/
theorem isWhole_ofValue (value : Value) : (Tree.ofValue value).isWhole = true := by
  cases value with
  | number n => rw [Tree.ofValue, Tree.isWhole] <;> simp
  | string text => rw [Tree.ofValue, Tree.isWhole] <;> simp
  | list items => rw [Tree.ofValue, Tree.isWhole]; rfl
  | object members => rw [Tree.ofValue, Tree.isWhole]; rfl

mutual

/-- **A written value** is read as its tree. -/
theorem readValue_write : (value : Value) → value.Fits → ∀ fuel rest, Delimited rest →
    2 * value.write.length ≤ fuel →
    readValue fuel (value.write.marked ++ rest) = (Tree.ofValue value, rest)
  | .number n, fits => fun fuel rest delimited enough => by
      rw [Value.Fits] at fits
      rw [Value.write] at enough ⊢
      obtain ⟨c, after, same, digit⟩ := write_number_eq_cons n
      -- a written number is not empty, so there is fuel for one step
      have positive : (Decimal.write n).length = after.length + 1 := by rw [same, List.length_cons]
      obtain ⟨fuel, rfl⟩ : ∃ less, fuel = less + 1 := ⟨fuel - 1, by omega⟩
      have read : readValue (fuel + 1) ((Decimal.write n).marked ++ rest) =
          numberTree false ((Decimal.write n).marked ++ rest) := by
        rw [same, Text.marked_cons, List.cons_append]
        exact readValue_digit digit fuel _
      rw [read, numberTree, numeral_write fits delimited, Tree.ofValue]
  | .string text, _ => fun fuel rest delimited enough => by
      rw [Value.write, writeString, List.length_cons] at enough
      obtain ⟨fuel, rfl⟩ : ∃ less, fuel = less + 1 := ⟨fuel - 1, by omega⟩
      rw [Value.write, writeString, Text.marked_cons, Text.marked_append, Text.marked_cons,
        Text.marked_nil, List.cons_append, List.append_assoc, List.singleton_append,
        readValue_quote, stringTree, quoted_writeString, Tree.ofValue]
  | .list [], _ => fun fuel rest delimited enough => by
      rw [Value.write, Value.writeItems] at enough ⊢
      obtain ⟨fuel, rfl⟩ : ∃ less, fuel = less + 1 := ⟨fuel - 1, by simp at enough; omega⟩
      rw [Tree.ofValue, Tree.ofItems]
      exact readValue_nil fuel rest
  | .list (item :: items), fits => fun fuel rest delimited enough => by
      rw [Value.Fits] at fits
      rw [Value.write, List.length_cons, List.length_append, List.length_singleton] at enough
      obtain ⟨fuel, rfl⟩ : ∃ less, fuel = less + 1 := ⟨fuel - 1, by omega⟩
      -- the brackets pay for the step of fuel that the list itself takes
      have read := readItems_write (item :: items) (by simp) fits fuel rest (by omega)
      obtain ⟨c, after, same, start⟩ := Value.writeItems_eq_cons item items
      rw [Value.write, Text.marked_cons, Text.marked_append, Text.marked_cons, Text.marked_nil,
        List.cons_append, List.append_assoc, List.singleton_append, Tree.ofValue]
      rw [same, Text.marked_cons, List.cons_append] at read ⊢
      exact readValue_list start read
  | .object [], _ => fun fuel rest delimited enough => by
      rw [Value.write, Value.writeMembers] at enough ⊢
      obtain ⟨fuel, rfl⟩ : ∃ less, fuel = less + 2 := ⟨fuel - 2, by simp at enough; omega⟩
      rw [Tree.ofValue, Tree.ofMembers]
      exact readValue_object (readMembers_nil fuel rest)
  | .object (member :: members), fits => fun fuel rest delimited enough => by
      rw [Value.Fits] at fits
      rw [Value.write, List.length_cons, List.length_append, List.length_singleton] at enough
      obtain ⟨fuel, rfl⟩ : ∃ less, fuel = less + 1 := ⟨fuel - 1, by omega⟩
      have read := readMembers_write (member :: members) (by simp) fits .noKey fuel rest
        (by omega)
      rw [Value.write, Text.marked_cons, Text.marked_append, Text.marked_cons, Text.marked_nil,
        List.cons_append, List.append_assoc, List.singleton_append, Tree.ofValue]
      exact readValue_object read

/-- Written items are read as their trees. -/
theorem readItems_write : (items : List Value) → items ≠ [] → Value.ItemsFit items →
    ∀ fuel rest, 2 * (Value.writeItems items).length + 1 ≤ fuel →
    readItems fuel ((Value.writeItems items).marked ++ some ']' :: rest) =
      (Tree.ofItems items, .closed, rest)
  | [], nonempty, _ => absurd rfl nonempty
  | [item], _, fits => fun fuel rest enough => by
      rw [Value.ItemsFit] at fits
      rw [Value.writeItems] at enough ⊢
      obtain ⟨fuel, rfl⟩ : ∃ less, fuel = less + 1 := ⟨fuel - 1, by omega⟩
      rw [Tree.ofItems, Tree.ofItems]
      exact readItems_last (isWhole_ofValue item)
        (readValue_write item fits.1 _ _ (.inr (.inl rfl)) (by omega))
  | item :: next :: items, _, fits => fun fuel rest enough => by
      rw [Value.ItemsFit] at fits
      rw [Value.writeItems, List.length_append, List.length_cons] at enough
      · obtain ⟨fuel, rfl⟩ : ∃ less, fuel = less + 1 := ⟨fuel - 1, by omega⟩
        have others := readItems_write (next :: items) (by simp) fits.2 fuel rest
          (by omega)
        obtain ⟨c, after, same, start⟩ := Value.writeItems_eq_cons next items
        have read := readValue_write item fits.1 fuel
          (some ',' :: ((Value.writeItems (next :: items)).marked ++ some ']' :: rest))
          (.inl rfl) (by omega)
        rw [Value.writeItems, Text.marked_append, Text.marked_cons, List.append_assoc,
          List.cons_append, Tree.ofItems]
        · rw [same, Text.marked_cons, List.cons_append] at others read ⊢
          exact readItems_cons start (isWhole_ofValue item) read others
        · simp
      · simp

/-- Written members are read as their names and trees. -/
theorem readMembers_write : (members : List (Text × Value)) → members ≠ [] →
    Value.MembersFit members →
    ∀ without fuel rest, 2 * (Value.writeMembers members).length + 1 ≤ fuel →
    readMembers fuel without ((Value.writeMembers members).marked ++ some '}' :: rest) =
      (Tree.ofMembers members, .closed, rest)
  | [], nonempty, _ => absurd rfl nonempty
  | [(name, value)], _, fits => fun without fuel rest enough => by
      rw [Value.MembersFit] at fits
      rw [Value.writeMembers, List.length_append, List.length_cons] at enough
      obtain ⟨fuel, rfl⟩ : ∃ less, fuel = less + 1 := ⟨fuel - 1, by omega⟩
      rw [Value.writeMembers, marked_writeString_append, Tree.ofMembers, Tree.ofMembers]
      exact readMembers_last (isWhole_ofValue value)
        (readValue_write value fits.1 _ _ (.inr (.inr rfl)) (by omega))
  | (name, value) :: next :: members, _, fits => fun without fuel rest enough => by
      rw [Value.MembersFit] at fits
      rw [Value.writeMembers, List.length_append, List.length_cons, List.length_append,
        List.length_cons] at enough
      · obtain ⟨fuel, rfl⟩ : ∃ less, fuel = less + 1 := ⟨fuel - 1, by omega⟩
        have others := readMembers_write (next :: members) (by simp) fits.2 .commaClosed fuel rest
          (by omega)
        have read := readValue_write value fits.1 fuel
          (some ',' :: ((Value.writeMembers (next :: members)).marked ++ some '}' :: rest))
          (.inl rfl) (by omega)
        rw [Value.writeMembers, marked_writeString_append, Text.marked_append, Text.marked_cons,
          List.append_assoc, List.cons_append, Tree.ofMembers]
        · exact readMembers_cons (isWhole_ofValue value) read others
        · simp
      · simp

end

/-- **Reading gives back what was written**: the tree of the value, and nothing behind it. -/
theorem read_write {value : Value} (fits : value.Fits) :
    read value.write.marked = (Tree.ofValue value, []) := by
  have whole := readValue_write value fits (2 * value.write.length + 2) [] trivial (by omega)
  rw [List.append_nil] at whole
  rw [read, Text.length_marked, whole]

end Lexer.Json

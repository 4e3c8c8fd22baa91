import Lexer.Artifact.Decoding
import Lexer.Artifact.Encoding
import Lexer.Proofs.Json.Values
import Lexer.Proofs.Outcome

/-! # Laws of decoders

How decoders of lists, pairs and records act, whatever their parts are.  **Forward**: if the parts of a
written form encode some values, the whole encodes what these make.  **Backward**: what is decoded from any
tree was made of values that the parts decode. -/

namespace Lexer.Artifact

open Json (Tree Value Ending Quoted)

variable {α β γ δ σ : Type}

/-- **A value that a decoder gives** for some tree. -/
def Decodes (decode : Decoder α) (value : α) : Prop :=
  ∃ tree, decode tree = .ok value

/-- **A written form encodes a value** for a decoder: its numbers have 64 bits, and the decoder gives the
value back. -/
structure Encodes (decode : Decoder α) (written : Value) (value : α) : Prop where
  /-- The numbers have 64 bits. -/
  fits : written.Fits
  /-- The value is given back. -/
  decoded : decode (Tree.ofValue written) = .ok value

/-! ## (1) Lists and pairs -/

/-- A written list is decoded item by item. -/
theorem items_ofItems {decode : Decoder α} {encode : α → Value} {values : List α}
    (each : ∀ value ∈ values, Encodes decode (encode value) value) :
    items decode .closed (Tree.ofItems (values.map encode)) = .ok values := by
  induction values with
  | nil =>
      rw [List.map_nil, Tree.ofItems]
      rfl
  | cons value values ih =>
      rw [List.forall_mem_cons] at each
      rw [List.map_cons, Tree.ofItems, items, each.1.decoded]
      simp only
      rw [ih each.2]
      rfl

/-- **A written list** encodes its items. -/
theorem Encodes.list {decode : Decoder α} {encode : α → Value} {values : List α}
    (each : ∀ value ∈ values, Encodes decode (encode value) value) :
    Encodes (list decode) (.list (values.map encode)) values where
  fits := by
    rw [Value.Fits, Value.itemsFit_iff, List.forall_mem_map]
    exact fun value member => (each value member).fits
  decoded := by
    rw [Tree.ofValue, Artifact.list]
    exact items_ofItems each

/-- **A written pair** encodes its values. -/
theorem Encodes.pair {decode : Decoder α} {first second : Value} {left right : α}
    (encodesLeft : Encodes decode first left) (encodesRight : Encodes decode second right) :
    Encodes (pair decode) (.list [first, second]) (left, right) where
  fits := by
    rw [Value.Fits, Value.ItemsFit, Value.ItemsFit, Value.ItemsFit]
    exact ⟨encodesLeft.fits, encodesRight.fits, trivial⟩
  decoded := by
    rw [Tree.ofValue, Tree.ofItems, Tree.ofItems, Tree.ofItems, Artifact.pair, encodesLeft.decoded]
    simp only [bind, Except.bind, encodesRight.decoded]
    rfl

/-- The items of a decoded list are decoded. -/
theorem decodes_of_items {decode : Decoder α} {ending : Ending} {trees : List Tree}
    {values : List α} (decoded : items decode ending trees = .ok values) {value : α}
    (member : value ∈ values) : Decodes decode value := by
  induction trees generalizing values with
  | nil =>
      rw [items] at decoded
      split at decoded
      · obtain rfl := Except.ok.inj decoded
        exact absurd member List.not_mem_nil
      · exact nomatch decoded
  | cons tree trees ih =>
      rw [items] at decoded
      split at decoded
      · exact nomatch decoded
      · next first known =>
          obtain ⟨others, rest, rfl⟩ := Except.map_eq_ok_iff.1 decoded
          rcases List.mem_cons.1 member with rfl | behind
          · exact ⟨tree, known⟩
          · exact ih rest behind

/-- **The items of a decoded list** are decoded. -/
theorem decodes_of_list {decode : Decoder α} {values : List α}
    (decoded : Decodes (list decode) values) {value : α} (member : value ∈ values) :
    Decodes decode value := by
  obtain ⟨tree, decoded⟩ := decoded
  cases tree with
  | list trees ending =>
      rw [list] at decoded
      exact decodes_of_items decoded member
  | _ => exact nomatch decoded

/-! ## (2) Records, forward -/

/-- A member that is there, and not yet set, is decoded. -/
theorem takeMembers_cons {members : List (Member σ)} {member : Member σ} {values next : σ}
    {ending : Ending} {name : Text} {tree : Tree} {rest : List (Quoted × Tree)}
    (named : members.find? (fun member => member.name = name) = some member)
    (unset : member.isSet values = false) (decoded : member.decode tree values = .ok next) :
    takeMembers members values ending ((.whole (.ok name), tree) :: rest) =
      takeMembers members next ending rest := by
  rw [takeMembers, keyText]
  simp only
  rw [takeMember, named]
  simp only
  rw [unset, if_neg Bool.false_ne_true, decoded]

variable {name first second third : String} {decodeFirst : Decoder α} {decodeSecond : Decoder β}
  {decodeThird : Decoder γ} {a : α} {b : β} {c : γ}

/-- A name may be that of the first member. -/
theorem find?_here {member : Member σ} {rest : List (Member σ)} {name : Text}
    (named : member.name = name) :
    (member :: rest).find? (fun member => member.name = name) = some member :=
  List.find?_cons_of_pos (decide_eq_true named)

/-- Another name may be that of a member behind. -/
theorem find?_behind {member found : Member σ} {rest : List (Member σ)} {name : Text}
    (different : member.name ≠ name)
    (behind : rest.find? (fun member => member.name = name) = some found) :
    (member :: rest).find? (fun member => member.name = name) = some found := by
  rw [List.find?_cons_of_neg (by simpa using different), behind]

/-- **A written record of two members** encodes what their values make. -/
theorem Encodes.record₂ {make : α → β → δ} {one two : Value} (names : key first ≠ key second)
    (encodesFirst : Encodes decodeFirst one a) (encodesSecond : Encodes decodeSecond two b) :
    Encodes (record (shape₂ name first second decodeFirst decodeSecond make))
      (.object [(key first, one), (key second, two)]) (make a b) where
  fits := by
    rw [Value.Fits, Value.MembersFit, Value.MembersFit, Value.MembersFit]
    exact ⟨encodesFirst.fits, encodesSecond.fits, trivial⟩
  decoded := by
    rw [Tree.ofValue, Tree.ofMembers, Tree.ofMembers, Tree.ofMembers, record]
    refine Except.bind_eq_ok_iff.2 ⟨(some a, some b), ?_, rfl⟩
    refine (takeMembers_cons (find?_here rfl) rfl
      (Except.map_eq_ok_iff.2 ⟨a, encodesFirst.decoded, rfl⟩)).trans ?_
    refine takeMembers_cons (find?_behind names (find?_here rfl)) rfl ?_
    exact Except.map_eq_ok_iff.2 ⟨b, encodesSecond.decoded, rfl⟩

/-- **A written record of three members** encodes what their values make. -/
theorem Encodes.record₃ {make : α → β → γ → δ} {one two three : Value}
    (names : key first ≠ key second) (others : key first ≠ key third ∧ key second ≠ key third)
    (encodesFirst : Encodes decodeFirst one a) (encodesSecond : Encodes decodeSecond two b)
    (encodesThird : Encodes decodeThird three c) :
    Encodes (record (shape₃ name first second third decodeFirst decodeSecond decodeThird make))
      (.object [(key first, one), (key second, two), (key third, three)]) (make a b c) where
  fits := by
    rw [Value.Fits, Value.MembersFit, Value.MembersFit, Value.MembersFit, Value.MembersFit]
    exact ⟨encodesFirst.fits, encodesSecond.fits, encodesThird.fits, trivial⟩
  decoded := by
    rw [Tree.ofValue, Tree.ofMembers, Tree.ofMembers, Tree.ofMembers, Tree.ofMembers, record]
    refine Except.bind_eq_ok_iff.2 ⟨(some a, some b, some c), ?_, rfl⟩
    refine (takeMembers_cons (find?_here rfl) rfl
      (Except.map_eq_ok_iff.2 ⟨a, encodesFirst.decoded, rfl⟩)).trans ?_
    refine (takeMembers_cons (find?_behind names (find?_here rfl)) rfl
      (Except.map_eq_ok_iff.2 ⟨b, encodesSecond.decoded, rfl⟩)).trans ?_
    refine takeMembers_cons (find?_behind others.1 (find?_behind others.2 (find?_here rfl))) rfl ?_
    exact Except.map_eq_ok_iff.2 ⟨c, encodesThird.decoded, rfl⟩

/-! ## (3) Records, backward -/

section Invariant

variable {members : List (Member σ)} {Holds : σ → Prop}
  (keeps : ∀ member ∈ members, ∀ tree values next, Holds values →
    member.decode tree values = .ok next → Holds next)

include keeps

/-- What every member keeps is kept by the members of an object. -/
theorem takeMembers_keeps {ending : Ending} {trees : List (Quoted × Tree)} {values result : σ}
    (holds : Holds values) (taken : takeMembers members values ending trees = .ok result) :
    Holds result := by
  induction trees generalizing values with
  | nil =>
      rw [takeMembers] at taken
      split at taken
      · obtain rfl := Except.ok.inj taken
        exact holds
      · exact nomatch taken
  | cons entry trees ih =>
      obtain ⟨quoted, tree⟩ := entry
      rw [takeMembers] at taken
      split at taken
      · exact nomatch taken
      split at taken
      · exact nomatch taken
      · next name _ next took =>
          -- a known member keeps it, and an unknown one changes nothing
          refine ih ?_ taken
          rw [takeMember] at took
          split at took
          · next member known =>
              split at took
              · exact nomatch took
              · exact keeps member (List.mem_of_find?_eq_some known) tree values next holds took
          · split at took
            · exact nomatch took
            · obtain rfl := Except.ok.inj took
              exact holds

/-- What every member keeps is kept by the items of a list. -/
theorem takeItems_keeps {short : Nat → Fault} {ending : Ending} {position : Nat}
    {trees : List Tree} {values result : σ} (holds : Holds values)
    (taken : takeItems short values ending position members trees = .ok result) :
    Holds result := by
  -- the items follow the members, so the induction is on these
  induction members generalizing values trees position with
  | nil =>
      rw [takeItems] at taken
      obtain ⟨-, -, rfl⟩ := Except.map_eq_ok_iff.1 taken
      exact holds
  | cons member members ih =>
      cases trees with
      | nil => exact nomatch taken
      | cons tree trees =>
          rw [takeItems] at taken
          split at taken
          · exact nomatch taken
          · next next decoded =>
              exact ih (fun other behind => keeps other (List.mem_cons_of_mem member behind))
                (keeps member List.mem_cons_self tree values next holds decoded) taken

end Invariant

/-- **What every member keeps** holds of the values that a record is made of. -/
theorem exists_of_record {shape : Shape σ α} (Holds : σ → Prop) (start : Holds shape.start)
    (keeps : ∀ member ∈ shape.members, ∀ tree values next, Holds values →
      member.decode tree values = .ok next → Holds next) {value : α}
    (decoded : Decodes (record shape) value) :
    ∃ values, Holds values ∧ shape.finish values = .ok value := by
  obtain ⟨tree, decoded⟩ := decoded
  cases tree with
  | object trees ending =>
      obtain ⟨values, taken, finish⟩ := Except.bind_eq_ok_iff.1 decoded
      exact ⟨values, takeMembers_keeps keeps start taken, finish⟩
  | list trees ending =>
      obtain ⟨values, taken, finish⟩ := Except.bind_eq_ok_iff.1 decoded
      exact ⟨values, takeItems_keeps keeps start taken, finish⟩
  | _ => exact nomatch decoded

/-- The value of a required member is there. -/
theorem required_eq_ok_iff {member : Option α} {value : α} :
    required name member = .ok value ↔ member = some value := by
  cases member with
  | none => exact ⟨nofun, nofun⟩
  | some known => rw [required, Except.ok.injEq, Option.some.injEq]

/-- **A decoded record of two members** is made of values that the members decode. -/
theorem decodes_of_shape₂ {make : α → β → δ} {value : δ}
    (decoded : Decodes (record (shape₂ name first second decodeFirst decodeSecond make)) value) :
    ∃ a b, Decodes decodeFirst a ∧ Decodes decodeSecond b ∧ make a b = value := by
  obtain ⟨⟨one, two⟩, ⟨holdsOne, holdsTwo⟩, finish⟩ := exists_of_record
    (fun values : Two α β => (∀ a ∈ values.1, Decodes decodeFirst a) ∧
      ∀ b ∈ values.2, Decodes decodeSecond b)
    (by simp [shape₂]) (by
      intro member isMember tree values next holds decoded
      simp only [shape₂, List.mem_cons, List.not_mem_nil, or_false] at isMember
      -- every member sets its own value and leaves the other one as it is
      rcases isMember with rfl | rfl
      · obtain ⟨a, known, rfl⟩ := Except.map_eq_ok_iff.1 decoded
        refine ⟨?_, holds.2⟩
        rintro _ ⟨⟩
        exact ⟨tree, known⟩
      · obtain ⟨b, known, rfl⟩ := Except.map_eq_ok_iff.1 decoded
        refine ⟨holds.1, ?_⟩
        rintro _ ⟨⟩
        exact ⟨tree, known⟩) decoded
  obtain ⟨a, knownFirst, finish⟩ := Except.bind_eq_ok_iff.1 finish
  obtain ⟨b, knownSecond, finish⟩ := Except.bind_eq_ok_iff.1 finish
  exact ⟨a, b, holdsOne a (required_eq_ok_iff.1 knownFirst),
    holdsTwo b (required_eq_ok_iff.1 knownSecond), Except.ok.inj finish⟩

/-- **A decoded record of three members** is made of values that the members decode. -/
theorem decodes_of_shape₃ {make : α → β → γ → δ} {value : δ}
    (decoded : Decodes (record
      (shape₃ name first second third decodeFirst decodeSecond decodeThird make)) value) :
    ∃ a b c, Decodes decodeFirst a ∧ Decodes decodeSecond b ∧ Decodes decodeThird c ∧
      make a b c = value := by
  obtain ⟨⟨one, two, three⟩, ⟨holdsOne, holdsTwo, holdsThree⟩, finish⟩ := exists_of_record
    (fun values : Three α β γ => (∀ a ∈ values.1, Decodes decodeFirst a) ∧
      (∀ b ∈ values.2.1, Decodes decodeSecond b) ∧ ∀ c ∈ values.2.2, Decodes decodeThird c)
    (by simp [shape₃]) (by
      intro member isMember tree values next holds decoded
      simp only [shape₃, List.mem_cons, List.not_mem_nil, or_false] at isMember
      rcases isMember with rfl | rfl | rfl
      · obtain ⟨a, known, rfl⟩ := Except.map_eq_ok_iff.1 decoded
        refine ⟨?_, holds.2⟩
        rintro _ ⟨⟩
        exact ⟨tree, known⟩
      · obtain ⟨b, known, rfl⟩ := Except.map_eq_ok_iff.1 decoded
        refine ⟨holds.1, ?_, holds.2.2⟩
        rintro _ ⟨⟩
        exact ⟨tree, known⟩
      · obtain ⟨c, known, rfl⟩ := Except.map_eq_ok_iff.1 decoded
        refine ⟨holds.1, holds.2.1, ?_⟩
        rintro _ ⟨⟩
        exact ⟨tree, known⟩) decoded
  obtain ⟨a, knownFirst, finish⟩ := Except.bind_eq_ok_iff.1 finish
  obtain ⟨b, knownSecond, finish⟩ := Except.bind_eq_ok_iff.1 finish
  obtain ⟨c, knownThird, finish⟩ := Except.bind_eq_ok_iff.1 finish
  exact ⟨a, b, c, holdsOne a (required_eq_ok_iff.1 knownFirst),
    holdsTwo b (required_eq_ok_iff.1 knownSecond), holdsThree c (required_eq_ok_iff.1 knownThird),
    Except.ok.inj finish⟩

end Lexer.Artifact

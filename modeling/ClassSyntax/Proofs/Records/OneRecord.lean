import ClassSyntax.Record

/-!
# One record

A record that was written is read back as the token it was written for, and whatever is read as a
record is a token that can be written.

* `Text.readUInt32?_toDigits`: decimal line numbers are read back.
* `Text.trim_eq_self`: a text with no blank at either end is not trimmed.
* `Record.read?_render`: a written record gives the token.
* `Record.writable_of_read?`: a record that is on one line gives a token that can be written.
-/

namespace ClassSyntax

/-- Records can hold the token: its category has a name in records, and its lexeme takes part of one
line. -/
structure Token.Writable (token : Token) : Prop where
  shown : token.kind.isTrivia = false
  filled : token.lexeme ≠ ""
  oneLine : '\n' ∉ token.lexeme.toList

namespace Text

/-! ## Numbers -/

theorem dropPlus_of_isDigit {digits : List Char} (decimal : ∀ c ∈ digits, c.isDigit = true) :
    dropPlus digits = digits := by
  unfold dropPlus
  split
  · exact absurd (decimal '+' List.mem_cons_self) (by decide)
  · rfl

theorem digitsValue_toDigits (value : Nat) : digitsValue 0 (Nat.toDigits 10 value) = value :=
  Nat.ofDigitChars_ten_toDigits

theorem isDigit_of_mem_toDigits {value : Nat} {c : Char} (member : c ∈ Nat.toDigits 10 value) :
    c.isDigit = true :=
  Nat.isDigit_of_mem_toDigits (by decide) (by decide) member

theorem readUInt32?_toDigits (number : UInt32) :
    readUInt32? (Nat.toDigits 10 number.toNat) = some number := by
  have decimal : (Nat.toDigits 10 number.toNat).all Char.isDigit = true :=
    List.all_eq_true.mpr fun _ => isDigit_of_mem_toDigits
  have filled : (Nat.toDigits 10 number.toNat).isEmpty = false :=
    List.isEmpty_eq_false_iff.mpr Nat.toDigits_ne_nil
  unfold readUInt32?
  simp only [dropPlus_of_isDigit fun _ => isDigit_of_mem_toDigits, filled, decimal,
    digitsValue_toDigits]
  rw [if_neg (by simp), if_pos number.toNat_lt, UInt32.ofNat_toNat]

/-! ## Trimming -/

theorem trimStart_eq_self {c : Char} {text : List Char} (solid : isBlank c = false) :
    trimStart (c :: text) = c :: text := by
  rw [trimStart, List.dropWhile_cons_of_neg (by simp [solid])]

theorem trimEnd_eq_self {c : Char} {text : List Char} (solid : isBlank c = false) :
    trimEnd (text ++ [c]) = text ++ [c] := by
  rw [trimEnd, List.reverse_concat, List.dropWhile_cons_of_neg (by simp [solid]),
    ← List.reverse_concat, List.reverse_reverse]

theorem trim_eq_self {text : List Char} (first : ∀ c ∈ text.head?, isBlank c = false)
    (last : ∀ c ∈ text.getLast?, isBlank c = false) : trim text = text := by
  cases text with
  | nil => rfl
  | cons c rest =>
      rw [trim, trimStart_eq_self (first c rfl)]
      obtain ⟨front, d, same⟩ := (List.eq_nil_or_concat (c :: rest)).resolve_left (by simp)
      rw [same, List.concat_eq_append] at last ⊢
      exact trimEnd_eq_self (last d (by simp))

/-- Trimming leaves nothing in that was not there. -/
theorem mem_of_mem_trim {text : List Char} {c : Char} (member : c ∈ trim text) : c ∈ text := by
  rw [trim, trimEnd, List.mem_reverse] at member
  have inStart := List.mem_reverse.mp (List.dropWhile_subset _ member)
  exact List.dropWhile_subset _ inStart

end Text

namespace Record

/-! ## Fields -/

theorem splitComma?_append {front rest : List Char} (plain : ',' ∉ front) :
    splitComma? (front ++ ',' :: rest) = some (front, rest) := by
  have kept : ∀ c ∈ front, (c != ',') = true := by
    rintro c member
    rw [bne_iff_ne]
    rintro rfl
    exact plain member
  unfold splitComma?
  rw [List.dropWhile_append_of_pos kept, List.takeWhile_append_of_pos kept,
    List.dropWhile_cons_of_neg (by simp), List.takeWhile_cons_of_neg (by simp), List.append_nil]

theorem mem_of_splitComma? {text front rest : List Char}
    (split : splitComma? text = some (front, rest)) {c : Char} (member : c ∈ rest) : c ∈ text := by
  unfold splitComma? at split
  split at split
  · rename_i found
    obtain ⟨-, rfl⟩ := Prod.mk.inj (Option.some.inj split)
    exact List.dropWhile_subset _ (found ▸ List.mem_cons_of_mem _ member)
  · exact nomatch split

theorem unwrap?_wrapped (text : List Char) : unwrap? ('<' :: (text ++ ['>'])) = some text := by
  simp [unwrap?]

theorem mem_of_unwrap? {record text : List Char} (unwrapped : unwrap? record = some text)
    {c : Char} (member : c ∈ text) : c ∈ record := by
  unfold unwrap? at unwrapped
  split at unwrapped
  · simp only [Option.ite_none_right_eq_some, Option.some.injEq] at unwrapped
    obtain ⟨-, rfl⟩ := unwrapped
    exact List.mem_cons_of_mem _ (List.dropLast_subset _ member)
  · exact nomatch unwrapped

/-! ## The written record -/

theorem spelling_plain (kind : Kind) :
    ',' ∉ kind.spelling.toList ∧ '\n' ∉ kind.spelling.toList := by
  cases kind <;> decide

theorem trim_spelling (kind : Kind) : Text.trim kind.spelling.toList = kind.spelling.toList := by
  cases kind <;> decide

theorem toList_render (token : Token) :
    token.render.toList = '<' :: (Nat.toDigits 10 token.line.toNat ++
      ',' :: (token.kind.spelling.toList ++ ',' :: token.lexeme.toList) ++ ['>']) := by
  simp [Token.render]

theorem toDigits_plain {value : Nat} {c : Char} (other : c.isDigit = false) :
    c ∉ Nat.toDigits 10 value := by
  intro member
  rw [Text.isDigit_of_mem_toDigits member] at other
  exact Bool.noConfusion other

theorem isBlank_of_isDigit {c : Char} (digit : c.isDigit = true) : Text.isBlank c = false := by
  simp only [Char.isDigit, Bool.and_eq_true, decide_eq_true_eq, ge_iff_le,
    UInt32.le_iff_toNat_le] at digit
  have low : 48 ≤ c.toNat := digit.1
  have high : c.toNat ≤ 57 := digit.2
  simp [Text.isBlank]
  omega

theorem trim_toDigits (value : Nat) :
    Text.trim (Nat.toDigits 10 value) = Nat.toDigits 10 value :=
  Text.trim_eq_self
    (fun _ first => isBlank_of_isDigit (Text.isDigit_of_mem_toDigits (List.mem_of_mem_head? first)))
    (fun _ last => isBlank_of_isDigit (Text.isDigit_of_mem_toDigits (List.mem_of_getLast? last)))

/-- A written record gives the token. -/
theorem read?_render {token : Token} (writable : token.Writable) :
    read? token.render.toList = some token := by
  have filled : token.lexeme.toList.isEmpty = false := by
    rw [List.isEmpty_eq_false_iff]
    intro empty
    exact writable.filled (String.toList_eq_nil_iff.mp empty)
  rw [toList_render, read?, unwrap?_wrapped]
  simp only [Option.bind_eq_bind, Option.bind_some]
  rw [splitComma?_append (toDigits_plain (by decide))]
  simp only [Option.bind_some, trim_toDigits, Text.readUInt32?_toDigits]
  rw [splitComma?_append (spelling_plain token.kind).1]
  simp only [Option.bind_some, trim_spelling, String.ofList_toList,
    Kind.ofSpelling?_spelling writable.shown, filled, Bool.false_eq_true, if_false]

theorem isTrivia_of_ofSpelling? {name : String} {kind : Kind}
    (read : Kind.ofSpelling? name = some kind) : kind.isTrivia = false :=
  (Kind.mem_emitted_iff kind).mp (List.mem_of_find?_eq_some read)

/-- A record that is on one line gives a token that can be written. -/
theorem writable_of_read? {record : List Char} {token : Token} (oneLine : '\n' ∉ record)
    (read : read? record = some token) : token.Writable := by
  simp only [read?, Option.bind_eq_bind, Option.bind_eq_some_iff, Prod.exists,
    Option.ite_none_left_eq_some, Option.some.injEq] at read
  obtain ⟨fields, unwrapped, line, rest, cut, number, -, name, lexeme, again, kind, named,
    filled, rfl⟩ := read
  refine ⟨isTrivia_of_ofSpelling? named, ?_, ?_⟩
  · intro empty
    rw [← String.toList_eq_nil_iff, String.toList_ofList] at empty
    exact filled (List.isEmpty_iff.mpr empty)
  · rw [String.toList_ofList]
    intro member
    exact oneLine (mem_of_unwrap? unwrapped (mem_of_splitComma? cut (mem_of_splitComma? again member)))

end Record

end ClassSyntax

import ClassSyntax.Proofs.Records.RoundTrip

/-!
# Every line of a token file is accounted for

A line that is not blank gives a token or a fault. It gives a token when it has the form `<L,K,V>` and no end of
the input came before it.

* `Record.read?_eq_some`: what a record looks like.
* `Record.account_foldl_next`: of the lines only those that are not blank count.
* `Record.foldl_take_open`, `Record.foldl_take_ended`: what they give up to the end of the input, and behind it.
* `Record.readAll_accounts`: what a whole text gives.
-/

namespace ClassSyntax

/-! ## The form of a record -/

namespace Text

/-- Digits, with or without one plus sign in front, that stand for a number in decimal. -/
def Numeral (text : List Char) (number : Nat) : Prop :=
  ∃ digits, (text = digits ∨ text = '+' :: digits) ∧ digits ≠ [] ∧
    (∀ c ∈ digits, c.isDigit = true) ∧ Nat.ofDigitChars 10 digits 0 = number

theorem eq_dropPlus (text : List Char) : text = dropPlus text ∨ text = '+' :: dropPlus text := by
  unfold dropPlus
  split
  · exact .inr rfl
  · exact .inl rfl

theorem readUInt32?_eq_some {text : List Char} {number : UInt32} :
    readUInt32? text = some number ↔ Numeral text number.toNat := by
  constructor
  · intro read
    simp only [readUInt32?, Option.ite_none_left_eq_some, Option.ite_none_right_eq_some,
      Option.some.injEq, Bool.or_eq_true, Bool.not_eq_true', not_or, Bool.not_eq_true,
      Bool.not_eq_false, List.isEmpty_eq_false_iff, List.all_eq_true] at read
    obtain ⟨⟨filled, decimal⟩, fits, rfl⟩ := read
    exact ⟨dropPlus text, eq_dropPlus text, filled, decimal, (UInt32.toNat_ofNat_of_lt' fits).symm⟩
  · rintro ⟨digits, whole, filled, decimal, value⟩
    have plain : dropPlus text = digits := by
      rcases whole with rfl | rfl
      · exact dropPlus_of_isDigit decimal
      · rfl
    have digitsOnly : (digits.isEmpty || !digits.all Char.isDigit) = false := by
      rw [Bool.or_eq_false_iff, List.isEmpty_eq_false_iff, Bool.not_eq_false', List.all_eq_true]
      exact ⟨filled, decimal⟩
    have same : digitsValue 0 digits = number.toNat := value
    unfold readUInt32?
    simp only [plain, digitsOnly, same]
    rw [if_neg (by decide), if_pos number.toNat_lt, UInt32.ofNat_toNat]

end Text

namespace Record

/-- A record `<L,K,V>` of this token: its line, its category, which is none of trivia, and its lexeme. The
first two may have blanks around them. Lines have 32 bits, so that there is no token for a larger number. -/
def Denotes (record : List Char) (token : Token) : Prop :=
  ∃ line kind, record = '<' :: (line ++ ',' :: (kind ++ ',' :: (token.lexeme.toList ++ ['>']))) ∧
    (',' ∉ line ∧ Text.Numeral (Text.trim line) token.line.toNat) ∧
    (',' ∉ kind ∧ Text.trim kind = token.kind.spelling.toList ∧ token.kind ∈ Kind.emitted) ∧
    token.lexeme ≠ ""

theorem splitComma?_eq_some {text front rest : List Char} :
    splitComma? text = some (front, rest) ↔ text = front ++ ',' :: rest ∧ ',' ∉ front := by
  constructor
  · intro split
    have plain : ',' ∉ text.takeWhile (· != ',') := Lexeme.notMem_takeWhile (by decide) _
    have whole := List.takeWhile_append_dropWhile (p := (· != ',')) (l := text)
    unfold splitComma? at split
    cases left : text.dropWhile (· != ',') with
    | nil => rw [left] at split; exact nomatch split
    | cons c behind =>
        obtain rfl : c = ',' := by
          have stopped := List.head?_dropWhile_not (· != ',') text
          rw [left] at stopped
          simpa using stopped
        rw [left] at split whole
        obtain ⟨rfl, rfl⟩ := Prod.mk.inj (Option.some.inj split)
        exact ⟨whole.symm, plain⟩
  · rintro ⟨rfl, plain⟩
    exact splitComma?_append plain

theorem unwrap?_eq_some {record text : List Char} :
    unwrap? record = some text ↔ record = '<' :: (text ++ ['>']) := by
  constructor
  · intro unwrapped
    unfold unwrap? at unwrapped
    split at unwrapped
    · rename_i inside
      simp only [Option.ite_none_right_eq_some, Option.some.injEq] at unwrapped
      obtain ⟨ended, rfl⟩ := unwrapped
      obtain ⟨front, rfl⟩ := List.getLast?_eq_some_iff.mp ended
      rw [List.dropLast_concat]
    · exact nomatch unwrapped
  · rintro rfl
    exact unwrap?_wrapped text

theorem ofSpelling?_eq_some {name : List Char} {kind : Kind} :
    Kind.ofSpelling? (String.ofList name) = some kind ↔
      name = kind.spelling.toList ∧ kind ∈ Kind.emitted := by
  constructor
  · intro found
    have spelled : kind.spelling = String.ofList name := by simpa using List.find?_some found
    exact ⟨by rw [spelled, String.toList_ofList], List.mem_of_find?_eq_some found⟩
  · rintro ⟨rfl, emitted⟩
    rw [String.ofList_toList]
    exact Kind.ofSpelling?_spelling ((Kind.mem_emitted_iff kind).mp emitted)

/-- Whatever is read as a record has the form of one, and all of them are read. -/
theorem read?_eq_some {record : List Char} {token : Token} :
    read? record = some token ↔ Denotes record token := by
  simp only [read?, Option.bind_eq_bind, Option.bind_eq_some_iff, Prod.exists, unwrap?_eq_some,
    splitComma?_eq_some, Text.readUInt32?_eq_some, ofSpelling?_eq_some,
    Option.ite_none_left_eq_some, Option.some.injEq]
  constructor
  · rintro ⟨fields, rfl, line, rest, ⟨rfl, plain⟩, number, numeral, kind, lexeme, ⟨rfl, bare⟩, name,
      named, filled, rfl⟩
    refine ⟨line, kind, by simp, ⟨plain, numeral⟩, ⟨bare, named⟩, fun empty => filled ?_⟩
    exact List.isEmpty_iff.mpr (String.ofList_eq_empty_iff.mp empty)
  · rintro ⟨line, kind, rfl, ⟨plain, numeral⟩, ⟨bare, named⟩, filled⟩
    refine ⟨_, by simp only [List.append_assoc, List.cons_append]; rfl, line, _, ⟨rfl, plain⟩,
      token.line, numeral, kind, _, ⟨rfl, bare⟩, token.kind, named, fun empty => filled ?_, ?_⟩
    · exact String.toList_eq_nil_iff.mp (List.isEmpty_iff.mp empty)
    · rw [String.ofList_toList]

/-! ## Lines that are not blank -/

/-- What stands on a line that is not blank, without the blanks around it, and the number of the line. -/
structure Entry where
  record : List Char
  number : Nat
  deriving DecidableEq, Repr

/-- The lines among these that are not blank, the first line with this number. -/
def entriesFrom (number : Nat) (lines : List (List Char)) : List Entry :=
  ((lines.map Text.trim).zipIdx number).filterMap fun (record, number) =>
    if record.isEmpty then none else some ⟨record, number⟩

/-- The lines of a text that are not blank. Lines are counted from one. -/
def entries (text : String) : List Entry := entriesFrom 1 (Text.lines text.toList)

namespace Entry

/-- The token of a record. -/
def token? (entry : Entry) : Option Token := read? entry.record

/-- A record of the end of the input. -/
def endsStream (entry : Entry) : Bool := entry.token?.any Token.isEnd

/-- A fault of this line. -/
def fault (cause : String → Cause) (entry : Entry) : Fault :=
  ⟨cause (String.ofList entry.record), UInt32.ofNat entry.number⟩

end Entry

theorem entriesFrom_cons (number : Nat) (text : List Char) (lines : List (List Char)) :
    entriesFrom number (text :: lines) =
      (if (Text.trim text).isEmpty then [] else [⟨Text.trim text, number⟩]) ++
        entriesFrom (number + 1) lines := by
  rw [entriesFrom, List.map_cons, List.zipIdx_cons, List.filterMap_cons, ← entriesFrom]
  cases blank : (Text.trim text).isEmpty <;> simp only [blank] <;> rfl

/-- A reading in progress without the count of the lines. -/
structure Account where
  tokens : List Token
  skipped : List Fault
  ended : Bool

namespace Account

def start : Account := ⟨[], [], false⟩

/-- Reads one more entry. -/
def take (account : Account) (entry : Entry) : Account :=
  if account.ended then
    { account with skipped := entry.fault .recordAfterEnd :: account.skipped }
  else
    match entry.token? with
    | some token => { account with tokens := token :: account.tokens, ended := token.isEnd }
    | none => { account with skipped := entry.fault .malformedRecord :: account.skipped }

variable {account : Account} {entry : Entry}

theorem take_token (unended : account.ended = false) {token : Token}
    (read : entry.token? = some token) :
    account.take entry = ⟨token :: account.tokens, account.skipped, token.isEnd⟩ := by
  simp only [take, unended, read, Bool.false_eq_true, if_false]

theorem take_unreadable (unended : account.ended = false) (unread : entry.token? = none) :
    account.take entry =
      ⟨account.tokens, entry.fault .malformedRecord :: account.skipped, false⟩ := by
  simp only [take, unended, unread, Bool.false_eq_true, if_false]

theorem take_late (ended : account.ended = true) :
    account.take entry =
      ⟨account.tokens, entry.fault .recordAfterEnd :: account.skipped, true⟩ := by
  simp only [take, ended, if_true]

end Account

namespace Progress

def account (progress : Progress) : Account :=
  ⟨progress.tokens, progress.skipped, progress.ended⟩

variable {progress : Progress}

theorem line_next (progress : Progress) (text : List Char) :
    (progress.next text).line = progress.line + 1 := by
  unfold next
  dsimp only
  split
  · rfl
  · split
    · rfl
    · split <;> rfl

/-- A line that is not blank is read as an entry, and one that is blank is only counted. -/
theorem account_next {number : Nat} (counted : progress.line + 1 = UInt32.ofNat number)
    (text : List Char) :
    (progress.next text).account =
      if (Text.trim text).isEmpty then progress.account
      else progress.account.take ⟨Text.trim text, number⟩ := by
  unfold next
  simp only [counted]
  split
  · rfl
  · unfold Account.take Entry.token? account
    dsimp only
    split
    · rfl
    · cases read? (Text.trim text) <;> rfl

/-- Of the lines only those that are not blank count. -/
theorem account_foldl_next {number : Nat} (counted : progress.line + 1 = UInt32.ofNat number)
    (lines : List (List Char)) :
    (lines.foldl next progress).account =
      (entriesFrom number lines).foldl Account.take progress.account := by
  induction lines generalizing progress number with
  | nil => rfl
  | cons text lines ih =>
      have later : (progress.next text).line + 1 = UInt32.ofNat (number + 1) := by
        rw [line_next, counted, UInt32.ofNat_add, UInt32.ofNat_one]
      rw [List.foldl_cons, ih later, account_next counted, entriesFrom_cons]
      split <;> rfl

end Progress

theorem readAll_eq (text : String) :
    let account := (entries text).foldl Account.take .start
    readAll text = ⟨close account.tokens.reverse, account.skipped.reverse⟩ := by
  have counted : Progress.start.line + 1 = UInt32.ofNat 1 := rfl
  have same := Progress.account_foldl_next counted (Text.lines text.toList)
  exact congrArg (fun account : Account =>
    (⟨close account.tokens.reverse, account.skipped.reverse⟩ : Reading)) same

/-! ## The end of the input -/

/-- The entries that are no records. -/
def unreadable (entries : List Entry) : List Entry :=
  entries.filter fun entry => entry.token?.isNone

/-- Some entries, those of them up to and including the first record of the end of the input, and those
behind it. -/
inductive CutAtEnd : List Entry → List Entry → List Entry → Prop where
  | unended {entries : List Entry} (none : ∀ entry ∈ entries, entry.endsStream = false) :
      CutAtEnd entries entries []
  | ended {before late : List Entry} {last : Entry}
      (none : ∀ entry ∈ before, entry.endsStream = false) (ends : last.endsStream = true) :
      CutAtEnd (before ++ last :: late) (before ++ [last]) late

section

variable {account : Account} {entries taken late : List Entry}

theorem exists_cutAtEnd (entries : List Entry) : ∃ taken late, CutAtEnd entries taken late := by
  cases first : entries.find? Entry.endsStream with
  | none => exact ⟨entries, [], .unended (by simpa using first)⟩
  | some last =>
      obtain ⟨ends, before, late, rfl, none⟩ := List.find?_eq_some_iff_append.mp first
      exact ⟨before ++ [last], late, .ended (by simpa using none) ends⟩

theorem CutAtEnd.whole (cut : CutAtEnd entries taken late) : entries = taken ++ late := by
  cases cut with
  | unended => exact (List.append_nil _).symm
  | ended => exact List.append_cons _ _ _

/-- Up to the end of the input an entry gives a token or a fault. -/
theorem foldl_take_open (unended : account.ended = false)
    (none : ∀ entry ∈ entries, entry.endsStream = false) :
    entries.foldl Account.take account =
      ⟨(entries.filterMap Entry.token?).reverse ++ account.tokens,
        ((unreadable entries).map (Entry.fault .malformedRecord)).reverse ++ account.skipped,
        false⟩ := by
  induction entries generalizing account with
  | nil => rw [← unended]; rfl
  | cons entry entries ih =>
      obtain ⟨other, others⟩ := List.forall_mem_cons.mp none
      cases read : entry.token? with
      | none =>
          rw [List.foldl_cons, Account.take_unreadable unended read, ih rfl others]
          simp [unreadable, read]
      | some token =>
          rw [Entry.endsStream, read, Option.any_some] at other
          rw [List.foldl_cons, Account.take_token unended read, ih other others]
          simp [unreadable, read]

/-- Behind it every entry gives a fault. -/
theorem foldl_take_ended (ended : account.ended = true) :
    entries.foldl Account.take account =
      ⟨account.tokens,
        (entries.map (Entry.fault .recordAfterEnd)).reverse ++ account.skipped, true⟩ := by
  induction entries generalizing account with
  | nil => rw [← ended]; rfl
  | cons entry entries ih =>
      rw [List.foldl_cons, Account.take_late ended, ih rfl]
      simp

theorem foldl_take_cut (cut : CutAtEnd entries taken late) :
    entries.foldl Account.take .start =
      ⟨(taken.filterMap Entry.token?).reverse,
        ((unreadable taken).map (Entry.fault .malformedRecord) ++
          late.map (Entry.fault .recordAfterEnd)).reverse, taken.any Entry.endsStream⟩ := by
  cases cut with
  | unended none =>
      have ended : entries.any Entry.endsStream = false := by simpa using none
      rw [foldl_take_open rfl none, ended]
      simp [Account.start]
  | @ended before _ last none ends =>
      obtain ⟨token, read, isEnd⟩ := (Option.any_eq_true _ _).mp ends
      rw [List.foldl_append, List.foldl_cons, foldl_take_open rfl none, Account.take_token rfl read,
        foldl_take_ended isEnd]
      simp [unreadable, read, ends, Account.start]

/-- The tokens that were read end with the end of the input exactly when a record of it was read. -/
theorem isClosed_filterMap (cut : CutAtEnd entries taken late) :
    isClosed (taken.filterMap Entry.token?) = taken.any Entry.endsStream := by
  cases cut with
  | unended none =>
      have ended : entries.any Entry.endsStream = false := by simpa using none
      rw [ended, isClosed]
      split
      · rename_i token last
        obtain ⟨entry, member, read⟩ := List.mem_filterMap.mp (List.mem_of_getLast? last)
        have other := none entry member
        rwa [Entry.endsStream, read, Option.any_some] at other
      · rfl
  | @ended before _ last none ends =>
      obtain ⟨token, read, isEnd⟩ := (Option.any_eq_true _ _).mp ends
      simp [isClosed, read, ends, isEnd]

end

/-! ## A whole text -/

theorem number_of_mem_entriesFrom {number : Nat} {lines : List (List Char)} {entry : Entry}
    (member : entry ∈ entriesFrom number lines) :
    number ≤ entry.number ∧ entry.number < number + lines.length := by
  obtain ⟨⟨record, counted⟩, listed, kept⟩ := List.mem_filterMap.mp member
  obtain ⟨low, high, -⟩ := List.mem_zipIdx listed
  rw [List.length_map] at high
  obtain ⟨-, rfl⟩ : ¬ record = [] ∧ (⟨record, counted⟩ : Entry) = entry := by simpa using kept
  exact ⟨low, high⟩

theorem pairwise_entriesFrom (number : Nat) (lines : List (List Char)) :
    (entriesFrom number lines).Pairwise fun one other => one.number < other.number := by
  induction lines generalizing number with
  | nil => exact .nil
  | cons text lines ih =>
      rw [entriesFrom_cons]
      split
      · exact ih (number + 1)
      · refine List.pairwise_cons.mpr ⟨fun later member => ?_, ih (number + 1)⟩
        exact (number_of_mem_entriesFrom member).1

/-- There are enough numbers for all lines. -/
theorem toNat_line_fault {text : String} (few : (Text.lines text.toList).length < 2 ^ 32 - 1)
    {entry : Entry} (member : entry ∈ entries text) (cause : String → Cause) :
    (entry.fault cause).line.toNat = entry.number := by
  have counted := number_of_mem_entriesFrom member
  exact UInt32.toNat_ofNat_of_lt' (show entry.number < 2 ^ 32 by omega)

/-- A reading holds the tokens of all records up to and including the first one of the end of the input, which
is added when there is none. It skips every other line that is not blank: those that are no records before the
end of the input, and all of them behind it. -/
theorem readAll_accounts {text : String} (few : (Text.lines text.toList).length < 2 ^ 32 - 1) :
    (∀ entry ∈ entries text, ∀ token, entry.token? = some token ↔ Denotes entry.record token) ∧
      ∃ taken late, CutAtEnd (entries text) taken late ∧
        (readAll text).tokens = taken.filterMap Entry.token? ++
          (if taken.any Entry.endsStream then []
            else [Token.endOfInput (lastLine (taken.filterMap Entry.token?))]) ∧
        (readAll text).skipped = (unreadable taken).map (Entry.fault .malformedRecord) ++
          late.map (Entry.fault .recordAfterEnd) ∧
        (readAll text).skipped.map (·.line.toNat) = (unreadable taken ++ late).map Entry.number ∧
        (unreadable taken ++ late).Pairwise fun one other => one.number < other.number := by
  obtain ⟨taken, late, cut⟩ := exists_cutAtEnd (entries text)
  have skipped : (readAll text).skipped = (unreadable taken).map (Entry.fault .malformedRecord) ++
      late.map (Entry.fault .recordAfterEnd) := by
    rw [readAll_eq]
    simp only [foldl_take_cut cut, List.reverse_reverse]
  have listed : (unreadable taken ++ late).Sublist (entries text) := by
    rw [cut.whole]
    exact List.filter_sublist.append (.refl late)
  refine ⟨fun _ _ _ => read?_eq_some, taken, late, cut, ?_, ?_, ?_, ?_⟩
  · rw [readAll_eq]
    simp only [foldl_take_cut cut, List.reverse_reverse, close, isClosed_filterMap cut]
    split
    · exact (List.append_nil _).symm
    · rfl
  · exact skipped
  · have each : ∀ entry ∈ unreadable taken ++ late, entry ∈ entries text :=
      fun entry member => listed.subset member
    rw [skipped, List.map_append, List.map_append, List.map_map, List.map_map]
    refine congrArg₂ _ (List.map_congr_left fun entry member => ?_)
      (List.map_congr_left fun entry member => ?_)
    · exact toNat_line_fault few (each entry (List.mem_append_left _ member)) _
    · exact toNat_line_fault few (each entry (List.mem_append_right _ member)) _
  · exact (pairwise_entriesFrom 1 _).sublist listed

/-- A line without a record, and a record behind the end of the input. -/
theorem lateRecord_accounted :
    (Text.lines "<+2, Punctuation ,,>\n\nx\n<3,EOF,EOF>\n<4,Keyword,if>".toList).length < 2 ^ 32 - 1 ∧
      ∃ taken late,
        CutAtEnd (entries "<+2, Punctuation ,,>\n\nx\n<3,EOF,EOF>\n<4,Keyword,if>") taken late ∧
          (unreadable taken ++ late).map Entry.number = [3, 5] := by
  have few : (Text.lines
      "<+2, Punctuation ,,>\n\nx\n<3,EOF,EOF>\n<4,Keyword,if>".toList).length < 2 ^ 32 - 1 := by
    decide +kernel
  obtain ⟨-, taken, late, cut, -, -, numbers, -⟩ := readAll_accounts few
  have read : (readAll "<+2, Punctuation ,,>\n\nx\n<3,EOF,EOF>\n<4,Keyword,if>").skipped.map
      (·.line.toNat) = [3, 5] := by decide +kernel
  exact ⟨few, taken, late, cut, numbers.symm.trans read⟩

end Record

end ClassSyntax

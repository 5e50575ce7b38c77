import ClassSyntax.Proofs.Language.Completeness
import ClassSyntax.Proofs.Language.Recognition
import ClassSyntax.Proofs.Statements.Running

/-!
# Nothing follows a program

The last class of a program is its entry class. With more tokens behind it the program is read as before,
and then there are other classes, which come too late, or there is something that is no class.

* `Derives.header`: a class leaves its header in an outline and nothing else.
* `reads_program_of_classes`: behind a program reading goes on as behind a class.
* `entryClass_of_trailing`, `entryClass_of_later`: what is wrong with the classes then.
* `nothing_follows_program`: the verdicts.
-/

namespace ClassSyntax

/-! ## Headers of classes -/

namespace Nonterminal

/-- Holds no class. -/
def classless : Nonterminal → Bool
  | unit | classDecl => false
  | _ => true

end Nonterminal

namespace Form

/-- Holds no class. -/
def classless : Form → Bool
  | empty | token _ | ownName | countEntry => true
  | symbol name => name.classless
  | seq first second | alt first second => first.classless && second.classless
  | many body | guarded _ body | unlike _ body => body.classless
  | inClass _ => false

end Form

theorem production_classless {name : Nonterminal} (classless : name.classless = true) :
    name.production.classless = true := by
  revert classless
  cases name with
  | binary level => cases level <;> decide
  | _ => decide

variable {own : String} {word : List Token} {outline : Outline}

theorem Derives.classes_eq_nil {form : Form} (classless : form.classless = true)
    (derived : Derives Nonterminal.production own form word outline) : outline.classes = [] := by
  induction derived with
  | empty | token | ownName | manyNone | countEntry => rfl
  | symbol _ ih => exact ih (production_classless classless)
  | seq _ _ ihFirst ihSecond =>
      simp only [Form.classless, Bool.and_eq_true] at classless
      exact List.append_eq_nil_iff.mpr ⟨ihFirst classless.1, ihSecond classless.2⟩
  | left _ ih =>
      simp only [Form.classless, Bool.and_eq_true] at classless
      exact ih classless.1
  | right _ ih =>
      simp only [Form.classless, Bool.and_eq_true] at classless
      exact ih classless.2
  | manyMore _ _ ihFirst ihRest =>
      exact List.append_eq_nil_iff.mpr ⟨ihFirst classless, ihRest classless⟩
  | guarded _ _ ih | unlike _ _ ih => exact ih classless
  | inClass => exact Bool.noConfusion classless

/-- A class leaves its header in an outline and nothing else. -/
theorem Derives.header
    (derived : Derives Nonterminal.production own (.symbol .classDecl) word outline) :
    ∃ header, outline = ⟨[header], 0⟩ := by
  obtain ⟨_, _, before, _, modifiers, rest, -, rfl⟩ := derives_seq.mp (derives_symbol.mp derived)
  obtain ⟨_, _, keyword, _, isKeyword, isNamed, -, rfl⟩ := derives_seq.mp rest
  obtain ⟨name, _, inner, -, body, -, rfl⟩ := derives_inClass.mp isNamed
  obtain ⟨rfl, -⟩ := modifiers.isWord rfl
  obtain ⟨rfl, -⟩ := isKeyword.isWord rfl
  rw [Outline.empty_append, Outline.empty_append, Outline.close, body.classes_eq_nil rfl]
  exact ⟨_, rfl⟩

/-! ## Classes in a row -/

def Form.classes : Form := many (symbol .classDecl)

def Phrase.classes : Phrase := whileNext [First.classDecl] (rule .classDecl)

section

variable {stream : TokenStream} {start middle stop : Nat} {outcome : Outcome} {log : List Failure}

/-- What is read as classes are classes. -/
theorem Accepts.derives_classes
    (accepted : Accepts stream own Phrase.classes start stop outline) :
    ∃ word, Spells stream start word stop ∧
      Derives Nonterminal.production own Form.classes word outline :=
  accepted.derives (by decide)

/-- Where a class is read something is kept of it. -/
theorem Accepts.classes_ne_nil (accepted : Accepts stream own Phrase.classes start stop outline)
    (further : start ≠ stop) : outline.classes ≠ [] := by
  obtain ⟨word, spells, derived⟩ := accepted.derives_classes
  rcases derives_many.mp derived with
    ⟨rfl, -⟩ | ⟨front, back, before, after, one, -, -, rfl⟩
  · exact absurd (spells_nil.mp spells).symm further
  · obtain ⟨header, rfl⟩ := one.header
    exact List.cons_ne_nil _ _

/-- Classes are read before what comes behind them, and nothing behind them changes this. -/
theorem reads_classes_append {before : Outline}
    (derived : Derives Nonterminal.production own Form.classes word before)
    (spells : Spells stream start word middle)
    (read : Reads stream own Phrase.classes middle outcome log) :
    ∃ more, Reads stream own Phrase.classes start (outcome.after before) more := by
  generalize same : Form.classes = form at derived
  induction derived generalizing start with
  | manyNone =>
      obtain rfl := spells_nil.mp spells
      rw [Outcome.after_empty]
      exact ⟨log, read⟩
  | manyMore one _ _ ih =>
      obtain rfl := Form.many.inj same
      obtain ⟨place, spellsOne, spellsRest⟩ := spells_append.mp spells
      have accepted : Accepts stream _ (.rule .classDecl) start place _ :=
        accepts_of_derives one spellsOne rfl
      obtain ⟨_, round⟩ := accepted
      obtain ⟨_, rest⟩ := ih spellsRest read rfl
      have started : stream.startsWith [First.classDecl] start = true :=
        spellsOne.startsWith (startsLike_of_leads (by decide) one)
      rw [← Outcome.after_after]
      exact ⟨_, .whileMore started round rest⟩
  | _ => exact nomatch same

/-- Behind the classes of a program reading goes on as it goes on behind a class. -/
theorem reads_program_of_classes {imports classes : List Token} {before : Outline}
    (areImports : Derives Nonterminal.production "" (.many (.symbol .importDecl)) imports .empty)
    (areClasses : Derives Nonterminal.production "" Form.classes classes before)
    (some : before.classes ≠ []) (spells : Spells stream 0 (imports ++ classes) middle)
    (read : Reads stream "" Phrase.classes middle outcome log) :
    ∃ more, Reads stream "" (.rule .program) 0 (outcome.after before) more := by
  obtain ⟨place, spellsImports, spellsClasses⟩ := spells_append.mp spells
  obtain ⟨_, later⟩ := reads_classes_append areClasses spellsClasses read
  have next : First.classDecl.allow (stream.get place) = true := by
    cases classes with
    | nil =>
        rcases derives_many.mp areClasses with ⟨-, rfl⟩ | ⟨front, back, _, _, one, -, none, -⟩
        · exact absurd rfl some
        · obtain ⟨rfl, -⟩ := List.append_eq_nil_iff.mp none.symm
          exact absurd rfl (Derives.ne_nil one rfl)
    | cons head rest =>
        rw [spellsClasses.1]
        exact Derives.starts areClasses
  have exactImport := Rule.importDecl.exactOn stream imports.length
  have accepted : Accepts stream "" (.whileNext [First.importDecl] (.rule .importDecl)) 0 place
      .empty :=
    ExactOn.rounds exactImport.phrase (by decide) rfl rfl (Nat.le_refl _) areImports spellsImports
      (Terminals.not_startsWith_of_apart (by decide) next) rfl
  obtain ⟨_, first⟩ := accepted
  have whole := first.seqOk later
  rw [Outcome.after_empty] at whole
  exact ⟨_, .rule whole⟩

end

/-! ## Arrangement of the classes -/

section

variable {classes : List ClassHeader} {name : String} {next : Token}

/-- The first class with an entry method is the last one, and remains the first one with more behind. -/
theorem OnlyLast.dropWhile_append (only : OnlyLast classes name) (later : List ClassHeader) :
    ∃ entry, ((classes ++ later).dropWhile fun header => header.entryMethods == 0) =
        entry :: later ∧ entry.entryMethods = 1 ∧ entry.name.lexeme = name := by
  induction classes with
  | nil =>
      obtain ⟨last, none, -⟩ := only
      exact nomatch none
  | cons header classes ih =>
      rcases Nat.eq_zero_or_pos header.entryMethods with none | some
      · rw [List.cons_append, List.dropWhile_cons_of_pos (by simpa using none)]
        exact ih ((onlyLast_cons_of_zero none).mp only)
      · obtain ⟨one, rfl, named⟩ := (onlyLast_cons_of_pos some).mp only
        rw [List.cons_append, List.dropWhile_cons_of_neg (by simpa using Nat.ne_of_gt some)]
        exact ⟨header, rfl, one, named⟩

/-- With other tokens behind its classes a program has no entry class. -/
theorem entryClass_of_trailing (only : OnlyLast classes name) (unended : next.isEnd = false) :
    entryClass classes next = .error (Diagnostic.ofToken next .trailingTokens "end of input") := by
  obtain ⟨entry, dropped, one, -⟩ := only.dropWhile_append []
  rw [List.append_nil] at dropped
  unfold entryClass
  rw [dropped]
  simp [one, unended]

/-- With other classes behind its own a program has no entry class: the objection is to the first of them
that has an entry method, or else to the first. -/
theorem entryClass_of_later (only : OnlyLast classes name) (first : ClassHeader)
    (others : List ClassHeader) (next : Token) :
    entryClass (classes ++ first :: others) next = .error
      (match (first :: others).find? fun header => 0 < header.entryMethods with
      | some second => second.diagnostic (.duplicateEntryClass second.name.lexeme)
      | none => first.diagnostic (.entryClassNotLast name)) := by
  obtain ⟨entry, dropped, one, named⟩ := only.dropWhile_append (first :: others)
  unfold entryClass
  rw [dropped]
  dsimp only
  rw [if_neg (by omega), named]
  cases (first :: others).find? fun header => 0 < header.entryMethods <;> rfl

end

/-! ## Programs with more behind -/

section

variable {tokens added : List Token} {name : String}

/-- Behind an accepted program reading goes on as behind a class, and the verdict is on the classes of the
program and what was read behind them. -/
theorem check_append (accepted : check tokens = .accepted name) (added : List Token) :
    ∃ seam before, OnlyLast before.classes name ∧
      Spells (TokenStream.ofTokens (tokens ++ added)) seam
          (TokenStream.ofTokens added).body.toList (TokenStream.ofTokens (tokens ++ added)).size ∧
        ∀ {outcome log},
          Reads (TokenStream.ofTokens (tokens ++ added)) "" Phrase.classes seam outcome log →
            ∃ more, check (tokens ++ added) =
              Verdict.ofReading (TokenStream.ofTokens (tokens ++ added))
                (outcome.after before, more) := by
  obtain ⟨outline, last, derived, isLast, one, sum, named⟩ :
      IsProgram Nonterminal.production tokens name := by
    rw [← entryClass?_check, accepted]
    rfl
  obtain ⟨imports, classes, _, before, areImports, areClasses, program, rfl⟩ :=
    derives_seq.mp (derives_symbol.mp derived)
  obtain ⟨rfl, areImports⟩ := areImports.isWord rfl
  rw [Outline.empty_append] at isLast sum
  have spells := spells_body (TokenStream.ofTokens (tokens ++ added))
  have body : (TokenStream.ofTokens (tokens ++ added)).body.toList =
      (imports ++ classes) ++ (TokenStream.ofTokens added).body.toList :=
    (List.filter_append tokens added).trans (congrArg (· ++ _) program)
  rw [body] at spells
  obtain ⟨seam, spellsProgram, spellsAdded⟩ := spells_append.mp spells
  refine ⟨seam, before, ⟨last, isLast, one, sum, named⟩, spellsAdded, fun read => ?_⟩
  have kept : before.classes ≠ [] := by
    intro none
    rw [none] at isLast
    exact nomatch isLast
  obtain ⟨more, whole⟩ := reads_program_of_classes areImports areClasses kept spellsProgram read
  exact ⟨more, check_eq (Phrase.read_eq_iff.mpr whole)⟩

/-- The tokens from here to the end are classes with these headers, read one after the other. -/
inductive Parser.ReadsClasses : Parser → List ClassHeader → Prop
  | done {parser : Parser} : parser.hasTokens = false → ReadsClasses parser []
  | more {parser after : Parser} {header : ClassHeader} {headers : List ClassHeader} :
      (Query.read "" .classDecl).run parser = (.ok (.header header), after) →
      ReadsClasses after headers → ReadsClasses parser (header :: headers)

/-- What is read class by class up to the end is a row of classes. -/
theorem Parser.ReadsClasses.derives {parser : Parser} {headers : List ClassHeader}
    (read : parser.ReadsClasses headers) (inside : parser.position ≤ parser.stream.size) :
    ∃ word, Spells parser.stream parser.position word parser.stream.size ∧
      Derives Nonterminal.production "" Form.classes word ⟨headers, 0⟩ := by
  induction read with
  | @done parser ended =>
      have beyond : parser.stream.size ≤ parser.position := by
        rw [← TokenStream.get_isEnd_iff]
        simpa [Parser.hasTokens, Parser.current, Parser.peek] using ended
      exact ⟨[], Nat.le_antisymm beyond inside, .manyNone⟩
  | @more parser after header headers ended _ ih =>
      obtain ⟨outline, value, accepted⟩ := Query.accepts_of_run ended
      have stream : after.stream = parser.stream := Query.stream_of_run ended
      obtain ⟨first, spellsFirst, derived⟩ := accepted.derives rfl
      obtain ⟨_, rfl⟩ := derived.header
      obtain rfl := Answer.header.inj value
      obtain ⟨_, read⟩ := accepted
      have further : after.position ≤ parser.stream.size :=
        Nat.le_trans read.stop_le (Nat.max_le.mpr ⟨inside, Nat.le_refl _⟩)
      rw [stream] at ih
      obtain ⟨rest, spellsRest, others⟩ := ih further
      exact ⟨first ++ rest, spellsFirst.append spellsRest, .manyMore derived others⟩

/-- When there is no entry class among what was read, that is what the verdict says. -/
theorem Verdict.ofReading_of_error {stream : TokenStream} {stop : Nat} {before outline : Outline}
    {more : List Failure} {diagnostic : Diagnostic}
    (wrong : entryClass (before.classes ++ outline.classes) (stream.get stop) = .error diagnostic) :
    Verdict.ofReading stream ((Outcome.ok stop outline).after before, more) =
      .rejected [diagnostic] := by
  unfold Verdict.ofReading
  have joined : (before ++ outline).classes = before.classes ++ outline.classes := rfl
  dsimp only [Outcome.after]
  rw [joined, wrong]

/-- With more behind it a program is not accepted. -/
theorem isAccepted_check_append (accepted : check tokens = .accepted name)
    (filled : ∃ token ∈ added, token.isEnd = false) :
    (check (tokens ++ added)).isAccepted = false := by
  obtain ⟨seam, before, only, spells, verdict⟩ := check_append accepted added
  have unended : ((TokenStream.ofTokens (tokens ++ added)).get seam).isEnd = false := by
    obtain ⟨token, member, unended⟩ := filled
    have kept : token ∈ (TokenStream.ofTokens added).body.toList :=
      List.mem_filter.mpr ⟨member, by simpa using unended⟩
    have positive := List.length_pos_of_mem kept
    have whole := spells.stop_eq
    rw [← Bool.not_eq_true, TokenStream.get_isEnd_iff]
    omega
  obtain ⟨outcome, log, read⟩ := Reads.total (TokenStream.ofTokens (tokens ++ added))
    (show Phrase.classes.progressive = true from rfl) seam ""
  obtain ⟨more, same⟩ := verdict read
  rw [same]
  cases outcome with
  | fail failure => rfl
  | ok stop outline =>
      cases classes : outline.classes with
      | nil =>
          -- no class was read, so the classes end where those of the program do
          have here : seam = stop := by
            by_contra further
            exact Accepts.classes_ne_nil ⟨_, read⟩ further classes
          subst here
          have wrong := entryClass_of_trailing only unended
          rw [← List.append_nil before.classes, ← classes] at wrong
          rw [Verdict.ofReading_of_error wrong]
          rfl
      | cons first others =>
          have wrong := entryClass_of_later only first others
          rw [← classes] at wrong
          rw [Verdict.ofReading_of_error (wrong _)]
          rfl

/-- A token that starts no class is trailing. -/
theorem check_append_of_trailing (accepted : check tokens = .accepted name) {token : Token}
    (next : added.find? (fun token => !token.isEnd) = some token)
    (other : First.classDecl.allow token = false) :
    check (tokens ++ added) =
      .rejected [⟨token.line, "end of input", .lexeme token.lexeme, .trailingTokens⟩] := by
  obtain ⟨seam, before, only, spells, verdict⟩ := check_append accepted added
  have unended : token.isEnd = false := by simpa using List.find?_some next
  obtain ⟨rest, body⟩ : ∃ rest, (TokenStream.ofTokens added).body.toList = token :: rest :=
    List.head?_eq_some_iff.mp (List.head?_filter.trans next)
  rw [body] at spells
  have here := spells.1
  have stopped : (TokenStream.ofTokens (tokens ++ added)).startsWith [First.classDecl] seam =
      false := by
    rw [startsWith_singleton, here]
    exact other
  obtain ⟨more, same⟩ := verdict (.whileStop stopped)
  have wrong := entryClass_of_trailing only unended
  rw [← here, ← List.append_nil before.classes] at wrong
  rw [same, Verdict.ofReading_of_error wrong, here, Diagnostic.ofToken, Found.ofToken, unended]
  rfl

/-- Classes behind a program are later classes of it. -/
theorem check_append_of_classes (accepted : check tokens = .accepted name) {first : ClassHeader}
    {others : List ClassHeader} (read : (Parser.start added).ReadsClasses (first :: others)) :
    check (tokens ++ added) = .rejected [
      match (first :: others).find? fun header => 0 < header.entryMethods with
      | some second => second.diagnostic (.duplicateEntryClass second.name.lexeme)
      | none => first.diagnostic (.entryClassNotLast name)] := by
  obtain ⟨seam, before, only, spells, verdict⟩ := check_append accepted added
  obtain ⟨word, whole, derived⟩ := read.derives (Nat.zero_le _)
  obtain rfl := whole.unique (spells_body (TokenStream.ofTokens added))
  have stopped : (TokenStream.ofTokens (tokens ++ added)).startsWith [First.classDecl]
      (TokenStream.ofTokens (tokens ++ added)).size = false := by
    rw [startsWith_singleton, ← Bool.not_eq_true]
    exact fun allowed => Nat.lt_irrefl _ (TokenStream.lt_size_of_allow allowed)
  obtain ⟨_, classes⟩ := reads_classes_append derived spells (.whileStop stopped)
  rw [Outcome.after, Outline.append_empty] at classes
  obtain ⟨more, same⟩ := verdict classes
  rw [same]
  exact Verdict.ofReading_of_error (entryClass_of_later only first others _)

/-- Nothing may follow a program. Where anything is put behind it the whole is rejected: for the first token
when that starts no class, and when all of it is classes for the first that has an entry method, or else
for the first. -/
theorem nothing_follows_program (accepted : check tokens = .accepted name)
    (filled : ∃ token ∈ added, token.isEnd = false) :
    (check (tokens ++ added)).isAccepted = false ∧
      (∀ token, added.find? (fun token => !token.isEnd) = some token →
        First.classDecl.allow token = false →
          check (tokens ++ added) = .rejected
            [⟨token.line, "end of input", .lexeme token.lexeme, .trailingTokens⟩]) ∧
      ∀ first others, (Parser.start added).ReadsClasses (first :: others) →
        check (tokens ++ added) = .rejected [
          match (first :: others).find? fun header => 0 < header.entryMethods with
          | some second => second.diagnostic (.duplicateEntryClass second.name.lexeme)
          | none => first.diagnostic (.entryClassNotLast name)] :=
  ⟨isAccepted_check_append accepted filled,
    fun _ next other => check_append_of_trailing accepted next other,
    fun _ _ read => check_append_of_classes accepted read⟩

end

/-- A helper class behind a program is in the wrong place, also where the end of the input stands between
them. -/
theorem helperClass_follows :
    let program := tokenize "class A { public static void main(String[] a) {} }"
    let helper := tokenize "class B {}"
    (check program = .accepted "A" ∧ ∃ token ∈ helper, token.isEnd = false) ∧
      check (program ++ helper) =
        .rejected [⟨1, "entry class as the last class", .lexeme "B", .entryClassNotLast "A"⟩] := by
  intro program helper
  have accepted : check program = .accepted "A" :=
    check_eq_of_checkWithin 1000 (by decide +kernel)
  have filled : ∃ token ∈ helper, token.isEnd = false := by decide +kernel
  have classB : Accepts (Parser.start helper).stream "" (.rule .classDecl)
      (Parser.start helper).position 4 ⟨[⟨⟨.identifier, "B", 1⟩, 0⟩], 0⟩ :=
    .of_readWithin 1000 (by decide +kernel)
  obtain ⟨after, read, stopped⟩ := Query.run_of_accepts classB
  have ended : after.hasTokens = false := by
    have beyond : (Parser.start helper).stream.size ≤ 4 := by decide +kernel
    unfold Parser.hasTokens Parser.current Parser.peek
    rw [Query.stream_of_run read, stopped, Nat.add_zero, Bool.not_eq_false',
      TokenStream.get_isEnd_iff]
    exact beyond
  obtain ⟨-, -, later⟩ := nothing_follows_program accepted filled
  exact ⟨⟨accepted, filled⟩, later _ _ (.more read (.done ended))⟩

end ClassSyntax

import ClassSyntax.Proofs.Programs.Headers

/-!
# The entry class of a program that was read

Once all classes are read, the verdict is about their headers and the token behind them. There are five
objections, and the first that applies is the only one that is made; what was missing in readings that were
given up is not reported.

* `Arranged`: the objections, each with what must hold for those before it not to apply.
* `exists_arranged`, `Arranged.verdict_eq`: one of them is made, or the program is accepted.
* `verdict_on_entry_class`: the verdict on a program that was read, from what its classes count.
-/

namespace ClassSyntax

/-! ## Objections -/

/-- The verdict on these classes when `next` is the token behind them. -/
inductive Arranged (next : Token) : List ClassHeader → Verdict → Prop
  /-- No class has an entry method. -/
  | missing {classes : List ClassHeader} :
      (∀ header ∈ classes, header.entryMethods = 0) →
      Arranged next classes
        (.rejected [⟨next.line, "entry class", Found.ofToken next, .missingEntryClass⟩])
  /-- The first class with entry methods has several. -/
  | several {before later : List ClassHeader} {entry : ClassHeader} :
      (∀ header ∈ before, header.entryMethods = 0) → 1 < entry.entryMethods →
      Arranged next (before ++ entry :: later)
        (.rejected [⟨entry.name.line, "single entry class", .lexeme entry.name.lexeme,
          .duplicateEntryClass entry.name.lexeme⟩])
  /-- Another class has entry methods too. -/
  | second {before between later : List ClassHeader} {entry other : ClassHeader} :
      (∀ header ∈ before, header.entryMethods = 0) → entry.entryMethods = 1 →
      (∀ header ∈ between, header.entryMethods = 0) → 0 < other.entryMethods →
      Arranged next (before ++ entry :: (between ++ other :: later))
        (.rejected [⟨other.name.line, "single entry class", .lexeme other.name.lexeme,
          .duplicateEntryClass other.name.lexeme⟩])
  /-- Only classes without entry methods follow, but some do. -/
  | notLast {before later : List ClassHeader} {entry follower : ClassHeader} :
      (∀ header ∈ before, header.entryMethods = 0) → entry.entryMethods = 1 →
      (∀ header ∈ follower :: later, header.entryMethods = 0) →
      Arranged next (before ++ entry :: follower :: later)
        (.rejected [⟨follower.name.line, "entry class as the last class",
          .lexeme follower.name.lexeme, .entryClassNotLast entry.name.lexeme⟩])
  /-- Something else follows. -/
  | trailing {before : List ClassHeader} {entry : ClassHeader} :
      (∀ header ∈ before, header.entryMethods = 0) → entry.entryMethods = 1 →
      next.isEnd = false →
      Arranged next (before ++ [entry])
        (.rejected [⟨next.line, "end of input", .lexeme next.lexeme, .trailingTokens⟩])
  | accepted {before : List ClassHeader} {entry : ClassHeader} :
      (∀ header ∈ before, header.entryMethods = 0) → entry.entryMethods = 1 →
      next.isEnd = true →
      Arranged next (before ++ [entry]) (.accepted entry.name.lexeme)

/-- The verdict when the classes have been looked through. -/
def Verdict.ofEntryClass : Except Diagnostic String → Verdict
  | .ok name => .accepted name
  | .error diagnostic => .rejected [diagnostic]

theorem Verdict.ofReading_ok (stream : TokenStream) (stop : Nat) (outline : Outline)
    (log : List Failure) :
    Verdict.ofReading stream (.ok stop outline, log) =
      Verdict.ofEntryClass (entryClass outline.classes (stream.get stop)) := by
  unfold Verdict.ofReading
  dsimp only
  cases entryClass outline.classes (stream.get stop) <;> rfl

/-- An objection to a token within the input quotes the token. -/
theorem Verdict.ofEntryClass_objection {token : Token} {reason : Reason} {expected : String}
    (unended : token.isEnd = false) :
    Verdict.ofEntryClass (.error (Diagnostic.ofToken token reason expected)) =
      .rejected [⟨token.line, expected, .lexeme token.lexeme, reason⟩] := by
  show Verdict.rejected [⟨_, _, Found.ofToken _, _⟩] = _
  rw [Found.ofToken, unended]
  rfl

section

variable {next : Token} {classes before later between : List ClassHeader}
  {header entry other : ClassHeader} {verdict : Verdict}

/-- Classes without entry methods are passed over. -/
theorem entryClass_append (none : ∀ header ∈ before, header.entryMethods = 0)
    (rest : List ClassHeader) : entryClass (before ++ rest) next = entryClass rest next := by
  unfold entryClass
  rw [List.dropWhile_append_of_pos (by simpa using none)]

theorem dropWhile_of_pos (some : 0 < entry.entryMethods) :
    (entry :: later).dropWhile (fun header => header.entryMethods == 0) = entry :: later :=
  List.dropWhile_cons_of_neg (by simpa using Nat.ne_of_gt some)

theorem entryClass_of_several (several : 1 < entry.entryMethods) :
    entryClass (entry :: later) next =
      .error (entry.diagnostic (.duplicateEntryClass entry.name.lexeme)) := by
  unfold entryClass
  rw [dropWhile_of_pos (Nat.zero_lt_of_lt several)]
  dsimp only
  rw [if_pos several]

/-- Behind a class with one entry method the others matter. -/
theorem entryClass_of_one (one : entry.entryMethods = 1) :
    entryClass (entry :: later) next =
      match later.find? fun header => 0 < header.entryMethods with
      | some second => .error (second.diagnostic (.duplicateEntryClass second.name.lexeme))
      | none =>
          match later with
          | header :: _ => .error (header.diagnostic (.entryClassNotLast entry.name.lexeme))
          | [] =>
              if next.isEnd then .ok entry.name.lexeme
              else .error (Diagnostic.ofToken next .trailingTokens "end of input") := by
  unfold entryClass
  rw [dropWhile_of_pos (by rw [one]; decide)]
  have notSeveral : ¬ 1 < entry.entryMethods := by
    rw [one]
    decide
  exact if_neg notSeveral

theorem find?_eq_none_of_none (none : ∀ header ∈ later, header.entryMethods = 0) :
    later.find? (fun header => 0 < header.entryMethods) = Option.none := by
  rw [List.find?_eq_none]
  intro header member
  rw [none header member]
  decide

theorem find?_eq_some_of_none (none : ∀ header ∈ between, header.entryMethods = 0)
    (some : 0 < other.entryMethods) :
    (between ++ other :: later).find? (fun header => 0 < header.entryMethods) =
      Option.some other := by
  rw [List.find?_append, find?_eq_none_of_none none, Option.none_or,
    List.find?_cons_of_pos (by simpa using some)]

/-- What an objection says is the verdict. -/
theorem Arranged.verdict_eq (arranged : Arranged next classes verdict)
    (named : ∀ header ∈ classes, header.name.isEnd = false) :
    Verdict.ofEntryClass (entryClass classes next) = verdict := by
  cases arranged with
  | missing none =>
      rw [← List.append_nil classes, entryClass_append none]
      rfl
  | several none several =>
      rw [entryClass_append none, entryClass_of_several several]
      exact Verdict.ofEntryClass_objection
        (named _ (List.mem_append_right _ List.mem_cons_self))
  | @second _ _ _ _ other none one nothing some =>
      rw [entryClass_append none, entryClass_of_one one, find?_eq_some_of_none nothing some]
      exact Verdict.ofEntryClass_objection (named other (by simp))
  | @notLast _ _ _ follower none one nothing =>
      rw [entryClass_append none, entryClass_of_one one, find?_eq_none_of_none nothing]
      exact Verdict.ofEntryClass_objection (named follower (by simp))
  | trailing none one unended =>
      rw [entryClass_append none, entryClass_of_one one]
      dsimp only [List.find?_nil]
      rw [if_neg (Bool.eq_false_iff.mp unended)]
      exact Verdict.ofEntryClass_objection unended
  | accepted none one ended =>
      rw [entryClass_append none, entryClass_of_one one]
      dsimp only [List.find?_nil]
      rw [if_pos ended]
      rfl

theorem Arranged.cons (arranged : Arranged next classes verdict)
    (none : header.entryMethods = 0) : Arranged next (header :: classes) verdict := by
  have more : ∀ {before : List ClassHeader}, (∀ header ∈ before, header.entryMethods = 0) →
      ∀ other ∈ header :: before, other.entryMethods = 0 :=
    fun before => List.forall_mem_cons.mpr ⟨none, before⟩
  cases arranged with
  | missing before => exact .missing (more before)
  | several before several => exact .several (more before) several
  | second before one nothing some => exact .second (more before) one nothing some
  | notLast before one nothing => exact .notLast (more before) one nothing
  | trailing before one unended => exact .trailing (more before) one unended
  | accepted before one ended => exact .accepted (more before) one ended

/-- One of the objections is made, or none applies and the program is accepted. -/
theorem exists_arranged (next : Token) (classes : List ClassHeader) :
    ∃ verdict, Arranged next classes verdict := by
  induction classes with
  | nil => exact ⟨_, .missing fun _ member => nomatch member⟩
  | cons entry later ih =>
      have front : ∀ header ∈ ([] : List ClassHeader), header.entryMethods = 0 :=
        fun _ member => nomatch member
      rcases Nat.lt_trichotomy entry.entryMethods 1 with none | one | several
      · obtain ⟨verdict, arranged⟩ := ih
        exact ⟨verdict, arranged.cons (Nat.lt_one_iff.mp none)⟩
      · cases found : later.find? fun header => 0 < header.entryMethods with
        | some other =>
            obtain ⟨some, between, rest, rfl, nothing⟩ := List.find?_eq_some_iff_append.mp found
            exact ⟨_, .second front one (by simpa using nothing) (by simpa using some)⟩
        | none =>
            have nothing : ∀ header ∈ later, header.entryMethods = 0 := by
              simpa using List.find?_eq_none.mp found
            cases later with
            | cons follower later => exact ⟨_, .notLast front one nothing⟩
            | nil =>
                cases ended : next.isEnd with
                | true => exact ⟨_, .accepted front one ended⟩
                | false => exact ⟨_, .trailing front one ended⟩
      · exact ⟨_, .several front several⟩

theorem verdict_eq_iff_arranged (named : ∀ header ∈ classes, header.name.isEnd = false) :
    Verdict.ofEntryClass (entryClass classes next) = verdict ↔ Arranged next classes verdict := by
  constructor
  · rintro rfl
    obtain ⟨verdict, arranged⟩ := exists_arranged next classes
    rwa [arranged.verdict_eq named]
  · intro arranged
    exact arranged.verdict_eq named

/-- Every objection is a single diagnostic about the arrangement of the classes. -/
theorem Arranged.structural (arranged : Arranged next classes verdict)
    (rejected : verdict.isAccepted = false) :
    verdict.entryClass? = none ∧
      ∃ diagnostic, verdict.diagnostics = [diagnostic] ∧ diagnostic.isStructural = true := by
  cases arranged with
  | missing | several | second | notLast | trailing => exact ⟨rfl, _, rfl, rfl⟩
  | accepted => exact Bool.noConfusion rejected

end

/-! ## Programs -/

/-- When a program is read with these classes, the verdict is about them alone: they are those that were read,
each with as many entry methods as are among its members. The program is accepted when there is one entry
method, in the last class, and nothing follows; and otherwise the only diagnostic is the first objection that
applies. -/
theorem verdict_on_entry_class {tokens : List Token} {classes : List ClassHeader} {after : Parser}
    (read : (Query.read "" .program).run (Parser.start tokens) = (.ok (.headers classes), after)) :
    (∃ first, Accepts (TokenStream.ofTokens tokens) ""
        (.whileNext [First.importDecl] (.rule .importDecl)) 0 first .empty ∧
          ClassesRead (TokenStream.ofTokens tokens) first classes after.position) ∧
      (∀ name, check tokens = .accepted name ↔
        after.current.isEnd = true ∧ (classes.map ClassHeader.entryMethods).sum = 1 ∧
          ∃ last, classes.getLast? = some last ∧ last.entryMethods = 1 ∧
            last.name.lexeme = name) ∧
      (∀ verdict, check tokens = verdict ↔ Arranged after.current classes verdict) ∧
      ((check tokens).isAccepted = false →
        (check tokens).entryClass? = none ∧
          ∃ diagnostic, (check tokens).diagnostics = [diagnostic] ∧
            diagnostic.isStructural = true) := by
  obtain ⟨outline, value, accepted⟩ := Query.accepts_of_run read
  obtain rfl : classes = outline.classes := Answer.headers.inj value
  obtain ⟨first, imports, classes⟩ := Accepts.programRead accepted
  have current : after.current = (TokenStream.ofTokens tokens).get after.position := by
    unfold Parser.current Parser.peek
    rw [Query.stream_of_run read]
    rfl
  have verdict : check tokens =
      Verdict.ofEntryClass (entryClass outline.classes after.current) := by
    obtain ⟨log, ended⟩ := accepted
    rw [current, check_eq (Phrase.read_eq_iff.mpr ended)]
    exact Verdict.ofReading_ok _ _ _ _
  have arranged (other : Verdict) :
      check tokens = other ↔ Arranged after.current outline.classes other := by
    rw [verdict]
    exact verdict_eq_iff_arranged classes.isEnd_name
  refine ⟨⟨first, imports, classes⟩, fun name => ?_, arranged,
    fun rejected => ((arranged _).mp rfl).structural rejected⟩
  have named : check tokens = .accepted name ↔
      entryClass outline.classes after.current = .ok name := by
    rw [verdict]
    cases entryClass outline.classes after.current <;> simp [Verdict.ofEntryClass]
  rw [named, entryClass_eq_ok]
  refine and_congr_right fun _ => ?_
  constructor
  · rintro ⟨last, isLast, one, sum, called⟩
    exact ⟨sum, last, isLast, one, called⟩
  · rintro ⟨sum, last, isLast, one, called⟩
    exact ⟨last, isLast, one, sum, called⟩

/-- A class stands behind the entry class. That the assignment was first tried as a declaration, where a name
was missing, is not reported. -/
theorem helperBehindEntry_verdict :
    let tokens := tokenize
      "class A { public static void main(String[] a) { x = 1; } }\nclass B { int main; }"
    ∃ after, (Query.read "" .program).run (Parser.start tokens) =
        (.ok (.headers [⟨⟨.identifier, "A", 1⟩, 1⟩, ⟨⟨.identifier, "B", 2⟩, 0⟩]), after) ∧
      after.diagnostics = [⟨1, "variable name", .lexeme "=", .expectation⟩] ∧
        check tokens =
          .rejected [⟨2, "entry class as the last class", .lexeme "B", .entryClassNotLast "A"⟩] := by
  intro tokens
  have computed : Rule.program.read (Parser.start tokens).stream "" (Parser.start tokens).position =
      (.ok 27 ⟨[⟨⟨.identifier, "A", 1⟩, 1⟩, ⟨⟨.identifier, "B", 2⟩, 0⟩], 0⟩,
        [⟨15, "variable name"⟩]) :=
    Rule.read_eq_of_readWithin 1000 (by decide +kernel)
  have read : (Query.read "" .program).run (Parser.start tokens) =
      (.ok (.headers [⟨⟨.identifier, "A", 1⟩, 1⟩, ⟨⟨.identifier, "B", 2⟩, 0⟩]),
        { (Parser.start tokens).note [⟨15, "variable name"⟩] with position := 27 }) := by
    unfold Query.run Parser.rule
    dsimp only
    rw [computed]
    rfl
  have nowhere : ∀ header ∈ ([] : List ClassHeader), header.entryMethods = 0 := by decide
  obtain ⟨-, -, verdict, -⟩ := verdict_on_entry_class read
  exact ⟨_, read, by decide +kernel,
    (verdict _).mpr (@Arranged.notLast _ [] [] _ _ nowhere rfl (by decide))⟩

end ClassSyntax

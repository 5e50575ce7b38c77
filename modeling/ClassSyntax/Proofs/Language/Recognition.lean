import ClassSyntax.Proofs.Language.Soundness
import ClassSyntax.Verdict

/-!
# Exactly the programs are accepted

* `accepts_program_iff`: the tokens of a stream are read to the end exactly when they are a unit.
* `entryClass_eq_ok`: when the classes of a unit have an entry class.
* `check_accepts_programs`: a token list is accepted exactly when it is a program.
-/

namespace ClassSyntax

/-! ## Arrangement of the classes -/

theorem sum_entryMethods_pos {header : ClassHeader} {classes : List ClassHeader}
    (member : header ∈ classes) (some : 0 < header.entryMethods) :
    0 < (classes.map ClassHeader.entryMethods).sum :=
  List.sum_pos_iff_exists_pos_nat.mpr ⟨_, List.mem_map_of_mem member, some⟩

/-- The last of these classes has the only entry method. -/
def OnlyLast (classes : List ClassHeader) (name : String) : Prop :=
  ∃ last, classes.getLast? = some last ∧ last.entryMethods = 1 ∧
    (classes.map ClassHeader.entryMethods).sum = 1 ∧ last.name.lexeme = name

variable {header : ClassHeader} {classes : List ClassHeader} {name : String}

theorem onlyLast_cons_of_zero (none : header.entryMethods = 0) :
    OnlyLast (header :: classes) name ↔ OnlyLast classes name := by
  unfold OnlyLast
  cases classes with
  | nil => simp [none]
  | cons other classes => simp [none, List.getLast?_cons_cons]

/-- A class with an entry method has to be the last one. -/
theorem onlyLast_cons_of_pos (some : 0 < header.entryMethods) :
    OnlyLast (header :: classes) name ↔
      header.entryMethods = 1 ∧ classes = [] ∧ header.name.lexeme = name := by
  unfold OnlyLast
  constructor
  · rintro ⟨last, isLast, one, sum, named⟩
    rw [List.map_cons, List.sum_cons] at sum
    cases classes with
    | nil =>
        obtain rfl := Option.some.inj isLast
        exact ⟨one, rfl, named⟩
    | cons other classes =>
        rw [List.getLast?_cons_cons] at isLast
        have := sum_entryMethods_pos (List.mem_of_getLast? isLast) (by omega)
        omega
  · rintro ⟨one, rfl, named⟩
    exact ⟨header, rfl, one, by simp [one], named⟩

/-- There is an entry class exactly when the last class has the only entry method and nothing follows
it. -/
theorem entryClass_eq_ok {next : Token} :
    entryClass classes next = .ok name ↔ next.isEnd = true ∧ OnlyLast classes name := by
  induction classes with
  | nil => simp [entryClass, OnlyLast]
  | cons header classes ih =>
      rcases Nat.eq_zero_or_pos header.entryMethods with none | some
      · rw [onlyLast_cons_of_zero none, ← ih]
        simp [entryClass, none]
      · rw [onlyLast_cons_of_pos some]
        unfold entryClass
        rw [List.dropWhile_cons_of_neg (by simpa using Nat.ne_of_gt some)]
        dsimp only
        split
        · rename_i several
          refine ⟨nofun, ?_⟩
          rintro ⟨-, one, -⟩
          omega
        · cases classes with
          | nil =>
              have one : header.entryMethods = 1 := by omega
              cases next.isEnd <;> simp [one]
          | cons other classes =>
              refine ⟨?_, nofun⟩
              split <;> exact nofun

/-! ## The whole input -/

/-- The tokens of a stream are read to the end exactly when they are a unit. -/
theorem accepts_program_iff {stream : TokenStream} {outline : Outline} :
    Accepts stream "" (.rule .program) 0 stream.size outline ↔
      Derives Nonterminal.production "" (.symbol .unit) stream.body.toList outline := by
  constructor
  · rintro ⟨log, read⟩
    obtain ⟨word, spells, derived⟩ := (read.covered (by decide)).read rfl
    rwa [spells.unique (spells_body stream)] at derived
  · intro derived
    exact accepts_of_derives derived (spells_body stream) (stream.not_allow_size _)

theorem Verdict.isAccepted_iff {verdict : Verdict} :
    verdict.isAccepted = true ↔ ∃ name, verdict.entryClass? = some name := by
  cases verdict <;> simp [Verdict.isAccepted, Verdict.entryClass?]

/-- The verdict names an entry class when the classes were read and have one. -/
theorem Verdict.entryClass?_ofReading {stream : TokenStream} {outcome : Outcome}
    {log : List Failure} :
    (Verdict.ofReading stream (outcome, log)).entryClass? = some name ↔
      ∃ stop outline, outcome = .ok stop outline ∧
        entryClass outline.classes (stream.get stop) = .ok name := by
  cases outcome with
  | fail failure => simp [Verdict.ofReading, Verdict.entryClass?]
  | ok stop outline =>
      simp only [Verdict.ofReading, Outcome.ok.injEq]
      constructor
      · intro named
        refine ⟨stop, outline, ⟨rfl, rfl⟩, ?_⟩
        cases result : entryClass outline.classes (stream.get stop) with
        | ok other =>
            rw [result] at named
            rw [Option.some.inj named]
        | error diagnostic => simp [result, Verdict.entryClass?] at named
      · rintro ⟨_, _, ⟨rfl, rfl⟩, result⟩
        rw [result]
        rfl

theorem check_eq {tokens : List Token} {result : Outcome × List Failure}
    (read : Rule.program.read (TokenStream.ofTokens tokens) "" 0 = result) :
    check tokens = Verdict.ofReading (TokenStream.ofTokens tokens) result := by
  rw [← read]
  rfl

theorem entryClass?_check {tokens : List Token} :
    (check tokens).entryClass? = some name ↔
      IsProgram Nonterminal.production tokens name := by
  rw [check_eq rfl]
  generalize same : TokenStream.ofTokens tokens = stream
  have body : stream.body.toList = tokens.filter fun token => !token.isEnd := by
    rw [← same]
    rfl
  have ended := stream.get_isEnd_iff
  unfold IsProgram
  rw [← body]
  constructor
  · intro named
    cases computed : Rule.program.read stream "" 0 with
    | mk outcome log =>
    rw [computed] at named
    obtain ⟨stop, outline, rfl, arranged⟩ := Verdict.entryClass?_ofReading.mp named
    obtain ⟨last, only⟩ := entryClass_eq_ok.mp arranged
    have read : Reads stream "" (.rule .program) 0 _ log := Phrase.read_eq_iff.mp computed
    have inside := read.stop_le
    rw [Outcome.stop_ok, Nat.zero_max] at inside
    obtain rfl : stop = stream.size := Nat.le_antisymm inside ((ended stop).mp last)
    obtain ⟨entry, isLast, one, sum, called⟩ := only
    exact ⟨outline, entry, accepts_program_iff.mp ⟨_, read⟩, isLast, one, sum, called⟩
  · rintro ⟨outline, entry, derived, only⟩
    obtain ⟨log, read⟩ := accepts_program_iff.mpr derived
    have computed : Rule.program.read stream "" 0 = _ := Phrase.read_eq_iff.mpr read
    rw [computed]
    exact Verdict.entryClass?_ofReading.mpr ⟨stream.size, outline, rfl,
      entryClass_eq_ok.mpr ⟨(ended _).mpr (Nat.le_refl _), entry, only⟩⟩

/-- A token list is accepted exactly when it is a program, and its entry class is that of the
program. -/
theorem check_accepts_programs (tokens : List Token) :
    ((check tokens).isAccepted = true ↔
        ∃ name, IsProgram Nonterminal.production tokens name) ∧
      ∀ name, (check tokens).entryClass? = some name ↔
        IsProgram Nonterminal.production tokens name := by
  refine ⟨?_, fun name => entryClass?_check⟩
  rw [Verdict.isAccepted_iff]
  exact exists_congr fun name => entryClass?_check

/-! ## Primitive types that are called -/

/-- The tokens of `class A { public static void main(String[] a) { new int(); } }`. -/
def calledPrimitive : List Token :=
  [⟨.keyword, "class", 1⟩, ⟨.identifier, "A", 1⟩, ⟨.punctuation, "\x7b", 1⟩,
    ⟨.keyword, "public", 1⟩, ⟨.keyword, "static", 1⟩, ⟨.keyword, "void", 1⟩,
    ⟨.identifier, "main", 1⟩, ⟨.punctuation, "(", 1⟩, ⟨.identifier, "String", 1⟩,
    ⟨.punctuation, "[", 1⟩, ⟨.punctuation, "]", 1⟩, ⟨.identifier, "a", 1⟩,
    ⟨.punctuation, ")", 1⟩, ⟨.punctuation, "\x7b", 1⟩, ⟨.keyword, "new", 1⟩,
    ⟨.keyword, "int", 1⟩, ⟨.punctuation, "(", 1⟩, ⟨.punctuation, ")", 1⟩,
    ⟨.punctuation, ";", 1⟩, ⟨.punctuation, "\x7d", 1⟩, ⟨.punctuation, "\x7d", 1⟩]

namespace Free

/-- A derivation in the table in which a primitive type may be called. -/
abbrev Word (own : String) (form : Form) (word : List Token) (outline : Outline) : Prop :=
  Derives Nonterminal.freeProduction own form word outline

variable {own : String} {word : List Token} {outline : Outline}

theorem spelled {kind : Kind} {lexeme : String}
    (admitted : Terminals.allow [.spelled kind lexeme] ⟨kind, lexeme, 1⟩ = true) :
    Word own (.token [.spelled kind lexeme]) [⟨kind, lexeme, 1⟩] .empty :=
  .token admitted

/-- An expression without an operator of its level. -/
theorem level (level : Level) (operand : Word own (Form.operand level) word outline) :
    Word own (.symbol (.binary level)) word outline := by
  have none : Word own (.many (.seq (.token level.terminals) (Form.operand level))) [] .empty :=
    .manyNone
  have whole := Derives.seq operand none
  rw [List.append_nil, Outline.append_empty] at whole
  exact .symbol whole

/-- An operand is an expression. -/
theorem expr (operand : Word own (.symbol .unary) word outline) :
    Word own (.symbol .expr) word outline :=
  .symbol (level .logicalOr (level .logicalAnd (level .equality (level .relational
    (level .additive (level .multiplicative operand))))))

theorem creation : ∃ word outline, Word own (.symbol .creation) word outline ∧
    word = [⟨.keyword, "new", 1⟩, ⟨.keyword, "int", 1⟩, ⟨.punctuation, "(", 1⟩,
      ⟨.punctuation, ")", 1⟩] ∧ outline = .empty := by
  have primitive : First.primitiveType.allow ⟨.keyword, "int", 1⟩ = true := rfl
  exact ⟨_, _, .symbol (.seq (spelled rfl) (.seq (.left (.token primitive))
    (.left (.symbol (.seq (spelled rfl) (.seq (.right .empty) (spelled rfl))))))), rfl, rfl⟩

theorem block : ∃ word outline, Word own (.symbol .block) word outline ∧
    word = [⟨.punctuation, "\x7b", 1⟩, ⟨.keyword, "new", 1⟩, ⟨.keyword, "int", 1⟩,
      ⟨.punctuation, "(", 1⟩, ⟨.punctuation, ")", 1⟩, ⟨.punctuation, ";", 1⟩,
      ⟨.punctuation, "\x7d", 1⟩] ∧ outline = .empty := by
  obtain ⟨_, _, created, rfl, rfl⟩ := @creation own
  have value := expr (.symbol (.right (.symbol (.right (.right (.right created))))))
  have stmt : Word own (.symbol .stmt) _ _ :=
    .symbol (.right (.right (.right (.right (.right (.right (.right (.right (.right (.right
      (.right (.seq value (spelled rfl)))))))))))))
  exact ⟨_, _, .symbol (.seq (spelled rfl) (.seq (.manyMore stmt .manyNone) (spelled rfl))),
    rfl, rfl⟩

end Free

/-- The grammar would let a primitive type be called, but that is not accepted. -/
theorem check_rejects_calledPrimitive :
    IsProgram Nonterminal.freeProduction calledPrimitive "A" ∧
      (check calledPrimitive).isAccepted = false := by
  constructor
  · obtain ⟨_, _, block, rfl, rfl⟩ := @Free.block "A"
    have parameter : Terminals.allow [.identifier] ⟨.identifier, "a", 1⟩ = true := rfl
    have entry : Free.Word "A" (.symbol .member) _ _ :=
      .symbol (.left (.seq (.symbol (.seq (Free.spelled rfl) (.seq (Free.spelled rfl)
        (.seq (Free.spelled rfl) (.seq (Free.spelled rfl) (.seq (Free.spelled rfl)
          (.seq (Free.spelled rfl)
            (.seq (.left (.seq (Free.spelled rfl) (.seq (Free.spelled rfl) (.token parameter))))
              (.seq (Free.spelled rfl) block))))))))) .countEntry))
    have name : Terminal.identifier.admits ⟨.identifier, "A", 1⟩ = true := rfl
    have whole : Free.Word "" (.symbol .classDecl) _ _ :=
      .symbol (.seq .manyNone (.seq (Free.spelled rfl) (.inClass name
        (.seq (.right .empty) (.seq (.right .empty) (.seq (Free.spelled rfl)
          (.seq (.manyMore entry .manyNone) (Free.spelled rfl))))))))
    exact ⟨⟨[⟨⟨.identifier, "A", 1⟩, 1⟩], 0⟩, _,
      .symbol (.seq .manyNone (.manyMore whole .manyNone)), rfl, rfl, rfl, rfl⟩
  · have rejected : check calledPrimitive = .rejected [⟨1, "[", .lexeme "(", .expectation⟩] :=
      check_eq_of_checkWithin 1000 (by decide +kernel)
    rw [rejected]
    rfl

end ClassSyntax

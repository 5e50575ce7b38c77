import ClassSyntax.Proofs.Language.Conditionals
import ClassSyntax.Proofs.Language.Trials

/-!
# Statements are read exactly

The statements on which one look ahead is not enough: jumps, `try`, `for`, conditionals, and the choice
between all of them.

* `accepts_of_sealed`: a sealed statement is read up to its end even if an `else` comes next.
* `Rule.exact_stmt`, `Rule.exact_ifStmt`: these rules are exact when the rules in them are.
-/

namespace ClassSyntax

variable {stream : TokenStream} {own : String} {length : Nat}

/-! ## Jumps -/

theorem Rule.exact_jumpStmt : Rule.jumpStmt.ExactOn stream length := by
  intro own start stop word outline short derived spells ended
  obtain ⟨rfl, isWord⟩ := derived.isWord rfl
  obtain ⟨front, last, rfl, isFront, semicolon⟩ := isWord_concat_mark (isWord_symbol.mp isWord)
  obtain ⟨jump, isJump, rfl⟩ := isWord_token.mp isFront
  obtain ⟨rfl, rfl, rfl⟩ := spells
  have any : Terminals.allow [.anything] (stream.get start) = true := by
    simpa [Terminals.allow, Terminal.admits] using Terminals.isEnd_of_allow isJump
  refine Accepts.seq (accepts_ifNext.mpr ?_ : Accepts _ _ _ start (start + 1) .empty)
    (accepts_expect.mpr ⟨by simpa using semicolon, rfl, rfl⟩)
  rw [startsWith_singleton, if_pos any]
  exact accepts_expect.mpr ⟨any, rfl, rfl⟩

/-! ## Handlers -/

namespace Form

/-- Some clause has to follow the block of a `try`. -/
def handlers : Form :=
  alt (all [catchClause, many catchClause, optional finallyClause]) finallyClause

end Form

theorem derives_handlers {word : List Token} {outline : Outline}
    (derived : Derives Nonterminal.production own Form.handlers word outline) :
    Derives Nonterminal.production own
      (.seq (.many Form.catchClause) (.optional Form.finallyClause)) word outline := by
  rcases derives_alt.mp derived with caught | finished
  · obtain ⟨left, right, before, after, first, rest, rfl, rfl⟩ := derives_seq.mp caught
    obtain ⟨more, last, between, behind, others, closing, rfl, rfl⟩ := derives_seq.mp rest
    refine derives_seq.mpr ⟨left ++ more, last, before ++ between, behind,
      .manyMore first others, closing, (List.append_assoc ..).symm, ?_⟩
    exact (Outline.append_assoc ..).symm
  · exact derives_seq.mpr ⟨[], word, .empty, outline, .manyNone, .left finished, rfl,
      (Outline.empty_append _).symm⟩

theorem Rule.exact_tryStmt (rules : RulesExact stream Rule.tryStmt.rank length) :
    Rule.tryStmt.ExactOn stream length := by
  have handlers : ∀ less, less < length → ClassSyntax.ExactOn stream less
      (.ifNext [[.keyword "catch", .keyword "finally"]]
        (.seq (Phrase.whileToken (.keyword "catch") Phrase.catchClause)
          (Phrase.ifToken (.keyword "finally") (.rule .block) .done))
        (.fail "catch or finally"))
      Form.handlers Rule.tryStmt.goesOn := by
    intro less fewer
    have clauses := rules.decidedLater
      (.seq (Phrase.whileToken (.keyword "catch") Phrase.catchClause)
        (Phrase.ifToken (.keyword "finally") (.rule .block) .done)) (by decide) fewer
    have exact : ClassSyntax.ExactOn stream less _ Form.handlers Rule.tryStmt.goesOn :=
      (clauses.weaken (Nat.le_refl _) (by decide)).ofForm fun derived =>
        (derives_handlers derived).mono 16 (by decide)
    have none : ClassSyntax.ExactOn stream less (.fail "catch or finally") .never
        Rule.tryStmt.goesOn := fun _ _ _ _ _ _ derived => absurd derived not_derives_never
    refine (exact.ifNext [.keyword "catch", .keyword "finally"] none (by decide) (by decide)
      (by decide)).ofForm (Derives.mono 16 (by decide))
  refine ExactOn.ofForm (ExactOn.behindToken fun less fewer => ?_) derives_symbol.mp
  exact (rules.later .block fewer).seq (fun even fewerEven _ => handlers even (by omega))
    (by decide) (by decide)

/-! ## Loops with a header -/

/-- A part that may be left out is left out exactly when what follows it comes next. -/
theorem ExactOn.unlessNext {phrase second : Phrase} {left right : Form}
    {goesOn others : Terminals} (choices : Terminals)
    (one : ExactOn stream length phrase left goesOn)
    (two : ∀ less, less ≤ length → ExactOn stream less second right others)
    (starts : right.leads [choices] = true) (filled : left.nullable = false)
    (different : left.first.apart choices = true) (settled : right.first.apart goesOn = true) :
    ExactOn stream length (.seq (.ifNext [choices] .done phrase) second)
      (.seq (.optional left) right) others := by
  intro own start stop word outline short derived spells ended
  obtain ⟨front, back, before, after, derivedFront, derivedBack, rfl, rfl⟩ :=
    derives_seq.mp derived
  obtain ⟨middle, spellsFront, spellsBack⟩ := spells_append.mp spells
  rw [List.length_append] at short
  have read := two back.length (by omega) (Nat.le_refl _) derivedBack spellsBack ended
  refine Accepts.seq (accepts_ifNext.mpr ?_) read
  rcases derives_optional.mp derivedFront with derivedFront | ⟨rfl, rfl⟩
  · have next : stream.startsWith [choices] start = false := by
      rw [startsWith_singleton]
      cases front with
      | nil => exact absurd rfl (derivedFront.ne_nil filled)
      | cons head front =>
          rw [spellsFront.1]
          exact Terminals.not_allow_of_apart different derivedFront.starts
    rw [next, if_neg (by decide)]
    refine one (by omega) derivedFront spellsFront ?_
    cases back with
    | nil => exact Bool.noConfusion (startsLike_of_leads starts derivedBack)
    | cons head back =>
        rw [spellsBack.1]
        exact Terminals.not_allow_of_apart settled derivedBack.starts
  · obtain rfl := spells_nil.mp spellsFront
    rw [spellsBack.startsWith (startsLike_of_leads starts derivedBack), if_pos rfl]
    exact accepts_done.mpr ⟨rfl, rfl⟩

namespace Phrase

/-- A condition in parentheses behind its keyword. -/
def condition (word : String) : List Phrase :=
  [keyword word, mark "(", rule .expr, mark ")"]

def forHeader : List Phrase :=
  [keyword "for", mark "(", ifNext [[.mark ";"]] done (orElse (rule .varDecl) (rule .simpleStmt)),
    mark ";", ifNext [[.mark ";"]] done (rule .expr), mark ";",
    ifNext [[.mark ")"]] done (rule .simpleStmt), mark ")"]

end Phrase

theorem exact_forHeader {bound : Nat} (rules : RulesExact stream bound length) :
    ExactOn stream length (.all Phrase.forHeader) (.all Form.forHeader) [] := by
  refine ExactOn.behindToken fun less fewer => ExactOn.behindToken fun less fewer =>
    ExactOn.unlessNext [.mark ";"] (exact_forInit (rules.less (by omega) 13))
      (fun less fewer => ExactOn.behindToken fun less fewer =>
        ExactOn.unlessNext [.mark ";"] (rules.later .expr (by omega))
          (fun less fewer => ExactOn.behindToken fun less fewer =>
            ExactOn.unlessNext [.mark ")"] (rules.later .simpleStmt (by omega))
              (fun less fewer => ExactOn.token) ?_ ?_ ?_ ?_) ?_ ?_ ?_ ?_) ?_ ?_ ?_ ?_
  all_goals decide

/-- Phrases that are read one after the other, and another one behind them. -/
theorem accepts_all_concat {phrases : List Phrase} (some : phrases ≠ []) {last : Phrase}
    {start middle stop : Nat} (before : Accepts stream own (.all phrases) start middle .empty)
    (after : Accepts stream own last middle stop .empty) :
    Accepts stream own (.all (phrases ++ [last])) start stop .empty := by
  induction phrases generalizing start with
  | nil => exact absurd rfl some
  | cons phrase phrases ih =>
      cases phrases with
      | nil => exact before.seq after
      | cons next phrases =>
          obtain ⟨place, left, right, one, more, same⟩ := accepts_seq.mp before
          obtain ⟨rfl, rfl⟩ := Outline.append_eq_empty same.symm
          exact one.seq (ih (List.cons_ne_nil _ _) more)

/-- The last of several phrases is read behind the others. -/
theorem accepts_of_all_concat {phrases : List Phrase} (some : phrases ≠ []) {last : Phrase}
    {start stop : Nat} {outline : Outline}
    (accepted : Accepts stream own (.all (phrases ++ [last])) start stop outline) :
    ∃ middle before after, Accepts stream own (.all phrases) start middle before ∧
      Accepts stream own last middle stop after := by
  induction phrases generalizing start outline with
  | nil => exact absurd rfl some
  | cons phrase phrases ih =>
      cases phrases with
      | nil =>
          obtain ⟨middle, _, _, one, more, -⟩ := accepts_seq.mp accepted
          exact ⟨middle, _, _, one, more⟩
      | cons next phrases =>
          obtain ⟨_, _, _, one, more, -⟩ := accepts_seq.mp accepted
          obtain ⟨middle, _, _, front, back⟩ := ih (List.cons_ne_nil _ _) more
          exact ⟨middle, _, _, one.seq front, back⟩

theorem Rule.exact_forStmt (rules : RulesExact stream Rule.forStmt.rank length) :
    Rule.forStmt.ExactOn stream length := by
  intro own start stop word outline short derived spells ended
  obtain ⟨rfl, isWord⟩ := derived.isWord rfl
  obtain ⟨header, body, isHeader, isBody, rfl⟩ := isWord_forStmt.mp isWord
  obtain ⟨middle, spellsHeader, spellsBody⟩ := spells_append.mp spells
  have := header_filled isHeader rfl
  rw [List.length_append] at short
  have readHeader := exact_forHeader rules (by omega) isHeader spellsHeader rfl
  have readBody := rules.later .stmt (show body.length < length by omega) (Nat.le_refl _) isBody
    spellsBody ended
  exact accepts_all_concat (List.cons_ne_nil _ _) readHeader readBody

/-! ## The choice between statements -/

namespace Phrase

/-- The statements that do not end with another statement, from a token on that starts none of the
others. -/
def plainStmt : Phrase :=
  dispatch
    [([.keyword "return"], rule .returnStmt),
      ([.keyword "break", .keyword "continue"], rule .jumpStmt),
      ([.keyword "throw"], rule .throwStmt),
      ([.keyword "try"], rule .tryStmt),
      (.keyword "final" :: First.primitiveType, rule .varDeclStmt),
      ([.mark "\x7b"], rule .block),
      ([.mark ";"], mark ";")]
    (rule .trialStmt)

end Phrase

namespace Form

/-- A declaration, by the token that it starts with. -/
def declarationBy (choices : Terminals) : Form :=
  guarded choices (seq (symbol .varDecl) (mark ";"))

/-- The statements that are left to trial. -/
def triedStmt : Form :=
  any [declarationBy [.identifier], seq (symbol .simple) (mark ";"), seq (symbol .expr) (mark ";")]

end Form

theorem derives_declarationBy {word : List Token} {outline : Outline}
    (derived : Derives Nonterminal.production own (.seq (.symbol .varDecl) (Form.mark ";")) word
      outline) :
    Derives Nonterminal.production own
      (.alt (Form.declarationBy (.keyword "final" :: First.primitiveType))
        (Form.declarationBy [.identifier])) word outline := by
  cases word with
  | nil => exact absurd rfl (derived.ne_nil rfl)
  | cons head word =>
      have starts : Terminals.allow (.keyword "final" :: First.primitiveType ++ [.identifier])
          head = true := derived.starts
      rw [Terminals.allow_append, Bool.or_eq_true] at starts
      rcases starts with starts | starts
      · exact .left (.guarded derived starts)
      · exact .right (.guarded derived starts)

theorem exact_plainStmt (rules : RulesExact stream Rule.stmt.rank length) :
    ExactOn stream length Phrase.plainStmt Form.plainStmt Rule.tryStmt.goesOn := by
  have now : ∀ rule : Rule, rule.rank < Rule.stmt.rank →
      rule.goesOn.within Rule.tryStmt.goesOn = true →
        ClassSyntax.ExactOn stream length (.rule rule) rule.wanted Rule.tryStmt.goesOn :=
    fun rule below inside => (rules.atOnce rule below (Nat.le_refl _)).weaken (Nat.le_refl _) inside
  have tried : ClassSyntax.ExactOn stream length (.rule .trialStmt) Form.triedStmt
      Rule.tryStmt.goesOn :=
    (now .trialStmt (by decide) (by decide)).ofForm (Derives.mono 16 (by decide))
  have semicolon : ClassSyntax.ExactOn stream length (Phrase.mark ";") (Form.mark ";")
      Rule.tryStmt.goesOn := ExactOn.token.weaken (Nat.le_refl _) (by decide)
  have exact :=
    (now .returnStmt (by decide) (by decide)).ifNext [.keyword "return"]
      ((now .jumpStmt (by decide) (by decide)).ifNext [.keyword "break", .keyword "continue"]
        ((now .throwStmt (by decide) (by decide)).ifNext [.keyword "throw"]
          ((now .tryStmt (by decide) (by decide)).ifNext [.keyword "try"]
            ((now .varDeclStmt (by decide) (by decide)).ifNext
              (.keyword "final" :: First.primitiveType)
              ((now .block (by decide) (by decide)).ifNext [.mark "\x7b"]
                (semicolon.ifNext [.mark ";"] tried rfl (by decide) (by decide))
                rfl (by decide) (by decide))
              rfl (by decide) (by decide))
            rfl (by decide) (by decide))
          rfl (by decide) (by decide))
        rfl (by decide) (by decide))
      rfl (by decide) (by decide)
  refine exact.ofForm fun derived => ?_
  rcases derives_alt.mp derived with declaration | other
  · exact (derives_declarationBy declaration).mono 16 (by decide)
  · exact other.mono 32 (by decide)

/-- The choice between all statements, for the conditionals and loops of these forms. -/
theorem exact_stmtWith (rules : RulesExact stream Rule.stmt.rank length) {ifs whiles fors : Form}
    {goesOn : Terminals} (ofIf : ExactOn stream length (.rule .ifStmt) ifs goesOn)
    (ofWhile : ExactOn stream length (.rule .whileStmt) whiles goesOn)
    (ofFor : ExactOn stream length (.rule .forStmt) fors goesOn)
    (filledIf : ifs.nullable = false) (filledWhile : whiles.nullable = false)
    (filledFor : fors.nullable = false) (inside : Rule.tryStmt.goesOn.within goesOn = true) :
    ExactOn stream length Rule.stmt.body
      (.alt (.guarded [.keyword "if"] ifs)
        (.alt (.guarded [.keyword "while"] whiles)
          (.alt (.guarded [.keyword "for"] fors) Form.plainStmt)))
      goesOn := by
  have plain := (exact_plainStmt rules).weaken (Nat.le_refl _) inside
  have afterFor := ofFor.ifNext [.keyword "for"] plain filledFor (by decide)
    fun nullable => absurd nullable (by decide)
  have afterWhile := ofWhile.ifNext [.keyword "while"] afterFor filledWhile
    (by simp only [Form.first]; decide) fun nullable => ?_
  · refine ofIf.ifNext [.keyword "if"] afterWhile filledIf (by simp only [Form.first]; decide)
      fun nullable => ?_
    simp [Form.nullable, filledWhile, filledFor] at nullable
    exact absurd nullable (by decide)
  · simp [Form.nullable, filledFor] at nullable
    exact absurd nullable (by decide)

theorem Rule.exact_stmt (rules : RulesExact stream Rule.stmt.rank length) :
    Rule.stmt.ExactOn stream length := by
  refine (exact_stmtWith rules (rules.atOnce .ifStmt (by decide) (Nat.le_refl _))
    (rules.atOnce .whileStmt (by decide) (Nat.le_refl _))
    (rules.atOnce .forStmt (by decide) (Nat.le_refl _)) rfl rfl rfl (by decide)).ofForm ?_
  intro own word outline derived
  obtain ⟨rfl, isWord⟩ := derived.isWord rfl
  rcases isWord_stmt.mp isWord with isPlain | isWhile | isFor | isIf
  · exact .right (.right (.right isPlain))
  · exact isWhile.mono 16 (by decide)
  · exact isFor.mono 16 (by decide)
  · exact isIf.mono 16 (by decide)

/-! ## Conditionals -/

/-- A statement is read as the loop or conditional that its keyword announces. -/
theorem accepts_stmt_of_keyword (word : String) (rule : Rule)
    (listed : (word, rule) ∈ [("if", Rule.ifStmt), ("while", .whileStmt), ("for", .forStmt)])
    {start stop : Nat} {outline : Outline}
    (next : (Terminal.keyword word).admits (stream.get start) = true)
    (read : Accepts stream own (.rule rule) start stop outline) :
    Accepts stream own (.rule .stmt) start stop outline := by
  have ahead : ∀ {other : String}, stream.startsWith [[.keyword other]] start =
      decide (other = word) := by
    intro other
    rw [startsWith_singleton, Terminals.allow_singleton]
    rw [Terminal.keyword, Terminal.admits_spelled] at next
    rw [Bool.eq_iff_iff, Terminal.keyword, Terminal.admits_spelled, next.2.2, decide_eq_true_eq]
    exact ⟨fun same => same.2.2.symm, fun same => ⟨next.1, next.2.1, same.symm⟩⟩
  simp only [List.mem_cons, Prod.mk.injEq, List.not_mem_nil, or_false] at listed
  refine accepts_rule.mpr (accepts_ifNext.mpr ?_)
  rcases listed with ⟨rfl, rfl⟩ | ⟨rfl, rfl⟩ | ⟨rfl, rfl⟩
  · rw [ahead]
    exact read
  · rw [ahead]
    refine accepts_ifNext.mpr ?_
    rw [ahead]
    exact read
  · rw [ahead]
    refine accepts_ifNext.mpr ?_
    rw [ahead]
    refine accepts_ifNext.mpr ?_
    rw [ahead]
    exact read

/-- The first token of a word of several forms. -/
theorem admits_head {choices : Terminals} {forms : List Form} {start stop : Nat}
    {header : List Token} (isHeader : IsWord own (.all (.token choices :: forms)) header)
    (some : forms ≠ []) (spells : Spells stream start header stop) :
    choices.allow (stream.get start) = true := by
  cases forms with
  | nil => exact absurd rfl some
  | cons form forms =>
      obtain ⟨first, rest, isFirst, -, rfl⟩ := isWord_seq.mp isHeader
      obtain ⟨head, allowed, rfl⟩ := isWord_token.mp isFirst
      rw [spells.1]
      exact allowed

theorem exact_condition {bound : Nat} (rules : RulesExact stream bound length) (word : String)
    {less : Nat} (fewer : less < length) :
    ExactOn stream less (.all (Phrase.condition word)) (.all (Form.condition word)) [] :=
  rules.decidedLater (.all (Phrase.condition word)) rfl fewer

/-- A sealed statement is read up to its end even if an `else` comes next. -/
theorem accepts_of_sealed {bound : Nat} (rules : RulesExact stream bound length)
    {word : List Token} (closed : Sealed own word) {start stop : Nat}
    (short : word.length < length) (spells : Spells stream start word stop)
    (ended : Rule.tryStmt.goesOn.allow (stream.get stop) = false) :
    Accepts stream own (.rule .stmt) start stop .empty := by
  induction closed generalizing start stop with
  | plain isPlain =>
      -- no conditional and no loop is wanted here
      have none : ∀ (less : Nat) (rule : Rule),
          ExactOn stream less (.rule rule) .never Rule.tryStmt.goesOn :=
        fun _ _ _ _ _ _ _ _ derived => absurd derived not_derives_never
      exact accepts_rule.mpr (exact_stmtWith (rules.less short _) (none _ _) (none _ _) (none _ _)
        rfl rfl rfl (by decide) (Nat.le_refl _) (.right (.right (.right isPlain))) spells ended)
  | whileLoop isHeader _ ih =>
      obtain ⟨middle, spellsHeader, spellsBody⟩ := spells_append.mp spells
      rw [List.length_append] at short
      have readHeader := exact_condition rules "while" (by omega) (Nat.le_refl _) isHeader
        spellsHeader rfl
      have readBody := ih (by omega) spellsBody ended
      refine accepts_stmt_of_keyword "while" .whileStmt (by decide) ?_ (accepts_rule.mpr
        (accepts_all_concat (List.cons_ne_nil _ _) readHeader readBody))
      simpa using admits_head isHeader (List.cons_ne_nil _ _) spellsHeader
  | forLoop isHeader _ ih =>
      obtain ⟨middle, spellsHeader, spellsBody⟩ := spells_append.mp spells
      rw [List.length_append] at short
      have readHeader := exact_forHeader rules (by omega) isHeader spellsHeader rfl
      have readBody := ih (by omega) spellsBody ended
      refine accepts_stmt_of_keyword "for" .forStmt (by decide) ?_ (accepts_rule.mpr
        (accepts_all_concat (List.cons_ne_nil _ _) readHeader readBody))
      simpa using admits_head isHeader (List.cons_ne_nil _ _) spellsHeader
  | ifElse isHeader _ isMark _ ihBody ihOther =>
      obtain ⟨middle, spellsHeader, spellsRest⟩ := spells_append.mp spells
      obtain ⟨place, spellsBody, spellsElse⟩ := spells_append.mp spellsRest
      obtain ⟨mark, isElse, rfl⟩ := isWord_token.mp isMark
      obtain ⟨rfl, spellsOther⟩ := spellsElse
      simp only [List.length_append, List.length_singleton] at short
      have readHeader := exact_condition rules "if" (by omega) (Nat.le_refl _) isHeader
        spellsHeader rfl
      have readBody := ihBody (by omega) spellsBody
        (Terminals.not_allow_of_apart (by decide) isElse)
      have readOther := ihOther (by omega) spellsOther ended
      have readElse : Accepts stream own (Phrase.ifToken (.keyword "else") (.rule .stmt) .done)
          place stop .empty := by
        refine accepts_ifNext.mpr ?_
        rw [startsWith_singleton, if_pos isElse]
        exact Accepts.seq (accepts_expect.mpr ⟨isElse, rfl, rfl⟩) readOther
      refine accepts_stmt_of_keyword "if" .ifStmt (by decide) ?_ (accepts_rule.mpr
        (accepts_all_concat (List.cons_ne_nil _ _) readHeader (readBody.seq readElse)))
      simpa using admits_head isHeader (List.cons_ne_nil _ _) spellsHeader

/-- A conditional is read up to its end, however its parts can be taken. -/
theorem Rule.exact_ifStmt (rules : RulesExact stream Rule.ifStmt.rank length) :
    Rule.ifStmt.ExactOn stream length := by
  intro own start stop word outline short derived spells ended
  obtain ⟨rfl, isWord⟩ := derived.isWord rfl
  obtain ⟨header, body, branch, isHeader, isBody, isBranch, rfl⟩ := isWord_ifStmt.mp isWord
  obtain ⟨middle, spellsHeader, spellsRest⟩ := spells_append.mp spells
  have := header_filled isHeader rfl
  have := List.length_pos_iff.mpr (Derives.ne_nil isBody rfl)
  simp only [List.length_append] at short
  have readHeader := exact_condition rules "if" (by omega) (Nat.le_refl _) isHeader
    spellsHeader rfl
  -- a statement that ends the conditional is read as its only branch
  have alone : ∀ {only : List Token}, only.length < length → IsWord own (.symbol .stmt) only →
      Spells stream middle only stop →
        Accepts stream own Rule.ifStmt.body start stop .empty := by
    intro only fewer isOnly spellsOnly
    have readOnly := rules.later .stmt fewer (Nat.le_refl _) isOnly spellsOnly ended
    refine accepts_all_concat (List.cons_ne_nil _ _) readHeader (readOnly.seq
      (accepts_ifNext.mpr ?_ : Accepts _ _ (Phrase.ifToken _ _ _) _ _ .empty))
    rw [startsWith_singleton, Terminals.not_allow_of_within (by decide) ended,
      if_neg (by decide)]
    exact accepts_done.mpr ⟨rfl, rfl⟩
  rcases isWord_optional.mp isBranch with isElse | rfl
  · rcases sealed_or_absorbs isBody with closed | absorbs
    · obtain ⟨place, spellsBody, spellsElse⟩ := spells_append.mp spellsRest
      obtain ⟨mark, other, isMark, isOther, rfl⟩ := isWord_seq.mp isElse
      obtain ⟨mark, allowed, rfl⟩ := isWord_token.mp isMark
      obtain ⟨rfl, spellsOther⟩ := spellsElse
      simp only [List.length_append, List.length_singleton] at short
      have readBody := accepts_of_sealed rules closed (by omega) spellsBody
        (Terminals.not_allow_of_apart (by decide) allowed)
      have readOther := rules.later .stmt (show other.length < length by omega) (Nat.le_refl _)
        isOther spellsOther ended
      have readElse : Accepts stream own (Phrase.ifToken (.keyword "else") (.rule .stmt) .done)
          place stop .empty := by
        refine accepts_ifNext.mpr ?_
        rw [startsWith_singleton, if_pos allowed]
        exact Accepts.seq (accepts_expect.mpr ⟨allowed, rfl, rfl⟩) readOther
      exact accepts_all_concat (List.cons_ne_nil _ _) readHeader (readBody.seq readElse)
    · exact alone (by rw [List.length_append]; omega) (absorbs branch isElse) spellsRest
  · rw [List.append_nil] at spellsRest
    exact alone (by omega) isBody spellsRest

end ClassSyntax

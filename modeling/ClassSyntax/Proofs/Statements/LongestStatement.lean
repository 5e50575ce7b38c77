import ClassSyntax.Proofs.Frontier.FurthestFailure
import ClassSyntax.Proofs.Language.CalledPrimitives
import ClassSyntax.Proofs.Locality.LocalRules

/-!
# No longer statement is left over

Where a statement is read, no longer word at the same place is a statement. A longer word would be read to its
end if nothing came after it; but a reading depends on one token behind its end, or on two at a point, and so
it ends where it ended before.

* `Derives.closed`: statements end with a semicolon or a brace.
* `Accepts.not_longer`: no longer word of the language is a statement.
* `Accepts.not_longer_free`, `Accepts.longest`: nor is one in which a primitive type is called.
-/

namespace ClassSyntax

/-! ## How statements end -/

/-- The tokens with which statements end. -/
def closers : Terminals := [.mark ";", .mark "\x7d"]

/-- All words of this nonterminal end with such a token. -/
def Nonterminal.closed : Nonterminal → Bool
  | block | stmt | ifStmt | whileStmt | forStmt | returnStmt | jumpStmt | throwStmt | tryStmt => true
  | _ => false

/-- The words of the form are empty or end with such a token. -/
def Form.closed : Form → Bool
  | empty => true
  | token choices => choices.within closers
  | symbol name => name.closed
  | seq first second => second.closed && (first.closed || !second.nullable)
  | alt left right => left.closed && right.closed
  | many body => body.closed
  | ownName | guarded _ _ | unlike _ _ | inClass _ | countEntry => false

theorem production_closed {name : Nonterminal} (closed : name.closed = true) :
    name.production.closed = true := by
  revert closed
  cases name with
  | binary level => nofun
  | _ => decide

theorem Derives.closed {own : String} {form : Form} {word : List Token} {outline : Outline}
    (derived : Derives Nonterminal.production own form word outline) (closed : form.closed = true)
    {last : Token} (ends : last ∈ word.getLast?) : closers.allow last = true := by
  induction derived with
  | empty | manyNone => exact nomatch ends
  | token allowed =>
      obtain rfl := Option.some.inj ends
      exact Terminals.allow_of_within closed allowed
  | symbol _ ih => exact ih (production_closed closed) ends
  | @seq _ _ _ left right _ _ _ second ihFirst ihSecond =>
      obtain ⟨isClosed, before⟩ := Bool.and_eq_true_iff.mp closed
      cases right with
      | cons head right =>
          rw [List.getLast?_append_of_ne_nil _ (List.cons_ne_nil _ _)] at ends
          exact ihSecond isClosed ends
      | nil =>
          rw [second.nullable, Bool.not_true, Bool.or_false] at before
          rw [List.append_nil] at ends
          exact ihFirst before ends
  | left _ ih => exact ih (Bool.and_eq_true_iff.mp closed).1 ends
  | right _ ih => exact ih (Bool.and_eq_true_iff.mp closed).2 ends
  | @manyMore _ _ left right _ _ _ _ ihFirst ihRest =>
      cases right with
      | cons head right =>
          rw [List.getLast?_append_of_ne_nil _ (List.cons_ne_nil _ _)] at ends
          exact ihRest closed ends
      | nil =>
          rw [List.append_nil] at ends
          exact ihFirst closed ends
  | ownName | guarded | unlike | inClass | countEntry => exact Bool.noConfusion closed

/-! ## Longer statements -/

section

variable {stream : TokenStream} {own : String} {start stop : Nat} {outline : Outline}

theorem Spells.drop {word : List Token} {count : Nat}
    (spells : Spells stream (count + start) word (count + stop)) :
    Spells (stream.drop count) start word stop := by
  induction word generalizing start with
  | nil => exact Nat.add_left_cancel spells
  | cons token word ih => exact ⟨(stream.get_drop count start).trans spells.1, ih spells.2⟩

/-- A word by itself is read up to its end. -/
theorem accepts_alone {rule : Rule} {word : List Token}
    (derived : Derives Nonterminal.production own rule.wanted word outline) :
    Accepts (TokenStream.ofTokens word) own (.rule rule) 0 (TokenStream.ofTokens word).size outline :=
  accepts_of_derives derived (spells_ofTokens derived.isEnd_eq_false)
    (TokenStream.not_allow_size _ _)

/-- A statement does not end with a point. -/
theorem not_point_of_closes {token : Token} (closes : closers.allow token = true) :
    token.is .punctuation "." = false := by
  have apart : closers.apart [.mark "."] = true := by decide
  have other := Terminals.not_allow_of_apart apart closes
  have unended := Terminals.isEnd_of_allow closes
  rw [Terminals.allow_singleton, Terminal.mark, Terminal.admits, unended] at other
  exact other

/-- Where a point stands, the word that goes on behind it goes on with the next token of the stream. -/
def GoesOnAt (stream : TokenStream) (place : Nat) (rest : List Token) : Prop :=
  (stream.get place).is .punctuation "." = true → ∀ next ∈ rest.head?, next = stream.get (place + 1)

/-- A longer statement agrees with the stream as far as the reading of the shorter one looks. -/
theorem agreesTo_longer {front rest : List Token} (spells : Spells stream start front stop)
    (goesOn : GoesOnAt stream stop rest)
    (isStmt : IsWord own (.symbol .stmt) (front ++ stream.get stop :: rest)) :
    AgreesTo (stream.drop start) (TokenStream.ofTokens (front ++ stream.get stop :: rest))
      front.length := by
  obtain rfl := spells.stop_eq
  have all := spells_ofTokens isStmt.isEnd_eq_false
  generalize TokenStream.ofTokens (front ++ stream.get (start + front.length) :: rest) = other at all
  rw [List.append_cons] at all
  obtain ⟨middle, begun, behind⟩ := spells_append.mp all
  obtain rfl := begun.stop_eq
  rw [List.length_append, List.length_singleton, Nat.zero_add] at begun behind
  have same : Spells (stream.drop start) 0 (front ++ [stream.get (start + front.length)])
      (front.length + 1) := Spells.drop (spells.append spells_next)
  refine ⟨fun place inside => ?_, fun point => ?_⟩
  · rw [same.agree begun (Nat.zero_le _) (Nat.lt_succ_of_le inside)]
    exact ⟨rfl, rfl⟩
  · rw [TokenStream.get_drop] at point ⊢
    cases rest with
    | nil =>
        -- no statement ends with a point
        have closes := Derives.closed isStmt rfl (List.getLast?_concat (l := front))
        exact absurd point (Bool.eq_false_iff.mp (not_point_of_closes closes))
    | cons next rest =>
        rw [behind.1, goesOn point next rfl]
        exact ⟨rfl, rfl⟩

/-- Where a statement is read, no longer word of the language is a statement. -/
theorem Accepts.not_longer (accepted : Accepts stream own (.rule .stmt) start stop outline)
    {front rest : List Token} (spells : Spells stream start front stop)
    (goesOn : GoesOnAt stream stop rest) :
    ¬ IsWord own (.symbol .stmt) (front ++ stream.get stop :: rest) := by
  intro isStmt
  have agrees := agreesTo_longer spells goesOn isStmt
  have longer : Accepts _ own (.rule .stmt) 0 _ .empty := accepts_alone isStmt
  obtain rfl := spells.stop_eq
  obtain ⟨log, read, confined⟩ := accepted.confined_drop
  obtain ⟨_, reread, ⟨_⟩⟩ := read.alike_on_other rfl agrees confined
  have ends := (Accepts.unique ⟨_, reread⟩ longer).1
  have size := (spells_ofTokens isStmt.isEnd_eq_false).stop_eq
  rw [List.length_append, List.length_cons] at size
  omega

/-- Nor is one in which a primitive type is called. -/
theorem Accepts.not_longer_free (accepted : Accepts stream own (.rule .stmt) start stop outline)
    {front rest : List Token} (spells : Spells stream start front stop)
    (goesOn : GoesOnAt stream stop rest) :
    ¬ IsFreeWord own (.symbol .stmt) (front ++ stream.get stop :: rest) := by
  rintro ⟨_, derived⟩
  obtain ⟨word, again, read⟩ := accepted.derives rfl
  obtain rfl := spells.unique again
  have firm := read.firm (.inl rfl)
  obtain ⟨other, retyped, isStmt⟩ := derived.retyped rfl
  obtain ⟨later, rfl, changed⟩ := retyped.behind firm
  obtain ⟨behind, rfl⟩ := List.head?_eq_some_iff.mp changed.head?_eq
  refine accepted.not_longer spells (fun point next isNext => ?_) isStmt
  -- a point is no `new`, and so the token behind it stays as well
  have single : Firm [stream.get stop] := .single (Bool.eq_false_iff.mpr fun isNew => by
    rw [Terminal.keyword, Terminal.admits_spelled] at isNew
    simp [Token.is, isNew] at point)
  rw [← List.singleton_append] at changed
  obtain ⟨_, same, changed⟩ := changed.behind single
  obtain ⟨-, rfl⟩ := List.cons.inj same
  exact goesOn point next (changed.head?_eq ▸ isNext)

/-- No statement is longer than the one that is read. -/
theorem Accepts.longest (accepted : Accepts stream own (.rule .stmt) start stop outline)
    {word : List Token} {place : Nat} (spells : Spells stream start word place)
    (isStmt : IsFreeWord own (.symbol .stmt) word) : place ≤ stop := by
  refine Nat.le_of_not_lt fun longer => ?_
  obtain ⟨front, begun, -⟩ := accepted.derives rfl
  obtain ⟨rest, rfl, behind⟩ := begun.split spells longer
  refine accepted.not_longer_free begun (fun _ next isNext => ?_) isStmt
  obtain ⟨_, rfl⟩ := List.head?_eq_some_iff.mp isNext
  exact behind.1.symm

end

end ClassSyntax

import ClassSyntax.Proofs.Language.Form

/-!
# Words in a stream

`Spells stream start word stop`: the tokens of a stream from `start` up to `stop` are this word.

* `spells_append`: two words follow each other.
* `Spells.startsWith`: a stream starts as the word does that it spells.
-/

namespace ClassSyntax

/-- The tokens from `start` on are those of the word, and `stop` is the position behind them. -/
def Spells (stream : TokenStream) : Nat → List Token → Nat → Prop
  | start, [], stop => stop = start
  | start, token :: word, stop => stream.get start = token ∧ Spells stream (start + 1) word stop

section

variable {stream : TokenStream} {start stop : Nat} {word : List Token}

@[simp] theorem spells_nil : Spells stream start [] stop ↔ stop = start := Iff.rfl

@[simp] theorem spells_cons {token : Token} :
    Spells stream start (token :: word) stop ↔
      stream.get start = token ∧ Spells stream (start + 1) word stop := Iff.rfl

theorem spells_next : Spells stream start [stream.get start] (start + 1) := ⟨rfl, rfl⟩

theorem spells_append {left right : List Token} :
    Spells stream start (left ++ right) stop ↔
      ∃ middle, Spells stream start left middle ∧ Spells stream middle right stop := by
  induction left generalizing start with
  | nil => simp
  | cons token left ih => simp only [List.cons_append, spells_cons, ih, exists_and_left, and_assoc]

theorem spells_of_get (same : ∀ place (inside : place < word.length),
    stream.get (start + place) = word[place]) :
    Spells stream start word (start + word.length) := by
  induction word generalizing start with
  | nil => rfl
  | cons token word ih =>
      refine ⟨same 0 (Nat.succ_pos _), ?_⟩
      rw [List.length_cons, Nat.add_comm word.length, ← Nat.add_assoc]
      refine ih fun place inside => ?_
      rw [Nat.add_assoc, Nat.add_comm 1]
      exact same (place + 1) (Nat.succ_lt_succ inside)

/-- The body of a stream is all of it. -/
theorem spells_body (stream : TokenStream) : Spells stream 0 stream.body.toList stream.size := by
  have whole : Spells stream 0 stream.body.toList (0 + stream.body.toList.length) := by
    refine spells_of_get fun place inside => ?_
    rw [Array.length_toList] at inside
    rw [Nat.zero_add, TokenStream.get, Array.getElem?_eq_getElem inside]
    rfl
  rwa [Nat.zero_add, Array.length_toList] at whole

/-- So is the list of tokens that it was made of, unless there are ends of the input among them. -/
theorem spells_ofTokens (unended : ∀ token ∈ word, token.isEnd = false) :
    Spells (TokenStream.ofTokens word) 0 word (TokenStream.ofTokens word).size := by
  have body : (TokenStream.ofTokens word).body.toList = word :=
    List.filter_eq_self.mpr fun token inside => by rw [unended token inside]; rfl
  have whole := spells_body (TokenStream.ofTokens word)
  rwa [body] at whole

namespace Spells

theorem stop_eq (spells : Spells stream start word stop) : stop = start + word.length := by
  induction word generalizing start with
  | nil => simpa using spells
  | cons token word ih =>
      have := ih spells.2
      simp only [List.length_cons]
      omega

theorem append {left right : List Token} {middle : Nat} (first : Spells stream start left middle)
    (second : Spells stream middle right stop) : Spells stream start (left ++ right) stop :=
  spells_append.mpr ⟨middle, first, second⟩

/-- From one position to another there is one word only. -/
theorem unique {other : List Token} (left : Spells stream start word stop)
    (right : Spells stream start other stop) : word = other := by
  have lengths : word.length = other.length := by
    have := left.stop_eq
    have := right.stop_eq
    omega
  induction word generalizing start other with
  | nil => exact (List.length_eq_zero_iff.mp lengths.symm).symm
  | cons token word ih =>
      cases other with
      | nil => simp at lengths
      | cons another other =>
          rw [← left.1, ← right.1, ih left.2 right.2 (by simpa using lengths)]

/-- A word that ends earlier is the start of the other one, and the next token stands behind it. -/
theorem split {whole : List Token} {place : Nat} (first : Spells stream start word place)
    (all : Spells stream start whole stop) (before : place < stop) :
    ∃ after, whole = word ++ stream.get place :: after ∧ Spells stream (place + 1) after stop := by
  have fits := first.stop_eq
  have longer := all.stop_eq
  rw [← List.take_append_drop word.length whole] at all ⊢
  obtain ⟨middle, left, right⟩ := spells_append.mp all
  have middleEq := left.stop_eq
  rw [List.length_take] at middleEq
  obtain rfl : middle = place := by omega
  rw [left.unique first]
  cases rest : whole.drop word.length with
  | nil =>
      have := List.drop_eq_nil_iff.mp rest
      omega
  | cons token after =>
      rw [rest] at right
      exact ⟨after, by rw [right.1], right.2⟩

theorem exists_last (spells : Spells stream start word stop) (longer : start < stop) :
    ∃ last ∈ word.getLast?, last = stream.get (stop - 1) := by
  rcases List.eq_nil_or_concat word with rfl | ⟨front, last, rfl⟩
  · exact absurd spells.symm (Nat.ne_of_lt longer)
  · rw [List.concat_eq_append] at spells ⊢
    obtain ⟨middle, -, isLast, rfl⟩ := spells_append.mp spells
    exact ⟨last, by simp, isLast.symm⟩

theorem startsWith {header : List Terminals} (spells : Spells stream start word stop)
    (like : startsLike header word = true) : stream.startsWith header start = true := by
  induction header generalizing start word with
  | nil => rfl
  | cons choices more ih =>
      cases word with
      | nil => exact Bool.noConfusion like
      | cons token word =>
          simp only [startsLike, Bool.and_eq_true] at like
          rw [TokenStream.startsWith, spells.1, like.1, ih spells.2 like.2]
          rfl

theorem opensWith {choices : Terminals} (spells : Spells stream start word stop)
    (allowed : choices.allow (stream.get start) = true) : opensWith choices word = true := by
  cases word with
  | nil => rfl
  | cons token word => rwa [spells.1] at allowed

end Spells

/-- The tokens in front of a position are its first ones. -/
theorem spells_front (inside : start ≤ stream.size) :
    Spells stream 0 (stream.body.toList.take start) start := by
  have whole := spells_body stream
  rw [← List.take_append_drop start stream.body.toList] at whole
  obtain ⟨middle, front, -⟩ := spells_append.mp whole
  obtain rfl : middle = start := by
    rw [front.stop_eq, List.length_take, Array.length_toList, Nat.zero_add]
    exact Nat.min_eq_left inside
  exact front

theorem startsWith_singleton {choices : Terminals} :
    stream.startsWith [choices] start = choices.allow (stream.get start) := by
  simp [TokenStream.startsWith]

end

end ClassSyntax

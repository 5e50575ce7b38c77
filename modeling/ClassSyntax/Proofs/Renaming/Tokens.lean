import Mathlib.Data.List.Forall2
import ClassSyntax.Proofs.Language.Starts

/-!
# Renamed tokens

Two tokens that differ in nothing that a grammar may look at: identifiers are renamed, keywords,
operators and marks are the same, and of all other tokens, and of all lines, nothing is asked. A blind
terminal cannot tell such tokens apart.

* `Token.Renamed.admits`: a blind terminal admits both tokens or none.
* `TokenStream.renamed_ofTokens`: renamed token lists make renamed streams.
* `Token.opposite_get`: what stands at one place of the two streams stands at one place of the lists.
-/

namespace ClassSyntax

/-- The other token has the same kind, and a lexeme that is the same where it decides how to read, and
is renamed where it is a name. -/
structure Token.Renamed (rename : String → String) (token other : Token) : Prop where
  kind : other.kind = token.kind
  fixed : token.kind ∈ [.keyword, .operator, .punctuation] → other.lexeme = token.lexeme
  name : token.kind = .identifier → other.lexeme = rename token.lexeme

/-- The names that the grammar knows. -/
def knownNames : List String := ["main", "String"]

/-- A renaming of identifiers: no two become the same, and the known names stay. -/
structure Renaming (rename : String → String) : Prop where
  injective : Function.Injective rename
  known : ∀ name ∈ knownNames, rename name = name

namespace Terminal

/-- The terminal asks for a lexeme only where the lexeme is no name, or a known one. -/
def blind : Terminal → Bool
  | spelled kind lexeme =>
      [.keyword, .operator, .punctuation].contains kind ||
        kind == .identifier && knownNames.contains lexeme
  | category _ | anything => true

end Terminal

namespace Token.Renamed

variable {rename : String → String} {token other : Token}

theorem isEnd (renamed : token.Renamed rename other) : other.isEnd = token.isEnd := by
  rw [Token.isEnd, renamed.kind, Token.isEnd]

/-- A name is renamed to another exactly when the tokens are so spelled. -/
theorem admits_named (faithful : Renaming rename) (renamed : token.Renamed rename other)
    (name : String) :
    (Terminal.named (rename name)).admits other = (Terminal.named name).admits token := by
  unfold Terminal.named
  rw [Terminal.admits, Terminal.admits, renamed.isEnd]
  refine congrArg _ ?_
  dsimp only [Token.is]
  rw [renamed.kind]
  by_cases named : token.kind = .identifier
  · rw [renamed.name named, Bool.eq_iff_iff]
    simp only [Bool.and_eq_true, beq_iff_eq]
    exact and_congr_right fun _ => ⟨@faithful.injective _ _, congrArg rename⟩
  · rw [beq_eq_false_iff_ne.mpr named, Bool.false_and, Bool.false_and]

/-- A blind terminal does not tell a token from the renamed one. -/
theorem admits (faithful : Renaming rename) (renamed : token.Renamed rename other)
    {terminal : Terminal} (blind : terminal.blind = true) :
    terminal.admits other = terminal.admits token := by
  cases terminal with
  | category kind => rw [Terminal.admits, Terminal.admits, renamed.isEnd, renamed.kind]
  | anything => rw [Terminal.admits, Terminal.admits, renamed.isEnd]
  | spelled kind lexeme =>
      simp only [Terminal.blind, Bool.or_eq_true, Bool.and_eq_true, List.contains_iff_mem,
        beq_iff_eq] at blind
      rcases blind with fixed | ⟨rfl, known⟩
      · rw [Terminal.admits, Terminal.admits, renamed.isEnd]
        refine congrArg _ ?_
        dsimp only [Token.is]
        rw [renamed.kind]
        by_cases same : token.kind = kind
        · rw [renamed.fixed (same ▸ fixed)]
        · rw [beq_eq_false_iff_ne.mpr same, Bool.false_and, Bool.false_and]
      · have same := admits_named faithful renamed lexeme
        rwa [faithful.known lexeme known] at same

theorem allow (faithful : Renaming rename) (renamed : token.Renamed rename other)
    {choices : Terminals} (blind : choices.all Terminal.blind = true) :
    choices.allow other = choices.allow token := by
  rw [Bool.eq_iff_iff, Terminals.allow_iff, Terminals.allow_iff]
  rw [List.all_eq_true] at blind
  refine exists_congr fun terminal => and_congr_right fun listed => ?_
  rw [admits faithful renamed (blind terminal listed)]

/-- The renamed name of a class. -/
theorem name_of_admits (renamed : token.Renamed rename other)
    (named : Terminal.identifier.admits token = true) : other.lexeme = rename token.lexeme := by
  simp only [Terminal.identifier, Terminal.admits, Bool.and_eq_true, beq_iff_eq] at named
  exact renamed.name named.2

end Token.Renamed

/-! ## Streams -/

/-- At every place the other stream has the renamed token. -/
def TokenStream.Renamed (rename : String → String) (stream other : TokenStream) : Prop :=
  ∀ place, (stream.get place).Renamed rename (other.get place)

theorem TokenStream.Renamed.startsWith {rename : String → String} {stream other : TokenStream}
    (faithful : Renaming rename) (renamed : stream.Renamed rename other) {ahead : List Terminals}
    (blind : (ahead.all fun choices => choices.all Terminal.blind) = true) (start : Nat) :
    other.startsWith ahead start = stream.startsWith ahead start := by
  induction ahead generalizing start with
  | nil => rfl
  | cons choices more ih =>
      rw [List.all_cons, Bool.and_eq_true] at blind
      rw [TokenStream.startsWith, TokenStream.startsWith, ih blind.2,
        (renamed start).allow faithful blind.1]

/-- The two tokens stand at the same place of the two lists, or each closes its list. -/
def Token.Opposite (tokens others : List Token) (token other : Token) : Prop :=
  (token, other) ∈ tokens.zip others ∨
    token = .endOfInput (Record.lastLine tokens) ∧ other = .endOfInput (Record.lastLine others)

section

variable {tokens others : List Token}

/-- Lists of tokens of the same kinds lose their ends of the input at the same places. -/
theorem forall₂_body {Alike : Token → Token → Prop} (alike : List.Forall₂ Alike tokens others)
    (kinds : ∀ token other, Alike token other → other.isEnd = token.isEnd) :
    List.Forall₂ Alike (TokenStream.ofTokens tokens).body.toList
      (TokenStream.ofTokens others).body.toList := by
  show List.Forall₂ Alike (tokens.filter _) (others.filter _)
  induction alike with
  | nil => exact .nil
  | @cons token other _ _ same _ ih =>
      rw [List.filter_cons, List.filter_cons, kinds token other same]
      split
      · exact .cons same ih
      · exact ih

/-- What holds of the tokens of two lists, and of what closes them, holds at every place. -/
theorem get_of_forall₂ {Alike : Token → Token → Prop} (alike : List.Forall₂ Alike tokens others)
    (kinds : ∀ token other, Alike token other → other.isEnd = token.isEnd)
    (closed : Alike (.endOfInput (Record.lastLine tokens)) (.endOfInput (Record.lastLine others)))
    (place : Nat) :
    Alike ((TokenStream.ofTokens tokens).get place) ((TokenStream.ofTokens others).get place) := by
  have body := forall₂_body alike kinds
  unfold TokenStream.get
  rw [← Array.getElem?_toList, ← Array.getElem?_toList]
  have size := body.length_eq
  by_cases inside : place < (TokenStream.ofTokens tokens).body.toList.length
  · rw [List.getElem?_eq_getElem inside, List.getElem?_eq_getElem (size ▸ inside)]
    exact body.get inside (size ▸ inside)
  · have beyond := Nat.le_of_not_lt inside
    rw [List.getElem?_eq_none beyond, List.getElem?_eq_none (size ▸ beyond)]
    exact closed

theorem TokenStream.renamed_ofTokens {rename : String → String}
    (renamed : List.Forall₂ (Token.Renamed rename) tokens others) :
    (ofTokens tokens).Renamed rename (ofTokens others) :=
  get_of_forall₂ renamed (fun _ _ => Token.Renamed.isEnd) ⟨rfl, nofun, nofun⟩

theorem Token.opposite_get {rename : String → String}
    (renamed : List.Forall₂ (Token.Renamed rename) tokens others) (place : Nat) :
    Token.Opposite tokens others ((TokenStream.ofTokens tokens).get place)
      ((TokenStream.ofTokens others).get place) := by
  obtain ⟨length, paired⟩ := List.forall₂_iff_zip.mp renamed
  let Alike (token other : Token) : Prop :=
    other.isEnd = token.isEnd ∧ Opposite tokens others token other
  have alike : List.Forall₂ Alike tokens others :=
    List.forall₂_iff_zip.mpr ⟨length, fun member => ⟨(paired member).isEnd, .inl member⟩⟩
  exact (get_of_forall₂ alike (fun _ _ same => same.1) ⟨rfl, .inr ⟨rfl, rfl⟩⟩ place).2

end

end ClassSyntax

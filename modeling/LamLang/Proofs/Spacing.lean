import LamLang.Proofs.Lines

/-
  Tokens with spaces between them.

  A token is a source of its own that is cut into this one
  token.  Sources that leave no comment open are read in
  turn when there is a space between each two of them, so
  tokens are found again in the text that puts them side by
  side, whatever stands inside them.

  Key definitions include:
    * `LamLang.Token.Complete`

  Main statements:
    * `LamLang.Token.ofSource_spaced`
    * `LamLang.Token.complete_of_mem`
    * `LamLang.Token.Complete.ofSource_eq`
    * `LamLang.spaced_tokens_found_again`
-/

------------------------------------------------------------
-- Sources With Spaces Between
------------------------------------------------------------

namespace LamLang

namespace Token

open Lexeme (endsInComment)

/- Sources are read in turn if no comment takes up a space. -/
theorem ofSource_spaced
    {sources : List String}
    {tokens : List (List Token)}
    (hTokens : sources.mapM ofSource = .ok tokens)
    (hComment :
      ∀ source ∈ sources, endsInComment source = false) :
    ofSource (" ".intercalate sources) =
      .ok tokens.flatten := by
  have hSources := exists_ofSource_of_mapM hTokens
  rw [ofSource_eq_ok_iff_outline,
    Lexeme.outline_intercalate_blank rfl Text.isBlank_space
      hSources]
  · exact ofLexemes_outlines hTokens
  · intro source hMem hEnds
    rw [hComment source hMem] at hEnds
    cases hEnds

end Token

end LamLang

------------------------------------------------------------
-- Complete Tokens
------------------------------------------------------------

namespace LamLang

namespace Token

open Lexeme (scan mark endsInComment outline gist)

/-
  The texts that are tokens: a parenthesis, a text between
  two marks with none inside, and an atom.
-/
inductive Complete : Token → Prop
| lparen : Complete lparen
| rparen : Complete rparen
| text
    {content : List Char}
    (hContent : mark ∉ content) :
    Complete (String.ofList (mark :: content ++ [mark]))
| atom
    {content : List Char}
    (hAtom : Lexeme.IsAtom content) :
    Complete (String.ofList content)

/- The tokens of a source are complete. -/
theorem complete_of_mem
    {source : String}
    {tokens : List Token}
    (hTokens : ofSource source = .ok tokens)
    {token : Token}
    (hMem : token ∈ tokens) :
    token.Complete := by
  rcases exists_lexeme_of_mem hTokens hMem with
    ⟨lexeme, hLexeme, hToken⟩
  have hValid := Lexeme.scan_valid source.toList _ hLexeme
  cases lexeme with
  | blank c => cases hToken
  | lparen =>
      cases hToken
      exact .lparen
  | rparen =>
      cases hToken
      exact .rparen
  | text content =>
      cases hToken
      exact .text hValid
  | unclosed content => cases hToken
  | comment content => cases hToken
  | atom content =>
      cases hToken
      exact .atom hValid

namespace Complete

variable {token : Token}

/- A complete token is all that it is cut into. -/
theorem exists_lexeme
    (hToken : token.Complete) :
    ∃ lexeme,
      scan token.toList = [lexeme] ∧
        ofLexeme? lexeme = .ok (some token) := by
  have hNothing : Lexeme.Delimits [] := by
    intro c hHead
    cases hHead
  cases hToken with
  | lparen => exact ⟨.lparen, rfl, rfl⟩
  | rparen => exact ⟨.rparen, rfl, rfl⟩
  | @text content hContent =>
      refine ⟨.text content, ?_, rfl⟩
      rw [String.toList_ofList]
      exact Lexeme.scan_text hContent []
  | @atom content hAtom =>
      refine ⟨.atom content, ?_, rfl⟩
      have hScan := Lexeme.scan_atom hAtom hNothing
      rw [String.toList_ofList]
      rwa [List.append_nil] at hScan

theorem ofSource_eq
    (hToken : token.Complete) :
    ofSource token = .ok [token] := by
  rcases hToken.exists_lexeme with ⟨lexeme, hScan, hLexeme⟩
  rw [ofSource, hScan, ofLexemes_cons hLexeme]
  rfl

/- A token leaves no comment open behind it. -/
theorem endsInComment_eq
    (hToken : token.Complete) :
    endsInComment token = false := by
  rcases hToken.exists_lexeme with ⟨lexeme, hScan, hLexeme⟩
  unfold endsInComment outline
  rw [hScan]
  cases lexeme with
  | comment content => cases hLexeme
  | _ => simp [gist]

end Complete

/- Complete tokens are found again between spaces. -/
theorem ofSource_intercalate
    {tokens : List Token}
    (hTokens : ∀ token ∈ tokens, token.Complete) :
    ofSource (" ".intercalate tokens) = .ok tokens := by
  have hEach :
      tokens.mapM ofSource =
        .ok (tokens.map fun token => [token]) := by
    induction tokens with
    | nil => rfl
    | cons token tokens ih =>
        have hLater :=
          ih fun other hMem => hTokens other (by simp [hMem])
        rw [List.mapM_cons,
          (hTokens token (by simp)).ofSource_eq, hLater]
        rfl
  have hSpaced :=
    ofSource_spaced hEach fun token hMem =>
      (hTokens token hMem).endsInComment_eq
  rw [hSpaced, ← List.flatMap_def]
  exact congrArg Except.ok (List.flatMap_singleton' tokens)

end Token

end LamLang

------------------------------------------------------------
-- Tokens Found Again
------------------------------------------------------------

namespace LamLang

/-
  The tokens of a source are found again, with the same
  balance, when they are put side by side with spaces.  So
  are all lists of complete tokens, and there are no others
  that a source could have.
-/
theorem spaced_tokens_found_again :
    (∀ source tokens,
      Token.ofSource source = .ok tokens →
        Token.ofSource (" ".intercalate tokens) =
            .ok tokens ∧
          Token.balance (" ".intercalate tokens) =
            Token.balance source) ∧
    (∀ tokens : List Token,
      (∀ token ∈ tokens, token.Complete) →
        Token.ofSource (" ".intercalate tokens) =
          .ok tokens) ∧
    ∀ tokens : List Token,
      (∃ source, Token.ofSource source = .ok tokens) ↔
        ∀ token ∈ tokens, token.Complete := by
  refine ⟨?again, ?complete, ?all⟩
  case again =>
    intro source tokens hTokens
    have hAgain :
        Token.ofSource (" ".intercalate tokens) =
          .ok tokens :=
      Token.ofSource_intercalate fun _ hMem =>
        Token.complete_of_mem hTokens hMem
    refine ⟨hAgain, ?_⟩
    rw [Token.balance_eq_count hAgain,
      Token.balance_eq_count hTokens]
  case complete =>
    intro tokens hTokens
    exact Token.ofSource_intercalate hTokens
  case all =>
    intro tokens
    constructor
    · rintro ⟨source, hTokens⟩ token hMem
      exact Token.complete_of_mem hTokens hMem
    · intro hTokens
      exact ⟨_, Token.ofSource_intercalate hTokens⟩

/-
  Atoms that end in a semicolon or are one, a text with a
  line break and what could start other lexemes inside, and
  a comment.
-/
def Token.crowdedSource : String :=
  "(a;\"x\n(;;)\";; \"(\n;)y"

/- The tokens of this source. -/
def Token.crowded : List Token :=
  ["(", "a;", "\"x\n(;;)\"", ";", ")", "y"]

theorem spaced_tokens_found_again_crowded :
    Token.ofSource Token.crowdedSource =
        .ok Token.crowded ∧
      (∀ token ∈ Token.crowded, token.Complete) ∧
      Token.ofSource "( a; \"x\n(;;)\" ; ) y" =
        .ok Token.crowded ∧
      Token.balance "( a; \"x\n(;;)\" ; ) y" =
        Token.balance Token.crowdedSource := by
  have hTokens :
      Token.ofSource Token.crowdedSource =
        .ok Token.crowded := by
    decide +kernel
  have hSpaced :
      " ".intercalate Token.crowded =
        "( a; \"x\n(;;)\" ; ) y" := by
    decide +kernel
  rcases spaced_tokens_found_again with
    ⟨hAgain, hComplete, hAll⟩
  have hCrowded := (hAll Token.crowded).mp ⟨_, hTokens⟩
  rcases hAgain _ _ hTokens with ⟨-, hBalance⟩
  have hFound := hComplete Token.crowded hCrowded
  rw [hSpaced] at hBalance hFound
  exact ⟨hTokens, hCrowded, hFound, hBalance⟩

end LamLang

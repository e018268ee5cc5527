import LamLang.Proofs.Lines

/-
  Sources one after the other.

  A line break ends the last lexeme of a source, unless that
  is a text left open.  So two sources with a line break
  between them are read in turn: the tokens, the balance and
  the terms of the first are followed by those of the second,
  and whatever goes wrong in the second goes wrong as it does
  alone.

  Main statements:
    * `LamLang.Token.ofLexemes_append`
    * `LamLang.Datum.allOfTokens_append`
    * `LamLang.reading_splits_at_breaks`
-/

------------------------------------------------------------
-- Lexemes And Tokens In Turn
------------------------------------------------------------

namespace LamLang

namespace Token

open Lexeme (scan)

/- Lexemes that are refused later are refused as they are. -/
theorem ofLexemes_append
    {front : List Lexeme}
    {first : List Token}
    (hFront : ofLexemes front = .ok first)
    (back : List Lexeme) :
    ofLexemes (front ++ back) =
      (ofLexemes back).map (first ++ ·) := by
  induction front generalizing first with
  | nil =>
      cases hFront
      cases hBack : ofLexemes back <;>
        simp [hBack, Except.map]
  | cons lexeme front ih =>
      rcases ofLexemes_cons_eq_ok.mp hFront with
        ⟨token?, later, hToken, hLater, rfl⟩
      rw [List.cons_append, ofLexemes_cons hToken, ih hLater]
      cases ofLexemes back <;> simp [Except.map]

/- The lexemes on both sides of a line break. -/
theorem scan_append_break
    {front : String}
    {tokens : List Token}
    (hTokens : ofSource front = .ok tokens)
    (back : String) :
    scan (front ++ "\n" ++ back).toList =
      scan front.toList ++
        .blank '\n' :: scan back.toList := by
  have hBreak : "\n".toList = ['\n'] := rfl
  rw [String.toList_append, String.toList_append, hBreak,
    List.append_assoc, List.singleton_append]
  exact
    Lexeme.scan_append_blank hTokens Text.isBlank_newline
      (fun _ => rfl) back.toList

theorem ofSource_append_break
    {front : String}
    {tokens : List Token}
    (hTokens : ofSource front = .ok tokens)
    (back : String) :
    ofSource (front ++ "\n" ++ back) =
      (ofSource back).map (tokens ++ ·) := by
  have hBreak :
      ofLexemes (.blank '\n' :: scan back.toList) =
        ofSource back := by
    rw [ofLexemes_cons rfl, ← ofSource]
    cases ofSource back <;> rfl
  rw [ofSource, scan_append_break hTokens,
    ofLexemes_append hTokens, hBreak]

theorem balance_append_break
    {front : String}
    {tokens : List Token}
    (hTokens : ofSource front = .ok tokens)
    (back : String) :
    balance (front ++ "\n" ++ back) =
      balance front + balance back := by
  rw [balance_eq_total, scan_append_break hTokens,
    total_append, total_cons, balance_eq_total,
    balance_eq_total]
  simp [weight]

end Token

end LamLang

------------------------------------------------------------
-- Terms In Turn
------------------------------------------------------------

namespace LamLang

namespace Datum

/- Tokens that make up terms leave only these behind. -/
theorem foldlM_shift_of_allOfTokens
    {tokens : List Token}
    {terms : List Datum}
    (hTerms : allOfTokens tokens = .ok terms) :
    tokens.foldlM shift [[]] = .ok [terms.reverse] := by
  rcases bind_eq_ok hTerms with ⟨stack, hShifts, hEnd⟩
  split at hEnd
  · cases hEnd
    rw [List.reverse_reverse]
    exact hShifts
  · cases hEnd

/-
  The tokens behind finished terms are read as they are
  alone, also where they are refused.
-/
theorem allOfTokens_append
    {front : List Token}
    {terms : List Datum}
    (hTerms : allOfTokens front = .ok terms)
    (back : List Token) :
    allOfTokens (front ++ back) =
      (allOfTokens back).map (terms ++ ·) := by
  have hOnto := foldlM_shift_onto terms.reverse [] [] back
  rw [Stack.onto, List.nil_append] at hOnto
  unfold allOfTokens
  rw [List.foldlM_append, foldlM_shift_of_allOfTokens hTerms,
    ok_bind, hOnto]
  cases hBack : back.foldlM shift [[]] with
  | error failure => rfl
  | ok stack =>
      -- Only the outermost list has the earlier terms.
      rcases stack with _ | ⟨items, _ | ⟨outer, rest⟩⟩
      · rfl
      · simp [Stack.onto, Except.map, bind, Except.bind,
          pure, Except.pure]
      · cases rest <;> rfl

theorem allOfSource_append_break
    {front : String}
    {terms : List Datum}
    (hTerms : allOfSource front = .ok terms)
    (back : String) :
    allOfSource (front ++ "\n" ++ back) =
      (allOfSource back).map (terms ++ ·) := by
  rcases bind_eq_ok hTerms with ⟨tokens, hTokens, hAll⟩
  unfold allOfSource
  rw [Token.ofSource_append_break hTokens]
  cases hBack : Token.ofSource back with
  | error failure => rfl
  | ok later => exact allOfTokens_append hAll later

end Datum

end LamLang

------------------------------------------------------------
-- Sources In Turn
------------------------------------------------------------

namespace LamLang

/-
  Behind a source whose tokens are found, a line break and
  another source give the tokens and the balance of both.
  If the terms of the first are read as well, those of both
  are read in turn.  A second source that is refused is
  refused for the same reason as alone.
-/
theorem reading_splits_at_breaks
    (front back : String)
    (tokens : List Token)
    (hTokens : Token.ofSource front = .ok tokens) :
    Token.ofSource (front ++ "\n" ++ back) =
        (Token.ofSource back).map (tokens ++ ·) ∧
      Token.balance (front ++ "\n" ++ back) =
        Token.balance front + Token.balance back ∧
      ∀ terms, Datum.allOfSource front = .ok terms →
        Datum.allOfSource (front ++ "\n" ++ back) =
          (Datum.allOfSource back).map (terms ++ ·) := by
  refine ⟨?tokens, ?balance, ?terms⟩
  case tokens =>
    exact Token.ofSource_append_break hTokens back
  case balance =>
    exact Token.balance_append_break hTokens back
  case terms =>
    intro terms hTerms
    exact Datum.allOfSource_append_break hTerms back

/-
  A source that ends in a comment, with a mark inside, and
  one that closes a list which it has not opened.
-/
theorem reading_splits_at_breaks_comment :
    Token.ofSource "(a \"(\") ;; \"(" =
        .ok ["(", "a", "\"(\"", ")"] ∧
      Token.balance ("(a \"(\") ;; \"(" ++ "\n" ++ "b)(") =
        0 ∧
      Datum.allOfSource
          ("(a \"(\") ;; \"(" ++ "\n" ++ "b)(") =
        .error (.cause .unexpectedClose) ∧
      Datum.allOfSource ("(a \"(\") ;; \"(" ++ "\n" ++ "b") =
        .ok [.list [.symbol "a", .text "("], .symbol "b"] := by
  have hTokens :
      Token.ofSource "(a \"(\") ;; \"(" =
        .ok ["(", "a", "\"(\"", ")"] := by
    decide +kernel
  have hTerms :
      Datum.allOfSource "(a \"(\") ;; \"(" =
        .ok [.list [.symbol "a", .text "("]] := by
    rfl
  rcases reading_splits_at_breaks _ "b)(" _ hTokens with
    ⟨-, hBalance, hRefused⟩
  rcases reading_splits_at_breaks _ "b" _ hTokens with
    ⟨-, -, hRead⟩
  refine ⟨hTokens, ?_, ?_, ?_⟩
  · rw [hBalance]
    rfl
  · rw [hRefused _ hTerms]
    rfl
  · rw [hRead _ hTerms]
    rfl

end LamLang

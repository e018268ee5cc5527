import LamLang.Proofs.Grammar
import LamLang.Proofs.Numerals
import LamLang.Proofs.Reading

/-
  Writing terms and reading them back.

  The text of a readable term is cut into tokens that tell
  of the term, whatever follows it, so it is read as that
  term, alone or among others.  All terms that are read can
  be written, except those with an infinite number.

  Key definitions include:
    * `LamLang.Datum.Readable`
    * `LamLang.Datum.Spells`
    * `LamLang.Token.Overflows`

  Main statements:
    * `LamLang.Datum.Readable.exists_write`
    * `LamLang.Datum.readable_of_allOfSource`
    * `LamLang.write_read_inverse`
-/

------------------------------------------------------------
-- Readable Terms
------------------------------------------------------------

namespace LamLang

namespace Datum

/-
  The terms that are read from their text: integers within
  the limit of digits, finite numbers, texts without a mark,
  symbols that are atoms but no numerals, and all lists and
  tuples of them.
-/
inductive Readable : Datum → Prop
| num
    {n : Number}
    (hLegible : n.Legible) :
    Readable (.num n)
| text
    {s : String}
    (hText : Lexeme.mark ∉ s.toList) :
    Readable (.text s)
| symbol
    {name : String}
    (hAtom : Lexeme.IsAtom name.toList)
    (hName : Numeral.parse? name.toList = none) :
    Readable (.symbol name)
| items
    {datum : Datum}
    {items : List Datum}
    (hItems : datum.items? = some items)
    (hReadable : ∀ item ∈ items, Readable item) :
    Readable datum

end Datum

end LamLang

------------------------------------------------------------
-- Texts That Tell Of Terms
------------------------------------------------------------

namespace LamLang

namespace Datum

open Token (ofLexemes ofLexeme?)
open Lexeme (scan Delimits)

/-
  A text whose tokens tell these events, whatever follows it
  that does not go on with its last token.
-/
def Spells
    (cs : List Char)
    (told : List Event) : Prop :=
  ∃ tokens : List Token,
    (∀ rest, Delimits rest →
      ofLexemes (scan (cs ++ rest)) =
        (ofLexemes (scan rest)).map (tokens ++ ·)) ∧
      tokens.mapM Token.event = .ok told

theorem map_append_append
    {tokens later : List Token}
    (x : Except Failure (List Token)) :
    (x.map (later ++ ·)).map (tokens ++ ·) =
      x.map ((tokens ++ later) ++ ·) := by
  cases x with
  | error failure => rfl
  | ok rest => simp [Except.map]

theorem mapM_event_append
    {front back : List Token}
    {told later : List Event}
    (hFront : front.mapM Token.event = .ok told)
    (hBack : back.mapM Token.event = .ok later) :
    (front ++ back).mapM Token.event =
      .ok (told ++ later) := by
  rw [List.mapM_append, hFront, hBack]
  rfl

theorem spells_nil : Spells [] [] := by
  refine ⟨[], ?_, rfl⟩
  intro rest _
  cases hRest : ofLexemes (scan rest) <;>
    simp [hRest, Except.map]

/- A text that is one lexeme tells what its token does. -/
theorem spells_lexeme
    {cs : List Char}
    (lexeme : Lexeme)
    {token : Token}
    {event : Event}
    (hScan :
      ∀ rest, Delimits rest →
        scan (cs ++ rest) = lexeme :: scan rest)
    (hToken : ofLexeme? lexeme = .ok (some token))
    (hEvent : token.event = .ok event) :
    Spells cs [event] := by
  refine ⟨[token], ?_, ?_⟩
  · intro rest hRest
    rw [hScan rest hRest, Token.ofLexemes_cons hToken]
    rfl
  · rw [List.mapM_cons, hEvent]
    rfl

theorem delimits_of_endsAtom
    {c : Char}
    (hEnds : Lexeme.endsAtom c = true)
    (rest : List Char) :
    Delimits (c :: rest) := by
  rintro _ ⟨⟩
  exact hEnds

/- A space stands between two texts. -/
theorem Spells.append
    {front back : List Char}
    {told later : List Event}
    (hFront : Spells front told)
    (hBack : Spells back later) :
    Spells (front ++ ' ' :: back) (told ++ later) := by
  rcases hFront with ⟨tokens, hTokens, hTold⟩
  rcases hBack with ⟨others, hOthers, hLater⟩
  refine
    ⟨tokens ++ others, ?_, mapM_event_append hTold hLater⟩
  intro rest hRest
  have hSpace : Delimits (' ' :: (back ++ rest)) :=
    delimits_of_endsAtom (by decide) _
  have hBlank :
      ofLexemes (scan (' ' :: (back ++ rest))) =
        ofLexemes (scan (back ++ rest)) := by
    rw [Lexeme.scan_blank Text.isBlank_space,
      Token.ofLexemes_cons rfl]
    cases ofLexemes (scan (back ++ rest)) <;> rfl
  rw [List.append_assoc, List.cons_append,
    hTokens _ hSpace, hBlank, hOthers rest hRest,
    map_append_append]

/- Parentheses around a text make a list of it. -/
theorem Spells.enclose
    {cs : List Char}
    {told : List Event}
    (hInner : Spells cs told) :
    Spells ('(' :: cs ++ [')'])
      (.opened :: told ++ [.closed]) := by
  rcases hInner with ⟨tokens, hTokens, hTold⟩
  have hOpen :
      [Token.lparen].mapM Token.event = .ok [.opened] := rfl
  have hClose :
      [Token.rparen].mapM Token.event = .ok [.closed] := rfl
  have hAll :=
    mapM_event_append (mapM_event_append hOpen hTold) hClose
  refine
    ⟨[Token.lparen] ++ tokens ++ [Token.rparen], ?_, hAll⟩
  intro rest _
  have hDelimits : Delimits (')' :: rest) :=
    delimits_of_endsAtom (by decide) rest
  have hCloses :
      ofLexemes (scan (')' :: rest)) =
        (ofLexemes (scan rest)).map
          ([Token.rparen] ++ ·) := by
    rw [Lexeme.scan_rparen, Token.ofLexemes_cons rfl]
    rfl
  have hOpens :
      ofLexemes (scan ('(' :: (cs ++ ')' :: rest))) =
        (ofLexemes (scan (cs ++ ')' :: rest))).map
          ([Token.lparen] ++ ·) := by
    rw [Lexeme.scan_lparen, Token.ofLexemes_cons rfl]
    rfl
  rw [List.cons_append, List.cons_append, List.append_assoc,
    List.singleton_append, hOpens, hTokens _ hDelimits,
    hCloses, map_append_append, map_append_append]

/- Texts with spaces between them tell of all terms. -/
theorem spells_intercalate
    {texts : List String}
    {terms : List Datum}
    (hTexts :
      List.Forall₂
        (fun text term => Spells text.toList term.events)
        texts terms) :
    Spells (" ".intercalate texts).toList
      (eventsOfAll terms) := by
  induction hTexts with
  | nil =>
      rw [eventsOfAll]
      exact spells_nil
  | @cons text term texts terms hText hTexts ih =>
      cases texts with
      | nil =>
          cases hTexts
          rw [eventsOfAll_singleton]
          simpa using hText
      | cons next texts =>
          have hBoth := hText.append ih
          rw [String.intercalate_cons_cons,
            String.toList_append, String.toList_append,
            List.append_assoc, eventsOfAll]
          exact hBoth

/- The terms that a whole source tells of are read. -/
theorem Spells.allOfSource
    {source : String}
    {terms : List Datum}
    (hSpells : Spells source.toList (eventsOfAll terms)) :
    allOfSource source = .ok terms := by
  rcases hSpells with ⟨tokens, hTokens, hTold⟩
  have hSource : Token.ofSource source = .ok tokens := by
    have hAll := hTokens [] nofun
    rw [List.append_nil] at hAll
    rw [Token.ofSource, hAll]
    simp [Lexeme.scan, Lexeme.scanFrom, Lexeme.finish,
      Token.ofLexemes, Except.map]
  rw [allOfSource_eq_allOfTokens hSource,
    allOfTokens_eq_ok_iff, hTold]

end Datum

end LamLang

------------------------------------------------------------
-- Written Terms
------------------------------------------------------------

namespace LamLang

namespace Datum

/- An atom tells of the term that its text stands for. -/
theorem spells_atom
    {token : Token}
    {datum : Datum}
    (hAtom : Lexeme.IsAtom token.toList)
    (hToken : ofToken token = .ok datum) :
    Spells token.toList [.item datum] := by
  rcases Token.isAtom_ne_paren hAtom with ⟨hOpen, hClose⟩
  rw [String.ofList_toList] at hOpen hClose
  have hLexeme :
      Token.ofLexeme? (.atom token.toList) =
        .ok (some (String.ofList token.toList)) := rfl
  rw [String.ofList_toList] at hLexeme
  apply spells_lexeme (.atom token.toList) _ hLexeme
  · exact event_of_ofToken hOpen hClose hToken
  · intro rest hRest
    exact Lexeme.scan_atom hAtom hRest

theorem head?_ne_mark
    {cs : List Char}
    (hAtom : Lexeme.IsAtom cs) :
    cs.head? ≠ some Lexeme.mark := by
  intro hMark
  have hInner := hAtom.inner _ (List.mem_of_head? hMark)
  exact absurd hInner (by decide)

theorem ofToken_numeral
    {token : Token}
    (hMark : token.toList.head? ≠ some Lexeme.mark)
    {numeral : Numeral}
    (hNumeral :
      Numeral.parse? token.toList = some numeral) :
    ofToken token = numeral.toNumber.map .num := by
  rw [ofToken, if_neg hMark, hNumeral]

theorem ofToken_symbol
    {token : Token}
    (hMark : token.toList.head? ≠ some Lexeme.mark)
    (hName : Numeral.parse? token.toList = none) :
    ofToken token = .ok (.symbol token) := by
  rw [ofToken, if_neg hMark, hName]

theorem spells_num
    {n : Number}
    (hLegible : n.Legible) :
    ∃ text, n.text = .ok text ∧
      Spells text.toList [.item (.num n)] := by
  rcases Number.exists_spelling hLegible with
    ⟨spelling, hText, hNumber⟩
  refine ⟨_, hText, ?_⟩
  have hAtom :
      Lexeme.IsAtom
        (String.ofList spelling.chars).toList := by
    rw [String.toList_ofList]
    exact spelling.isAtom_chars
  have hNumeral :
      Numeral.parse? (String.ofList spelling.chars).toList =
        some spelling.numeral := by
    rw [String.toList_ofList]
    exact spelling.parse?_chars
  apply spells_atom hAtom
  rw [ofToken_numeral (head?_ne_mark hAtom) hNumeral,
    hNumber]
  rfl

theorem ofToken_text
    (cs : List Char) :
    ofToken (String.ofList (Lexeme.text cs).source) =
      .ok (.text (String.ofList cs)) := by
  rw [ofToken, String.toList_ofList]
  simp [Lexeme.source, content]

theorem toList_quoted
    (s : String) :
    (Value.quoted s).toList =
      Lexeme.mark :: s.toList ++ [Lexeme.mark] := by
  rw [Value.quoted, String.toList_append,
    String.toList_append]
  rfl

theorem spells_text
    {s : String}
    (hText : Lexeme.mark ∉ s.toList) :
    Spells (Value.quoted s).toList [.item (.text s)] := by
  rcases Token.text_ne_paren s.toList with ⟨hOpen, hClose⟩
  have hToken := ofToken_text s.toList
  rw [String.ofList_toList] at hToken
  rw [toList_quoted]
  apply spells_lexeme (.text s.toList) _ rfl
  · exact event_of_ofToken hOpen hClose hToken
  · intro rest _
    rw [List.append_assoc, List.singleton_append]
    exact Lexeme.scan_text hText rest

theorem write_of_items?
    {datum : Datum}
    {items : List Datum}
    (hItems : datum.items? = some items)
    {texts : List String}
    (hTexts : items.mapM write = .ok texts) :
    datum.write =
      .ok ("(" ++ " ".intercalate texts ++ ")") := by
  rw [write_items_eq hItems, hTexts]
  rfl

/- The texts of terms that have one are written in order. -/
theorem exists_mapM_write
    {terms : List Datum}
    (hTerms :
      ∀ term ∈ terms, ∃ text,
        term.write = .ok text ∧
          Spells text.toList term.listed.events) :
    ∃ texts,
      terms.mapM write = .ok texts ∧
        List.Forall₂
          (fun text term => Spells text.toList term.events)
          texts (terms.map listed) := by
  induction terms with
  | nil => exact ⟨[], rfl, .nil⟩
  | cons term terms ih =>
      rcases hTerms term (by simp) with
        ⟨text, hText, hSpells⟩
      rcases ih fun other hMem =>
        hTerms other (by simp [hMem]) with
        ⟨texts, hTexts, hAll⟩
      refine ⟨text :: texts, ?_, .cons hSpells hAll⟩
      rw [List.mapM_cons, hText, hTexts]
      rfl

/- A readable term is written as a text that tells of it. -/
theorem Readable.exists_write
    {term : Datum}
    (hReadable : term.Readable) :
    ∃ text,
      term.write = .ok text ∧
        Spells text.toList term.listed.events := by
  induction hReadable with
  | @num n hLegible =>
      rcases spells_num hLegible with
        ⟨text, hText, hSpells⟩
      refine ⟨text, by rw [write, hText], ?_⟩
      simpa [listed, events] using hSpells
  | @text s hText =>
      refine ⟨Value.quoted s, by rw [write], ?_⟩
      simpa [listed, events] using spells_text hText
  | @symbol name hAtom hName =>
      have hToken :=
        ofToken_symbol (head?_ne_mark hAtom) hName
      refine ⟨name, by rw [write], ?_⟩
      simpa [listed, events] using spells_atom hAtom hToken
  | @items datum items hItems _ ih =>
      rcases exists_mapM_write ih with
        ⟨texts, hTexts, hAll⟩
      refine ⟨_, write_of_items? hItems hTexts, ?_⟩
      rw [listed_of_items? hItems, events,
        String.toList_append, String.toList_append]
      exact (spells_intercalate hAll).enclose

end Datum

end LamLang

------------------------------------------------------------
-- Terms That Are Read
------------------------------------------------------------

namespace LamLang

/- Digits stay below the power of ten of their number. -/
theorem Text.ofDigits_lt
    {digits : List Nat}
    (hDigits : ∀ d ∈ digits, d < 10) :
    Text.ofDigits digits < 10 ^ digits.length := by
  rw [ofDigits_eq, ← digits.length_reverse]
  apply Nat.ofDigits_lt_base_pow_length (by decide)
  intro d hMem
  exact hDigits d (List.mem_reverse.mp hMem)

namespace Numeral

/- A number that is read is legible or infinite. -/
theorem legible_or_infinite
    {cs : List Char}
    {numeral : Numeral}
    {n : Number}
    (hNumeral : parse? cs = some numeral)
    (hNumber : numeral.toNumber = .ok n) :
    n.Legible ∨
      ∃ negative, n = .real (.infinite negative) := by
  unfold toNumber at hNumber
  split at hNumber
  · split at hNumber
    · rename_i hLength
      left
      cases hNumber
      rcases exists_shape hNumeral with ⟨shape, -, rfl⟩
      have hDigits : ∀ d ∈ shape.numeral.whole, d < 10 := by
        intro d hMem
        rcases List.mem_filterMap.mp hMem with
          ⟨c, -, hValue⟩
        exact Text.digitValue?_lt hValue
      have hBound :
          Text.ofDigits shape.numeral.whole <
            Number.textBound := by
        rw [Number.textBound_eq]
        exact
          (Text.ofDigits_lt hDigits).trans_le
            (Nat.pow_le_pow_right (by decide) hLength)
      rw [Number.Legible, Number.digitCount_le_iff]
      split <;> omega
    · cases hNumber
  · cases hNumber
    have hNan := Decimal.nearest_ne_nan numeral.magnitude
      numeral.negative
    cases hReal :
        numeral.magnitude.nearest numeral.negative with
    | nan => exact absurd hReal hNan
    | infinite negative => exact .inr ⟨negative, rfl⟩
    | finite negative rank => exact .inl trivial

end Numeral

namespace Datum

theorem mem_eventsOfAll
    {event : Event}
    {terms : List Datum} :
    event ∈ eventsOfAll terms ↔
      ∃ term ∈ terms, event ∈ term.events := by
  induction terms with
  | nil => simp [eventsOfAll]
  | cons term terms ih => simp [eventsOfAll, ih]

/- A term that is no list tells of itself. -/
theorem events_cases
    (datum : Datum) :
    (∃ items, datum = .list items) ∨
      datum.events = [.item datum] := by
  cases datum with
  | list items => exact .inl ⟨items, rfl⟩
  | _ => exact .inr (by simp [events])

theorem mem_events_list
    {items : List Datum}
    {item : Datum}
    (hMem : item ∈ items)
    {event : Event}
    (hEvent : event ∈ item.events) :
    event ∈ (Datum.list items).events := by
  have hAll : event ∈ eventsOfAll items :=
    mem_eventsOfAll.mpr ⟨item, hMem, hEvent⟩
  simp [events, hAll]

/-
  What holds of all leaves of a term, and of a list as soon
  as it holds of its items, holds of the term.
-/
theorem of_leaves
    {motive : Datum → Prop}
    (hList :
      ∀ items, (∀ item ∈ items, motive item) →
        motive (.list items))
    (datum : Datum)
    (hLeaves :
      ∀ leaf, .item leaf ∈ datum.events → motive leaf) :
    motive datum := by
  induction datum using item_induction with
  | step datum ih =>
      rcases events_cases datum with ⟨items, rfl⟩ | hSelf
      · apply hList
        intro item hMem
        apply ih items rfl item hMem
        intro leaf hLeaf
        exact hLeaves leaf (mem_events_list hMem hLeaf)
      · apply hLeaves
        rw [hSelf]
        exact List.mem_singleton.mpr rfl

/- The numbers of a leaf are numbers of the term. -/
theorem numbers_of_leaf
    {datum leaf : Datum}
    (hLeaf : .item leaf ∈ datum.events)
    {n : Number}
    (hNumber : n ∈ leaf.numbers) :
    n ∈ datum.numbers := by
  induction datum using item_induction with
  | step datum ih =>
      rcases events_cases datum with ⟨items, rfl⟩ | hSelf
      · have hInner :
            .item leaf ∈ eventsOfAll items := by
          simpa [events] using hLeaf
        rcases mem_eventsOfAll.mp hInner with
          ⟨item, hMem, hEvent⟩
        exact
          mem_numbers_of_items? rfl hMem
            (ih items rfl item hMem hEvent)
      · rw [hSelf] at hLeaf
        cases List.mem_singleton.mp hLeaf
        exact hNumber

theorem ofToken_of_event
    {token : Token}
    {leaf : Datum}
    (hEvent : token.event = .ok (.item leaf)) :
    token ≠ Token.lparen ∧ token ≠ Token.rparen ∧
      ofToken token = .ok leaf := by
  unfold Token.event at hEvent
  split at hEvent
  · cases hEvent
  · rename_i hOpen
    split at hEvent
    · cases hEvent
    · rename_i hClose
      rcases map_eq_ok hEvent with ⟨datum, hDatum, hItem⟩
      cases hItem
      exact ⟨hOpen, hClose, hDatum⟩

/- An atom is read as a readable term unless it overflows. -/
theorem leaf_of_isAtom
    {token : Token}
    {leaf : Datum}
    (hAtom : Lexeme.IsAtom token.toList)
    (hToken : ofToken token = .ok leaf) :
    leaf.items? = none ∧
      (leaf.Readable ∨
        ∃ negative,
          leaf = .num (.real (.infinite negative))) := by
  cases hNumeral : Numeral.parse? token.toList with
  | some numeral =>
      rw [ofToken_numeral (head?_ne_mark hAtom) hNumeral] at hToken
      rcases map_eq_ok hToken with ⟨n, hNumber, rfl⟩
      refine ⟨rfl, ?_⟩
      rcases Numeral.legible_or_infinite hNumeral hNumber
        with hLegible | ⟨negative, rfl⟩
      · exact .inl (.num hLegible)
      · exact .inr ⟨negative, rfl⟩
  | none =>
      rw [ofToken_symbol (head?_ne_mark hAtom) hNumeral] at hToken
      cases hToken
      exact ⟨rfl, .inl (.symbol hAtom hNumeral)⟩

/- So is the token of every lexeme that stands for a term. -/
theorem leaf_of_lexeme
    {lexeme : Lexeme}
    {token : Token}
    {leaf : Datum}
    (hValid : lexeme.Valid)
    (hLexeme : Token.ofLexeme? lexeme = .ok (some token))
    (hEvent : token.event = .ok (.item leaf)) :
    leaf.items? = none ∧
      (leaf.Readable ∨
        ∃ negative,
          leaf = .num (.real (.infinite negative))) := by
  rcases ofToken_of_event hEvent with
    ⟨hOpen, hClose, hToken⟩
  cases lexeme with
  | blank c => cases hLexeme
  | comment content => cases hLexeme
  | unclosed content => cases hLexeme
  | lparen =>
      cases hLexeme
      exact absurd rfl hOpen
  | rparen =>
      cases hLexeme
      exact absurd rfl hClose
  | text content =>
      cases hLexeme
      rw [ofToken_text] at hToken
      cases hToken
      refine ⟨rfl, .inl (.text ?_)⟩
      rw [String.toList_ofList]
      exact hValid
  | atom content =>
      cases hLexeme
      apply leaf_of_isAtom _ hToken
      rw [String.toList_ofList]
      exact hValid

/-
  The leaves of the terms of a source stand for its tokens,
  and they are readable unless they overflow.
-/
theorem leaf_of_allOfSource
    {source : String}
    {tokens : List Token}
    {terms : List Datum}
    (hTokens : Token.ofSource source = .ok tokens)
    (hTerms : allOfSource source = .ok terms)
    {term leaf : Datum}
    (hTerm : term ∈ terms)
    (hLeaf : .item leaf ∈ term.events) :
    ∃ token ∈ tokens,
      ofToken token = .ok leaf ∧
        leaf.items? = none ∧
        (leaf.Readable ∨
          ∃ negative,
            leaf = .num (.real (.infinite negative))) := by
  rw [allOfSource_eq_allOfTokens hTokens,
    allOfTokens_eq_ok_iff] at hTerms
  have hMem : .item leaf ∈ eventsOfAll terms :=
    mem_eventsOfAll.mpr ⟨term, hTerm, hLeaf⟩
  -- What is told was told by a token, cut from a lexeme.
  rcases mapM_ok_mem hTerms hMem with
    ⟨token, ⟨before, after, -, hSplit, -⟩, hEvent⟩
  have hToken : token ∈ tokens := by
    rw [hSplit]
    simp
  rcases Token.exists_lexeme_of_mem hTokens hToken with
    ⟨lexeme, hScanned, hLexeme⟩
  have hValid :=
    Lexeme.scan_valid source.toList lexeme hScanned
  exact
    ⟨token, hToken, (ofToken_of_event hEvent).2.2,
      leaf_of_lexeme hValid hLexeme hEvent⟩

/- A source that is read has tokens. -/
theorem exists_ofSource
    {source : String}
    {terms : List Datum}
    (hTerms : allOfSource source = .ok terms) :
    ∃ tokens, Token.ofSource source = .ok tokens := by
  rcases bind_eq_ok hTerms with ⟨tokens, hTokens, -⟩
  exact ⟨tokens, hTokens⟩

/- A term without infinite leaves is readable. -/
theorem readable_of_finite_leaves
    {source : String}
    {terms : List Datum}
    (hTerms : allOfSource source = .ok terms)
    {term : Datum}
    (hTerm : term ∈ terms)
    (hFinite :
      ∀ negative,
        .item (.num (.real (.infinite negative))) ∉
          term.events) :
    term.Readable := by
  rcases exists_ofSource hTerms with ⟨tokens, hTokens⟩
  apply of_leaves
  · intro items hItems
    exact .items rfl hItems
  · intro leaf hLeaf
    rcases leaf_of_allOfSource hTokens hTerms hTerm hLeaf
      with ⟨-, -, -, -, hReadable | ⟨negative, rfl⟩⟩
    · exact hReadable
    · exact absurd hLeaf (hFinite negative)

/- Terms that are read can be written, unless infinite. -/
theorem readable_of_allOfSource
    {source : String}
    {terms : List Datum}
    (hTerms : allOfSource source = .ok terms)
    {term : Datum}
    (hTerm : term ∈ terms)
    (hFinite :
      ∀ negative,
        .real (.infinite negative) ∉ term.numbers) :
    term.Readable := by
  apply readable_of_finite_leaves hTerms hTerm
  intro negative hLeaf
  apply hFinite negative
  exact numbers_of_leaf hLeaf (by simp [numbers])

/- A term that is read has no tuples. -/
theorem listed_of_allOfSource
    {source : String}
    {terms : List Datum}
    (hTerms : allOfSource source = .ok terms)
    {term : Datum}
    (hTerm : term ∈ terms) :
    term.listed = term := by
  rcases exists_ofSource hTerms with ⟨tokens, hTokens⟩
  apply of_leaves
    (motive := fun datum => datum.listed = datum)
  · intro items hItems
    rw [listed_of_items? rfl]
    have hSame : items.map listed = items.map id :=
      List.map_congr_left hItems
    rw [hSame, List.map_id]
  · intro leaf hLeaf
    rcases leaf_of_allOfSource hTokens hTerms hTerm hLeaf
      with ⟨-, -, -, hItems, -⟩
    exact listed_of_items?_none hItems

end Datum

/- The tokens that are read as an infinite number. -/
def Token.Overflows
    (token : Token) : Prop :=
  ∃ negative,
    Datum.ofToken token =
      .ok (.num (.real (.infinite negative)))

/- Without such tokens all terms can be written. -/
theorem Datum.readable_of_not_overflows
    {source : String}
    {tokens : List Token}
    {terms : List Datum}
    (hTokens : Token.ofSource source = .ok tokens)
    (hFinite : ∀ token ∈ tokens, ¬ token.Overflows)
    (hTerms : Datum.allOfSource source = .ok terms)
    {term : Datum}
    (hTerm : term ∈ terms) :
    term.Readable := by
  apply Datum.readable_of_finite_leaves hTerms hTerm
  intro negative hLeaf
  rcases Datum.leaf_of_allOfSource hTokens hTerms hTerm
    hLeaf with ⟨token, hMem, hToken, -⟩
  exact hFinite token hMem ⟨negative, hToken⟩

end LamLang

------------------------------------------------------------
-- Round Trips
------------------------------------------------------------

namespace LamLang

namespace Datum

/- Readable terms are read from their texts in one source. -/
theorem allOfSource_write
    {terms : List Datum}
    (hReadable : ∀ term ∈ terms, term.Readable) :
    ∃ texts,
      terms.mapM write = .ok texts ∧
        allOfSource (" ".intercalate texts) =
          .ok (terms.map listed) := by
  rcases exists_mapM_write fun term hMem =>
    (hReadable term hMem).exists_write with
    ⟨texts, hTexts, hAll⟩
  exact
    ⟨texts, hTexts, (spells_intercalate hAll).allOfSource⟩

theorem ofSource_write
    {term : Datum}
    (hReadable : term.Readable) :
    ∃ text,
      term.write = .ok text ∧
        ofSource text = .ok term.listed := by
  rcases hReadable.exists_write with
    ⟨text, hText, hSpells⟩
  refine ⟨text, hText, ofSource_eq_ok_iff.mpr ?_⟩
  apply Spells.allOfSource
  rw [eventsOfAll_singleton]
  exact hSpells

end Datum

/-
  Writing and reading are inverse.  Readable terms are read
  from their texts, with lists for tuples, many from one
  source as well as one alone.  The other way round, the
  terms that a source is read as are readable unless they
  hold an infinite number, so reading what is written for
  them changes nothing.
-/
theorem write_read_inverse :
    (∀ terms : List Datum,
      (∀ term ∈ terms, term.Readable) →
      ∃ texts,
        terms.mapM Datum.write = .ok texts ∧
          Datum.allOfSource (" ".intercalate texts) =
            .ok (terms.map Datum.listed)) ∧
    (∀ term : Datum,
      term.Readable →
      ∃ text,
        term.write = .ok text ∧
          Datum.ofSource text = .ok term.listed) ∧
    (∀ source terms,
      Datum.allOfSource source = .ok terms →
      ∀ term ∈ terms,
        (∀ negative,
          .real (.infinite negative) ∉ term.numbers) →
        term.Readable) ∧
    (∀ source term,
      Datum.ofSource source = .ok term →
      (∀ negative,
        .real (.infinite negative) ∉ term.numbers) →
      term.Readable) ∧
    (∀ source tokens term,
      Token.ofSource source = .ok tokens →
      (∀ token ∈ tokens, ¬ token.Overflows) →
      Datum.ofSource source = .ok term →
      ∃ text,
        term.write = .ok text ∧
          Datum.ofSource text = .ok term) := by
  refine ⟨?many, ?one, ?allRead, ?oneRead, ?again⟩
  case many =>
    intro terms hReadable
    exact Datum.allOfSource_write hReadable
  case one =>
    intro term hReadable
    exact Datum.ofSource_write hReadable
  case allRead =>
    intro source terms hTerms term hTerm hFinite
    exact Datum.readable_of_allOfSource hTerms hTerm hFinite
  case oneRead =>
    intro source term hTerm hFinite
    have hTerms := Datum.ofSource_eq_ok_iff.mp hTerm
    exact
      Datum.readable_of_allOfSource hTerms (by simp) hFinite
  case again =>
    intro source tokens term hTokens hFinite hTerm
    have hTerms := Datum.ofSource_eq_ok_iff.mp hTerm
    have hReadable : term.Readable :=
      Datum.readable_of_not_overflows hTokens hFinite hTerms
        (by simp)
    have hListed : term.listed = term :=
      Datum.listed_of_allOfSource hTerms (by simp)
    have hWritten := Datum.ofSource_write hReadable
    rwa [hListed] at hWritten

/-
  A tuple with a symbol and a text that nearly start
  comments, and a number that is zero but has a sign.
-/
def Datum.delicateTerms : List Datum :=
  [.tuple [.symbol ";x", .num (.int (-12)), .text "(b;;"],
   .num (.real (.zero true))]

/- A source that is not the text of its term. -/
def Datum.paddedSource : String := "(f +07)"

theorem write_read_inverse_delicate :
    ((∀ term ∈ Datum.delicateTerms, term.Readable) ∧
      ∃ texts,
        Datum.delicateTerms.mapM Datum.write = .ok texts ∧
          Datum.allOfSource (" ".intercalate texts) =
            .ok (Datum.delicateTerms.map Datum.listed)) ∧
    Token.ofSource Datum.paddedSource =
      .ok ["(", "f", "+07", ")"] ∧
    Datum.ofSource Datum.paddedSource =
      .ok (.list [.symbol "f", .num (.int 7)]) ∧
    ∃ text,
      (Datum.list [.symbol "f", .num (.int 7)]).write =
          .ok text ∧
        Datum.ofSource text =
          .ok (.list [.symbol "f", .num (.int 7)]) := by
  have hInner :
      (";x".toList.all fun c => !Lexeme.endsAtom c) =
        true := by
    decide
  have hAtom : Lexeme.IsAtom ";x".toList := by
    refine ⟨by decide, ?_, by decide⟩
    intro c hMem
    simpa using List.all_eq_true.mp hInner c hMem
  have hSymbol : (Datum.symbol ";x").Readable :=
    .symbol hAtom (by decide)
  have hNumber : (Datum.num (.int (-12))).Readable :=
    .num (show Decimal.digitCount 12 ≤ _ by decide)
  have hText : (Datum.text "(b;;").Readable :=
    .text (by decide)
  have hReadable :
      ∀ term ∈ Datum.delicateTerms, term.Readable := by
    intro term hMem
    simp only [Datum.delicateTerms, List.mem_cons,
      List.not_mem_nil, or_false] at hMem
    rcases hMem with rfl | rfl
    · apply Datum.Readable.items rfl
      intro item hItem
      simp only [List.mem_cons, List.not_mem_nil, or_false]
        at hItem
      rcases hItem with rfl | rfl | rfl
      · exact hSymbol
      · exact hNumber
      · exact hText
    · exact .num trivial
  have hTokens :
      Token.ofSource Datum.paddedSource =
        .ok ["(", "f", "+07", ")"] := rfl
  have hTerm :
      Datum.ofSource Datum.paddedSource =
        .ok (.list [.symbol "f", .num (.int 7)]) := rfl
  have hFinite :
      ∀ token ∈ ["(", "f", "+07", ")"],
        ¬ Token.Overflows token := by
    intro token hMem
    simp only [List.mem_cons, List.not_mem_nil, or_false]
      at hMem
    rcases hMem with rfl | rfl | rfl | rfl <;>
      (rintro ⟨negative, hToken⟩; cases hToken)
  rcases write_read_inverse with ⟨hMany, -, -, -, hAgain⟩
  exact
    ⟨⟨hReadable, hMany _ hReadable⟩, hTokens, hTerm,
      hAgain _ _ _ hTokens hFinite hTerm⟩

end LamLang

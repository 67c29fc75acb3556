import Calculator.Proofs.Levels
import Calculator.Proofs.Spelling

/-!
# Marks in a text

Every sign, operator and opening parenthesis among the tokens of a text is a character of its
own there. So a text with few of these characters needs few levels of nesting.
-/

namespace Calculator

/-- The character writes a sign, an operator or an opening parenthesis. -/
def writesDeepening (c : Char) : Bool :=
  c ∈ ['+', '-', '*', '/', '(']

/-- A lexeme that is a token which deepens has a character that writes one. -/
theorem Lexeme.deepens_le_countP {lexeme : Lexeme} {token : Token}
    (h : lexeme.token? = some token) :
    [token].countP Token.deepens ≤ lexeme.text.countP writesDeepening := by
  cases lexeme with
  | numeral written =>
    obtain ⟨value, _, rfl⟩ := Option.map_eq_some_iff.1 h
    exact Nat.zero_le _
  | identifier name =>
    cases h
    exact Nat.zero_le _
  | mark written =>
    cases h
    rcases written with op | _ | _ | _ <;> try decide
    cases op <;> decide

namespace Cursor

/-- A token read takes a character that writes it out of the text, if it deepens. -/
theorem countP_le_of_next {cursor after : Cursor} {token : PlacedToken}
    (h : cursor.next = (some (.ok token), after)) :
    [token.token].countP Token.deepens + after.rest.countP writesDeepening ≤
      cursor.rest.countP writesDeepening := by
  have hblank : cursor.skipBlank.rest.countP writesDeepening ≤
      cursor.rest.countP writesDeepening := (List.dropWhile_sublist _).countP_le
  refine Nat.le_trans ?_ hblank
  obtain ⟨lexeme, hscan, htoken, _⟩ := exists_lexeme_of_read h
  have htext := Lexeme.text_append_of_scan? hscan
  have hcount := congrArg (List.countP writesDeepening) htext
  rw [List.countP_append] at hcount
  exact Nat.le_trans (Nat.add_le_add_right (Lexeme.deepens_le_countP htoken) _)
    (Nat.le_of_eq hcount)

/-- No more tokens deepen than characters that write such tokens are in the text. -/
theorem countP_tokens_le (cursor : Cursor) {placed : List PlacedToken}
    (h : cursor.tokens = .ok placed) :
    (placed.map PlacedToken.token).countP Token.deepens ≤ cursor.rest.countP writesDeepening := by
  refine tokens_induction (motive := fun cursor placed =>
    (placed.map PlacedToken.token).countP Token.deepens ≤ cursor.rest.countP writesDeepening)
    (fun cursor after hnext => Nat.zero_le _) ?_ cursor h
  intro cursor token after placed hnext ih
  have hfirst := countP_le_of_next hnext
  rw [List.map_cons, ← List.singleton_append, List.countP_append]
  omega

end Cursor

end Calculator

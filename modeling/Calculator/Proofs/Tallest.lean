import Calculator.Proofs.Height
import Calculator.Proofs.RoundTrip

/-!
# The tallest formulas that are accepted

The levels that an accepted text takes up bound the height of its formula only by the sum of
all these levels, and this bound is attained: a call in front of a chain of products may take up
one level less than the chain, and the same again inside the call. So it takes few levels for a
formula to be within the limit of nesting itself; with more it is within the limit exactly if no
number or name stands under too many signs, calls and operators.
-/

namespace Calculator.Formula

/-- A formula that is accepted is no higher than the sum of all levels that its text takes up,
and so no higher than the sum of all levels up to the limit of nesting. With no more than 22
levels it is within the limit itself. With more it is within the limit exactly if every number
and name of its text stands under fewer signs, calls and operators than there are levels, where
an operator of a chain stands over all operands before it and over the one after it. -/
theorem height_of_parse {text : String} {formula : Formula} (h : parse text = .ok formula) :
    formula.height ≤ nestingLimit * (nestingLimit + 1) / 2 ∧
      ∃ (stream : TokenStream) (derivation : Grammar.Expression),
        tokenize text = .ok stream ∧
        derivation.tokens = stream.tokens.map PlacedToken.token ∧
        derivation.formula = formula ∧
        derivation.levels ≤ nestingLimit ∧
        formula.height ≤ derivation.levels * (derivation.levels + 1) / 2 ∧
        (derivation.levels ≤ 22 → formula.height ≤ nestingLimit) ∧
        (formula.height ≤ nestingLimit ↔ ∀ cover ∈ derivation.covers, cover < nestingLimit) := by
  obtain ⟨stream, htokens⟩ := exists_tokenize_of_parse h
  obtain ⟨derivation, hderived, rfl⟩ := derives_of_parse htokens h
  have hlevels := levels_le_of_parse htokens derivation hderived h
  have hheight := derivation.two_mul_height_le_levels
  have hsum {room : ℕ} (hroom : derivation.levels ≤ room) :
      derivation.levels * (derivation.levels + 1) ≤ room * (room + 1) :=
    Nat.mul_le_mul hroom (Nat.succ_le_succ hroom)
  refine ⟨?_, stream, derivation, htokens, hderived, rfl, hlevels, by omega, ?_,
    derivation.reach_covers.2 nestingLimit⟩
  · have hlimit := hsum hlevels
    omega
  · intro hfew
    have hlimit : 22 * (22 + 1) ≤ 2 * nestingLimit := by decide
    have hsmall := hsum hfew
    omega

/-- In a chain of products the sign of the first operand stands under all operators. -/
theorem height_of_parse_signed_product :
    parse "-x * y * z" = .ok (.binary (.binary (.unary '-' (.variable "x")) '*' (.variable "y"))
        '*' (.variable "z")) ∧
      height (.binary (.binary (.unary '-' (.variable "x")) '*' (.variable "y"))
        '*' (.variable "z")) ≤ nestingLimit * (nestingLimit + 1) / 2 := by
  have hwritable : isWritable (.binary (.binary (.unary '-' (.variable "x")) '*'
      (.variable "y")) '*' (.variable "z")) = true := by decide
  have hparse := (parse_render_of_nesting hwritable).1 (by decide)
  have hheight := (height_of_parse hparse).1
  have htext : render (.binary (.binary (.unary '-' (.variable "x")) '*'
      (.variable "y")) '*' (.variable "z")) = "-x * y * z" := by decide
  rw [htext] at hparse
  exact ⟨hparse, hheight⟩

/-- A variable under as many signs. -/
def signed : ℕ → Formula
  | 0 => .variable "x"
  | count + 1 => .unary '-' (signed count)

/-- A variable under signs is no chain. -/
theorem isMultiplicative_signed (count : ℕ) : (signed count).isMultiplicative = false := by
  cases count <;> rfl

/-- Signs are written one after the other. -/
theorem characters_signed (count : ℕ) :
    (signed count).characters = List.replicate count '-' ++ ['x'] := by
  induction count with
  | zero => decide
  | succ count ih =>
    rw [signed, characters, isMultiplicative_signed, ih]
    rfl

/-- A variable under signs can be written. -/
theorem isWritable_signed (count : ℕ) : (signed count).isWritable = true := by
  induction count with
  | zero => decide
  | succ count ih =>
    rw [signed, isWritable, ih]
    decide

/-- A variable under signs has no literals to be read back. -/
theorem reread_signed (count : ℕ) : (signed count).reread = signed count := by
  induction count with
  | zero => rfl
  | succ count ih => rw [signed, reread, ih]

/-- Every sign takes up a level. -/
theorem nesting_signed (count : ℕ) : (signed count).nesting = count + 1 := by
  induction count with
  | zero => rfl
  | succ count ih =>
    rw [signed, nesting, isMultiplicative_signed, ih]
    rfl

/-- Every sign is a node. -/
theorem height_signed (count : ℕ) : (signed count).height = count + 1 := by
  induction count with
  | zero => rfl
  | succ count ih => rw [signed, height, ih]

/-- A product with signs in front of it is written without parentheses. -/
theorem characters_signed_product (count : ℕ) :
    (binary (signed count) '*' (.variable "x")).characters =
      List.replicate count '-' ++ "x * x".toList := by
  have htight : Operator.multiply.precedence = Operator.multiplicative := rfl
  have hchain := characters_of_multiplicative htight (signed count) (.variable "x")
  rw [characters_signed] at hchain
  exact hchain.trans (by simp [parenthesized, isMultiplicative, characters, Operator.symbol])

/-- As many signs as there may be are accepted in front of a product, which makes a formula that
is higher than the limit of nesting. -/
theorem parse_signed_product :
    parse (String.ofList (List.replicate 255 '-' ++ "x * x".toList)) =
        .ok (.binary (signed 255) '*' (.variable "x")) ∧
      nestingLimit < height (.binary (signed 255) '*' (.variable "x")) := by
  have htight : Operator.additive < precedence '*' := by decide
  have hwritable : isWritable (.binary (signed 255) '*' (.variable "x")) = true := by
    rw [isWritable, isWritable_signed]
    decide
  have hnesting : nesting (.binary (signed 255) '*' (.variable "x")) ≤ nestingLimit := by
    rw [nesting, if_pos htight, nesting_signed]
    decide
  have htext : render (.binary (signed 255) '*' (.variable "x")) =
      String.ofList (List.replicate 255 '-' ++ "x * x".toList) :=
    congrArg String.ofList (characters_signed_product 255)
  have hparse := (parse_render_of_nesting hwritable).1 hnesting
  rw [htext, reread, reread_signed] at hparse
  refine ⟨hparse, ?_⟩
  rw [height, height_signed]
  decide

/-- A formula as the first factor of as many products. -/
def products (first : Formula) : ℕ → Formula
  | 0 => first
  | count + 1 => .binary (products first count) '*' (.variable "x")

/-- A product takes up no levels for its first factor. -/
theorem spine_products (first : Formula) (count : ℕ) :
    (products first count).spine = first.spine + count := by
  have htight : Operator.additive < precedence '*' := by decide
  induction count with
  | zero => rfl
  | succ count ih =>
    rw [products, spine, if_pos htight, ih]
    rfl

/-- A chain of products takes up the levels of its first factor or of its operators. -/
theorem nesting_products {first : Formula} (h : first.spine < first.nesting) (count : ℕ) :
    (products first count).nesting = max first.nesting (first.spine + count + 1) := by
  have htight : Operator.additive < precedence '*' := by decide
  induction count with
  | zero => exact (Nat.max_eq_left h).symm
  | succ count ih =>
    rw [products, nesting, if_pos htight, ih, spine_products]
    change max (max _ _) (_ + 1 + (1 + 0)) = _
    omega

/-- A formula has a node. -/
theorem height_pos (formula : Formula) : 0 < formula.height := by
  cases formula <;> simp [height]

/-- Every product is a node above its first factor. -/
theorem height_products (first : Formula) (count : ℕ) :
    (products first count).height = first.height + count := by
  induction count with
  | zero => rfl
  | succ count ih =>
    have hpos := first.height_pos
    rw [products, height, ih]
    change max _ 1 + 1 = _
    omega

/-- Products can be written if their first factor can. -/
theorem isWritable_products {first : Formula} (h : first.isWritable = true) (count : ℕ) :
    (products first count).isWritable = true := by
  induction count with
  | zero => exact h
  | succ count ih =>
    rw [products, isWritable, ih]
    decide

/-- Only literals in the first factor of products are read back. -/
theorem reread_products (first : Formula) (count : ℕ) :
    (products first count).reread = products first.reread count := by
  induction count with
  | zero => rfl
  | succ count ih =>
    rw [products, reread, ih]
    rfl

/-- A tower of calls, each the first factor of as many products as there are calls in it. -/
def tower : ℕ → Formula
  | 0 => .variable "x"
  | count + 1 => products (.call "f" [tower count]) (count + 1)

/-- A tower can be written. -/
theorem isWritable_tower (count : ℕ) : (tower count).isWritable = true := by
  induction count with
  | zero => decide
  | succ count ih =>
    apply isWritable_products
    simp only [isWritable, areWritable, ih, List.isEmpty_cons]
    decide

/-- A tower has no literals to be read back. -/
theorem reread_tower (count : ℕ) : (tower count).reread = tower count := by
  induction count with
  | zero => rfl
  | succ count ih => rw [tower, reread_products, reread, rereadAll, rereadAll, ih]

/-- Every call of a tower takes up a level, and its products no more than that. -/
theorem nesting_tower (count : ℕ) : (tower count).nesting = count + 1 := by
  induction count with
  | zero => rfl
  | succ count ih =>
    have hcall : nesting (.call "f" [tower count]) = count + 2 := by
      rw [nesting, nestingAll, nestingAll, ih]
      rfl
    have hspine : spine (.call "f" [tower count]) = 0 := rfl
    rw [tower, nesting_products (by omega), hcall, hspine]
    omega

/-- A tower is as high as the sum of the levels it takes up. -/
theorem two_mul_height_tower (count : ℕ) :
    2 * (tower count).height = (count + 1) * (count + 2) := by
  induction count with
  | zero => rfl
  | succ count ih =>
    rw [tower, height_products, height, heightAll, heightAll, Nat.max_zero]
    have hsum : (count + 1 + 1) * (count + 1 + 2) =
        (count + 1) * (count + 2) + 2 * (count + 2) := by ring
    omega

/-- A tower is accepted as it is written while there is a level for each of its calls, so the
bound on the height of accepted formulas is attained with every number of levels. -/
theorem parse_render_tower {count : ℕ} (h : count < nestingLimit) :
    parse (tower count).render = .ok (tower count) ∧ (tower count).nesting = count + 1 ∧
      (tower count).height = (count + 1) * (count + 2) / 2 := by
  have hnesting : (tower count).nesting ≤ nestingLimit := by
    rw [nesting_tower]
    exact h
  have hparse := (parse_render_of_nesting (isWritable_tower count)).1 hnesting
  have hheight := two_mul_height_tower count
  rw [reread_tower] at hparse
  exact ⟨hparse, nesting_tower count, by omega⟩

end Calculator.Formula

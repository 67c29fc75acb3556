import Calculator.Proofs.Levels

/-!
# The levels of operands

Every operand of a derivation stands at a level. The operand of a sign, the formula in
parentheses and the arguments of a call stand one level deeper than what they are inside of. In
a chain every operator moves what comes after it one level deeper, where the operators of a
formula's first term count against its later terms and those of the later terms do not.

A room is overrun at the leftmost operand that stands at the first level beyond it. So a
derivation takes up no more levels than a room has exactly if all its operands stand at levels
of the room.
-/

namespace Calculator.Grammar

/-- An operand within a derivation, the level it stands at and the number of tokens before it. -/
structure Occurrence where
  operand : Operand
  level : ℕ
  before : ℕ

mutual

/-- An operand and those inside it, from left to right, the operand itself standing at a level
after some tokens. -/
def Operand.occurrences : Operand → (level before : ℕ) → List Occurrence
  | .number value, level, before => [⟨.number value, level, before⟩]
  | .identifier name, level, before => [⟨.identifier name, level, before⟩]
  | .call name arguments, level, before =>
    ⟨.call name arguments, level, before⟩ :: arguments.occurrences (level + 1) (before + 2)
  | .group inner, level, before =>
    ⟨.group inner, level, before⟩ :: inner.occurrences (level + 1) (before + 1)
  | .signed sign operand, level, before =>
    ⟨.signed sign operand, level, before⟩ :: operand.occurrences (level + 1) (before + 1)

/-- The operands of a term that stands at a level after some tokens, each of its own operands as
many levels deeper as there are operators before it. -/
def Term.occurrences : Term → (level before : ℕ) → List Occurrence
  | .operand only, level, before => only.occurrences level before
  | .operation left _ _ right, level, before =>
    left.occurrences level before ++
      right.occurrences (level + (left.operators + 1)) (before + (left.tokens.length + 1))

/-- The operands of a formula that stands at a level after some tokens, each of its later terms
as many levels deeper as its first term has operators and additive operators are before it. -/
def Expression.occurrences : Expression → (level before : ℕ) → List Occurrence
  | .term only, level, before => only.occurrences level before
  | .operation left _ _ right, level, before =>
    left.occurrences level before ++
      right.occurrences (level + (left.operators + 1)) (before + (left.tokens.length + 1))

/-- The operands of arguments that stand at a level after some tokens. -/
def Arguments.occurrences : Arguments → (level before : ℕ) → List Occurrence
  | .last argument, level, before => argument.occurrences level before
  | .more argument others, level, before =>
    argument.occurrences level before ++
      others.occurrences level (before + (argument.tokens.length + 1))

end

/-- An occurrence's operand is derived by the tokens that stand where it says, the first of the
tokens having as many before it. -/
def Occurrence.StandsIn (occurrence : Occurrence) (tokens : List Token) (before : ℕ) : Prop :=
  ∃ front back, tokens = front ++ (occurrence.operand.tokens ++ back) ∧
    occurrence.before = before + front.length

/-- An operand is derived by at least one token. -/
theorem Operand.exists_tokens_eq_cons (operand : Operand) :
    ∃ first others, operand.tokens = first :: others := by
  cases operand <;> exact ⟨_, _, rfl⟩

section StandsIn

variable {occurrence : Occurrence} {tokens : List Token} {before : ℕ}

/-- An operand stands in its own tokens. -/
theorem Operand.standsIn (operand : Operand) (level before : ℕ) :
    Occurrence.StandsIn ⟨operand, level, before⟩ operand.tokens before :=
  ⟨[], [], by simp, rfl⟩

/-- What stands in tokens stands in more of them. -/
theorem Occurrence.StandsIn.append (h : occurrence.StandsIn tokens before) (more : List Token) :
    occurrence.StandsIn (tokens ++ more) before := by
  obtain ⟨front, back, rfl, hbefore⟩ := h
  exact ⟨front, back ++ more, by simp, hbefore⟩

/-- What stands in tokens stands after those put in front of them. -/
theorem Occurrence.StandsIn.append_left (front : List Token)
    (h : occurrence.StandsIn tokens (before + front.length)) :
    occurrence.StandsIn (front ++ tokens) before := by
  obtain ⟨front', back, rfl, hbefore⟩ := h
  exact ⟨front ++ front', back, by simp, by rw [hbefore, List.length_append, Nat.add_assoc]⟩

/-- What stands in tokens stands after tokens put in front of them with one more between. -/
theorem Occurrence.StandsIn.append_cons {front : List Token} (between : Token)
    (h : occurrence.StandsIn tokens (before + (front.length + 1))) :
    occurrence.StandsIn (front ++ between :: tokens) before := by
  have hfront : occurrence.StandsIn ((front ++ [between]) ++ tokens) before :=
    Occurrence.StandsIn.append_left _ (by simpa using h)
  simpa using hfront

/-- What stands in tokens does not stand before them. -/
theorem Occurrence.StandsIn.le (h : occurrence.StandsIn tokens before) :
    before ≤ occurrence.before := by
  obtain ⟨front, back, -, hbefore⟩ := h
  omega

/-- What stands in tokens does not stand after them. -/
theorem Occurrence.StandsIn.lt (h : occurrence.StandsIn tokens before) :
    occurrence.before < before + tokens.length := by
  obtain ⟨front, back, rfl, hbefore⟩ := h
  obtain ⟨first, others, hfirst⟩ := occurrence.operand.exists_tokens_eq_cons
  simp only [hfirst, List.length_append, List.length_cons]
  omega

/-- The operand starts with the token that stands where it says. -/
theorem Occurrence.StandsIn.getElem? (h : occurrence.StandsIn tokens 0) :
    tokens[occurrence.before]? = occurrence.operand.tokens.head? := by
  obtain ⟨front, back, rfl, hbefore⟩ := h
  obtain ⟨first, others, hfirst⟩ := occurrence.operand.exists_tokens_eq_cons
  rw [Nat.zero_add] at hbefore
  simp [hbefore, hfirst]

end StandsIn

mutual

/-- The operands inside an operand stand in its tokens. -/
theorem Operand.standsIn_of_mem (operand : Operand) {level before : ℕ}
    {occurrence : Occurrence} (h : occurrence ∈ operand.occurrences level before) :
    occurrence.StandsIn operand.tokens before := by
  cases operand with
  | number value =>
    obtain rfl := List.mem_singleton.1 h
    exact Operand.standsIn _ _ _
  | identifier name =>
    obtain rfl := List.mem_singleton.1 h
    exact Operand.standsIn _ _ _
  | call name arguments =>
    obtain rfl | hinside := List.mem_cons.1 h
    · exact Operand.standsIn _ _ _
    · exact .append_left [_, _] ((arguments.standsIn_of_mem hinside).append _)
  | group inner =>
    obtain rfl | hinside := List.mem_cons.1 h
    · exact Operand.standsIn _ _ _
    · exact .append_left [_] ((inner.standsIn_of_mem hinside).append _)
  | signed sign operand =>
    obtain rfl | hinside := List.mem_cons.1 h
    · exact Operand.standsIn _ _ _
    · exact .append_left [_] (operand.standsIn_of_mem hinside)

/-- The operands of a term stand in its tokens. -/
theorem Term.standsIn_of_mem (term : Term) {level before : ℕ} {occurrence : Occurrence}
    (h : occurrence ∈ term.occurrences level before) :
    occurrence.StandsIn term.tokens before := by
  cases term with
  | operand only => exact only.standsIn_of_mem h
  | operation left op tight right =>
    obtain hleft | hright := List.mem_append.1 h
    · exact (left.standsIn_of_mem hleft).append _
    · exact (right.standsIn_of_mem hright).append_cons _

/-- The operands of a formula stand in its tokens. -/
theorem Expression.standsIn_of_mem (expression : Expression) {level before : ℕ}
    {occurrence : Occurrence} (h : occurrence ∈ expression.occurrences level before) :
    occurrence.StandsIn expression.tokens before := by
  cases expression with
  | term only => exact only.standsIn_of_mem h
  | operation left op loose right =>
    obtain hleft | hright := List.mem_append.1 h
    · exact (left.standsIn_of_mem hleft).append _
    · exact (right.standsIn_of_mem hright).append_cons _

/-- The operands of arguments stand in their tokens. -/
theorem Arguments.standsIn_of_mem (arguments : Arguments) {level before : ℕ}
    {occurrence : Occurrence} (h : occurrence ∈ arguments.occurrences level before) :
    occurrence.StandsIn arguments.tokens before := by
  cases arguments with
  | last argument => exact argument.standsIn_of_mem h
  | more argument others =>
    obtain hfirst | hothers := List.mem_append.1 h
    · exact (argument.standsIn_of_mem hfirst).append _
    · exact (others.standsIn_of_mem hothers).append_cons _

end

/-- Occurrences are listed from left to right. -/
def Ordered (occurrences : List Occurrence) : Prop :=
  occurrences.Pairwise fun occurrence later => occurrence.before < later.before

/-- An operand comes before those inside it, which are listed from left to right. -/
theorem ordered_cons {operand : Operand} {level before skipped : ℕ} {tokens : List Token}
    {occurrences : List Occurrence} (hskipped : 0 < skipped)
    (hinside : ∀ occurrence ∈ occurrences, occurrence.StandsIn tokens (before + skipped))
    (hordered : Ordered occurrences) : Ordered (⟨operand, level, before⟩ :: occurrences) := by
  refine List.pairwise_cons.2 ⟨fun occurrence h => ?_, hordered⟩
  have hle := (hinside occurrence h).le
  dsimp only
  omega

/-- The operands before an operator come before those after it. -/
theorem ordered_append {before skipped : ℕ} {tokens tokens' : List Token}
    {occurrences occurrences' : List Occurrence}
    (hstand : ∀ occurrence ∈ occurrences, occurrence.StandsIn tokens before)
    (hstand' : ∀ occurrence ∈ occurrences',
      occurrence.StandsIn tokens' (before + (tokens.length + skipped)))
    (hordered : Ordered occurrences) (hordered' : Ordered occurrences') :
    Ordered (occurrences ++ occurrences') := by
  refine List.pairwise_append.2 ⟨hordered, hordered', fun occurrence h later hlater => ?_⟩
  have hlt := (hstand occurrence h).lt
  have hle := (hstand' later hlater).le
  omega

mutual

/-- An operand and those inside it are listed from left to right. -/
theorem Operand.ordered (operand : Operand) (level before : ℕ) :
    Ordered (operand.occurrences level before) := by
  cases operand with
  | number value => exact List.pairwise_singleton _ _
  | identifier name => exact List.pairwise_singleton _ _
  | call name arguments =>
    exact ordered_cons Nat.two_pos (fun _ h => arguments.standsIn_of_mem h)
      (arguments.ordered _ _)
  | group inner =>
    exact ordered_cons Nat.one_pos (fun _ h => inner.standsIn_of_mem h) (inner.ordered _ _)
  | signed sign operand =>
    exact ordered_cons Nat.one_pos (fun _ h => operand.standsIn_of_mem h) (operand.ordered _ _)

/-- The operands of a term are listed from left to right. -/
theorem Term.ordered (term : Term) (level before : ℕ) :
    Ordered (term.occurrences level before) := by
  cases term with
  | operand only => exact only.ordered level before
  | operation left op tight right =>
    exact ordered_append (fun _ h => left.standsIn_of_mem h)
      (fun _ h => right.standsIn_of_mem h) (left.ordered _ _) (right.ordered _ _)

/-- The operands of a formula are listed from left to right. -/
theorem Expression.ordered (expression : Expression) (level before : ℕ) :
    Ordered (expression.occurrences level before) := by
  cases expression with
  | term only => exact only.ordered level before
  | operation left op loose right =>
    exact ordered_append (fun _ h => left.standsIn_of_mem h)
      (fun _ h => right.standsIn_of_mem h) (left.ordered _ _) (right.ordered _ _)

/-- The operands of arguments are listed from left to right. -/
theorem Arguments.ordered (arguments : Arguments) (level before : ℕ) :
    Ordered (arguments.occurrences level before) := by
  cases arguments with
  | last argument => exact argument.ordered level before
  | more argument others =>
    exact ordered_append (fun _ h => argument.standsIn_of_mem h)
      (fun _ h => others.standsIn_of_mem h) (argument.ordered _ _) (others.ordered _ _)

end

/-- The place of the first occurrence at a level. -/
def placeAt (level : ℕ) (occurrences : List Occurrence) : Option ℕ :=
  (occurrences.find? fun occurrence => occurrence.level == level).map Occurrence.before

/-- The first of the occurrences at a level is the first in the first part that has one. -/
theorem placeAt_append (level : ℕ) (occurrences occurrences' : List Occurrence) :
    placeAt level (occurrences ++ occurrences') =
      (placeAt level occurrences).or (placeAt level occurrences') := by
  simp only [placeAt, List.find?_append, Option.map_or]

/-- An operand at a higher level is not the one looked for. -/
theorem placeAt_cons_succ (operand : Operand) (level before room : ℕ)
    (occurrences : List Occurrence) :
    placeAt (level + (room + 1)) (⟨operand, level, before⟩ :: occurrences) =
      placeAt (level + 1 + room) occurrences := by
  have hlevel : level + (room + 1) = level + 1 + room := by omega
  have hne : (level == level + 1 + room) = false := beq_eq_false_iff_ne.2 (by omega)
  simp only [placeAt, hlevel, List.find?_cons, hne]

/-- Tokens skipped twice are skipped together. -/
theorem map_add_map_add (count? : Option ℕ) (skipped before : ℕ) :
    (count?.map (· + skipped)).map (· + before) = count?.map (· + (before + skipped)) := by
  rw [Option.map_map]
  congr 1
  funext count
  simp only [Function.comp_apply]
  omega

/-- In a chain, the room is overrun where the first operand of its left part or of its right one
stands at the level looked for, given this for both parts. -/
theorem placeAt_chain {levels operators level before room skipped : ℕ}
    {left right : List Occurrence} {left? : Option ℕ} {right? : ℕ → Option ℕ}
    (hoperators : operators < levels)
    (hnone : left? = none ↔ levels ≤ room)
    (hleft : left?.map (· + before) = placeAt (level + room) left)
    (hright : ∀ room, (right? room).map (· + (before + skipped)) =
      placeAt (level + (operators + 1) + room) right) :
    (left?.or ((right? (room - operators - 1)).map (· + skipped))).map (· + before) =
      placeAt (level + room) (left ++ right) := by
  rw [placeAt_append, ← hleft]
  cases left? with
  | some count => rfl
  | none =>
    -- The left part takes up a level for each of its operators and one more.
    have hlevels := hnone.1 rfl
    have hlevel : level + room = level + (operators + 1) + (room - operators - 1) := by omega
    rw [hlevel, ← hright, Option.map_none, Option.none_or, Option.none_or, map_add_map_add]

mutual

/-- An operand overruns a room where the first operand stands that many levels deeper. -/
theorem Operand.overrun?_eq_placeAt (operand : Operand) (level before room : ℕ) :
    (operand.overrun? room).map (· + before) =
      placeAt (level + room) (operand.occurrences level before) := by
  cases room with
  | zero => cases operand <;> simp [Operand.occurrences, placeAt]
  | succ room =>
    cases operand with
    | number value => simp [Operand.occurrences, Operand.overrun?, placeAt]
    | identifier name => simp [Operand.occurrences, Operand.overrun?, placeAt]
    | call name arguments =>
      rw [Operand.overrun?, Operand.occurrences, placeAt_cons_succ, map_add_map_add,
        arguments.overrun?_eq_placeAt]
    | group inner =>
      rw [Operand.overrun?, Operand.occurrences, placeAt_cons_succ, map_add_map_add,
        inner.overrun?_eq_placeAt]
    | signed sign operand =>
      rw [Operand.overrun?, Operand.occurrences, placeAt_cons_succ, map_add_map_add,
        operand.overrun?_eq_placeAt]

/-- A term overruns a room where the first operand stands that many levels deeper. -/
theorem Term.overrun?_eq_placeAt (term : Term) (level before room : ℕ) :
    (term.overrun? room).map (· + before) =
      placeAt (level + room) (term.occurrences level before) := by
  cases term with
  | operand only => exact only.overrun?_eq_placeAt level before room
  | operation left op tight right =>
    exact placeAt_chain left.operators_lt_levels (left.overrun?_eq_none_iff room)
      (left.overrun?_eq_placeAt level before room)
      (fun room => right.overrun?_eq_placeAt _ _ room)

/-- A formula overruns a room where the first operand stands that many levels deeper. -/
theorem Expression.overrun?_eq_placeAt (expression : Expression) (level before room : ℕ) :
    (expression.overrun? room).map (· + before) =
      placeAt (level + room) (expression.occurrences level before) := by
  cases expression with
  | term only => exact only.overrun?_eq_placeAt level before room
  | operation left op loose right =>
    exact placeAt_chain left.operators_lt_levels (left.overrun?_eq_none_iff room)
      (left.overrun?_eq_placeAt level before room)
      (fun room => right.overrun?_eq_placeAt _ _ room)

/-- Arguments overrun a room where the first operand stands that many levels deeper. -/
theorem Arguments.overrun?_eq_placeAt (arguments : Arguments) (level before room : ℕ) :
    (arguments.overrun? room).map (· + before) =
      placeAt (level + room) (arguments.occurrences level before) := by
  cases arguments with
  | last argument => exact argument.overrun?_eq_placeAt level before room
  | more argument others =>
    rw [Arguments.overrun?, Arguments.occurrences, placeAt_append, Option.map_or,
      map_add_map_add, argument.overrun?_eq_placeAt level, others.overrun?_eq_placeAt level]

end

/-- A formula takes up as many levels as its operands need. -/
theorem Expression.levels_le_iff (expression : Expression) (level before room : ℕ) :
    expression.levels ≤ room ↔
      ∀ occurrence ∈ expression.occurrences level before, occurrence.level < level + room := by
  have hplace (room : ℕ) : expression.levels ≤ room ↔
      ∀ occurrence ∈ expression.occurrences level before, occurrence.level ≠ level + room := by
    have hoverrun := expression.overrun?_eq_placeAt level before room
    rw [← expression.overrun?_eq_none_iff, ← Option.map_eq_none_iff, hoverrun]
    simp [placeAt]
  constructor
  · intro hlevels occurrence hmem
    refine Nat.lt_of_not_le fun hdeep => ?_
    -- An operand that is deeper still would stand at a level that is not taken up either.
    obtain ⟨extra, hextra⟩ := Nat.exists_eq_add_of_le hdeep
    exact (hplace (room + extra)).1 (by omega) occurrence hmem (by omega)
  · exact fun hall => (hplace room).2 fun occurrence hmem => Nat.ne_of_lt (hall occurrence hmem)

/-- An occurrence at a level, with no other one at that level before it. -/
structure IsFirstAt (level : ℕ) (occurrences : List Occurrence) (first : Occurrence) : Prop where
  mem : first ∈ occurrences
  level_eq : first.level = level
  before_le : ∀ occurrence ∈ occurrences, occurrence.level = level →
    first.before ≤ occurrence.before

/-- The place of the first occurrence at a level is that of the leftmost one. -/
theorem exists_isFirstAt {level before : ℕ} {occurrences : List Occurrence}
    (hordered : Ordered occurrences) (h : placeAt level occurrences = some before) :
    ∃ first, IsFirstAt level occurrences first ∧ first.before = before := by
  obtain ⟨first, hfind, rfl⟩ := Option.map_eq_some_iff.1 h
  obtain ⟨hlevel, front, back, rfl, hfront⟩ := List.find?_eq_some_iff_append.1 hfind
  refine ⟨first, ⟨by simp, by simpa using hlevel, fun occurrence hmem hother => ?_⟩, rfl⟩
  have hback := (List.pairwise_append.1 hordered).2.1
  obtain hearlier | hlater := List.mem_append.1 hmem
  · exact absurd hother (by simpa using hfront occurrence hearlier)
  · obtain rfl | hlater := List.mem_cons.1 hlater
    · exact Nat.le_refl _
    · exact Nat.le_of_lt ((List.pairwise_cons.1 hback).1 occurrence hlater)

end Calculator.Grammar

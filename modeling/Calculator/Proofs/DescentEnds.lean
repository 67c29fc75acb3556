import Calculator.Proofs.Descent
import Calculator.Proofs.Lookahead

/-!
# The descent ends

From every position and every depth each routine comes to an end, and it ends with what the
readers give for the tokens from there on and the levels that are left. The induction is on these
levels: a routine that enters another one with the same number of levels does so in the order of
the routines, and the first operand of a chain has been read before its operations go on.
-/

namespace Calculator.Descent

open Formula

/-- What was wanted where the descent stopped, and the tokens from there on. -/
structure Complaint where
  wanted : String
  rest : List PlacedToken

/-- A reading with its refusal in words. -/
def told (reading : Except Refusal (Reading Formula)) : Except Complaint (Reading Formula) :=
  reading.mapError fun refusal => ⟨refusal.expected.describe, refusal.rest⟩

/-- What the readers give for the tokens that a routine is entered at, with `room` levels left. -/
def Routine.read (room : ℕ) (tokens : List PlacedToken) :
    Routine → Except Complaint (Reading Formula)
  | .formula => told (readFormula room tokens)
  | .chain least => told (readChain room least tokens)
  | .operand => told (readOperand room tokens)
  | .signed => told (readOperand (room + 1) tokens)
  | .primary =>
    match tokens with
    | ⟨.mark (.operator _), _⟩ :: _ => .error ⟨Expectation.operand.describe, tokens⟩
    | _ => told (readOperand (room + 1) tokens)
  | .call name =>
    if next? tokens 0 = some (.mark .opening) then told do
      let (arguments, rest) ← readArguments (readFormula room) tokens.length tokens.tail
      return (.call name arguments, ← afterClosing .argumentEnd rest)
    else .error ⟨"'('", tokens⟩

/-- The fewest tokens that a routine reads: those of a call are two parentheses and an argument. -/
def Routine.fewest : Routine → ℕ
  | call _ => 3
  | _ => 1

/-- From one state the descent comes to the end of what was begun over these frames: with a
formula at the given depth, at least `advance` tokens further on, or with a complaint and levels
that are not given back. -/
def Ends (tokens : List PlacedToken) (start : State) (frames : List Frame) (advance depth : ℕ) :
    Except Complaint (Reading Formula) → Prop
  | .ok (formula, rest) => ∃ position, rest = tokens.drop position ∧
      start.position + advance ≤ position ∧ position ≤ tokens.length ∧
      Reaches tokens start ⟨.leave (.ok formula), frames, position, depth⟩
  | .error complaint => ∃ position depth', complaint.rest = tokens.drop position ∧
      start.position ≤ position ∧ position ≤ tokens.length ∧
      depth ≤ depth' ∧ depth' ≤ nestingLimit ∧
      Reaches tokens start ⟨.leave (.error complaint.wanted), frames, position, depth'⟩

variable {tokens : List PlacedToken} {frames : List Frame} {position depth room : ℕ}

section Ends

variable {start next : State} {advance advance' depth' : ℕ}
  {result : Except Complaint (Reading Formula)}

/-- A routine left with a formula has ended. -/
theorem ends_ok (formula : Formula) (hposition : position ≤ tokens.length) :
    Ends tokens ⟨.leave (.ok formula), frames, position, depth⟩ frames 0 depth
      (.ok (formula, tokens.drop position)) :=
  ⟨position, rfl, Nat.le_refl _, hposition, .refl⟩

/-- A routine left with a complaint has ended. -/
theorem ends_error (wanted : String) (hposition : position ≤ tokens.length)
    (hdepth : depth ≤ depth') (hlimit : depth' ≤ nestingLimit) :
    Ends tokens ⟨.leave (.error wanted), frames, position, depth'⟩ frames advance depth
      (.error ⟨wanted, tokens.drop position⟩) :=
  ⟨position, depth', rfl, Nat.le_refl _, hposition, hdepth, hlimit, .refl⟩

/-- The end is the same from a state on the way before. -/
theorem Ends.of_reaches (h : Ends tokens next frames advance depth result)
    (hreaches : Reaches tokens start next) (hposition : start.position ≤ next.position)
    (hadvance : start.position + advance' ≤ next.position + advance) :
    Ends tokens start frames advance' depth result := by
  cases result with
  | ok reading =>
    obtain ⟨position, hrest, hfurther, hend, hafter⟩ := h
    exact ⟨position, hrest, Nat.le_trans hadvance hfurther, hend, hreaches.trans hafter⟩
  | error complaint =>
    obtain ⟨position, depth', hrest, hfurther, hend, hdepth, hlimit, hafter⟩ := h
    exact ⟨position, depth', hrest, Nat.le_trans hposition hfurther, hend, hdepth, hlimit,
      hreaches.trans hafter⟩

/-- The end is the same before a step that takes no token. -/
theorem Ends.of_stay (h : Ends tokens next frames advance depth result)
    (hstep : step tokens start = some next) (hposition : next.position = start.position) :
    Ends tokens start frames advance depth result :=
  h.of_reaches (.single hstep) (Nat.le_of_eq hposition.symm) (Nat.le_of_eq (by rw [hposition]))

/-- The end is the same before a step that takes a token, and one token further on. -/
theorem Ends.of_take (h : Ends tokens next frames advance depth result)
    (hstep : step tokens start = some next) (hposition : next.position = start.position + 1)
    (hadvance : advance' ≤ advance + 1) : Ends tokens start frames advance' depth result :=
  h.of_reaches (.single hstep) (by omega) (by omega)

/-- An operand gives its level back, be it read or refused. -/
theorem Ends.level (h : Ends tokens start (.level :: frames) advance (depth + 1) result) :
    Ends tokens start frames advance depth result := by
  cases result with
  | ok reading =>
    obtain ⟨position, hrest, hadvance, hend, hreaches⟩ := h
    exact ⟨position, hrest, hadvance, hend,
      hreaches.tail (resume_level (Nat.succ_pos depth) tokens frames position _)⟩
  | error complaint =>
    obtain ⟨position, depth', hrest, hadvance, hend, hdepth, hlimit, hreaches⟩ := h
    have hlevel : 1 ≤ depth' := by omega
    exact ⟨position, depth' - 1, hrest, hadvance, hend, by omega, by omega,
      hreaches.tail (resume_level hlevel tokens frames position _)⟩

/-- A routine that takes the next token as the last one has ended. -/
theorem ends_taken {formula : Formula}
    (hstep : step tokens start =
      some ⟨.leave (.ok formula), frames, start.position + 1, depth⟩)
    (hlt : start.position < tokens.length) :
    Ends tokens start frames 1 depth (.ok (formula, tokens.drop (start.position + 1))) :=
  (ends_ok formula hlt).of_take hstep rfl (Nat.le_refl 1)

/-- A routine that is refused at the next token has ended. -/
theorem ends_refused {expected : Expectation} {rest : List PlacedToken}
    (hstep : step tokens start =
      some ⟨.leave (.error expected.describe), frames, start.position, depth⟩)
    (hrest : tokens.drop start.position = rest) (hposition : start.position ≤ tokens.length)
    (hlimit : depth ≤ nestingLimit) :
    Ends tokens start frames advance depth (told (.error ⟨expected, rest⟩)) := by
  subst hrest
  exact (ends_error expected.describe hposition (Nat.le_refl depth) hlimit).of_stay hstep rfl

/-- No frame but that of an operand does anything about a complaint. -/
theorem resume_error {frame : Frame} (h : frame.isLevel = false) (wanted : String) :
    resume tokens frames position depth frame (.error wanted) =
      some ⟨.leave (.error wanted), frames, position, depth⟩ := by
  cases frame with
  | level => cases h
  | first | right | sign | group | argument => rfl

/-- A reading goes on with the formula that a frame has waited for, and a complaint passes the
frame. -/
theorem Ends.bind {frame : Frame} {reading : Except Refusal (Reading Formula)}
    {second : Reading Formula → Except Refusal (Reading Formula)}
    (h : Ends tokens start (frame :: frames) advance depth' (told reading))
    (hframe : frame.isLevel = false) (hdepth : depth ≤ depth') (advance' : ℕ)
    (hsecond : ∀ formula position, reading = .ok (formula, tokens.drop position) →
      start.position + advance ≤ position → position ≤ tokens.length →
      Ends tokens ⟨.leave (.ok formula), frame :: frames, position, depth'⟩ frames advance' depth
        (told (second (formula, tokens.drop position)))) :
    Ends tokens start frames (advance + advance') depth (told (reading >>= second)) := by
  cases reading with
  | ok pair =>
    obtain ⟨position, hrest, hadvance, hend, hreaches⟩ := h
    have hafter := hsecond pair.1 position (by rw [← hrest]) hadvance hend
    rw [← hrest] at hafter
    exact hafter.of_reaches hreaches (Nat.le_of_add_right_le hadvance)
      (by rw [← Nat.add_assoc]; exact Nat.add_le_add_right hadvance advance')
  | error refusal =>
    obtain ⟨position, depth'', hrest, hadvance, hend, hlevel, hlimit, hreaches⟩ := h
    exact ⟨position, depth'', hrest, hadvance, hend, Nat.le_trans hdepth hlevel, hlimit,
      hreaches.tail (resume_error hframe _)⟩

end Ends

/-- The next token at a position is the first one of those from there on. -/
theorem next?_drop (tokens : List PlacedToken) (position : ℕ) :
    next? (tokens.drop position) 0 = next? tokens position := by
  simp [next?]

/-- A next token stands in front of those after it. -/
theorem exists_drop_eq_cons {token : Token} (h : next? tokens position = some token) :
    ∃ place, tokens.drop position = ⟨token, place⟩ :: tokens.drop (position + 1) := by
  have hlt := lt_length_of_next? h
  simp only [next?, List.getElem?_eq_getElem hlt, Option.map_some, Option.some.injEq] at h
  subst h
  exact ⟨tokens[position].position, List.drop_eq_getElem_cons hlt⟩

/-- Without a next token none is left. -/
theorem drop_eq_nil (h : next? tokens position = none) : tokens.drop position = [] := by
  simpa [next?] using h

/-- Wherever a routine is entered with this many levels left, it ends as the readers do. -/
def Routine.Ends (tokens : List PlacedToken) (room : ℕ) (routine : Routine) : Prop :=
  ∀ frames position depth, position ≤ tokens.length → depth + room = nestingLimit →
    Descent.Ends tokens ⟨.enter routine, frames, position, depth⟩ frames routine.fewest depth
      (routine.read room (tokens.drop position))

/-- Wherever operations are read with this many levels left, they end as the readers do. -/
def OperationsEnd (tokens : List PlacedToken) (room : ℕ) : Prop :=
  ∀ least spine left frames position depth, position ≤ tokens.length →
    depth + spine + room = nestingLimit →
    Ends tokens ⟨.operations least spine left, frames, position, depth + spine⟩ frames 0 depth
      (told (readOperations room least left (tokens.drop position)))

/-- Without a level left an operand is refused. -/
theorem operand_ends_zero : Routine.operand.Ends tokens 0 := by
  intro frames position depth hposition hroom
  have hlimit : nestingLimit ≤ depth := Nat.le_of_eq hroom.symm
  have hstep : step tokens ⟨.enter .operand, frames, position, depth⟩ =
      some ⟨.leave (.error Expectation.shallower.describe), frames, position, depth⟩ := by
    rw [step, enter, if_pos hlimit]
  rw [Routine.read, readOperand]
  exact ends_refused hstep rfl hposition (Nat.le_of_eq hroom)

/-- An operand with a level for it ends if what stands on this level does. -/
theorem operand_ends_succ (hsigned : Routine.signed.Ends tokens room) :
    Routine.operand.Ends tokens (room + 1) := by
  intro frames position depth hposition hroom
  have hlimit : ¬nestingLimit ≤ depth := by omega
  have hstep : step tokens ⟨.enter .operand, frames, position, depth⟩ =
      some ⟨.enter .signed, .level :: frames, position, depth + 1⟩ := by
    rw [step, enter, if_neg hlimit]
  have hinner := hsigned (.level :: frames) position (depth + 1) hposition (by omega)
  exact hinner.level.of_stay hstep rfl

/-- No operand is read without a level left. -/
theorem pos_of_readOperand {rest rest' : List PlacedToken} {formula : Formula}
    (h : readOperand room rest = .ok (formula, rest')) : 0 < room := by
  cases room with
  | zero =>
    rw [readOperand] at h
    cases h
  | succ room => exact Nat.succ_pos room

/-- No chain is read without a level left. -/
theorem pos_of_readChain {least : ℕ} {rest rest' : List PlacedToken} {formula : Formula}
    (h : readChain room least rest = .ok (formula, rest')) : 0 < room := by
  obtain ⟨_, hfirst, _⟩ := exists_of_bind_eq_ok h
  exact pos_of_readOperand hfirst

/-- A chain ends if operands and operations do. -/
theorem chain_ends (hoperand : Routine.operand.Ends tokens room)
    (hoperations : 0 < room → OperationsEnd tokens room) (least : ℕ) :
    (Routine.chain least).Ends tokens room := by
  intro frames position depth hposition hroom
  have hfirst := hoperand (.first least :: frames) position depth hposition hroom
  have hchain : Ends tokens ⟨.enter .operand, .first least :: frames, position, depth⟩ frames 1
      depth (told (readChain room least (tokens.drop position))) := by
    refine hfirst.bind rfl (Nat.le_refl depth) 0 ?_
    intro first position' hread _ hposition'
    exact (hoperations (pos_of_readOperand hread) least 0 first frames position' depth hposition'
      hroom).of_stay rfl rfl
  exact hchain.of_stay rfl rfl

/-- A formula ends if chains do. -/
theorem formula_ends (hchain : ∀ least, (Routine.chain least).Ends tokens room) :
    Routine.formula.Ends tokens room := by
  intro frames position depth hposition hroom
  exact (hchain Operator.additive frames position depth hposition hroom).of_stay rfl rfl

/-- The end of a call after its arguments, the first ones of which have been read before. -/
def closeCall (name : String) (before : List Formula) :
    Reading (List Formula) → Except Refusal (Reading Formula)
  | (arguments, rest) => do
    return (.call name (before ++ arguments), ← afterClosing .argumentEnd rest)

/-- After a comma an argument goes to those that have been read before. -/
theorem readOthers_comma_bind_closeCall
    (formula : List PlacedToken → Except Refusal (Reading Formula)) (bound : ℕ)
    (argument : Formula) (place : ℕ) (rest : List PlacedToken) (name : String)
    (before : List Formula) :
    readOthers formula bound argument (⟨.mark .comma, place⟩ :: rest) >>= closeCall name before =
      readArguments formula bound rest >>= closeCall name (before ++ [argument]) := by
  rw [readOthers, bind_assoc]
  congr 1
  funext reading
  obtain ⟨others, rest⟩ := reading
  change closeCall name before (argument :: others, rest) = _
  rw [closeCall, closeCall, List.append_assoc, List.singleton_append]

/-- No argument is read where no comma is next. -/
theorem readOthers_of_next? {rest : List PlacedToken} (h : next? rest 0 ≠ some (.mark .comma))
    (formula : List PlacedToken → Except Refusal (Reading Formula)) (bound : ℕ)
    (argument : Formula) : readOthers formula bound argument rest = .ok ([argument], rest) := by
  cases rest with
  | nil => rfl
  | cons first rest =>
    exact readOthers_of_ne (fun hcomma => h (congrArg some hcomma)) formula bound argument rest

/-- What has to close is refused where no closing parenthesis is next. -/
theorem afterClosing_of_next? {rest : List PlacedToken} (h : next? rest 0 ≠ some (.mark .closing))
    (expected : Expectation) : afterClosing expected rest = .error ⟨expected, rest⟩ := by
  cases rest with
  | nil => rfl
  | cons first rest => exact afterClosing_cons (fun hclosing => h (congrArg some hclosing)) _ _

/-- Arguments and the end of their call end if formulas do. -/
theorem arguments_end (hformula : Routine.formula.Ends tokens room) (name : String) (bound : ℕ) :
    ∀ before frames position depth, position ≤ tokens.length → depth + room = nestingLimit →
      tokens.length - position < bound →
      Ends tokens ⟨.enter .formula, .argument name before :: frames, position, depth⟩ frames 2 depth
        (told (readArguments (readFormula room) bound (tokens.drop position) >>=
          closeCall name before)) := by
  induction bound with
  | zero =>
    intro before frames position depth _ _ hbound
    exact absurd hbound (Nat.not_lt_zero _)
  | succ bound ih =>
    intro before frames position depth hposition hroom hbound
    have hfirst := hformula (.argument name before :: frames) position depth hposition hroom
    rw [readArguments_succ, bind_assoc]
    refine hfirst.bind rfl (Nat.le_refl depth) 1 ?_
    intro argument position' _ hadvance hposition'
    change position + 1 ≤ position' at hadvance
    by_cases hcomma : next? tokens position' = some (.mark .comma)
    · obtain ⟨place, hrest⟩ := exists_drop_eq_cons hcomma
      have hstep : resume tokens frames position' depth (.argument name before) (.ok argument) =
          some ⟨.enter .formula, .argument name (before ++ [argument]) :: frames,
            position' + 1, depth⟩ := by
        rw [resume, if_pos hcomma]
      have hothers := ih (before ++ [argument]) frames (position' + 1) depth
        (lt_length_of_next? hcomma) hroom (by omega)
      rw [hrest, readOthers_comma_bind_closeCall]
      exact hothers.of_take hstep rfl (Nat.le_add_right _ 2)
    · have hothers : readOthers (readFormula room) bound argument (tokens.drop position') =
          .ok ([argument], tokens.drop position') :=
        readOthers_of_next? (by rwa [next?_drop]) _ _ _
      by_cases hclosing : next? tokens position' = some (.mark .closing)
      · obtain ⟨place, hrest⟩ := exists_drop_eq_cons hclosing
        have hstep : resume tokens frames position' depth (.argument name before) (.ok argument) =
            some ⟨.leave (.ok (.call name (before ++ [argument]))), frames, position' + 1,
              depth⟩ := by
          rw [resume, if_neg hcomma, if_pos hclosing]
        rw [hothers, hrest]
        exact ends_taken hstep (lt_length_of_next? hclosing)
      · have hstep : resume tokens frames position' depth (.argument name before) (.ok argument) =
            some ⟨.leave (.error Expectation.argumentEnd.describe), frames, position', depth⟩ := by
          rw [resume, if_neg hcomma, if_neg hclosing]
        have hclose : closeCall name before ([argument], tokens.drop position') =
            .error ⟨.argumentEnd, tokens.drop position'⟩ := by
          rw [closeCall, afterClosing_of_next? (by rwa [next?_drop])]
          rfl
        rw [hothers]
        change Ends _ _ _ _ _ (told (closeCall name before ([argument], tokens.drop position')))
        rw [hclose]
        exact ends_refused hstep rfl hposition' (by omega)

/-- A call ends if formulas do. -/
theorem call_ends (hformula : Routine.formula.Ends tokens room) (name : String) :
    (Routine.call name).Ends tokens room := by
  intro frames position depth hposition hroom
  rw [Routine.read, next?_drop, List.tail_drop]
  by_cases hopening : next? tokens position = some (.mark .opening)
  · have hstep : step tokens ⟨.enter (.call name), frames, position, depth⟩ =
        some ⟨.enter .formula, .argument name [] :: frames, position + 1, depth⟩ := by
      rw [step, enter, if_pos hopening]
    have hlt := lt_length_of_next? hopening
    have harguments := arguments_end hformula name (tokens.drop position).length [] frames
      (position + 1) depth hlt hroom (by rw [List.length_drop]; omega)
    rw [if_pos hopening]
    exact harguments.of_take hstep rfl (Nat.le_refl 3)
  · have hstep : step tokens ⟨.enter (.call name), frames, position, depth⟩ =
        some ⟨.leave (.error "'('"), frames, position, depth⟩ := by
      rw [step, enter, if_neg hopening]
    rw [if_neg hopening]
    exact (ends_error _ hposition (Nat.le_refl depth) (by omega)).of_stay hstep rfl

/-- A formula in parentheses ends if formulas do. -/
theorem group_ends (hformula : Routine.formula.Ends tokens room)
    (hposition : position ≤ tokens.length) (hroom : depth + room = nestingLimit) :
    Ends tokens ⟨.enter .formula, .group :: frames, position, depth⟩ frames 2 depth
      (told do
        let (inner, rest) ← readFormula room (tokens.drop position)
        return (inner, ← afterClosing .closing rest)) := by
  have hinner := hformula (.group :: frames) position depth hposition hroom
  refine hinner.bind rfl (Nat.le_refl depth) 1 ?_
  intro inner position' _ _ hposition'
  by_cases hclosing : next? tokens position' = some (.mark .closing)
  · obtain ⟨place, hrest⟩ := exists_drop_eq_cons hclosing
    have hstep : resume tokens frames position' depth .group (.ok inner) =
        some ⟨.leave (.ok inner), frames, position' + 1, depth⟩ := by
      rw [resume, if_pos hclosing]
    rw [hrest]
    exact ends_taken hstep (lt_length_of_next? hclosing)
  · have hstep : resume tokens frames position' depth .group (.ok inner) =
        some ⟨.leave (.error Expectation.closing.describe), frames, position', depth⟩ := by
      rw [resume, if_neg hclosing]
    have hclose : afterClosing .closing (tokens.drop position') =
        .error ⟨.closing, tokens.drop position'⟩ := afterClosing_of_next? (by rwa [next?_drop]) _
    change Ends _ _ _ _ _ (told (afterClosing .closing (tokens.drop position') >>= _))
    rw [hclose]
    exact ends_refused hstep rfl hposition' (by omega)

/-- A name is read as a call if a parenthesis opens after it, and as a variable otherwise. -/
theorem read_primary_identifier {rest : List PlacedToken} (room : ℕ) (name : String)
    (place : ℕ) :
    Routine.primary.read room (⟨.identifier name, place⟩ :: rest) =
      if next? rest 0 = some (.mark .opening) then (Routine.call name).read room rest
      else .ok (.variable name, rest) := by
  cases rest with
  | nil => rfl
  | cons first rest =>
    by_cases hopening : first.token = .mark .opening
    · obtain ⟨_, place'⟩ := first
      cases hopening
      rfl
    · have hnext : next? (first :: rest) 0 ≠ some (.mark .opening) := by simpa [next?]
      rw [if_neg hnext]
      exact congrArg told (readOperand_identifier hopening room name place rest)

/-- An operand without a sign ends if formulas and calls do. -/
theorem primary_ends (hformula : Routine.formula.Ends tokens room)
    (hcall : ∀ name, (Routine.call name).Ends tokens room) :
    Routine.primary.Ends tokens room := by
  intro frames position depth hposition hroom
  have hlimit : depth ≤ nestingLimit := by omega
  cases hnext : next? tokens position with
  | none =>
    have hstep : step tokens ⟨.enter .primary, frames, position, depth⟩ =
        some ⟨.leave (.error Expectation.operand.describe), frames, position, depth⟩ := by
      rw [step, enter, hnext]
    have hrest := drop_eq_nil hnext
    rw [hrest]
    exact ends_refused hstep hrest hposition hlimit
  | some token =>
    obtain ⟨place, hrest⟩ := exists_drop_eq_cons hnext
    have hlt := lt_length_of_next? hnext
    rw [hrest]
    cases token with
    | number value =>
      have hstep : step tokens ⟨.enter .primary, frames, position, depth⟩ =
          some ⟨.leave (.ok (.literal value)), frames, position + 1, depth⟩ := by
        rw [step, enter, hnext]
      exact ends_taken hstep hlt
    | identifier name =>
      rw [read_primary_identifier, next?_drop]
      by_cases hopening : next? tokens (position + 1) = some (.mark .opening)
      · have hstep : step tokens ⟨.enter .primary, frames, position, depth⟩ =
            some ⟨.enter (.call name), frames, position + 1, depth⟩ := by
          rw [step, enter, hnext]
          exact congrArg some (if_pos hopening)
        have harguments := hcall name frames (position + 1) depth hlt hroom
        rw [if_pos hopening]
        exact harguments.of_take hstep rfl (Nat.le_add_right _ 3)
      · have hstep : step tokens ⟨.enter .primary, frames, position, depth⟩ =
            some ⟨.leave (.ok (.variable name)), frames, position + 1, depth⟩ := by
          rw [step, enter, hnext]
          exact congrArg some (if_neg hopening)
        rw [if_neg hopening]
        exact ends_taken hstep hlt
    | mark written =>
      cases written with
      | opening =>
        have hstep : step tokens ⟨.enter .primary, frames, position, depth⟩ =
            some ⟨.enter .formula, .group :: frames, position + 1, depth⟩ := by
          rw [step, enter, hnext]
        exact (group_ends hformula hlt hroom).of_take hstep rfl (Nat.le_add_right _ 2)
      | operator | closing | comma =>
        have hstep : step tokens ⟨.enter .primary, frames, position, depth⟩ =
            some ⟨.leave (.error Expectation.operand.describe), frames, position, depth⟩ := by
          rw [step, enter, hnext]
        exact ends_refused hstep hrest hposition hlimit

/-- An operand is read as one without a sign where no sign is next. -/
theorem read_signed_of_next? {rest : List PlacedToken}
    (h : ∀ op, next? rest 0 = some (.mark (.operator op)) → op.sign? = none) (room : ℕ) :
    Routine.signed.read room rest = Routine.primary.read room rest := by
  cases rest with
  | nil => rfl
  | cons first rest =>
    obtain ⟨token, place⟩ := first
    cases token with
    | number | identifier => rfl
    | mark written =>
      cases written with
      | operator op =>
        have hsign := h op rfl
        rw [Routine.read, readOperand_succ]
        simp only [hsign]
        rfl
      | opening | closing | comma => rfl

/-- Nothing is taken where no sign is next. -/
theorem enter_signed_of_next?
    (h : ∀ op, next? tokens position = some (.mark (.operator op)) → op.sign? = none)
    (frames : List Frame) (depth : ℕ) :
    enter tokens frames position depth .signed = ⟨.enter .primary, frames, position, depth⟩ := by
  rw [enter]
  split
  · rename_i op hnext
    simp only [h op hnext]
  · rfl

/-- A signed operand ends if operands and those without a sign do. -/
theorem signed_ends (hoperand : Routine.operand.Ends tokens room)
    (hprimary : Routine.primary.Ends tokens room) : Routine.signed.Ends tokens room := by
  intro frames position depth hposition hroom
  by_cases hsigned : ∃ op sign, next? tokens position = some (.mark (.operator op)) ∧
      op.sign? = some sign
  · obtain ⟨op, sign, hnext, hsign⟩ := hsigned
    obtain ⟨place, hrest⟩ := exists_drop_eq_cons hnext
    have hstep : step tokens ⟨.enter .signed, frames, position, depth⟩ =
        some ⟨.enter .operand, .sign sign :: frames, position + 1, depth⟩ := by
      simp only [step, enter, hnext, hsign]
    have hread : Routine.signed.read room (tokens.drop position) = told do
        let (inner, rest) ← readOperand room (tokens.drop (position + 1))
        return (.unary sign.symbol inner, rest) := by
      rw [hrest, Routine.read, readOperand_succ]
      simp only [hsign]
    have hinner := hoperand (.sign sign :: frames) (position + 1) depth
      (lt_length_of_next? hnext) hroom
    have hunary : Ends tokens ⟨.enter .operand, .sign sign :: frames, position + 1, depth⟩
        frames 1 depth (Routine.signed.read room (tokens.drop position)) := by
      rw [hread]
      refine hinner.bind rfl (Nat.le_refl depth) 0 ?_
      intro inner position' _ _ hposition'
      exact (ends_ok (.unary sign.symbol inner) hposition').of_stay rfl rfl
    exact hunary.of_take hstep rfl (Nat.le_add_right _ 1)
  · have hunsigned (op : Operator)
        (hnext : next? tokens position = some (.mark (.operator op))) : op.sign? = none :=
      Option.eq_none_iff_forall_ne_some.2 fun sign hsign => hsigned ⟨op, sign, hnext, hsign⟩
    have hstep : step tokens ⟨.enter .signed, frames, position, depth⟩ =
        some ⟨.enter .primary, frames, position, depth⟩ :=
      congrArg some (enter_signed_of_next? hunsigned frames depth)
    rw [read_signed_of_next? (by rwa [next?_drop])]
    exact (hprimary frames position depth hposition hroom).of_stay hstep rfl

/-- Operations are read to their end where no operator is next that goes on with them. -/
theorem readOperations_of_next? {least : ℕ} {rest : List PlacedToken}
    (h : ∀ op, next? rest 0 = some (.mark (.operator op)) → op.precedence < least) (room : ℕ)
    (left : Formula) : readOperations room least left rest = .ok (left, rest) := by
  cases rest with
  | nil => cases room <;> rfl
  | cons first rest =>
    exact readOperations_of_loose (fun op hop => h op (congrArg some hop)) room left rest

/-- Operations with a level for their right operands end if chains and operations with one level
less do. -/
theorem operations_end_succ (hchain : ∀ least, (Routine.chain least).Ends tokens room)
    (hoperations : 0 < room → OperationsEnd tokens room) : OperationsEnd tokens (room + 1) := by
  intro least spine left frames position depth hposition hroom
  obtain ⟨op, hnext, htight⟩ | hloose := tight_or_loose tokens position least
  · obtain ⟨place, hrest⟩ := exists_drop_eq_cons hnext
    have hright := hchain (op.precedence + 1) (.right least (spine + 1) left op :: frames)
      (position + 1) (depth + spine + 1) (lt_length_of_next? hnext) (by omega)
    have hothers : Ends tokens ⟨.enter (.chain (op.precedence + 1)),
        .right least (spine + 1) left op :: frames, position + 1, depth + spine + 1⟩ frames 1
        depth (told (readOperations (room + 1) least left (tokens.drop position))) := by
      rw [hrest, readOperations_succ htight]
      refine hright.bind rfl (by omega) 0 ?_
      intro right position' hread _ hposition'
      -- The right operand has been read, so there is a level left for the next operation.
      exact (hoperations (pos_of_readChain hread) least (spine + 1)
        (.binary left op.symbol right) frames position' depth hposition' (by omega)).of_stay
          rfl rfl
    exact hothers.of_take (operations_of_tight hnext htight frames _ spine left) rfl
      (Nat.le_add_right _ 2)
  · rw [readOperations_of_next? (by rwa [next?_drop])]
    exact (ends_ok left hposition).of_stay (operations_of_loose hloose frames depth left) rfl

/-- Every routine ends if operands and operations do. -/
theorem Routine.ends_of_operand (hoperand : Routine.operand.Ends tokens room)
    (hoperations : 0 < room → OperationsEnd tokens room) (routine : Routine) :
    routine.Ends tokens room := by
  have hchain := chain_ends hoperand hoperations
  have hformula := formula_ends hchain
  have hprimary := primary_ends hformula (call_ends hformula)
  cases routine with
  | formula => exact hformula
  | chain least => exact hchain least
  | operand => exact hoperand
  | signed => exact signed_ends hoperand hprimary
  | primary => exact hprimary
  | call name => exact call_ends hformula name

/-- Operands end with any number of levels left, and so do operations if there is one. -/
theorem operand_and_operations_end (tokens : List PlacedToken) (room : ℕ) :
    Routine.operand.Ends tokens room ∧ (0 < room → OperationsEnd tokens room) := by
  induction room with
  | zero => exact ⟨operand_ends_zero, fun h => absurd h (Nat.lt_irrefl 0)⟩
  | succ room ih =>
    obtain ⟨hoperand, hoperations⟩ := ih
    have hroutine := Routine.ends_of_operand hoperand hoperations
    exact ⟨operand_ends_succ (hroutine .signed),
      fun _ => operations_end_succ (fun least => hroutine (.chain least)) hoperations⟩

/-- Every routine ends with any number of levels left. -/
theorem Routine.ends (routine : Routine) (tokens : List PlacedToken) (room : ℕ) :
    routine.Ends tokens room := by
  obtain ⟨hoperand, hoperations⟩ := operand_and_operations_end tokens room
  exact Routine.ends_of_operand hoperand hoperations routine

/-- Every routine ends, wherever it is entered with no more levels taken than there are. The
descent comes to one last state, from every state on the way; it lies no further back and its
depth is no smaller and within the limit. On the way no position is past the end of the tokens,
no more operands stand in each other than there were levels left, and there are always the levels
that are given back. The end is the one of the readers for the tokens from there on and the
levels that are left: a formula, with the depth as it was and at least one token further on, that
of a call at least three, or a complaint. -/
theorem reaches_final (tokens : List PlacedToken) {position depth : ℕ} (routine : Routine)
    (hposition : position ≤ tokens.length) (hdepth : depth ≤ nestingLimit) :
    ∃ final : State, final.IsDone ∧
      Reaches tokens ⟨.enter routine, [], position, depth⟩ final ∧
      (position ≤ final.position ∧ final.position ≤ tokens.length) ∧
      (depth ≤ final.depth ∧ final.depth ≤ nestingLimit) ∧
      (∀ state, Reaches tokens ⟨.enter routine, [], position, depth⟩ state →
        Reaches tokens state final ∧ state.position ≤ tokens.length ∧
          nested state.frames ≤ nestingLimit - depth ∧ state.givesBack ≤ state.depth) ∧
      match routine.read (nestingLimit - depth) (tokens.drop position) with
      | .ok (formula, rest) =>
        final.control = .leave (.ok formula) ∧ tokens.drop final.position = rest ∧
          final.depth = depth ∧ position + routine.fewest ≤ final.position
      | .error complaint =>
        final.control = .leave (.error complaint.wanted) ∧
          tokens.drop final.position = complaint.rest := by
  have hends := routine.ends tokens (nestingLimit - depth) [] position depth hposition
    (Nat.add_sub_cancel' hdepth)
  have hway {final : State} (hdone : final.IsDone)
      (hreaches : Reaches tokens ⟨.enter routine, [], position, depth⟩ final) (state : State)
      (h : Reaches tokens ⟨.enter routine, [], position, depth⟩ state) :
      Reaches tokens state final ∧ state.position ≤ tokens.length ∧
        nested state.frames ≤ nestingLimit - depth ∧ state.givesBack ≤ state.depth := by
    have hbalanced := (balanced_enter routine hposition hdepth).reaches h
    exact ⟨hreaches.of_isDone hdone h, hbalanced.position,
      Nat.le_sub_of_add_le' hbalanced.nesting, hbalanced.givesBack_le⟩
  cases hread : routine.read (nestingLimit - depth) (tokens.drop position) with
  | ok reading =>
    rw [hread] at hends
    obtain ⟨position', hrest, hfurther, hend, hreaches⟩ := hends
    have hdone : State.IsDone ⟨.leave (.ok reading.1), [], position', depth⟩ := ⟨_, rfl, rfl⟩
    exact ⟨_, hdone, hreaches, ⟨Nat.le_of_add_right_le hfurther, hend⟩,
      ⟨Nat.le_refl depth, hdepth⟩, hway hdone hreaches, rfl, hrest.symm, rfl, hfurther⟩
  | error complaint =>
    rw [hread] at hends
    obtain ⟨position', depth', hrest, hfurther, hend, hless, hlimit, hreaches⟩ := hends
    have hdone : State.IsDone ⟨.leave (.error complaint.wanted), [], position', depth'⟩ :=
      ⟨_, rfl, rfl⟩
    exact ⟨_, hdone, hreaches, ⟨hfurther, hend⟩, ⟨hless, hlimit⟩, hway hdone hreaches, rfl,
      hrest.symm⟩

/-- A sum with one level left for it is refused in front of its second operand. -/
theorem reaches_final_refused :
    ∃ final : State, Reaches [⟨.identifier "x", 0⟩, ⟨.mark (.operator .add), 2⟩,
        ⟨.identifier "y", 4⟩] ⟨.enter .formula, [], 0, 255⟩ final ∧
      final.control = .leave (.error "at most 256 levels of nesting") ∧ final.position = 2 := by
  have hread : Routine.formula.read (nestingLimit - 255) [⟨.identifier "x", 0⟩,
      ⟨.mark (.operator .add), 2⟩, ⟨.identifier "y", 4⟩] =
        .error ⟨Expectation.shallower.describe, [⟨.identifier "y", 4⟩]⟩ := rfl
  obtain ⟨final, _, hreaches, _, _, _, hfinal⟩ := reaches_final
    [⟨.identifier "x", 0⟩, ⟨.mark (.operator .add), 2⟩, ⟨.identifier "y", 4⟩] .formula
    (Nat.zero_le _) (by decide : 255 ≤ nestingLimit)
  rw [List.drop_zero, hread] at hfinal
  refine ⟨final, hreaches, hfinal.1, ?_⟩
  have hlength := congrArg List.length hfinal.2
  rw [List.length_drop] at hlength
  change 3 - final.position = 1 at hlength
  omega

end Calculator.Descent

import Calculator.Proofs.Recency

/-!
# Trees that uses share

Each request uses the tree that its text is compiled to. The serial numbers of trees tell them
apart: a tree is made for one text, and a tree made anew has a number that none had before. A
text that is used again gets the tree of its last use exactly if fewer other texts have been used
in between than there is room for.

The induction is over the requests, and what it carries along is the list of all uses so far: a
tree that is kept is the one of the last use of its text.
-/

namespace Calculator

section Lists

variable {α : Type}

/-- The members up to a place are those up to an earlier one, the member there, and those
between the two. -/
theorem take_eq_append_extract {xs : List α} {i j : ℕ} {x : α} (hlt : i < j)
    (h : xs[i]? = some x) : xs.take j = xs.take i ++ x :: xs.extract (i + 1) j := by
  obtain ⟨hlength, rfl⟩ := List.getElem?_eq_some_iff.1 h
  have hsplit : j = i + (j - (i + 1) + 1) := by omega
  rw [hsplit, List.take_add, List.drop_eq_getElem_cons hlength, List.take_succ_cons,
    ← hsplit]

variable [DecidableEq α]

/-- A member is among the ones used last exactly if there are fewer others after its last
place. -/
theorem mem_take_recent_iff {front back : List α} {x : α} (h : x ∉ back) (n : ℕ) :
    x ∈ (front ++ x :: back).dedup.reverse.take n ↔ back.toFinset.card < n := by
  obtain ⟨more, hmore⟩ := List.suffix_union_right front (x :: back.dedup)
  have hrecent : (front ++ x :: back).dedup.reverse =
      back.dedup.reverse ++ x :: more.reverse := by
    rw [List.dedup_append, List.dedup_cons_of_notMem h, ← hmore]
    simp
  rw [hrecent, List.card_toFinset, ← List.length_reverse]
  have hnot : x ∉ back.dedup.reverse := by simpa using h
  generalize back.dedup.reverse = recent at hnot
  rw [List.take_append, List.mem_append]
  constructor
  · rintro (hrecently | hlater)
    · exact absurd (List.mem_of_mem_take hrecently) hnot
    · by_contra hle
      rw [Nat.sub_eq_zero_of_le (Nat.not_lt.1 hle), List.take_zero] at hlater
      cases hlater
  · intro hlt
    obtain ⟨more, hmore⟩ := Nat.exists_eq_add_of_lt (Nat.sub_pos_of_lt hlt)
    rw [hmore]
    exact .inr (by simp)

/-- Leaving out one key does not change what is found for another. -/
theorem lookup_otherEntries {α : Type} (entries : List (String × α)) {key key' : String}
    (h : key' ≠ key) : (otherEntries entries key).lookup key' = entries.lookup key' := by
  rw [otherEntries]
  induction entries with
  | nil => rfl
  | cons entry entries ih =>
    by_cases hkey : entry.1 = key
    · have hother : (key' == entry.1) = false := beq_false_of_ne (hkey ▸ h)
      rw [List.filter_cons_of_neg (by simp [hkey]), ih, List.lookup_cons, hother]
    · rw [List.filter_cons_of_pos (by simp [hkey]), List.lookup_cons, List.lookup_cons, ih]

/-- What is found among the first entries is found among all of them. -/
theorem lookup_of_lookup_take {α : Type} {entries : List (String × α)} {key : String} {value : α}
    {n : ℕ} (h : (entries.take n).lookup key = some value) : entries.lookup key = some value := by
  rw [← List.take_append_drop n entries, List.lookup_append, h, Option.some_or]

end Lists

/-- A request succeeds if compiling its text does. -/
theorem Request.succeeds_eq (request : Request) :
    request.succeeds = (Calculator.compile request.text).isOk := by
  rw [Bool.eq_iff_iff, succeeds_iff]
  cases Calculator.compile request.text with
  | error error => exact ⟨fun ⟨_, h⟩ => (nomatch h), fun h => (nomatch h)⟩
  | ok formula => exact ⟨fun _ => rfl, fun _ => ⟨formula, rfl⟩⟩

namespace Session

open Store

variable {σ σ' : Type} [Store σ Compiled] [Store σ' Compiled]

/-- What the texts of requests are compiled to, one after the other. -/
def compilations (session : Session σ) : List Request → List (Except Error Compiled)
  | [] => []
  | request :: requests =>
    (session.compile request.text).1 :: (session.answer request).2.compilations requests

/-- The uses that requests are: the texts that have no error, each with the tree it uses. -/
def uses (session : Session σ) : List Request → List (String × Compiled)
  | [] => []
  | request :: requests =>
    match (session.compile request.text).1 with
    | .ok tree => (request.text, tree) :: (session.answer request).2.uses requests
    | .error _ => (session.answer request).2.uses requests

/-- What a session answers is made of what it compiles. -/
theorem run_fst_eq_zipWith (session : Session σ) (requests : List Request) :
    (session.run requests).1 =
      List.zipWith (Request.answerOf Compiled.formula) (session.compilations requests)
        requests := by
  induction requests generalizing session with
  | nil => rfl
  | cons request requests ih =>
    rw [run_cons, compilations, List.zipWith_cons_cons, ih, answer_eq]

/-- A request is compiled in the session that the requests before it leave. -/
theorem getElem?_compilations {requests : List Request} {request : Request} {i : ℕ}
    (h : requests[i]? = some request) (session : Session σ) :
    (session.compilations requests)[i]? =
      some ((session.run (requests.take i)).2.compile request.text).1 := by
  induction requests generalizing session i with
  | nil => cases h
  | cons first requests ih =>
    cases i with
    | zero =>
      cases h
      rfl
    | succ i =>
      rw [List.getElem?_cons_succ] at h
      rw [compilations, List.getElem?_cons_succ, ih h, List.take_succ_cons, run_cons]

/-- What is compiled for the first requests does not depend on the others. -/
theorem compilations_take (session : Session σ) (requests : List Request) (i : ℕ) :
    session.compilations (requests.take i) = (session.compilations requests).take i := by
  induction requests generalizing session i with
  | nil => rw [List.take_nil, compilations, List.take_nil]
  | cons request requests ih =>
    cases i with
    | zero => rfl
    | succ i => rw [List.take_succ_cons, compilations, compilations, List.take_succ_cons, ih]

/-- The uses of requests are those of the first ones, and then those of the last ones. -/
theorem uses_append (session : Session σ) (front back : List Request) :
    session.uses (front ++ back) = session.uses front ++ (session.run front).2.uses back := by
  induction front generalizing session with
  | nil => rfl
  | cons request front ih =>
    rw [List.cons_append, run_cons, uses, uses]
    split
    · rw [ih, List.cons_append]
    · rw [ih]

/-- A tree that is compiled for a request is used by it. -/
theorem mem_uses {session : Session σ} {requests : List Request} {i : ℕ} {tree : Compiled}
    (h : (session.compilations requests)[i]? = some (.ok tree)) :
    ∃ request, requests[i]? = some request ∧ (request.text, tree) ∈ session.uses requests := by
  induction requests generalizing session i with
  | nil => cases h
  | cons first requests ih =>
    rw [compilations] at h
    cases i with
    | zero =>
      rw [List.getElem?_cons_zero, Option.some.injEq] at h
      exact ⟨first, rfl, by rw [uses, h]; exact List.mem_cons_self⟩
    | succ i =>
      rw [List.getElem?_cons_succ] at h
      obtain ⟨request, hrequest, hmem⟩ := ih h
      refine ⟨request, hrequest, ?_⟩
      rw [uses]
      split
      · exact List.mem_cons_of_mem _ hmem
      · exact hmem

/-- What a session keeps, seen from all uses so far: the texts used last, each with the tree of
its last use. The trees used have serial numbers of their own, which are those of the trees
made. -/
structure Remembers (session : Session σ) (past : List (String × Compiled)) : Prop where
  texts_eq : session.texts =
    (past.map Prod.fst).dedup.reverse.take (capacity session.trees)
  last_use : ∀ text tree, (entries session.trees).lookup text = some tree →
    past.reverse.lookup text = some tree
  serial_lt : ∀ use ∈ past, use.2.serial < session.made
  eq_of_serial_eq : ∀ use ∈ past, ∀ use' ∈ past, use.2.serial = use'.2.serial → use = use'

/-- A tree that is kept was used. -/
theorem Remembers.mem_of_lookup {session : Session σ} {past : List (String × Compiled)}
    (h : session.Remembers past) {text : String} {tree : Compiled}
    (hkept : (entries session.trees).lookup text = some tree) : (text, tree) ∈ past := by
  obtain ⟨front, back, hpast, _⟩ := List.lookup_eq_some_iff.1 (h.last_use text tree hkept)
  rw [← List.mem_reverse, hpast]
  exact List.mem_append_right _ List.mem_cons_self

/-- Sessions alike remember the same uses. -/
theorem Remembers.of_alike {session : Session σ} {session' : Session σ'}
    {past : List (String × Compiled)} (h : session'.Remembers past)
    (halike : session.Alike session') : session.Remembers past where
  texts_eq := by rw [halike.texts_eq, h.texts_eq, halike.capacity_eq]
  last_use := halike.entries_eq ▸ h.last_use
  serial_lt := halike.made_eq ▸ h.serial_lt
  eq_of_serial_eq := h.eq_of_serial_eq

/-- The tree that a text has in a session is one that was used with it, or a new one. -/
theorem Remembers.treeOf_cases {session : Session σ} {past : List (String × Compiled)}
    (h : session.Remembers past) (text : String) (formula : Formula) :
    ((text, session.treeOf text formula) ∈ past ∧ session.madeAfter text = session.made) ∨
      ((session.treeOf text formula).serial = session.made ∧
        session.madeAfter text = session.made + 1) := by
  rw [treeOf, madeAfter]
  cases hkept : (entries session.trees).lookup text with
  | none => exact .inr ⟨rfl, rfl⟩
  | some tree => exact .inl ⟨h.mem_of_lookup hkept, rfl⟩

/-- A use of a text is remembered after all others. -/
theorem Remembers.use {session after : Session σ} {past : List (String × Compiled)}
    (h : session.Remembers past) (hpos : 0 < capacity session.trees) {text : String}
    {formula : Formula} (huses : session.Uses after text formula) :
    after.Remembers (past ++ [(text, session.treeOf text formula)]) where
  texts_eq := by
    rw [huses.texts_eq, h.texts_eq, huses.capacity_eq, List.map_append,
      take_cons_filter_recent _ _ hpos]
    rfl
  last_use := by
    intro text' tree hkept
    rw [huses.entries_eq] at hkept
    have hlast := lookup_of_lookup_take hkept
    rw [List.reverse_append, List.reverse_singleton, List.singleton_append, List.lookup_cons]
    rw [List.lookup_cons] at hlast
    by_cases hsame : text' = text
    · rw [beq_iff_eq.2 hsame] at hlast ⊢
      exact hlast
    · rw [beq_false_of_ne hsame] at hlast ⊢
      exact h.last_use text' tree (lookup_otherEntries _ hsame ▸ hlast)
  serial_lt := by
    intro use huse
    rw [huses.made_eq]
    obtain ⟨hknown, hmade⟩ | ⟨hnew, hmade⟩ := h.treeOf_cases text formula
    · rw [hmade]
      obtain hpast | hlast := List.mem_append.1 huse
      · exact h.serial_lt use hpast
      · exact List.mem_singleton.1 hlast ▸ h.serial_lt _ hknown
    · rw [hmade]
      obtain hpast | hlast := List.mem_append.1 huse
      · exact Nat.lt_succ_of_lt (h.serial_lt use hpast)
      · rw [List.mem_singleton.1 hlast, hnew]
        exact Nat.lt_succ_self _
  eq_of_serial_eq := by
    intro use huse use' huse' hserial
    obtain ⟨hknown, _⟩ | ⟨hnew, _⟩ := h.treeOf_cases text formula
    · have hpast : ∀ use ∈ past ++ [(text, session.treeOf text formula)], use ∈ past := by
        intro use huse
        obtain hpast | hlast := List.mem_append.1 huse
        · exact hpast
        · exact List.mem_singleton.1 hlast ▸ hknown
      exact h.eq_of_serial_eq use (hpast use huse) use' (hpast use' huse') hserial
    · -- a new tree has a number that no tree used before has
      obtain hpast | hlast := List.mem_append.1 huse <;>
        obtain hpast' | hlast' := List.mem_append.1 huse'
      · exact h.eq_of_serial_eq use hpast use' hpast' hserial
      · rw [List.mem_singleton.1 hlast', hnew] at hserial
        exact absurd hserial (h.serial_lt use hpast).ne
      · rw [List.mem_singleton.1 hlast, hnew] at hserial
        exact absurd hserial (h.serial_lt use' hpast').ne'
      · rw [List.mem_singleton.1 hlast, List.mem_singleton.1 hlast']

/-- The tree of the last use of a text is kept exactly if fewer other texts have been used since
than there is room for. -/
theorem Remembers.lookup_eq {session : Session σ} {front back : List (String × Compiled)}
    {text : String} {tree : Compiled} (h : session.Remembers (front ++ (text, tree) :: back))
    (hback : text ∉ back.map Prod.fst) :
    (entries session.trees).lookup text =
      if (back.map Prod.fst).toFinset.card < capacity session.trees then some tree else none := by
  have hmem : text ∈ session.texts ↔
      (back.map Prod.fst).toFinset.card < capacity session.trees := by
    rw [h.texts_eq, List.map_append, List.map_cons, mem_take_recent_iff hback]
  cases hkept : (entries session.trees).lookup text with
  | none =>
    have hnot : text ∉ session.texts := by
      rw [List.lookup_eq_none_iff] at hkept
      intro htext
      obtain ⟨entry, hentry, rfl⟩ := List.mem_map.1 htext
      simpa using hkept entry hentry
    rw [if_neg (mt hmem.2 hnot)]
  | some kept =>
    have htext : text ∈ session.texts := by
      obtain ⟨_, _, hentries, _⟩ := List.lookup_eq_some_iff.1 hkept
      simp [texts, hentries]
    have hlast := h.last_use text kept hkept
    have hlater : back.reverse.lookup text = none := by
      rw [List.lookup_eq_none_iff]
      intro use huse
      refine bne_iff_ne.2 fun heq => hback ?_
      exact heq ▸ List.mem_map_of_mem (List.mem_reverse.1 huse)
    rw [List.reverse_append, List.reverse_cons, List.append_assoc, List.lookup_append, hlater,
      Option.none_or, List.singleton_append, List.lookup_cons, beq_self_eq_true] at hlast
    rw [if_pos (hmem.1 htext)]
    exact hlast.symm

/-- The tree of the last use of a text is used again if fewer other texts have been used since
than there is room for, and otherwise a new one is made. -/
theorem Remembers.treeOf_eq {session : Session σ} {front back : List (String × Compiled)}
    {text : String} {tree : Compiled} (h : session.Remembers (front ++ (text, tree) :: back))
    (hback : text ∉ back.map Prod.fst) (formula : Formula) :
    session.treeOf text formula =
      if (back.map Prod.fst).toFinset.card < capacity session.trees then tree
      else ⟨formula, session.made⟩ := by
  rw [treeOf, h.lookup_eq hback]
  split <;> rfl

variable [LawfulStore σ Compiled] [LawfulStore σ' Compiled]

/-- A session that has not been used remembers no uses. -/
theorem remembers_start (capacity : ℕ) : (start capacity : Session σ).Remembers [] where
  texts_eq := by
    rw [texts_start]
    simp
  last_use := by
    have hentries : entries (start capacity : Session σ).trees = [] :=
      LawfulStore.entries_empty (max capacity 1)
    simp [hentries]
  serial_lt := by simp
  eq_of_serial_eq := by simp

/-- The uses that requests are get remembered after those before. -/
theorem Remembers.run {session : Session σ} {past : List (String × Compiled)}
    (h : session.Remembers past) (hsound : session.IsSound) (requests : List Request) :
    (session.run requests).2.Remembers (past ++ session.uses requests) := by
  induction requests generalizing session past with
  | nil =>
    rw [uses, List.append_nil]
    exact h
  | cons request requests ih =>
    have hafter := hsound.answer request
    rw [run_cons, uses]
    rw [answer_eq] at hafter ⊢
    cases htext : Calculator.compile request.text with
    | error error =>
      obtain ⟨hcompiled, halike⟩ := hsound.compile_of_error htext
      rw [hcompiled]
      exact ih (h.of_alike halike) hafter
    | ok formula =>
      obtain ⟨hcompiled, huses⟩ := hsound.compile_of_ok htext
      rw [hcompiled, List.append_cons]
      exact ih (h.use hsound.capacity_pos huses) hafter

/-- The texts used are those of the requests that succeed. -/
theorem IsSound.map_fst_uses {session : Session σ} (h : session.IsSound)
    (requests : List Request) :
    (session.uses requests).map Prod.fst =
      (requests.filter Request.succeeds).map Request.text := by
  induction requests generalizing session with
  | nil => rfl
  | cons request requests ih =>
    have hothers := ih (h.answer request)
    rw [uses]
    cases htext : Calculator.compile request.text with
    | error error =>
      have hfails : ¬ request.succeeds = true := by
        rw [request.succeeds_eq, htext]
        exact Bool.false_ne_true
      rw [(h.compile_of_error htext).1, List.filter_cons_of_neg hfails, hothers]
    | ok formula =>
      have hsucceeds : request.succeeds = true := Request.succeeds_iff.2 ⟨formula, htext⟩
      rw [(h.compile_of_ok htext).1, List.filter_cons_of_pos hsucceeds, List.map_cons,
        List.map_cons, hothers]

/-- Without the requests that are answered with an error the others are compiled to the same
trees. -/
theorem Alike.compilations_filter {session : Session σ} {session' : Session σ'}
    (halike : session.Alike session') (h : session'.IsSound) (requests : List Request) :
    session.compilations (requests.filter Request.succeeds) =
      (session'.compilations requests).filter Except.isOk := by
  induction requests generalizing session session' with
  | nil => rfl
  | cons request requests ih =>
    have hafter := h.answer request
    rw [compilations]
    rw [answer_eq] at hafter ⊢
    cases htext : Calculator.compile request.text with
    | error error =>
      have hfails : ¬ request.succeeds = true := by
        rw [request.succeeds_eq, htext]
        exact Bool.false_ne_true
      obtain ⟨hcompiled, hnext⟩ := h.compile_of_error htext
      rw [List.filter_cons_of_neg hfails, hcompiled, List.filter_cons_of_neg Bool.false_ne_true]
      exact ih (halike.trans_symm hnext) hafter
    | ok formula =>
      have hsucceeds : request.succeeds = true := Request.succeeds_iff.2 ⟨formula, htext⟩
      obtain ⟨hcompiled, huses⟩ := h.compile_of_ok htext
      have huses' := ((halike.isSound h).compile_of_ok htext).2
      rw [List.filter_cons_of_pos hsucceeds, compilations, answer_eq, halike.compile_fst h,
        hcompiled, List.filter_cons_of_pos rfl]
      exact congrArg _ (ih (huses'.alike huses halike) hafter)

/-- Requests do not change how many trees there is room for. -/
theorem IsSound.capacity_run {session : Session σ} (h : session.IsSound)
    (requests : List Request) :
    capacity (session.run requests).2.trees = capacity session.trees := by
  induction requests generalizing session with
  | nil => rfl
  | cons request requests ih =>
    rw [run_cons, ih (h.answer request)]
    obtain ⟨_, halike⟩ | ⟨_, _, _, huses⟩ := h.answer_cases request
    · exact halike.capacity_eq
    · exact huses.capacity_eq

/-- A sound session answers those requests with an error that are answered with one without a
session. -/
theorem IsSound.map_isSuccess_run {session : Session σ} (h : session.IsSound)
    (requests : List Request) :
    (session.run requests).1.map Answer.isSuccess = requests.map Request.succeeds := by
  have hanswers := congrArg (List.map Answer.isSuccess) (h.run requests).1
  rw [List.map_map, List.map_map] at hanswers
  rw [← funext (Answer.isSuccess_map Compiled.formula)]
  exact hanswers

/-- A text that is used again gets the tree of its last use, or one made anew. -/
theorem IsSound.treeOf_again {session : Session σ} (hsound : session.IsSound)
    (h : session.Remembers []) {requests : List Request} {request : Request} {formula : Formula}
    {i j : ℕ} (hlt : i < j) (hi : requests[i]? = some request)
    (htext : Calculator.compile request.text = .ok formula)
    (hbetween : ∀ between ∈ requests.extract (i + 1) j, between.text ≠ request.text) :
    (session.run (requests.take j)).2.treeOf request.text formula =
      if (((requests.extract (i + 1) j).filter Request.succeeds).map Request.text).toFinset.card <
          capacity session.trees then
        (session.run (requests.take i)).2.treeOf request.text formula
      else ⟨formula, (session.run (requests.take j)).2.made⟩ := by
  have hbefore := (hsound.run (requests.take i)).2
  have hpast := h.run hsound (requests.take j)
  have hafter := (hbefore.answer request).map_fst_uses (requests.extract (i + 1) j)
  rw [List.nil_append] at hpast
  rw [take_eq_append_extract hlt hi, uses_append, uses, (hbefore.compile_of_ok htext).1,
    ← take_eq_append_extract hlt hi] at hpast
  have hnot : request.text ∉
      ((requests.extract (i + 1) j).filter Request.succeeds).map Request.text := by
    intro hmem
    obtain ⟨between, hfiltered, hsame⟩ := List.mem_map.1 hmem
    exact hbetween between (List.mem_of_mem_filter hfiltered) hsame
  rw [hpast.treeOf_eq (hafter ▸ hnot), hafter, hsound.capacity_run]

/-- The trees used before a request have serial numbers below the number of trees made. -/
theorem Remembers.serial_lt_of_getElem? {session : Session σ} (h : session.Remembers [])
    (hsound : session.IsSound) (requests : List Request) (j : ℕ) :
    ∀ k < j, ∀ earlier, (session.compilations requests)[k]? = some (.ok earlier) →
      earlier.serial < (session.run (requests.take j)).2.made := by
  intro k hk earlier hcompiled
  have hpast := h.run hsound (requests.take j)
  rw [← List.getElem?_take_of_lt hk, ← compilations_take] at hcompiled
  obtain ⟨_, _, huse⟩ := mem_uses hcompiled
  exact hpast.serial_lt _ huse

/-- Uses of a text share a tree as long as few enough other texts are used between them. A session
answers requests by the trees that it compiles their texts to, and fails where a request without
a session fails; requests that fail have no influence on the trees of the others. A serial number
stands for one tree only, and for one text. Of two uses of a text with no other between them, the
later one uses the same tree exactly if the number of distinct other texts that are used between
them is below the capacity, which is at least one. Otherwise the text is parsed anew, and the tree
made is none that was used before. -/
theorem run_start_shares (capacity : ℕ) (requests : List Request) :
    let session : Session σ := start capacity
    let answers := (session.run requests).1
    let trees := session.compilations requests
    answers = List.zipWith (Request.answerOf Compiled.formula) trees requests ∧
      answers.map Answer.isSuccess = requests.map Request.succeeds ∧
      session.compilations (requests.filter Request.succeeds) = trees.filter Except.isOk ∧
      (∀ tree tree', .ok tree ∈ trees → .ok tree' ∈ trees → tree.serial = tree'.serial →
        tree = tree') ∧
      ∀ i j request request', i < j → requests[i]? = some request →
        requests[j]? = some request' → request.succeeds = true → request'.succeeds = true →
        ∃ tree tree', trees[i]? = some (.ok tree) ∧ trees[j]? = some (.ok tree') ∧
          (request.text ≠ request'.text → tree.serial ≠ tree'.serial) ∧
          (request.text = request'.text →
            (∀ between ∈ requests.extract (i + 1) j, between.text ≠ request.text) →
            let others := ((requests.extract (i + 1) j).filter Request.succeeds).map Request.text
            (tree'.serial = tree.serial ↔ others.toFinset.card < max capacity 1) ∧
            (tree'.serial ≠ tree.serial →
              Formula.parse request'.text = .ok tree'.formula ∧
                tree'.serial = (session.run (requests.take j)).2.made ∧
                ∀ k < j, ∀ earlier, trees[k]? = some (.ok earlier) →
                  earlier.serial ≠ tree'.serial)) := by
  intro session answers trees
  have hsound : session.IsSound := isSound_start capacity
  have hstart : session.Remembers [] := remembers_start capacity
  have hall := hstart.run hsound requests
  rw [List.nil_append] at hall
  have hsame {i j : ℕ} {request request' : Request} {tree tree' : Compiled}
      (hi : requests[i]? = some request) (hj : requests[j]? = some request')
      (htree : trees[i]? = some (.ok tree)) (htree' : trees[j]? = some (.ok tree'))
      (hserial : tree.serial = tree'.serial) : request.text = request'.text ∧ tree = tree' := by
    obtain ⟨_, hrequest, huse⟩ := mem_uses htree
    obtain ⟨_, hrequest', huse'⟩ := mem_uses htree'
    cases hi.symm.trans hrequest
    cases hj.symm.trans hrequest'
    exact Prod.mk.inj (hall.eq_of_serial_eq _ huse _ huse' hserial)
  refine ⟨run_fst_eq_zipWith session requests, hsound.map_isSuccess_run requests,
    Alike.compilations_filter (Alike.refl session) hsound requests, ?_, ?_⟩
  · intro tree tree' htree htree' hserial
    obtain ⟨i, hi⟩ := List.mem_iff_getElem?.1 htree
    obtain ⟨j, hj⟩ := List.mem_iff_getElem?.1 htree'
    obtain ⟨_, hrequest, _⟩ := mem_uses hi
    obtain ⟨_, hrequest', _⟩ := mem_uses hj
    exact (hsame hrequest hrequest' hi hj hserial).2
  · intro i j request request' hlt hi hj hsucceeds hsucceeds'
    obtain ⟨formula, htext⟩ := Request.succeeds_iff.1 hsucceeds
    obtain ⟨formula', htext'⟩ := Request.succeeds_iff.1 hsucceeds'
    have hbefore := (hsound.run (requests.take i)).2
    have hlater := (hsound.run (requests.take j)).2
    have htree := getElem?_compilations hi session
    have htree' := getElem?_compilations hj session
    rw [(hbefore.compile_of_ok htext).1] at htree
    rw [(hlater.compile_of_ok htext').1] at htree'
    refine ⟨_, _, htree, htree', fun hne hserial => hne (hsame hi hj htree htree' hserial).1, ?_⟩
    intro heq hbetween others
    have hearlier := hstart.serial_lt_of_getElem? hsound requests j
    have hagain := hsound.treeOf_again hstart hlt hi htext hbetween
    rw [capacity_start, heq] at hagain
    cases htext'.symm.trans (heq ▸ htext)
    rw [hagain]
    by_cases hfew : others.toFinset.card < max capacity 1
    · rw [if_pos hfew, heq]
      exact ⟨⟨fun _ => hfew, fun _ => rfl⟩, fun hne => absurd rfl hne⟩
    · have hnew := hearlier i hlt _ htree
      rw [if_neg hfew]
      refine ⟨⟨fun hserial => absurd hserial hnew.ne', fun h => absurd h hfew⟩, fun _ => ?_⟩
      exact ⟨(compile_eq_ok_iff.1 htext').1, rfl,
        fun k hk earlier htree => (hearlier k hk earlier htree).ne⟩

/-- With room for two trees, a text shares its tree with its next use after one other text, and
not after two. A text that fails does not count. -/
theorem run_start_shares_window :
    let requests : List Request :=
      [.compile "x", .evaluate "y" ∅, .compile "f(x)", .evaluateAll "x" [], .compile "y",
        .compile "z", .compile "x"]
    let trees := (start 2 : Session).compilations requests
    ∃ tree tree' tree'', trees[0]? = some (.ok tree) ∧ trees[3]? = some (.ok tree') ∧
      trees[6]? = some (.ok tree'') ∧ tree'.serial = tree.serial ∧
      tree''.serial ≠ tree'.serial := by
  intro requests trees
  have hidentifier : ∀ request : Request, isIdentifier request.text.toList = true →
      request.succeeds = true := fun request h => Request.succeeds_iff.2 ⟨_, compile_identifier h⟩
  have hx : Request.succeeds (.compile "x") = true := hidentifier _ (by decide)
  have hagain : Request.succeeds (.evaluateAll "x" []) = true := hidentifier _ (by decide)
  have hy : Request.succeeds (.evaluate "y" ∅) = true := hidentifier _ (by decide)
  have hy' : Request.succeeds (.compile "y") = true := hidentifier _ (by decide)
  have hz : Request.succeeds (.compile "z") = true := hidentifier _ (by decide)
  have hunknown : ¬ Request.succeeds (.compile "f(x)") = true := by
    have hfunction : isIdentifier "f".toList = true := by decide
    have hargument : isIdentifier "x".toList = true := by decide
    have hfails := compile_unknownCall hfunction hargument (by decide)
    rw [show "f" ++ "(" ++ "x" ++ ")" = (Request.compile "f(x)").text by decide] at hfails
    simp [Request.succeeds_iff, hfails]
  have hshares := (run_start_shares (σ := Cache Compiled) 2 requests).2.2.2.2
  obtain ⟨tree, tree', htree, htree', -, hnear⟩ := hshares 0 3 _ _ (by decide) rfl rfl hx hagain
  obtain ⟨_, tree'', hsame, htree'', -, hfar⟩ := hshares 3 6 _ _ (by decide) rfl rfl hagain hx
  cases htree'.symm.trans hsame
  refine ⟨tree, tree', tree'', htree, htree', htree'', ?_, ?_⟩
  · refine (hnear rfl (by decide)).1.2 ?_
    change (([Request.evaluate "y" ∅, .compile "f(x)"].filter _).map _).toFinset.card < _
    rw [List.filter_cons_of_pos hy, List.filter_cons_of_neg hunknown]
    decide
  · refine mt (hfar rfl (by decide)).1.1 ?_
    change ¬ (([Request.compile "y", .compile "z"].filter _).map _).toFinset.card < _
    rw [List.filter_cons_of_pos hy', List.filter_cons_of_pos hz]
    decide

end Session

end Calculator

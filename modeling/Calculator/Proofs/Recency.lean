import Calculator.Proofs.Answers
import Mathlib.Data.Finset.Card
import Mathlib.Data.List.Dedup

/-!
# Texts used last

A session keeps the trees of the distinct texts that were used last, as many as there is room
for, in the order of their last uses. Only requests that succeed are uses: a request with an
error changes nothing that is kept and no other answer.
-/

namespace Calculator

section Lists

variable {α : Type} [DecidableEq α]

/-- Without repetitions, what is left of a list once a member is put at its end is the list
without this member, and then the member. -/
theorem dedup_append_singleton (xs : List α) (x : α) :
    (xs ++ [x]).dedup = xs.dedup.filter (· ≠ x) ++ [x] := by
  induction xs with
  | nil => simp
  | cons y ys ih =>
    rw [List.cons_append]
    by_cases hmem : y ∈ ys
    · rw [List.dedup_cons_of_mem (List.mem_append_left _ hmem), List.dedup_cons_of_mem hmem, ih]
    · rw [List.dedup_cons_of_notMem hmem]
      by_cases heq : y = x
      · rw [List.dedup_cons_of_mem (by simp [heq]), ih, heq]
        simp
      · rw [List.dedup_cons_of_notMem (by simp [hmem, heq]), ih]
        simp [heq]

/-- Taking a front of a list before one member is left out makes no difference to a front that
is shorter by one. -/
theorem take_filter_take {xs : List α} (h : xs.Nodup) (x : α) (n : ℕ) :
    ((xs.take (n + 1)).filter (· ≠ x)).take n = (xs.filter (· ≠ x)).take n := by
  induction xs generalizing n with
  | nil => simp
  | cons y ys ih =>
    obtain ⟨hnew, hys⟩ := List.nodup_cons.1 h
    by_cases heq : y = x
    · -- the member left out is the first one, so there is no other
      subst heq
      have hall : ys.filter (· ≠ y) = ys :=
        List.filter_eq_self.2 fun z hz => decide_eq_true fun heq => hnew (heq ▸ hz)
      have htake : (ys.take n).filter (· ≠ y) = ys.take n :=
        List.filter_eq_self.2 fun z hz =>
          decide_eq_true fun heq => hnew (heq ▸ List.mem_of_mem_take hz)
      rw [List.take_succ_cons, List.filter_cons_of_neg (by simp),
        List.filter_cons_of_neg (by simp), hall, htake, List.take_take, Nat.min_self]
    · rw [List.take_succ_cons, List.filter_cons_of_pos (by simp [heq]),
        List.filter_cons_of_pos (by simp [heq])]
      cases n with
      | zero => rfl
      | succ n => rw [List.take_succ_cons, List.take_succ_cons, ih hys]

/-- Moving a member to the front of the ones used last gives the ones used last once it has been
used again. -/
theorem take_cons_filter_recent (past : List α) (x : α) {n : ℕ} (hn : 0 < n) :
    (x :: (past.dedup.reverse.take n).filter (· ≠ x)).take n =
      (past ++ [x]).dedup.reverse.take n := by
  obtain ⟨n, rfl⟩ := Nat.exists_eq_add_of_lt hn
  have hnodup : past.dedup.reverse.Nodup := List.nodup_reverse.2 past.nodup_dedup
  rw [dedup_append_singleton, List.reverse_append, List.reverse_singleton, List.singleton_append,
    Nat.zero_add, List.take_succ_cons, List.take_succ_cons, take_filter_take hnodup,
    List.filter_reverse]

end Lists

namespace Session

open Store

variable {σ σ' : Type} [Store σ Compiled] [Store σ' Compiled]

/-- The texts whose trees are kept, the most recently used first. -/
def texts (session : Session σ) : List String :=
  (entries session.trees).map Prod.fst

/-- The requests that were not answered with an error, in their order. -/
def successes (requests : List Request) (answers : List (Answer Compiled)) : List Request :=
  ((requests.zip answers).filter fun pair => pair.2.isSuccess).map Prod.fst

/-- After a use the text is the first one, and the others follow as far as there is room. -/
theorem Uses.texts_eq {session after : Session σ} {text : String} {formula : Formula}
    (h : session.Uses after text formula) :
    after.texts = (text :: session.texts.filter (· ≠ text)).take (capacity session.trees) := by
  rw [texts, h.entries_eq, entriesAfter, List.map_take, List.map_cons, texts, List.filter_map]
  rfl

/-- Sessions alike keep the same texts. -/
theorem Alike.texts_eq {session : Session σ} {session' : Session σ'}
    (h : session.Alike session') : session.texts = session'.texts := by
  rw [texts, h.entries_eq, texts]

/-- Uses of the same text leave sessions alike that were alike. -/
theorem Uses.alike {session after : Session σ} {session' after' : Session σ'} {text : String}
    {formula : Formula} (h : session.Uses after text formula)
    (h' : session'.Uses after' text formula) (halike : session.Alike session') :
    after.Alike after' where
  capacity_eq := by rw [h.capacity_eq, h'.capacity_eq, halike.capacity_eq]
  entries_eq := by
    rw [h.entries_eq, h'.entries_eq, entriesAfter, entriesAfter, treeOf, treeOf,
      halike.capacity_eq, halike.entries_eq, halike.made_eq]
  made_eq := by
    rw [h.made_eq, h'.made_eq, madeAfter, madeAfter, halike.entries_eq, halike.made_eq]

variable [LawfulStore σ Compiled] [LawfulStore σ' Compiled]

/-- A request is answered with an error and leaves a session that is alike, or else it is a use
of its text. -/
theorem IsSound.answer_cases {session : Session σ} (h : session.IsSound) (request : Request) :
    (request.succeeds = false ∧ (session.answer request).2.Alike session) ∨
      (request.succeeds = true ∧ ∃ formula,
        Calculator.compile request.text = .ok formula ∧
          session.Uses (session.answer request).2 request.text formula) := by
  rw [answer_eq]
  cases htext : Calculator.compile request.text with
  | error error =>
    refine .inl ⟨?_, (h.compile_of_error htext).2⟩
    rw [Bool.eq_false_iff, Ne, Request.succeeds_iff, htext]
    rintro ⟨formula, hformula⟩
    cases hformula
  | ok formula =>
    exact .inr ⟨Request.succeeds_iff.2 ⟨formula, htext⟩, formula, rfl,
      (h.compile_of_ok htext).2⟩

/-- Sound sessions that are alike compile a text to the same tree. -/
theorem Alike.compile_fst {session : Session σ} {session' : Session σ'}
    (halike : session.Alike session') (h : session'.IsSound) (text : String) :
    (session.compile text).1 = (session'.compile text).1 := by
  have h' := halike.isSound h
  cases htext : Calculator.compile text with
  | error error => rw [(h.compile_of_error htext).1, (h'.compile_of_error htext).1]
  | ok formula =>
    rw [(h.compile_of_ok htext).1, (h'.compile_of_ok htext).1, treeOf, treeOf,
      halike.entries_eq, halike.made_eq]

/-- Sound sessions that are alike give the same answer, down to the tree it is made of. -/
theorem Alike.answer_fst {session : Session σ} {session' : Session σ'}
    (halike : session.Alike session') (h : session'.IsSound) (request : Request) :
    (session.answer request).1 = (session'.answer request).1 := by
  rw [answer_eq, answer_eq, halike.compile_fst h]

/-- A sound session answers with an error exactly if this is the answer without a session. -/
theorem IsSound.isSuccess_answer {session : Session σ} (h : session.IsSound)
    (request : Request) : (session.answer request).1.isSuccess = request.succeeds := by
  rw [Request.succeeds, ← h.map_answer, Answer.isSuccess_map]

/-- The requests that a sound session does not answer with an error are those that are not
answered with one without a session. -/
theorem IsSound.successes_run {session : Session σ} (h : session.IsSound)
    (requests : List Request) :
    successes requests (session.run requests).1 = requests.filter Request.succeeds := by
  induction requests generalizing session with
  | nil => rfl
  | cons request requests ih =>
    have hothers := ih (h.answer request)
    rw [successes] at hothers
    rw [successes, run_cons, List.zip_cons_cons, List.filter_cons, List.filter_cons,
      h.isSuccess_answer]
    split
    · rw [List.map_cons, hothers]
    · rw [hothers]

/-- Texts that are those used last stay so during requests, where only the requests that are
not answered with an error are uses. -/
theorem IsSound.texts_run {session : Session σ} (h : session.IsSound) {past : List String}
    (hpast : session.texts = past.dedup.reverse.take (capacity session.trees))
    (requests : List Request) :
    (session.run requests).2.texts =
      (past ++ (requests.filter Request.succeeds).map Request.text).dedup.reverse.take
        (capacity session.trees) := by
  induction requests generalizing session past with
  | nil =>
    rw [List.filter_nil, List.map_nil, List.append_nil, ← hpast]
    rfl
  | cons request requests ih =>
    rw [run_cons]
    obtain ⟨herror, halike⟩ | ⟨hsuccess, formula, _, huses⟩ := h.answer_cases request
    · rw [List.filter_cons_of_neg (by simp [herror]), ← halike.capacity_eq]
      exact ih (h.answer request) (by rw [halike.texts_eq, hpast, halike.capacity_eq])
    · have hnext : (session.answer request).2.texts =
          (past ++ [request.text]).dedup.reverse.take (capacity session.trees) := by
        rw [huses.texts_eq, hpast, take_cons_filter_recent past request.text h.capacity_pos]
      rw [List.filter_cons_of_pos hsuccess, List.map_cons, ← huses.capacity_eq,
        List.append_cons]
      exact ih (h.answer request) (by rw [hnext, huses.capacity_eq])

/-- Without the requests that are answered with an error the other answers are the same, and so
is what is kept in the end. -/
theorem Alike.run_filter {session : Session σ} {session' : Session σ'}
    (halike : session.Alike session') (h : session'.IsSound) (requests : List Request) :
    (session.run (requests.filter Request.succeeds)).1 =
        (session'.run requests).1.filter Answer.isSuccess ∧
      (session.run (requests.filter Request.succeeds)).2.Alike
        (session'.run requests).2 := by
  induction requests generalizing session session' with
  | nil => exact ⟨rfl, halike⟩
  | cons request requests ih =>
    have hanswer := h.isSuccess_answer request
    rw [run_cons session']
    obtain ⟨herror, hnext⟩ | ⟨hsuccess, formula, htext, huses⟩ := h.answer_cases request
    · rw [List.filter_cons_of_neg (by simp [herror]),
        List.filter_cons_of_neg (by simp [hanswer, herror])]
      exact ih (halike.trans_symm hnext) (h.answer request)
    · rw [List.filter_cons_of_pos hsuccess, List.filter_cons_of_pos (by rw [hanswer, hsuccess]),
        run_cons, halike.answer_fst h]
      have huses' : session.Uses (session.answer request).2 request.text formula := by
        rw [answer_eq]
        exact ((halike.isSound h).compile_of_ok htext).2
      obtain ⟨hanswers, hafter⟩ := ih (huses'.alike huses halike) (h.answer request)
      exact ⟨by rw [hanswers], hafter⟩

/-- A session that has not been used keeps no texts. -/
theorem texts_start (capacity : ℕ) : (start capacity : Session σ).texts = [] := by
  have hentries : entries (start capacity : Session σ).trees = [] :=
    LawfulStore.entries_empty (max capacity 1)
  rw [texts, hentries, List.map_nil]

/-- A session that has not been used has room for at least one tree. -/
theorem capacity_start (capacity : ℕ) :
    Store.capacity (start capacity : Session σ).trees = max capacity 1 :=
  LawfulStore.capacity_empty (max capacity 1) (Nat.le_max_right _ _)

/-- As many trees are kept as texts. -/
theorem size_eq (session : Session σ) : session.size = session.texts.length := by
  rw [size, LawfulStore.size_eq, texts, List.length_map]

/-- No tree is kept exactly if there are no texts. -/
theorem isEmpty_iff {session : Session σ} : session.isEmpty = true ↔ session.texts = [] := by
  rw [isEmpty, LawfulStore.isEmpty_eq, List.isEmpty_iff, texts, List.map_eq_nil_iff]

/-- A session keeps the texts used last, whatever its capacity and its kind of store. After any
requests these are the distinct texts of the requests that succeeded, the most recently used
first and each one once, as many as there is room for; so their number is known, and there are
none exactly if no request has succeeded. A request that fails then leaves what is kept and its
order as they are, and without the requests that failed the other answers and what is kept in the
end would be the same. -/
theorem run_start_texts (capacity : ℕ) (requests : List Request) :
    let answers := ((start capacity : Session σ).run requests).1
    let after := ((start capacity : Session σ).run requests).2
    let used := (successes requests answers).map Request.text
    after.texts = used.dedup.reverse.take (max capacity 1) ∧
      after.texts.Nodup ∧
      after.size = min (max capacity 1) used.toFinset.card ∧
      (after.isEmpty = true ↔ successes requests answers = []) ∧
      (∀ request, (after.answer request).1.isSuccess = false →
        entries (after.answer request).2.trees = entries after.trees) ∧
      ((start capacity : Session σ).run (successes requests answers)).1 =
        answers.filter Answer.isSuccess ∧
      entries ((start capacity : Session σ).run (successes requests answers)).2.trees =
        entries after.trees := by
  intro answers after used
  have hsound : (start capacity : Session σ).IsSound := isSound_start capacity
  have hsuccesses : successes requests answers = requests.filter Request.succeeds :=
    hsound.successes_run requests
  have htexts : after.texts = used.dedup.reverse.take (max capacity 1) := by
    have hnone : (start capacity : Session σ).texts =
        ([] : List String).dedup.reverse.take
          (Store.capacity (start capacity : Session σ).trees) := by
      simp [texts_start]
    have hrun := hsound.texts_run hnone requests
    rwa [List.nil_append, ← hsuccesses, capacity_start] at hrun
  have hfilter := Alike.run_filter (Alike.refl (start capacity : Session σ)) hsound requests
  rw [← hsuccesses] at hfilter
  refine ⟨htexts, ?_, ?_, ?_, ?_, hfilter.1, hfilter.2.entries_eq⟩
  · rw [htexts]
    exact (List.nodup_reverse.2 used.nodup_dedup).sublist (List.take_sublist _ _)
  · rw [size_eq, htexts, List.length_take, List.length_reverse, List.card_toFinset]
  · rw [isEmpty_iff, htexts, List.take_eq_nil_iff]
    simp [used]
  · intro request herror
    have hafter : after.IsSound := (hsound.run requests).2
    obtain ⟨_, halike⟩ | ⟨hsuccess, _⟩ := hafter.answer_cases request
    · exact halike.entries_eq
    · rw [hafter.isSuccess_answer, hsuccess] at herror
      cases herror

/-- With room for two trees, the third text pushes out the one that was not used again. -/
theorem run_start_texts_evicted :
    let requests : List Request :=
      [.compile "x", .compile "y", .evaluate "x" ∅, .compile "f(x)", .evaluateAll "z" []]
    ((start 2 : Session).run requests).2.texts = ["z", "x"] ∧
      ((start 2 : Session).run requests).2.size = 2 := by
  intro requests
  have hidentifier : ∀ request : Request, isIdentifier request.text.toList = true →
      request.succeeds = true := fun request h => Request.succeeds_iff.2 ⟨_, compile_identifier h⟩
  have hx : Request.succeeds (.compile "x") = true := hidentifier _ (by decide)
  have hy : Request.succeeds (.compile "y") = true := hidentifier _ (by decide)
  have hagain : Request.succeeds (.evaluate "x" ∅) = true := hidentifier _ (by decide)
  have hz : Request.succeeds (.evaluateAll "z" []) = true := hidentifier _ (by decide)
  have hunknown : ¬ Request.succeeds (.compile "f(x)") = true := by
    have hfunction : isIdentifier "f".toList = true := by decide
    have hargument : isIdentifier "x".toList = true := by decide
    have hfails := compile_unknownCall hfunction hargument (by decide)
    rw [show "f" ++ "(" ++ "x" ++ ")" = (Request.compile "f(x)").text by decide] at hfails
    simp [Request.succeeds_iff, hfails]
  have hused : successes requests ((start 2 : Session).run requests).1 =
      [.compile "x", .compile "y", .evaluate "x" ∅, .evaluateAll "z" []] := by
    rw [(isSound_start 2).successes_run, List.filter_cons_of_pos hx,
      List.filter_cons_of_pos hy, List.filter_cons_of_pos hagain,
      List.filter_cons_of_neg hunknown, List.filter_cons_of_pos hz, List.filter_nil]
  obtain ⟨htexts, _, hsize, _⟩ := run_start_texts (σ := Cache Compiled) 2 requests
  rw [hused] at htexts hsize
  exact ⟨htexts.trans (by decide), hsize.trans (by decide)⟩

end Session

end Calculator

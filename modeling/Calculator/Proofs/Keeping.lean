import Calculator.Proofs.Faults
import Calculator.Request

/-!
# What a session keeps

A session is sound if there is room in its store and every tree kept is that of its text. A
sound session answers an error for a text that has one, and no tree kept changes its place. For
a text with a formula it answers a tree of this formula, and keeps it as the one used last. So
requests leave a sound session sound.
-/

namespace Calculator

namespace Session

open Store

variable {σ σ' : Type} [Store σ Compiled] [Store σ' Compiled]

/-- There is room in the store, and every tree kept is that of its text. -/
structure IsSound (session : Session σ) : Prop where
  capacity_pos : 0 < capacity session.trees
  length_le : (entries session.trees).length ≤ capacity session.trees
  compile_eq : ∀ entry ∈ entries session.trees, Calculator.compile entry.1 = .ok entry.2.formula

/-- Two sessions keep the same trees in the same order and have made as many, though perhaps in
different kinds of stores. -/
structure Alike (session : Session σ) (session' : Session σ') : Prop where
  capacity_eq : capacity session.trees = capacity session'.trees
  entries_eq : entries session.trees = entries session'.trees
  made_eq : session.made = session'.made

/-- A session is alike to itself. -/
theorem Alike.refl (session : Session σ) : session.Alike session :=
  ⟨rfl, rfl, rfl⟩

/-- Sessions alike to the same one are alike. -/
theorem Alike.trans_symm {σ'' : Type} [Store σ'' Compiled] {session : Session σ}
    {session' : Session σ'} {session'' : Session σ''} (h : session.Alike session'')
    (h' : session'.Alike session'') : session.Alike session' where
  capacity_eq := h.capacity_eq.trans h'.capacity_eq.symm
  entries_eq := h.entries_eq.trans h'.entries_eq.symm
  made_eq := h.made_eq.trans h'.made_eq.symm

/-- A session alike to a sound one is sound. -/
theorem Alike.isSound {session : Session σ} {session' : Session σ'} (h : session.Alike session')
    (hsound : session'.IsSound) : session.IsSound where
  capacity_pos := h.capacity_eq ▸ hsound.capacity_pos
  length_le := h.capacity_eq ▸ h.entries_eq ▸ hsound.length_le
  compile_eq := h.entries_eq ▸ hsound.compile_eq

/-- The tree that a text with a formula has in a session: the one kept, or else a new one. -/
def treeOf (session : Session σ) (text : String) (formula : Formula) : Compiled :=
  ((entries session.trees).lookup text).getD ⟨formula, session.made⟩

/-- The number of trees made once a text has been used: one more if its tree is not kept. -/
def madeAfter (session : Session σ) (text : String) : ℕ :=
  if ((entries session.trees).lookup text).isSome then session.made else session.made + 1

/-- Trees kept as far as there is room, the given one before all others. -/
def entriesAfter (session : Session σ) (text : String) (formula : Formula) :
    List (String × Compiled) :=
  ((text, session.treeOf text formula) :: otherEntries (entries session.trees) text).take
    (capacity session.trees)

/-- What a use of a text with a formula does to a session. -/
structure Uses (session after : Session σ) (text : String) (formula : Formula) : Prop where
  capacity_eq : capacity after.trees = capacity session.trees
  entries_eq : entries after.trees = session.entriesAfter text formula
  made_eq : after.made = session.madeAfter text

/-- A tree kept in a sound session has the formula of its text. -/
theorem IsSound.compile_of_lookup {session : Session σ} (h : session.IsSound) {text : String}
    {compiled : Compiled} (hkept : (entries session.trees).lookup text = some compiled) :
    Calculator.compile text = .ok compiled.formula := by
  obtain ⟨front, back, hentries, _⟩ := List.lookup_eq_some_iff.1 hkept
  exact h.compile_eq (text, compiled) (by simp [hentries])

/-- The tree of a text in a sound session has the formula of the text. -/
theorem IsSound.formula_treeOf {session : Session σ} (h : session.IsSound) {text : String}
    {formula : Formula} (htext : Calculator.compile text = .ok formula) :
    (session.treeOf text formula).formula = formula := by
  cases hkept : (entries session.trees).lookup text with
  | none => simp [treeOf, hkept]
  | some compiled =>
    have hcompiled := h.compile_of_lookup hkept
    rw [htext, Except.ok.injEq] at hcompiled
    simp [treeOf, hkept, hcompiled]

/-- A use leaves a sound session sound. -/
theorem Uses.isSound {session after : Session σ} {text : String} {formula : Formula}
    (h : session.Uses after text formula) (hsound : session.IsSound)
    (htext : Calculator.compile text = .ok formula) : after.IsSound where
  capacity_pos := h.capacity_eq ▸ hsound.capacity_pos
  length_le := by
    rw [h.entries_eq, h.capacity_eq]
    exact List.length_take_le _ _
  compile_eq := by
    intro entry hentry
    rw [h.entries_eq] at hentry
    obtain rfl | hother := List.mem_cons.1 (List.mem_of_mem_take hentry)
    · rw [hsound.formula_treeOf htext, htext]
    · exact hsound.compile_eq entry (List.mem_of_mem_filter hother)

variable [LawfulStore σ Compiled]

/-- A session that has not been used is sound. -/
theorem isSound_start (capacity : ℕ) : (start capacity : Session σ).IsSound where
  capacity_pos := by
    change 0 < Store.capacity (empty (max capacity 1) : σ)
    rw [LawfulStore.capacity_empty _ (Nat.le_max_right _ _)]
    exact Nat.le_max_right _ _
  length_le := by
    change (entries (empty (max capacity 1) : σ)).length ≤ _
    rw [LawfulStore.entries_empty]
    exact Nat.zero_le _
  compile_eq := by
    change ∀ entry ∈ entries (empty (max capacity 1) : σ), _
    rw [LawfulStore.entries_empty]
    simp

/-- The use of a text with an error answers the error and changes nothing that is kept. -/
theorem IsSound.compile_of_error {session : Session σ} (h : session.IsSound) {text : String}
    {error : Error} (htext : Calculator.compile text = .error error) :
    (session.compile text).1 = .error error ∧ (session.compile text).2.Alike session := by
  have hmissing : (entries session.trees).lookup text = none := by
    rw [Option.eq_none_iff_forall_ne_some]
    intro compiled hkept
    rw [h.compile_of_lookup hkept] at htext
    cases htext
  obtain ⟨hfound, hentries⟩ := LawfulStore.use_of_lookup_eq_none hmissing
  have hcapacity := LawfulStore.capacity_use session.trees text
  unfold compile
  cases huse : use session.trees text with
  | mk found trees =>
    rw [huse] at hfound hentries hcapacity
    cases hfound
    rw [htext]
    exact ⟨rfl, hcapacity, hentries, rfl⟩

/-- A value put in under a new key goes before all entries, as far as there is room. -/
theorem entries_put {store : σ} {key : String} (value : Compiled)
    (hmissing : (entries store).lookup key = none) (hpos : 0 < capacity store)
    (hlength : (entries store).length ≤ capacity store) :
    entries (put store key value) = ((key, value) :: entries store).take (capacity store) := by
  obtain hroom | hfull := Nat.lt_or_eq_of_le hlength
  · rw [LawfulStore.entries_put_of_lt value hmissing hroom]
    exact (List.take_of_length_le hroom).symm
  · rw [LawfulStore.entries_put_of_eq value hmissing hpos hfull, List.dropLast_eq_take, hfull]
    exact (List.take_cons hpos).symm

/-- The use of a text with a formula answers its tree and keeps this as the one used last. -/
theorem IsSound.compile_of_ok {session : Session σ} (h : session.IsSound) {text : String}
    {formula : Formula} (htext : Calculator.compile text = .ok formula) :
    (session.compile text).1 = .ok (session.treeOf text formula) ∧
      session.Uses (session.compile text).2 text formula := by
  have hcapacity := LawfulStore.capacity_use session.trees text
  unfold compile
  cases hkept : (entries session.trees).lookup text with
  | some compiled =>
    obtain ⟨hfound, hentries⟩ := LawfulStore.use_of_lookup_eq_some hkept
    have hlength := length_otherEntries_lt hkept
    have hroom := h.length_le
    cases huse : use session.trees text with
    | mk found trees =>
      rw [huse] at hfound hentries hcapacity
      cases hfound
      refine ⟨by simp [treeOf, hkept], hcapacity, ?_, by simp [madeAfter, hkept]⟩
      simp only [entriesAfter, treeOf, hkept, Option.getD_some]
      rw [hentries, List.take_of_length_le (by simp only [List.length_cons]; omega)]
  | none =>
    obtain ⟨hfound, hentries⟩ := LawfulStore.use_of_lookup_eq_none hkept
    cases huse : use session.trees text with
    | mk found trees =>
      rw [huse] at hfound hentries hcapacity
      cases hfound
      rw [htext]
      refine ⟨by simp [treeOf, hkept], ?_, ?_, by simp [madeAfter, hkept]⟩
      · rw [LawfulStore.capacity_put, hcapacity]
      · rw [entries_put _ (hentries ▸ hkept) (hcapacity ▸ h.capacity_pos)
          (hcapacity ▸ hentries ▸ h.length_le), hentries, hcapacity]
        simp only [entriesAfter, treeOf, hkept, Option.getD_none,
          otherEntries_of_lookup_eq_none hkept]

end Session

end Calculator

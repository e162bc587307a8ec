import Mathlib.Data.List.Basic
import Mathlib.Data.List.TakeWhile

/-!
# Readers

A *reader* hands out the items of an input one after the other, from a cursor that moves on with
each item. A parser of a line format is a stack of readers: the lines of a text, the records among
the lines, the records of interest among those. `toList` is everything a reader still has to hand
out, and `toList_filterMap` says that a stack of readers hands out what filtering the list gives.

A loop over a reader that can leave early is `run`. By `run_eq_foldlM` it is a fold over the items,
so the rules for loops are stated for the fold: a step lemma gives an invariant of the loop
(`invariant_of_foldlM`, `of_foldlM_error`), and when the failure of a step depends on the item alone
the loop fails exactly when some item does (`foldlM_error_iff`).
-/

/-- A cursor of type `σ` over items of type `β`. -/
structure Reader (σ β : Type*) where
  /-- The next item and the cursor after it, or nothing at the end of the input. -/
  next : σ → Option (β × σ)
  /-- What is left to read. -/
  size : σ → ℕ
  /-- Reading an item moves the cursor on. -/
  size_lt : ∀ {s b s'}, next s = some (b, s') → size s' < size s

namespace Reader

variable {σ β γ τ ε : Type*} (r : Reader σ β)

/-! ### The items of a reader -/

/-- All items from the cursor on. -/
def toList (s : σ) : List β :=
  match _h : r.next s with
  | none => []
  | some (b, s') => b :: toList s'
termination_by r.size s
decreasing_by exact r.size_lt _h

variable {r} in
theorem toList_of_next_eq_none {s : σ} (h : r.next s = none) : r.toList s = [] := by
  rw [toList]
  split
  · rfl
  · next hs => exact absurd (h.symm.trans hs) (by simp)

variable {r} in
theorem toList_of_next_eq_some {s s' : σ} {b : β} (h : r.next s = some (b, s')) :
    r.toList s = b :: r.toList s' := by
  rw [toList]
  split
  · next hs => exact absurd (h.symm.trans hs) (by simp)
  · next hs =>
    obtain ⟨rfl, rfl⟩ := Prod.mk.inj (Option.some.inj (h.symm.trans hs))
    rfl

/-! ### Skipping items -/

/-- The search for the next item that `f` takes. -/
def find (f : β → Option γ) (s : σ) : Option (γ × σ) :=
  match _h : r.next s with
  | none => none
  | some (b, s') =>
    match f b with
    | none => find f s'
    | some c => some (c, s')
termination_by r.size s
decreasing_by exact r.size_lt _h

variable {r} in
theorem find_of_none {f : β → Option γ} {s : σ} (h : r.next s = none) : r.find f s = none := by
  rw [find]
  split
  · rfl
  · next hs => exact absurd (h.symm.trans hs) (by simp)

variable {r} in
theorem find_of_some {f : β → Option γ} {s s' : σ} {b : β} (h : r.next s = some (b, s')) :
    r.find f s = match f b with
      | none => r.find f s'
      | some c => some (c, s') := by
  rw [find]
  split
  · next hs => exact absurd (h.symm.trans hs) (by simp)
  · next hs =>
    obtain ⟨rfl, rfl⟩ := Prod.mk.inj (Option.some.inj (h.symm.trans hs))
    rfl

/-- What the search finds is the first item that `f` takes. -/
theorem find_spec (f : β → Option γ) (s : σ) :
    (r.find f s = none ∧ (r.toList s).filterMap f = []) ∨
      ∃ c s', r.find f s = some (c, s') ∧ r.size s' < r.size s ∧
        (r.toList s).filterMap f = c :: (r.toList s').filterMap f := by
  fun_induction find r f s with
  | case1 s hs => exact Or.inl ⟨rfl, by rw [toList_of_next_eq_none hs, List.filterMap_nil]⟩
  | case2 s b s' hs hb ih =>
    rw [toList_of_next_eq_some hs, List.filterMap_cons_none hb]
    refine ih.imp_right fun ⟨c, s'', hfind, hlt, hitems⟩ ↦ ⟨c, s'', hfind, ?_, hitems⟩
    exact hlt.trans (r.size_lt hs)
  | case3 s b s' hs c hb =>
    refine Or.inr ⟨c, s', rfl, r.size_lt hs, ?_⟩
    rw [toList_of_next_eq_some hs, List.filterMap_cons_some hb]

/-- The reader of the items that `f` takes. -/
def filterMap (f : β → Option γ) : Reader σ γ where
  next := r.find f
  size := r.size
  size_lt {s b s'} h := by
    rcases r.find_spec f s with ⟨hnone, -⟩ | ⟨c, s'', hsome, hlt, -⟩
    · exact absurd (hnone.symm.trans h) (by simp)
    · obtain ⟨-, rfl⟩ := Prod.mk.inj (Option.some.inj (hsome.symm.trans h))
      exact hlt

/-- A reader that skips items hands out what filtering the items gives. -/
theorem toList_filterMap (f : β → Option γ) (s : σ) :
    (r.filterMap f).toList s = (r.toList s).filterMap f := by
  fun_induction toList (r.filterMap f) s with
  | case1 s hs =>
    rcases r.find_spec f s with ⟨-, hitems⟩ | ⟨c, s', hsome, -⟩
    · exact hitems.symm
    · exact absurd (hsome.symm.trans hs) (by simp)
  | case2 s c s' hs ih =>
    rcases r.find_spec f s with ⟨hnone, -⟩ | ⟨c', s'', hsome, -, hitems⟩
    · exact absurd (hnone.symm.trans hs) (by simp)
    · obtain ⟨rfl, rfl⟩ := Prod.mk.inj (Option.some.inj (hsome.symm.trans hs))
      rw [hitems, ih]

/-! ### Loops -/

/-- The loop over the items: `body` goes on with a new state or leaves the loop. -/
def run (body : τ → β → Except ε τ) (t : τ) (s : σ) : Except ε τ :=
  match _h : r.next s with
  | none => .ok t
  | some (b, s') =>
    match body t b with
    | .error e => .error e
    | .ok t' => run body t' s'
termination_by r.size s
decreasing_by exact r.size_lt _h

/-- The loop is a fold over the items. -/
theorem run_eq_foldlM (body : τ → β → Except ε τ) (t : τ) (s : σ) :
    r.run body t s = (r.toList s).foldlM body t := by
  fun_induction run r body t s with
  | case1 t s hs => rw [toList_of_next_eq_none hs, List.foldlM_nil]; rfl
  | case2 t s b s' hs e hb => rw [toList_of_next_eq_some hs, List.foldlM_cons, hb]; rfl
  | case3 t s b s' hs t' hb ih => rw [toList_of_next_eq_some hs, List.foldlM_cons, hb, ih]; rfl

/-! ### Rules for loops -/

variable {body : τ → β → Except ε τ} {items : List β} {t t' : τ}

/-- How a fold over one more item ends. -/
theorem foldlM_cons_cases (body : τ → β → Except ε τ) (t : τ) (b : β) (items : List β) :
    (∃ e, body t b = .error e ∧ (b :: items).foldlM body t = .error e) ∨
      ∃ t', body t b = .ok t' ∧ (b :: items).foldlM body t = items.foldlM body t' := by
  cases hb : body t b with
  | error e => exact Or.inl ⟨e, rfl, by rw [List.foldlM_cons, hb]; rfl⟩
  | ok t' => exact Or.inr ⟨t', rfl, by rw [List.foldlM_cons, hb]; rfl⟩

/-- What every step keeps holds when the loop has come to its end. -/
theorem invariant_of_foldlM {Inv : τ → Prop}
    (hstep : ∀ b ∈ items, ∀ t t', Inv t → body t b = .ok t' → Inv t') (h : Inv t)
    (hrun : items.foldlM body t = .ok t') : Inv t' := by
  induction items generalizing t with
  | nil => exact Except.ok.inj hrun ▸ h
  | cons b items ih =>
    rcases foldlM_cons_cases body t b items with ⟨e, -, hfold⟩ | ⟨t₁, hb, hfold⟩
    · exact absurd (hfold.symm.trans hrun) (by simp)
    · exact ih (fun b hmem ↦ hstep b (List.mem_cons_of_mem _ hmem))
        (hstep b List.mem_cons_self t t₁ h hb) (hfold.symm.trans hrun)

/-- What the step for one of the items establishes and every step keeps. -/
theorem of_mem_foldlM {Q : τ → Prop} {b : β} (hmem : b ∈ items)
    (hb : ∀ t t', body t b = .ok t' → Q t')
    (hstep : ∀ b ∈ items, ∀ t t', Q t → body t b = .ok t' → Q t')
    (hrun : items.foldlM body t = .ok t') : Q t' := by
  induction items generalizing t with
  | nil => exact absurd hmem (List.not_mem_nil)
  | cons b' items ih =>
    rcases foldlM_cons_cases body t b' items with ⟨e, -, hfold⟩ | ⟨t₁, hb', hfold⟩
    · exact absurd (hfold.symm.trans hrun) (by simp)
    have htail := fun b hmem ↦ hstep b (List.mem_cons_of_mem b' hmem)
    rcases List.mem_cons.mp hmem with rfl | hmem
    · exact invariant_of_foldlM htail (hb t t₁ hb') (hfold.symm.trans hrun)
    · exact ih hmem htail (hfold.symm.trans hrun)

/-- When the loop is left early, some item's step left it, in a state that the invariant describes.
-/
theorem of_foldlM_error {Inv : τ → Prop} {e : ε}
    (hstep : ∀ b ∈ items, ∀ t t', Inv t → body t b = .ok t' → Inv t') (h : Inv t)
    (hrun : items.foldlM body t = .error e) : ∃ b ∈ items, ∃ t, Inv t ∧ body t b = .error e := by
  induction items generalizing t with
  | nil => exact absurd hrun (by rintro ⟨⟩)
  | cons b items ih =>
    rcases foldlM_cons_cases body t b items with ⟨e', hb, hfold⟩ | ⟨t₁, hb, hfold⟩
    · obtain rfl := Except.error.inj (hfold.symm.trans hrun)
      exact ⟨b, List.mem_cons_self, t, h, hb⟩
    · obtain ⟨b', hmem, t₂, h₂, hb'⟩ := ih (fun b hmem ↦ hstep b (List.mem_cons_of_mem _ hmem))
        (hstep b List.mem_cons_self t t₁ h hb) (hfold.symm.trans hrun)
      exact ⟨b', List.mem_cons_of_mem b hmem, t₂, h₂, hb'⟩

/-- When the invariant and an item decide between them whether the item's step fails, the loop fails
exactly when some item does. -/
theorem foldlM_error_iff_of_invariant {Inv : τ → Prop} {Fails : β → Prop}
    (hstep : ∀ b ∈ items, ∀ t t', Inv t → body t b = .ok t' → Inv t')
    (hfails : ∀ b ∈ items, ∀ t, Inv t → ((∃ e, body t b = .error e) ↔ Fails b)) (h : Inv t) :
    (∃ e, items.foldlM body t = .error e) ↔ ∃ b ∈ items, Fails b := by
  induction items generalizing t with
  | nil => exact ⟨by rintro ⟨e, ⟨⟩⟩, by rintro ⟨b, hmem, -⟩; exact absurd hmem List.not_mem_nil⟩
  | cons b items ih =>
    rw [List.exists_mem_cons_iff, ← hfails b List.mem_cons_self t h]
    rcases foldlM_cons_cases body t b items with ⟨e, hb, hfold⟩ | ⟨t₁, hb, hfold⟩
    · exact ⟨fun _ ↦ Or.inl ⟨e, hb⟩, fun _ ↦ ⟨e, hfold⟩⟩
    · rw [hfold, hb, ih (fun b hmem ↦ hstep b (List.mem_cons_of_mem _ hmem))
        (fun b hmem ↦ hfails b (List.mem_cons_of_mem _ hmem))
        (hstep b List.mem_cons_self t t₁ h hb)]
      exact ⟨Or.inr, fun h ↦ h.resolve_left (by rintro ⟨e, ⟨⟩⟩)⟩

/-- When an item's step fails or not in every state alike, the loop fails exactly when some item
does. -/
theorem foldlM_error_iff {Fails : β → Prop} (hfails : ∀ t b, (∃ e, body t b = .error e) ↔ Fails b) :
    (∃ e, items.foldlM body t = .error e) ↔ ∃ b ∈ items, Fails b :=
  have hstep : ∀ b ∈ items, ∀ t t', True → body t b = .ok t' → True := fun _ _ _ _ _ _ ↦ trivial
  foldlM_error_iff_of_invariant hstep (fun b _ t _ ↦ hfails t b) trivial

/-- A loop over lists of items is a loop of loops. -/
theorem foldlM_flatMap {α : Type*} (f : α → List β) (l : List α) (t : τ) :
    (l.flatMap f).foldlM body t = l.foldlM (fun t a ↦ (f a).foldlM body t) t := by
  induction l generalizing t with
  | nil => rfl
  | cons a l ih =>
    rw [List.flatMap_cons, List.foldlM_append, List.foldlM_cons]
    exact bind_congr fun t' ↦ ih t'

/-! ### Lines -/

variable {α : Type*} [DecidableEq α]

/-- The lines of a text. The last one need not be ended. -/
def lines (nl : α) : Reader (List α) (List α) where
  next cur :=
    if cur = [] then none else some (cur.takeWhile (· ≠ nl), (cur.dropWhile (· ≠ nl)).drop 1)
  size := List.length
  size_lt {cur line rest} h := by
    by_cases hcur : cur = []
    · rw [if_pos hcur] at h
      exact absurd h (by simp)
    · rw [if_neg hcur] at h
      obtain ⟨-, rfl⟩ := Prod.mk.inj (Option.some.inj h)
      have hdrop := List.length_dropWhile_le (fun b ↦ decide (b ≠ nl)) cur
      have hpos := List.length_pos_iff.mpr hcur
      rw [List.length_drop]
      omega

theorem toList_lines_nil (nl : α) : (lines nl).toList [] = [] :=
  toList_of_next_eq_none rfl

/-- A line that is ended. -/
theorem toList_lines_append {nl : α} {line : List α} (h : nl ∉ line) (rest : List α) :
    (lines nl).toList (line ++ nl :: rest) = line :: (lines nl).toList rest := by
  have hall : ∀ b ∈ line, decide (b ≠ nl) = true := fun b hb ↦ decide_eq_true fun heq ↦ h (heq ▸ hb)
  have hnext : (lines nl).next (line ++ nl :: rest) = some (line, rest) := by
    refine (if_neg (by simp)).trans (congrArg some ?_)
    rw [List.takeWhile_append_of_pos hall, List.dropWhile_append_of_pos hall]
    simp
  exact toList_of_next_eq_some hnext

/-- A last line that is not. -/
theorem toList_lines_last {nl : α} {line : List α} (h : nl ∉ line) (hne : line ≠ []) :
    (lines nl).toList line = [line] := by
  have hall : ∀ b ∈ line, decide (b ≠ nl) = true := fun b hb ↦ decide_eq_true fun heq ↦ h (heq ▸ hb)
  have hnext : (lines nl).next line = some (line, []) := by
    refine (if_neg hne).trans (congrArg some ?_)
    rw [List.takeWhile_eq_self_iff.2 hall, List.dropWhile_eq_nil_iff.2 hall]
    rfl
  rw [toList_of_next_eq_some hnext, toList_lines_nil]

end Reader

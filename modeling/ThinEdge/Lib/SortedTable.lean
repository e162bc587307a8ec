import Mathlib.Data.List.Basic
import Mathlib.Data.Nat.Basic
import Mathlib.Logic.Function.Iterate
import Mathlib.Order.Lattice
import Mathlib.Order.RelClasses

/-!
# A table in strictly increasing order

A table is a list of entries, each with a key of a linear order. When the keys increase strictly,
the first entry above a key, found by scanning from the front, is the least one above it, the entry
that follows an entry is the first one above that entry's own key, and asking again and again for
the first entry above the last answer goes through all entries above the start, in order
(`Sorted.getElem?_walk`).
-/

namespace SortedTable

variable {α κ : Type*} [LinearOrder κ] (key : α → κ)

/-- The keys increase strictly. -/
def Sorted (t : List α) : Prop := t.Pairwise fun a b ↦ key a < key b

/-- The index of the first entry above `k`. -/
def above (t : List α) (k : κ) : Option ℕ := t.findIdx? fun a ↦ k < key a

/-- The index at which the entries above `k` begin. -/
def rank (t : List α) (k : κ) : ℕ := t.findIdx fun a ↦ k < key a

/-- The key of the first entry above `k`, or `k` again when there is none. -/
def next (t : List α) (k : κ) : κ := (((above key t k).bind (t[·]?)).map key).getD k

/-- The `n`-th answer of a walk from `k`, each step asking for what is above the last answer. -/
def walk (t : List α) (k : κ) (n : ℕ) : Option ℕ := above key t ((next key t)^[n] k)

variable {key} {t : List α} {k : κ} {i j : ℕ}

theorem above_eq :
    above key t k = if rank key t k < t.length then some (rank key t k) else none := by
  rw [above, List.findIdx?_eq_guard_findIdx_lt, rank]
  by_cases h : t.findIdx (fun a ↦ decide (k < key a)) < t.length
  · rw [if_pos h, Option.guard, if_pos (by simpa using h)]
  · rw [if_neg h, Option.guard, if_neg (by simpa using h)]

theorem above_eq_none_iff : above key t k = none ↔ ∀ a ∈ t, key a ≤ k := by
  simp [above, List.findIdx?_eq_none_iff]

theorem above_of_drop_nil (h : t.drop (rank key t k) = []) : above key t k = none := by
  rw [above_eq, if_neg (Nat.not_lt.2 (List.drop_eq_nil_iff.1 h))]

theorem rank_le_length : rank key t k ≤ t.length := List.findIdx_le_length

/-! ### Sorted tables -/

namespace Sorted

variable (hs : Sorted key t)

include hs

theorem key_lt_key (hi : i < t.length) (hj : j < t.length) (h : i < j) : key t[i] < key t[j] :=
  List.pairwise_iff_getElem.1 hs i j hi hj h

theorem key_lt_key_iff (hi : i < t.length) (hj : j < t.length) : key t[i] < key t[j] ↔ i < j := by
  refine ⟨fun h ↦ ?_, hs.key_lt_key hi hj⟩
  by_contra hle
  rcases Nat.lt_or_eq_of_le (Nat.le_of_not_lt hle) with hlt | rfl
  · exact lt_asymm h (hs.key_lt_key hj hi hlt)
  · exact lt_irrefl _ h

/-- The entries above `k` are the ones from `rank` on. -/
theorem lt_key_iff (hi : i < t.length) : k < key t[i] ↔ rank key t k ≤ i := by
  constructor
  · intro h
    by_contra hlt
    have hno := List.not_of_lt_findIdx (Nat.lt_of_not_le hlt)
    rw [decide_eq_false_iff_not] at hno
    exact hno h
  · intro hle
    have hlt : rank key t k < t.length := hle.trans_lt hi
    have hrank : k < key t[rank key t k] := of_decide_eq_true (List.findIdx_getElem (w := hlt))
    rcases Nat.lt_or_eq_of_le hle with h | h
    · exact hrank.trans (hs.key_lt_key hlt hi h)
    · simpa only [h] using hrank

/-- **The first entry above a key is the least one above it.** -/
theorem above_eq_some_iff :
    above key t k = some i ↔
      ∃ h : i < t.length, k < key t[i] ∧ ∀ a ∈ t, k < key a → key t[i] ≤ key a := by
  rw [above_eq]
  constructor
  · intro h
    split at h
    · next hlt =>
      obtain rfl := Option.some.inj h
      refine ⟨hlt, (hs.lt_key_iff hlt).2 le_rfl, fun a ha hka ↦ ?_⟩
      obtain ⟨j, hj, rfl⟩ := List.mem_iff_getElem.1 ha
      have hle := (hs.lt_key_iff hj).1 hka
      exact not_lt.1 fun h ↦ absurd ((hs.key_lt_key_iff hj hlt).1 h) (Nat.not_lt.2 hle)
    · exact absurd h (by simp)
  · rintro ⟨hi, hk, hleast⟩
    have hle : rank key t k ≤ i := (hs.lt_key_iff hi).1 hk
    have hlt : rank key t k < t.length := hle.trans_lt hi
    have hge := hleast _ (List.getElem_mem hlt) ((hs.lt_key_iff hlt).2 le_rfl)
    have hnot : ¬ rank key t k < i := fun h ↦ absurd (hs.key_lt_key hlt hi h) (not_lt.2 hge)
    rw [if_pos hlt, Option.some.injEq]
    omega

/-- The entries above an entry's own key begin right after it. -/
theorem rank_key (hi : i < t.length) : rank key t (key t[i]) = i + 1 := by
  refine Nat.le_antisymm ?_ ?_
  · by_contra hlt
    have hj : i + 1 < t.length := (Nat.lt_of_not_le hlt).trans_le rank_le_length
    exact hlt ((hs.lt_key_iff hj).1 (hs.key_lt_key hi hj (Nat.lt_succ_self i)))
  · by_contra hle
    exact absurd ((hs.lt_key_iff hi).2 (by omega)) (lt_irrefl _)

/-- **The entry after an entry is the first one above it.** -/
theorem above_key (hi : i < t.length) :
    above key t (key t[i]) = if i + 1 < t.length then some (i + 1) else none := by
  rw [above_eq, hs.rank_key hi]

theorem filter_eq_drop : t.filter (fun a ↦ k < key a) = t.drop (rank key t k) := by
  have htake : (t.take (rank key t k)).filter (fun a ↦ k < key a) = [] := by
    rw [List.filter_eq_nil_iff]
    intro a ha
    obtain ⟨j, hj, rfl⟩ := List.mem_iff_getElem.1 ha
    rw [List.length_take] at hj
    rw [List.getElem_take, decide_eq_true_eq, hs.lt_key_iff (by omega)]
    omega
  have hdrop : (t.drop (rank key t k)).filter (fun a ↦ k < key a) = t.drop (rank key t k) := by
    rw [List.filter_eq_self]
    intro a ha
    obtain ⟨j, hj, rfl⟩ := List.mem_iff_getElem.1 ha
    rw [List.length_drop] at hj
    rw [List.getElem_drop, decide_eq_true_eq, hs.lt_key_iff (by omega)]
    omega
  calc t.filter (fun a ↦ k < key a)
      = (t.take (rank key t k) ++ t.drop (rank key t k)).filter (fun a ↦ k < key a) := by
        rw [List.take_append_drop]
    _ = t.drop (rank key t k) := by rw [List.filter_append, htake, hdrop, List.nil_append]

/-- The entries above a key are the first one above it and the entries above that one. -/
theorem above_of_drop_cons {a : α} {as : List α} (h : t.drop (rank key t k) = a :: as) :
    ∃ i, above key t k = some i ∧ t[i]? = some a ∧ t.drop (rank key t (key a)) = as := by
  have hlt : rank key t k < t.length := by
    by_contra hle
    rw [List.drop_eq_nil_of_le (Nat.le_of_not_lt hle)] at h
    exact absurd h (List.cons_ne_nil _ _).symm
  rw [List.drop_eq_getElem_cons hlt] at h
  obtain ⟨rfl, rfl⟩ := List.cons.inj h
  refine ⟨rank key t k, by rw [above_eq, if_pos hlt], List.getElem?_eq_getElem hlt, ?_⟩
  rw [hs.rank_key hlt]

/-! ### Walks -/

theorem rank_next : rank key t (next key t k) = min (rank key t k + 1) t.length := by
  have hle : rank key t k ≤ t.length := rank_le_length
  rw [next, above_eq]
  by_cases h : rank key t k < t.length
  · rw [if_pos h, Option.bind_some, List.getElem?_eq_getElem h, Option.map_some, Option.getD_some,
      hs.rank_key h]
    omega
  · rw [if_neg h, Option.bind_none, Option.map_none, Option.getD_none]
    omega

theorem rank_iterate_next (n : ℕ) :
    rank key t ((next key t)^[n] k) = min (rank key t k + n) t.length := by
  induction n with
  | zero =>
    have hle : rank key t k ≤ t.length := rank_le_length
    simp only [Function.iterate_zero, id]
    omega
  | succ n ih =>
    rw [Function.iterate_succ_apply', hs.rank_next, ih]
    omega

theorem walk_eq (n : ℕ) :
    walk key t k n = if rank key t k + n < t.length then some (rank key t k + n) else none := by
  rw [walk, above_eq, hs.rank_iterate_next]
  by_cases h : rank key t k + n < t.length
  · rw [if_pos h, if_pos (by omega), Nat.min_eq_left h.le]
  · rw [if_neg h, if_neg (by omega)]

/-- **A walk goes through the entries above its start, in order and each once.** -/
theorem getElem?_walk (n : ℕ) :
    (walk key t k n).bind (t[·]?) = (t.filter fun a ↦ k < key a)[n]? := by
  rw [hs.walk_eq, hs.filter_eq_drop, List.getElem?_drop]
  by_cases h : rank key t k + n < t.length
  · rw [if_pos h, Option.bind_some]
  · rw [if_neg h, Option.bind_none, List.getElem?_eq_none (by omega)]

end Sorted

end SortedTable

import Mathlib.Data.List.Induction
import Mathlib.Data.List.Nodup

/-!
# Grouping by a key

A table in insertion order: each item of a list is added to the entry of its key, which its first
item sets up. `table_spec` says what comes out: the keys are those of the items, each once and in
the order of their first items, and an entry has been set up by the first item of its key and has
got all of them, in order.
-/

namespace GroupBy

variable {β γ κ : Type*} [DecidableEq κ] (key : β → κ) (new : β → γ) (add : β → γ → γ)

/-- Add an item to the entry of its key. -/
def insert (out : List (κ × γ)) (b : β) : List (κ × γ) :=
  if key b ∈ out.map Prod.fst then
    out.map fun e ↦ if e.1 = key b then (e.1, add b e.2) else e
  else out ++ [(key b, add b (new b))]

/-- The table of a list. -/
def table (l : List β) : List (κ × γ) := l.foldl (insert key new add) []

/-- What the table of a list is. -/
structure IsTable (l : List β) (out : List (κ × γ)) : Prop where
  nodup : (out.map Prod.fst).Nodup
  order : (out.map Prod.fst).Sublist (l.map key)
  key_mem : ∀ b ∈ l, key b ∈ out.map Prod.fst
  entry : ∀ e ∈ out, ∃ b rest, l.filter (key · = e.1) = b :: rest ∧
    e.2 = (b :: rest).foldl (fun g b ↦ add b g) (new b)

variable {key new add} {l : List β} {out : List (κ × γ)} {b : β}

theorem isTable_nil : IsTable key new add [] ([] : List (κ × γ)) :=
  ⟨List.nodup_nil, List.Sublist.refl _, fun _ h ↦ absurd h List.not_mem_nil,
    fun _ h ↦ absurd h List.not_mem_nil⟩

theorem filter_concat_of_ne {k : κ} (h : key b ≠ k) :
    (l ++ [b]).filter (key · = k) = l.filter (key · = k) := by
  simp [List.filter_append, h]

theorem filter_concat_of_eq {k : κ} (h : key b = k) :
    (l ++ [b]).filter (key · = k) = l.filter (key · = k) ++ [b] := by
  simp [List.filter_append, h]

/-- An item whose key is there. -/
theorem IsTable.insert_of_mem (ht : IsTable key new add l out) (hb : key b ∈ out.map Prod.fst) :
    IsTable key new add (l ++ [b]) (insert key new add out b) := by
  have hkeys : (out.map fun e ↦ if e.1 = key b then (e.1, add b e.2) else e).map Prod.fst =
      out.map Prod.fst := by
    rw [List.map_map]
    refine List.map_congr_left fun e _ ↦ ?_
    dsimp only [Function.comp]
    split <;> rfl
  rw [insert, if_pos hb]
  refine ⟨hkeys ▸ ht.nodup, ?_, fun c hc ↦ ?_, fun e he ↦ ?_⟩
  · rw [hkeys, List.map_append]
    exact ht.order.trans (List.sublist_append_left _ _)
  · rw [hkeys]
    rcases List.mem_append.1 hc with hc | hc
    · exact ht.key_mem c hc
    · exact List.mem_singleton.1 hc ▸ hb
  · obtain ⟨e', he', rfl⟩ := List.mem_map.1 he
    obtain ⟨first, rest, hfilter, hfold⟩ := ht.entry e' he'
    split
    · next heq =>
      refine ⟨first, rest ++ [b], ?_, ?_⟩
      · rw [filter_concat_of_eq heq.symm, hfilter, List.cons_append]
      · rw [hfold, ← List.cons_append, List.foldl_append]
        rfl
    · next hne =>
      exact ⟨first, rest, by rw [filter_concat_of_ne (Ne.symm hne), hfilter], hfold⟩

/-- An item that comes with a new key. -/
theorem IsTable.insert_of_not_mem (ht : IsTable key new add l out)
    (hb : key b ∉ out.map Prod.fst) :
    IsTable key new add (l ++ [b]) (insert key new add out b) := by
  have hkeys : (out ++ [(key b, add b (new b))]).map Prod.fst = out.map Prod.fst ++ [key b] := by
    rw [List.map_append]
    rfl
  rw [insert, if_neg hb]
  refine ⟨?_, ?_, fun c hc ↦ ?_, fun e he ↦ ?_⟩
  · rw [hkeys]
    exact List.nodup_append.2 ⟨ht.nodup, List.nodup_singleton _, fun k hk k' hk' heq ↦
      hb (List.mem_singleton.1 hk' ▸ heq ▸ hk)⟩
  · rw [hkeys, List.map_append]
    exact ht.order.append (List.Sublist.refl _)
  · rw [hkeys]
    rcases List.mem_append.1 hc with hc | hc
    · exact List.mem_append_left _ (ht.key_mem c hc)
    · rw [List.mem_singleton.1 hc]
      exact List.mem_append_right _ (List.mem_singleton_self _)
  · rcases List.mem_append.1 he with he | he
    · obtain ⟨first, rest, hfilter, hfold⟩ := ht.entry e he
      have hne : key b ≠ e.1 := fun heq ↦ hb (heq ▸ List.mem_map_of_mem he)
      exact ⟨first, rest, by rw [filter_concat_of_ne hne, hfilter], hfold⟩
    · obtain rfl := List.mem_singleton.1 he
      have hnone : l.filter (key · = key b) = [] := by
        rw [List.filter_eq_nil_iff]
        intro c hc heq
        exact hb (of_decide_eq_true heq ▸ ht.key_mem c hc)
      exact ⟨b, [], by rw [filter_concat_of_eq rfl, hnone, List.nil_append], rfl⟩

/-- **The table of a list.** -/
theorem table_spec (l : List β) : IsTable key new add l (table key new add l) := by
  induction l using List.reverseRecOn with
  | nil => exact isTable_nil
  | append_singleton l b ih =>
    have hstep : table key new add (l ++ [b]) = insert key new add (table key new add l) b := by
      rw [table, List.foldl_append]
      rfl
    rw [hstep]
    rcases Decidable.em (key b ∈ (table key new add l).map Prod.fst) with hb | hb
    · exact ih.insert_of_mem hb
    · exact ih.insert_of_not_mem hb

end GroupBy
